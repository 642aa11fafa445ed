import SecondFactor.Bytes

/-!
# Reading the tokens of JSON

A document is read from left to right and the first fault met decides how it is refused: the text
is not JSON, the text ends too early, or the text is JSON of another shape than the reader
expects. This module reads blanks, literals and strings, and skips strings that nobody asked for.

Strings are taken byte by byte; that their bytes are UTF-8 is asked at the closing quote. Two
escapes of surrogate halves make one character. A skipped string is not looked at beyond its
escapes.
-/

namespace SecondFactor.Json

inductive Fault where
  /-- The text is not JSON. -/
  | malformed
  /-- The text is JSON of another shape. -/
  | mismatch
  /-- The text ends too early. -/
  | truncated
  deriving DecidableEq

/-! ## Blanks and literals -/

/-- Space, line feed, carriage return and tab. -/
def isBlank (b : UInt8) : Bool := b == 0x20 || b == 0x0a || b == 0x0d || b == 0x09

def skipBlanks (bs : Bytes) : Bytes := bs.dropWhile isBlank

def readLiteral : (expected : Bytes) → Bytes → Except Fault Bytes
  | [], bs => .ok bs
  | _ :: _, [] => .error .truncated
  | e :: expected, b :: bs => if b = e then readLiteral expected bs else .error .malformed

def isDigit (b : UInt8) : Bool := 0x30 ≤ b && b ≤ 0x39

/-! ## Strings -/

def hexValue? (b : UInt8) : Option Nat :=
  if 0x30 ≤ b ∧ b ≤ 0x39 then some (b.toNat - 0x30)
  else if 0x61 ≤ b ∧ b ≤ 0x66 then some (b.toNat - 0x57)
  else if 0x41 ≤ b ∧ b ≤ 0x46 then some (b.toNat - 0x37)
  else none

/-- The number in the four digits at the front of a text. -/
def readHex4 : Bytes → Except Fault (Nat × Bytes)
  | a :: b :: c :: d :: rest =>
    match hexValue? a, hexValue? b, hexValue? c, hexValue? d with
    | some a, some b, some c, some d => .ok (((a * 16 + b) * 16 + c) * 16 + d, rest)
    | _, _, _, _ => .error .malformed
  | _ => .error .truncated

def codePointBytes (n : Nat) : Bytes := Bytes.ofText (String.singleton (Char.ofNat n))

/-- The first half of a surrogate pair. -/
def isHighSurrogate (n : Nat) : Bool := 0xd800 ≤ n && n ≤ 0xdbff

/-- The second half of a surrogate pair. -/
def isLowSurrogate (n : Nat) : Bool := 0xdc00 ≤ n && n ≤ 0xdfff

/-- The second half of a surrogate pair, after the first half `high`. -/
def readLowSurrogate (high : Nat) : Bytes → Except Fault (Bytes × Bytes)
  | [] => .error .truncated
  | b :: bs =>
    if b ≠ 0x5c then .error .malformed
    else match bs with
      | [] => .error .truncated
      | c :: cs =>
        if c ≠ 0x75 then .error .malformed
        else do
          let (low, rest) ← readHex4 cs
          if isLowSurrogate low then
            return (codePointBytes (0x10000 + (high - 0xd800) * 0x400 + (low - 0xdc00)), rest)
          else throw .malformed

/-- The character that a number escape stands for, after its `u`. -/
def readNumberEscape (bs : Bytes) : Except Fault (Bytes × Bytes) := do
  let (n, rest) ← readHex4 bs
  if isLowSurrogate n then throw .malformed
  else if isHighSurrogate n then readLowSurrogate n rest
  else return (codePointBytes n, rest)

/-- The bytes that an escape stands for, after its backslash. -/
def readEscape : Bytes → Except Fault (Bytes × Bytes)
  | [] => .error .truncated
  | b :: rest =>
    if b = 0x22 ∨ b = 0x5c ∨ b = 0x2f then .ok ([b], rest)
    else if b = 0x62 then .ok ([0x08], rest)
    else if b = 0x66 then .ok ([0x0c], rest)
    else if b = 0x6e then .ok ([0x0a], rest)
    else if b = 0x72 then .ok ([0x0d], rest)
    else if b = 0x74 then .ok ([0x09], rest)
    else if b = 0x75 then readNumberEscape rest
    else .error .malformed

/-- The bytes up to the closing quote; `fuel` bounds the number of characters and escapes. -/
def readContent : (fuel : Nat) → Bytes → Except Fault (Bytes × Bytes)
  | 0, _ => .error .truncated
  | _ + 1, [] => .error .truncated
  | fuel + 1, b :: bs =>
    if b = 0x22 then .ok ([], bs)
    else if b = 0x5c then do
      let (piece, rest) ← readEscape bs
      let (content, rest) ← readContent fuel rest
      return (piece ++ content, rest)
    else if b < 0x20 then .error .malformed
    else do
      let (content, rest) ← readContent fuel bs
      return (b :: content, rest)

/-- The text of a string, after its opening quote. -/
def readString (bs : Bytes) : Except Fault (String × Bytes) := do
  let (content, rest) ← readContent (bs.length + 1) bs
  match Bytes.toText? content with
  | some s => return (s, rest)
  | none => throw .malformed

/-- The rest after a number escape that nobody asked for: its four digits may stand for anything. -/
def skipEscape : Bytes → Except Fault Bytes
  | [] => .error .truncated
  | b :: rest =>
    if b = 0x75 then do
      let (_, rest) ← readHex4 rest
      return rest
    else if b = 0x22 ∨ b = 0x5c ∨ b = 0x2f ∨ b = 0x62 ∨ b = 0x66 ∨ b = 0x6e ∨ b = 0x72 ∨
        b = 0x74 then
      .ok rest
    else .error .malformed

/-- The rest after a string that nobody asked for, after its opening quote. -/
def skipContent : (fuel : Nat) → Bytes → Except Fault Bytes
  | 0, _ => .error .truncated
  | _ + 1, [] => .error .truncated
  | fuel + 1, b :: bs =>
    if b = 0x22 then .ok bs
    else if b = 0x5c then do
      let rest ← skipEscape bs
      skipContent fuel rest
    else if b < 0x20 then .error .malformed
    else skipContent fuel bs

def skipString (bs : Bytes) : Except Fault Bytes := skipContent (bs.length + 1) bs

end SecondFactor.Json
