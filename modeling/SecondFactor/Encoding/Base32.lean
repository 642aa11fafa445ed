import SecondFactor.Bytes

/-!
# Base32 text

The alphabet is `A`–`Z`, `2`–`7`; five bytes make eight symbols. The padded form fills the last
group with `=`, so that the texts of two byte strings can be joined and still be read: every group
carries its own padding. Reading is strict. Only upper case is taken, a group has one of the five
shapes that writing can produce, and the bits that padding leaves over must be zero.
-/

namespace SecondFactor.Base32

def symbol (n : Nat) : Char := if n < 26 then Char.ofNat (65 + n) else Char.ofNat (24 + n)

def value? (c : Char) : Option Nat :=
  if 'A' ≤ c ∧ c ≤ 'Z' then some (c.toNat - 65)
  else if '2' ≤ c ∧ c ≤ '7' then some (c.toNat - 24)
  else none

/-- The number that up to five bytes stand for, missing bytes counting as zero. -/
def groupNumber (a b c d e : UInt8) : Nat :=
  (((a.toNat * 256 + b.toNat) * 256 + c.toNat) * 256 + d.toNat) * 256 + e.toNat

/-- The first `count` of the eight symbols of a 40-bit number. -/
def symbols (n count : Nat) : List Char :=
  (List.range count).map fun i => symbol ((n >>> (5 * (7 - i))) % 32)

def chars : Bytes → List Char
  | a :: b :: c :: d :: e :: rest => symbols (groupNumber a b c d e) 8 ++ chars rest
  | [a, b, c, d] => symbols (groupNumber a b c d 0) 7
  | [a, b, c] => symbols (groupNumber a b c 0 0) 5
  | [a, b] => symbols (groupNumber a b 0 0 0) 4
  | [a] => symbols (groupNumber a 0 0 0 0) 2
  | [] => []

def encodeUnpadded (bs : Bytes) : String := String.ofList (chars bs)

def encode (bs : Bytes) : String :=
  let cs := chars bs
  String.ofList (cs ++ List.replicate ((8 - cs.length % 8) % 8) '=')

/-! ## Reading -/

/-- The number of bytes that a group of so many symbols holds; other lengths cannot be written. -/
def groupBytes? : Nat → Option Nat
  | 2 => some 1
  | 4 => some 2
  | 5 => some 3
  | 7 => some 4
  | 8 => some 5
  | _ => none

/-- The bytes of one group, given its symbols without the padding. -/
def decodeGroup? (cs : List Char) : Option Bytes := do
  let count ← groupBytes? cs.length
  let values ← cs.mapM value?
  let n := (values ++ List.replicate (8 - cs.length) 0).foldl (fun n v => n * 32 + v) 0
  if n % (1 <<< (8 * (5 - count))) = 0 then
    return (List.range count).map fun i => UInt8.ofNat (n >>> (8 * (4 - i)))
  else none

/-- The symbols of a group up to its padding. -/
def stripPadding (group : List Char) : List Char :=
  (group.reverse.dropWhile (· == '=')).reverse

/-- The bytes that padded groups of eight stand for. -/
def decodeChars? : List Char → Option Bytes
  | [] => some []
  | a :: b :: c :: d :: e :: f :: g :: h :: rest => do
    let bytes ← decodeGroup? (stripPadding [a, b, c, d, e, f, g, h])
    let more ← decodeChars? rest
    return bytes ++ more
  | _ => none

def decode? (s : String) : Option Bytes := decodeChars? s.toList

def decodeUnpadded? (s : String) : Option Bytes :=
  let cs := s.toList
  if cs.contains '=' then none
  else decodeChars? (cs ++ List.replicate ((8 - cs.length % 8) % 8) '=')

end SecondFactor.Base32
