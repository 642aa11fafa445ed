import SecondFactor.Bytes

/-!
# Base64 text without padding

Three bytes make four symbols. Two alphabets are in use, which differ in their last two symbols:
the standard one inside password hashes, the URL-safe one for session tokens. Reading is strict:
the bits that a short last group leaves over must be zero, so a byte string has one text only.
-/

namespace SecondFactor.Base64

/-- The last two symbols of an alphabet; the first sixty-two are `A`–`Z`, `a`–`z`, `0`–`9`. -/
structure Alphabet where
  sixtyTwo : Char
  sixtyThree : Char

def Alphabet.standard : Alphabet := ⟨'+', '/'⟩

def Alphabet.urlSafe : Alphabet := ⟨'-', '_'⟩

def symbol (α : Alphabet) (n : Nat) : Char :=
  if n < 26 then Char.ofNat (65 + n)
  else if n < 52 then Char.ofNat (71 + n)
  else if n < 62 then Char.ofNat (n - 4)
  else if n = 62 then α.sixtyTwo
  else α.sixtyThree

def value? (α : Alphabet) (c : Char) : Option Nat :=
  if 'A' ≤ c ∧ c ≤ 'Z' then some (c.toNat - 65)
  else if 'a' ≤ c ∧ c ≤ 'z' then some (c.toNat - 71)
  else if '0' ≤ c ∧ c ≤ '9' then some (c.toNat + 4)
  else if c = α.sixtyTwo then some 62
  else if c = α.sixtyThree then some 63
  else none

/-- The first `count` of the four symbols of a 24-bit number. -/
def symbols (α : Alphabet) (n count : Nat) : List Char :=
  (List.range count).map fun i => symbol α ((n >>> (6 * (3 - i))) % 64)

def chars (α : Alphabet) : Bytes → List Char
  | a :: b :: c :: rest =>
    symbols α ((a.toNat * 256 + b.toNat) * 256 + c.toNat) 4 ++ chars α rest
  | [a, b] => symbols α ((a.toNat * 256 + b.toNat) * 256) 3
  | [a] => symbols α (a.toNat * 65536) 2
  | [] => []

def encode (α : Alphabet) (bs : Bytes) : String := String.ofList (chars α bs)

def decodeChars? (α : Alphabet) : List Char → Option Bytes
  | [] => some []
  | [_] => none
  | [w, x] => do
    let n := (← value? α w) * 64 + (← value? α x)
    if n % 16 = 0 then return [UInt8.ofNat (n / 16)] else none
  | [w, x, y] => do
    let n := ((← value? α w) * 64 + (← value? α x)) * 64 + (← value? α y)
    if n % 4 = 0 then return [UInt8.ofNat (n / 1024), UInt8.ofNat (n / 4)] else none
  | w :: x :: y :: z :: rest => do
    let n := (((← value? α w) * 64 + (← value? α x)) * 64 + (← value? α y)) * 64 + (← value? α z)
    let more ← decodeChars? α rest
    return UInt8.ofNat (n / 65536) :: UInt8.ofNat (n / 256) :: UInt8.ofNat n :: more

def decode? (α : Alphabet) (s : String) : Option Bytes := decodeChars? α s.toList

end SecondFactor.Base64
