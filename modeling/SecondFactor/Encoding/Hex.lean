import SecondFactor.Bytes

/-!
# Hexadecimal text

Two digits a byte, high half first. Writing uses the lower-case digits; reading takes either case.
-/

namespace SecondFactor.Hex

def digit (n : Nat) : Char := if n < 10 then Char.ofNat (48 + n) else Char.ofNat (87 + n)

/-- The value of a digit of either case. -/
def value? (c : Char) : Option Nat :=
  if '0' ≤ c ∧ c ≤ '9' then some (c.toNat - 48)
  else if 'a' ≤ c ∧ c ≤ 'f' then some (c.toNat - 87)
  else if 'A' ≤ c ∧ c ≤ 'F' then some (c.toNat - 55)
  else none

def ofByte (b : UInt8) : List Char := [digit (b.toNat / 16), digit (b.toNat % 16)]

def chars (bs : Bytes) : List Char := bs.flatMap ofByte

def encode (bs : Bytes) : String := String.ofList (chars bs)

/-- The bytes that a run of digits stands for; an odd run or a foreign character stands for none. -/
def decodeChars? : List Char → Option Bytes
  | [] => some []
  | [_] => none
  | h :: l :: rest => do
    let high ← value? h
    let low ← value? l
    let bytes ← decodeChars? rest
    return UInt8.ofNat (16 * high + low) :: bytes

def decode? (s : String) : Option Bytes := decodeChars? s.toList

end SecondFactor.Hex
