import SecondFactor.Encoding.Hex

/-!
# Percent-encoding

Writing keeps the unreserved characters of a URI and writes every other byte of the UTF-8 form as a
percent sign and two upper-case digits. Reading is lenient: a percent sign that two digits do not
follow stands for itself.
-/

namespace SecondFactor.Percent

/-- Letters, digits, `-`, `_`, `.` and `~` stand for themselves. -/
def isUnreserved (b : UInt8) : Bool :=
  (0x30 ≤ b && b ≤ 0x39) || (0x41 ≤ b && b ≤ 0x5a) || (0x61 ≤ b && b ≤ 0x7a) ||
  b == 0x2d || b == 0x5f || b == 0x2e || b == 0x7e

def ofByte (b : UInt8) : List Char :=
  if isUnreserved b then [Char.ofNat b.toNat] else '%' :: (Hex.ofByte b).map Char.toUpper

def encode (s : String) : String := String.ofList ((Bytes.ofText s).flatMap ofByte)

def nibble? (b : UInt8) : Option UInt8 := (Hex.value? (Char.ofNat b.toNat)).map UInt8.ofNat

def decodeBytes : Bytes → Bytes
  | [] => []
  | [b] => [b]
  | [a, b] => [a, b]
  | p :: h :: l :: rest =>
    if p = 0x25 then
      match nibble? h, nibble? l with
      | some high, some low => (high * 16 + low) :: decodeBytes rest
      | _, _ => p :: decodeBytes (h :: l :: rest)
    else p :: decodeBytes (h :: l :: rest)

/-- The text that a written form stands for; nothing when the bytes are not UTF-8. -/
def decode? (s : String) : Option String := Bytes.toText? (decodeBytes (Bytes.ofText s))

end SecondFactor.Percent
