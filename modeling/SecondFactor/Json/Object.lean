import SecondFactor.Encoding.Hex

/-!
# JSON objects in compact form

What the service writes is an object whose members are scalars or lists of scalars, in a fixed
order and without any blank. A text is written byte by byte: the quote, the backslash and the
control characters are escaped, by a letter where JSON has one and by number otherwise; every
other byte of the UTF-8 form stands as it is.
-/

namespace SecondFactor.Json

inductive Scalar where
  | null
  | flag (b : Bool)
  | number (n : Int)
  | text (s : String)
  deriving DecidableEq

inductive Value where
  | scalar (s : Scalar)
  | list (items : List Scalar)
  deriving DecidableEq

/-- The members of an object, in order. -/
abbrev Object := List (String × Value)

def Value.text (s : String) : Value := .scalar (.text s)

def Value.number (n : Int) : Value := .scalar (.number n)

def Value.flag (b : Bool) : Value := .scalar (.flag b)

/-! ## Writing -/

/-- The bytes that escape `b` by number; its digits are lower-case. -/
def escapeByNumber (b : UInt8) : Bytes :=
  [0x5c, 0x75, 0x30, 0x30] ++ (Hex.ofByte b).map fun c => UInt8.ofNat c.toNat

def escape (b : UInt8) : Bytes :=
  if b = 0x22 then [0x5c, 0x22]
  else if b = 0x5c then [0x5c, 0x5c]
  else if b = 0x08 then [0x5c, 0x62]
  else if b = 0x09 then [0x5c, 0x74]
  else if b = 0x0a then [0x5c, 0x6e]
  else if b = 0x0c then [0x5c, 0x66]
  else if b = 0x0d then [0x5c, 0x72]
  else if b < 0x20 then escapeByNumber b
  else [b]

def textBytes (s : String) : Bytes := 0x22 :: ((Bytes.ofText s).flatMap escape ++ [0x22])

def natBytes (n : Nat) : Bytes := (Nat.toDigits 10 n).map fun c => UInt8.ofNat c.toNat

def Scalar.bytes : Scalar → Bytes
  | .null => Bytes.ofText "null"
  | .flag true => Bytes.ofText "true"
  | .flag false => Bytes.ofText "false"
  | .number n => if n < 0 then 0x2d :: natBytes n.natAbs else natBytes n.natAbs
  | .text s => textBytes s

/-- Written parts with a comma between each two. -/
def separate : List Bytes → Bytes
  | [] => []
  | [part] => part
  | part :: parts => part ++ 0x2c :: separate parts

def Value.bytes : Value → Bytes
  | .scalar s => s.bytes
  | .list items => 0x5b :: (separate (items.map Scalar.bytes) ++ [0x5d])

def Object.bytes (members : Object) : Bytes :=
  0x7b :: (separate (members.map fun (name, v) => textBytes name ++ 0x3a :: v.bytes) ++ [0x7d])

end SecondFactor.Json
