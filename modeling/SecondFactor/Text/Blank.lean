/-!
# Blanks and control characters

The two classes of characters that input checks ask about: white space in the sense of the Unicode
property of that name, and the control characters of general category Cc.
-/

namespace SecondFactor.Text

/-- The characters with the Unicode property White_Space. -/
def isBlank (c : Char) : Bool :=
  let n := c.toNat
  (0x09 ≤ n && n ≤ 0x0d) || n == 0x20 || n == 0x85 || n == 0xa0 || n == 0x1680 ||
  (0x2000 ≤ n && n ≤ 0x200a) || n == 0x2028 || n == 0x2029 || n == 0x202f || n == 0x205f ||
  n == 0x3000

/-- The characters of general category Cc. -/
def isControl (c : Char) : Bool := c.toNat < 0x20 || (0x7f ≤ c.toNat && c.toNat ≤ 0x9f)

def trimChars (cs : List Char) : List Char :=
  ((cs.dropWhile isBlank).reverse.dropWhile isBlank).reverse

def trim (s : String) : String := String.ofList (trimChars s.toList)

def isDigit (c : Char) : Bool := '0' ≤ c && c ≤ '9'

/-- The letters `a`–`z` in upper case; every other character as it is. -/
def upper (s : String) : String := s.map Char.toUpper

end SecondFactor.Text
