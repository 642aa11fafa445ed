import SecondFactor.Text.Visible

/-!
# Quoted text

The form in which a text is shown for diagnosis: between double quotes, with the usual escapes for
quote, backslash, tab, line feed, carriage return and the null character, and the number of every
character that does not stand on its own.
-/

namespace SecondFactor.Text

def quoteMark : Char := Char.ofNat 0x22

/-- A character by its number: lower-case hexadecimal digits in braces after `\u`. -/
def byNumber (c : Char) : List Char :=
  '\\' :: 'u' :: '\x7b' :: (Nat.toDigits 16 c.toNat ++ ['\x7d'])

def quoteChar (c : Char) : List Char :=
  if c = quoteMark then ['\\', quoteMark]
  else if c = '\\' then ['\\', '\\']
  else if c = '\t' then ['\\', 't']
  else if c = '\n' then ['\\', 'n']
  else if c = '\r' then ['\\', 'r']
  else if c.toNat = 0 then ['\\', '0']
  else if isVisible c then [c]
  else byNumber c

def quote (s : String) : String :=
  String.ofList (quoteMark :: (s.toList.flatMap quoteChar ++ [quoteMark]))

end SecondFactor.Text
