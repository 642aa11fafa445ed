import SecondFactor.Encoding.Hex

/-!
# Universally unique identifiers

Accounts, session families, pending enrollments and image files are named by 128-bit identifiers.
The written form is the hyphenated lower-case one. Reading also takes the run of 32 digits without
hyphens, the hyphenated form in braces, and the hyphenated form as a URN, each in either case; all
of them name the same identifier.
-/

namespace SecondFactor

structure Uuid where
  octets : Vector UInt8 16
  deriving DecidableEq

namespace Uuid

def ofBytes? (bs : Bytes) : Option Uuid :=
  if h : bs.length = 16 then some ⟨⟨bs.toArray, by simpa using h⟩⟩ else none

/-- A random identifier (version 4): the random bytes with the version and variant bits set. -/
def random (entropy : Vector UInt8 16) : Uuid :=
  ⟨(entropy.set 6 ((entropy[6] &&& 0x0f) ||| 0x40)).set 8 ((entropy[8] &&& 0x3f) ||| 0x80)⟩

/-! ## Written form -/

/-- The digits of the identifier, without hyphens. -/
def digits (u : Uuid) : List Char := Hex.chars u.octets.toList

/-- Hyphens after the eighth, twelfth, sixteenth and twentieth of a run of digits. -/
def hyphenate (cs : List Char) : List Char :=
  cs.take 8 ++ '-' :: ((cs.drop 8).take 4 ++ '-' :: ((cs.drop 12).take 4 ++
    '-' :: ((cs.drop 16).take 4 ++ '-' :: cs.drop 20)))

def chars (u : Uuid) : List Char := hyphenate u.digits

/-- The hyphenated form: groups of 8, 4, 4, 4 and 12 lower-case digits. -/
def toText (u : Uuid) : String := String.ofList u.chars

/-! ## Reading -/

def ofDigits? (cs : List Char) : Option Uuid := (Hex.decodeChars? cs).bind ofBytes?

def ofHyphenated? (cs : List Char) : Option Uuid :=
  if cs.length = 36 ∧ cs[8]? = some '-' ∧ cs[13]? = some '-' ∧ cs[18]? = some '-' ∧
      cs[23]? = some '-' then
    ofDigits? (cs.take 8 ++ (cs.drop 9).take 4 ++ (cs.drop 14).take 4 ++ (cs.drop 19).take 4 ++
      cs.drop 24)
  else none

/-- What stands between braces. -/
def unbrace? (cs : List Char) : Option (List Char) :=
  if cs.head? = some '\x7b' ∧ cs.getLast? = some '\x7d' then some cs.tail.dropLast else none

/-- What stands after the URN scheme, whose letters may be of either case. -/
def unscheme? (cs : List Char) : Option (List Char) :=
  if (cs.take 9).map Char.toLower = "urn:uuid:".toList then some (cs.drop 9) else none

/-- The identifier that a run of characters spells. The length decides which spelling it can be. -/
def ofChars? (cs : List Char) : Option Uuid :=
  match cs.length with
  | 32 => ofDigits? cs
  | 36 => ofHyphenated? cs
  | 38 => (unbrace? cs).bind ofHyphenated?
  | 45 => (unscheme? cs).bind ofHyphenated?
  | _ => none

def parse? (s : String) : Option Uuid := ofChars? s.toList

end Uuid

end SecondFactor
