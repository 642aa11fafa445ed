import SecondFactor.Cause
import SecondFactor.Encoding.Hex

/-!
# Keys from words

The keys that secrets are sealed with are not stored: they are derived again from the word that
the user enters. A deployment may add a pepper of its own, which is hashed in front of the digest
of the word.
-/

namespace SecondFactor

structure Kdf where
  pepper : Option Bytes
  deriving DecidableEq

namespace Kdf

def single : Kdf := ⟨none⟩

/-- The derivation that the settings ask for. A pepper is needed, and used, in double mode only. -/
def make (double : Bool) (pepper : Option String) : Except Cause Kdf :=
  if double then
    match pepper with
    | some text =>
      if text.isEmpty then .error (.internal .pepperMissing) else .ok ⟨some (Bytes.ofText text)⟩
    | none => .error (.internal .pepperMissing)
  else .ok single

def isDouble (k : Kdf) : Bool := k.pepper.isSome

variable (P : Primitives)

def derive (k : Kdf) (word : String) : Key :=
  let first := P.digest (Bytes.ofText word)
  match k.pepper with
  | none => first
  | some pepper => P.digest (pepper ++ first.toList)

/-- The key of a word in hexadecimal digits, by which a code can be recognised again. -/
def fingerprint (k : Kdf) (word : String) : String := Hex.encode (k.derive P word).toList

end Kdf

end SecondFactor
