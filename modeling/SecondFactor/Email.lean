import SecondFactor.Cause

/-!
# Email addresses

The address under which an account is registered is also the label of its secret. It is taken
without the blanks around it, and has to look like an address; no mail is sent to it.
-/

namespace SecondFactor.Email

def maxLength : Nat := 254

/-- A domain has a dot inside and no at-sign. -/
def IsDomain (domain : List Char) : Prop :=
  '@' ∉ domain ∧ '.' ∈ domain ∧ domain.head? ≠ some '.' ∧ domain.getLast? ≠ some '.'

instance (domain : List Char) : Decidable (IsDomain domain) := inferInstanceAs (Decidable (_ ∧ _))

/-- An address has a nonempty part before its first at-sign and a domain after it, and neither
blanks nor control characters nor colons. -/
def IsAddress (cs : List Char) : Prop :=
  (∀ c ∈ cs, Text.isBlank c = false ∧ Text.isControl c = false ∧ c ≠ ':') ∧
    '@' ∈ cs ∧ cs.takeWhile (· ≠ '@') ≠ [] ∧ IsDomain (cs.dropWhile (· ≠ '@')).tail

-- The characters are looked at one by one, and not all characters that there are.
instance (cs : List Char) : Decidable (IsAddress cs) :=
  @instDecidableAnd _ _ (List.decidableBAll _ cs) inferInstance

def parse (text : String) : Except Cause String :=
  let address := Text.trim text
  if address.isEmpty then .error (.validation .emailMissing)
  else if address.utf8ByteSize ≤ maxLength ∧ IsAddress address.toList then .ok address
  else .error (.validation .emailMalformed)

end SecondFactor.Email
