import SecondFactor.Otp.Secret

/-!
# Policies for new secrets

A deployment fixes what new secrets look like and how many attempts a step allows. A policy is a
set of parameters that passed its checks, so that a secret made under it can always be used.
-/

namespace SecondFactor.Otp

structure Params where
  issuer : String
  algorithm : Algorithm := .sha1
  digits : Nat := 6
  step : Nat := 30
  skew : Nat := 1
  /-- Attempts in one step that are looked at. -/
  maxAttempts : Nat := 5

structure Policy extends Params where
  digits_range : 6 ≤ digits ∧ digits ≤ 8
  step_pos : 0 < step
  issuer_nonempty : issuer ≠ ""
  issuer_no_colon : ':' ∉ issuer.toList

/-- The parameters as a policy: digits are looked at first, then the step, then the issuer. -/
def Policy.make (p : Params) : Except Cause Policy :=
  if hdigits : 6 ≤ p.digits ∧ p.digits ≤ 8 then
    if hstep : 0 < p.step then
      if hissuer : p.issuer ≠ "" ∧ ':' ∉ p.issuer.toList then
        .ok { p with
          digits_range := hdigits
          step_pos := hstep
          issuer_nonempty := hissuer.1
          issuer_no_colon := hissuer.2 }
      else .error (.internal .issuerInvalid)
    else .error (.internal .stepNotPositive)
  else .error (.internal .digitsOutOfRange)

/-- An account's text as the label of a secret, in which a colon would end the issuer's part. -/
def accountLabel (account : String) : String := account.map fun c => if c = ':' then '_' else c

/-- A fresh secret for an account, with twenty random bytes as its key. -/
def Policy.newSecret (p : Policy) (account : String) (entropy : Vector UInt8 20) : Secret where
  account := accountLabel account
  issuer := p.issuer
  algorithm := p.algorithm
  digits := p.digits
  step := p.step
  skew := p.skew
  key := Base32.encode entropy.toList
  counter := 0
  usedSteps := []
  attemptStep := 0
  attemptsInStep := 0

end SecondFactor.Otp
