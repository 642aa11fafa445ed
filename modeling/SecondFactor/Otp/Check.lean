import SecondFactor.Otp.Policy

/-!
# Checking codes

A code is checked against the steps around the current one. Each check counts as an attempt; a
step allows a limited number of them. A step whose code was accepted is remembered as used, so
that no code is accepted twice, and is forgotten once it lies so far back that no later check
reaches it.
-/

namespace SecondFactor.Otp

/-- The outcome of a check: the secret with its bookkeeping brought up to date, which has to be kept
whatever the verdict, and the step whose code was given, if the code is accepted. -/
structure Check where
  secret : Secret
  accepted : Option Nat
  deriving DecidableEq

def Check.verified (c : Check) : Bool := c.accepted.isSome

namespace Secret

/-- The secret with one more attempt in the given step. Counts stop at the greatest stored
number. -/
def countAttempt (s : Secret) (current : Nat) : Secret :=
  let before := if s.attemptStep = current then s.attemptsInStep else 0
  { s with
    counter := min (s.counter + 1) (wordBound - 1)
    attemptStep := current
    attemptsInStep := min (before + 1) (UInt32.size - 1) }

/-- The steps around the current one whose codes can be accepted, in order. -/
def window (s : Secret) (current : Nat) : List Nat :=
  (List.range (2 * s.skew + 1)).filterMap fun i =>
    if s.skew ≤ current + i ∧ current + i - s.skew < wordBound then some (current + i - s.skew)
    else none

variable (P : Primitives)

/-- The last step of the window that is not used and has the given code. -/
def matchingStep (s : Secret) (key : Bytes) (code : String) (current : Nat) : Option Nat :=
  ((s.window current).filter fun t => !s.usedSteps.contains t && s.codeAt P key t == code).getLast?

/-- A step of the window that is not used begins at a time that no stored number holds. -/
def Overruns (s : Secret) (current : Nat) : Prop :=
  ∃ t ∈ s.window current, t ∉ s.usedSteps ∧ wordBound ≤ t * s.step

instance (s : Secret) (current : Nat) : Decidable (s.Overruns current) :=
  inferInstanceAs (Decidable (∃ t ∈ s.window current, t ∉ s.usedSteps ∧ wordBound ≤ t * s.step))

def markUsed (s : Secret) (step : Nat) : Secret := { s with usedSteps := s.usedSteps ++ [step] }

/-- The secret without the used steps that lie more than twice the skew back. -/
def forgetBefore (s : Secret) (current : Nat) : Secret :=
  { s with usedSteps := s.usedSteps.filter fun t => current - 2 * s.skew ≤ t }

/-- The code as a check sees it: only ASCII digits count. -/
def isNumeric (code : String) : Bool := code.toList.all Text.isDigit

/-- Checks a code, when `maxAttempts` attempts in a step are looked at. A code of another length
than the secret asks for is refused without counting; `now` is in seconds since 1970. -/
def check (s : Secret) (maxAttempts : Nat) (code : String) (now : Nat) : Except Failure Check :=
  if code.utf8ByteSize ≠ s.digits then .error (.refused (.validation (.codeDigits s.digits)))
  else if s.step = 0 then .error .crash
  else
    let current := now / s.step
    let counted := s.countAttempt current
    -- An attempt beyond the limit, or one that is no number, is counted but not looked at.
    if maxAttempts < counted.attemptsInStep ∨ !isNumeric code then .ok ⟨counted, none⟩
    else match counted.usableKey with
      | .error cause => .error (.refused cause)
      | .ok key =>
        -- The code of a step is that of the time at which it begins, which is reckoned with checks.
        if counted.Overruns current then .error .crash
        else match counted.matchingStep P key code current with
          | some t => .ok ⟨(counted.markUsed t).forgetBefore current, some t⟩
          | none => .ok ⟨counted.forgetBefore current, none⟩

def retireStep (s : Secret) (step : Nat) : Secret :=
  if s.usedSteps.contains step then s else s.markUsed step

/-- The secret with every step of the window used. A secret that is restored from an old copy does
not remember the steps accepted since; this keeps their codes from being accepted again. -/
def retire (s : Secret) (now : Nat) : Except Failure Secret :=
  if s.step = 0 then .error .crash
  else
    let current := now / s.step
    let first := current - s.skew
    let last := min (current + s.skew) (wordBound - 1)
    .ok ((List.range' first (last + 1 - first)).foldl retireStep s)

end Secret

end SecondFactor.Otp
