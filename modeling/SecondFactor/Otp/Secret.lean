import SecondFactor.Cause
import SecondFactor.Encoding.Base32
import SecondFactor.Json.Object
import SecondFactor.Json.Record
import SecondFactor.Text.Quoted

/-!
# Secrets

A secret is what an authenticator and the service share, together with the bookkeeping that keeps
codes from being used twice: the number of attempts so far, the steps whose codes were accepted,
and the attempts in the latest step. It is stored as a JSON object, sealed under a key derived
from a word that only the user knows. Numbers are kept within the widths of the stored form.
-/

namespace SecondFactor.Otp

/-- The numbers of the stored form are below this bound, if no narrower one is given. -/
def wordBound : Nat := UInt64.size

structure Secret where
  account : String
  issuer : String
  algorithm : Algorithm
  digits : Nat
  /-- The length of a step in seconds. -/
  step : Nat
  /-- How many steps before and after the current one are accepted. -/
  skew : Nat
  /-- The shared key as Base32 text. -/
  key : String
  /-- Attempts so far, whether they succeeded or not. -/
  counter : Nat
  /-- Steps whose codes are not accepted any more. -/
  usedSteps : List Nat
  /-- The step of the latest attempt. -/
  attemptStep : Nat
  attemptsInStep : Nat
  deriving DecidableEq

namespace Secret

/-- All numbers are within the widths of the stored form. -/
def Bounded (s : Secret) : Prop :=
  s.digits < wordBound ∧ s.step < wordBound ∧ s.skew < UInt8.size ∧ s.counter < wordBound ∧
    (∀ t ∈ s.usedSteps, t < wordBound) ∧ s.attemptStep < wordBound ∧ s.attemptsInStep < UInt32.size

instance (s : Secret) : Decidable s.Bounded := inferInstanceAs (Decidable (_ ∧ _))

/-! ## Stored form -/

def fields : Json.Fields :=
  [("account", .text), ("issuer", .text), ("algorithm", .choice (Algorithm.all.map Algorithm.name)),
   ("digits", .word wordBound), ("step", .word wordBound), ("skew", .word UInt8.size),
   ("secret", .text), ("counter", .word wordBound), ("used_steps", .words wordBound),
   ("attempt_step", .word wordBound), ("attempts_in_step", .word UInt32.size)]

def object (s : Secret) : Json.Object :=
  [("account", .text s.account), ("issuer", .text s.issuer), ("algorithm", .text s.algorithm.name),
   ("digits", .number s.digits), ("step", .number s.step), ("skew", .number s.skew),
   ("secret", .text s.key), ("counter", .number s.counter),
   ("used_steps", .list (s.usedSteps.map fun (t : Nat) => Json.Scalar.number t)),
   ("attempt_step", .number s.attemptStep), ("attempts_in_step", .number s.attemptsInStep)]

def bytes (s : Secret) : Bytes := s.object.bytes

def ofData? : List Json.Datum → Option Secret
  | [.text account, .text issuer, .choice algorithm, .word digits, .word step, .word skew,
     .text key, .word counter, .words usedSteps, .word attemptStep, .word attemptsInStep] => do
    let algorithm ← Algorithm.ofName? algorithm
    return { account, issuer, algorithm, digits, step, skew, key, counter, usedSteps, attemptStep,
             attemptsInStep }
  | _ => none

def ofBytes (document : Bytes) : Except Json.Fault Secret := do
  match ofData? (← Json.decodeRecord fields document) with
  | some s => return s
  | none => throw .mismatch

/-! ## Sealed form -/

inductive Unsealing where
  | envelope (failure : Envelope.Failure)
  | payload (fault : Json.Fault)
  deriving DecidableEq

def Unsealing.defect : Unsealing → Defect
  | .envelope failure => .envelope failure
  | .payload _ => .payload

variable (P : Primitives)

/-- The secret sealed under a derived key, whose length every cipher takes. -/
def wrap (s : Secret) (key : Key) (nonce : Nonce) : Bytes :=
  Envelope.join P key.toList nonce s.bytes

def unwrap (envelope : Bytes) (key : Key) : Except Unsealing Secret :=
  match Envelope.unwrap P key.toList envelope with
  | .error failure => .error (.envelope failure)
  | .ok plain => match ofBytes plain with
    | .error fault => .error (.payload fault)
    | .ok s => .ok s

/-! ## Shown form -/

/-- The form in which a secret is shown for diagnosis: without the key and the replay
bookkeeping. -/
def shown (s : Secret) : String :=
  "TotpSecret \x7b account: " ++ Text.quote s.account ++ ", issuer: " ++ Text.quote s.issuer ++
    ", algorithm: " ++ s.algorithm.shownName ++ ", digits: " ++ toString s.digits ++
    ", counter: " ++ toString s.counter ++ ", .. \x7d"

/-! ## Making codes -/

def keyBytes (s : Secret) : Except Cause Bytes :=
  match Base32.decode? s.key with
  | some key => .ok key
  | none => .error (.internal .keyTextInvalid)

/-- The shared key of a secret that codes can be made with: six to eight digits, at least sixteen
bytes of key, and no colon in issuer or account. -/
def usableKey (s : Secret) : Except Cause Bytes := do
  let key ← s.keyBytes
  if 6 ≤ s.digits ∧ s.digits ≤ 8 ∧ 16 ≤ key.length ∧
      ':' ∉ s.issuer.toList ∧ ':' ∉ s.account.toList then
    return key
  else throw (.internal .secretUnusable)

def codeAt (s : Secret) (key : Bytes) (step : Nat) : String :=
  codeText s.digits (P.stepNumber s.algorithm key step)

end Secret

end SecondFactor.Otp
