import SecondFactor.Primitives

/-!
# Sealed envelopes

An envelope is a nonce followed by the encryption of a plaintext under that nonce. Keys have 16,
24 or 32 bytes. Opening does not tell a wrong key from a changed or a shortened envelope.
-/

namespace SecondFactor.Envelope

/-- Why a plaintext cannot be sealed or an envelope cannot be opened. -/
inductive Failure where
  /-- The key has a length that no cipher takes. -/
  | keyLength (length : Nat)
  /-- The envelope was not sealed under this key, or not in this form. -/
  | unauthentic
  deriving DecidableEq

def Failure.message : Failure → String
  | .keyLength length => "unsupported key length: " ++ toString length
  | .unauthentic => "authentication failed"

def nonceLength : Nat := 12

def tagLength : Nat := 16

def IsKeyLength (n : Nat) : Prop := n = 16 ∨ n = 24 ∨ n = 32

instance (n : Nat) : Decidable (IsKeyLength n) := inferInstanceAs (Decidable (_ ∨ _))

variable (P : Primitives)

/-- The envelope of a plaintext under a key and a nonce. -/
def join (key : Bytes) (nonce : Nonce) (plain : Bytes) : Bytes :=
  nonce.toList ++ P.encrypt key nonce.toList plain

def wrap (key : Bytes) (nonce : Nonce) (plain : Bytes) : Except Failure Bytes :=
  if IsKeyLength key.length then .ok (join P key nonce plain) else .error (.keyLength key.length)

/-- Opens an envelope. The key's length is looked at first. -/
def unwrap (key envelope : Bytes) : Except Failure Bytes :=
  if IsKeyLength key.length then
    if envelope.length < nonceLength + tagLength then .error .unauthentic
    else match P.decrypt? key (envelope.take nonceLength) (envelope.drop nonceLength) with
      | some plain => .ok plain
      | none => .error .unauthentic
  else .error (.keyLength key.length)

end SecondFactor.Envelope
