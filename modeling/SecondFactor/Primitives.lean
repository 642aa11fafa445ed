import SecondFactor.Argon2.Phc
import SecondFactor.Cipher.Gcm
import SecondFactor.Otp.Algorithm

/-!
# Cryptographic primitives

What the service needs from cryptography, as one record: a digest, authenticated encryption,
password hashing, and the numbers behind one-time codes. The rest of the library is written
against the record, so that its properties rest on laws of the primitives and not on their bits;
`Primitives.standard` is the record that runs.
-/

namespace SecondFactor

abbrev Key := Vector UInt8 32

/-- The value that makes two encryptions of one text differ. -/
abbrev Nonce := Vector UInt8 12

abbrev Salt := Vector UInt8 16

structure Primitives where
  digest : Bytes → Key
  /-- Authenticated encryption under a key and a nonce. -/
  encrypt : (key nonce plain : Bytes) → Bytes
  /-- The plaintext of what `encrypt` gave under the same key and nonce. -/
  decrypt? : (key nonce cipher : Bytes) → Option Bytes
  /-- The hash of a password or another low-entropy word, as text. -/
  hashWord : (salt : Salt) → (word : String) → String
  /-- Whether a hash is that of a word. -/
  verifyWord : (hash word : String) → Except Argon2.Fault Bool
  /-- The number from which the one-time code of a step is taken. -/
  stepNumber : Otp.Algorithm → (key : Bytes) → (step : Nat) → Nat

/-- SHA-256, AES in Galois counter mode, Argon2 and HMAC. -/
def Primitives.standard : Primitives where
  digest := Digest.sha256
  encrypt := Cipher.Gcm.encrypt
  decrypt? := Cipher.Gcm.decrypt?
  hashWord salt word := Argon2.hash salt.toList word
  verifyWord := Argon2.verify
  stepNumber := Otp.stepNumber

end SecondFactor
