import SecondFactor.Digest.Sha1
import SecondFactor.Digest.Sha256
import SecondFactor.Digest.Sha512
import SecondFactor.Digest.Hmac
import SecondFactor.Text.Blank

/-!
# One-time codes from a keyed digest

A code is a number taken from the keyed digest of a step number: four bytes at the place that the
last half-byte names, without the top bit, reduced to the wanted number of decimal digits. Three
digests are in use.
-/

namespace SecondFactor.Otp

inductive Algorithm where
  | sha1
  | sha256
  | sha512
  deriving DecidableEq

namespace Algorithm

/-- The name under which an algorithm is stored and shown to authenticators. -/
def name : Algorithm → String
  | sha1 => "SHA1"
  | sha256 => "SHA256"
  | sha512 => "SHA512"

/-- The name that diagnostic text uses. -/
def shownName : Algorithm → String
  | sha1 => "Sha1"
  | sha256 => "Sha256"
  | sha512 => "Sha512"

def all : List Algorithm := [sha1, sha256, sha512]

def ofName? (s : String) : Option Algorithm := all.find? (·.name = s)

/-- The algorithm that a setting names: its stored name in either case, hyphens counting for
nothing. -/
def parse? (s : String) : Option Algorithm :=
  ofName? (String.ofList ((Text.upper s).toList.filter (· ≠ '-')))

def keyedDigest (a : Algorithm) (key message : Bytes) : Bytes :=
  match a with
  | sha1 => Digest.hmac (fun m => (Digest.sha1 m).toList) 64 key message
  | sha256 => Digest.hmac (fun m => (Digest.sha256 m).toList) 64 key message
  | sha512 => Digest.hmac (fun m => (Digest.sha512 m).toList) 128 key message

end Algorithm

/-- The number below 2^31 that a digest gives: the word at the place that its last half-byte names,
without its top bit. -/
def truncate (digest : Bytes) : Nat :=
  let place := (digest.getLastD 0).toNat % 16
  match Bytes.words32 ((digest.drop place).take 4) with
  | [word] => word.toNat % 0x80000000
  | _ => 0

/-- The number from which the code of a step is taken. -/
def stepNumber (a : Algorithm) (key : Bytes) (step : Nat) : Nat :=
  truncate (a.keyedDigest key (Bytes.ofWord64 (UInt64.ofNat step)))

/-- The last `digits` decimal digits of a number, with leading zeros. -/
def codeText (digits n : Nat) : String :=
  String.ofList <| (List.range digits).map fun i =>
    Char.ofNat (48 + n / Nat.pow 10 (digits - 1 - i) % 10)

end SecondFactor.Otp
