import SecondFactor.Kdf
import SecondFactor.RecoveryKey
import SecondFactor.Uuid

/-!
# Backup codes

Ten codes of eight characters stand in for one-time codes, each once. They are drawn until ten
different ones have come up, shown once in two groups of four, and kept as hashes that bind each
code to its account.
-/

namespace SecondFactor.BackupCode

/-- Codes in a set. -/
def count : Nat := 10

/-- Characters in a code. -/
def length : Nat := 8

/-- The characters of codes: letters and digits that are not easily mistaken for one another. -/
def alphabet : List Char := "ABCDEFGHJKLMNPQRSTUVWXYZ23456789".toList

/-! ## Drawing -/

/-- One draw of a code: a random character at each place. -/
abbrev Draw := Vector (Fin 32) 8

def Draw.text (d : Draw) : String := String.ofList (d.toList.map fun i => alphabet.getD i.val 'A')

/-- Draws from a stream until there are ten different ones, in the order in which they first came
up; nothing while the stream has not brought ten. -/
def collect (drawn : List Draw) : List Draw → Option (List Draw)
  | [] => if drawn.length = count then some drawn else none
  | d :: stream =>
    if drawn.length = count then some drawn
    else if d ∈ drawn then collect drawn stream
    else collect (drawn ++ [d]) stream

/-- A stretch of random draws that is long enough for a set. -/
structure Stream where
  draws : List Draw
  enough : (collect [] draws).isSome

def Stream.codes (s : Stream) : List String := ((collect [] s.draws).get s.enough).map Draw.text

/-! ## Forms -/

/-- The shown form of a code, two groups of bytes with a hyphen between them; nothing for a text
that is too short or would be cut inside a character. -/
def display? (code : String) : Option String := do
  let bytes := Bytes.ofText code
  if bytes.length < 4 then none
  return (← Bytes.toText? (bytes.take 4)) ++ "-" ++ (← Bytes.toText? (bytes.drop 4))

/-- The code that an entered text gives: hyphens and spaces count for nothing, nor does the case of
ASCII letters. -/
def normalize (text : String) : Except Cause String :=
  let code := RecoveryKey.strip text
  if code.utf8ByteSize = length then .ok code else .error (.validation .backupCodeLength)

variable (P : Primitives)

def hash (k : Kdf) (owner : Uuid) (code : String) : String :=
  k.fingerprint P (owner.toText ++ ":" ++ code)

/-! ## Sets -/

/-- Codes as they are shown to their owner, once, and the hashes by which they are known again. -/
structure CodeSet where
  codes : List String
  hashes : List String

/-- The set of an account that a stretch of draws gives. -/
def Stream.generate (s : Stream) (k : Kdf) (owner : Uuid) : CodeSet where
  codes := s.codes
  hashes := s.codes.map (hash P k owner)

end SecondFactor.BackupCode
