import SecondFactor.Cause
import SecondFactor.Encoding.Base32

/-!
# Recovery keys

A recovery key opens the backup copy of a secret when the password is lost. It is twenty random
bytes as Base32 text, shown once in groups of four, and may be entered in either case, with
hyphens and spaces anywhere. Only a hash of it is kept, its fingerprint.
-/

namespace SecondFactor.RecoveryKey

def length : Nat := 32

def generate (entropy : Vector UInt8 20) : String := Base32.encodeUnpadded entropy.toList

/-- Pieces of four bytes, the last one possibly shorter. -/
def groups : Bytes → List Bytes
  | a :: b :: c :: d :: rest => [a, b, c, d] :: groups rest
  | [] => []
  | rest => [rest]

/-- The shown form of a text: groups of four bytes with hyphens between them. A group that cuts
through a character is left out. -/
def format (key : String) : String :=
  String.intercalate "-" ((groups (Bytes.ofText key)).filterMap Bytes.toText?)

def strip (text : String) : String :=
  String.ofList ((text.toList.filter fun c => c != '-' && c != ' ').map Char.toUpper)

def normalize (text : String) : Except Cause String :=
  let key := strip text
  if key.utf8ByteSize = length then .ok key else .error (.validation .recoveryKeyForm)

variable (P : Primitives)

def fingerprint (salt : Salt) (key : String) : String := P.hashWord salt key

def verify (key fingerprint : String) : Except Failure Bool :=
  (P.verifyWord fingerprint key).mapError (Failure.ofFault .fingerprintUnreadable)

end SecondFactor.RecoveryKey
