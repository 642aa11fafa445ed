import SecondFactor.Json.Object
import SecondFactor.Service.State

/-!
# Settings

A deployment is described by environment variables. Their names are compared without regard to
case; variables that no setting has are passed over. Each setting is there at most once, and has a
default or must be there. Numbers are decimal, with an optional sign where that makes sense and an
optional plus sign everywhere.
-/

namespace SecondFactor

structure Settings where
  databaseUrl : String := ""
  host : String := "0.0.0.0"
  port : Nat := 3000
  issuer : String
  algorithm : String := "SHA1"
  digits : Nat := 6
  step : Nat := 30
  skew : Nat := 1
  maxAttempts : Nat := 5
  imageDirectory : String := "./qr_codes"
  /-- How long a pending secret lasts, in seconds. -/
  pendingLifetime : Int := 900
  /-- Whether keys are derived with a pepper. -/
  doubleHash : Bool := false
  pepper : Option String := none
  accessLifetime : Int := 900
  refreshLifetime : Int := 1209600
  /-- How often expired things are dropped, in seconds. -/
  purgeInterval : Nat := 60

namespace Settings

/-! ## Values -/

inductive Shape where
  | text
  /-- A natural number below a bound. -/
  | natural (bound : Nat)
  /-- A signed number of 64 bits. -/
  | integer
  | flag
  deriving DecidableEq

inductive Datum where
  | text (s : String)
  | natural (n : Nat)
  | integer (i : Int)
  | flag (b : Bool)
  deriving DecidableEq

inductive ValueFault where
  | empty
  | invalidDigit
  | tooLarge
  | tooSmall
  | notFlag
  deriving DecidableEq

def ValueFault.message : ValueFault → String
  | .empty => "cannot parse integer from empty string"
  | .invalidDigit => "invalid digit found in string"
  | .tooLarge => "number too large to fit in target type"
  | .tooSmall => "number too small to fit in target type"
  | .notFlag => "provided string was not `true` or `false`"

/-- The number that digits append to `value`, while it stays below a bound. Digits are read from the
left, so of a wrong digit and a number that is too large the first one is told. -/
def readDigits (bound : Nat) (overflow : ValueFault) (value : Nat) :
    List Char → Except ValueFault Nat
  | [] => .ok value
  | c :: cs =>
    if Text.isDigit c then
      let next := value * 10 + (c.toNat - '0'.toNat)
      if next < bound then readDigits bound overflow next cs else .error overflow
    else .error .invalidDigit

def readMagnitude (bound : Nat) (overflow : ValueFault) (cs : List Char) : Except ValueFault Nat :=
  if cs.isEmpty then .error .invalidDigit else readDigits bound overflow 0 cs

/-- A natural number below a bound, with an optional plus sign. -/
def readNatural (bound : Nat) (text : String) : Except ValueFault Nat :=
  match text.toList with
  | [] => .error .empty
  | '+' :: cs => readMagnitude bound .tooLarge cs
  | cs => readMagnitude bound .tooLarge cs

def readInteger (text : String) : Except ValueFault Int :=
  match text.toList with
  | [] => .error .empty
  | '-' :: cs => (readMagnitude (UInt64.size / 2 + 1) .tooSmall cs).map fun n => -(n : Int)
  | '+' :: cs => (readMagnitude (UInt64.size / 2) .tooLarge cs).map Int.ofNat
  | cs => (readMagnitude (UInt64.size / 2) .tooLarge cs).map Int.ofNat

def readValue (shape : Shape) (text : String) : Except ValueFault Datum :=
  match shape with
  | .text => .ok (.text text)
  | .natural bound => (readNatural bound text).map .natural
  | .integer => (readInteger text).map .integer
  | .flag =>
    if text = "true" then .ok (.flag true)
    else if text = "false" then .ok (.flag false)
    else .error .notFlag

/-! ## Variables -/

def fields : List (String × Shape) :=
  [("database_url", .text), ("host", .text), ("port", .natural UInt16.size), ("totp_issuer", .text),
   ("totp_algorithm", .text), ("totp_digits", .natural UInt64.size),
   ("totp_step_secs", .natural UInt64.size), ("totp_skew", .natural UInt8.size),
   ("totp_max_attempts_per_step", .natural UInt32.size),
   ("qr_image_dir", .text), ("pending_secret_ttl_secs", .integer), ("kdf_double_hash", .flag),
   ("kdf_pepper", .text), ("access_token_ttl_secs", .integer), ("refresh_token_ttl_secs", .integer),
   ("purge_interval_secs", .natural UInt64.size)]

inductive Fault where
  | missing (field : String)
  | duplicate (field : String)
  | unreadable (name value : String) (fault : ValueFault)
  deriving DecidableEq

def Fault.message : Fault → String
  | .missing field => "missing value for field " ++ field
  | .duplicate field => "duplicate field `" ++ field ++ "`"
  | .unreadable name value fault =>
    fault.message ++ " while parsing value '" ++ value ++ "' provided by " ++ name

/-- A name in lower case. Outside ASCII only the Kelvin sign has a lower-case form in ASCII. -/
def lowered (name : String) : String := name.map fun c => if c = '\u212a' then 'k' else c.toLower

/-- The values of the variables that settings have, in front of those found before. -/
def readVariables (found : List (String × Datum)) :
    List (String × String) → Except Fault (List (String × Datum))
  | [] => .ok found
  | (name, value) :: rest => match fields.lookup (lowered name) with
    | none => readVariables found rest
    | some shape =>
      if (found.lookup (lowered name)).isSome then .error (.duplicate (lowered name))
      else match readValue shape value with
        | .error fault => .error (.unreadable name value fault)
        | .ok datum => readVariables ((lowered name, datum) :: found) rest

def text? (found : List (String × Datum)) (name : String) : Option String :=
  match found.lookup name with
  | some (.text s) => some s
  | _ => none

def natural? (found : List (String × Datum)) (name : String) : Option Nat :=
  match found.lookup name with
  | some (.natural n) => some n
  | _ => none

def integer? (found : List (String × Datum)) (name : String) : Option Int :=
  match found.lookup name with
  | some (.integer i) => some i
  | _ => none

def flag? (found : List (String × Datum)) (name : String) : Option Bool :=
  match found.lookup name with
  | some (.flag b) => some b
  | _ => none

def requireText (found : List (String × Datum)) (name : String) : Except Fault String :=
  match text? found name with
  | some s => .ok s
  | none => .error (.missing name)

def load (environment : List (String × String)) : Except Fault Settings := do
  let found ← readVariables [] environment
  let databaseUrl ← requireText found "database_url"
  let issuer ← requireText found "totp_issuer"
  let base : Settings := { issuer }
  return {
    databaseUrl
    issuer
    host := (text? found "host").getD base.host
    port := (natural? found "port").getD base.port
    algorithm := (text? found "totp_algorithm").getD base.algorithm
    digits := (natural? found "totp_digits").getD base.digits
    step := (natural? found "totp_step_secs").getD base.step
    skew := (natural? found "totp_skew").getD base.skew
    maxAttempts := (natural? found "totp_max_attempts_per_step").getD base.maxAttempts
    imageDirectory := (text? found "qr_image_dir").getD base.imageDirectory
    pendingLifetime := (integer? found "pending_secret_ttl_secs").getD base.pendingLifetime
    doubleHash := (flag? found "kdf_double_hash").getD base.doubleHash
    pepper := text? found "kdf_pepper"
    accessLifetime := (integer? found "access_token_ttl_secs").getD base.accessLifetime
    refreshLifetime := (integer? found "refresh_token_ttl_secs").getD base.refreshLifetime
    purgeInterval := (natural? found "purge_interval_secs").getD base.purgeInterval }

def members (s : Settings) : Json.Object :=
  [("database_url", .text s.databaseUrl), ("host", .text s.host), ("port", .number s.port),
   ("totp_issuer", .text s.issuer), ("totp_algorithm", .text s.algorithm),
   ("totp_digits", .number s.digits), ("totp_step_secs", .number s.step),
   ("totp_skew", .number s.skew),
   ("totp_max_attempts_per_step", .number s.maxAttempts), ("qr_image_dir", .text s.imageDirectory),
   ("pending_secret_ttl_secs", .number s.pendingLifetime), ("kdf_double_hash", .flag s.doubleHash),
   ("kdf_pepper", (s.pepper.map Json.Value.text).getD (.scalar .null)),
   ("access_token_ttl_secs", .number s.accessLifetime),
   ("refresh_token_ttl_secs", .number s.refreshLifetime),
   ("purge_interval_secs", .number s.purgeInterval)]

/-! ## Deployment -/

/-- The policy that the settings ask for. The name of the algorithm is looked at first. -/
def policy (s : Settings) : Except Cause Otp.Policy :=
  match Otp.Algorithm.parse? s.algorithm with
  | none => .error (.internal .unsupportedAlgorithm)
  | some algorithm => Otp.Policy.make
    { issuer := s.issuer, algorithm, digits := s.digits, step := s.step, skew := s.skew,
      maxAttempts := s.maxAttempts }

def deploy (s : Settings) (primitives : Primitives) : Except Cause Deployment := do
  let policy ← s.policy
  let kdf ← Kdf.make s.doubleHash s.pepper
  return {
    primitives
    policy
    kdf
    pendingLifetime := s.pendingLifetime
    sessionLifetimes := { access := s.accessLifetime, refresh := s.refreshLifetime } }

end Settings

end SecondFactor
