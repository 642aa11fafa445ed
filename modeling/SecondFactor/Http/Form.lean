import SecondFactor.Http.Message
import SecondFactor.Json.Record

/-!
# Forms

A form is a record of texts in the body of a request. Its fields are checked before the service sees
them: passwords for their length, codes for their digits.
-/

namespace SecondFactor.Http

/-! ## Reading -/

/-- Whether a header can be read as text: visible ASCII, spaces and tabs. -/
def isReadable (header : String) : Bool :=
  header.toList.all fun c => (0x20 ≤ c.toNat && c.toNat < 0x7f) || c == '\t'

def Request.isJson (r : Request) : Bool :=
  (r.contentType.filter isReadable).any fun header => (MediaType.parse? header).any MediaType.isJson

def textOf? : Json.Datum → Option String
  | .text s => some s
  | _ => none

def formLength : Nat := 2097152

def readForm (r : Request) (fields : List String) : Except Rejection (List String) :=
  if !r.isJson then .error .mediaType
  else if formLength < r.body.length then .error .tooLarge
  else match Json.decodeRecord (fields.map fun field => (field, .text)) r.body with
    | .ok values => match values.mapM textOf? with
      | some texts => .ok texts
      | none => .error .wrongShape
    | .error .mismatch => .error .wrongShape
    | .error _ => .error .notJson

def readForm₁ (r : Request) (a : String) : Except Rejection String := do
  match ← readForm r [a] with
  | [x] => return x
  | _ => throw .wrongShape

def readForm₂ (r : Request) (a b : String) : Except Rejection (String × String) := do
  match ← readForm r [a, b] with
  | [x, y] => return (x, y)
  | _ => throw .wrongShape

def readForm₃ (r : Request) (a b c : String) : Except Rejection (String × String × String) := do
  match ← readForm r [a, b, c] with
  | [x, y, z] => return (x, y, z)
  | _ => throw .wrongShape

/-! ## Tokens -/

/-- The token of a request: what follows the scheme in its authorization, without blanks around
it. -/
def Request.token? (r : Request) : Option String := do
  let header ← r.authorization.filter isReadable
  let cs := header.toList
  let scheme := "Bearer ".toList
  if cs.take scheme.length ≠ scheme then none
  let token := Text.trimChars (cs.drop scheme.length)
  if token.isEmpty then none else return String.ofList token

/-! ## Checks -/

def passwordLength : Nat := 8

def checkPassword (password : String) : Except Cause Unit :=
  if password.isEmpty then .error (.validation .passwordMissing)
  else if password.utf8ByteSize < passwordLength then .error (.validation .passwordShort)
  else .ok ()

/-- What is wrong with a one-time code, the blanks around it apart. -/
def checkCode (digits : Nat) (code : String) : Except Cause Unit :=
  let code := Text.trim code
  if code.isEmpty then .error (.validation .codeMissing)
  else if code.utf8ByteSize = digits ∧ code.toList.all Text.isDigit then .ok ()
  else .error (.validation (.codeDigits digits))

def checkPresent (complaint : Complaint) (text : String) : Except Cause Unit :=
  if (Text.trim text).isEmpty then .error (.validation complaint) else .ok ()

def checkCredentials (email password : String) : Except Cause Unit := do
  checkPresent .emailMissing email
  if '@' ∉ email.toList then throw (.validation .emailMalformed)
  if password.isEmpty then throw (.validation .passwordMissing)

end SecondFactor.Http
