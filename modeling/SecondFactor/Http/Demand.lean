import SecondFactor.Http.Form
import SecondFactor.Http.Route
import SecondFactor.Service.Call

/-!
# What a request asks for

A request to an endpoint asks for a call of the service. Most endpoints need a session, which is
looked at before the rest of the request; then come the name in the path, the form, and the checks
of its fields. What is refused at one of these is not looked at any further, and no call is made.
-/

namespace SecondFactor.Http

open Service (Call)

/-- Why a request does not lead to a call. -/
inductive Refusal where
  /-- It cannot be read. -/
  | unread (rejection : Rejection)
  /-- A field of its form is not as it should be. -/
  | unfit (cause : Cause)

def Refusal.response (reference : Uuid) : Refusal → Response
  | .unread rejection => rejection.response
  | .unfit cause => .ofCause reference cause

inductive Demand where
  /-- Anyone may ask. -/
  | anyone (call : Except Refusal Call)
  /-- Only who has a session may ask. -/
  | member (call : Session → Except Refusal Call)

/-! ## Steps -/

def reading {α : Type} (input : Except Rejection α) : Except Refusal α := input.mapError .unread

/-- Goes on unless a field has something wrong. -/
def checking (verdict : Except Cause Unit) : Except Refusal Unit := verdict.mapError .unfit

variable (r : Request)

/-- The password in a form that has no other field. -/
def readPassword : Except Refusal String := do
  let password ← reading (readForm₁ r "password")
  checking (checkPassword password)
  return password

/-! ## Endpoints -/

/-- What a request asks of an endpoint, when one-time codes have so many digits. -/
def Endpoint.demand (digits : Nat) : Endpoint → Demand
  | .health => .anyone (.ok .health)
  | .register => .anyone do
    let (email, password) ← reading (readForm₂ r "email" "password")
    checking (checkPassword password)
    return .register email password
  | .login => .anyone do
    let (email, password) ← reading (readForm₂ r "email" "password")
    checking (checkCredentials email password)
    return .login email password
  | .refreshToken => .anyone do
    let token ← reading (readForm₁ r "refresh_token")
    checking (checkPresent .refreshTokenMissing token)
    return .refresh (Text.trim token)
  | .logout => .member fun session => .ok (.logout session)
  | .deleteAccount => .member fun session => .deleteAccount session <$> readPassword r
  | .status => .member fun session => .ok (.overview session)
  | .setup => .member fun session => .setup session <$> readPassword r
  | .image segment => .member fun session =>
    match Percent.decode? segment with
    | none => .error (.unread .path)
    | some name => .ok (.image session name)
  | .activate => .member fun session => do
    let code ← reading (readForm₁ r "code")
    checking (checkCode digits code)
    return .activate session code
  | .validate => .member fun session => do
    let (password, code) ← reading (readForm₂ r "password" "code")
    checking (checkPassword password)
    checking (checkCode digits code)
    return .validate session password code
  | .validateBackupCode => .member fun session => do
    let code ← reading (readForm₁ r "code")
    checking (checkPresent .backupCodeMissing code)
    return .validateBackupCode session code
  | .backupCodes => .member fun session => .generateBackupCodes session <$> readPassword r
  | .deactivate => .member fun session => .deactivate session <$> readPassword r
  | .changePassword => .member fun session => do
    let (current, new) ← reading (readForm₂ r "current_password" "new_password")
    checking (checkPassword current)
    checking (checkPassword new)
    return .changePassword session current new
  | .recoverPassword => .anyone do
    let (email, key, new) ← reading (readForm₃ r "email" "recovery_key" "new_password")
    checking (checkPresent .emailMissing email)
    checking (checkPassword new)
    return .recoverPassword (Text.trim email) key new

end SecondFactor.Http
