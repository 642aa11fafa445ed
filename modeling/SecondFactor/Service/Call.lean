import SecondFactor.Service.Passwords

/-!
# Calls

What can be asked of the service is a call: one of its operations with its arguments. An operation
that is done for somebody who logged in gets the session. All calls are carried out in one place, so
that whatever holds of every call holds of the service.
-/

namespace SecondFactor.Service

variable (o : Occasion)

inductive Call where
  | health
  | register (email password : String)
  | login (email password : String)
  | refresh (token : String)
  | logout (session : Session)
  | deleteAccount (session : Session) (password : String)
  | overview (session : Session)
  | setup (session : Session) (password : String)
  /-- Asks for the image with a name. -/
  | image (session : Session) (name : String)
  | activate (session : Session) (code : String)
  | validate (session : Session) (password code : String)
  | validateBackupCode (session : Session) (code : String)
  | generateBackupCodes (session : Session) (password : String)
  | deactivate (session : Session) (password : String)
  | changePassword (session : Session) (current new : String)
  | recoverPassword (email recoveryKey new : String)
  | purge
  deriving DecidableEq

inductive Reply where
  | health (h : Health)
  | account (id : Uuid) (account : Account)
  | login (tokens : Session.Tokens)
  | tokens (tokens : Session.Tokens)
  | done
  | overview (v : Overview)
  | setup (image : ImageRef)
  | image (png : Bytes)
  | activation (a : Activation)
  | codes (shown : List String)
  | recoveryKey (shown : String)

/-- A new pair of tokens for the account with an address and a password. -/
def login (email password : String) : Op Session.Tokens := do
  let (owner, _) ← authenticate o email password
  let claim ← claimFor owner
  issue o owner claim

def perform : Call → Op Reply
  | .health => .health <$> health
  | .register email password => (fun (id, account) => .account id account) <$>
    register o email password
  | .login email password => .login <$> login o email password
  | .refresh token => .tokens <$> refresh o token
  | .logout session => (fun _ => .done) <$> logout session
  | .deleteAccount session password => (fun _ => .done) <$> deleteAccount o session password
  | .overview session => .overview <$> overview o session
  | .setup session password => .setup <$> setup o session password
  | .image session name => .image <$> pendingImage o session name
  | .activate session code => .activation <$> activate o session code
  | .validate session password code => .tokens <$> validate o session password code
  | .validateBackupCode session code => .tokens <$> validateBackupCode o session code
  | .generateBackupCodes session password => .codes <$> generateBackupCodes o session password
  | .deactivate session password => .tokens <$> deactivate o session password
  | .changePassword session current new => .tokens <$> changePassword o session current new
  | .recoverPassword email recoveryKey new => .recoveryKey <$>
    recoverPassword o email recoveryKey new
  | .purge => (fun _ => .done) <$> purge o

end SecondFactor.Service
