import SecondFactor.Email
import SecondFactor.Service.Database

/-!
# Accounts and sessions

Registering, logging in, confirming the password of a session, and closing an account. A session may
outlive its account; an operation that needs the account refuses such a session.
-/

namespace SecondFactor

variable (o : Occasion)

/-! ## Tokens -/

namespace Service

def issue (owner : Uuid) (claim : Claim) : Op Session.Tokens :=
  Op.onSessions (Session.issue o.deployment.primitives o.deployment.sessionLifetimes o.now
    o.draws.tokens owner claim)

/-- A new pair of tokens with another claim, in the place of the session's. -/
def reissue (session : Session) (claim : Claim) : Op Session.Tokens :=
  Op.onSessions (Session.reissue o.deployment.primitives o.deployment.sessionLifetimes o.now
    o.draws.tokens session claim)

/-- A new pair of tokens for an account, in the place of all others. -/
def replaceAll (owner : Uuid) (claim : Claim) : Op Session.Tokens :=
  Op.onSessions (Session.replaceAll o.deployment.primitives o.deployment.sessionLifetimes o.now
    o.draws.tokens owner claim)

def refresh (token : String) : Op Session.Tokens :=
  Op.onSessions (Session.refresh o.deployment.primitives o.deployment.sessionLifetimes o.now
    o.draws.tokens token)

def sessionOf (token : String) : Op Session := do
  let s ← get
  Op.require .unauthorized (Session.authenticate? o.deployment.primitives o.now token s.sessions)

def logout (session : Session) : Op Unit :=
  Op.changeSessions (Session.revokeFamily session.family)

def revokeOwner (owner : Uuid) : Op Unit :=
  Op.changeSessions (Session.revokeOwner owner)

/-! ## Accounts -/

def register (email password : String) : Op (Uuid × Account) := do
  let email ← Op.demand (Email.parse email)
  if (← Database.accountByEmail email).isSome then Op.refuse .emailTaken
  let passwordHash := o.deployment.primitives.hashWord o.draws.passwordSalt password
  let account : Account := { email, passwordHash, created := o.now, updated := o.now }
  Database.createAccount o.draws.account account
  return (o.draws.account, account)

/-- Refuses the request unless a password is that of an account. -/
def checkPassword (account : Account) (password : String) (mismatch : Mismatch) : Op Unit := do
  let verdict ← Op.ofResult <|
    (o.deployment.primitives.verifyWord account.passwordHash password).mapError
      (Failure.ofFault .passwordHashUnreadable)
  Op.ensure (.authentication mismatch) verdict

def authenticate (email password : String) : Op (Uuid × Account) := do
  let found ← Op.require (.authentication .credentials) (← Database.accountByEmail email)
  checkPassword o found.2 password .credentials
  return found

def currentAccount (owner : Uuid) : Op Account := do
  Op.require .unauthorized (← Database.account owner)

def confirmPassword (owner : Uuid) (password : String) : Op Account := do
  let account ← currentAccount owner
  checkPassword o account password .password
  return account

def discardPending (owner : Uuid) : Op Unit := Op.changeStaging fun s => s.discard owner

/-- Deletes the account of a session. An account with a second factor can be deleted only from a
session in which that was checked. -/
def deleteAccount (session : Session) (password : String) : Op Unit := do
  let _ ← confirmPassword o session.owner password
  let enrolled := (← Database.record session.owner).any fun r => r.active?.isSome
  Op.ensure (.conflict .verificationNeeded) (!enrolled || session.claim == .verified)
  Database.deleteAccount session.owner
  discardPending session.owner
  revokeOwner session.owner

end Service

end SecondFactor
