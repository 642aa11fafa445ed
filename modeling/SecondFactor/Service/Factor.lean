import SecondFactor.Otp.Provisioning
import SecondFactor.Service.Accounts

/-!
# The second factor of an account

The second factor is off, pending or on. Setting it up makes a secret that waits for its first
code; activating turns it on and yields the recovery key; a session is then verified by a one-time
code or by a backup code; deactivating turns it off again. Every operation asks the claim of the
session first.

A check changes the bookkeeping of the secret whatever its verdict, so the secret is written back
before the verdict is told: to the pending secrets, or sealed again to the ledger. The latter
compares with what was read, so that of two checks at a time one is refused.
-/

namespace SecondFactor.Service

variable (o : Occasion)

/-! ## Parts of operations -/

def claimFor (owner : Uuid) : Op Claim := do
  return Claim.ofStatus ((← Database.record owner).map FactorRecord.status)

def activeCopies (owner : Uuid) : Op Copies := do
  Op.require .notEnabled ((← Database.record owner).bind FactorRecord.active?)

def currentSecond : Op Nat := Op.require (.internal .clock) o.now.sinceEpoch?

/-- Checks a code, without the blanks around it, against a secret. -/
def checkCode (secret : Otp.Secret) (code : String) : Op Otp.Check := do
  let now ← currentSecond o
  Op.ofResult (secret.check o.deployment.primitives o.deployment.policy.maxAttempts
    (Text.trim code) now)

/-- The two copies of a secret, under the key of the password and under that of a recovery key. -/
def sealCopies (secret : Otp.Secret) (passwordKey : Key) (recoveryKey : String) : Copies where
  main := secret.wrap o.deployment.primitives passwordKey o.draws.mainNonce
  backup := secret.wrap o.deployment.primitives
    (o.deployment.kdf.derive o.deployment.primitives recoveryKey) o.draws.backupNonce
  fingerprint := RecoveryKey.fingerprint o.deployment.primitives o.draws.fingerprintSalt recoveryKey

def openCopy (copy : Bytes) (word : String) : Except Otp.Secret.Unsealing Otp.Secret :=
  Otp.Secret.unwrap o.deployment.primitives copy
    (o.deployment.kdf.derive o.deployment.primitives word)

/-- The secret in the main copy of an account whose password was just confirmed. -/
def openMain (copies : Copies) (password : String) : Op Otp.Secret :=
  match openCopy o copies.main password with
  | .ok secret => pure secret
  | .error failure => Op.refuse (.internal failure.defect)

/-- Refuses a session that needs no check of the second factor. -/
def ensureUnverified (claim : Claim) : Op Unit :=
  match claim with
  | .on => pure ()
  | .verified => Op.refuse (.conflict .alreadyVerified)
  | .empty | .off => Op.refuse .notEnabled

/-- Writes a secret back to the pending entry from which it was taken, unless another took its
place. -/
def restage (owner entry : Uuid) (secret : Otp.Secret) : Op Unit :=
  Op.onStaging (Staging.amend o.deployment.pendingLifetime o.now owner fun pending =>
    if pending.id = entry then { pending with secret } else pending)

/-- The pending entry of an account that has not expired. -/
def lookAtPending (owner : Uuid) : Op (Option Pending) :=
  Op.onStaging (Staging.look o.deployment.pendingLifetime o.now owner)

/-! ## Setting up -/

/-- Makes a secret for an account and the image that shows it. -/
def setup (session : Session) (password : String) : Op ImageRef := do
  Op.ensure .alreadyEnabled session.claim.isUnenrolled
  let account ← confirmPassword o session.owner password
  -- The claim may be older than an activation in another session.
  Op.ensure .alreadyEnabled (!(← Database.record session.owner).any (·.enabled))
  let secret := o.deployment.policy.newSecret account.email o.draws.secretKey
  let image ← Op.demand secret.image
  let entry : Pending :=
    { id := o.draws.entry
      passwordKey := o.deployment.kdf.derive o.deployment.primitives password
      secret
      image := o.draws.image
      created := o.now }
  let s ← get
  let staging ← Op.demand (s.staging.enter session.owner entry image)
  set { s with staging }
  return o.draws.image

/-- The image of the session's own pending secret. -/
def pendingImage (session : Session) (name : String) : Op Bytes := do
  let image ← Op.require .notFound (ImageRef.parse? name)
  let entry ← lookAtPending o session.owner
  Op.ensure .notFound (entry.any (·.image == image))
  Op.require .notFound (← Op.demand ((← get).staging.gallery.read image))

/-! ## Activating -/

structure Activation where
  tokens : Session.Tokens
  /-- The recovery key in its shown form. -/
  recoveryKey : String
  deriving DecidableEq

/-- The pending entry of a session's account, with a code checked against its secret. -/
def checkPending (session : Session) (code : String) : Op (Pending × Otp.Check) := do
  Op.ensure (.conflict .alreadyEnabled) session.claim.isUnenrolled
  let _ ← currentAccount session.owner
  let entry ← Op.require (.conflict .nothingPending) (← lookAtPending o session.owner)
  let check ← checkCode o entry.secret code
  return (entry, check)

/-- Turns the second factor on, when a code of the pending secret is right. The pending secret is
kept, with its bookkeeping, as long as that did not succeed. -/
def activate (session : Session) (code : String) : Op Activation := do
  let (entry, check) ← checkPending o session code
  if !check.verified then
    restage o session.owner entry.id check.secret
    Op.refuse .codeInvalid
  let recoveryKey := RecoveryKey.generate o.draws.recoveryKey
  let copies := sealCopies o check.secret entry.passwordKey recoveryKey
  -- A step that was accepted stays used even when the record could not be written.
  let enabled ← tryCatch (Database.enable o.now session.owner copies) fun failure => do
    restage o session.owner entry.id check.secret
    throw failure
  Op.ensure (.conflict .alreadyEnabled) enabled
  Op.changeStaging fun s => s.discardIf session.owner entry.id
  -- All other sessions claim that there is no second factor.
  let tokens ← replaceAll o session.owner .verified
  return { tokens, recoveryKey := RecoveryKey.format recoveryKey }

/-! ## Verifying a session -/

/-- The copies of the account of a session that needs a check, with a code checked against the
secret in the main one. -/
def checkMain (session : Session) (password code : String) : Op (Copies × Otp.Check) := do
  ensureUnverified session.claim
  let _ ← confirmPassword o session.owner password
  let copies ← activeCopies session.owner
  let secret ← openMain o copies password
  let check ← checkCode o secret code
  return (copies, check)

def validate (session : Session) (password code : String) : Op Session.Tokens := do
  let (copies, check) ← checkMain o session password code
  let main := check.secret.wrap o.deployment.primitives
    (o.deployment.kdf.derive o.deployment.primitives password) o.draws.mainNonce
  -- Of two checks begun from one copy, the later to be written is refused.
  let kept ← Database.updateMain o.now session.owner copies.main main
  Op.ensure .codeInvalid kept
  Op.ensure .codeInvalid check.verified
  reissue o session .verified

def validateBackupCode (session : Session) (code : String) : Op Session.Tokens := do
  ensureUnverified session.claim
  let _ ← currentAccount session.owner
  let _ ← activeCopies session.owner
  let code ← Op.demand (BackupCode.normalize code)
  let hash := BackupCode.hash o.deployment.primitives o.deployment.kdf session.owner code
  let used ← Database.consumeCode session.owner hash
  Op.ensure .backupCodeInvalid used
  reissue o session .verified

/-! ## With a verified session -/

/-- Replaces the backup codes of an account; the new ones in their shown form. -/
def generateBackupCodes (session : Session) (password : String) : Op (List String) := do
  Op.ensure (.conflict .verificationNeeded) (session.claim == .verified)
  let _ ← confirmPassword o session.owner password
  let _ ← activeCopies session.owner
  let set := o.draws.codes.generate o.deployment.primitives o.deployment.kdf session.owner
  Database.replaceCodes session.owner set.hashes
  match set.codes.mapM BackupCode.display? with
  | some shown => return shown
  | none => throw .crash

def deactivate (session : Session) (password : String) : Op Session.Tokens := do
  Op.ensure .notEnabled (!session.claim.isUnenrolled)
  let _ ← confirmPassword o session.owner password
  let _ ← activeCopies session.owner
  Database.disable o.now session.owner
  discardPending session.owner
  replaceAll o session.owner .empty

/-! ## Overview -/

inductive Enrollment where
  | off
  | pending
  | on
  deriving DecidableEq

def Enrollment.text : Enrollment → String
  | off => "off"
  | pending => "pending"
  | on => "on"

structure Overview where
  enrollment : Enrollment
  claim : Claim
  codesLeft : Nat
  deriving DecidableEq

def overview (session : Session) : Op Overview := do
  if (← Database.record session.owner).any (·.enabled) then
    return ⟨.on, session.claim, ← Database.countCodes session.owner⟩
  else if (← lookAtPending o session.owner).isSome then
    return ⟨.pending, session.claim, 0⟩
  else
    return ⟨.off, session.claim, 0⟩

end SecondFactor.Service
