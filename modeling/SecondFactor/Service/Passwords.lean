import SecondFactor.Service.Factor

/-!
# Changing and recovering a password

The main copy of a secret is sealed under a key from the password, so a new password means a new
main copy, written together with the new hash. Who lost the password opens the backup copy with
the recovery key; both copies are then sealed anew, under the new password and a new recovery key.
The backup copy does not know which codes were accepted since it was sealed, so every code around
the current time is taken as used.
-/

namespace SecondFactor.Service

variable (o : Occasion)

/-- The main copy that is expected and the one to replace it, under the keys of the two
passwords. -/
def resealMain (copies : Copies) (current new : String) : Op (Bytes × Bytes) := do
  let secret ← openMain o copies current
  let key := o.deployment.kdf.derive o.deployment.primitives new
  return (copies.main, secret.wrap o.deployment.primitives key o.draws.mainNonce)

/-- Changes the password of a session's account. All sessions make way for a new one with the same
claim. -/
def changePassword (session : Session) (current new : String) : Op Session.Tokens := do
  let _ ← confirmPassword o session.owner current
  let active := (← Database.record session.owner).bind FactorRecord.active?
  Op.ensure (.conflict .verificationNeeded) (active.isNone || session.claim == .verified)
  let hash := o.deployment.primitives.hashWord o.draws.passwordSalt new
  let main ← match active with
    | some copies => some <$> resealMain o copies current new
    | none => pure none
  let changed ← Database.changePassword session.owner hash main
  Op.ensure (.conflict .concurrentUpdate) changed
  -- The key of the pending secret is that of the old password.
  discardPending session.owner
  replaceAll o session.owner session.claim

/-- The secret in the backup copy, with every step of the present window used. -/
def recoverSecret (copies : Copies) (recoveryKey : String) : Op Otp.Secret := do
  let verdict ← Op.ofResult
    (RecoveryKey.verify o.deployment.primitives recoveryKey copies.fingerprint)
  Op.ensure .recoveryKeyInvalid verdict
  match openCopy o copies.backup recoveryKey with
  | .error _ => Op.refuse .recoveryKeyInvalid
  | .ok secret =>
    -- The backup copy has not seen the steps accepted since it was sealed.
    let now ← currentSecond o
    Op.ofResult (secret.retire now)

/-- Sets a new password for the account with an address, by its recovery key. Why that is refused
is not told. All sessions end; the new recovery key is returned in its shown form. -/
def recoverPassword (email recoveryKey new : String) : Op String := do
  let recoveryKey ← Op.demand (RecoveryKey.normalize recoveryKey)
  let (owner, _) ← Op.require .recoveryKeyInvalid (← Database.accountByEmail email)
  let copies ← Op.require .recoveryKeyInvalid ((← Database.record owner).bind FactorRecord.active?)
  let secret ← recoverSecret o copies recoveryKey
  let nextKey := RecoveryKey.generate o.draws.recoveryKey
  let hash := o.deployment.primitives.hashWord o.draws.passwordSalt new
  let key := o.deployment.kdf.derive o.deployment.primitives new
  let changed ← Database.recoverPassword owner copies.fingerprint hash
    (sealCopies o secret key nextKey)
  Op.ensure .recoveryKeyInvalid changed
  discardPending owner
  revokeOwner owner
  return RecoveryKey.format nextKey

/-! ## Upkeep -/

/-- Drops what has expired: pending secrets with their images, and tokens. -/
def purge : Op Unit := do
  let _ ← Op.onStaging (Staging.purge o.deployment.pendingLifetime o.now)
  Op.changeSessions (Session.purge o.now)

structure Health where
  /-- Whether images can be saved. -/
  gallery : Bool
  /-- The number of pending secrets, expired ones included. -/
  pending : Nat

def health : Op Health :=
  Op.onStaging fun s =>
    let (ready, gallery) := s.gallery.ready
    (.ok ⟨ready, s.entries.length⟩, { s with gallery })

end SecondFactor.Service
