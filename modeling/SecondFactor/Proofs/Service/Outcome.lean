import SecondFactor.Proofs.Service.Parts
import SecondFactor.Service.Call

/-!
# Ways in which an operation can end

For each operation, the ways in which it can end: what is then known about what it met, and what it
leaves. These are definitions only; that an operation ends in one of its ways is proved by walking
through it, account by account and factor by factor in the modules after this one.

A way names no step of the operation. A statement about the service goes through the ways, and stays
what it is when the steps in between change.

## The architecture

* **`Becomes`** — what a state turned into: its ledger, its pending secrets, its tokens.
* **`Outcome`** — one inductive predicate for each operation that changes more than an expired
  entry. Its first case is mostly that the operation was refused and did nothing.
* **`Outcome.Resealed`**, **`Outcome.Recovered`** — what a change of the password, or its recovery,
  knows about the copies that it seals again.
-/

namespace SecondFactor

/-- What a state turned into. The pending secrets are known only if no other set-up came in
between. -/
structure Becomes (s : State) (ledger : Ledger) (staging : Staging → Staging)
    (sessions : Session.Registry → Session.Registry) (s' : State) : Prop where
  ledger_eq : s'.ledger = ledger
  staging_eq : s.mishaps.Plain → s'.staging = staging s.staging
  sessions_eq : s'.sessions = sessions s.sessions

theorem Writes.becomes {s s' : State} {l : Ledger} (h : Writes s l s') : Becomes s l id id s' :=
  ⟨h.ledger, h.staging, h.sessions⟩

theorem Becomes.after {s t u : State} {l : Ledger} {g : Staging → Staging}
    {f : Session.Registry → Session.Registry} (h' : Becomes t l g f u) (h : Quiet s t) :
    Becomes s l g f u where
  ledger_eq := h'.ledger_eq
  staging_eq hp := (h'.staging_eq (h.plain hp)).trans (congrArg g (h.staging hp))
  sessions_eq := h'.sessions_eq.trans (congrArg f h.sessions)

theorem Writes.then {s t : State} {l : Ledger} (h : Writes s l t) (g : Staging → Staging)
    (f : Session.Registry → Session.Registry) :
    Becomes s l g f { t with staging := g t.staging, sessions := f t.sessions } :=
  ⟨h.ledger, fun hp => congrArg g (h.staging hp), congrArg f h.sessions⟩

namespace Service

open Op

variable (o : Occasion)

/-- The restaging of a secret, as a change of the pending secrets. -/
def restaged (owner entry : Uuid) (secret : Otp.Secret) (s : Staging) : Staging :=
  (s.amend o.deployment.pendingLifetime o.now owner fun pending =>
    if pending.id = entry then { pending with secret } else pending).2

/-- The tokens of a new pair, and the registry with it. -/
def issued (owner : Uuid) (claim : Claim) (registry : Session.Registry) :
    Except Failure Session.Tokens × Session.Registry :=
  Session.issue o.deployment.primitives o.deployment.sessionLifetimes o.now o.draws.tokens owner
    claim registry

/-! ## Outcomes -/

namespace Outcome

/-- How a registration ends. -/
inductive Register (email password : String) (s : State) :
    Except Failure (Uuid × Account) → State → Prop where
  | refused {failure : Failure} {s' : State} (h : Quiet s s') :
      Register email password s (.error failure) s'
  | done {address : String} {account : Account} {s' : State}
      (hparse : Email.parse email = .ok address)
      (hfree : s.ledger.findByEmail? address = none)
      (haccount : account = ⟨address,
        o.deployment.primitives.hashWord o.draws.passwordSalt password, o.now, o.now⟩)
      (h : Becomes s (s.ledger.register o.draws.account account) id id s') :
      Register email password s (.ok (o.draws.account, account)) s'

/-- How a login ends. The claim of the new pair comes from the record that was shown. -/
inductive Login (email password : String) (s : State) :
    Except Failure Session.Tokens → State → Prop where
  | refused {failure : Failure} {s' : State} (h : Quiet s s') :
      Login email password s (.error failure) s'
  | done {owner : Uuid} {account : Account} {claim : Claim} {s' : State}
      (hfound : s.ledger.findByEmail? email = some (owner, account))
      (hpassword : o.deployment.primitives.verifyWord account.passwordHash password = .ok true)
      (hclaim : claim = Claim.ofStatus ((s.shown owner).map FactorRecord.status))
      (h : Becomes s s.ledger id (fun reg => (issued o owner claim reg).2) s') :
      Login email password s (issued o owner claim s.sessions).1 s'

/-- How closing an account ends. The deletion may have been refused without a word. -/
inductive DeleteAccount (session : Session) (password : String) (s : State) :
    Except Failure Unit → State → Prop where
  | refused {failure : Failure} {s' : State} (h : Quiet s s') :
      DeleteAccount session password s (.error failure) s'
  | done {account : Account} {l : Ledger} {s' : State}
      (haccount : s.ledger.accounts.get? session.owner = some account)
      (hpassword : o.deployment.primitives.verifyWord account.passwordHash password = .ok true)
      (hclaim : ((s.shown session.owner).bind FactorRecord.active?).isSome →
        session.claim = .verified)
      (hl : l = s.ledger ∨ l = s.ledger.remove session.owner)
      (h : Becomes s l (·.discard session.owner) (Session.revokeOwner session.owner) s') :
      DeleteAccount session password s (.ok ()) s'

/-- How a set-up ends. -/
inductive Setup (session : Session) (password : String) (s : State) :
    Except Failure ImageRef → State → Prop where
  | refused {failure : Failure} {s' : State} (h : Quiet s s') :
      Setup session password s (.error failure) s'
  | done {account : Account} {image : Bytes} {entry : Pending} {before after : Staging} {s' : State}
      (hclaim : session.claim.isUnenrolled = true)
      (haccount : s.ledger.accounts.get? session.owner = some account)
      (hpassword : o.deployment.primitives.verifyWord account.passwordHash password = .ok true)
      (hshown : (s.shown session.owner).any (·.enabled) = false)
      (hentry : entry = ⟨o.draws.entry, o.deployment.kdf.derive o.deployment.primitives password,
        o.deployment.policy.newSecret account.email o.draws.secretKey, o.draws.image, o.now⟩)
      (hbefore : s.mishaps.Plain → before = s.staging)
      (hafter : before.enter session.owner entry image = .ok after)
      (h : Becomes s s.ledger (fun _ => after) id s') :
      Setup session password s (.ok o.draws.image) s'

/-- How an activation ends. -/
inductive Activate (session : Session) (code : String) (s : State) :
    Except Failure Activation → State → Prop where
  /-- No code was checked. -/
  | refused {failure : Failure} {s' : State}
      (hcheck : (checkPending o session code).Ends s (.error failure) s') (h : Faded s s') :
      Activate session code s (.error failure) s'
  /-- The code was wrong. -/
  | mistaken {entry : Pending} {check : Otp.Check} {t : State} {failure : Failure} {s' : State}
      (hcheck : (checkPending o session code).Ends s (.ok (entry, check)) t)
      (hno : check.accepted = none)
      (h : Becomes s s.ledger (restaged o session.owner entry.id check.secret) id s') :
      Activate session code s (.error failure) s'
  /-- The record could not be written. -/
  | unwritten {entry : Pending} {check : Otp.Check} {t : State} {failure : Failure} {s' : State}
      (hcheck : (checkPending o session code).Ends s (.ok (entry, check)) t)
      (hyes : check.accepted.isSome)
      (h : Becomes s s.ledger (restaged o session.owner entry.id check.secret) id s') :
      Activate session code s (.error failure) s'
  /-- The second factor is on already. -/
  | late {entry : Pending} {check : Otp.Check} {t : State} {s' : State}
      (hcheck : (checkPending o session code).Ends s (.ok (entry, check)) t)
      (hyes : check.accepted.isSome) (h : Quiet s s') :
      Activate session code s (.error (.refused (.conflict .alreadyEnabled))) s'
  /-- The second factor was turned on. -/
  | done {entry : Pending} {check : Otp.Check} {t : State} {l : Ledger} {s' : State}
      (hcheck : (checkPending o session code).Ends s (.ok (entry, check)) t)
      (hyes : check.accepted.isSome)
      (hl : s.ledger.enable? session.owner (sealCopies o check.secret entry.passwordKey
        (RecoveryKey.generate o.draws.recoveryKey)) o.now = some l)
      (h : Becomes s l (·.discardIf session.owner entry.id) (fun reg =>
        (issued o session.owner .verified (Session.revokeOwner session.owner reg)).2) s') :
      Activate session code s
        ((issued o session.owner .verified (Session.revokeOwner session.owner s.sessions)).1.map
          fun tokens => ⟨tokens, RecoveryKey.format (RecoveryKey.generate o.draws.recoveryKey)⟩) s'

/-- The main copy with the checked secret in it, which a verification writes. -/
def recheckedMain (password : String) (check : Otp.Check) : Bytes :=
  check.secret.wrap o.deployment.primitives
    (o.deployment.kdf.derive o.deployment.primitives password) o.draws.mainNonce

/-- How a verification by a one-time code ends. -/
inductive Validate (session : Session) (password code : String) (s : State) :
    Except Failure Session.Tokens → State → Prop where
  /-- No code was checked. -/
  | refused {failure : Failure} {s' : State}
      (hcheck : (checkMain o session password code).Ends s (.error failure) s') (h : Quiet s s') :
      Validate session password code s (.error failure) s'
  /-- The main copy could not be written, or is not the one that was read. -/
  | lost {copies : Copies} {check : Otp.Check} {t : State} {failure : Failure} {s' : State}
      (hcheck : (checkMain o session password code).Ends s (.ok (copies, check)) t)
      (h : Quiet s s') :
      Validate session password code s (.error failure) s'
  /-- The code was wrong. -/
  | mistaken {copies : Copies} {check : Otp.Check} {t : State} {l : Ledger} {s' : State}
      (hcheck : (checkMain o session password code).Ends s (.ok (copies, check)) t)
      (hno : check.accepted = none)
      (hl : s.ledger.updateMain? session.owner copies.main (recheckedMain o password check) o.now =
        some l)
      (h : Becomes s l id id s') :
      Validate session password code s (.error (.refused .codeInvalid)) s'
  | done {copies : Copies} {check : Otp.Check} {t : State} {l : Ledger} {s' : State}
      (hcheck : (checkMain o session password code).Ends s (.ok (copies, check)) t)
      (hyes : check.accepted.isSome)
      (hl : s.ledger.updateMain? session.owner copies.main (recheckedMain o password check) o.now =
        some l)
      (h : Becomes s l id (fun reg =>
        (issued o session.owner .verified (Session.revokeFamily session.family reg)).2) s') :
      Validate session password code s
        (issued o session.owner .verified (Session.revokeFamily session.family s.sessions)).1 s'

/-- How a verification by a backup code ends. -/
inductive ValidateBackupCode (session : Session) (code : String) (s : State) :
    Except Failure Session.Tokens → State → Prop where
  | refused {failure : Failure} {s' : State} (h : Quiet s s') :
      ValidateBackupCode session code s (.error failure) s'
  | done {normal : String} {copies : Copies} {l : Ledger} {s' : State}
      (hclaim : session.claim = .on)
      (hshown : (s.shown session.owner).bind FactorRecord.active? = some copies)
      (hnormal : BackupCode.normalize code = .ok normal)
      (hl : s.ledger.consumeCode? session.owner
        (BackupCode.hash o.deployment.primitives o.deployment.kdf session.owner normal) = some l)
      (h : Becomes s l id (fun reg =>
        (issued o session.owner .verified (Session.revokeFamily session.family reg)).2) s') :
      ValidateBackupCode session code s
        (issued o session.owner .verified (Session.revokeFamily session.family s.sessions)).1 s'

/-- How the replacement of backup codes ends. -/
inductive GenerateBackupCodes (session : Session) (password : String) (s : State) :
    Except Failure (List String) → State → Prop where
  | refused {failure : Failure} {s' : State} (h : Quiet s s') :
      GenerateBackupCodes session password s (.error failure) s'
  | done {account : Account} {copies : Copies} {r : Except Failure (List String)} {s' : State}
      (hclaim : session.claim = .verified)
      (haccount : s.ledger.accounts.get? session.owner = some account)
      (hpassword : o.deployment.primitives.verifyWord account.passwordHash password = .ok true)
      (hshown : (s.shown session.owner).bind FactorRecord.active? = some copies)
      (h : Becomes s (s.ledger.replaceCodes session.owner (o.draws.codes.codes.map
        (BackupCode.hash o.deployment.primitives o.deployment.kdf session.owner))) id id s') :
      GenerateBackupCodes session password s r s'

/-- How turning the second factor off ends. -/
inductive Deactivate (session : Session) (password : String) (s : State) :
    Except Failure Session.Tokens → State → Prop where
  | refused {failure : Failure} {s' : State} (h : Quiet s s') :
      Deactivate session password s (.error failure) s'
  | done {account : Account} {copies : Copies} {s' : State}
      (hclaim : session.claim.isUnenrolled = false)
      (haccount : s.ledger.accounts.get? session.owner = some account)
      (hpassword : o.deployment.primitives.verifyWord account.passwordHash password = .ok true)
      (hshown : (s.shown session.owner).bind FactorRecord.active? = some copies)
      (h : Becomes s (s.ledger.disable session.owner o.now) (·.discard session.owner) (fun reg =>
        (issued o session.owner .empty (Session.revokeOwner session.owner reg)).2) s') :
      Deactivate session password s
        (issued o session.owner .empty (Session.revokeOwner session.owner s.sessions)).1 s'

/-- What a change of the password writes for the main copy: nothing for a record that is not
active, and else the secret sealed again. -/
def Resealed (shown : Option FactorRecord) (current new : String) (main : Option (Bytes × Bytes)) :
    Prop :=
  match shown.bind FactorRecord.active? with
  | none => main = none
  | some copies => ∃ secret, openCopy o copies.main current = .ok secret ∧
      main = some (copies.main, secret.wrap o.deployment.primitives
        (o.deployment.kdf.derive o.deployment.primitives new) o.draws.mainNonce)

variable {o} in
/-- Where nothing is sealed again, no record in use was shown. -/
theorem Resealed.of_none {shown : Option FactorRecord} {current new : String}
    (h : Resealed o shown current new none) : shown.bind FactorRecord.active? = none := by
  unfold Resealed at h
  split at h
  · assumption
  · obtain ⟨_, -, h⟩ := h
    cases h

variable {o} in
/-- Where a copy is sealed again, it is that of the record that was shown, and it opened under the
current password. -/
theorem Resealed.of_some {shown : Option FactorRecord} {current new : String}
    {expected main : Bytes}
    (h : Resealed o shown current new (some (expected, main))) :
    ∃ copies secret, shown.bind FactorRecord.active? = some copies ∧
      openCopy o copies.main current = .ok secret ∧ expected = copies.main ∧
      main = secret.wrap o.deployment.primitives
        (o.deployment.kdf.derive o.deployment.primitives new) o.draws.mainNonce := by
  unfold Resealed at h
  split at h
  · cases h
  · rename_i copies hshown
    obtain ⟨secret, hopen, h⟩ := h
    cases h
    exact ⟨copies, secret, hshown, hopen, rfl, rfl⟩

/-- How a change of the password ends. -/
inductive ChangePassword (session : Session) (current new : String) (s : State) :
    Except Failure Session.Tokens → State → Prop where
  | refused {failure : Failure} {s' : State} (h : Quiet s s') :
      ChangePassword session current new s (.error failure) s'
  | done {account : Account} {main : Option (Bytes × Bytes)} {l : Ledger} {s' : State}
      (haccount : s.ledger.accounts.get? session.owner = some account)
      (hpassword : o.deployment.primitives.verifyWord account.passwordHash current = .ok true)
      (hclaim : ((s.shown session.owner).bind FactorRecord.active?).isSome →
        session.claim = .verified)
      (hmain : Resealed o (s.shown session.owner) current new main)
      (hl : s.ledger.changePassword? session.owner
        (o.deployment.primitives.hashWord o.draws.passwordSalt new) main = some l)
      (h : Becomes s l (·.discard session.owner) (fun reg =>
        (issued o session.owner session.claim (Session.revokeOwner session.owner reg)).2) s') :
      ChangePassword session current new s
        (issued o session.owner session.claim (Session.revokeOwner session.owner s.sessions)).1 s'

/-- The secret comes out of the backup copy, with the present window used up. -/
structure Recovered (copies : Copies) (recoveryKey : String) (secret : Otp.Secret) : Prop where
  verified : RecoveryKey.verify o.deployment.primitives recoveryKey copies.fingerprint = .ok true
  opened : ∃ held now, openCopy o copies.backup recoveryKey = .ok held ∧
    o.now.sinceEpoch? = some now ∧ held.retire now = .ok secret

/-- How a recovery ends. -/
inductive RecoverPassword (email recoveryKey new : String) (s : State) :
    Except Failure String → State → Prop where
  | refused {failure : Failure} {s' : State} (h : Quiet s s') :
      RecoverPassword email recoveryKey new s (.error failure) s'
  | done {normal : String} {owner : Uuid} {account : Account} {copies : Copies}
      {secret : Otp.Secret} {l : Ledger} {s' : State}
      (hnormal : RecoveryKey.normalize recoveryKey = .ok normal)
      (hfound : s.ledger.findByEmail? email = some (owner, account))
      (hshown : (s.shown owner).bind FactorRecord.active? = some copies)
      (hsecret : Recovered o copies normal secret)
      (hl : s.ledger.recover? owner copies.fingerprint
        (o.deployment.primitives.hashWord o.draws.passwordSalt new)
        (sealCopies o secret (o.deployment.kdf.derive o.deployment.primitives new)
          (RecoveryKey.generate o.draws.recoveryKey)) = some l)
      (h : Becomes s l (·.discard owner) (Session.revokeOwner owner) s') :
      RecoverPassword email recoveryKey new s
        (.ok (RecoveryKey.format (RecoveryKey.generate o.draws.recoveryKey))) s'

end Outcome

end Service

end SecondFactor
