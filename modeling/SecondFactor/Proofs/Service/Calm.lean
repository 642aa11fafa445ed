import SecondFactor.Proofs.Ledger
import SecondFactor.Proofs.Service.Staleness

/-!
# Operations to which nothing happens

Most of what is said about an operation is about the ways in which it can end. That it does what it
is asked for needs a state in which no mishap lies ahead: there every query runs, and an operation
whose tests are passed goes through to its end.

## The architecture

* **`State.Calm`** — no mishap lies ahead.
* **`Database.put_calm`** — a query runs; one `_calm` lemma for each query that is asked for here.
* **`validateBackupCode_calm`**, **`login_calm`**, **`recoverPassword_calm`** — operations that go
  through; **`login_unknown`**, **`recoverPassword_mistaken`** — what a wrong address and a wrong
  key are answered.
-/

namespace SecondFactor

/-- No mishap lies ahead. -/
def State.Calm (s : State) : Prop := s.mishaps = {}

namespace Database

open Op

variable {α : Type} {s : State}

theorem put_calm (hs : s.Calm) (q : Query) (refusal : Option α) (run : Run α)
    (causeOf : DatabaseError → Cause) : (put q refusal run causeOf).exec s =
      (((ExceptT.run run).run s).1.mapError (.refused ∘ causeOf), ((ExceptT.run run).run s).2) := by
  rcases s with ⟨ledger, staging, sessions, mishaps⟩
  cases hs
  rfl

/-- A look at the ledger yields what it looks at. The looks at accounts are cases of this; a look at
a record is not, since it may show a stale one. -/
theorem look_calm (hs : s.Calm) {q : Query} (look : Ledger → α) {causeOf : DatabaseError → Cause} :
    (put q none (transact fun l => (look l, l)) causeOf).Ends s (.ok (look s.ledger)) s :=
  put_calm hs q none _ causeOf

theorem account_calm (hs : s.Calm) (id : Uuid) :
    (account id).Ends s (.ok (s.ledger.accounts.get? id)) s :=
  look_calm hs fun l => l.accounts.get? id

theorem accountByEmail_calm (hs : s.Calm) (email : String) :
    (accountByEmail email).Ends s (.ok (s.ledger.findByEmail? email)) s :=
  look_calm hs fun l => l.findByEmail? email

theorem record_calm (hs : s.Calm) (owner : Uuid) :
    (record owner).Ends s (.ok (s.ledger.records.get? owner)) s := by
  unfold Ends record
  rw [put_calm hs]
  rcases s with ⟨ledger, staging, sessions, mishaps⟩
  cases hs
  rfl

/-- A change goes through if its condition holds. -/
theorem conditional_calm (hs : s.Calm) {q : Query} {change : Ledger → Option Ledger} {l : Ledger}
    (hl : change s.ledger = some l) :
    (put q (some false) (transact (conditional change))).Ends s (.ok true)
      { s with ledger := l } := by
  have htransact : (ExceptT.run (transact (conditional change))).run s =
      (.ok (conditional change s.ledger).1, { s with ledger := (conditional change s.ledger).2 }) :=
    rfl
  unfold Ends
  rw [put_calm hs, htransact, conditional, hl]
  rfl

end Database

/-- A pair of tokens is handed out when both can be dated. -/
theorem Session.issue_of_datable {P : Primitives} {lifetimes : Lifetimes} {now : Instant}
    {draws : Draws} {owner : Uuid} {claim : Claim} {registry : Registry}
    (haccess : (now.after? lifetimes.access).isSome = true)
    (hrefresh : (now.after? lifetimes.refresh).isSome = true) :
    ∃ tokens, (issue P lifetimes now draws owner claim registry).1 = .ok tokens := by
  obtain ⟨expires, hexpires⟩ := Option.isSome_iff_exists.1 haccess
  obtain ⟨expires', hexpires'⟩ := Option.isSome_iff_exists.1 hrefresh
  unfold issue
  rw [hexpires, hexpires']
  exact ⟨_, rfl⟩

namespace Service

open Op

variable {o : Occasion} {s s' : State} {session : Session}

/-! ## Parts of operations -/

/-- Tests that are passed, and tests that are not, each with what comes of it. They are the steps of
the walks below. -/
theorem require_some {α : Type} (cause : Cause) (a : α) (s : State) :
    (require cause (some a)).Ends s (.ok a) s :=
  ends_pure.2 ⟨rfl, rfl⟩

theorem require_none {α : Type} (cause : Cause) (s : State) :
    (require cause (none : Option α)).Ends s (.error (.refused cause)) s :=
  ends_refuse.2 ⟨rfl, rfl⟩

theorem demand_of_ok {α : Type} {result : Except Cause α} {a : α} (h : result = .ok a)
    (s : State) : (demand result).Ends s (.ok a) s := by
  rw [h]
  exact ends_pure.2 ⟨rfl, rfl⟩

theorem demand_of_error {α : Type} {result : Except Cause α} {cause : Cause}
    (h : result = .error cause) (s : State) :
    (demand result).Ends s (.error (.refused cause)) s := by
  rw [h]
  exact ends_refuse.2 ⟨rfl, rfl⟩

theorem ensure_true (cause : Cause) (s : State) : (ensure cause true).Ends s (.ok ()) s :=
  ends_pure.2 ⟨rfl, rfl⟩

theorem currentAccount_calm (hs : s.Calm) {owner : Uuid} {account : Account}
    (haccount : s.ledger.accounts.get? owner = some account) :
    (currentAccount owner).Ends s (.ok account) s := by
  refine (ends_bind_through (Database.account_calm hs owner)).2 ?_
  rw [haccount]
  exact require_some _ account s

theorem activeCopies_calm (hs : s.Calm) {owner : Uuid} {copies : Copies}
    (hactive : (s.ledger.records.get? owner).bind FactorRecord.active? = some copies) :
    (activeCopies owner).Ends s (.ok copies) s := by
  refine (ends_bind_through (Database.record_calm hs owner)).2 ?_
  rw [hactive]
  exact require_some _ copies s

/-- With the right password an operation goes on from where it was. -/
theorem checkPassword_right {account : Account} {password : String} {mismatch : Mismatch}
    (h : o.deployment.primitives.verifyWord account.passwordHash password = .ok true) (s : State) :
    (checkPassword o account password mismatch).Ends s (.ok ()) s := by
  have hverdict : (ofResult ((o.deployment.primitives.verifyWord account.passwordHash
      password).mapError (Failure.ofFault .passwordHashUnreadable))).Ends s (.ok true) s := by
    rw [h]
    exact ends_pure.2 ⟨rfl, rfl⟩
  exact (ends_bind_through hverdict).2 (ensure_true _ s)

/-- With a wrong one it is refused, with the fault that the operation names. -/
theorem checkPassword_wrong {account : Account} {password : String} {mismatch : Mismatch}
    (h : o.deployment.primitives.verifyWord account.passwordHash password = .ok false) (s : State) :
    (checkPassword o account password mismatch).Ends s
      (.error (.refused (.authentication mismatch))) s := by
  have hverdict : (ofResult ((o.deployment.primitives.verifyWord account.passwordHash
      password).mapError (Failure.ofFault .passwordHashUnreadable))).Ends s (.ok false) s := by
    rw [h]
    exact ends_pure.2 ⟨rfl, rfl⟩
  exact (ends_bind_through hverdict).2 (ends_refuse.2 ⟨rfl, rfl⟩)

/-! ## Operations that go through -/

/-- A verification by a backup code that is there gets to where the session is renewed. -/
theorem validateBackupCode_calm (hs : s.Calm) (hclaim : session.claim = .on) {account : Account}
    (haccount : s.ledger.accounts.get? session.owner = some account) {copies : Copies}
    (hactive : (s.ledger.records.get? session.owner).bind FactorRecord.active? = some copies)
    {code normal : String} (hnormal : BackupCode.normalize code = .ok normal) {l : Ledger}
    (hl : s.ledger.consumeCode? session.owner
      (BackupCode.hash o.deployment.primitives o.deployment.kdf session.owner normal) = some l)
    {r : Except Failure Session.Tokens} :
    (validateBackupCode o session code).Ends s r s' ↔
      (reissue o session .verified).Ends { s with ledger := l } r s' := by
  have hunverified : (ensureUnverified session.claim).Ends s (.ok ()) s := by
    rw [hclaim]
    exact ends_pure.2 ⟨rfl, rfl⟩
  unfold validateBackupCode
  rw [ends_bind_through hunverified, ends_bind_through (currentAccount_calm hs haccount),
    ends_bind_through (activeCopies_calm hs hactive),
    ends_bind_through (demand_of_ok hnormal s)]
  exact (ends_bind_through (Database.conditional_calm hs hl)).trans
    (ends_bind_through (ensure_true _ _))

/-- A login with the right password gets to where the tokens are handed out. -/
theorem login_calm (hs : s.Calm) {email password : String} {owner : Uuid} {account : Account}
    (hfound : s.ledger.findByEmail? email = some (owner, account))
    (hpassword : o.deployment.primitives.verifyWord account.passwordHash password = .ok true)
    {r : Except Failure Session.Tokens} : (login o email password).Ends s r s' ↔
      (issue o owner (Claim.ofStatus ((s.ledger.records.get? owner).map
        FactorRecord.status))).Ends s r s' := by
  have hauthenticate : (authenticate o email password).Ends s (.ok (owner, account)) s := by
    refine (ends_bind_through (Database.accountByEmail_calm hs email)).2 ?_
    rw [hfound]
    refine (ends_bind_through (require_some _ (owner, account) s)).2 ?_
    exact (ends_bind_through (checkPassword_right hpassword s)).2 (ends_pure.2 ⟨rfl, rfl⟩)
  have hclaim : (claimFor owner).Ends s (.ok (Claim.ofStatus ((s.ledger.records.get? owner).map
      FactorRecord.status))) s :=
    (ends_bind_through (Database.record_calm hs owner)).2 (ends_pure.2 ⟨rfl, rfl⟩)
  unfold login
  rw [ends_bind_through hauthenticate]
  exact ends_bind_through hclaim

/-- A login under an address that nobody has is refused, and does nothing. -/
theorem login_unknown (hs : s.Calm) {email password : String}
    (hfound : s.ledger.findByEmail? email = none) :
    (login o email password).Ends s (.error (.refused (.authentication .credentials))) s := by
  have hlook := Database.accountByEmail_calm hs email
  rw [hfound] at hlook
  have hauthenticate : (authenticate o email password).Ends s
      (.error (.refused (.authentication .credentials))) s :=
    (ends_bind_through hlook).2 ((ends_bind_stop (require_none _ s)).2 ⟨rfl, rfl⟩)
  exact (ends_bind_stop hauthenticate).2 ⟨rfl, rfl⟩

/-! ## Recovering a password -/

section Recovering

variable {email recoveryKey normal new : String} {owner : Uuid} {account : Account}
  {copies : Copies}

/-- A recovery gets as far as the copies of the account. Whether they open is looked at separately,
for a key that is right and for one that is not. -/
theorem recoverPassword_reaches (hs : s.Calm)
    (hnormal : RecoveryKey.normalize recoveryKey = .ok normal)
    (hfound : s.ledger.findByEmail? email = some (owner, account)) {r : Except Failure String} :
    (recoverPassword o email recoveryKey new).Ends s r s' ↔
      (do
        let copies ← Op.require .recoveryKeyInvalid
          ((s.ledger.records.get? owner).bind FactorRecord.active?)
        let secret ← recoverSecret o copies normal
        let nextKey := RecoveryKey.generate o.draws.recoveryKey
        let hash := o.deployment.primitives.hashWord o.draws.passwordSalt new
        let key := o.deployment.kdf.derive o.deployment.primitives new
        let changed ← Database.recoverPassword owner copies.fingerprint hash
          (sealCopies o secret key nextKey)
        Op.ensure .recoveryKeyInvalid changed
        discardPending owner
        revokeOwner owner
        return RecoveryKey.format nextKey : Op String).Ends s r s' := by
  unfold recoverPassword
  rw [ends_bind_through (demand_of_ok hnormal s),
    ends_bind_through (Database.accountByEmail_calm hs email), hfound,
    ends_bind_through (require_some _ (owner, account) s)]
  exact ends_bind_through (Database.record_calm hs owner)

/-- With the right key, a copy that opens and a clock that can be counted from, a recovery has its
secret, and the window of that moment is used up in it. -/
theorem recoverSecret_right
    (hverified : RecoveryKey.verify o.deployment.primitives normal copies.fingerprint = .ok true)
    {held secret : Otp.Secret} (hopen : openCopy o copies.backup normal = .ok held) {now : Nat}
    (hnow : o.now.sinceEpoch? = some now) (hretire : held.retire now = .ok secret) (s : State) :
    (recoverSecret o copies normal).Ends s (.ok secret) s := by
  have hverdict : (ofResult (RecoveryKey.verify o.deployment.primitives normal
      copies.fingerprint)).Ends s (.ok true) s := ends_ofResult.2 ⟨hverified.symm, rfl⟩
  refine (ends_bind_through hverdict).2 ((ends_bind_through (ensure_true _ s)).2 ?_)
  rw [hopen]
  have hsecond : (currentSecond o).Ends s (.ok now) s := by
    rw [currentSecond, hnow]
    exact require_some _ now s
  refine (ends_bind_through hsecond).2 ?_
  rw [hretire]
  exact ends_pure.2 ⟨rfl, rfl⟩

variable (new) in
/-- **A recovery with the right key is done.** Nothing that the account holds can prevent it, since
what a recovery needs of it has been opened by then. -/
theorem recoverPassword_calm (hs : s.Calm)
    (hnormal : RecoveryKey.normalize recoveryKey = .ok normal)
    (hfound : s.ledger.findByEmail? email = some (owner, account))
    (hactive : (s.ledger.records.get? owner).bind FactorRecord.active? = some copies)
    (hverified : RecoveryKey.verify o.deployment.primitives normal copies.fingerprint = .ok true)
    {held secret : Otp.Secret} (hopen : openCopy o copies.backup normal = .ok held) {now : Nat}
    (hnow : o.now.sinceEpoch? = some now) (hretire : held.retire now = .ok secret) :
    ∃ l, s.ledger.recover? owner copies.fingerprint
        (o.deployment.primitives.hashWord o.draws.passwordSalt new)
        (sealCopies o secret (o.deployment.kdf.derive o.deployment.primitives new)
          (RecoveryKey.generate o.draws.recoveryKey)) = some l ∧
      (recoverPassword o email recoveryKey new).Ends s
        (.ok (RecoveryKey.format (RecoveryKey.generate o.draws.recoveryKey)))
        { s with
          ledger := l
          staging := s.staging.discard owner
          sessions := Session.revokeOwner owner s.sessions } := by
  -- The comparison before the write is with the fingerprint that was just read.
  have hfingerprint : (s.ledger.records.get? owner).any
      (·.hasFingerprint copies.fingerprint) = true := by
    obtain ⟨row, hrow, hcopies⟩ := Option.bind_eq_some_iff.1 hactive
    obtain ⟨hon, -, -, hkept, -⟩ := FactorRecord.active?_eq_some.1 hcopies
    rw [hrow, Option.any_some]
    exact FactorRecord.hasFingerprint_iff.2 ⟨hon, hkept⟩
  obtain ⟨l, hl⟩ : ∃ l, s.ledger.recover? owner copies.fingerprint
      (o.deployment.primitives.hashWord o.draws.passwordSalt new)
      (sealCopies o secret (o.deployment.kdf.derive o.deployment.primitives new)
        (RecoveryKey.generate o.draws.recoveryKey)) = some l := by
    unfold Ledger.recover?
    rw [if_pos hfingerprint]
    exact ⟨_, rfl⟩
  refine ⟨l, hl, (recoverPassword_reaches hs hnormal hfound).2 ?_⟩
  rw [hactive]
  refine (ends_bind_through (require_some _ copies s)).2 ?_
  refine (ends_bind_through (recoverSecret_right hverified hopen hnow hretire s)).2 ?_
  refine (ends_bind_through (Database.conditional_calm hs hl)).2 ?_
  refine (ends_bind_through (ensure_true _ _)).2 ?_
  refine (ends_bind_through (ends_changeStaging.2 ⟨rfl, rfl⟩)).2 ?_
  refine (ends_bind_through (ends_changeSessions.2 ⟨rfl, rfl⟩)).2 ?_
  exact ends_pure.2 ⟨rfl, rfl⟩

/-- **A recovery with a wrong key**, or for a record that is off, is refused and does nothing. The
fault is the same in all cases. -/
theorem recoverPassword_mistaken (hs : s.Calm)
    (hnormal : RecoveryKey.normalize recoveryKey = .ok normal)
    (hwrong : ∀ owner account copies, s.ledger.findByEmail? email = some (owner, account) →
      (s.ledger.records.get? owner).bind FactorRecord.active? = some copies →
      RecoveryKey.verify o.deployment.primitives normal copies.fingerprint = .ok false) :
    (recoverPassword o email recoveryKey new).Ends s (.error (.refused .recoveryKeyInvalid)) s := by
  -- Nobody has the address, or the second factor is off, or the key is wrong. The refusal is the
  -- same one.
  cases hfound : s.ledger.findByEmail? email with
  | none =>
    refine (ends_bind_through (demand_of_ok hnormal s)).2 ?_
    refine (ends_bind_through (Database.accountByEmail_calm hs email)).2 ?_
    rw [hfound]
    exact (ends_bind_stop (require_none _ s)).2 ⟨rfl, rfl⟩
  | some found =>
    obtain ⟨owner, account⟩ := found
    refine (recoverPassword_reaches hs hnormal hfound).2 ?_
    cases hactive : (s.ledger.records.get? owner).bind FactorRecord.active? with
    | none => exact (ends_bind_stop (require_none _ s)).2 ⟨rfl, rfl⟩
    | some copies =>
      refine (ends_bind_through (require_some _ copies s)).2 ?_
      have hverdict : (ofResult (RecoveryKey.verify o.deployment.primitives normal
          copies.fingerprint)).Ends s (.ok false) s :=
        ends_ofResult.2 ⟨(hwrong owner account copies hfound hactive).symm, rfl⟩
      have hrefused : (recoverSecret o copies normal).Ends s
          (.error (.refused .recoveryKeyInvalid)) s :=
        (ends_bind_through hverdict).2
          ((ends_bind_stop (ends_refuse.2 ⟨rfl, rfl⟩)).2 ⟨rfl, rfl⟩)
      exact (ends_bind_stop hrefused).2 ⟨rfl, rfl⟩

end Recovering

end Service

end SecondFactor
