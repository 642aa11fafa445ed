import SecondFactor.Proofs.Completeness
import SecondFactor.Proofs.Misreading

/-!
# What fits together

The password hash, the two copies, the fingerprint and the key of a pending secret lie in different
places, and five operations rewrite some of them. As long as requests come one at a time, each
leaves them fitting: the password that is accepted opens the main copy, the recovery key that is
accepted opens the backup copy, both hold the secret that the set-up made, and the key of a pending
secret comes from the password that is accepted.

All of this takes no more for granted than that an envelope opens under its key and that a hash is
accepted for its word. Only what the copies hold depends on more, since a call that opens a copy
seals what it reads: there the statement names the event that a copy was misread.

## The architecture

* **`Turn.Orderly`** — a turn of a run in which requests come one at a time.
* **`Wrapped`**, **`Awaiting`** — what fits, for a record that is on and for a pending secret.
* **`Coherent`** — the invariant for one account, after a history.
* **`Coherent.kept`** — the frame: what a turn does not touch stays coherent.
* **`Wrapped.opened_main`**, **`Wrapped.opened_backup`** — what a call reads in a copy that fits is
  what the enrollment holds, or else the call is the one that misreads it.
* **`coherent_validate`**, **`coherent_recoverPassword`** and so on — each call keeps the invariant
  for the account that it is about.
-/

namespace SecondFactor

open Service (Call Reply)

/-! ## §1 — the invariant -/

/-- A deployment whose primitives keep the laws, as those that run do, and whose policy can be
stored. -/
structure Deployment.Lawful (D : Deployment) : Prop where
  sealing : D.primitives.SealingLaws
  hashing : D.primitives.HashingLaws
  storable : D.policy.Storable

/-- A turn that nothing overtakes: no other set-up comes in between and no stale record is shown,
though queries may fail. The clock is within the calendar, and the identifier that a registration
takes is not in use. -/
structure Turn.Orderly (D : Deployment) (t : Turn) (s : State) : Prop where
  alone : t.mishaps.Plain
  current : t.mishaps.staleRecord = none
  clock : t.now ≤ .last
  unused : ∀ email password, t.call? D s = some (.register email password) →
    s.ledger.accounts.get? t.draws.account = none

variable (D : Deployment)

/-- The copies of a record fit the password hash and the fingerprint, and hold secrets whose cores
are such as said. -/
structure Wrapped (hash : String) (holds : Otp.Secret → Prop) (row : FactorRecord) : Prop where
  main : ∃ password copy core, D.primitives.verifyWord hash password = .ok true ∧
    row.main = some copy ∧ holds core ∧ SealedUnder D password core copy
  backup : ∃ key fingerprint copy core, RecoveryKey.normalize key = .ok key ∧
    row.fingerprint = some fingerprint ∧
    RecoveryKey.verify D.primitives key fingerprint = .ok true ∧
    row.backup = some copy ∧ holds core ∧ SealedUnder D key core copy

/-- A pending secret fits the password hash, and is the one with the given core. -/
structure Awaiting (hash : String) (core : Otp.Secret) (entry : Pending) : Prop where
  key : ∃ password, D.primitives.verifyWord hash password = .ok true ∧
    entry.passwordKey = D.kdf.derive D.primitives password
  bounded : entry.secret.Bounded
  core : entry.secret.core = core

/-- What is kept of an account fits together, and belongs to the enrollment that the history
tells. -/
structure Coherent (h : History) (owner : Uuid) : Prop where
  record : ∀ row, (h.state D).ledger.records.get? owner = some row → row.enabled = true →
    ∃ account origin, (h.state D).ledger.accounts.get? owner = some account ∧
      h.recordOrigin D owner = some origin ∧
      Wrapped D account.passwordHash (h.Preserves D owner origin) row
  pending : ∀ entry, (h.state D).staging.entries.get? owner = some entry →
    ∃ account origin, (h.state D).ledger.accounts.get? owner = some account ∧
      h.pendingOrigin D owner = some origin ∧
      Awaiting D account.passwordHash origin.secret.core entry

variable {D} {h : History} {t : Turn} {owner : Uuid} {session : Session}

/-! ## §2 — the frame

What becomes of the record and of the pending secret can be looked at apart. -/

/-- What was preserved before a turn is preserved after it. -/
theorem Wrapped.turn {hash : String} {origin : Lineage} {row : FactorRecord}
    (hw : Wrapped D hash (h.Preserves D owner origin) row) :
    Wrapped D hash ((h.turn t).Preserves D owner origin) row where
  main := by
    obtain ⟨password, copy, core, hpassword, hmain, hcore, hsealed⟩ := hw.main
    exact ⟨password, copy, core, hpassword, hmain, hcore.turn, hsealed⟩
  backup := by
    obtain ⟨key, fingerprint, copy, core, hnormal, hfingerprint, hverify, hbackup, hcore,
      hsealed⟩ := hw.backup
    exact ⟨key, fingerprint, copy, core, hnormal, hfingerprint, hverify, hbackup, hcore.turn,
      hsealed⟩

namespace Coherent

/-- A record fits as it did before, if neither it nor its account was touched, and it stays with its
enrollment. -/
theorem record_kept (hc : Coherent D h owner)
    (haccount : (t.next D (h.state D)).ledger.accounts.get? owner =
      (h.state D).ledger.accounts.get? owner)
    (hrecord : (t.next D (h.state D)).ledger.records.get? owner =
      (h.state D).ledger.records.get? owner)
    (row : FactorRecord) (hrow : ((h.turn t).state D).ledger.records.get? owner = some row)
    (henabled : row.enabled = true) :
    ∃ account origin, ((h.turn t).state D).ledger.accounts.get? owner = some account ∧
      (h.turn t).recordOrigin D owner = some origin ∧
      Wrapped D account.passwordHash ((h.turn t).Preserves D owner origin) row := by
  have hbefore : (h.state D).ledger.records.get? owner = some row := hrecord.symm.trans hrow
  obtain ⟨account, origin, hfound, horigin, hwrapped⟩ := hc.record row hbefore henabled
  have hafter : ((h.turn t).state D).enabled owner = true := State.enabled_of_row hrow henabled
  refine ⟨account, origin, haccount.trans hfound, ?_, hwrapped.turn⟩
  rw [History.recordOrigin_kept hafter (State.enabled_of_row hbefore henabled), horigin]

/-- So does a pending secret, if nothing new was set up for the account. It may have been
dropped. -/
theorem pending_kept (hc : Coherent D h owner)
    (haccount : (t.next D (h.state D)).ledger.accounts.get? owner =
      (h.state D).ledger.accounts.get? owner)
    (hpending : ∀ entry, (t.next D (h.state D)).staging.entries.get? owner = some entry →
      (h.state D).staging.entries.get? owner = some entry)
    (hset : t.setsUp D (h.state D) owner = false)
    (entry : Pending) (hentry : ((h.turn t).state D).staging.entries.get? owner = some entry) :
    ∃ account origin, ((h.turn t).state D).ledger.accounts.get? owner = some account ∧
      (h.turn t).pendingOrigin D owner = some origin ∧
      Awaiting D account.passwordHash origin.secret.core entry := by
  obtain ⟨account, origin, hfound, horigin, hawaiting⟩ := hc.pending entry (hpending entry hentry)
  refine ⟨account, origin, haccount.trans hfound, ?_, hawaiting⟩
  rw [History.pendingOrigin_kept hentry hset, horigin]

/-- **The frame.** An account that a turn does not touch stays coherent. -/
theorem kept (hc : Coherent D h owner)
    (hu : Untouched (t.facing (h.state D)) (t.next D (h.state D)) owner)
    (hset : t.setsUp D (h.state D) owner = false) : Coherent D (h.turn t) owner :=
  ⟨hc.record_kept hu.account hu.record, hc.pending_kept hu.account hu.pending hset⟩

/-- **What is refused changes nothing** that the invariant is about. With the frame this leaves the
calls that go through, for the account that they are made for. -/
theorem refused (hc : Coherent D h owner) {failure : Failure}
    (hout : t.outcome D (h.state D) = some (.error failure))
    (hu : Untouched (t.facing (h.state D)) (t.next D (h.state D)) owner) :
    Coherent D (h.turn t) owner :=
  hc.kept hu (Turn.setsUp_of_error hout)

end Coherent

/-! ## §3 — each call, for its account

Where a pending secret is dropped, only the record is left to look at. -/

/-- Where the call drops the pending secret, the invariant is only about the record. -/
theorem Coherent.of_gone
    (hrecord : ∀ row, ((h.turn t).state D).ledger.records.get? owner = some row →
      row.enabled = true →
      ∃ account origin, ((h.turn t).state D).ledger.accounts.get? owner = some account ∧
        (h.turn t).recordOrigin D owner = some origin ∧
        Wrapped D account.passwordHash ((h.turn t).Preserves D owner origin) row)
    (hgone : (t.next D (h.state D)).staging.entries.get? owner = none) :
    Coherent D (h.turn t) owner := by
  refine ⟨hrecord, fun entry hentry => ?_⟩
  have hnone : some entry = none := hentry.symm.trans hgone
  cases hnone

theorem gone_of_discard {l : Ledger} {f : Session.Registry → Session.Registry} {s s' : State}
    (hb : Becomes s l (·.discard owner) f s') (hp : s.mishaps.Plain) :
    s'.staging.entries.get? owner = none := by
  rw [hb.staging_eq hp, Staging.get?_discard, if_pos rfl]

/-- A registration takes an identifier that is not in use, so there is nothing to fit: no record,
and nothing pending. -/
theorem coherent_register (ht : t.Orderly D (h.state D)) (hc : Coherent D h t.draws.account)
    {email password : String} {q : Except Failure (Uuid × Account)}
    (hcall : t.call? D (h.state D) = some (.register email password))
    (hout : t.outcome D (h.state D) = some (q.map fun row => Reply.account row.1 row.2))
    (hends : (Service.register (t.occasion D) email password).Ends (t.facing (h.state D)) q
      (t.next D (h.state D))) : Coherent D (h.turn t) t.draws.account := by
  cases Service.register_outcome hends with
  | refused hquiet => exact hc.refused hout (.of_quiet hquiet ht.alone)
  | done _ _ _ hb =>
    -- What is there for the identifier would belong to an account.
    constructor
    · intro row hrow henabled
      have hledger : ((h.turn t).state D).ledger = _ := hb.ledger_eq
      rw [hledger] at hrow
      obtain ⟨account, _, hfound, -⟩ := hc.record row hrow henabled
      rw [ht.unused _ _ hcall] at hfound
      cases hfound
    · intro entry hentry
      have hstaging : ((h.turn t).state D).staging = _ := hb.staging_eq ht.alone
      rw [hstaging] at hentry
      obtain ⟨account, _, hfound, -⟩ := hc.pending entry hentry
      rw [ht.unused _ _ hcall] at hfound
      cases hfound

/-- A deletion takes the record with the account and drops what is pending, so that nothing is left
that some password would have to open. -/
theorem coherent_deleteAccount (ht : t.Orderly D (h.state D)) (hc : Coherent D h session.owner)
    {password : String} {q : Except Failure Unit}
    (hout : t.outcome D (h.state D) = some (q.map fun _ => .done))
    (hends : (Service.deleteAccount (t.occasion D) session password).Ends (t.facing (h.state D)) q
      (t.next D (h.state D))) : Coherent D (h.turn t) session.owner := by
  cases Service.deleteAccount_outcome hends with
  | refused hquiet => exact hc.refused hout (.of_quiet hquiet ht.alone)
  | done _ _ _ hl hb =>
    refine .of_gone ?_ (gone_of_discard hb ht.alone)
    rcases hl with rfl | rfl
    · have hledger : (t.next D (h.state D)).ledger = (h.state D).ledger := hb.ledger_eq
      exact hc.record_kept (by rw [hledger]) (by rw [hledger])
    · intro row hrow
      have hledger : ((h.turn t).state D).ledger = _ := hb.ledger_eq
      -- The record is gone with the account.
      rw [hledger, Ledger.records_remove, if_pos rfl] at hrow
      cases hrow

/-- A set-up derives the key of the new secret from the password that was just accepted. When the
activation seals with that key, a verification by the same password will open the copy. -/
theorem coherent_setup (hD : D.Lawful) (ht : t.Orderly D (h.state D))
    (hc : Coherent D h session.owner) {password : String} {q : Except Failure ImageRef}
    (hcall : t.call? D (h.state D) = some (.setup session password))
    (hout : t.outcome D (h.state D) = some (q.map .setup))
    (hends : (Service.setup (t.occasion D) session password).Ends (t.facing (h.state D)) q
      (t.next D (h.state D))) : Coherent D (h.turn t) session.owner := by
  cases Service.setup_outcome hends with
  | refused hquiet => exact hc.refused hout (.of_quiet hquiet ht.alone)
  | @done account _ new _ after _ _ haccount hpassword _ hnew _ hafter hb =>
    have hledger : (t.next D (h.state D)).ledger = (h.state D).ledger := hb.ledger_eq
    refine ⟨hc.record_kept (by rw [hledger]) (by rw [hledger]), fun entry hentry => ?_⟩
    -- The entry is the new one.
    have hstaging : (t.next D (h.state D)).staging = after := hb.staging_eq ht.alone
    have hthere : (t.next D (h.state D)).staging.entries.get? session.owner = some new := by
      rw [hstaging, Staging.get?_enter hafter, if_pos rfl]
    obtain rfl := Option.some.inj (hthere.symm.trans hentry)
    have hset : t.setsUp D (h.state D) session.owner = true := by
      unfold Turn.setsUp
      rw [hcall, hout]
      exact beq_self_eq_true _
    have hfound : (t.next D (h.state D)).ledger.accounts.get? session.owner = some account := by
      rw [hledger]
      exact haccount
    refine ⟨_, _, hfound, History.pendingOrigin_started hentry hset, ?_⟩
    rw [hnew]
    exact ⟨⟨password, hpassword, rfl⟩, hD.storable.bounded_newSecret _ _, rfl⟩

/-- What a check leaves can be stored, and has the core that it found. Only the bookkeeping is
new. -/
theorem bounded_of_checked {o : Occasion} {secret : Otp.Secret} {check : Otp.Check} {code : String}
    {seconds : Nat} (hclock : o.now ≤ .last) (hnow : o.now.sinceEpoch? = some seconds)
    (hcheck : secret.check o.deployment.primitives o.deployment.policy.maxAttempts code seconds =
      .ok check) (hbounded : secret.Bounded) :
    check.secret.Bounded ∧ check.secret.core = secret.core := by
  have hseconds : seconds < Otp.wordBound := by
    rw [Instant.seconds_of_sinceEpoch? hnow]
    exact Instant.seconds_lt hclock
  exact ⟨Otp.Secret.bounded_check hcheck hbounded hseconds, Otp.Secret.core_check hcheck⟩

/-- A pending secret fits after a check as it did before. So it may be put back, and it may be
sealed. -/
theorem Coherent.checked (ht : t.Orderly D (h.state D)) (hc : Coherent D h session.owner)
    {code : String} {entry : Pending} {check : Otp.Check}
    (hchecked : Service.PendingChecked (t.occasion D) session code (t.facing (h.state D)) entry
      check) :
    ∃ account origin, (h.state D).ledger.accounts.get? session.owner = some account ∧
      h.pendingOrigin D session.owner = some origin ∧
      Awaiting D account.passwordHash origin.secret.core { entry with secret := check.secret } := by
  obtain ⟨account, origin, hfound, horigin, hawaiting⟩ := hc.pending entry (hchecked.there ht.alone)
  obtain ⟨seconds, hnow, hcheck⟩ := hchecked.checked
  obtain ⟨hbounded, hcore⟩ := bounded_of_checked ht.clock hnow hcheck hawaiting.bounded
  exact ⟨account, origin, hfound, horigin, hawaiting.key, hbounded, hcore.trans hawaiting.core⟩

/-- An activation that fails puts back what it checked, with the same key. -/
theorem Coherent.restaged (ht : t.Orderly D (h.state D)) (hc : Coherent D h session.owner)
    {code : String} {entry : Pending} {check : Otp.Check}
    (hchecked : Service.PendingChecked (t.occasion D) session code (t.facing (h.state D)) entry
      check)
    (hb : Becomes (t.facing (h.state D)) (h.state D).ledger
      (Service.restaged (t.occasion D) session.owner entry.id check.secret) id
      (t.next D (h.state D)))
    (hset : t.setsUp D (h.state D) session.owner = false) :
    Coherent D (h.turn t) session.owner := by
  have hledger : (t.next D (h.state D)).ledger = (h.state D).ledger := hb.ledger_eq
  refine ⟨hc.record_kept (by rw [hledger]) (by rw [hledger]), fun found hfound => ?_⟩
  -- The entry that was checked is still there, and is the one that is changed.
  have hstaging : (t.next D (h.state D)).staging =
      Service.restaged (t.occasion D) session.owner entry.id check.secret (h.state D).staging :=
    hb.staging_eq ht.alone
  have hthere : (t.next D (h.state D)).staging.entries.get? session.owner =
      some { entry with secret := check.secret } := by
    rw [hstaging]
    exact Service.get?_restaged (hchecked.there ht.alone) hchecked.lasting
  obtain rfl := Option.some.inj (hthere.symm.trans hfound)
  obtain ⟨account, origin, haccount, horigin, hawaiting⟩ := hc.checked ht hchecked
  refine ⟨account, origin, ?_, ?_, hawaiting⟩
  · show (t.next D (h.state D)).ledger.accounts.get? session.owner = some account
    rw [hledger, haccount]
  · rw [History.pendingOrigin_kept hfound hset, horigin]

/-- The copies of a pending secret that is turned on fit. The main copy is sealed under the key from
the set-up, which no other password has replaced since, and the backup copy under the key that is
shown. -/
theorem Awaiting.sealed (hD : D.Lawful) {hash : String} {core : Otp.Secret} {entry : Pending}
    (ha : Awaiting D hash core entry) {holds : Otp.Secret → Prop} (hcore : holds core)
    (created updated : Instant) :
    Wrapped D hash holds (.ofCopies (Service.sealCopies (t.occasion D) entry.secret
      entry.passwordKey (RecoveryKey.generate t.draws.recoveryKey)) created updated) where
  main := by
    obtain ⟨password, hpassword, hkey⟩ := ha.key
    refine ⟨password, _, core, hpassword, rfl, hcore, entry.secret, t.draws.mainNonce, ?_,
      ha.bounded, ha.core⟩
    show entry.secret.wrap D.primitives entry.passwordKey t.draws.mainNonce = _
    rw [hkey]
  backup := by
    refine ⟨RecoveryKey.generate t.draws.recoveryKey, _, _, core, RecoveryKey.normalize_generate _,
      rfl, ?_, rfl, hcore, entry.secret, t.draws.backupNonce, rfl, ha.bounded, ha.core⟩
    exact RecoveryKey.verify_eq_ok.2 (hD.hashing.verify_hash t.draws.fingerprintSalt _)

/-- An activation seals what is pending, or leaves it pending. In the first case the two copies open
under the password and under the recovery key that it shows. -/
theorem coherent_activate (hD : D.Lawful) (ht : t.Orderly D (h.state D))
    (hc : Coherent D h session.owner) {code : String} {q : Except Failure Service.Activation}
    (hcall : t.call? D (h.state D) = some (.activate session code))
    (hout : t.outcome D (h.state D) = some (q.map .activation))
    (hends : (Service.activate (t.occasion D) session code).Ends (t.facing (h.state D)) q
      (t.next D (h.state D))) : Coherent D (h.turn t) session.owner := by
  have hset : t.setsUp D (h.state D) session.owner = false := Turn.setsUp_eq_false hcall nofun
  cases Service.activate_outcome hends with
  | refused _ hfaded => exact hc.refused hout (.of_faded hfaded ht.alone)
  | mistaken hcheck _ hb | unwritten hcheck _ hb =>
    exact hc.restaged ht ((Service.checkPending_ends hcheck).2 _ rfl).2 hb hset
  | late _ _ hquiet => exact hc.refused hout (.of_quiet hquiet ht.alone)
  | @done entry check _ l _ hcheck _ hl hb =>
    have hchecked := ((Service.checkPending_ends hcheck).2 _ rfl).2
    obtain ⟨account, origin, haccount, horigin, hawaiting⟩ := hc.checked ht hchecked
    obtain ⟨hoff, haccounts, created, hrecords⟩ := Ledger.enable?_eq hl
    have hledger : ((h.turn t).state D).ledger = l := hb.ledger_eq
    refine .of_gone (fun row hrow henabled => ?_) ?_
    · -- The record takes over the enrollment of the pending secret.
      have hon := State.enabled_of_row hrow henabled
      rw [hledger, hrecords, if_pos rfl] at hrow
      cases hrow
      refine ⟨account, origin, ?_, ?_, hawaiting.sealed hD (.inl rfl) _ _⟩
      · rw [hledger, haccounts]
        exact haccount
      · rw [History.recordOrigin_started hon hoff, horigin]
    · have hstaging : (t.next D (h.state D)).staging = _ := hb.staging_eq ht.alone
      rw [hstaging, Staging.get?_discardIf, hchecked.there ht.alone, if_pos]
      exact ⟨rfl, beq_self_eq_true entry.id⟩

/-- **What is read in a main copy that fits.** A change of the record compares with the copy that
was opened, so this is the one that the record has. -/
theorem Wrapped.opened_main (hD : D.Lawful) {account : Account} {origin : Lineage}
    {row : FactorRecord} (hw : Wrapped D account.passwordHash (h.Preserves D owner origin) row)
    (horigin : h.recordOrigin D owner = some origin)
    (haccount : (h.state D).ledger.accounts.get? owner = some account)
    (hrow : (h.state D).ledger.records.get? owner = some row) {copy : Bytes}
    (hhas : row.hasMain copy = true) {word : String} (hcall : t.OpensMain D (h.state D) owner word)
    (hword : D.primitives.verifyWord account.passwordHash word = .ok true) {found : Otp.Secret}
    (hopen : Otp.Secret.unwrap D.primitives copy (D.kdf.derive D.primitives word) = .ok found) :
    found.Bounded ∧ (h.turn t).Preserves D owner origin found.core := by
  obtain ⟨-, hcopy⟩ := FactorRecord.hasMain_iff.1 hhas
  obtain ⟨first, main, core, hfirst, hmain, hcore, hsealed⟩ := hw.main
  obtain rfl := Option.some.inj (hcopy.symm.trans hmain)
  have hhas : ((h.state D).ledger.records.get? owner).bind (·.main) = some copy := by
    rw [hrow, Option.bind_some, hcopy]
  obtain ⟨hbounded, hsame | hmisreads⟩ := hsealed.opened hD.sealing
    (fun word => D.primitives.verifyWord account.passwordHash word = .ok true) hfirst hword hopen
  · exact ⟨hbounded, hsame ▸ hcore.turn⟩
  · exact ⟨hbounded, .inr (.inr ⟨horigin, .main hcall haccount hhas hmisreads⟩)⟩

/-- **What is read in a backup copy that fits.** The recovery was shown the record that is there, so
this is its copy, and the word that was typed in is one that the fingerprint accepts. -/
theorem Wrapped.opened_backup (hD : D.Lawful) {hash : String} {origin : Lineage}
    {row : FactorRecord} (hw : Wrapped D hash (h.Preserves D owner origin) row)
    (horigin : h.recordOrigin D owner = some origin)
    (hrow : (h.state D).ledger.records.get? owner = some row) {copies : Copies}
    (hactive : row.active? = some copies) {word : String}
    (hcall : t.OpensBackup D (h.state D) owner word)
    (hword : RecoveryKey.verify D.primitives word copies.fingerprint = .ok true)
    {found : Otp.Secret} (hopen : Otp.Secret.unwrap D.primitives copies.backup
      (D.kdf.derive D.primitives word) = .ok found) :
    found.Bounded ∧ (h.turn t).Preserves D owner origin found.core := by
  obtain ⟨-, -, hcopy, hprint, -⟩ := FactorRecord.active?_eq_some.1 hactive
  obtain ⟨first, fingerprint, backup, core, -, hfingerprint, hfirst, hbackup, hcore, hsealed⟩ :=
    hw.backup
  obtain rfl := Option.some.inj (hcopy.symm.trans hbackup)
  obtain rfl := Option.some.inj (hprint.symm.trans hfingerprint)
  have hhas : ((h.state D).ledger.records.get? owner).bind (·.backup) = some copies.backup := by
    rw [hrow, Option.bind_some, hcopy]
  have hshown : ((h.state D).ledger.records.get? owner).bind (·.fingerprint) =
      some copies.fingerprint := by
    rw [hrow, Option.bind_some, hprint]
  obtain ⟨hbounded, hsame | hmisreads⟩ := hsealed.opened hD.sealing
    (fun word => RecoveryKey.verify D.primitives word copies.fingerprint = .ok true)
    hfirst hword hopen
  · exact ⟨hbounded, hsame ▸ hcore.turn⟩
  · exact ⟨hbounded, .inr (.inr ⟨horigin, .backup hcall hshown hhas hmisreads⟩)⟩

/-- A record whose main copy is sealed again fits, if the new main copy does. The backup copy and
the fingerprint are as before. -/
theorem Coherent.rewrapped (hc : Coherent D h owner) {row row' : FactorRecord} {account : Account}
    (hrow : (h.state D).ledger.records.get? owner = some row) (hon : row.enabled = true)
    (hrow' : (t.next D (h.state D)).ledger.records.get? owner = some row')
    (hon' : row'.enabled = true)
    (hbackup : row'.backup = row.backup) (hfingerprint : row'.fingerprint = row.fingerprint)
    (haccount : (t.next D (h.state D)).ledger.accounts.get? owner = some account)
    (hmain : ∀ before origin, (h.state D).ledger.accounts.get? owner = some before →
      h.recordOrigin D owner = some origin →
      Wrapped D before.passwordHash (h.Preserves D owner origin) row → ∃ password copy core,
      D.primitives.verifyWord account.passwordHash password = .ok true ∧ row'.main = some copy ∧
      (h.turn t).Preserves D owner origin core ∧ SealedUnder D password core copy)
    (found : FactorRecord) (hfound : ((h.turn t).state D).ledger.records.get? owner = some found) :
    ∃ account origin, ((h.turn t).state D).ledger.accounts.get? owner = some account ∧
      (h.turn t).recordOrigin D owner = some origin ∧
      Wrapped D account.passwordHash ((h.turn t).Preserves D owner origin) found := by
  obtain ⟨before, origin, hbefore, horigin, hwrapped⟩ := hc.record row hrow hon
  obtain rfl := Option.some.inj (hrow'.symm.trans hfound)
  refine ⟨account, origin, haccount, ?_, hmain before origin hbefore horigin hwrapped, ?_⟩
  · rw [History.recordOrigin_kept (State.enabled_of_row hfound hon')
      (State.enabled_of_row hrow hon), horigin]
  · rw [hbackup, hfingerprint]
    exact hwrapped.turn.backup

/-- A verification seals what it checked under the password that it was given. This is one that the
hash accepts, though perhaps not the one under which the copy was sealed before. -/
theorem Coherent.rechecked (hD : D.Lawful) (ht : t.Orderly D (h.state D))
    (hc : Coherent D h session.owner) {password code : String} {copies : Copies}
    (hcall : t.call? D (h.state D) = some (.validate session password code))
    {check : Otp.Check} {l : Ledger} {f : Session.Registry → Session.Registry}
    (hchecked : Service.MainChecked (t.occasion D) session password code (t.facing (h.state D))
      copies check)
    (hl : (h.state D).ledger.updateMain? session.owner copies.main
      (Service.Outcome.recheckedMain (t.occasion D) password check) t.now = some l)
    (hb : Becomes (t.facing (h.state D)) l id f (t.next D (h.state D)))
    (hset : t.setsUp D (h.state D) session.owner = false) :
    Coherent D (h.turn t) session.owner := by
  obtain ⟨account, haccount, hpassword⟩ := hchecked.account
  obtain ⟨secret, seconds, hopen, hnow, hcheck⟩ := hchecked.checked
  obtain ⟨row, hrow, hhas, haccounts, hrecords⟩ := Ledger.updateMain?_eq hl
  have hledger : (t.next D (h.state D)).ledger = l := hb.ledger_eq
  have hon : row.enabled = true := (Bool.and_eq_true_iff.1 hhas).1
  have hrow' := hrecords session.owner
  rw [if_pos rfl, ← hledger] at hrow'
  have hsame : (t.next D (h.state D)).ledger.accounts.get? session.owner =
      (h.state D).ledger.accounts.get? session.owner := by
    rw [hledger, haccounts]
  constructor
  · intro found hfound _
    refine hc.rewrapped hrow hon hrow' hon rfl rfl (hsame.trans haccount) ?_ found hfound
    -- The comparison was with the copy that was opened: what was checked is the secret of the
    -- record.
    intro before origin hbefore horigin hwrapped
    obtain rfl := Option.some.inj (haccount.symm.trans hbefore)
    obtain ⟨hbounded, hcore⟩ := hwrapped.opened_main hD horigin haccount hrow hhas
      ⟨session, rfl, .inl ⟨code, hcall⟩⟩ hpassword hopen
    obtain ⟨hbounded', hcore'⟩ := bounded_of_checked ht.clock hnow hcheck hbounded
    exact ⟨password, _, _, hpassword, rfl, hcore, check.secret, t.draws.mainNonce, rfl, hbounded',
      hcore'⟩
  · refine hc.pending_kept hsame (fun entry hentry => ?_) hset
    have hstaging : (t.next D (h.state D)).staging = (h.state D).staging := hb.staging_eq ht.alone
    rwa [hstaging] at hentry

/-- A verification is refused, or it writes the main copy, whatever the verdict on the code. -/
theorem coherent_validate (hD : D.Lawful) (ht : t.Orderly D (h.state D))
    (hc : Coherent D h session.owner) {password code : String} {q : Except Failure Session.Tokens}
    (hcall : t.call? D (h.state D) = some (.validate session password code))
    (hout : t.outcome D (h.state D) = some (q.map .tokens))
    (hends : (Service.validate (t.occasion D) session password code).Ends (t.facing (h.state D)) q
      (t.next D (h.state D))) : Coherent D (h.turn t) session.owner := by
  have hset : t.setsUp D (h.state D) session.owner = false := Turn.setsUp_eq_false hcall nofun
  cases Service.validate_outcome hends with
  | refused _ hquiet | lost _ hquiet => exact hc.refused hout (.of_quiet hquiet ht.alone)
  | mistaken hcheck _ hl hb | done hcheck _ hl hb =>
    exact hc.rechecked hD ht hcall ((Service.checkMain_ends hcheck).2 _ rfl) hl hb hset

/-- A second factor that is turned off leaves an empty record, which has nothing to fit. -/
theorem coherent_deactivate (ht : t.Orderly D (h.state D)) (hc : Coherent D h session.owner)
    {password : String} {q : Except Failure Session.Tokens}
    (hout : t.outcome D (h.state D) = some (q.map .tokens))
    (hends : (Service.deactivate (t.occasion D) session password).Ends (t.facing (h.state D)) q
      (t.next D (h.state D))) : Coherent D (h.turn t) session.owner := by
  cases Service.deactivate_outcome hends with
  | refused hquiet => exact hc.refused hout (.of_quiet hquiet ht.alone)
  | done _ _ _ _ hb =>
    refine .of_gone (fun row hrow henabled => ?_) (gone_of_discard hb ht.alone)
    have hledger : ((h.turn t).state D).ledger = _ := hb.ledger_eq
    -- What is left of the record is not on.
    rw [hledger, Ledger.records_disable, if_pos rfl] at hrow
    obtain ⟨_, -, rfl⟩ := Option.map_eq_some_iff.1 hrow
    cases henabled

theorem Turn.Orderly.shown {s : State} (ht : t.Orderly D s) (owner : Uuid) :
    (t.facing s).shown owner = s.ledger.records.get? owner := by
  rw [State.shown, show (t.facing s).mishaps.staleRecord = none from ht.current]
  rfl

/-- A change of the password writes the hash of the new one and a main copy sealed under it, or
nothing. If no copy was shown there is no record that is on. -/
theorem coherent_changePassword (hD : D.Lawful) (ht : t.Orderly D (h.state D))
    (hc : Coherent D h session.owner) {current new : String} {q : Except Failure Session.Tokens}
    (hcall : t.call? D (h.state D) = some (.changePassword session current new))
    (hout : t.outcome D (h.state D) = some (q.map .tokens))
    (hends : (Service.changePassword (t.occasion D) session current new).Ends
      (t.facing (h.state D)) q (t.next D (h.state D))) : Coherent D (h.turn t) session.owner := by
  cases Service.changePassword_outcome hends with
  | refused hquiet => exact hc.refused hout (.of_quiet hquiet ht.alone)
  | @done account main l _ haccount hpassword _ hmain hl hb =>
    have hledger : (t.next D (h.state D)).ledger = l := hb.ledger_eq
    refine .of_gone (fun found hfound hon => ?_) (gone_of_discard hb ht.alone)
    rcases main with _ | ⟨expected, main⟩
    · -- An enabled record would have been shown as active.
      have hsame := Ledger.changePassword?_none_eq hl
      have hbefore : (h.state D).ledger.records.get? session.owner = some found := by
        have hrecords : (t.next D (h.state D)).ledger.records = (h.state D).ledger.records := by
          rw [hledger, hsame]
          rfl
        rw [← hrecords]
        exact hfound
      obtain ⟨copies, hcopies⟩ := complete_state hD.hashing h session.owner found hbefore hon
      have hinactive := hmain.of_none
      rw [ht.shown, hbefore, Option.bind_some, hcopies] at hinactive
      cases hinactive
    · obtain ⟨copies, secret, -, hopen, rfl, rfl⟩ := hmain.of_some
      obtain ⟨row, hrow, hhas, haccounts, hrecords⟩ := Ledger.changePassword?_some_eq hl
      have hon' : row.enabled = true := (Bool.and_eq_true_iff.1 hhas).1
      have hrow' := hrecords session.owner
      rw [if_pos rfl, ← hledger] at hrow'
      have haccount' : (t.next D (h.state D)).ledger.accounts.get? session.owner =
          some { account with
            passwordHash := D.primitives.hashWord t.draws.passwordSalt new } := by
        rw [hledger, haccounts, Ledger.get?_setPasswordHash, if_pos rfl]
        exact congrArg _ haccount
      refine hc.rewrapped hrow hon' hrow' hon' rfl rfl haccount' ?_ found hfound
      -- The new hash and the new main copy are both for the new password.
      intro before origin hbefore horigin hwrapped
      obtain rfl := Option.some.inj (hbefore.symm.trans haccount)
      obtain ⟨hbounded, hcore⟩ := hwrapped.opened_main hD horigin hbefore hrow hhas
        ⟨session, rfl, .inr ⟨new, hcall⟩⟩ hpassword hopen
      exact ⟨new, _, _, hD.hashing.verify_hash _ _, rfl, hcore, secret, t.draws.mainNonce, rfl,
        hbounded, rfl⟩

/-- A recovery makes everything anew: both copies hold the secret from the backup copy, under the
new password and under a new key. -/
theorem coherent_recoverPassword (hD : D.Lawful) (ht : t.Orderly D (h.state D))
    (hc : Coherent D h owner) {email recoveryKey new : String} {holder : Account}
    (hby : (h.state D).ledger.findByEmail? email = some (owner, holder))
    (hcall : t.call? D (h.state D) = some (.recoverPassword email recoveryKey new))
    {q : Except Failure String} (hout : t.outcome D (h.state D) = some (q.map .recoveryKey))
    (hends : (Service.recoverPassword (t.occasion D) email recoveryKey new).Ends
      (t.facing (h.state D)) q (t.next D (h.state D))) : Coherent D (h.turn t) owner := by
  cases Service.recoverPassword_outcome hends with
  | refused hquiet => exact hc.refused hout (.of_quiet hquiet ht.alone)
  | @done normal _ _ copies secret l _ hnormal hfound hshown hsecret hl hb =>
    have hsame := hfound.symm.trans hby
    cases hsame
    have hledger : (t.next D (h.state D)).ledger = l := hb.ledger_eq
    obtain ⟨row, hrow, -, haccounts, hrecords⟩ := Ledger.recover?_eq hl
    have hrow : (h.state D).ledger.records.get? owner = some row := hrow
    -- The copies that were opened are those of the record that is there.
    rw [ht.shown, hrow, Option.bind_some] at hshown
    have hon : row.enabled = true := (FactorRecord.active?_eq_some.1 hshown).1
    obtain ⟨account, origin, haccount, horigin, hwrapped⟩ := hc.record row hrow hon
    obtain ⟨held, seconds, hopen, -, hretire⟩ := hsecret.opened
    obtain ⟨hbounded, hcore⟩ := hwrapped.opened_backup hD horigin hrow hshown
      ⟨email, recoveryKey, new, _, hcall, hfound, hnormal⟩ hsecret.verified hopen
    -- What is sealed now is as good as a pending secret under the new password.
    have hawaiting : Awaiting D (D.primitives.hashWord t.draws.passwordSalt new)
        held.core ⟨t.draws.entry, D.kdf.derive D.primitives new, secret, t.draws.image, t.now⟩ :=
      ⟨⟨new, hD.hashing.verify_hash _ _, rfl⟩, Otp.Secret.bounded_retire hretire hbounded,
        Otp.Secret.core_retire hretire⟩
    have haccount' : (t.next D (h.state D)).ledger.accounts.get? owner =
        some { account with passwordHash := D.primitives.hashWord t.draws.passwordSalt new } := by
      rw [hledger, haccounts, Ledger.get?_setPasswordHash, if_pos rfl]
      exact congrArg _ haccount
    refine .of_gone (fun found hfound' hon' => ?_) (gone_of_discard hb ht.alone)
    -- The record stays on, and so belongs to the same enrollment.
    have hkept := History.recordOrigin_kept (State.enabled_of_row hfound' hon')
      (State.enabled_of_row hrow hon)
    have hrow' : (t.next D (h.state D)).ledger.records.get? owner = some found := hfound'
    rw [hledger, hrecords, if_pos rfl] at hrow'
    cases hrow'
    have hsealed' := hawaiting.sealed (t := t) hD hcore t.now t.now
    exact ⟨_, origin, haccount', hkept.trans horigin, hsealed'.main, hsealed'.backup⟩

end SecondFactor
