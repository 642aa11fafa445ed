import SecondFactor.Proofs.Acceptance

/-!
# What a turn does for an account

A turn can do seven things to the pending secret and the record of an account. For each of them it
is said what is there before and afterwards, under which keys copies were opened and sealed, and
which steps are used up. All that a statement about steps has to know of the calls is in here.

## The architecture

* **`Turn.Checks`** — a check of a code at the time of the turn.
* **`Turn.Course`** — the seven courses.
* **`course_validate`**, **`course_activate`** and so on — the courses of the calls that touch a
  secret; **`course`** goes through all calls once.
-/

namespace SecondFactor

open Service (Call Reply)

variable {D : Deployment} {h : History} {t : Turn} {j : Lineage} {n : Nat} {owner : Uuid}

/-! ## §1 — what a turn does for an account

What follows is all that a statement about steps has to know of the calls. -/

/-- A check of some code at the time of the turn. Which code it was does not matter to what is used
up. -/
def Turn.Checks (D : Deployment) (t : Turn) (secret : Otp.Secret) (check : Otp.Check) : Prop :=
  ∃ code, secret.check D.primitives D.policy.maxAttempts code t.seconds = .ok check

/-- What a turn does to the pending secret and the record of an account, and what it uses up. -/
inductive Turn.Course (D : Deployment) (h : History) (t : Turn) (owner : Uuid) : Prop where
  /-- Something may be dropped, and nothing is used up. -/
  | kept
      (hidle : ∀ j n, j.owner = owner → ¬ t.Uses D h j n)
      (hrecord : ∀ row, (t.next D (h.state D)).ledger.records.get? owner = some row →
        row.enabled = true → (h.state D).ledger.records.get? owner = some row)
      (hpending : ∀ entry, (t.next D (h.state D)).staging.entries.get? owner = some entry →
        (h.state D).staging.entries.get? owner = some entry)
      (hset : t.setsUp D (h.state D) owner = false)
  /-- A new secret is pending. -/
  | setUp {entry : Pending} {address : String} {entropy : Vector UInt8 20}
      (hidle : ∀ j n, j.owner = owner → ¬ t.Uses D h j n)
      (hrecord : (t.next D (h.state D)).ledger.records.get? owner =
        (h.state D).ledger.records.get? owner)
      (hentry : (t.next D (h.state D)).staging.entries.get? owner = some entry)
      (hset : t.setsUp D (h.state D) owner = true)
      (hsecret : entry.secret = D.policy.newSecret address entropy)
  /-- The pending secret is checked and written back. -/
  | restaged {entry : Pending} {check : Otp.Check}
      (hthere : (h.state D).staging.entries.get? owner = some entry)
      (hcheck : t.Checks D entry.secret check)
      (huses : ∀ j n, j.owner = owner → t.Uses D h j n →
        check.accepted = some n ∧ h.pendingOrigin D owner = some j)
      (hrecord : (t.next D (h.state D)).ledger.records.get? owner =
        (h.state D).ledger.records.get? owner)
      (hentry : (t.next D (h.state D)).staging.entries.get? owner =
        some { entry with secret := check.secret })
      (hset : t.setsUp D (h.state D) owner = false)
  /-- The pending secret is checked and turned on. -/
  | enabled {entry : Pending} {check : Otp.Check} {row : FactorRecord} {key : Key}
      (hthere : (h.state D).staging.entries.get? owner = some entry)
      (hcheck : t.Checks D entry.secret check)
      (huses : ∀ j n, j.owner = owner → t.Uses D h j n →
        check.accepted = some n ∧ h.pendingOrigin D owner = some j)
      (hoff : (h.state D).enabled owner = false)
      (hrecord : (t.next D (h.state D)).ledger.records.get? owner = some row)
      (hon : row.enabled = true)
      (hmain : row.main = some (check.secret.wrap D.primitives entry.passwordKey t.draws.mainNonce))
      (hbackup : row.backup = some (check.secret.wrap D.primitives key t.draws.backupNonce))
      (hgone : (t.next D (h.state D)).staging.entries.get? owner = none)
  /-- The secret in the main copy is checked and written back. -/
  | rechecked {before after : FactorRecord} {copy : Bytes} {held : Otp.Secret} {check : Otp.Check}
      {key : Key}
      (hthere : (h.state D).ledger.records.get? owner = some before)
      (hon : before.enabled = true)
      (hcopy : before.main = some copy)
      (hopen : Otp.Secret.unwrap D.primitives copy key = .ok held)
      (hcheck : t.Checks D held check)
      (huses : ∀ j n, j.owner = owner → t.Uses D h j n → check.accepted = some n ∧
        ∃ row, row.main = some copy ∧ h.HadFor D owner row j)
      (hrecord : (t.next D (h.state D)).ledger.records.get? owner = some after)
      (hafter : after = { before with
        main := some (check.secret.wrap D.primitives key t.draws.mainNonce), updated := t.now })
      (hpending : ∀ entry, (t.next D (h.state D)).staging.entries.get? owner = some entry →
        (h.state D).staging.entries.get? owner = some entry)
      (hset : t.setsUp D (h.state D) owner = false)
  /-- The secret in the main copy is sealed again. -/
  | resealed {before after : FactorRecord} {copy : Bytes} {held : Otp.Secret} {old new : Key}
      (hidle : ∀ j n, j.owner = owner → ¬ t.Uses D h j n)
      (hthere : (h.state D).ledger.records.get? owner = some before)
      (hon : before.enabled = true)
      (hcopy : before.main = some copy)
      (hopen : Otp.Secret.unwrap D.primitives copy old = .ok held)
      (hrecord : (t.next D (h.state D)).ledger.records.get? owner = some after)
      (hafter : after = { before with
        main := some (held.wrap D.primitives new t.draws.mainNonce) })
      (hpending : ∀ entry, (t.next D (h.state D)).staging.entries.get? owner = some entry →
        (h.state D).staging.entries.get? owner = some entry)
      (hset : t.setsUp D (h.state D) owner = false)
  /-- The secret in the backup copy of a record that is shown has its window retired and takes the
  place of both copies. -/
  | recovered {before after shown : FactorRecord} {copy : Bytes} {held secret : Otp.Secret}
      {old main backup : Key} {call : Call}
      (hcall : t.call? D (h.state D) = some call)
      (hsubject : call.subject? (t.occasion D) (h.state D).ledger = some owner)
      (hidle : ∀ j n, j.owner = owner → ¬ t.Uses D h j n)
      (hthere : (h.state D).ledger.records.get? owner = some before)
      (hon : before.enabled = true)
      (hshown : (t.facing (h.state D)).shown owner = some shown)
      (hactive : shown.enabled = true)
      (hcopy : shown.backup = some copy)
      (hopen : Otp.Secret.unwrap D.primitives copy old = .ok held)
      (hretire : held.retire t.seconds = .ok secret)
      (hrecord : (t.next D (h.state D)).ledger.records.get? owner = some after)
      (hon' : after.enabled = true)
      (hmain : after.main = some (secret.wrap D.primitives main t.draws.mainNonce))
      (hbackup : after.backup = some (secret.wrap D.primitives backup t.draws.backupNonce))
      (hpending : ∀ entry, (t.next D (h.state D)).staging.entries.get? owner = some entry →
        (h.state D).staging.entries.get? owner = some entry)
      (hset : t.setsUp D (h.state D) owner = false)

namespace Turn.Course

theorem of_untouched (hu : Untouched (t.facing (h.state D)) (t.next D (h.state D)) owner)
    (hidle : ∀ j n, j.owner = owner → ¬ t.Uses D h j n)
    (hset : t.setsUp D (h.state D) owner = false) : Course D h t owner :=
  .kept hidle (fun _ hrow _ => hu.record.symm.trans hrow) hu.pending hset

/-- A call that neither checks a code nor sets anything up for the account, and leaves it
untouched. -/
theorem of_other {call : Call} (hcall : t.call? D (h.state D) = some call)
    (hactivate : ∀ session code, call ≠ .activate session code)
    (hvalidate : ∀ session password code, call ≠ .validate session password code)
    (hsetup : ∀ session password, call = .setup session password → session.owner ≠ owner)
    (hu : Untouched (t.facing (h.state D)) (t.next D (h.state D)) owner) : Course D h t owner :=
  of_untouched hu
    (fun _ _ _ huses => not_accepts_of_call hcall hactivate hvalidate huses.accepts)
    (Turn.setsUp_eq_false hcall hsetup)

/-- A call that checks no code and sets nothing up, but may drop the record or the pending secret of
the account. -/
theorem of_becomes {call : Call} (hcall : t.call? D (h.state D) = some call) (hp : t.mishaps.Plain)
    (hactivate : ∀ session code, call ≠ .activate session code)
    (hvalidate : ∀ session password code, call ≠ .validate session password code)
    (hsetup : ∀ session password, call = .setup session password → session.owner ≠ owner)
    {l : Ledger} {g : Staging → Staging} {f : Session.Registry → Session.Registry}
    (hb : Becomes (t.facing (h.state D)) l g f (t.next D (h.state D)))
    (hrecord : ∀ row, l.records.get? owner = some row → row.enabled = true →
      (h.state D).ledger.records.get? owner = some row)
    (hpending : ∀ entry, (g (h.state D).staging).entries.get? owner = some entry →
      (h.state D).staging.entries.get? owner = some entry) : Course D h t owner := by
  have hledger : (t.next D (h.state D)).ledger = l := hb.ledger_eq
  have hstaging : (t.next D (h.state D)).staging = g (h.state D).staging := hb.staging_eq hp
  refine .kept (fun _ _ _ hu => not_accepts_of_call hcall hactivate hvalidate hu.accepts)
    (fun row hrow => ?_) (fun entry hentry => ?_) (Turn.setsUp_eq_false hcall hsetup)
  · rw [hledger] at hrow
    exact hrecord row hrow
  · rw [hstaging] at hentry
    exact hpending entry hentry

end Turn.Course

/-- The courses of an activation. A code that is not accepted is counted in the pending secret; one
that is accepted turns the record on, or is burnt. -/
theorem course_activate (hp : t.mishaps.Plain) {session : Session} {code : String}
    (hcall : t.call? D (h.state D) = some (.activate session code))
    {q : Except Failure Service.Activation}
    (hout : t.outcome D (h.state D) = some (q.map .activation))
    (hends : (Service.activate (t.occasion D) session code).Ends (t.facing (h.state D)) q
      (t.next D (h.state D))) : t.Course D h session.owner := by
  have hset : t.setsUp D (h.state D) session.owner = false := Turn.setsUp_eq_false hcall nofun
  -- What is used up, where a code was checked.
  have huses : ∀ {entry check s}, (Service.checkPending (t.occasion D) session code).Ends
      (t.facing (h.state D)) (.ok (entry, check)) s → ∀ j n, j.owner = session.owner →
      t.Uses D h j n → check.accepted = some n ∧ h.pendingOrigin D session.owner = some j := by
    intro entry check s hcheck j n _ hu
    obtain ⟨_, _, hr, haccepted, horigin⟩ := accepts_of_checkPending hcall hcheck hu.accepts
    cases hr
    exact ⟨haccepted, horigin⟩
  have hrestaged : ∀ {entry check s}, (Service.checkPending (t.occasion D) session code).Ends
      (t.facing (h.state D)) (.ok (entry, check)) s →
      Becomes (t.facing (h.state D)) (h.state D).ledger
        (Service.restaged (t.occasion D) session.owner entry.id check.secret) id
        (t.next D (h.state D)) → t.Course D h session.owner := by
    intro entry check s hcheck hb
    have hchecked := ((Service.checkPending_ends hcheck).2 _ rfl).2
    obtain ⟨seconds, hnow, hcode⟩ := hchecked.checked
    obtain rfl := Instant.seconds_of_sinceEpoch? hnow
    have hledger : (t.next D (h.state D)).ledger = (h.state D).ledger := hb.ledger_eq
    have hstaging : (t.next D (h.state D)).staging = Service.restaged (t.occasion D) session.owner
        entry.id check.secret (h.state D).staging := hb.staging_eq hp
    refine .restaged (hchecked.there hp) ⟨_, hcode⟩ (huses hcheck) (by rw [hledger]) ?_ hset
    rw [hstaging]
    exact Service.get?_restaged (hchecked.there hp) hchecked.lasting
  cases Service.activate_outcome hends with
  | refused hcheck hfaded =>
    -- No check came to an end.
    refine .of_untouched (.of_faded hfaded hp) (fun j n _ hu => ?_) hset
    obtain ⟨_, _, hr, -, -⟩ := accepts_of_checkPending hcall hcheck hu.accepts
    cases hr
  | mistaken hcheck _ hb | unwritten hcheck _ hb => exact hrestaged hcheck hb
  | late _ _ hquiet =>
    -- An activation that comes too late does not count as a use of the step.
    exact .of_untouched (.of_quiet hquiet hp) (fun _ _ _ => not_uses_of_error hout fun _ _ _ => rfl)
      hset
  | @done entry check _ l _ hcheck _ hl hb =>
    have hchecked := ((Service.checkPending_ends hcheck).2 _ rfl).2
    obtain ⟨seconds, hnow, hcode⟩ := hchecked.checked
    obtain rfl := Instant.seconds_of_sinceEpoch? hnow
    obtain ⟨hoff, -, created, hrecords⟩ := Ledger.enable?_eq hl
    have hledger : (t.next D (h.state D)).ledger = l := hb.ledger_eq
    have hstaging : (t.next D (h.state D)).staging = _ := hb.staging_eq hp
    have hrecord := hrecords session.owner
    rw [if_pos rfl, ← hledger] at hrecord
    refine .enabled (hchecked.there hp) ⟨_, hcode⟩ (huses hcheck) hoff hrecord rfl rfl rfl ?_
    rw [hstaging, Staging.get?_discardIf, hchecked.there hp, if_pos]
    exact ⟨rfl, beq_self_eq_true entry.id⟩

/-- The courses of a verification. It writes the main copy or is refused. The record that it was
shown need not be the one that is there, but their main copies are the same if it writes. -/
theorem course_validate (hp : t.mishaps.Plain) {session : Session} {password code : String}
    (hcall : t.call? D (h.state D) = some (.validate session password code))
    {q : Except Failure Session.Tokens}
    (hout : t.outcome D (h.state D) = some (q.map .tokens))
    (hends : (Service.validate (t.occasion D) session password code).Ends (t.facing (h.state D)) q
      (t.next D (h.state D))) : t.Course D h session.owner := by
  have hset : t.setsUp D (h.state D) session.owner = false := Turn.setsUp_eq_false hcall nofun
  cases Service.validate_outcome hends with
  | refused hcheck hquiet =>
    refine .of_untouched (.of_quiet hquiet hp) (fun j n _ hu => ?_) hset
    obtain ⟨_, _, _, hr, -⟩ := accepts_of_checkMain hcall hcheck hu.accepts
    cases hr
  | lost _ hquiet =>
    refine .of_untouched (.of_quiet hquiet hp) (fun j n _ => ?_) hset
    -- The step is accepted but not remembered, and the call not answered.
    refine not_uses_of_error hout fun session' code' hother => ?_
    cases hcall.symm.trans hother
  | @mistaken copies check _ l _ hcheck _ hl hb | @done copies check _ l _ hcheck _ hl hb =>
    have hchecked := (Service.checkMain_ends hcheck).2 _ rfl
    obtain ⟨held, seconds, hopen, hnow, hcode⟩ := hchecked.checked
    obtain rfl := Instant.seconds_of_sinceEpoch? hnow
    obtain ⟨row, hrow, hhas, -, hrecords⟩ := Ledger.updateMain?_eq hl
    have hledger : (t.next D (h.state D)).ledger = l := hb.ledger_eq
    have hstaging : (t.next D (h.state D)).staging = (h.state D).staging := hb.staging_eq hp
    rw [FactorRecord.hasMain, Bool.and_eq_true, beq_iff_eq] at hhas
    have hrecord := hrecords session.owner
    rw [if_pos rfl, ← hledger] at hrecord
    refine .rechecked hrow hhas.1 hhas.2 hopen ⟨_, hcode⟩ (fun j n _ hu => ?_) hrecord rfl ?_ hset
    · -- The record that was shown has the main copy that was opened.
      obtain ⟨_, _, shown, hr, haccepted, hshown, hhad⟩ :=
        accepts_of_checkMain hcall hcheck hu.accepts
      cases hr
      have hactive := hchecked.shown
      rw [hshown, Option.bind_some] at hactive
      exact ⟨haccepted, shown, (FactorRecord.active?_eq_some.1 hactive).2.1, hhad⟩
    · rw [hstaging]
      exact fun _ => id

/-- A change of the password seals the main copy again, if there is one, and drops what is
pending. -/
theorem course_changePassword (hp : t.mishaps.Plain) {session : Session} {current new : String}
    (hcall : t.call? D (h.state D) = some (.changePassword session current new))
    {q : Except Failure Session.Tokens}
    (hends : (Service.changePassword (t.occasion D) session current new).Ends
      (t.facing (h.state D)) q (t.next D (h.state D))) : t.Course D h session.owner := by
  have hset : t.setsUp D (h.state D) session.owner = false := Turn.setsUp_eq_false hcall nofun
  have hidle : ∀ j n, j.owner = session.owner → ¬ t.Uses D h j n :=
    fun _ _ _ hu => not_accepts_of_call hcall nofun nofun hu.accepts
  cases Service.changePassword_outcome hends with
  | refused hquiet => exact .of_untouched (.of_quiet hquiet hp) hidle hset
  | @done account main l _ _ _ _ hmain hl hb =>
    have hledger : (t.next D (h.state D)).ledger = l := hb.ledger_eq
    have hpending : ∀ entry,
        (t.next D (h.state D)).staging.entries.get? session.owner = some entry →
        (h.state D).staging.entries.get? session.owner = some entry := by
      have hstaging : (t.next D (h.state D)).staging = _ := hb.staging_eq hp
      rw [hstaging]
      exact fun _ => Staging.kept_of_discard
    -- The main copy is sealed again only where an active record was shown.
    rcases main with _ | ⟨expected, main⟩
    · obtain rfl := Ledger.changePassword?_none_eq hl
      exact .of_becomes hcall hp nofun nofun nofun hb (fun _ hrow _ => hrow)
        fun _ => Staging.kept_of_discard
    · obtain ⟨copies, held, -, hopen, rfl, rfl⟩ := hmain.of_some
      obtain ⟨row, hrow, hhas, -, hrecords⟩ := Ledger.changePassword?_some_eq hl
      rw [FactorRecord.hasMain, Bool.and_eq_true, beq_iff_eq] at hhas
      have hrecord := hrecords session.owner
      rw [if_pos rfl, ← hledger] at hrecord
      exact .resealed hidle hrow hhas.1 hhas.2 hopen hrecord rfl hpending hset

/-- A recovery opens the backup copy that it was shown, retires the window, and makes all copies
anew. -/
theorem course_recoverPassword (hp : t.mishaps.Plain) {email recoveryKey new : String}
    {holder : Account}
    (hby : (h.state D).ledger.findByEmail? email = some (owner, holder))
    (hcall : t.call? D (h.state D) = some (.recoverPassword email recoveryKey new))
    {q : Except Failure String}
    (hends : (Service.recoverPassword (t.occasion D) email recoveryKey new).Ends
      (t.facing (h.state D)) q (t.next D (h.state D))) : t.Course D h owner := by
  have hset : t.setsUp D (h.state D) owner = false := Turn.setsUp_eq_false hcall nofun
  have hidle : ∀ j n, j.owner = owner → ¬ t.Uses D h j n :=
    fun _ _ _ hu => not_accepts_of_call hcall nofun nofun hu.accepts
  cases Service.recoverPassword_outcome hends with
  | refused hquiet => exact .of_untouched (.of_quiet hquiet hp) hidle hset
  | @done _ _ _ copies secret l _ _ hfound hshown hsecret hl hb =>
    -- An address is that of one account.
    have hsame := hfound.symm.trans hby
    cases hsame
    have hledger : (t.next D (h.state D)).ledger = l := hb.ledger_eq
    have hstaging : (t.next D (h.state D)).staging = _ := hb.staging_eq hp
    obtain ⟨shown, hshown, hactive⟩ := Option.bind_eq_some_iff.1 hshown
    obtain ⟨hon, -, hbackup, -⟩ := FactorRecord.active?_eq_some.1 hactive
    obtain ⟨held, seconds, hopen, hnow, hretire⟩ := hsecret.opened
    obtain rfl := Instant.seconds_of_sinceEpoch? hnow
    obtain ⟨row, hrow, hhas, -, hrecords⟩ := Ledger.recover?_eq hl
    rw [FactorRecord.hasFingerprint, Bool.and_eq_true] at hhas
    have hrecord := hrecords owner
    rw [if_pos rfl, ← hledger] at hrecord
    refine .recovered hcall (congrArg (Option.map Prod.fst) hby) hidle hrow hhas.1 hshown hon
      hbackup hopen hretire hrecord hhas.1 rfl rfl ?_ hset
    rw [hstaging]
    exact fun _ => Staging.kept_of_discard

/-- A set-up puts a new secret in the place of what was pending. It uses nothing up, and the steps
that were burnt before belong to the enrollment that it replaces. -/
theorem course_setup (hp : t.mishaps.Plain) {session : Session} {password : String}
    (hcall : t.call? D (h.state D) = some (.setup session password))
    {q : Except Failure ImageRef} (hout : t.outcome D (h.state D) = some (q.map .setup))
    (hends : (Service.setup (t.occasion D) session password).Ends (t.facing (h.state D)) q
      (t.next D (h.state D))) : t.Course D h session.owner := by
  have hidle : ∀ j n, j.owner = session.owner → ¬ t.Uses D h j n :=
    fun _ _ _ hu => not_accepts_of_call hcall nofun nofun hu.accepts
  cases Service.setup_outcome hends with
  | refused hquiet => exact .of_untouched (.of_quiet hquiet hp) hidle (Turn.setsUp_of_error hout)
  | done _ _ _ _ hnew _ hafter hb =>
    have hledger : (t.next D (h.state D)).ledger = (h.state D).ledger := hb.ledger_eq
    have hstaging : (t.next D (h.state D)).staging = _ := hb.staging_eq hp
    have hset : t.setsUp D (h.state D) session.owner = true := by
      unfold Turn.setsUp
      rw [hcall, hout]
      exact beq_self_eq_true _
    refine .setUp hidle (by rw [hledger]) ?_ hset (congrArg Pending.secret hnew)
    rw [hstaging, Staging.get?_enter hafter, if_pos rfl]

/-- **Every turn takes one of the courses**, for every account. The walk through the calls is made
here, once and for all; every invariant of an enrollment goes through the seven courses instead. -/
theorem course (hp : t.mishaps.Plain) (owner : Uuid) : t.Course D h owner := by
  rcases t.next_cases D (h.state D) with ⟨hnone, -, hnext⟩ | ⟨call, r, hcall, hout, hends⟩
  · refine .of_untouched ?_ (fun j n _ hu => ?_) (Turn.setsUp_of_none hnone)
    · rw [hnext]
      exact .of_quiet (.refl _) hp
    · obtain ⟨⟨call, hcall, -⟩, -⟩ := hu.accepts.subject
      cases hnone.symm.trans hcall
  by_cases hsubject : call.subject? (t.occasion D) (h.state D).ledger = some owner
  rotate_left
  · -- Another account, or none.
    refine .of_untouched (untouched hends hp hsubject) (fun j n hj hu => ?_)
      (Turn.setsUp_eq_false hcall ?_)
    · obtain ⟨⟨call', hcall', hsubject'⟩, -⟩ := hu.accepts.subject
      obtain rfl := Option.some.inj (hcall.symm.trans hcall')
      exact hsubject (hsubject'.trans (congrArg some hj))
    · rintro session password rfl howner
      exact hsubject (congrArg some howner)
  cases call with
  | activate session code =>
    obtain ⟨q, hq, rfl⟩ := Op.ends_map.1 hends
    cases hsubject
    exact course_activate hp hcall hout hq
  | validate session password code =>
    obtain ⟨q, hq, rfl⟩ := Op.ends_map.1 hends
    cases hsubject
    exact course_validate hp hcall hout hq
  | changePassword session current new =>
    obtain ⟨q, hq, rfl⟩ := Op.ends_map.1 hends
    cases hsubject
    exact course_changePassword hp hcall hq
  | recoverPassword email recoveryKey new =>
    obtain ⟨q, hq, rfl⟩ := Op.ends_map.1 hends
    obtain ⟨⟨_, holder⟩, hby, rfl⟩ := Option.map_eq_some_iff.1 hsubject
    exact course_recoverPassword hp hby hcall hq
  | setup session password =>
    obtain ⟨q, hq, rfl⟩ := Op.ends_map.1 hends
    cases hsubject
    exact course_setup hp hcall hout hq
  | deactivate session password =>
    obtain ⟨q, hq, rfl⟩ := Op.ends_map.1 hends
    cases hsubject
    cases Service.deactivate_outcome hq with
    | refused hquiet => exact .of_other hcall nofun nofun nofun (.of_quiet hquiet hp)
    | done _ _ _ _ hb =>
      refine .of_becomes hcall hp nofun nofun nofun hb (fun row hrow hon => ?_)
        fun _ => Staging.kept_of_discard
      -- What is left of the record is not on.
      rw [Ledger.records_disable, if_pos rfl] at hrow
      obtain ⟨_, -, rfl⟩ := Option.map_eq_some_iff.1 hrow
      cases hon
  | deleteAccount session password =>
    obtain ⟨q, hq, rfl⟩ := Op.ends_map.1 hends
    cases hsubject
    cases Service.deleteAccount_outcome hq with
    | refused hquiet => exact .of_other hcall nofun nofun nofun (.of_quiet hquiet hp)
    | done _ _ _ hl hb =>
      refine .of_becomes hcall hp nofun nofun nofun hb (fun row hrow _ => ?_)
        fun _ => Staging.kept_of_discard
      rcases hl with rfl | rfl
      · exact hrow
      · rw [Ledger.records_remove, if_pos rfl] at hrow
        cases hrow
  | register email password =>
    obtain ⟨q, hq, rfl⟩ := Op.ends_map.1 hends
    cases Service.register_outcome hq with
    | refused hquiet => exact .of_other hcall nofun nofun nofun (.of_quiet hquiet hp)
    | done _ _ _ hb =>
      exact .of_becomes hcall hp nofun nofun nofun hb (fun _ hrow _ => hrow) fun _ => id
  | logout session =>
    obtain ⟨q, hq, rfl⟩ := Op.ends_map.1 hends
    obtain ⟨-, hnext⟩ := Op.ends_changeSessions.1 hq
    refine .of_other hcall nofun nofun nofun ?_
    rw [hnext]
    exact ⟨rfl, rfl, fun _ => id⟩
  | overview session =>
    obtain ⟨q, hq, rfl⟩ := Op.ends_map.1 hends
    exact .of_other hcall nofun nofun nofun (.of_faded (Service.overview_ends hq) hp)
  | image session name =>
    obtain ⟨q, hq, rfl⟩ := Op.ends_map.1 hends
    exact .of_other hcall nofun nofun nofun (.of_faded (Service.pendingImage_ends hq) hp)
  | validateBackupCode session code =>
    obtain ⟨q, hq, rfl⟩ := Op.ends_map.1 hends
    refine .of_other hcall nofun nofun nofun ?_
    cases Service.validateBackupCode_outcome hq with
    | refused hquiet => exact .of_quiet hquiet hp
    | done _ _ _ hl hb =>
      obtain ⟨haccounts, hrecords⟩ := Ledger.consumeCode?_eq hl
      exact .of_becomes hb hp (by rw [haccounts]) (by rw [hrecords]) fun _ => id
  | generateBackupCodes session password =>
    obtain ⟨q, hq, rfl⟩ := Op.ends_map.1 hends
    refine .of_other hcall nofun nofun nofun ?_
    cases Service.generateBackupCodes_outcome hq with
    | refused hquiet => exact .of_quiet hquiet hp
    | done _ _ _ _ hb => exact .of_becomes hb hp rfl rfl fun _ => id
  | health | login _ _ | refresh _ | purge => cases hsubject

end SecondFactor
