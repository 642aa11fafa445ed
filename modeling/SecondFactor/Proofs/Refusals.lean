import SecondFactor.Proofs.Provenance
import SecondFactor.Proofs.Replay

/-!
# A refused call leaves the state as it was

An operation is a chain of queries and tests, any of which can refuse it. Hardly any does so after
something was written: an operation makes one change of the ledger that can fail, and after that
nothing can. What remains is told apart here: the bookkeeping of a code that was checked, which is
written back before the verdict is told, and a pending secret that a look found expired.

## The architecture

* **`Intact`** — ledger, tokens, pending secrets and images are as they were.
* **`Leaves`** — what a refused call leaves, by the call and the cause: all of it, with three
  exceptions.
* One `_refused` lemma for each operation. Most of them read the ways in which it ends; the looks at
  a pending secret are walked through once more, for what exactly is gone.
* **`refusals_leave_state`** — every call, the parts that other services use, and every conditional
  change.
-/

namespace SecondFactor

open Service (Call Reply)

/-! ## §1 — what is left -/

/-- **Everything is as it was.** -/
structure Intact (s s' : State) : Prop where
  ledger : s'.ledger = s.ledger
  sessions : s'.sessions = s.sessions
  /-- The pending secrets and their images. -/
  staging : s'.staging = s.staging

theorem Intact.refl (s : State) : Intact s s := ⟨rfl, rfl, rfl⟩

theorem Quiet.intact {s s' : State} (h : Quiet s s') (hp : s.mishaps.Plain) : Intact s s' :=
  ⟨h.ledger, h.sessions, h.staging hp⟩

/-- A pending secret that a look found expired is gone with its image; the rest is as it was. -/
structure Dropped (o : Occasion) (s : State) (owner : Uuid) (s' : State) : Prop where
  expired : ∃ entry, s.staging.entries.get? owner = some entry ∧
    Staging.isExpired? o.deployment.pendingLifetime o.now entry = some true
  ledger : s'.ledger = s.ledger
  sessions : s'.sessions = s.sessions
  staging : s'.staging = s.staging.discard owner

/-- The check of a code was written back to the pending secret; the rest is as it was. -/
structure Restaged (o : Occasion) (s : State) (owner : Uuid) (code : String) (check : Otp.Check)
    (s' : State) : Prop where
  staging : ∃ entry now, s.staging.entries.get? owner = some entry ∧
    o.now.sinceEpoch? = some now ∧
    entry.secret.check o.deployment.primitives o.deployment.policy.maxAttempts (Text.trim code)
      now = .ok check ∧
    s'.staging = { s.staging with
      entries := s.staging.entries.put owner { entry with secret := check.secret } }
  ledger : s'.ledger = s.ledger
  sessions : s'.sessions = s.sessions

/-- The check of a wrong code was written back to the main copy, which was still the one that the
secret came from; the rest is as it was. -/
structure Rechecked (o : Occasion) (s : State) (owner : Uuid) (password code : String)
    (s' : State) : Prop where
  ledger : ∃ copies secret check now,
    (s.shown owner).bind FactorRecord.active? = some copies ∧
    (s.ledger.records.get? owner).any (·.hasMain copies.main) = true ∧
    Service.openCopy o copies.main password = .ok secret ∧
    o.now.sinceEpoch? = some now ∧
    secret.check o.deployment.primitives o.deployment.policy.maxAttempts (Text.trim code) now =
      .ok check ∧ check.accepted = none ∧
    s'.ledger = { s.ledger with
      records := s.ledger.records.modify owner fun r =>
        { r with main := some (Service.Outcome.recheckedMain o password check), updated := o.now } }
  sessions : s'.sessions = s.sessions
  staging : s'.staging = s.staging

/-- The entry that is dropped at a look may have been preceded by other looks. -/
theorem Dropped.after {o : Occasion} {s t s' : State} {owner : Uuid} (h : Dropped o t owner s')
    (ht : Quiet s t) (hp : s.mishaps.Plain) : Dropped o s owner s' where
  expired := by
    rw [← ht.staging hp]
    exact h.expired
  ledger := h.ledger.trans ht.ledger
  sessions := h.sessions.trans ht.sessions
  staging := by rw [h.staging, ht.staging hp]

/-- **What a refused call leaves**, by the call and the cause. -/
inductive Leaves (o : Occasion) (s : State) : Call → Cause → State → Prop where
  | intact {call : Call} {cause : Cause} {s' : State} (h : Intact s s') : Leaves o s call cause s'
  /-- A verification by a wrong code. -/
  | rechecked {session : Session} {password code : String} {s' : State}
      (h : Rechecked o s session.owner password code s') :
      Leaves o s (.validate session password code) .codeInvalid s'
  /-- An activation by a wrong code. -/
  | mistaken {session : Session} {code : String} {check : Otp.Check} {s' : State}
      (h : Restaged o s session.owner code check s') (hno : check.accepted = none) :
      Leaves o s (.activate session code) .codeInvalid s'
  /-- An activation by an accepted code, of which the record could not be written. -/
  | unwritten {session : Session} {code : String} {check : Otp.Check} {s' : State}
      (h : Restaged o s session.owner code check s') (hyes : check.accepted.isSome = true) :
      Leaves o s (.activate session code) .database s'
  /-- An activation of a pending secret that had expired. -/
  | lapsed {session : Session} {code : String} {s' : State} (h : Dropped o s session.owner s') :
      Leaves o s (.activate session code) (.conflict .nothingPending) s'
  /-- A look at the image of a pending secret that had expired. -/
  | faded {session : Session} {name : String} {s' : State} (h : Dropped o s session.owner s') :
      Leaves o s (.image session name) .notFound s'

/-! ## §2 — looks at pending secrets -/

namespace Staging

variable {lifetime : Int} {now : Instant} {owner : Uuid} {s : Staging}

/-- A look that finds nothing found nothing there, or an entry that has expired and is dropped by
it. -/
theorem look_none (h : (s.look lifetime now owner).1 = .ok none) :
    (s.look lifetime now owner).2 = s ∨
      ∃ entry, s.entries.get? owner = some entry ∧ isExpired? lifetime now entry = some true ∧
        (s.look lifetime now owner).2 = s.discard owner := by
  unfold look at h ⊢
  cases hentry : s.entries.get? owner with
  | none => exact .inl rfl
  | some entry =>
    rw [hentry] at h
    dsimp only at h ⊢
    cases hexpired : isExpired? lifetime now entry with
    | none =>
      rw [hexpired] at h
      cases h
    | some expired =>
      rw [hexpired] at h
      cases expired with
      | true => exact .inr ⟨entry, rfl, hexpired, rfl⟩
      | false => cases h

/-- A look fails only beyond the calendar. -/
theorem look_error {failure : Failure} (h : (s.look lifetime now owner).1 = .error failure) :
    failure = .crash := by
  unfold look at h
  split at h
  · cases h
  · split at h
    · cases h
      rfl
    · cases h
    · cases h

/-- A purge is not refused; it can only break off. -/
theorem purge_error {failure : Failure} (h : (s.purge lifetime now).1 = .error failure) :
    failure = .crash := by
  unfold purge at h
  split at h
  · cases h
  · cases h
    rfl

end Staging

namespace Service

open Op

variable {o : Occasion} {s s' : State} {session : Session} {cause : Cause}

/-- **What a look at a pending secret can do**: break off, drop an entry that has expired, or
nothing. -/
theorem lookAtPending_cases {owner : Uuid} {r : Except Failure (Option Pending)}
    (h : (lookAtPending o owner).Ends s r s') :
    r = .error .crash ∨ Dropped o s owner s' ∧ r = .ok none ∨ s' = s := by
  obtain ⟨hr, rfl⟩ := ends_onStaging.1 h
  cases r with
  | error failure => exact .inl (by rw [Staging.look_error hr.symm])
  | ok found =>
    cases found with
    | none =>
      rcases Staging.look_none hr.symm with hsame | ⟨entry, hentry, hexpired, hgone⟩
      · exact .inr (.inr (by rw [hsame]))
      · exact .inr (.inl ⟨⟨⟨entry, hentry, hexpired⟩, rfl, rfl, hgone⟩, rfl⟩)
    | some entry =>
      obtain ⟨-, -, hsame⟩ := Staging.found_of_look hr.symm
      exact .inr (.inr (by rw [hsame]))

/-- A request for an image is refused after the look, or before it. Only the look may have dropped
something. -/
theorem pendingImage_refused (hp : s.mishaps.Plain) {name : String}
    (h : (pendingImage o session name).Ends s (.error (.refused cause)) s') :
    Leaves o s (.image session name) cause s' := by
  rcases ends_bind_of h ends_require with ⟨image, _, rfl, -, h1⟩ | ⟨-, rfl⟩
  rotate_left
  · exact .intact (.refl s)
  rcases ends_bind.1 h1 with ⟨found, t, hlook, h2⟩ | ⟨failure, hlook, hfail⟩
  rotate_left
  · -- A look that fails does not refuse the call.
    rcases lookAtPending_cases hlook with hcrash | ⟨-, hok⟩ | rfl
    · rw [Except.error.inj hcrash] at hfail
      cases hfail
    · cases hok
    · exact .intact (.refl s')
  rcases lookAtPending_cases hlook with hcrash | ⟨hdropped, hnone⟩ | rfl
  · cases hcrash
  · cases hnone
    -- Without an entry the image is nobody's.
    have hensure : (Op.ensure .notFound false).Ends t (.error (.refused .notFound)) t := rfl
    obtain ⟨hr, rfl⟩ := (ends_bind_stop hensure).1 h2
    cases hr
    exact .faded hdropped
  · -- What is left to do only reads.
    refine .intact ?_
    rcases ends_bind_of h2 ends_ensure with ⟨_, _, rfl, -, h3⟩ | ⟨-, rfl⟩
    rotate_left
    · exact .refl t
    have h4 := (ends_bind_through (ends_get.2 ⟨rfl, rfl⟩)).1 h3
    rcases ends_bind_of h4 ends_demand with ⟨content, _, rfl, -, h5⟩ | ⟨-, rfl⟩
    · rw [← (ends_require h5).1]
      exact .refl _
    · exact .refl _

/-- A check that is refused has dropped an entry only if it says that nothing is pending. -/
theorem checkPending_refused (hp : s.mishaps.Plain) {code : String}
    (h : (checkPending o session code).Ends s (.error (.refused cause)) s') :
    Intact s s' ∨ cause = .conflict .nothingPending ∧ Dropped o s session.owner s' := by
  rcases ends_bind_of h ends_ensure with ⟨_, _, rfl, -, h1⟩ | ⟨-, rfl⟩
  rotate_left
  · exact .inl (.refl s)
  rcases ends_bind_of h1 currentAccount_ends with ⟨account, t, ht, -, h2⟩ | ⟨-, ht⟩
  rotate_left
  · exact .inl (ht.toQuiet.intact hp)
  have hintact := ht.toQuiet.intact hp
  rcases ends_bind.1 h2 with ⟨found, u, hlook, h3⟩ | ⟨failure, hlook, hfail⟩
  rotate_left
  · rcases lookAtPending_cases hlook with hcrash | ⟨-, hok⟩ | rfl
    · rw [Except.error.inj hcrash] at hfail
      cases hfail
    · cases hok
    · exact .inl hintact
  -- Where the look dropped an entry there is none to check, and that is what the refusal says.
  -- Otherwise the entry is there, and a refused check writes nothing.
  rcases lookAtPending_cases hlook with hcrash | ⟨hdropped, hnone⟩ | rfl
  · cases hcrash
  · cases hnone
    obtain ⟨hr, rfl⟩ := (ends_bind_stop (ends_refuse.2 ⟨rfl, rfl⟩)).1 h3
    cases hr
    exact .inr ⟨rfl, hdropped.after ht.toQuiet hp⟩
  · rcases ends_bind_of h3 ends_require with ⟨entry, _, rfl, -, h4⟩ | ⟨-, rfl⟩
    rotate_left
    · exact .inl hintact
    rcases ends_bind_of h4 checkCode_ends with ⟨check, _, rfl, -, h5⟩ | ⟨-, rfl⟩
    · cases (ends_pure.1 h5).1
    · exact .inl hintact

/-! ## §3 — activations -/

/-- A check that is written back to the entry that it was made with. -/
theorem restage_of_checked {t : State} {code : String} {entry : Pending} {check : Otp.Check}
    {r : Except Failure Unit} (hp : s.mishaps.Plain) (ht : Quiet s t)
    (hchecked : PendingChecked o session code s entry check)
    (h : (restage o session.owner entry.id check.secret).Ends t r s') :
    r = .ok () ∧ Restaged o s session.owner code check s' := by
  have hthere : t.staging.entries.get? session.owner = some entry := by
    rw [ht.staging hp]
    exact hchecked.there hp
  obtain ⟨now, hnow, hcheck⟩ := hchecked.checked
  obtain ⟨hr, rfl⟩ := ends_onStaging.1 h
  -- Nothing came in between, so the second look finds the entry that the first one found.
  have hlook : t.staging.look o.deployment.pendingLifetime o.now session.owner =
      (.ok (some entry), t.staging) := by
    unfold Staging.look
    rw [hthere]
    dsimp only
    rw [hchecked.lasting]
  have hamend : t.staging.amend o.deployment.pendingLifetime o.now session.owner
      (fun pending => if pending.id = entry.id then { pending with secret := check.secret }
        else pending) =
      (.ok (), { t.staging with
        entries := t.staging.entries.put session.owner
          { entry with secret := check.secret } }) := by
    unfold Staging.amend
    rw [hlook]
    dsimp only
    rw [if_pos rfl]
  rw [hamend] at hr ⊢
  refine ⟨hr, ⟨entry, now, hchecked.there hp, hnow, hcheck, ?_⟩, ht.ledger, ht.sessions⟩
  rw [ht.staging hp]

/-- **An activation that is refused** leaves the state as it was, drops an entry that has expired,
or, if the code was wrong or the record is on by now, writes the attempt back. -/
theorem activate_refused (hp : s.mishaps.Plain) {code : String}
    (h : (activate o session code).Ends s (.error (.refused cause)) s') :
    Leaves o s (.activate session code) cause s' := by
  rcases ends_bind.1 h with ⟨⟨entry, check⟩, t, hcheck, h1⟩ | ⟨failure, hcheck, hfail⟩
  rotate_left
  · cases hfail
    rcases checkPending_refused hp hcheck with hintact | ⟨rfl, hdropped⟩
    · exact .intact hintact
    · exact .lapsed hdropped
  obtain ⟨hunread, hchecked⟩ := (checkPending_ends hcheck).2 _ rfl
  have ht := hunread.toQuiet
  dsimp only at h1 hchecked
  cases haccepted : check.accepted with
  | none =>
    rw [show (!check.verified) = true by simp [Otp.Check.verified, haccepted], if_pos rfl] at h1
    rcases ends_bind.1 h1 with ⟨_, u, hrestage, h2⟩ | ⟨failure, hrestage, -⟩
    · obtain ⟨-, hrestaged⟩ := restage_of_checked hp ht hchecked hrestage
      obtain ⟨hr, rfl⟩ := ends_refuse.1 h2
      cases hr
      exact .mistaken hrestaged haccepted
    · cases (restage_of_checked hp ht hchecked hrestage).1
  | some step =>
    have hyes : check.accepted.isSome = true := by rw [haccepted]; rfl
    rw [show (!check.verified) = false by simp [Otp.Check.verified, haccepted],
      if_neg Bool.false_ne_true] at h1
    rcases ends_bind.1 h1 with ⟨enabled, u, henable, h2⟩ | ⟨failure, henable, hfail⟩
    · rcases enable_or_restage_ends henable with ⟨l, -, hok, -⟩ | ⟨hok, hu⟩ | ⟨_, hno, -⟩
      · cases hok
        -- Once the record is on, nothing refuses the call.
        have h3 := (ends_bind_through (ends_pure.2 ⟨rfl, rfl⟩)).1 h2
        have h4 := (ends_bind_through (ends_changeStaging.2 ⟨rfl, rfl⟩)).1 h3
        rcases ends_bind.1 h4 with ⟨tokens, _, -, h5⟩ | ⟨failure, hreplace, hfail⟩
        · cases (ends_pure.1 h5).1
        · have hcrash := Session.crash_of_issue (ends_onSessions.1 hreplace).1.symm
          rw [hcrash] at hfail
          cases hfail
      · cases hok
        rcases ends_bind_of h2 ends_ensure with ⟨_, _, -, hfalse, -⟩ | ⟨-, rfl⟩
        · cases hfalse
        · exact .intact ((ht.trans hu).intact hp)
      · cases hno
    · cases hfail
      -- The record could not be written, and the check is written back.
      rcases ends_tryCatch.1 henable with ⟨_, _, hno⟩ | ⟨failure, u, hfailed, hhandler⟩
      · cases hno
      · cases Database.enable_ends hfailed with
        | failed hu =>
          rcases ends_bind.1 hhandler with ⟨_, v, hrestage, hthrow⟩ | ⟨_, hrestage, -⟩
          · obtain ⟨-, hrestaged⟩ :=
              restage_of_checked hp (ht.trans hu.toQuiet) hchecked hrestage
            obtain ⟨hr, rfl⟩ := ends_throw.1 hthrow
            cases hr
            exact .unwritten hrestaged hyes
          · cases (restage_of_checked hp (ht.trans hu.toQuiet) hchecked hrestage).1

/-! ## §4 — the other operations -/

/-- An overview is refused before it looks at what is pending. -/
theorem overview_refused (hp : s.mishaps.Plain)
    (h : (overview o session).Ends s (.error (.refused cause)) s') : Intact s s' := by
  rcases ends_bind_of h Database.record_ends with ⟨shown, t, ht, -, h1⟩ | ⟨-, ht⟩
  rotate_left
  · exact ht.intact hp
  split at h1
  · rcases ends_bind_of h1 Database.countCodes_ends with ⟨n, u, hu, -, h2⟩ | ⟨-, hu⟩
    · cases (ends_pure.1 h2).1
    · exact (ht.trans hu.toQuiet).intact hp
  · rcases ends_bind.1 h1 with ⟨found, u, -, h2⟩ | ⟨failure, hlook, hfail⟩
    · split at h2
      · cases (ends_pure.1 h2).1
      · cases (ends_pure.1 h2).1
    · rcases lookAtPending_cases hlook with hcrash | ⟨-, hok⟩ | rfl
      · rw [Except.error.inj hcrash] at hfail
        cases hfail
      · cases hok
      · exact ht.intact hp

/-- A verification that is refused has counted an attempt at most, in the main copy. -/
theorem validate_refused (hp : s.mishaps.Plain) {password code : String}
    (h : (validate o session password code).Ends s (.error (.refused cause)) s') :
    Leaves o s (.validate session password code) cause s' := by
  generalize hr : (Except.error (.refused cause) : Except Failure Session.Tokens) = r at h
  cases validate_outcome h with
  | refused _ hquiet | lost _ hquiet => exact .intact (hquiet.intact hp)
  | @mistaken copies check _ l _ hcheck hno hl hb =>
    cases hr
    obtain ⟨-, -, hshown, secret, now, hopen, hnow, hcode⟩ := (checkMain_ends hcheck).2 _ rfl
    obtain ⟨hmain, rfl⟩ := Ledger.of_updateMain? hl
    exact .rechecked ⟨⟨copies, secret, check, now, hshown, hmain, hopen, hnow, hcode, hno,
      hb.ledger_eq⟩, hb.sessions_eq, hb.staging_eq hp⟩
  | done _ _ _ _ =>
    -- A new pair that cannot be handed out breaks the call off.
    cases Session.crash_of_issue hr.symm

/-- A request for new codes is refused before they are written. -/
theorem generateBackupCodes_refused (hp : s.mishaps.Plain) {password : String}
    (h : (generateBackupCodes o session password).Ends s (.error (.refused cause)) s') :
    Intact s s' := by
  rcases ends_bind_of h ends_ensure with ⟨_, _, rfl, -, h1⟩ | ⟨-, rfl⟩
  rotate_left
  · exact .refl s
  rcases confirmed_copies h1 with ⟨account, copies, t, ht, -, -, -, h2⟩ | ⟨-, ht⟩
  rotate_left
  · exact ht.intact hp
  rcases ends_bind.1 h2 with ⟨_, u, -, h3⟩ | ⟨failure, hreplace, -⟩
  · -- Codes that cannot be shown break the call off.
    split at h3
    · cases (ends_pure.1 h3).1
    · cases (ends_throw.1 h3).1
  · rcases Database.replaceCodes_ends hreplace with ⟨_, -, hu⟩ | ⟨hok, -⟩
    · exact (ht.trans hu.toQuiet).intact hp
    · cases hok

/-- A renewal is refused if the token is worth nothing, and then no token is touched. -/
theorem refresh_refused {token : String}
    (h : (refresh o token).Ends s (.error (.refused cause)) s') : Intact s s' := by
  obtain ⟨hr, rfl⟩ := ends_onSessions.1 h
  unfold Session.refresh at hr ⊢
  split at hr
  · exact .refl s
  · cases Session.crash_of_issue hr.symm

/-- A purge has nothing to refuse. -/
theorem purge_refused : ¬ (purge o).Ends s (.error (.refused cause)) s' := by
  intro h
  rcases ends_bind.1 h with ⟨n, t, -, h1⟩ | ⟨failure, hpurge, hfail⟩
  · cases (ends_changeSessions.1 h1).1
  · rw [Staging.purge_error (ends_onStaging.1 hpurge).1.symm] at hfail
    cases hfail

/-- **What a refused call leaves.** A case for each call. Most leave the state intact; those that
look at a pending secret, or count an attempt, leave what they are said to. -/
theorem leaves_of_refused (hp : s.mishaps.Plain) {call : Call}
    (h : (perform o call).Ends s (.error (.refused cause)) s') : Leaves o s call cause s' := by
  -- What the reply is made of was refused as well.
  have hrefused {α : Type} {x : Op α} {f : α → Reply}
      (hmap : (f <$> x).Ends s (.error (.refused cause)) s') :
      x.Ends s (.error (.refused cause)) s' := by
    obtain ⟨q, hq, hfail⟩ := ends_map.1 hmap
    rwa [map_eq_error.1 hfail.symm] at hq
  cases call with
  | health => cases (ends_onStaging.1 (hrefused h)).1
  | register email password =>
    cases register_outcome (hrefused h) with
    | refused hquiet => exact .intact (hquiet.intact hp)
  | login email password =>
    generalize hr : (Except.error (.refused cause) : Except Failure _) = r at h
    obtain ⟨q, hq, rfl⟩ := ends_map.1 h
    cases login_outcome hq with
    | refused hquiet => exact .intact (hquiet.intact hp)
    | done => cases Session.crash_of_issue (map_eq_error.1 hr.symm)
  | refresh token => exact .intact (refresh_refused (hrefused h))
  | logout session => cases (ends_changeSessions.1 (hrefused h)).1
  | deleteAccount session password =>
    cases deleteAccount_outcome (hrefused h) with
    | refused hquiet => exact .intact (hquiet.intact hp)
  | overview session => exact .intact (overview_refused hp (hrefused h))
  | setup session password =>
    cases setup_outcome (hrefused h) with
    | refused hquiet => exact .intact (hquiet.intact hp)
  | image session name => exact pendingImage_refused hp (hrefused h)
  | activate session code => exact activate_refused hp (hrefused h)
  | validate session password code => exact validate_refused hp (hrefused h)
  | validateBackupCode session code =>
    generalize hr : (Except.error (.refused cause) : Except Failure _) = r at h
    obtain ⟨q, hq, rfl⟩ := ends_map.1 h
    cases validateBackupCode_outcome hq with
    | refused hquiet => exact .intact (hquiet.intact hp)
    | done => cases Session.crash_of_issue (map_eq_error.1 hr.symm)
  | generateBackupCodes session password =>
    exact .intact (generateBackupCodes_refused hp (hrefused h))
  | deactivate session password =>
    generalize hr : (Except.error (.refused cause) : Except Failure _) = r at h
    obtain ⟨q, hq, rfl⟩ := ends_map.1 h
    cases deactivate_outcome hq with
    | refused hquiet => exact .intact (hquiet.intact hp)
    | done => cases Session.crash_of_issue (map_eq_error.1 hr.symm)
  | changePassword session current new =>
    generalize hr : (Except.error (.refused cause) : Except Failure _) = r at h
    obtain ⟨q, hq, rfl⟩ := ends_map.1 h
    cases changePassword_outcome hq with
    | refused hquiet => exact .intact (hquiet.intact hp)
    | done => cases Session.crash_of_issue (map_eq_error.1 hr.symm)
  | recoverPassword email recoveryKey new =>
    cases recoverPassword_outcome (hrefused h) with
    | refused hquiet => exact .intact (hquiet.intact hp)
  | purge => exact absurd (hrefused h) purge_refused

end Service

/-! ## §5 — conditional changes -/

theorem Database.Conditional.intact {change : Ledger → Option Ledger} {s s' : State}
    (h : Conditional change s (.ok false) s') (hp : s.mishaps.Plain) : Intact s s' := by
  cases h with
  | refused hs => exact hs.toQuiet.intact hp

/-- **A refused call leaves the state as it was**, whatever fails in the database: accounts,
records, backup codes, tokens, pending secrets and images. There are three exceptions. A
verification by a wrong code has replaced the main copy of its account with the check of that code;
an activation by a wrong code, or by an accepted one of which the record could not be written, has
replaced the pending secret in the same way; and a pending secret that was found expired is gone
with its image. A conditional change that was not made has changed nothing. -/
theorem refusals_leave_state {o : Occasion} {s : State} (hp : s.mishaps.Plain) :
    (∀ call cause s', (Service.perform o call).Ends s (.error (.refused cause)) s' →
      Leaves o s call cause s') ∧
    (∀ email password cause s',
      (Service.authenticate o email password).Ends s (.error (.refused cause)) s' → Intact s s') ∧
    (∀ owner cause s', (Service.currentAccount owner).Ends s (.error (.refused cause)) s' →
      Intact s s') ∧
    (∀ owner password cause s',
      (Service.confirmPassword o owner password).Ends s (.error (.refused cause)) s' →
      Intact s s') ∧
    (∀ owner cause s', (Service.claimFor owner).Ends s (.error (.refused cause)) s' →
      Intact s s') ∧
    (∀ owner copies s', (Database.enable o.now owner copies).Ends s (.ok false) s' →
      Intact s s') ∧
    (∀ owner expected main s',
      (Database.updateMain o.now owner expected main).Ends s (.ok false) s' → Intact s s') ∧
    (∀ owner hash s', (Database.consumeCode owner hash).Ends s (.ok false) s' → Intact s s') ∧
    (∀ owner hash main s', (Database.changePassword owner hash main).Ends s (.ok false) s' →
      Intact s s') ∧
    ∀ owner expected hash copies s',
      (Database.recoverPassword owner expected hash copies).Ends s (.ok false) s' →
      Intact s s' := by
  refine ⟨fun call cause s' => Service.leaves_of_refused hp, ?_, ?_, ?_, ?_, ?_, ?_, ?_, ?_, ?_⟩
  · exact fun _ _ _ _ h => (Service.authenticate_ends h).1.toQuiet.intact hp
  · exact fun _ _ _ h => (Service.currentAccount_ends h).1.toQuiet.intact hp
  · exact fun _ _ _ _ h => (Service.confirmPassword_ends h).1.toQuiet.intact hp
  · exact fun _ _ _ h => (Service.claimFor_ends h).1.intact hp
  · exact fun _ _ _ h => (Database.enable_ends h).intact hp
  · exact fun _ _ _ _ h => (Database.updateMain_ends h).intact hp
  · exact fun _ _ _ h => (Database.consumeCode_ends h).intact hp
  · exact fun _ _ _ _ h => (Database.changePassword_ends h).intact hp
  · exact fun _ _ _ _ _ h => (Database.recoverPassword_ends h).intact hp

/-- An activation in which the database fails: the attempt is counted in the pending secret. -/
theorem refusals_leave_state_failing :
    ∃ s', (Service.perform (Turn.failing.occasion .transparent)
        (.activate ⟨.ofByte 1, .empty, .ofByte 0⟩ "000003")).Ends
          (Turn.failing.facing (History.beginning.state .transparent))
          (.error (.refused .database)) s' ∧
      (s'.staging.entries.get? (.ofByte 1)).map (·.secret.counter) = some 1 ∧
      Leaves (Turn.failing.occasion .transparent)
        (Turn.failing.facing (History.beginning.state .transparent))
        (.activate ⟨.ofByte 1, .empty, .ofByte 0⟩ "000003") .database s' := by
  have hfacts : Turn.failing.failure? .transparent (History.beginning.state .transparent) =
        some (.refused .database) ∧
      ((Turn.failing.next .transparent (History.beginning.state .transparent)).staging.entries.get?
        (.ofByte 1)).map (·.secret.counter) = some 1 := by
    decide +kernel
  obtain ⟨hfails, hcounted⟩ := hfacts
  rcases Turn.failing.next_cases .transparent (History.beginning.state .transparent) with
    ⟨hnone, -, -⟩ | ⟨call, r, hcall, hout, hends⟩
  · cases hnone
  · cases hcall
    rw [Turn.failure?, hout] at hfails
    cases r with
    | ok reply => cases hfails
    | error failure =>
      cases hfails
      exact ⟨_, hends, hcounted, (refusals_leave_state (.of_nil rfl)).1 _ _ _ hends⟩

end SecondFactor
