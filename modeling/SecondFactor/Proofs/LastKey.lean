import SecondFactor.Proofs.CopiesOpen
import SecondFactor.Proofs.Marks

/-!
# The recovery key that was shown last

A recovery key is shown once, by the call that turns the second factor on or by a recovery, and what
the service keeps of it are a fingerprint and the backup copy. The history tells which key was shown
last. As long as the record is on, every turn leaves both as they were, or puts those of another key
in their place and shows that one.

## The architecture

* **`Turn.returnsKey?`**, **`History.lastKey`** — the key that a turn shows, and the last one shown.
* **`Unlocks`** — the record of an account takes a key, and its backup copy opens under it.
* **`unlocks_of_enabled`**, **`unlocks_of_recovered`** — the two calls that put a key in place.
* **`Turn.KeyCourse`** and **`keyCourse`** — the step, through all calls once.
* **`unlocked`** — the run: the record takes the key that was shown last.
-/

namespace SecondFactor

open Service (Call Reply)

/-! ## §1 — keys that are shown -/

namespace Turn

/-- The recovery key that is drawn in the turn. -/
def recoveryKey (t : Turn) : String := RecoveryKey.generate t.draws.recoveryKey

variable (D : Deployment) (t : Turn) (s : State) (owner : Uuid)

/-- The recovery key that the turn shows for an account. -/
def returnsKey? : Option String :=
  match t.call? D s, t.outcome D s with
  | some (.activate session _), some (.ok (.activation activation)) =>
    if session.owner = owner then some activation.recoveryKey else none
  | some (.recoverPassword email _ _), some (.ok (.recoveryKey shown)) =>
    if (s.ledger.findByEmail? email).map Prod.fst = some owner then some shown else none
  | _, _ => none

/-- An activation for an account broke off. -/
def BreaksOff : Prop := (∃ session code, t.call? D s = some (.activate session code) ∧
  session.owner = owner) ∧ t.outcome D s = some (.error .crash)

variable {D t s owner} {call : Call}

theorem returnsKey?_of_none (hcall : t.call? D s = none) : t.returnsKey? D s owner = none := by
  unfold returnsKey?
  rw [hcall]

/-- Only an activation and a recovery show a key. -/
theorem returnsKey?_of_other (hcall : t.call? D s = some call)
    (hactivate : ∀ session code, call ≠ .activate session code)
    (hrecover : ∀ email key new, call ≠ .recoverPassword email key new) :
    t.returnsKey? D s owner = none := by
  unfold returnsKey?
  rw [hcall]
  split
  · rename_i heq _
    exact absurd (Option.some.inj heq) (hactivate _ _)
  · rename_i heq _
    exact absurd (Option.some.inj heq) (hrecover _ _ _)
  · rfl

/-- A call that fails shows none, even if it drew one. -/
theorem returnsKey?_of_error {failure : Failure} (hout : t.outcome D s = some (.error failure)) :
    t.returnsKey? D s owner = none := by
  unfold returnsKey?
  rw [hout]
  split
  · rename_i heq
    cases heq
  · rename_i heq
    cases heq
  · rfl

theorem returnsKey?_activate {session : Session} {code : String} {a : Service.Activation}
    (hcall : t.call? D s = some (.activate session code))
    (hout : t.outcome D s = some (.ok (.activation a))) :
    t.returnsKey? D s owner = if session.owner = owner then some a.recoveryKey else none := by
  rw [returnsKey?, hcall, hout]

/-- An activation shows no key for another account. -/
theorem returnsKey?_elsewhere {session : Session} {code : String}
    (hcall : t.call? D s = some (.activate session code)) (howner : session.owner ≠ owner) :
    t.returnsKey? D s owner = none := by
  unfold returnsKey?
  rw [hcall]
  split
  · rename_i heq _
    cases heq
    exact if_neg howner
  · rename_i heq _
    cases heq
  · rfl

/-- A recovery that is answered shows the key for the account that its address belongs to. -/
theorem returnsKey?_recover {email key new shown : String} {found : Uuid} {account : Account}
    (hcall : t.call? D s = some (.recoverPassword email key new))
    (hout : t.outcome D s = some (.ok (.recoveryKey shown)))
    (hfound : s.ledger.findByEmail? email = some (found, account)) :
    t.returnsKey? D s owner = if found = owner then some shown else none := by
  rw [returnsKey?, hcall, hout]
  simp only [hfound, Option.map_some, Option.some.injEq]

end Turn

namespace History

variable (D : Deployment) (owner : Uuid)

/-- The recovery key that was shown last for an account, as long as the record has stayed on
since. -/
def lastKey : History → Option String
  | start _ => none
  | turn h t =>
    (t.returnsKey? D (h.state D) owner).or
      (if t.staysOn D (h.state D) owner then lastKey h else none)

/-- A recovery key was shown for an account. -/
def Showed (shown : String) (h : History) : Prop :=
  h.Any fun past t => t.returnsKey? D (past.state D) owner = some shown

instance (shown : String) (h : History) : Decidable (h.Showed D owner shown) :=
  decidableAny _ h

end History

/-! ## §2 — the step -/

/-- The record of an account is on and takes a key, and its backup copy opens under the key and
holds the secret of the enrollment, unless a copy was misread. The step of that secret is not zero,
which is all that retiring its window needs. -/
structure Unlocks (D : Deployment) (h : History) (owner : Uuid) (key : String) (row : FactorRecord)
    (origin : Lineage) : Prop where
  there : (h.state D).ledger.records.get? owner = some row
  on : row.enabled = true
  lineage : h.recordOrigin D owner = some origin
  fingerprint : ∃ salt, row.fingerprint = some (RecoveryKey.fingerprint D.primitives salt key)
  backup : ∃ copy core, row.backup = some copy ∧ h.Preserves D owner origin core ∧
    SealedUnder D key core copy ∧ 0 < core.step

/-- What a turn does to the recovery key of an account. -/
inductive Turn.KeyCourse (D : Deployment) (h : History) (t : Turn) (owner : Uuid) : Prop where
  /-- A record that is on was on before, with the same fingerprint and backup copy. -/
  | kept (hreturns : t.returnsKey? D (h.state D) owner = none)
      (hbefore : ∀ row, (t.next D (h.state D)).ledger.records.get? owner = some row →
        row.enabled = true → ∃ before, (h.state D).ledger.records.get? owner = some before ∧
          before.enabled = true ∧ row.fingerprint = before.fingerprint ∧
          row.backup = before.backup)
  | issued {row : FactorRecord} {origin : Lineage}
      (hreturns : t.returnsKey? D (h.state D) owner = some (RecoveryKey.format t.recoveryKey))
      (hunlocks : Unlocks D (h.turn t) owner t.recoveryKey row origin)
  /-- An activation broke off after it had turned the record on. -/
  | broken (hreturns : t.returnsKey? D (h.state D) owner = none)
      (hoff : (h.state D).enabled owner = false)
      (hbreaks : t.BreaksOff D (h.state D) owner)

section Calls

variable {D : Deployment} {h : History} {t : Turn} {owner : Uuid} {session : Session}

theorem Turn.KeyCourse.of_same (hreturns : t.returnsKey? D (h.state D) owner = none)
    (hsame : (t.next D (h.state D)).ledger.records.get? owner =
      (h.state D).ledger.records.get? owner) : t.KeyCourse D h owner :=
  .kept hreturns fun row hrow hon => ⟨row, hsame.symm.trans hrow, hon, rfl, rfl⟩

/-- So does every call but an activation and a recovery, even if it writes the record: the main copy
may change, but not the fingerprint and the backup copy. -/
theorem keyCourse_of_other {call : Call} {r : Except Failure Reply}
    (hcall : t.call? D (h.state D) = some call)
    (hactivate : ∀ session code, call ≠ .activate session code)
    (hrecover : ∀ email key new, call ≠ .recoverPassword email key new)
    (hends : (Service.perform (t.occasion D) call).Ends (t.facing (h.state D)) r
      (t.next D (h.state D))) : t.KeyCourse D h owner := by
  refine .kept (Turn.returnsKey?_of_other hcall hactivate hrecover) fun row hrow hon => ?_
  have hrewrites := rewrites_of_ends hends owner
  rw [hrow] at hrewrites
  generalize hafter : some row = after at hrewrites
  cases hrewrites with
  | kept => exact ⟨row, hafter.symm, hon, rfl, rfl⟩
  | enabled => exact absurd rfl (hactivate _ _)
  | recovered => exact absurd rfl (hrecover _ _ _)
  | rechecked _ hthere hmain _ | resealed _ hthere hmain _ =>
    cases hafter
    exact ⟨_, hthere, (FactorRecord.hasMain_iff.1 hmain).1, rfl, rfl⟩
  | disabled =>
    cases hafter
    cases hon
  | removed => cases hafter

/-- A record that is turned on takes the key that is drawn. What was checked is sealed, and the
record takes over its enrollment. -/
theorem unlocks_of_enabled (ht : t.Orderly D (h.state D)) (hc : Coherent D h session.owner)
    {code : String} {entry : Pending} {check : Otp.Check} {l : Ledger}
    (hchecked : Service.PendingChecked (t.occasion D) session code (t.facing (h.state D)) entry
      check)
    (hl : (h.state D).ledger.enable? session.owner (Service.sealCopies (t.occasion D) check.secret
      entry.passwordKey t.recoveryKey) t.now = some l)
    (hledger : (t.next D (h.state D)).ledger = l) :
    ∃ row origin, Unlocks D (h.turn t) session.owner t.recoveryKey row origin := by
  obtain ⟨account, origin, -, horigin, hawaiting⟩ := hc.checked ht hchecked
  obtain ⟨seconds, -, hcode⟩ := hchecked.checked
  obtain ⟨hoff, -, created, hrecords⟩ := Ledger.enable?_eq hl
  have hrow := hrecords session.owner
  rw [if_pos rfl, ← hledger] at hrow
  have hon : ((h.turn t).state D).enabled session.owner = true := State.enabled_of_row hrow rfl
  have hcore : entry.secret.core = origin.secret.core :=
    (Otp.Secret.core_check hcode).symm.trans hawaiting.core
  refine ⟨_, origin, hrow, rfl, ?_, ⟨_, rfl⟩, _, origin.secret.core, rfl, .inl rfl,
    ⟨check.secret, _, rfl, hawaiting.bounded, hawaiting.core⟩, ?_⟩
  · rw [History.recordOrigin_started hon hoff, horigin]
  · show 0 < origin.secret.step
    rw [← Otp.Secret.step_eq_of_core hcore]
    exact (Otp.Secret.check_cases hcode).1

/-- An activation that goes through shows the key that it put in place. It breaks off if the record
was turned on and the tokens cannot be dated; then nobody has seen the key. -/
theorem keyCourse_activate (ht : t.Orderly D (h.state D)) (hc : Coherent D h session.owner)
    {code : String} {q : Except Failure Service.Activation}
    (hcall : t.call? D (h.state D) = some (.activate session code))
    (hout : t.outcome D (h.state D) = some (q.map .activation))
    (hends : (Service.activate (t.occasion D) session code).Ends (t.facing (h.state D)) q
      (t.next D (h.state D))) : t.KeyCourse D h owner := by
  have hrefused : ∀ failure, t.outcome D (h.state D) = some (.error failure) →
      (t.next D (h.state D)).ledger = (h.state D).ledger → t.KeyCourse D h owner :=
    fun failure hfail hledger => .of_same (Turn.returnsKey?_of_error hfail) (by rw [hledger])
  cases Service.activate_outcome hends with
  | refused _ hfaded => exact hrefused _ hout hfaded.ledger
  | mistaken _ _ hb | unwritten _ _ hb => exact hrefused _ hout hb.ledger_eq
  | late _ _ hquiet => exact hrefused _ hout hquiet.ledger
  | done hcheck _ hl hb =>
    obtain ⟨hoff, -, _, hrecords⟩ := Ledger.enable?_eq hl
    by_cases howner : session.owner = owner
    · subst howner
      -- The record is on now. The answer depends on whether the tokens can be dated.
      cases hissued : (Service.issued (t.occasion D) session.owner .verified
          (Session.revokeOwner session.owner (t.facing (h.state D)).sessions)).1 with
      | error failure =>
        rw [hissued] at hout
        obtain rfl := Session.crash_of_issue hissued
        exact .broken (Turn.returnsKey?_of_error hout) hoff ⟨⟨session, code, hcall, rfl⟩, hout⟩
      | ok tokens =>
        rw [hissued] at hout
        have hchecked := ((Service.checkPending_ends hcheck).2 _ rfl).2
        obtain ⟨row, origin, hunlocks⟩ := unlocks_of_enabled ht hc hchecked hl hb.ledger_eq
        have hreturns : t.returnsKey? D (h.state D) session.owner = _ :=
          Turn.returnsKey?_activate hcall hout
        rw [if_pos rfl] at hreturns
        exact .issued hreturns hunlocks
    · refine .of_same (Turn.returnsKey?_elsewhere hcall howner) ?_
      rw [hb.ledger_eq, hrecords, if_neg (Ne.symm howner)]
      rfl

/-- A record whose password is recovered takes the key that is drawn. The copies that were opened
are those of the record that is there. -/
theorem unlocks_of_recovered (hD : D.Lawful) (ht : t.Orderly D (h.state D))
    (hc : Coherent D h owner) {copies : Copies} {typed hash : String} {key : Key}
    {secret : Otp.Secret} {l : Ledger} (hcall : t.OpensBackup D (h.state D) owner typed)
    (hshown : ((t.facing (h.state D)).shown owner).bind FactorRecord.active? = some copies)
    (hsecret : Service.Outcome.Recovered (t.occasion D) copies typed secret)
    (hl : (h.state D).ledger.recover? owner copies.fingerprint hash
      (Service.sealCopies (t.occasion D) secret key t.recoveryKey) = some l)
    (hledger : (t.next D (h.state D)).ledger = l) :
    ∃ row origin, Unlocks D (h.turn t) owner t.recoveryKey row origin := by
  obtain ⟨row, hrow, -, -, hrecords⟩ := Ledger.recover?_eq hl
  rw [ht.shown, hrow, Option.bind_some] at hshown
  have hon : row.enabled = true := (FactorRecord.active?_eq_some.1 hshown).1
  obtain ⟨account, origin, -, horigin, hwrapped⟩ := hc.record row hrow hon
  obtain ⟨held, seconds, hopen, -, hretire⟩ := hsecret.opened
  obtain ⟨hbounded, hcore⟩ := hwrapped.opened_backup hD horigin hrow hshown hcall
    hsecret.verified hopen
  have hrow' := hrecords owner
  rw [if_pos rfl, ← hledger] at hrow'
  have hon' : ((h.turn t).state D).enabled owner = true := State.enabled_of_row hrow' hon
  refine ⟨_, origin, hrow', hon, ?_, ⟨_, rfl⟩, _, held.core, rfl, hcore, ⟨secret, _, rfl,
    Otp.Secret.bounded_retire hretire hbounded, Otp.Secret.core_retire hretire⟩,
    (Otp.Secret.retire_spec hretire).1⟩
  rw [History.recordOrigin_kept hon' (State.enabled_of_row hrow hon), horigin]

/-- A recovery that goes through shows the key that it put in place, and nothing can fail after the
write. -/
theorem keyCourse_recoverPassword (hD : D.Lawful) (ht : t.Orderly D (h.state D))
    (hc : Coherent D h owner) {email key new : String} {q : Except Failure String}
    (hcall : t.call? D (h.state D) = some (.recoverPassword email key new))
    (hout : t.outcome D (h.state D) = some (q.map .recoveryKey))
    (hends : (Service.recoverPassword (t.occasion D) email key new).Ends (t.facing (h.state D)) q
      (t.next D (h.state D))) : t.KeyCourse D h owner := by
  cases Service.recoverPassword_outcome hends with
  | refused hquiet =>
    exact .of_same (Turn.returnsKey?_of_error hout) (congrArg (·.records.get? owner) hquiet.ledger)
  | @done _ found _ _ _ _ _ hnormal hfound hshown hsecret hl hb =>
    have hreturns : t.returnsKey? D (h.state D) owner = _ :=
      Turn.returnsKey?_recover hcall hout hfound
    -- The address belongs to the account, or the account is not touched.
    by_cases howner : found = owner
    · subst howner
      rw [if_pos rfl] at hreturns
      obtain ⟨row, origin, hunlocks⟩ :=
        unlocks_of_recovered hD ht hc ⟨email, key, new, _, hcall, hfound, hnormal⟩ hshown hsecret
          hl hb.ledger_eq
      exact .issued hreturns hunlocks
    · rw [if_neg howner] at hreturns
      obtain ⟨_, -, -, -, hrecords⟩ := Ledger.recover?_eq hl
      refine .of_same hreturns ?_
      rw [hb.ledger_eq, hrecords, if_neg (Ne.symm howner)]
      rfl

end Calls

/-- **The step.** A turn keeps the recovery key of an account, shows another, or breaks off. Every
call goes one of these ways, for every account. -/
theorem keyCourse {D : Deployment} {h : History} {t : Turn} {owner : Uuid} (hD : D.Lawful)
    (ht : t.Orderly D (h.state D)) (hc : ∀ owner, Coherent D h owner) :
    t.KeyCourse D h owner := by
  rcases t.next_cases D (h.state D) with ⟨hnone, -, hnext⟩ | ⟨call, r, hcall, hout, hends⟩
  · exact .of_same (Turn.returnsKey?_of_none hnone) (by rw [hnext]; rfl)
  cases call with
  | activate session code =>
    obtain ⟨q, hq, rfl⟩ := Op.ends_map.1 hends
    exact keyCourse_activate ht (hc _) hcall hout hq
  | recoverPassword email key new =>
    obtain ⟨q, hq, rfl⟩ := Op.ends_map.1 hends
    exact keyCourse_recoverPassword hD ht (hc _) hcall hout hq
  | _ => exact keyCourse_of_other hcall nofun nofun hends

/-! ## §3 — every run -/

section Runs

variable {D : Deployment} {h : History} {t : Turn} {owner : Uuid} {key shown : String}
  {row : FactorRecord} {origin : Lineage}

/-- What takes a key is on. -/
theorem Unlocks.enabled (hu : Unlocks D h owner key row origin) :
    (h.state D).enabled owner = true :=
  State.enabled_of_row hu.there hu.on

/-- What a record takes, it takes as long as it stays on with its fingerprint and backup copy. -/
theorem Unlocks.kept (hu : Unlocks D h owner key row origin)
    (hstays : t.staysOn D (h.state D) owner = true)
    (hbefore : ∀ row, (t.next D (h.state D)).ledger.records.get? owner = some row →
      row.enabled = true → ∃ before, (h.state D).ledger.records.get? owner = some before ∧
        before.enabled = true ∧ row.fingerprint = before.fingerprint ∧
        row.backup = before.backup) :
    ∃ after, Unlocks D (h.turn t) owner key after origin := by
  have hafter : (t.next D (h.state D)).enabled owner = true := (Bool.and_eq_true_iff.1 hstays).2
  obtain ⟨after, hrow, hon⟩ := Ledger.of_any hafter
  obtain ⟨before, hthere, -, hfingerprint, hbackup⟩ := hbefore after hrow hon
  obtain rfl := Option.some.inj (hu.there.symm.trans hthere)
  refine ⟨after, hrow, hon, ?_, ?_, ?_⟩
  · rw [History.recordOrigin_kept hafter hu.enabled, hu.lineage]
  · rw [hfingerprint]
    exact hu.fingerprint
  · obtain ⟨copy, core, hcopy, hcore, hsealed, hstep⟩ := hu.backup
    exact ⟨copy, core, hbackup.trans hcopy, hcore.turn, hsealed, hstep⟩

theorem lastKey_of_returned (hreturns : t.returnsKey? D (h.state D) owner = some shown) :
    (h.turn t).lastKey D owner = some shown := by
  rw [History.lastKey, hreturns, Option.some_or]

theorem lastKey_of_kept (hreturns : t.returnsKey? D (h.state D) owner = none) :
    (h.turn t).lastKey D owner =
      if t.staysOn D (h.state D) owner then h.lastKey D owner else none := by
  rw [History.lastKey, hreturns, Option.none_or]

/-- **The run.** The record takes the key that was shown last, and the backup copy opens under it.
Induction on the history. -/
theorem unlocked (hD : D.Lawful) (hrun : h.All fun past t => t.Orderly D (past.state D))
    (hlast : h.lastKey D owner = some shown) : ∃ u row origin, h.Holds u ∧
      shown = RecoveryKey.format u.recoveryKey ∧ Unlocks D h owner u.recoveryKey row origin := by
  induction h with
  | start gallery => cases hlast
  | turn h t ih =>
    have hcourse : t.KeyCourse D h owner := keyCourse hD hrun.2 (coherent hD hrun.1)
    cases hcourse with
    | issued hreturns hunlocks =>
      rw [lastKey_of_returned hreturns] at hlast
      exact ⟨t, _, _, .inr rfl, (Option.some.inj hlast).symm, hunlocks⟩
    | kept hreturns hbefore =>
      rw [lastKey_of_kept hreturns] at hlast
      -- Only a record that stayed on keeps its key.
      cases hstays : t.staysOn D (h.state D) owner with
      | false =>
        rw [hstays] at hlast
        cases hlast
      | true =>
        rw [hstays] at hlast
        obtain ⟨u, row, origin, hu, hshown, hunlocks⟩ := ih hrun.1 hlast
        obtain ⟨after, hafter⟩ := hunlocks.kept hstays hbefore
        exact ⟨u, after, origin, .inl hu, hshown, hafter⟩
    | broken hreturns hoff _ =>
      rw [lastKey_of_kept hreturns, Turn.staysOn, hoff] at hlast
      cases hlast

/-- A key was shown for every record that is on, unless a turn broke off. A turn breaks off only
where the clock is so late that tokens cannot be dated. Induction on the history. -/
theorem lastKey_of_enabled (hD : D.Lawful) (hrun : h.All fun past t => t.Orderly D (past.state D))
    (henabled : (h.state D).enabled owner = true) : (∃ shown, h.lastKey D owner = some shown) ∨
      h.Any fun past t => t.BreaksOff D (past.state D) owner := by
  induction h with
  | start gallery => cases henabled
  | turn h t ih =>
    have hcourse : t.KeyCourse D h owner := keyCourse hD hrun.2 (coherent hD hrun.1)
    cases hcourse with
    | issued hreturns _ => exact .inl ⟨_, lastKey_of_returned hreturns⟩
    | broken _ _ hbreaks => exact .inr (.inr hbreaks)
    | kept hreturns hbefore =>
      obtain ⟨row, hrow, hon⟩ := Ledger.of_any henabled
      obtain ⟨before, hthere, hon', -⟩ := hbefore row hrow hon
      have hon' := State.enabled_of_row hthere hon'
      -- The record was on before, and so had a key already.
      have hstays : t.staysOn D (h.state D) owner = true :=
        Bool.and_eq_true_iff.2 ⟨hon', henabled⟩
      refine (ih hrun.1 hon').imp ?_ .inl
      rintro ⟨shown, hshown⟩
      refine ⟨shown, ?_⟩
      rw [lastKey_of_kept hreturns, hstays]
      exact hshown

end Runs

end SecondFactor
