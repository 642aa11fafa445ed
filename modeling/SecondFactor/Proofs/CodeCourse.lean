import SecondFactor.Proofs.CodeSets

/-!
# What a turn does to backup codes

Every turn keeps the rows of an account, drops them all, replaces them, or takes one away. Which of
these it does is settled here once, by a walk through the calls; whatever is said about codes along
a run goes by these four courses.

A code is spent by a call in two steps: the row goes, and then a pair of tokens is issued. That
the first step never breaks off is shown apart, since otherwise a call could spend a code and not
say so.

## The architecture

* **`Op.Unbroken`** — an operation that never breaks off, and the steps that do not.
* **`Turn.CodeCourse`** — the four courses.
* **`codeCourse`** — every turn takes one of them.
-/

namespace SecondFactor

open Service (Call Reply)

/-! ## §1 — operations that do not break off -/

namespace Op

variable {α β : Type} {x : Op α}

/-- The operation ends or is refused, and never breaks off. -/
def Unbroken (x : Op α) : Prop := ∀ s s', ¬ x.Ends s (.error .crash) s'

namespace Unbroken

theorem pure (a : α) : (Pure.pure a : Op α).Unbroken := by
  intro s s' h
  cases (ends_pure.1 h).1

theorem refuse (cause : Cause) : (Op.refuse cause : Op α).Unbroken := by
  intro s s' h
  cases (ends_refuse.1 h).1

/-- This is the one lemma that takes two steps apart. All that is put together from steps that do
not break off does not break off either. -/
theorem bind {f : α → Op β} (hx : x.Unbroken) (hf : ∀ a, (f a).Unbroken) :
    (x >>= f).Unbroken := by
  intro s s' h
  rcases ends_bind.1 h with ⟨a, t, -, hrest⟩ | ⟨failure, hfirst, heq⟩
  · exact hf a t s' hrest
  · cases heq
    exact hx s s' hfirst

theorem require (cause : Cause) (found : Option α) : (Op.require cause found).Unbroken := by
  cases found with
  | none => exact refuse cause
  | some a => exact pure a

theorem ensure (cause : Cause) (condition : Bool) : (Op.ensure cause condition).Unbroken := by
  cases condition with
  | false => exact refuse cause
  | true => exact pure ()

theorem demand (result : Except Cause α) : (Op.demand result).Unbroken := by
  cases result with
  | error cause => exact refuse cause
  | ok a => exact pure a

/-- A query is refused or runs; what it runs may fail with an error of the database, and that is a
refusal too. -/
theorem put {q : Query} {refusal : Option α} {run : Database.Run α}
    {causeOf : DatabaseError → Cause} : (Database.put q refusal run causeOf).Unbroken := by
  intro s s' h
  rcases Database.put_ends h with ⟨_, heq, -⟩ | ⟨_, -, heq, -⟩ | ⟨t, -, heq, -⟩
  · cases heq
  · cases heq
  · cases hrun : ((ExceptT.run run).run t).1 with
    | error error =>
      rw [hrun] at heq
      cases heq
    | ok a =>
      rw [hrun] at heq
      cases heq

end Unbroken

end Op

/-- Up to and including the removal of the row, a verification by a backup code can only be
refused. -/
theorem Service.unbroken_spendBackupCode (o : Occasion) (session : Session) (code : String) :
    (spendBackupCode o session code).Unbroken := by
  have hunverified : (ensureUnverified session.claim).Unbroken := by
    cases session.claim with
    | on => exact .pure ()
    | _ => exact .refuse _
  refine .bind hunverified fun _ => ?_
  refine .bind (.bind .put fun found => .require _ found) fun _ => ?_
  refine .bind (.bind .put fun shown => .require _ (shown.bind FactorRecord.active?)) fun _ => ?_
  refine .bind (.demand _) fun normal => ?_
  exact .bind .put fun used => .ensure _ used

/-! ## §2 — the step -/

/-- The row of a code. -/
def codeRow (D : Deployment) (owner : Uuid) (code : String) : Uuid × String :=
  (owner, BackupCode.hash D.primitives D.kdf owner code)

/-- What a turn does to the codes of an account. -/
inductive Turn.CodeCourse (D : Deployment) (t : Turn) (s : State) (owner : Uuid) : Prop where
  | kept (hrenews : t.renewsCodes D s owner = false) (hspends : t.spends? D s owner = none)
      (hrows : (t.next D s).ledger.codesOf owner = s.ledger.codesOf owner)
  /-- The record is off before the turn or after it, and no codes are left. -/
  | dropped (hrenews : t.renewsCodes D s owner = false) (hspends : t.spends? D s owner = none)
      (hoff : t.staysOn D s owner = false)
      (hrows : (t.next D s).ledger.codesOf owner = [])
  | renewed (hrenews : t.renewsCodes D s owner = true)
      (hrows : (t.next D s).ledger.codesOf owner =
        t.draws.codes.codes.map (codeRow D owner))
  | spent {code : String} (hrenews : t.renewsCodes D s owner = false)
      (hspends : t.spends? D s owner = some code) (hon : t.staysOn D s owner = true)
      (hrow : codeRow D owner code ∈ s.ledger.codes)
      (hcodes : (t.next D s).ledger.codes = s.ledger.codes.erase (codeRow D owner code))

namespace Turn.CodeCourse

variable {D : Deployment} {t : Turn} {s : State} {owner : Uuid} {call : Call}

/-- A call that has nothing to do with codes of the account, and leaves them. -/
theorem of_kept (hcall : t.call? D s = some call)
    (hvalidate : ∀ session typed, call = .validateBackupCode session typed →
      session.owner ≠ owner)
    (hgenerate : ∀ session password, call = .generateBackupCodes session password →
      session.owner ≠ owner)
    (hrows : (t.next D s).ledger.codesOf owner = s.ledger.codesOf owner) :
    t.CodeCourse D s owner :=
  .kept (renewsCodes_eq_false hcall hgenerate)
    (spends?_of_entered_none (entered?_eq_none hcall hvalidate)) hrows

theorem of_codes (hcall : t.call? D s = some call)
    (hvalidate : ∀ session typed, call ≠ .validateBackupCode session typed)
    (hgenerate : ∀ session password, call ≠ .generateBackupCodes session password)
    (hcodes : (t.next D s).ledger.codes = s.ledger.codes) : t.CodeCourse D s owner :=
  of_kept hcall (fun session typed heq => absurd heq (hvalidate session typed))
    (fun session password heq => absurd heq (hgenerate session password))
    (Ledger.codesOf_of_eq hcodes owner)

theorem of_ledger (hcall : t.call? D s = some call)
    (hvalidate : ∀ session typed, call ≠ .validateBackupCode session typed)
    (hgenerate : ∀ session password, call ≠ .generateBackupCodes session password)
    (hledger : (t.next D s).ledger = s.ledger) : t.CodeCourse D s owner :=
  of_codes hcall hvalidate hgenerate (congrArg Ledger.codes hledger)

/-- A call after which an account has no codes. -/
theorem of_without {subject : Uuid} (hcall : t.call? D s = some call)
    (hvalidate : ∀ session typed, call ≠ .validateBackupCode session typed)
    (hgenerate : ∀ session password, call ≠ .generateBackupCodes session password)
    (hoff : t.staysOn D s subject = false)
    (hcodes : (t.next D s).ledger.codes = s.ledger.codesWithout subject) :
    t.CodeCourse D s owner := by
  have hrows := Ledger.codesOf_of_without hcodes owner
  have hrenews : t.renewsCodes D s owner = false := renewsCodes_eq_false hcall
    fun session password heq => absurd heq (hgenerate session password)
  have hspends : t.spends? D s owner = none := spends?_of_entered_none <|
    entered?_eq_none hcall fun session typed heq => absurd heq (hvalidate session typed)
  by_cases howner : owner = subject
  · rw [if_pos howner] at hrows
    rw [← howner] at hoff
    exact .dropped hrenews hspends hoff hrows
  · rw [if_neg howner] at hrows
    exact .kept hrenews hspends hrows

end Turn.CodeCourse

section Calls

variable {D : Deployment} {t : Turn} {s : State} {owner : Uuid} {session : Session}

/-- A verification by a backup code is refused, or the code is used up. There is no third case,
since the operation does not break off before the row is gone. -/
theorem verdict_of_validateBackupCode {typed : String}
    (hcall : t.call? D s = some (.validateBackupCode session typed)) :
    (t.refused D s = true ∧ (t.next D s).ledger = s.ledger) ∨
      (t.refused D s = false ∧ session.claim = .on ∧ ∃ copies code,
        ((t.facing s).shown session.owner).bind FactorRecord.active? = some copies ∧
        BackupCode.normalize typed = .ok code ∧
        s.ledger.consumeCode? session.owner
          (BackupCode.hash D.primitives D.kdf session.owner code) = some (t.next D s).ledger) := by
  obtain ⟨r, hout, hends⟩ := t.ends_of_call hcall
  obtain ⟨q, hq, rfl⟩ := Op.ends_map.1 hends
  rw [Service.validateBackupCode_eq] at hq
  rcases Op.ends_bind.1 hq with ⟨_, u, hspend, hreissue⟩ | ⟨failure, hspend, rfl⟩
  · rcases Service.spendBackupCode_ends hspend with
      ⟨_, hfail, -⟩ | ⟨-, hclaim, copies, code, l, hactive, hcode, hl, hw⟩
    · cases hfail
    obtain ⟨hresult, hnext⟩ := Op.ends_onSessions.1 hreissue
    refine .inr ⟨?_, hclaim, copies, code, hactive, hcode, ?_⟩
    · -- Nothing but the tokens can be wanting after the code was accepted.
      cases q with
      | ok tokens => exact Turn.refused_of_ok hout
      | error failure =>
        obtain rfl := Session.crash_of_issue hresult.symm
        exact Bool.eq_false_iff.2 fun h => (Turn.refused_of_error hout).1 h rfl
    · rw [hnext, show ({ u with sessions := _ } : State).ledger = u.ledger from rfl, hw.ledger]
      exact hl
  · rcases Service.spendBackupCode_ends hspend with ⟨_, -, hquiet⟩ | ⟨hok, -⟩
    · refine .inl ⟨(Turn.refused_of_error hout).2 fun hcrash => ?_, hquiet.ledger⟩
      exact Service.unbroken_spendBackupCode _ _ _ _ _ (hcrash ▸ hspend)
    · cases hok

/-- A verification by a backup code keeps all rows if it is refused, and otherwise takes one. The
record it was shown has to be the current one: else a code may be spent of an account whose second
factor is off. -/
theorem codeCourse_validateBackupCode (hcurrent : t.mishaps.staleRecord = none) {typed : String}
    (hcall : t.call? D s = some (.validateBackupCode session typed)) :
    t.CodeCourse D s owner := by
  have hrenews : t.renewsCodes D s owner = false := Turn.renewsCodes_eq_false hcall nofun
  rcases verdict_of_validateBackupCode hcall with
    ⟨hrefused, hledger⟩ | ⟨hrefused, -, copies, code, hactive, hcode, hl⟩
  · refine .kept hrenews ?_ (Ledger.codesOf_of_eq (congrArg Ledger.codes hledger) owner)
    rw [Turn.spends?, hrefused]
    rfl
  have hcodes := Ledger.codes_consumeCode? hl
  by_cases howner : session.owner = owner
  · subst howner
    have hspends : t.spends? D s session.owner = some code := by
      rw [Turn.spends?, hrefused, Turn.entered?_eq hcall rfl, hcode]
      rfl
    have hbefore : s.enabled session.owner = true :=
      State.enabled_of_shown (s := t.facing s) hcurrent hactive
    have hafter : (t.next D s).enabled session.owner = s.enabled session.owner := by
      rw [State.enabled, (Ledger.consumeCode?_eq hl).2, State.enabled]
    have hrow : codeRow D session.owner code ∈ s.ledger.codes := by
      -- A code without a row would have been refused.
      unfold Ledger.consumeCode? at hl
      split at hl
      · assumption
      · cases hl
    -- The record was shown as active and is the current one, so it is on; and it stays on, since
    -- the call writes codes only.
    refine .spent hrenews hspends ?_ hrow hcodes
    rw [Turn.staysOn, hafter, Bool.and_self]
    exact hbefore
  · refine .of_kept hcall (fun other _ heq => ?_) nofun
      (Ledger.codesOf_of_consumed_ne hcodes (Ne.symm howner))
    cases heq
    exact howner

/-- A request for new codes is answered exactly if it has replaced the set. -/
theorem codeCourse_generateBackupCodes {password : String} {q : Except Failure (List String)}
    (hcall : t.call? D s = some (.generateBackupCodes session password))
    (hout : t.outcome D s = some (q.map .codes))
    (hends : (Service.generateBackupCodes (t.occasion D) session password).Ends (t.facing s) q
      (t.next D s)) : t.CodeCourse D s owner := by
  have hspends : t.spends? D s owner = none :=
    Turn.spends?_of_entered_none (Turn.entered?_eq_none hcall nofun)
  rcases Service.generateBackupCodes_ends hends with
    ⟨failure, rfl, hquiet⟩ | ⟨-, _, _, -, -, -, hw, hshow⟩
  · exact .kept (Turn.renewsCodes_of_error hout) hspends
      (Ledger.codesOf_of_eq (congrArg Ledger.codes hquiet.ledger) owner)
  obtain ⟨shown, hshown, -⟩ := t.draws.codes.displayed
  obtain rfl := hshow shown hshown
  have hrows := Ledger.codesOf_replaceCodes s.ledger session.owner owner
    (t.draws.codes.codes.map (BackupCode.hash D.primitives D.kdf session.owner))
  replace hrows := (congrArg (·.codesOf owner) hw.ledger).trans hrows
  by_cases howner : session.owner = owner
  · rw [if_pos howner.symm, List.map_map, howner] at hrows
    exact .renewed (Turn.renewsCodes_eq_true hcall hout howner) hrows
  · rw [if_neg (Ne.symm howner)] at hrows
    refine .kept (Turn.renewsCodes_eq_false hcall fun other _ heq => ?_) hspends hrows
    cases heq
    exact howner

/-- A deletion drops the codes along with the record that they belong to. -/
theorem codeCourse_deleteAccount {password : String} {q : Except Failure Unit}
    (hcall : t.call? D s = some (.deleteAccount session password))
    (hends : (Service.deleteAccount (t.occasion D) session password).Ends (t.facing s) q
      (t.next D s)) : t.CodeCourse D s owner := by
  cases Service.deleteAccount_outcome hends with
  | refused hquiet => exact .of_ledger hcall nofun nofun hquiet.ledger
  | done _ _ _ hl hb =>
    rcases hl with rfl | rfl
    · exact .of_ledger hcall nofun nofun hb.ledger_eq
    · refine .of_without hcall nofun nofun ?_ (congrArg Ledger.codes hb.ledger_eq)
      have hafter : (t.next D s).enabled session.owner = false := by
        show (t.next D s).ledger.enabled session.owner = false
        rw [hb.ledger_eq, Ledger.enabled_remove, if_pos rfl]
      rw [Turn.staysOn, hafter, Bool.and_false]

/-- An activation starts without codes. The record was off before it, so whatever codes there had
been belonged to an earlier set-up. -/
theorem codeCourse_activate {code : String} {q : Except Failure Service.Activation}
    (hcall : t.call? D s = some (.activate session code))
    (hends : (Service.activate (t.occasion D) session code).Ends (t.facing s) q (t.next D s)) :
    t.CodeCourse D s owner := by
  cases Service.activate_outcome hends with
  | refused _ hfaded => exact .of_ledger hcall nofun nofun hfaded.ledger
  | mistaken _ _ hb | unwritten _ _ hb =>
    exact .of_ledger hcall nofun nofun hb.ledger_eq
  | late _ _ hquiet => exact .of_ledger hcall nofun nofun hquiet.ledger
  | done _ _ hl hb =>
    have hcodes : (t.next D s).ledger.codes = s.ledger.codesWithout session.owner := by
      rw [hb.ledger_eq]
      exact Ledger.codes_enable? hl
    have hbefore : s.enabled session.owner = false := (Ledger.enable?_eq hl).1
    refine .of_without hcall nofun nofun ?_ hcodes
    rw [Turn.staysOn, hbefore, Bool.false_and]

/-- A deactivation leaves the record off, and no codes. -/
theorem codeCourse_deactivate {password : String} {q : Except Failure Session.Tokens}
    (hcall : t.call? D s = some (.deactivate session password))
    (hends : (Service.deactivate (t.occasion D) session password).Ends (t.facing s) q
      (t.next D s)) : t.CodeCourse D s owner := by
  cases Service.deactivate_outcome hends with
  | refused hquiet => exact .of_ledger hcall nofun nofun hquiet.ledger
  | done _ _ _ _ hb =>
    refine .of_without hcall nofun nofun ?_ (congrArg Ledger.codes hb.ledger_eq)
    have hafter : (t.next D s).enabled session.owner = false := by
      show (t.next D s).ledger.enabled session.owner = false
      rw [hb.ledger_eq, Ledger.enabled_disable, if_pos rfl]
    rw [Turn.staysOn, hafter, Bool.and_false]

end Calls

/-- **The step.** A turn keeps the codes of an account, drops them, replaces them, or uses one. This
is the only walk through all calls that the codes need; the runs below go by the four courses. -/
theorem codeCourse {D : Deployment} {t : Turn} {s : State} {owner : Uuid}
    (hcurrent : t.mishaps.staleRecord = none) : t.CodeCourse D s owner := by
  -- A turn without a call leaves the ledger. Of the others five write codes, and have been looked
  -- at above; the rest leave them.
  rcases t.next_cases D s with ⟨hnone, -, hnext⟩ | ⟨call, r, hcall, hout, hends⟩
  · refine .kept (Turn.renewsCodes_of_none hnone)
      (Turn.spends?_of_entered_none (Turn.entered?_of_none hnone)) ?_
    rw [hnext]
    rfl
  cases call with
  | health =>
    obtain ⟨q, hq, rfl⟩ := Op.ends_map.1 hends
    exact .of_ledger hcall nofun nofun (Service.health_ends hq).ledger
  | register email password =>
    obtain ⟨q, hq, rfl⟩ := Op.ends_map.1 hends
    cases Service.register_outcome hq with
    | refused hquiet => exact .of_ledger hcall nofun nofun hquiet.ledger
    | done _ _ _ hb =>
      refine .of_codes hcall nofun nofun ?_
      rw [hb.ledger_eq]
      rfl
  | login email password =>
    obtain ⟨q, hq, rfl⟩ := Op.ends_map.1 hends
    cases Service.login_outcome hq with
    | refused hquiet => exact .of_ledger hcall nofun nofun hquiet.ledger
    | done _ _ _ hb => exact .of_ledger hcall nofun nofun hb.ledger_eq
  | refresh token =>
    obtain ⟨q, hq, rfl⟩ := Op.ends_map.1 hends
    have hledger : (t.next D s).ledger = s.ledger := by
      rw [(Op.ends_onSessions.1 hq).2]
      rfl
    exact .of_ledger hcall nofun nofun hledger
  | logout session =>
    obtain ⟨q, hq, rfl⟩ := Op.ends_map.1 hends
    have hledger : (t.next D s).ledger = s.ledger := by
      rw [(Op.ends_changeSessions.1 hq).2]
      rfl
    exact .of_ledger hcall nofun nofun hledger
  | deleteAccount session password =>
    obtain ⟨q, hq, rfl⟩ := Op.ends_map.1 hends
    exact codeCourse_deleteAccount hcall hq
  | overview session =>
    obtain ⟨q, hq, rfl⟩ := Op.ends_map.1 hends
    exact .of_ledger hcall nofun nofun (Service.overview_ends hq).ledger
  | setup session password =>
    obtain ⟨q, hq, rfl⟩ := Op.ends_map.1 hends
    cases Service.setup_outcome hq with
    | refused hquiet => exact .of_ledger hcall nofun nofun hquiet.ledger
    | done _ _ _ _ _ _ _ hb =>
      exact .of_ledger hcall nofun nofun hb.ledger_eq
  | image session name =>
    obtain ⟨q, hq, rfl⟩ := Op.ends_map.1 hends
    exact .of_ledger hcall nofun nofun (Service.pendingImage_ends hq).ledger
  | activate session code =>
    obtain ⟨q, hq, rfl⟩ := Op.ends_map.1 hends
    exact codeCourse_activate hcall hq
  | validate session password code =>
    obtain ⟨q, hq, rfl⟩ := Op.ends_map.1 hends
    cases Service.validate_outcome hq with
    | refused _ hquiet | lost _ hquiet =>
      exact .of_ledger hcall nofun nofun hquiet.ledger
    | mistaken _ _ hl hb | done _ _ hl hb =>
      refine .of_codes hcall nofun nofun ?_
      rw [hb.ledger_eq]
      exact Ledger.codes_updateMain? hl
  | validateBackupCode session typed => exact codeCourse_validateBackupCode hcurrent hcall
  | generateBackupCodes session password =>
    obtain ⟨q, hq, rfl⟩ := Op.ends_map.1 hends
    exact codeCourse_generateBackupCodes hcall hout hq
  | deactivate session password =>
    obtain ⟨q, hq, rfl⟩ := Op.ends_map.1 hends
    exact codeCourse_deactivate hcall hq
  | changePassword session current new =>
    obtain ⟨q, hq, rfl⟩ := Op.ends_map.1 hends
    cases Service.changePassword_outcome hq with
    | refused hquiet => exact .of_ledger hcall nofun nofun hquiet.ledger
    | done _ _ _ _ hl hb =>
      refine .of_codes hcall nofun nofun ?_
      rw [hb.ledger_eq]
      exact Ledger.codes_changePassword? hl
  | recoverPassword email recoveryKey new =>
    obtain ⟨q, hq, rfl⟩ := Op.ends_map.1 hends
    cases Service.recoverPassword_outcome hq with
    | refused hquiet => exact .of_ledger hcall nofun nofun hquiet.ledger
    | done _ _ _ _ hl hb =>
      refine .of_codes hcall nofun nofun ?_
      rw [hb.ledger_eq]
      exact Ledger.codes_recover? hl
  | purge =>
    obtain ⟨q, hq, rfl⟩ := Op.ends_map.1 hends
    exact .of_ledger hcall nofun nofun (Service.purge_ends hq).1

end SecondFactor
