import SecondFactor.Proofs.Enrollments

/-!
# Steps that are accepted

A one-time code is checked in two calls: an activation checks it against the pending secret, and a
verification against the secret in the main copy of the record that is shown. The record that is
shown may be one that the account had earlier. What a check accepts counts for the enrollment from
which the secret comes.

## The architecture

* **`History.Had`**, **`History.HadFor`** — records that an account had, and for which enrollment.
* **`Turn.Accepts`**, **`Turn.Honours`**, **`Turn.Burns`** — a step is accepted; the call is
  answered then; or an activation fails after it.
* **`Turn.Uses`** — either of the two, after which the step is used up.
* **`Turn.Accepts.subject`** — a step is accepted for the account that the enrollment belongs to.
-/

namespace SecondFactor

open Service (Call Reply)

/-! ## §1 — looking back on a history -/

/-- The time of a turn in seconds since 1970, as a check reads it. -/
def Turn.seconds (t : Turn) : Nat := t.now.unixSeconds.toNat

namespace History

variable (D : Deployment)

/-- The account had the record at some time. -/
def Had (owner : Uuid) (row : FactorRecord) (h : History) : Prop :=
  h.Any fun past t => (t.next D (past.state D)).ledger.records.get? owner = some row

/-- The account had the record at some time, for an enrollment. -/
def HadFor (owner : Uuid) (row : FactorRecord) (j : Lineage) (h : History) : Prop :=
  h.Any fun past t => (t.next D (past.state D)).ledger.records.get? owner = some row ∧
    (past.turn t).recordOrigin D owner = some j

end History

/-! ## §2 — what a turn accepts -/

section Accepting

variable (D : Deployment) (t : Turn) (h : History) (j : Lineage) (n : Nat)

/-- In the turn, a step is accepted for the secret of an enrollment: for the pending one, or for the
one in the main copy of a record that is shown and that the account had for it. -/
inductive Turn.Accepts : Prop where
  | pending {session : Session} {code : String} {entry : Pending} {check : Otp.Check} {s : State}
      (hcall : t.call? D (h.state D) = some (.activate session code))
      (hcheck : (Service.checkPending (t.occasion D) session code).Ends (t.facing (h.state D))
        (.ok (entry, check)) s)
      (haccepted : check.accepted = some n)
      (horigin : h.pendingOrigin D session.owner = some j)
  | main {session : Session} {password code : String} {copies : Copies} {check : Otp.Check}
      {row : FactorRecord} {s : State}
      (hcall : t.call? D (h.state D) = some (.validate session password code))
      (hcheck : (Service.checkMain (t.occasion D) session password code).Ends (t.facing (h.state D))
        (.ok (copies, check)) s)
      (haccepted : check.accepted = some n)
      (hshown : (t.facing (h.state D)).shown session.owner = some row)
      (hhad : h.HadFor D session.owner row j)

/-- A step is accepted and the call is answered. -/
def Turn.Honours : Prop := t.Accepts D h j n ∧ t.answers D (h.state D)

/-- A step is accepted by an activation that then fails, for another reason than that the second
factor is on already. That is so when the database fails. -/
structure Turn.Burns : Prop where
  accepts : t.Accepts D h j n
  activates : ∃ session code, t.call? D (h.state D) = some (.activate session code)
  fails : ∃ failure, t.failure? D (h.state D) = some failure ∧
    failure ≠ .refused (.conflict .alreadyEnabled)

/-- A step is used up. -/
def Turn.Uses : Prop := t.Honours D h j n ∨ t.Burns D h j n

end Accepting

variable {D : Deployment} {h : History} {t : Turn} {j : Lineage} {n : Nat} {owner : Uuid}

theorem Turn.Uses.accepts (hu : t.Uses D h j n) : t.Accepts D h j n :=
  hu.elim And.left Turn.Burns.accepts

theorem not_accepts_of_call {call : Call} (hcall : t.call? D (h.state D) = some call)
    (hactivate : ∀ session code, call ≠ .activate session code)
    (hvalidate : ∀ session password code, call ≠ .validate session password code) :
    ¬ t.Accepts D h j n := by
  rintro (⟨hcall', -, -, -⟩ | ⟨hcall', -, -, -, -⟩)
  · exact hactivate _ _ (Option.some.inj (hcall.symm.trans hcall'))
  · exact hvalidate _ _ _ (Option.some.inj (hcall.symm.trans hcall'))

/-- An activation accepts a step of the pending secret. Which step and which secret is read from the
check alone, whatever becomes of the rest of the call. -/
theorem accepts_of_checkPending {session : Session} {code : String}
    {r : Except Failure (Pending × Otp.Check)} {s : State}
    (hcall : t.call? D (h.state D) = some (.activate session code))
    (hcheck : (Service.checkPending (t.occasion D) session code).Ends (t.facing (h.state D)) r s)
    (ha : t.Accepts D h j n) :
    ∃ entry check, r = .ok (entry, check) ∧ check.accepted = some n ∧
      h.pendingOrigin D session.owner = some j := by
  rcases ha with ⟨hcall', hcheck', haccepted, horigin⟩ | ⟨hcall', -, -, -, -⟩
  · obtain ⟨rfl, rfl⟩ := Call.activate.inj (Option.some.inj (hcall.symm.trans hcall'))
    obtain ⟨rfl, -⟩ := Prod.ext_iff.1 (hcheck.symm.trans hcheck')
    exact ⟨_, _, rfl, haccepted, horigin⟩
  · cases hcall.symm.trans hcall'

/-- A verification accepts a step of the secret in the main copy that it was shown. The record may
be an earlier one of the account, and then the step counts for its enrollment. -/
theorem accepts_of_checkMain {session : Session} {password code : String}
    {r : Except Failure (Copies × Otp.Check)} {s : State}
    (hcall : t.call? D (h.state D) = some (.validate session password code))
    (hcheck : (Service.checkMain (t.occasion D) session password code).Ends (t.facing (h.state D))
      r s) (ha : t.Accepts D h j n) :
    ∃ copies check row, r = .ok (copies, check) ∧ check.accepted = some n ∧
      (t.facing (h.state D)).shown session.owner = some row ∧
      h.HadFor D session.owner row j := by
  rcases ha with ⟨hcall', -, -, -⟩ | ⟨hcall', hcheck', haccepted, hshown, hhad⟩
  · cases hcall.symm.trans hcall'
  · obtain ⟨rfl, rfl, rfl⟩ := Call.validate.inj (Option.some.inj (hcall.symm.trans hcall'))
    obtain ⟨rfl, -⟩ := Prod.ext_iff.1 (hcheck.symm.trans hcheck')
    exact ⟨_, _, _, rfl, haccepted, hshown, hhad⟩

/-- A call that is refused uses nothing up, unless it is an activation. An activation that fails has
shown the user nothing, but its code was seen. -/
theorem not_uses_of_error {failure : Failure}
    (hout : t.outcome D (h.state D) = some (.error failure))
    (hactivate : ∀ session code, t.call? D (h.state D) = some (.activate session code) →
      failure = .refused (.conflict .alreadyEnabled)) : ¬ t.Uses D h j n := by
  rintro (⟨-, reply, hanswer⟩ | ⟨-, ⟨session, code, hcall⟩, failure', hfails, hother⟩)
  · cases hout.symm.trans hanswer
  · rw [Turn.failure?, hout] at hfails
    cases hfails
    exact hother (hactivate session code hcall)

/-! ## §3 — to whom an enrollment belongs

An enrollment names its account and a turn of the history. -/

namespace History

theorem of_pendingOrigin (horigin : h.pendingOrigin D owner = some j) :
    j.owner = owner ∧ j.turn < h.length := by
  induction h with
  | start gallery => cases horigin
  | turn h t ih =>
    rw [pendingOrigin] at horigin
    obtain ⟨entry, -, horigin⟩ := Option.bind_eq_some_iff.1 horigin
    split at horigin
    · cases horigin
      exact ⟨rfl, Nat.lt_succ_self _⟩
    · obtain ⟨howner, hturn⟩ := ih horigin
      exact ⟨howner, Nat.lt_succ_of_lt hturn⟩

theorem of_recordOrigin (horigin : h.recordOrigin D owner = some j) :
    j.owner = owner ∧ j.turn < h.length := by
  induction h with
  | start gallery => cases horigin
  | turn h t ih =>
    have hbefore : j.owner = owner ∧ j.turn < h.length := by
      rw [recordOrigin] at horigin
      split at horigin
      · split at horigin
        · exact ih horigin
        · exact of_pendingOrigin horigin
      · cases horigin
    exact ⟨hbefore.1, Nat.lt_succ_of_lt hbefore.2⟩

/-- An enrollment belongs to one account, and was begun in an earlier turn than the one that looks
back. -/
theorem of_hadFor {row : FactorRecord} (hhad : h.HadFor D owner row j) :
    j.owner = owner ∧ j.turn < h.length := by
  induction h with
  | start gallery => cases hhad
  | turn h t ih =>
    rcases hhad with hbefore | ⟨-, horigin⟩
    · obtain ⟨howner, hturn⟩ := ih hbefore
      exact ⟨howner, Nat.lt_succ_of_lt hturn⟩
    · exact of_recordOrigin horigin

end History

/-- What is accepted counts for an enrollment of the account that the call is about, which is older
than the turn. -/
theorem Turn.Accepts.subject (ha : t.Accepts D h j n) :
    (∃ call, t.call? D (h.state D) = some call ∧
      call.subject? (t.occasion D) (h.state D).ledger = some j.owner) ∧ j.turn < h.length := by
  rcases ha with ⟨hcall, -, -, horigin⟩ | ⟨hcall, -, -, -, hhad⟩
  · obtain ⟨howner, hturn⟩ := History.of_pendingOrigin horigin
    exact ⟨⟨_, hcall, congrArg some howner.symm⟩, hturn⟩
  · obtain ⟨howner, hturn⟩ := History.of_hadFor hhad
    exact ⟨⟨_, hcall, congrArg some howner.symm⟩, hturn⟩

end SecondFactor
