import SecondFactor.Proofs.Service.Outcomes

/-!
# What a stale record changes

A record that is shown in the place of the current one is looked at once. Until then an operation
does not depend on it, and from then on only through what the look has shown. A verification uses
nothing of a record but its main copy, so a stale record with the current main copy makes no
difference to it.

## The architecture

* **`Op.Blind`** — an operation does not look at a record.
* **`Database.afterMishap_shape`** — until a query runs, it does not either.
* **`Op.Indifferent`** — an operation does the same whether or not the stale record is shown.
* **`validate_indifferent`** — so does a verification, if the main copies are the same.
-/

namespace SecondFactor

/-- A state in which a record is shown in the place of the current one, or none is. -/
def State.withStale (s : State) (stale : Option FactorRecord) : State :=
  { s with mishaps := { s.mishaps with staleRecord := stale } }

namespace Op

variable {α β : Type} {s : State} {row : FactorRecord}

/-- The operation does not look at a record: what would be shown is still to be shown. -/
def Blind (x : Op α) : Prop :=
  ∀ s stale, x.exec (s.withStale stale) = ((x.exec s).1, (x.exec s).2.withStale stale)

/-- A chain of steps is blind if each of them is. -/
theorem Blind.bind {x : Op α} {f : α → Op β} (hx : x.Blind) (hf : ∀ a, (f a).Blind) :
    (x >>= f).Blind := by
  intro s stale
  rw [exec_bind, exec_bind, hx s stale]
  rcases x.exec s with ⟨failure | a, t⟩
  · rfl
  · exact hf a t stale

theorem blind_ofResult (result : Except Failure α) : (ofResult result).Blind := by
  cases result with
  | ok a => exact fun s stale => rfl
  | error failure => exact fun s stale => rfl

theorem blind_require (cause : Cause) (found : Option α) : (require cause found).Blind := by
  cases found with
  | some a => exact fun s stale => rfl
  | none => exact fun s stale => rfl

theorem blind_ensure (cause : Cause) (condition : Bool) : (ensure cause condition).Blind := by
  cases condition with
  | true => exact fun s stale => rfl
  | false => exact fun s stale => rfl

/-- The operation ends in the same way, and leaves the same, whether or not the stale record is
shown. It need not have been looked at. -/
def Indifferent (x : Op α) (row : FactorRecord) (s : State) : Prop :=
  (x.exec (s.withStale (some row))).1 = (x.exec (s.withStale none)).1 ∧
    (x.exec (s.withStale (some row))).2.withStale none =
      (x.exec (s.withStale none)).2.withStale none

/-- A chain is indifferent if its first step is blind and the rest is indifferent wherever that may
lead. -/
theorem Indifferent.of_bind {x : Op α} {f : α → Op β} (hx : x.Blind)
    (hf : ∀ a t, x.Ends s (.ok a) t → (f a).Indifferent row t) : (x >>= f).Indifferent row s := by
  unfold Indifferent
  rw [exec_bind, exec_bind, hx s, hx s]
  generalize hends : x.exec s = found
  rcases found with ⟨failure | a, t⟩
  · exact ⟨rfl, rfl⟩
  · exact hf a t hends

end Op

namespace Database

open Op

variable {α β : Type}

/-- Another set-up in between does not touch what would be shown. -/
theorem stage_withStale (owner : Uuid) (entry : Pending) (content : Bytes) (s : State)
    (stale : Option FactorRecord) :
    stage owner entry content (s.withStale stale) =
      (stage owner entry content s).withStale stale := by
  unfold stage State.withStale
  dsimp only
  cases s.staging.enter owner entry content with
  | ok staging => rfl
  | error cause => rfl

/-- **A query ends without having run, or runs on a ledger that is still as it was**, and in either
case does not depend until then on what would be shown. -/
theorem afterMishap_shape (q : Query) (refusal : Option α) (s : State) :
    (∃ (result : Except DatabaseError α) (u : State),
      (∀ answer, result = .ok answer → refusal = some answer) ∧ ∀ run stale,
        (ExceptT.run (afterMishap q refusal run)).run (s.withStale stale) =
          (result, u.withStale stale)) ∨
    ∃ u : State, u.ledger = s.ledger ∧ ∀ run stale,
      (ExceptT.run (afterMishap q refusal run)).run (s.withStale stale) =
        (ExceptT.run run).run (u.withStale stale) := by
  rcases s with ⟨ledger, staging, sessions, down, queue, current, enableFails⟩
  simp only [afterMishap, run_get, State.withStale]
  cases down with
  | true =>
    let u : State := ⟨ledger, staging, sessions, true, queue, current, enableFails⟩
    exact .inl ⟨.error ⟨none⟩, u, nofun, fun _ _ => rfl⟩
  | false =>
    rcases Mishap.strike q queue with ⟨kind, rest⟩
    let u : State := ⟨ledger, staging, sessions, false, rest, current, enableFails⟩
    rcases kind with _ | error | _ | ⟨owner, entry, content⟩
    · exact .inr ⟨u, rfl, fun _ _ => rfl⟩
    · exact .inl ⟨.error error, u, nofun, fun _ _ => rfl⟩
    · cases refusal with
      | none => exact .inr ⟨u, rfl, fun _ _ => rfl⟩
      | some answer =>
        have hanswer : ∀ other, (.ok answer : Except DatabaseError α) = .ok other →
            some answer = some other := fun _ h => congrArg some (Except.ok.inj h)
        exact .inl ⟨.ok answer, u, hanswer, fun _ _ => rfl⟩
    · -- The other set-up comes in between, whatever would be shown.
      refine .inr ⟨stage owner entry content u, (stage_ledger owner entry content u).1, ?_⟩
      intro run stale
      show (ExceptT.run run).run (stage owner entry content (u.withStale stale)) = _
      rw [stage_withStale]
      rfl

theorem put_exec (q : Query) (refusal : Option α) (run : Run α) (causeOf : DatabaseError → Cause)
    (s : State) : (put q refusal run causeOf).exec s =
      (((ExceptT.run (afterMishap q refusal run)).run s).1.mapError (.refused ∘ causeOf),
        ((ExceptT.run (afterMishap q refusal run)).run s).2) :=
  rfl

/-- A query of the ledger does not look at what would be shown. -/
theorem blind_transact {q : Query} {refusal : Option α} {f : Ledger → α × Ledger}
    {causeOf : DatabaseError → Cause} : (put q refusal (transact f) causeOf).Blind := by
  intro s stale
  -- The state itself is the one in which the record is shown that lies ahead.
  have hself : s = s.withStale s.mishaps.staleRecord := rfl
  have hstale : (s.withStale s.mishaps.staleRecord).withStale stale = s.withStale stale := rfl
  rw [hself, put_exec, put_exec, hstale]
  rcases afterMishap_shape q refusal s with ⟨result, u, -, hends⟩ | ⟨u, -, hruns⟩
  · rw [hends, hends]
    rfl
  · rw [hruns, hruns]
    rfl

/-- The look at a record shows the stale one, or the record itself, and is over. -/
theorem record_shape (owner : Uuid) (row : FactorRecord) (s : State) :
    (∃ (failure : Failure) (u : State), ∀ stale, (record owner).exec (s.withStale stale) =
      (.error failure, u.withStale stale)) ∨
    ∃ u : State, (record owner).exec (s.withStale (some row)) = (.ok (some row), u) ∧
      (record owner).exec (s.withStale none) = (.ok (s.ledger.records.get? owner), u) := by
  unfold record
  rcases afterMishap_shape (α := Option FactorRecord) .findRecord none s with
    ⟨result, u, hrefusal, hends⟩ | ⟨u, hledger, hruns⟩
  · left
    cases result with
    | ok answer => cases hrefusal answer rfl
    | error error =>
      refine ⟨.refused .database, u, fun stale => ?_⟩
      rw [put_exec, hends]
      rfl
  · right
    refine ⟨u.withStale none, ?_, ?_⟩
    · rw [put_exec, hruns]
      rfl
    · rw [put_exec, hruns, ← hledger]
      rfl

/-- What follows the look at a record is indifferent, if it is the same for the stale record as for
the current one. -/
theorem indifferent_of_record {owner : Uuid} {row : FactorRecord} {s : State}
    {f : Option FactorRecord → Op β} (hf : f (some row) = f (s.ledger.records.get? owner)) :
    (record owner >>= f).Indifferent row s := by
  unfold Indifferent
  rw [exec_bind, exec_bind]
  rcases record_shape owner row s with ⟨failure, u, hfails⟩ | ⟨u, hstale, hcurrent⟩
  · rw [hfails, hfails]
    exact ⟨rfl, rfl⟩
  · rw [hstale, hcurrent]
    dsimp only
    rw [hf]
    exact ⟨rfl, rfl⟩

end Database

namespace Service

open Op

variable (o : Occasion) (session : Session) (password code : String)

/-! ## Verifications -/

theorem blind_ensureUnverified (claim : Claim) : (ensureUnverified claim).Blind := by
  cases claim with
  | on | verified | empty | off => exact fun s stale => rfl

theorem blind_confirmPassword (owner : Uuid) : (confirmPassword o owner password).Blind :=
  .bind (.bind Database.blind_transact fun found => blind_require _ found) fun _ =>
    .bind (.bind (blind_ofResult _) fun verdict => blind_ensure _ verdict) fun _ _ _ => rfl

/-- A verification with the copies that were shown. -/
def validateWith (copies : Copies) : Op Session.Tokens := do
  let secret ← openMain o copies password
  let check ← checkCode o secret code
  let main := Outcome.recheckedMain o password check
  let kept ← Database.updateMain o.now session.owner copies.main main
  Op.ensure .codeInvalid kept
  Op.ensure .codeInvalid check.verified
  reissue o session .verified

/-- A verification is taken apart at the look at its record. -/
theorem validate_eq : validate o session password code =
    (ensureUnverified session.claim >>= fun _ => confirmPassword o session.owner password >>=
      fun _ => Database.record session.owner >>= fun shown =>
        Op.require .notEnabled (shown.bind FactorRecord.active?) >>=
          validateWith o session password code) := by
  unfold validate checkMain activeCopies validateWith
  simp only [bind_assoc, pure_bind]
  rfl

theorem validateWith_congr {copies copies' : Copies} (h : copies.main = copies'.main) :
    validateWith o session password code copies = validateWith o session password code copies' := by
  unfold validateWith openMain
  rw [h]

/-- **A verification with a stale record that has the current main copy** ends as one with the
current record. -/
theorem validate_indifferent {row current : FactorRecord} {copies copies' : Copies} {s : State}
    (hstale : row.active? = some copies)
    (hrow : s.ledger.records.get? session.owner = some current)
    (hcurrent : current.active? = some copies') (hmain : copies.main = copies'.main) :
    (validate o session password code).Indifferent row s := by
  rw [validate_eq]
  refine .of_bind (blind_ensureUnverified session.claim) fun _ t ht => ?_
  obtain ⟨rfl, -⟩ := ensureUnverified_ends ht
  refine .of_bind (blind_confirmPassword o password session.owner) fun account u hu => ?_
  have hledger := (confirmPassword_ends hu).1.ledger
  refine Database.indifferent_of_record ?_
  rw [hledger, hrow]
  show Op.require .notEnabled row.active? >>= _ = Op.require .notEnabled current.active? >>= _
  rw [hstale, hcurrent]
  exact validateWith_congr o session password code hmain

end Service

end SecondFactor
