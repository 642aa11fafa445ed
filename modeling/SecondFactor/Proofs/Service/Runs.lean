import SecondFactor.Service.State

/-!
# How an operation ends

An operation is a chain of steps, and it ends where one of them fails. `Op.Ends` names the end of
an operation from a state; the lemmas here take a chain apart step by step, so that a statement
about an operation is found by walking through its text once.

## The architecture

* **`Ends`** — from a state, the operation ends with a result in a state.
* **`ends_bind`** — a chain either goes through its first step or ends there; **`ends_bind_of`** —
  the same for a first step of which only its effect and what it yields are known.
* One `ends_` lemma for each kind of step. A test says that it leaves the state and what holds when
  it is passed.
* **`ends_tryCatch`** — what is done about a failure goes on from the state that the failure left.
-/

namespace SecondFactor.Op

variable {α β : Type} {s s' : State}

/-- The result of an operation in a state, and the state that it leaves. -/
def exec (x : Op α) (s : State) : Except Failure α × State := (ExceptT.run x).run s

/-- From `s`, the operation ends with `r` in `s'`. -/
def Ends (x : Op α) (s : State) (r : Except Failure α) (s' : State) : Prop := x.exec s = (r, s')

/-- An operation ends in one way. The relation is used where a walk goes from what is known of the
end back to the steps; the function where it is computed. -/
theorem ends_iff {x : Op α} {r : Except Failure α} :
    x.Ends s r s' ↔ r = (x.exec s).1 ∧ s' = (x.exec s).2 := by
  unfold Ends
  rw [Prod.ext_iff]
  exact and_congr eq_comm eq_comm

theorem ends_exec (x : Op α) (s : State) : x.Ends s (x.exec s).1 (x.exec s).2 := rfl

/-! ## Chains -/

theorem ends_pure {a : α} {r : Except Failure α} :
    (pure a : Op α).Ends s r s' ↔ r = .ok a ∧ s' = s := ends_iff

theorem ends_throw {failure : Failure} {r : Except Failure α} :
    (throw failure : Op α).Ends s r s' ↔ r = .error failure ∧ s' = s := ends_iff

theorem exec_bind (x : Op α) (f : α → Op β) (s : State) :
    (x >>= f).exec s = match x.exec s with
      | (.ok a, t) => (f a).exec t
      | (.error failure, t) => (.error failure, t) := by
  unfold exec
  rw [ExceptT.run_bind, StateT.run_bind]
  rcases (ExceptT.run x).run s with ⟨_ | _, _⟩ <;> rfl

/-- A chain goes through its first step, or ends where that fails. Failures do not undo what was
done before them. -/
theorem ends_bind {x : Op α} {f : α → Op β} {r : Except Failure β} :
    (x >>= f).Ends s r s' ↔
      (∃ a t, x.Ends s (.ok a) t ∧ (f a).Ends t r s') ∨
        ∃ failure, x.Ends s (.error failure) s' ∧ r = .error failure := by
  unfold Ends
  rw [exec_bind]
  -- The first step fails, or it yields something and the second one goes on.
  rcases x.exec s with ⟨failure | a, t⟩
  · constructor
    · intro h
      cases h
      exact .inr ⟨failure, rfl, rfl⟩
    · rintro (⟨a, t', h, -⟩ | ⟨failure', h, rfl⟩)
      · cases h
      · cases h
        rfl
  · constructor
    · intro h
      exact .inl ⟨a, t, rfl, h⟩
    · rintro (⟨a', t', h, hf⟩ | ⟨failure', h, -⟩)
      · cases h
        exact hf
      · cases h

/-- A chain whose first step does no more than `R` and yields what `p` says: it goes on from there,
or fails with no more done. -/
theorem ends_bind_of {x : Op α} {f : α → Op β} {R : State → Prop} {p : α → Prop}
    {r : Except Failure β} (h : (x >>= f).Ends s r s')
    (hx : ∀ {q t}, x.Ends s q t → R t ∧ ∀ a, q = .ok a → p a) :
    (∃ a t, R t ∧ p a ∧ (f a).Ends t r s') ∨ (∃ failure, r = .error failure) ∧ R s' := by
  rcases ends_bind.1 h with ⟨a, t, hfirst, hrest⟩ | ⟨failure, hfirst, rfl⟩
  · obtain ⟨ht, ha⟩ := hx hfirst
    exact .inl ⟨a, t, ht, ha a rfl, hrest⟩
  · exact .inr ⟨⟨failure, rfl⟩, (hx hfirst).1⟩

/-- A chain goes on from where its first step has come to. -/
theorem ends_bind_through {t : State} {x : Op α} {f : α → Op β} {a : α} {r : Except Failure β}
    (hx : x.Ends s (.ok a) t) : (x >>= f).Ends s r s' ↔ (f a).Ends t r s' := by
  unfold Ends at hx ⊢
  rw [exec_bind, hx]

/-- A chain ends where its first step fails. -/
theorem ends_bind_stop {t : State} {x : Op α} {f : α → Op β} {failure : Failure}
    {r : Except Failure β} (hx : x.Ends s (.error failure) t) :
    (x >>= f).Ends s r s' ↔ r = .error failure ∧ s' = t := by
  rw [ends_iff, exec_bind, hx]

/-- What is made of a result afterwards changes no state. -/
theorem ends_map {x : Op α} {f : α → β} {r : Except Failure β} :
    (f <$> x).Ends s r s' ↔ ∃ q, x.Ends s q s' ∧ r = q.map f := by
  rw [map_eq_pure_bind, ends_bind]
  constructor
  · rintro (⟨a, t, hx, hf⟩ | ⟨failure, hx, rfl⟩)
    · obtain ⟨rfl, rfl⟩ := ends_pure.1 hf
      exact ⟨_, hx, rfl⟩
    · exact ⟨_, hx, rfl⟩
  · rintro ⟨failure | a, hx, rfl⟩
    · exact .inr ⟨failure, hx, rfl⟩
    · exact .inl ⟨a, s', hx, ends_pure.2 ⟨rfl, rfl⟩⟩

/-- What is done about a failure goes on from the state that the failure left. Only an activation
makes use of it, to keep its attempt. -/
theorem ends_tryCatch {x : Op α} {handler : Failure → Op α} {r : Except Failure α} :
    (tryCatch x handler).Ends s r s' ↔
      (∃ a, x.Ends s (.ok a) s' ∧ r = .ok a) ∨
        ∃ failure t, x.Ends s (.error failure) t ∧ (handler failure).Ends t r s' := by
  -- The monad takes the result apart; here it is put in terms of the run of the step.
  have hrun : (tryCatch x handler).exec s = match x.exec s with
      | (.ok a, t) => (.ok a, t)
      | (.error failure, t) => (handler failure).exec t := by
    unfold exec
    rw [ExceptT.run_tryCatch, StateT.run_bind]
    rcases (ExceptT.run x).run s with ⟨_ | _, _⟩ <;> rfl
  unfold Ends
  rw [hrun]
  rcases x.exec s with ⟨failure | a, t⟩
  · constructor
    · intro h
      exact .inr ⟨failure, t, rfl, h⟩
    · rintro (⟨a, h, -⟩ | ⟨failure', t', h, hf⟩)
      · cases h
      · cases h
        exact hf
  · constructor
    · intro h
      cases h
      exact .inl ⟨a, rfl, rfl⟩
    · rintro (⟨a', h, rfl⟩ | ⟨failure', t', h, -⟩)
      · cases h
        rfl
      · cases h

/-! ## Steps -/

theorem ends_get {r : Except Failure State} :
    (get : Op State).Ends s r s' ↔ r = .ok s ∧ s' = s := ends_iff

theorem ends_set {t : State} {r : Except Failure PUnit} :
    (set t : Op PUnit).Ends s r s' ↔ r = .ok () ∧ s' = t := ends_iff

theorem ends_refuse {cause : Cause} {r : Except Failure α} :
    (refuse cause : Op α).Ends s r s' ↔ r = .error (.refused cause) ∧ s' = s := ends_iff

theorem ends_ofResult {result r : Except Failure α} :
    (ofResult result).Ends s r s' ↔ r = result ∧ s' = s := by
  cases result <;> exact ends_iff

/-- Tests do nothing. One that is passed tells what was tested. -/
theorem ends_require {cause : Cause} {found : Option α} {r : Except Failure α}
    (h : (require cause found).Ends s r s') :
    s = s' ∧ ∀ a, r = .ok a → found = some a := by
  cases found with
  | none =>
    obtain ⟨rfl, rfl⟩ := ends_refuse.1 h
    exact ⟨rfl, nofun⟩
  | some a =>
    obtain ⟨rfl, rfl⟩ := ends_pure.1 h
    exact ⟨rfl, fun b hb => by cases hb; rfl⟩

theorem ends_ensure {cause : Cause} {condition : Bool} {r : Except Failure Unit}
    (h : (ensure cause condition).Ends s r s') :
    s = s' ∧ ∀ u, r = .ok u → condition = true := by
  cases condition with
  | false =>
    obtain ⟨rfl, rfl⟩ := ends_refuse.1 h
    exact ⟨rfl, nofun⟩
  | true => exact ⟨(ends_pure.1 h).2.symm, fun _ _ => rfl⟩

theorem ends_demand {result : Except Cause α} {r : Except Failure α}
    (h : (demand result).Ends s r s') : s = s' ∧ ∀ a, r = .ok a → result = .ok a := by
  cases result with
  | error cause =>
    obtain ⟨rfl, rfl⟩ := ends_refuse.1 h
    exact ⟨rfl, nofun⟩
  | ok a =>
    obtain ⟨rfl, rfl⟩ := ends_pure.1 h
    exact ⟨rfl, fun b hb => by cases hb; rfl⟩

theorem ends_onStaging {f : Staging → Except Failure α × Staging} {r : Except Failure α} :
    (onStaging f).Ends s r s' ↔ r = (f s.staging).1 ∧ s' = { s with staging := (f s.staging).2 } :=
  ends_iff

theorem ends_changeStaging {f : Staging → Staging} {r : Except Failure Unit} :
    (changeStaging f).Ends s r s' ↔ r = .ok () ∧ s' = { s with staging := f s.staging } :=
  ends_iff

theorem ends_onSessions {f : Session.Registry → Except Failure α × Session.Registry}
    {r : Except Failure α} :
    (onSessions f).Ends s r s' ↔
      r = (f s.sessions).1 ∧ s' = { s with sessions := (f s.sessions).2 } :=
  ends_iff

theorem ends_changeSessions {f : Session.Registry → Session.Registry} {r : Except Failure Unit} :
    (changeSessions f).Ends s r s' ↔ r = .ok () ∧ s' = { s with sessions := f s.sessions } :=
  ends_iff

end SecondFactor.Op
