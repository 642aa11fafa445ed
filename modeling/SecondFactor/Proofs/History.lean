import SecondFactor.Proofs.Http.Calls
import SecondFactor.Proofs.Laws
import SecondFactor.Proofs.Service.Outcomes

/-!
# Histories of the service

A history is a run of a service that starts without accounts: one turn after the other, each a
request or a call, with its time, its random values, and the mishaps that lie ahead of it. Nothing
is said about a turn here but that it happened; what a statement needs of the turns, such as a clock
that does not go back, it says with `History.All`, and what happened at some time with
`History.Any`.

## The architecture

* **`Turn`** — what happens at one time; **`Turn.next`** — the state after it.
* **`History`** — the turns in order, with the state that they lead to.
* **`Turn.next_cases`** — a turn does nothing, or what one call does.
-/

namespace SecondFactor

open Service (Call Reply)

/-! ## Looking at a state -/

namespace State

variable (D : Deployment) (s : State) (owner : Uuid) (word : String)

/-- Whether the second factor of an account is on. -/
def enabled : Bool := (s.ledger.records.get? owner).any (·.enabled)

/-- The secret in the main copy of an account, under the key of a word. -/
def mainSecret? : Option Otp.Secret :=
  ((s.ledger.records.get? owner).bind (·.main)).bind fun main =>
    (Otp.Secret.unwrap D.primitives main (D.kdf.derive D.primitives word)).toOption

variable {s owner} in
theorem enabled_of_row {row : FactorRecord} (hrow : s.ledger.records.get? owner = some row)
    (h : row.enabled = true) : s.enabled owner = true := by
  rw [State.enabled, hrow]
  exact h

end State

/-! ## Turns -/

/-- What is asked of the service. -/
inductive Act where
  | request (r : Http.Request)
  | call (c : Call)

/-- What happens at one time. -/
structure Turn where
  now : Instant
  draws : Draws
  /-- The mishaps that lie ahead. -/
  mishaps : Mishaps
  act : Act

namespace Turn

variable (D : Deployment) (t : Turn) (s : State)

/-- What a call finds in a turn besides the state. -/
def occasion : Occasion := ⟨D, t.now, t.draws⟩

/-- The state in which the call of a turn is made: the mishaps of the turn lie ahead. -/
def facing : State := { s with mishaps := t.mishaps }

/-- The state after a turn. -/
def next : State :=
  match t.act with
  | .request r => ((Http.respond (t.occasion D) r).run (t.facing s)).2
  | .call c => ((Service.perform (t.occasion D) c).exec (t.facing s)).2

/-- The call that is made in the turn, if one is. -/
def call? : Option Call :=
  match t.act with
  | .request r => Http.call? (t.occasion D) (t.facing s) r
  | .call c => some c

/-- How the call of the turn ends, if one is made. -/
def outcome : Option (Except Failure Reply) :=
  (t.call? D s).map fun c => ((Service.perform (t.occasion D) c).exec (t.facing s)).1

/-- Why the call of the turn is refused, if it is. -/
def failure? : Option Failure :=
  (t.outcome D s).bind fun
    | .ok _ => none
    | .error failure => some failure

/-- Whether the record of an account is on before the turn and after it. -/
def staysOn (owner : Uuid) : Bool := s.enabled owner && (t.next D s).enabled owner

/-- The clock reading leaves room for the lifetimes of tokens. -/
def Datable : Prop :=
  (t.now.after? D.sessionLifetimes.access).isSome = true ∧
    (t.now.after? D.sessionLifetimes.refresh).isSome = true

/-- The call of the turn was answered. -/
def answers : Prop := ∃ reply, t.outcome D s = some (.ok reply)

instance : Decidable (t.answers D s) :=
  decidable_of_iff ((t.outcome D s).any (·.toBool) = true) <| by
    unfold answers
    cases t.outcome D s with
    | none => exact ⟨nofun, fun ⟨_, h⟩ => nomatch h⟩
    | some r => cases r with
      | error failure => exact ⟨nofun, fun ⟨_, h⟩ => nomatch h⟩
      | ok reply => exact ⟨fun _ => ⟨reply, rfl⟩, fun _ => rfl⟩

variable {D t s}

/-- **A turn does nothing, or what one call does.** A request that asks for no call is answered
without a look at any store. -/
theorem next_cases (D : Deployment) (t : Turn) (s : State) :
    (t.call? D s = none ∧ t.outcome D s = none ∧ t.next D s = t.facing s) ∨
      ∃ c r, t.call? D s = some c ∧ t.outcome D s = some r ∧
        (Service.perform (t.occasion D) c).Ends (t.facing s) r (t.next D s) := by
  have hnext : t.next D s = Http.stateAfter (t.occasion D) (t.facing s) (t.call? D s) := by
    unfold next call?
    cases t.act with
    | request r => exact Http.respond_state _ _ _
    | call c => rfl
  unfold outcome
  cases hcall : t.call? D s with
  | none =>
    rw [hcall] at hnext
    exact .inl ⟨rfl, rfl, hnext⟩
  | some c =>
    rw [hcall] at hnext
    refine .inr ⟨c, _, rfl, rfl, ?_⟩
    rw [hnext]
    exact Op.ends_exec _ _

theorem ends_of_call {c : Call} (hcall : t.call? D s = some c) :
    ∃ r, t.outcome D s = some r ∧
      (Service.perform (t.occasion D) c).Ends (t.facing s) r (t.next D s) := by
  rcases t.next_cases D s with ⟨hnone, -, -⟩ | ⟨other, r, hother, hout, hends⟩
  · cases hnone.symm.trans hcall
  · obtain rfl := Option.some.inj (hother.symm.trans hcall)
    exact ⟨r, hout, hends⟩

/-- A turn at the start of a step of thirty seconds, with random values of its own. -/
def inStep (step : UInt8) (act : Act) (stale : Option FactorRecord := none) : Turn where
  now := .ofUnix (30 * step.toNat) 0
  draws := .ofByte step
  mishaps := { staleRecord := stale }
  act

end Turn

/-! ## Runs -/

/-- A run of the service from its beginning. -/
inductive History where
  | start (gallery : Gallery)
  | turn (h : History) (t : Turn)

namespace History

variable (D : Deployment)

/-- The state that a history leads to. -/
def state : History → State
  | start gallery => .initial gallery
  | turn h t => t.next D (state h)

/-- The number of turns. -/
def length : History → Nat
  | start _ => 0
  | turn h _ => h.length + 1

/-- Every turn is as said, after what came before it. -/
def All (p : History → Turn → Prop) : History → Prop
  | start _ => True
  | turn h t => h.All p ∧ p h t

instance decidableAll (p : History → Turn → Prop) [∀ h t, Decidable (p h t)] :
    ∀ h : History, Decidable (h.All p)
  | start _ => .isTrue trivial
  | turn h _ => @instDecidableAnd _ _ (decidableAll p h) _

/-- Some turn is as said, after what came before it. -/
def Any (p : History → Turn → Prop) : History → Prop
  | start _ => False
  | turn h t => h.Any p ∨ p h t

instance decidableAny (p : History → Turn → Prop) [∀ h t, Decidable (p h t)] :
    ∀ h : History, Decidable (h.Any p)
  | start _ => .isFalse id
  | turn h _ => @instDecidableOr _ _ (decidableAny p h) _

variable {h : History} {p q : History → Turn → Prop}

theorem All.imp (hall : h.All p) (hpq : ∀ past t, p past t → q past t) : h.All q := by
  induction h with
  | start gallery => exact hall
  | turn h t ih => exact ⟨ih hall.1, hpq h t hall.2⟩

theorem Any.mono (hany : h.Any p) (hpq : ∀ past t, p past t → q past t) : h.Any q := by
  induction h with
  | start gallery => exact hany
  | turn h t ih => exact hany.imp ih (hpq h t)

/-- What no turn of a history did, the history never did. -/
theorem All.not_any (hall : h.All p) (hpq : ∀ past t, p past t → ¬ q past t) : ¬ h.Any q := by
  induction h with
  | start gallery => exact id
  | turn h t ih =>
    rintro (hany | hlast)
    · exact ih hall.1 hany
    · exact hpq h t hall.2 hlast

/-- What is true of every turn, after whatever came before it, is true along a history. -/
theorem all_of_forall (hp : ∀ past t, p past t) (h : History) : h.All p := by
  induction h with
  | start gallery => trivial
  | turn h t ih => exact ⟨ih, hp h t⟩

end History

end SecondFactor
