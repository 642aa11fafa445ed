import SecondFactor.Proofs.Expiry
import SecondFactor.Proofs.Provenance

/-!
# Purges are not noticed

Every now and then what has expired is dropped, pending secrets with their images and tokens each on
their own. When that happens, and whether it ever does, makes no difference to what is answered, as
long as the clock does not go back: a run is answered as the run of the same turns without any
purge.

## The architecture

* **`Event`** — a turn or a purge; **`Event.answers`** — what the turns of a run are answered.
* **`SameAt.run`** — a run is answered as its turns alone; by induction on the run, with `SameAt` as
  the invariant.
* **`purges_unnoticed`** — so two runs of the same turns are answered in the same way.
-/

namespace SecondFactor

/-! ## §1 — runs with purges -/

/-- What happens to a service at one time. -/
inductive Event where
  | turn (t : Turn)
  | purgePending (now : Instant)
  | purgeSessions (now : Instant)

namespace Event

variable (D : Deployment)

/-- When an event takes place. -/
def now : Event → Instant
  | turn t => t.now
  | purgePending now | purgeSessions now => now

/-- The turn, if it is one. -/
def turn? : Event → Option Turn
  | turn t => some t
  | _ => none

/-- What an event does. The two purges do their own part of the upkeep and nothing else. -/
def next : Event → State → State
  | turn t, s => t.next D s
  | purgePending now, s =>
    { s with staging := (s.staging.purge D.pendingLifetime now).2 }
  | purgeSessions now, s => { s with sessions := Session.purge now s.sessions }

/-- The turns of a run. -/
def turns (es : List Event) : List Turn := es.filterMap turn?

/-- The state after a run. -/
def after (es : List Event) (s : State) : State := es.foldl (fun s e => e.next D s) s

/-- What the turns of a run are answered, but for the number of pending secrets that the health of
the service is told with. -/
def answers : List Event → State → List Answer
  | [], _ => []
  | turn t :: es, s => t.told D s :: answers es (t.next D s)
  | e :: es, s => answers es (e.next D s)

/-- The clock does not go back. -/
def Ordered (es : List Event) : Prop := es.Pairwise fun e e' => e.now ≤ e'.now

instance (es : List Event) : Decidable (Ordered es) :=
  inferInstanceAs (Decidable (es.Pairwise fun e e' => e.now ≤ e'.now))

end Event

open Event

/-! ## §2 — a run and its turns alone -/

/-- **A run is answered as its turns alone**, from states that differ at most in what has expired.
Induction on the run: a turn is answered in the same way, and a purge only takes place in one of the
two runs. -/
theorem SameAt.run {D : Deployment} {es : List Event} {now : Instant} {s s' : State}
    (h : SameAt D now ((turns es).flatMap Turn.names) s s') (hordered : Ordered es)
    (hnow : ∀ e ∈ es, now ≤ e.now) :
    answers D es s = answers D ((turns es).map .turn) s' ∧
      ∀ later, now ≤ later → (∀ e ∈ es, e.now ≤ later) →
        SameAt D later [] (after D es s) (after D ((turns es).map .turn) s') := by
  induction es generalizing now s s' with
  | nil => exact ⟨rfl, fun later hlater _ => h.at_later hlater⟩
  | cons e es ih =>
    -- The comparison is made at the time of the event at hand, and what had expired before has
    -- expired by then.
    obtain ⟨hfirst, hrest⟩ := List.pairwise_cons.1 hordered
    have he := hnow e List.mem_cons_self
    have hlast : ∀ later, (∀ e' ∈ e :: es, e'.now ≤ later) →
        e.now ≤ later ∧ ∀ e' ∈ es, e'.now ≤ later := fun later hlater =>
      ⟨hlater e List.mem_cons_self, fun e' he' => hlater e' (List.mem_cons_of_mem _ he')⟩
    cases e with
    | turn t =>
      obtain ⟨htold, hnext⟩ := h.turn he
      obtain ⟨hanswers, hafter⟩ := ih hnext hrest hfirst
      exact ⟨congrArg₂ List.cons htold hanswers,
        fun later _ hlater => hafter later (hlast later hlater).1 (hlast later hlater).2⟩
    | purgePending time =>
      obtain ⟨hanswers, hafter⟩ := ih (h.at_later he).purgePending hrest hfirst
      exact ⟨hanswers, fun later _ hlater => hafter later (hlast later hlater).1
        (hlast later hlater).2⟩
    | purgeSessions time =>
      obtain ⟨hanswers, hafter⟩ := ih (h.at_later he).purgeSessions hrest hfirst
      exact ⟨hanswers, fun later _ hlater => hafter later (hlast later hlater).1
        (hlast later hlater).2⟩

/-- A whole run, from the beginning of the service. -/
theorem answers_turns {D : Deployment} (gallery : Gallery) {es : List Event}
    (hordered : Ordered es) (hnames : ((turns es).flatMap Turn.names).Nodup) :
    answers D es (.initial gallery) = answers D ((turns es).map .turn) (.initial gallery) ∧
      ∀ later, (∀ e ∈ es, e.now ≤ later) → SameAt D later [] (after D es (.initial gallery))
        (after D ((turns es).map .turn) (.initial gallery)) := by
  have htidy : (State.initial gallery).staging.Tidy ((turns es).flatMap Turn.names) :=
    ⟨List.nodup_nil, (List.append_nil _).symm ▸ hnames⟩
  have hstart : ∀ now, SameAt D now ((turns es).flatMap Turn.names) (.initial gallery)
      (.initial gallery) := fun now => .refl htidy List.nodup_nil
  cases es with
  | nil => exact ⟨rfl, fun later _ => hstart later⟩
  | cons e es =>
    have hnow : ∀ e' ∈ e :: es, e.now ≤ e'.now := by
      intro e' he'
      rcases List.mem_cons.1 he' with rfl | he'
      · exact Int.le_refl _
      · exact (List.pairwise_cons.1 hordered).1 e' he'
    obtain ⟨hanswers, hafter⟩ := (hstart e.now).run hordered hnow
    exact ⟨hanswers, fun later hlater => hafter later (hlater e List.mem_cons_self) hlater⟩

/-- **Purges are not noticed.** Two runs that have the same turns, with purges wherever, are
answered in the same way, if the clock does not go back and no two set-ups draw the same name for an
image. Afterwards they differ at most in what has expired. -/
theorem purges_unnoticed {D : Deployment} {gallery : Gallery} {es es' : List Event}
    (hturns : turns es = turns es') (hordered : Ordered es) (hordered' : Ordered es')
    (hnames : ((turns es).flatMap Turn.names).Nodup) :
    answers D es (.initial gallery) = answers D es' (.initial gallery) ∧
      ∀ later, (∀ e ∈ es ++ es', e.now ≤ later) →
        SameAt D later [] (after D es (.initial gallery)) (after D es' (.initial gallery)) := by
  obtain ⟨hanswers, hafter⟩ := answers_turns (D := D) gallery hordered hnames
  obtain ⟨hanswers', hafter'⟩ := answers_turns (D := D) gallery hordered' (hturns ▸ hnames)
  rw [hturns] at hanswers hafter
  refine ⟨hanswers.trans hanswers'.symm, fun later hlater => ?_⟩
  have hes := hafter later fun e he => hlater e (List.mem_append_left _ he)
  have hes' := hafter' later fun e he => hlater e (List.mem_append_right _ he)
  exact hes.trans hes'.symm

/-! An account is registered, logs in and sets its second factor up twice, the second time after the
first secret has expired. -/

/-- The run, in which what has expired is dropped before the second set-up, or is not. -/
def Event.resuming (purges : List Event) : List Event :=
  [.turn (.posting 1 "/api/register" none "\x7b\"email\":\"a@b.c\",\"password\":\"password\"\x7d"),
    .turn (.posting 2 "/api/login" none "\x7b\"email\":\"a@b.c\",\"password\":\"password\"\x7d"),
    .turn (.posting 3 "/api/2fa/setup" (some 2) "\x7b\"password\":\"password\"\x7d")] ++ purges ++
  [.turn (.posting 24 "/api/2fa/setup" (some 2) "\x7b\"password\":\"password\"\x7d")]

/-- What is dropped. -/
def Event.sweeping : List Event := [.purgePending (.ofUnix 700 0), .purgeSessions (.ofUnix 700 0)]

/-- A secret and its image are dropped, and the answers are the same. -/
theorem purges_unnoticed_resuming :
    ((after .transparent ((resuming sweeping).take 5) (.initial .missing)).staging.entries = [] ∧
      (after .transparent ((resuming []).take 3) (.initial .missing)).staging.entries.length = 1) ∧
    answers .transparent (resuming sweeping) (.initial .missing) =
      answers .transparent (resuming []) (.initial .missing) := by
  refine ⟨by decide +kernel, ?_⟩
  exact And.left (purges_unnoticed rfl (by decide +kernel) (by decide +kernel) (by decide +kernel))

end SecondFactor
