import SecondFactor.Proofs.Service.Runs
import SecondFactor.Service.Database

/-!
# What a query leaves behind

A query either does its work or fails, and a mishap decides which. Nothing else of the state moves:
what a query that failed leaves behind differs from what it met only in the mishaps that are still
ahead, unless the mishap was another set-up that came in between.

## The architecture

* **`Quiet`** — ledger, tokens and pending secrets are as they were; **`Unread`** — and so is what
  the next look at a record shows.
* **`put_ends`** — every query fails, is refused, or runs on a state that is still as it was.
* One `_ends` lemma for each query of the service, by `put_ends` and the text of its transaction.
-/

namespace SecondFactor

/-! ## Mishaps -/

/-- No other set-up lies ahead: mishaps only make queries fail or refuse them. -/
def Mishaps.Plain (m : Mishaps) : Prop :=
  ∀ mishap ∈ m.queue, ∀ owner entry content, mishap.kind ≠ .preceded owner entry content

theorem Mishaps.Plain.of_nil {m : Mishaps} (h : m.queue = []) : m.Plain := by
  unfold Plain
  rw [h]
  nofun

theorem Mishaps.plain_of_queue_eq {m m' : Mishaps} (h : m'.queue = m.queue) (hm : m.Plain) :
    m'.Plain := by
  unfold Plain
  rw [h]
  exact hm

/-- What strikes was ahead, and what stays ahead was. Induction on the queue. -/
theorem Mishap.strike_kinds (q : Query) (ms : List Mishap) :
    (∀ kind, (strike q ms).1 = some kind → ∃ m ∈ ms, m.kind = kind) ∧
      ∀ m ∈ (strike q ms).2, ∃ n ∈ ms, n.kind = m.kind := by
  induction ms with
  | nil => simp [strike]
  | cons m ms ih =>
    -- The first mishap is for this query and strikes now, or waits its turn, or is for another
    -- query.
    unfold strike
    split
    · split
      · constructor
        · intro kind h
          cases h
          exact ⟨m, by simp, rfl⟩
        · exact fun n hn => ⟨n, by simp [hn], rfl⟩
      · constructor
        · intro kind h
          cases h
        · intro n hn
          rcases List.mem_cons.1 hn with rfl | hn
          · exact ⟨m, by simp, rfl⟩
          · exact ⟨n, by simp [hn], rfl⟩
    · constructor
      · intro kind h
        obtain ⟨n, hn, hkind⟩ := ih.1 kind h
        exact ⟨n, by simp [hn], hkind⟩
      · intro n hn
        rcases List.mem_cons.1 hn with rfl | hn
        · exact ⟨n, by simp, rfl⟩
        · obtain ⟨n', hn', hkind⟩ := ih.2 n hn
          exact ⟨n', by simp [hn'], hkind⟩

/-! ## Quiet states -/

/-- Nothing was done between two states. Another set-up may have come in between, if one lay
ahead. -/
structure Quiet (s s' : State) : Prop where
  ledger : s'.ledger = s.ledger
  sessions : s'.sessions = s.sessions
  staging : s.mishaps.Plain → s'.staging = s.staging
  plain : s.mishaps.Plain → s'.mishaps.Plain

theorem Quiet.refl (s : State) : Quiet s s := ⟨rfl, rfl, fun _ => rfl, id⟩

theorem Quiet.trans {s t u : State} (h : Quiet s t) (h' : Quiet t u) : Quiet s u where
  ledger := h'.ledger.trans h.ledger
  sessions := h'.sessions.trans h.sessions
  staging hp := (h'.staging (h.plain hp)).trans (h.staging hp)
  plain hp := h'.plain (h.plain hp)

/-- What the next look at the record of an account shows. -/
def State.shown (s : State) (owner : Uuid) : Option FactorRecord :=
  s.mishaps.staleRecord.or (s.ledger.records.get? owner)

/-- Nothing was done, and no record was looked at. -/
structure Unread (s s' : State) : Prop extends Quiet s s' where
  stale : s'.mishaps.staleRecord = s.mishaps.staleRecord

/-- A state is unread in itself. The relation is finer than `Quiet`: the record that is shown is the
same as well. -/
theorem Unread.refl (s : State) : Unread s s := ⟨.refl s, rfl⟩

theorem Unread.trans {s t u : State} (h : Unread s t) (h' : Unread t u) : Unread s u :=
  ⟨h.toQuiet.trans h'.toQuiet, h'.stale.trans h.stale⟩

theorem Unread.shown {s s' : State} (h : Unread s s') (owner : Uuid) :
    s'.shown owner = s.shown owner := by
  rw [State.shown, State.shown, h.stale, h.ledger]

/-- Nothing but the ledger was changed. -/
structure Writes (s : State) (l : Ledger) (s' : State) : Prop where
  ledger : s'.ledger = l
  sessions : s'.sessions = s.sessions
  staging : s.mishaps.Plain → s'.staging = s.staging
  plain : s.mishaps.Plain → s'.mishaps.Plain

theorem Quiet.write {s t : State} (h : Quiet s t) (l : Ledger) :
    Writes s l { t with ledger := l } :=
  ⟨rfl, h.sessions, h.staging, fun hp => Mishaps.plain_of_queue_eq rfl (h.plain hp)⟩

theorem Writes.after {s t u : State} {l : Ledger} (h' : Writes t l u) (h : Quiet s t) :
    Writes s l u where
  ledger := h'.ledger
  sessions := h'.sessions.trans h.sessions
  staging hp := (h'.staging (h.plain hp)).trans (h.staging hp)
  plain hp := h'.plain (h.plain hp)

namespace Database

open Op

variable {α : Type} {s s' : State}

/-! ## Queries in general -/

/-- The state in which a query runs: the mishaps have moved on, and another set-up may have come
in between. -/
theorem unread_of_queue {q : Query} :
    Unread s { s with
      mishaps := { s.mishaps with queue := (Mishap.strike q s.mishaps.queue).2 } } where
  ledger := rfl
  sessions := rfl
  staging _ := rfl
  plain hp mishap hm owner entry content hkind := by
    obtain ⟨n, hn, hsame⟩ := (Mishap.strike_kinds q s.mishaps.queue).2 mishap hm
    exact hp n hn owner entry content (hsame.trans hkind)
  stale := rfl

theorem stage_ledger (owner : Uuid) (entry : Pending) (content : Bytes) (s : State) :
    (stage owner entry content s).ledger = s.ledger ∧
      (stage owner entry content s).sessions = s.sessions ∧
      (stage owner entry content s).mishaps = s.mishaps := by
  unfold stage
  split <;> exact ⟨rfl, rfl, rfl⟩

theorem run_get (f : State → Run α) (s : State) :
    (ExceptT.run (get >>= f)).run s = (ExceptT.run (f s)).run s := rfl

/-- A query, by what befalls it: nothing, a failure, a refusal, or another set-up that comes in
before it. -/
theorem afterMishap_cases (q : Query) (refusal : Option α) (run : Run α) (s t : State)
    (ht : t = { s with
      mishaps := { s.mishaps with queue := (Mishap.strike q s.mishaps.queue).2 } }) :
    (∃ error u, (u = s ∨ u = t) ∧
      (ExceptT.run (afterMishap q refusal run)).run s = (.error error, u)) ∨
    (∃ answer, refusal = some answer ∧
      (ExceptT.run (afterMishap q refusal run)).run s = (.ok answer, t)) ∨
    (ExceptT.run (afterMishap q refusal run)).run s = (ExceptT.run run).run t ∨
    ∃ owner entry content,
      (Mishap.strike q s.mishaps.queue).1 = some (.preceded owner entry content) ∧
      (ExceptT.run (afterMishap q refusal run)).run s =
        (ExceptT.run run).run (stage owner entry content t) := by
  subst ht
  unfold afterMishap
  rw [run_get]
  cases s.mishaps.down with
  | true => exact .inl ⟨_, _, .inl rfl, rfl⟩
  | false =>
    rcases Mishap.strike q s.mishaps.queue with ⟨_ | ⟨error⟩ | _ | ⟨owner, entry, content⟩, queue⟩
    · exact .inr (.inr (.inl rfl))
    · exact .inl ⟨error, _, .inr rfl, rfl⟩
    · -- Only some queries can be refused.
      cases refusal with
      | none => exact .inr (.inr (.inl rfl))
      | some answer => exact .inr (.inl ⟨answer, rfl, rfl⟩)
    · exact .inr (.inr (.inr ⟨owner, entry, content, rfl, rfl⟩))

/-- **A query fails, is refused, or runs.** Until then nothing was done. Every query of the service
is taken apart by this, and what befalls it is not looked at again. -/
theorem put_ends {q : Query} {refusal : Option α} {run : Run α} {causeOf : DatabaseError → Cause}
    {r : Except Failure α} (h : (put q refusal run causeOf).Ends s r s') :
    (∃ error, r = .error (.refused (causeOf error)) ∧ Unread s s') ∨
      (∃ answer, refusal = some answer ∧ r = .ok answer ∧ Unread s s') ∨
      ∃ t, Unread s t ∧ r = ((ExceptT.run run).run t).1.mapError (.refused ∘ causeOf) ∧
        s' = ((ExceptT.run run).run t).2 := by
  have hput : (put q refusal run causeOf).exec s =
      (((ExceptT.run (afterMishap q refusal run)).run s).1.mapError (.refused ∘ causeOf),
        ((ExceptT.run (afterMishap q refusal run)).run s).2) := rfl
  unfold Ends at h
  rw [hput] at h
  obtain ⟨t, ht⟩ : ∃ t, t = { s with
      mishaps := { s.mishaps with queue := (Mishap.strike q s.mishaps.queue).2 } } := ⟨_, rfl⟩
  have hqueue : Unread s t := by
    rw [ht]
    exact unread_of_queue
  rcases afterMishap_cases q refusal run s t ht with ⟨error, u, hu, hrun⟩ |
    ⟨answer, hanswer, hrun⟩ | hrun | ⟨owner, entry, content, hkind, hrun⟩
  · rw [hrun] at h
    cases h
    rcases hu with rfl | rfl
    · exact .inl ⟨error, rfl, .refl u⟩
    · exact .inl ⟨error, rfl, hqueue⟩
  · rw [hrun] at h
    cases h
    exact .inr (.inl ⟨answer, hanswer, rfl, hqueue⟩)
  · rw [hrun] at h
    cases h
    exact .inr (.inr ⟨t, hqueue, rfl, rfl⟩)
  · rw [hrun] at h
    cases h
    obtain ⟨hledger, hsessions, hmishaps⟩ := stage_ledger owner entry content t
    refine .inr (.inr ⟨stage owner entry content t, ?_, rfl, rfl⟩)
    exact
      { ledger := hledger.trans hqueue.ledger
        sessions := hsessions.trans hqueue.sessions
        staging := fun hp => by
          -- The mishap lay ahead, so it is not another set-up.
          obtain ⟨m, hm, hsame⟩ := (Mishap.strike_kinds q s.mishaps.queue).1 _ hkind
          exact absurd hsame (hp m hm owner entry content)
        plain := fun hp => Mishaps.plain_of_queue_eq (by rw [hmishaps]) (hqueue.plain hp)
        stale := by rw [hmishaps, hqueue.stale] }

/-! ## Queries that only look -/

/-- A query that only looks yields what it looks at, or fails. The three that follow are cases of
it. -/
theorem look_ends {q : Query} {look : Ledger → α} {r : Except Failure α}
    (h : (put q none (transact fun l => (look l, l))).Ends s r s') :
    Unread s s' ∧ ∀ a, r = .ok a → a = look s.ledger := by
  rcases put_ends h with ⟨_, rfl, hs⟩ | ⟨_, hnone, -⟩ | ⟨t, hs, rfl, rfl⟩
  · exact ⟨hs, nofun⟩
  · cases hnone
  · refine ⟨hs, fun a ha => ?_⟩
    cases ha
    exact congrArg look hs.ledger

theorem account_ends {id : Uuid} {r : Except Failure (Option Account)}
    (h : (account id).Ends s r s') :
    Unread s s' ∧ ∀ found, r = .ok found → found = s.ledger.accounts.get? id :=
  look_ends h

theorem accountByEmail_ends {email : String} {r : Except Failure (Option (Uuid × Account))}
    (h : (accountByEmail email).Ends s r s') :
    Unread s s' ∧ ∀ found, r = .ok found → found = s.ledger.findByEmail? email :=
  look_ends h

theorem countCodes_ends {owner : Uuid} {r : Except Failure Nat}
    (h : (countCodes owner).Ends s r s') :
    Unread s s' ∧ ∀ n, r = .ok n → n = s.ledger.countCodes owner :=
  look_ends h

/-- A look at a record shows what lies ahead as a stale one, and the record itself otherwise. A
stale one is shown once, to the next look. -/
theorem record_ends {owner : Uuid} {r : Except Failure (Option FactorRecord)}
    (h : (record owner).Ends s r s') :
    Quiet s s' ∧ ∀ shown, r = .ok shown → shown = s.shown owner := by
  rcases put_ends h with ⟨_, rfl, hs⟩ | ⟨_, hnone, -⟩ | ⟨t, hs, hr, hs'⟩
  · exact ⟨hs.toQuiet, nofun⟩
  · cases hnone
  · obtain ⟨u, hlook, hu⟩ : ∃ u, (ExceptT.run (lookAtRecord owner)).run t =
        (.ok (t.shown owner), u) ∧ Quiet t u := by
      -- A stale record that lies ahead is shown once.
      rcases t with ⟨ledger, staging, sessions, down, queue, _ | row, enableFails⟩
      · exact ⟨_, rfl, .refl _⟩
      · exact ⟨_, rfl, rfl, rfl, fun _ => rfl, Mishaps.plain_of_queue_eq rfl⟩
    rw [hlook] at hr hs'
    subst hr hs'
    refine ⟨hs.toQuiet.trans hu, fun shown hshown => ?_⟩
    cases hshown
    exact hs.shown owner

/-! ## Queries that change the ledger -/

/-- A query that changes the ledger fails without a change, or makes it. The three that follow are
cases of it. -/
theorem change_ends {q : Query} {change : Ledger → Ledger} {causeOf : DatabaseError → Cause}
    {r : Except Failure Unit}
    (h : (put q none (transact fun l => ((), change l)) causeOf).Ends s r s') :
    (∃ failure, r = .error failure ∧ Unread s s') ∨
      r = .ok () ∧ Writes s (change s.ledger) s' := by
  rcases put_ends h with ⟨_, rfl, hs⟩ | ⟨_, hnone, -⟩ | ⟨t, hs, rfl, rfl⟩
  · exact .inl ⟨_, rfl, hs⟩
  · cases hnone
  · exact .inr ⟨rfl, by rw [← hs.ledger]; exact hs.write _⟩

theorem createAccount_ends {id : Uuid} {new : Account} {r : Except Failure Unit}
    (h : (createAccount id new).Ends s r s') :
    (∃ failure, r = .error failure ∧ Unread s s') ∨
      r = .ok () ∧ Writes s (s.ledger.register id new) s' :=
  change_ends h

theorem disable_ends {now : Instant} {owner : Uuid} {r : Except Failure Unit}
    (h : (disable now owner).Ends s r s') :
    (∃ failure, r = .error failure ∧ Unread s s') ∨
      r = .ok () ∧ Writes s (s.ledger.disable owner now) s' :=
  change_ends h

theorem replaceCodes_ends {owner : Uuid} {hashes : List String} {r : Except Failure Unit}
    (h : (replaceCodes owner hashes).Ends s r s') :
    (∃ failure, r = .error failure ∧ Unread s s') ∨
      r = .ok () ∧ Writes s (s.ledger.replaceCodes owner hashes) s' :=
  change_ends h

/-- A deletion that is refused answers as one that is made. -/
theorem deleteAccount_ends {id : Uuid} {r : Except Failure Unit}
    (h : (deleteAccount id).Ends s r s') :
    (∃ failure, r = .error failure ∧ Unread s s') ∨
      r = .ok () ∧ (Unread s s' ∨ Writes s (s.ledger.remove id) s') := by
  rcases put_ends h with ⟨_, rfl, hs⟩ | ⟨_, -, rfl, hs⟩ | ⟨t, hs, rfl, rfl⟩
  · exact .inl ⟨_, rfl, hs⟩
  · exact .inr ⟨rfl, .inl hs⟩
  · exact .inr ⟨rfl, .inr (by rw [← hs.ledger]; exact hs.write _)⟩

/-- A change with a condition is made and says so; it is not made and says so; or the query
failed. -/
inductive Conditional (change : Ledger → Option Ledger) (s : State) :
    Except Failure Bool → State → Prop where
  | failed {s' : State} (h : Unread s s') : Conditional change s (.error (.refused .database)) s'
  | refused {s' : State} (h : Unread s s') : Conditional change s (.ok false) s'
  | made {l : Ledger} {s' : State} (hl : change s.ledger = some l) (h : Writes s l s') :
      Conditional change s (.ok true) s'

/-- A change under a condition is made where the condition holds, and is answered by whether it was
made. -/
theorem Conditional.transacted {change : Ledger → Option Ledger} {t : State} (hs : Unread s t) :
    Conditional change s (.ok (conditional change t.ledger).1)
      { t with ledger := (conditional change t.ledger).2 } := by
  unfold conditional
  cases hl : change t.ledger with
  | none => exact .refused hs
  | some l =>
    rw [hs.ledger] at hl
    exact .made hl (hs.write l)

/-- A query of this kind fails, or is refused as if the condition did not hold, or is carried out.
The four that follow are cases of it. -/
theorem conditional_ends {q : Query} {change : Ledger → Option Ledger} {r : Except Failure Bool}
    (h : (put q (some false) (transact (conditional change))).Ends s r s') :
    Conditional change s r s' := by
  rcases put_ends h with ⟨_, rfl, hs⟩ | ⟨_, hfalse, rfl, hs⟩ | ⟨t, hs, rfl, rfl⟩
  · exact .failed hs
  · cases hfalse
    exact .refused hs
  · exact .transacted hs

theorem updateMain_ends {now : Instant} {owner : Uuid} {expected main : Bytes}
    {r : Except Failure Bool} (h : (updateMain now owner expected main).Ends s r s') :
    Conditional (fun l => l.updateMain? owner expected main now) s r s' :=
  conditional_ends h

theorem consumeCode_ends {owner : Uuid} {hash : String} {r : Except Failure Bool}
    (h : (consumeCode owner hash).Ends s r s') :
    Conditional (fun l => l.consumeCode? owner hash) s r s' :=
  conditional_ends h

theorem changePassword_ends {owner : Uuid} {hash : String} {main : Option (Bytes × Bytes)}
    {r : Except Failure Bool} (h : (changePassword owner hash main).Ends s r s') :
    Conditional (fun l => l.changePassword? owner hash main) s r s' :=
  conditional_ends h

theorem recoverPassword_ends {owner : Uuid} {expected hash : String} {copies : Copies}
    {r : Except Failure Bool} (h : (recoverPassword owner expected hash copies).Ends s r s') :
    Conditional (fun l => l.recover? owner expected hash copies) s r s' :=
  conditional_ends h

/-- Turning a second factor on can also fail by itself, before the ledger is looked at. A failure of
this kind is not among the mishaps of a query, so it is put in here. -/
theorem enable_ends {now : Instant} {owner : Uuid} {copies : Copies} {r : Except Failure Bool}
    (h : (enable now owner copies).Ends s r s') :
    Conditional (fun l => l.enable? owner copies now) s r s' := by
  rcases put_ends h with ⟨_, rfl, hs⟩ | ⟨_, hfalse, rfl, hs⟩ | ⟨t, hs, rfl, rfl⟩
  · exact .failed hs
  · cases hfalse
    exact .refused hs
  · -- What it can fail by is a flag that is taken down in passing.
    have hrun : (ExceptT.run (enroll now owner copies)).run t =
        if t.mishaps.enableFails then
          (.error ⟨none⟩, { t with mishaps := { t.mishaps with enableFails := false } })
        else (.ok (conditional (fun l => l.enable? owner copies now) t.ledger).1,
          { t with ledger := (conditional (fun l => l.enable? owner copies now) t.ledger).2 }) := by
      show (ExceptT.run (do
        if t.mishaps.enableFails then
          set { t with mishaps := { t.mishaps with enableFails := false } }
          throw ⟨none⟩
        transact (conditional fun l => l.enable? owner copies now) : Run Bool)).run t = _
      cases t.mishaps.enableFails <;> rfl
    rw [hrun]
    split
    · refine .failed (hs.trans ?_)
      exact ⟨⟨rfl, rfl, fun _ => rfl, Mishaps.plain_of_queue_eq rfl⟩, rfl⟩
    · exact .transacted hs

end Database

end SecondFactor
