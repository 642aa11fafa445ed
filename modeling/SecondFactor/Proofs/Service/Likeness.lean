import SecondFactor.Proofs.Locality
import SecondFactor.Proofs.Service.Staleness
import Mathlib.Data.List.Perm.Subperm

/-!
# States that are alike

Two states can differ in much that an operation for one account never comes to see. Whether it ends
in the same way in both is settled step by step: each step has to yield the same in both, and to
leave states that are alike again. What that means is said here once, for any notion of likeness; a
particular one only has to say what the few steps do that touch a store.

Of a record, an operation reads only what it holds, and only if it is on. So two records, or a
record and none, may stand for each other, unless the operation asks whether there is one.

## The architecture

* **`Op.Paired`** — two operations end in two states with results that are related, and leave them
  related; **`Op.Parallel`**, **`Op.Steady`** — one operation ends with one result in two states, or
  in any two that are related.
* **`Arrival`** — a set-up that is still to come, by a mishap or by the operation itself.
* **`SameContents`** — two records hold the same, as far as operations read it.
* **`Likeness`** — a notion of likeness, store by store; **`Likeness.Rel`** — two states are alike.
* **`Likeness.Lawful`**, **`Likeness.Serves`** — what it has to say about set-ups, and about the
  steps that are made for an account; **`Likeness.Knows`** — and about whether there is a record.
-/

namespace SecondFactor

/-! ## §1 — one operation, two states -/

/-- Both results are the same failure, or what was yielded is related. -/
inductive Matched {ε α β : Type} (A : α → β → Prop) : Except ε α → Except ε β → Prop where
  | ok {a : α} {b : β} (h : A a b) : Matched A (.ok a) (.ok b)
  | error (e : ε) : Matched A (.error e) (.error e)

namespace Matched

variable {ε ε' α β : Type} {A : α → β → Prop}

theorem mapError {r : Except ε α} {r' : Except ε β} (h : Matched A r r') (f : ε → ε') :
    Matched A (r.mapError f) (r'.mapError f) := by
  cases h with
  | ok h => exact .ok h
  | error e => exact .error (f e)

theorem refl {A : α → α → Prop} (hA : ∀ a, A a a) (r : Except ε α) : Matched A r r := by
  cases r with
  | ok a => exact .ok (hA a)
  | error e => exact .error e

theorem eq_iff {r r' : Except ε α} : Matched Eq r r' ↔ r = r' := by
  constructor
  · rintro (rfl | e) <;> rfl
  · rintro rfl
    exact .refl (fun _ => rfl) r

end Matched

namespace Op

variable {α β α' β' : Type} {R R' : State → State → Prop} {s t : State}

/-- From two states two operations end with results that are related, in states that are related. -/
def Paired (A : α → β → Prop) (x : Op α) (y : Op β) (R : State → State → Prop) (s t : State) :
    Prop :=
  Matched A (x.exec s).1 (y.exec t).1 ∧ R (x.exec s).2 (y.exec t).2

/-- Two chains, whose last steps may leave the states in a weaker relation. -/
theorem Paired.bind {A : α → β → Prop} {B : α' → β' → Prop} {x : Op α} {y : Op β} {f : α → Op α'}
    {g : β → Op β'} (hxy : Paired A x y R s t) (hR : ∀ {s' t'}, R s' t' → R' s' t')
    (hfg : ∀ a b s' t', x.Ends s (.ok a) s' → A a b → R s' t' → Paired B (f a) (g b) R' s' t') :
    Paired B (x >>= f) (y >>= g) R' s t := by
  obtain ⟨hresult, hstates⟩ := hxy
  have hends : x.Ends s (x.exec s).1 (x.exec s).2 := ends_exec x s
  unfold Paired
  rw [exec_bind, exec_bind]
  generalize x.exec s = found at hresult hstates hends
  generalize y.exec t = found' at hresult hstates
  obtain ⟨r, s'⟩ := found
  obtain ⟨r', t'⟩ := found'
  cases hresult with
  | error failure => exact ⟨.error failure, hR hstates⟩
  | ok hab => exact hfg _ _ s' t' hends hab hstates

/-- What is made of two related results is related, if the makers keep the relation. -/
theorem Paired.map {A : α → β → Prop} {B : α' → β' → Prop} {x : Op α} {y : Op β} {f : α → α'}
    {g : β → β'} (hxy : Paired A x y R s t) (hfg : ∀ {a b}, A a b → B (f a) (g b)) :
    Paired B (f <$> x) (g <$> y) R s t := by
  rw [map_eq_pure_bind, map_eq_pure_bind]
  exact hxy.bind id fun a b s' t' _ hab hst => ⟨.ok (hfg hab), hst⟩

/-- From two states the operation ends with the same result, in states that are related. -/
def Parallel (x : Op α) (R : State → State → Prop) (s t : State) : Prop :=
  (x.exec s).1 = (x.exec t).1 ∧ R (x.exec s).2 (x.exec t).2

/-- It does so from any two states that are related. -/
def Steady (x : Op α) (R : State → State → Prop) : Prop := ∀ s t, R s t → x.Parallel R s t

theorem parallel_of_ends {x : Op α} {r r' : Except Failure α} {s' t' : State}
    (hs : x.Ends s r s') (ht : x.Ends t r' t') (hresult : r = r') (hstates : R s' t') :
    x.Parallel R s t := by
  unfold Ends at hs ht
  unfold Parallel
  rw [hs, ht]
  exact ⟨hresult, hstates⟩

/-- One operation in two states is the case in which both sides are the same operation. All that
follows is proved of pairs where it can be. -/
theorem parallel_iff {x : Op α} : x.Parallel R s t ↔ Paired Eq x x R s t :=
  and_congr_left' Matched.eq_iff.symm

/-- A chain, whose last step may leave the states in a weaker relation. -/
theorem Parallel.bind {x : Op α} {f : α → Op β} (hx : x.Parallel R s t)
    (hR : ∀ {s' t'}, R s' t' → R' s' t')
    (hf : ∀ a s' t', x.Ends s (.ok a) s' → R s' t' → (f a).Parallel R' s' t') :
    (x >>= f).Parallel R' s t := by
  refine parallel_iff.2 ((parallel_iff.1 hx).bind hR ?_)
  rintro a _ s' t' hends rfl hst
  exact parallel_iff.1 (hf a s' t' hends hst)

/-- The same step in both, and then two that may differ. -/
theorem Steady.bind_paired {A : α' → β' → Prop} {x : Op α} {f : α → Op α'} {g : α → Op β'}
    (hx : x.Steady R) (hfg : ∀ a s' t', R s' t' → Paired A (f a) (g a) R s' t') (h : R s t) :
    Paired A (x >>= f) (x >>= g) R s t := by
  refine (parallel_iff.1 (hx s t h)).bind id ?_
  rintro a _ s' t' - rfl hst
  exact hfg a s' t' hst

theorem Parallel.map {x : Op α} {g : α → β} (hx : x.Parallel R s t) :
    (g <$> x).Parallel R s t := by
  rw [map_eq_pure_bind]
  exact hx.bind id fun a s' t' _ hst => ⟨rfl, hst⟩

/-- **A chain of steady steps is steady.** With this an operation is walked through step by step,
and no state has to be named. -/
theorem Steady.bind {x : Op α} {f : α → Op β} (hx : x.Steady R) (hf : ∀ a, (f a).Steady R) :
    (x >>= f).Steady R := by
  intro s t h
  exact (hx s t h).bind id fun a s' t' _ hst => hf a s' t' hst

theorem Steady.map {x : Op α} {g : α → β} (hx : x.Steady R) : (g <$> x).Steady R :=
  fun s t h => (hx s t h).map

/-- A step with a remedy for its failure is steady if both are. The two states have the same
failure, so the same remedy is used. -/
theorem steady_tryCatch {x : Op α} {handler : Failure → Op α} (hx : x.Steady R)
    (hhandler : ∀ failure, (handler failure).Steady R) :
    (tryCatch x handler).Steady R := by
  intro s t h
  obtain ⟨hresult, hstates⟩ := hx s t h
  have hs := ends_exec x s
  have ht := ends_exec x t
  -- Both runs of the step have ended the same way; only how they ended is needed from here on.
  generalize x.exec s = found at hresult hstates hs
  generalize x.exec t = found' at hresult hstates ht
  obtain ⟨r, s'⟩ := found
  obtain ⟨r', t'⟩ := found'
  obtain rfl : r = r' := hresult
  cases r with
  | ok a =>
    have hs : (tryCatch x handler).Ends s (.ok a) s' := ends_tryCatch.2 (.inl ⟨a, hs, rfl⟩)
    have ht : (tryCatch x handler).Ends t (.ok a) t' := ends_tryCatch.2 (.inl ⟨a, ht, rfl⟩)
    exact parallel_of_ends hs ht rfl hstates
  | error failure =>
    obtain ⟨hresult, hstates⟩ := hhandler failure s' t' hstates
    have hs := ends_tryCatch.2 (.inr ⟨failure, s', hs, ends_exec (handler failure) s'⟩)
    have ht := ends_tryCatch.2 (.inr ⟨failure, t', ht, ends_exec (handler failure) t'⟩)
    exact parallel_of_ends hs ht hresult hstates

/-- What is done with the state itself is the same, if that makes no difference to it. -/
theorem parallel_get {f : State → Op α} (hsame : f t = f s) (hf : (f s).Parallel R s t) :
    (get >>= f).Parallel R s t := by
  have hs : (get >>= f).exec s = (f s).exec s := rfl
  have ht : (get >>= f).exec t = (f s).exec t := by
    rw [← hsame]
    rfl
  rw [Parallel, hs, ht]
  exact hf

/-! A step that does not look at the state. -/

theorem steady_pure (a : α) : (pure a : Op α).Steady R := fun _ _ h => ⟨rfl, h⟩

theorem steady_throw (failure : Failure) : (throw failure : Op α).Steady R := fun _ _ h => ⟨rfl, h⟩

theorem steady_refuse (cause : Cause) : (refuse cause : Op α).Steady R := fun _ _ h => ⟨rfl, h⟩

theorem steady_ofResult (result : Except Failure α) : (ofResult result).Steady R := by
  cases result with
  | ok a => exact steady_pure a
  | error failure => exact steady_throw failure

theorem steady_demand (result : Except Cause α) : (demand result).Steady R := by
  cases result with
  | ok a => exact steady_pure a
  | error cause => exact steady_refuse cause

theorem steady_require (cause : Cause) (found : Option α) : (require cause found).Steady R := by
  cases found with
  | some a => exact steady_pure a
  | none => exact steady_refuse cause

theorem steady_ensure (cause : Cause) (condition : Bool) : (ensure cause condition).Steady R := by
  cases condition with
  | true => exact steady_pure ()
  | false => exact steady_refuse cause

end Op

/-! ## §2 — notions of likeness -/

/-- A set-up that is still to come: the account that it is for, and the name of its image. -/
abbrev Arrival := Uuid × ImageRef

/-- The set-up that a mishap lets in between, with the name of its image. -/
def Mishap.Kind.arrival? : Mishap.Kind → Option Arrival
  | .preceded owner entry _ => some (owner, entry.image)
  | _ => none

/-- The set-ups that come by mishaps. -/
def Mishap.arrivals (queue : List Mishap) : List Arrival :=
  queue.filterMap fun mishap => mishap.kind.arrival?

/-- The set-ups that lie ahead are the one that comes now, if one does, and those that lie ahead
then. Induction on the queue. -/
theorem Mishap.arrivals_strike (q : Query) (queue : List Mishap) :
    (((strike q queue).1.bind Kind.arrival?).toList ++ arrivals (strike q queue).2).Perm
      (arrivals queue) := by
  induction queue with
  | nil => exact .nil
  | cons m ms ih =>
    unfold strike
    split
    · split
      · -- The first mishap strikes.
        unfold arrivals
        rw [List.filterMap_cons, Option.bind_some]
        cases m.kind.arrival? with
        | none => exact .refl _
        | some arrival => exact .refl _
      · -- It has one query less to wait for.
        unfold arrivals
        rw [List.filterMap_cons, List.filterMap_cons]
        exact .refl _
    · -- It waits for other queries.
      unfold arrivals at ih ⊢
      dsimp only
      rw [List.filterMap_cons, List.filterMap_cons]
      cases m.kind.arrival? with
      | none => exact ih
      | some arrival => exact List.perm_middle.trans (ih.cons arrival)

/-- What a record holds, if it is on. -/
def FactorRecord.contents? (row : FactorRecord) :
    Option (Option Bytes × Option Bytes × Option String) :=
  if row.enabled then some (row.main, row.backup, row.fingerprint) else none

/-- Two records hold the same, as far as operations read it. One that is off holds as much as
none. -/
def SameContents (row row' : Option FactorRecord) : Prop :=
  row.bind FactorRecord.contents? = row'.bind FactorRecord.contents?

namespace SameContents

variable {row row' : Option FactorRecord}

theorem of_eq (h : row = row') : SameContents row row' :=
  congrArg (Option.bind · FactorRecord.contents?) h

/-- A test that asks a record for its contents, if it is on, has the same result. -/
theorem any (h : SameContents row row') {p : FactorRecord → Bool}
    {q : Option Bytes × Option Bytes × Option String → Bool}
    (hp : ∀ row, p row = row.contents?.any q) : row.any p = row'.any p := by
  have hheld : ∀ row : Option FactorRecord,
      row.any p = (row.bind FactorRecord.contents?).any q := by
    intro row
    cases row with
    | none => rfl
    | some row => exact hp row
  rw [hheld, hheld, h]

theorem enabled (h : SameContents row row') : row.any (·.enabled) = row'.any (·.enabled) := by
  refine h.any (q := fun _ => true) fun row => ?_
  unfold FactorRecord.contents?
  cases row.enabled <;> rfl

theorem hasMain (h : SameContents row row') (main : Bytes) :
    row.any (·.hasMain main) = row'.any (·.hasMain main) := by
  refine h.any (q := fun (held, _) => held == some main) fun row => ?_
  unfold FactorRecord.hasMain FactorRecord.contents?
  cases row.enabled <;> rfl

theorem hasFingerprint (h : SameContents row row') (fingerprint : String) :
    row.any (·.hasFingerprint fingerprint) = row'.any (·.hasFingerprint fingerprint) := by
  refine h.any (q := fun (_, _, held) => held == some fingerprint) fun row => ?_
  unfold FactorRecord.hasFingerprint FactorRecord.contents?
  cases row.enabled <;> rfl

/-- Copies that are in use are part of the contents. -/
theorem active (h : SameContents row row') :
    row.bind FactorRecord.active? = row'.bind FactorRecord.active? := by
  have hheld : ∀ row : Option FactorRecord, row.bind FactorRecord.active? =
      (row.bind FactorRecord.contents?).bind fun (main, backup, fingerprint) =>
        FactorRecord.active? ⟨main, backup, fingerprint, true, .ofUnix 0 0, .ofUnix 0 0⟩ := by
    intro row
    cases row with
    | none => rfl
    | some row =>
      obtain ⟨main, backup, fingerprint, enabled, created, updated⟩ := row
      cases enabled <;> rfl
  rw [hheld, hheld, h]

theorem enrolled (h : SameContents row row') :
    row.any (fun r => r.active?.isSome) = row'.any fun r => r.active?.isSome := by
  have hany : ∀ row : Option FactorRecord,
      row.any (fun r => r.active?.isSome) = (row.bind FactorRecord.active?).isSome := by
    intro row
    cases row <;> rfl
  rw [hany, hany, h.active]

end SameContents

/-- What is done with a store is the same in two cases, and leaves them related. -/
def Carries {σ α : Type} (R : σ → σ → Prop) (f : σ → α × σ) : Prop :=
  ∀ {a b}, R a b → (f a).1 = (f b).1 ∧ R (f a).2 (f b).2

theorem carries_eq {σ α : Type} (f : σ → α × σ) : Carries Eq f := by
  rintro a _ rfl
  exact ⟨rfl, rfl⟩

/-- A notion of likeness, store by store. Pending secrets are alike with a view to the set-ups that
are still to come. -/
structure Likeness where
  ledger : Ledger → Ledger → Prop
  staging : List Arrival → Staging → Staging → Prop
  sessions : Session.Registry → Session.Registry → Prop

namespace Likeness

variable (L : Likeness)

/-- Two states are alike, with a view to the set-ups that come otherwise than by their mishaps. -/
structure Rel (ahead : List Arrival) (s t : State) : Prop where
  mishaps : t.mishaps = s.mishaps
  ledger : L.ledger s.ledger t.ledger
  staging : L.staging (ahead ++ Mishap.arrivals s.mishaps.queue) s.staging t.staging
  sessions : L.sessions s.sessions t.sessions

/-- A step on the pending secrets is the same in two cases, whatever is still to come. -/
def Stages {α : Type} (f : Staging → α × Staging) : Prop := ∀ names, Carries (L.staging names) f

/-- What a notion of likeness has to say about addresses and about set-ups. -/
structure Lawful : Prop where
  address : ∀ email, Carries L.ledger fun l => (l.findByEmail? email, l)
  /-- Less may come than was expected. -/
  fewer : ∀ {names names' : List Arrival} {s t : Staging}, names'.Subperm names →
    L.staging names s t → L.staging names' s t
  /-- A set-up that comes fails in both cases, or in neither. -/
  arrive : ∀ {owner : Uuid} {entry : Pending} {names : List Arrival} {s t : Staging},
    L.staging ((owner, entry.image) :: names) s t → ∀ content,
    (∃ cause, s.enter owner entry content = .error cause ∧
      t.enter owner entry content = .error cause) ∨
    ∃ s' t', s.enter owner entry content = .ok s' ∧ t.enter owner entry content = .ok t' ∧
      L.staging names s' t'

/-- What it has to say about the steps that are made for an account. -/
structure Serves (o : Occasion) (owner : Uuid) : Prop where
  transact : ∀ {α : Type} {f : Ledger → α × Ledger}, Ledger.Transaction owner f →
    Carries L.ledger f
  contents : ∀ {l l' : Ledger}, L.ledger l l' →
    SameContents (l.records.get? owner) (l'.records.get? owner)
  look : L.Stages (Staging.look o.deployment.pendingLifetime o.now owner)
  restage : ∀ (entry : Uuid) (secret : Otp.Secret),
    L.Stages (Staging.amend o.deployment.pendingLifetime o.now owner fun pending =>
      if pending.id = entry then { pending with secret } else pending)
  discard : L.Stages fun s => ((), s.discard owner)
  discardIf : ∀ id, L.Stages fun s => ((), s.discardIf owner id)
  /-- The image of an entry that was found is the same. -/
  read : ∀ {names : List Arrival} {s t : Staging} {entry : Pending}, L.staging names s t →
    s.entries.get? owner = some entry →
    Staging.isExpired? o.deployment.pendingLifetime o.now entry = some false →
    s.gallery.read entry.image = t.gallery.read entry.image
  issue : ∀ claim, Carries L.sessions (Session.issue o.deployment.primitives
    o.deployment.sessionLifetimes o.now o.draws.tokens owner claim)
  revokeOwner : Carries L.sessions fun registry => ((), Session.revokeOwner owner registry)

/-- The record of the account is the same, too, if there is one. -/
structure Knows (o : Occasion) (owner : Uuid) : Prop extends L.Serves o owner where
  record : ∀ {l l' : Ledger}, L.ledger l l' → l.records.get? owner = l'.records.get? owner

/-- What it has to say about the end of a pair of tokens. -/
def Drops (family : Uuid) : Prop :=
  Carries L.sessions fun registry => ((), Session.revokeFamily family registry)

variable {L} {ahead ahead' : List Arrival} {s t : State} {α : Type}

theorem Rel.fewer (hL : L.Lawful) (h : L.Rel ahead s t) (hfewer : ahead'.Subperm ahead) :
    L.Rel ahead' s t where
  mishaps := h.mishaps
  ledger := h.ledger
  staging := hL.fewer ((List.subperm_append_right _).2 hfewer) h.staging
  sessions := h.sessions

theorem steady_onStaging {f : Staging → Except Failure α × Staging} (hf : L.Stages f) :
    (Op.onStaging f).Steady (L.Rel ahead) := by
  intro s t h
  obtain ⟨hresult, hstaging⟩ := hf _ h.staging
  exact ⟨hresult, h.mishaps, h.ledger, hstaging, h.sessions⟩

theorem steady_changeStaging {f : Staging → Staging} (hf : L.Stages fun s => ((), f s)) :
    (Op.changeStaging f).Steady (L.Rel ahead) := by
  intro s t h
  exact ⟨rfl, h.mishaps, h.ledger, (hf _ h.staging).2, h.sessions⟩

theorem parallel_onSessions {f : Session.Registry → Except Failure α × Session.Registry}
    (hresult : (f s.sessions).1 = (f t.sessions).1)
    (hsessions : L.sessions (f s.sessions).2 (f t.sessions).2) (h : L.Rel ahead s t) :
    (Op.onSessions f).Parallel (L.Rel ahead) s t :=
  ⟨hresult, h.mishaps, h.ledger, h.staging, hsessions⟩

theorem steady_onSessions {f : Session.Registry → Except Failure α × Session.Registry}
    (hf : Carries L.sessions f) : (Op.onSessions f).Steady (L.Rel ahead) :=
  fun _ _ h => parallel_onSessions (hf h.sessions).1 (hf h.sessions).2 h

theorem steady_changeSessions {f : Session.Registry → Session.Registry}
    (hf : Carries L.sessions fun registry => ((), f registry)) :
    (Op.changeSessions f).Steady (L.Rel ahead) := by
  intro s t h
  exact ⟨rfl, h.mishaps, h.ledger, h.staging, (hf h.sessions).2⟩

theorem carries_then {f : Session.Registry → Session.Registry}
    {g : Session.Registry → Except Failure α × Session.Registry}
    (hf : Carries L.sessions fun registry => ((), f registry)) (hg : Carries L.sessions g) :
    Carries L.sessions fun registry => g (f registry) :=
  fun h => hg (hf h).2

end Likeness

end SecondFactor
