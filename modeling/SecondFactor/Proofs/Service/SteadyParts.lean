import SecondFactor.Proofs.Service.Likeness

/-!
# Steps in states that are alike

A query ends in the same way in two states that are alike, and leaves them alike, because whatever
befalls it befalls it in both. From the queries this goes on to the parts of which the operations of
the service are made, in the order in which the parts are defined.

## The architecture

* **`Database.Run.Paired`** — the run of a query, in two states at once.
* **`paired_put`**, **`steady_put`** — whatever befalls a query befalls it in both states.
* **`steady_confirmPassword`**, **`steady_replaceAll`** and so on — the parts of operations, each
  under the laws of likeness that it needs.
-/

namespace SecondFactor

/-! ## §1 — queries -/

namespace Database

open Op Likeness

variable {α : Type} {L : Likeness} {ahead : List Arrival}

/-- A run of a query ends in two related states with results that are related, and leaves the states
related. -/
def Run.Paired (A : α → α → Prop) (run : Run α) (R : State → State → Prop) : Prop :=
  ∀ s t, R s t → Matched A ((ExceptT.run run).run s).1 ((ExceptT.run run).run t).1 ∧
    R ((ExceptT.run run).run s).2 ((ExceptT.run run).run t).2

theorem paired_transact {f : Ledger → α × Ledger} (hf : Carries L.ledger f) :
    (transact f).Paired Eq (L.Rel ahead) := by
  intro s t h
  obtain ⟨hresult, hledger⟩ := hf h.ledger
  exact ⟨.ok hresult, h.mishaps, hledger, h.staging, h.sessions⟩

/-- Two records that are looked at are related as the tables are. A stale record is the same in both
states. -/
theorem paired_lookAtRecord {owner : Uuid}
    {A : Option FactorRecord → Option FactorRecord → Prop} (hrefl : ∀ row, A row row)
    (hA : ∀ {l l'}, L.ledger l l' → A (l.records.get? owner) (l'.records.get? owner)) :
    (lookAtRecord owner).Paired A (L.Rel ahead) := by
  rintro ⟨ledger, staging, sessions, mishaps⟩ ⟨ledger', staging', sessions', mishaps'⟩ h
  obtain rfl : mishaps' = mishaps := h.mishaps
  obtain ⟨down, queue, stale, enableFails⟩ := mishaps'
  cases stale with
  | some row => exact ⟨.ok (hrefl _), rfl, h.ledger, h.staging, h.sessions⟩
  | none => exact ⟨.ok (hA h.ledger), rfl, h.ledger, h.staging, h.sessions⟩

/-- Turning a record on fails by a flag, which is the same in both states, or makes its change. -/
theorem paired_enroll {now : Instant} {owner : Uuid} {copies : Copies}
    (henable : Carries L.ledger (conditional fun l => l.enable? owner copies now)) :
    (enroll now owner copies).Paired Eq (L.Rel ahead) := by
  rintro ⟨ledger, staging, sessions, mishaps⟩ ⟨ledger', staging', sessions', mishaps'⟩ h
  obtain rfl : mishaps' = mishaps := h.mishaps
  obtain ⟨down, queue, stale, enableFails⟩ := mishaps'
  cases enableFails with
  | true => exact ⟨.error _, rfl, h.ledger, h.staging, h.sessions⟩
  | false =>
    obtain ⟨hresult, hledger⟩ := henable h.ledger
    exact ⟨.ok hresult, rfl, hledger, h.staging, h.sessions⟩

/-- Another set-up comes in between in both states. -/
theorem rel_stage (hL : L.Lawful) {s t : State} {owner : Uuid} {entry : Pending}
    (h : L.Rel ((owner, entry.image) :: ahead) s t) (content : Bytes) :
    L.Rel ahead (stage owner entry content s) (stage owner entry content t) := by
  rcases hL.arrive h.staging content with ⟨cause, hs, ht⟩ | ⟨s', t', hs, ht, hstaging⟩
  · unfold stage
    rw [hs, ht]
    exact h.fewer hL (.cons_self)
  · unfold stage
    rw [hs, ht]
    exact ⟨h.mishaps, h.ledger, hstaging, h.sessions⟩

/-- **Whatever befalls a query befalls it in both states**, and then it runs in states that are
alike. -/
theorem paired_put (hL : L.Lawful) {A : α → α → Prop} {q : Query} {refusal : Option α}
    {run : Run α} {causeOf : DatabaseError → Cause} (hrefusal : ∀ a, refusal = some a → A a a)
    (hrun : run.Paired A (L.Rel ahead)) {s t : State} (h : L.Rel ahead s t) :
    Op.Paired A (put q refusal run causeOf) (put q refusal run causeOf) (L.Rel ahead) s t := by
  have hmishap : Matched A ((ExceptT.run (afterMishap q refusal run)).run s).1
        ((ExceptT.run (afterMishap q refusal run)).run t).1 ∧
      L.Rel ahead ((ExceptT.run (afterMishap q refusal run)).run s).2
        ((ExceptT.run (afterMishap q refusal run)).run t).2 := by
    obtain ⟨ledger, staging, sessions, mishaps⟩ := s
    obtain ⟨ledger', staging', sessions', mishaps'⟩ := t
    obtain rfl : mishaps' = mishaps := h.mishaps
    obtain ⟨down, queue, stale, enableFails⟩ := mishaps'
    simp only [afterMishap, run_get]
    cases down with
    | true => exact ⟨.error _, h⟩
    | false =>
      have harrivals := Mishap.arrivals_strike q queue
      generalize Mishap.strike q queue = struck at harrivals ⊢
      obtain ⟨kind, rest⟩ := struck
      let u : State := ⟨ledger, staging, sessions, false, rest, stale, enableFails⟩
      let v : State := ⟨ledger', staging', sessions', false, rest, stale, enableFails⟩
      -- What comes now is no longer ahead.
      have hcome : L.Rel ((kind.bind Mishap.Kind.arrival?).toList ++ ahead) u v := by
        refine ⟨rfl, h.ledger, hL.fewer (List.Perm.subperm ?_) h.staging, h.sessions⟩
        rw [List.append_assoc]
        refine List.perm_append_comm_assoc _ _ _ |>.trans ?_
        exact harrivals.append_left ahead
      have hpass : L.Rel ahead u v := hcome.fewer hL (List.sublist_append_right _ _).subperm
      rcases kind with _ | error | _ | ⟨owner, entry, content⟩
      · exact hrun u v hpass
      · exact ⟨.error _, hpass⟩
      · cases refusal with
        | none => exact hrun u v hpass
        | some answer => exact ⟨.ok (hrefusal answer rfl), hpass⟩
      · exact hrun _ _ (rel_stage hL hcome content)
  rw [Op.Paired, put_exec, put_exec]
  exact ⟨hmishap.1.mapError _, hmishap.2⟩

theorem steady_put (hL : L.Lawful) {q : Query} {refusal : Option α} {run : Run α}
    {causeOf : DatabaseError → Cause} (hrun : run.Paired Eq (L.Rel ahead)) :
    (put q refusal run causeOf).Steady (L.Rel ahead) :=
  fun _ _ h => parallel_iff.2 (paired_put hL (fun _ _ => rfl) hrun h)

theorem steady_query (hL : L.Lawful) {q : Query} {refusal : Option α} {f : Ledger → α × Ledger}
    {causeOf : DatabaseError → Cause} (hf : Carries L.ledger f) :
    (put q refusal (transact f) causeOf).Steady (L.Rel ahead) :=
  steady_put hL (paired_transact hf)

/-- What is shown of a record is related, if what there is of it is. -/
theorem paired_record (hL : L.Lawful) {owner : Uuid}
    {A : Option FactorRecord → Option FactorRecord → Prop} (hrefl : ∀ row, A row row)
    (hA : ∀ {l l'}, L.ledger l l' → A (l.records.get? owner) (l'.records.get? owner))
    {s t : State} (h : L.Rel ahead s t) :
    Op.Paired A (record owner) (record owner) (L.Rel ahead) s t :=
  paired_put hL (fun _ _ => hrefl _) (paired_lookAtRecord hrefl hA) h

end Database

/-! ## §2 — parts of operations -/

namespace Service

open Op Likeness

variable {L : Likeness} {o : Occasion} {owner : Uuid} {ahead : List Arrival} {s t : State}
  {session : Session}

section Parts

variable (hL : L.Lawful) (hown : L.Serves o owner)

theorem steady_checkPassword (account : Account) (password : String) (mismatch : Mismatch) :
    (checkPassword o account password mismatch).Steady (L.Rel ahead) :=
  .bind (steady_ofResult _) fun verdict => steady_ensure _ verdict

theorem steady_checkCode (secret : Otp.Secret) (code : String) :
    (checkCode o secret code).Steady (L.Rel ahead) :=
  .bind (steady_require _ _) fun _ => steady_ofResult _

theorem steady_openMain (copies : Copies) (password : String) :
    (openMain o copies password).Steady (L.Rel ahead) := by
  unfold openMain
  cases openCopy o copies.main password with
  | ok secret => exact steady_pure secret
  | error failure => exact steady_refuse _

theorem steady_ensureUnverified (claim : Claim) :
    (ensureUnverified claim).Steady (L.Rel ahead) := by
  cases claim with
  | on => exact steady_pure ()
  | verified | empty | off => exact steady_refuse _

/-- A recovery of the secret looks at the copies that it was given and at the clock. -/
theorem steady_recoverSecret (copies : Copies) (recoveryKey : String) :
    (recoverSecret o copies recoveryKey).Steady (L.Rel ahead) := by
  refine .bind (steady_ofResult _) fun verdict => .bind (steady_ensure _ verdict) fun _ => ?_
  cases openCopy o copies.backup recoveryKey with
  | error failure => exact steady_refuse _
  | ok secret => exact .bind (steady_require _ _) fun _ => steady_ofResult _

include hown in
theorem steady_lookAtPending : (lookAtPending o owner).Steady (L.Rel ahead) :=
  steady_onStaging hown.look

include hown in
theorem steady_restage (entry : Uuid) (secret : Otp.Secret) :
    (restage o owner entry secret).Steady (L.Rel ahead) :=
  steady_onStaging (hown.restage entry secret)

include hown in
theorem steady_discardPending : (discardPending owner).Steady (L.Rel ahead) :=
  steady_changeStaging hown.discard

include hown in
theorem steady_replaceAll (claim : Claim) : (replaceAll o owner claim).Steady (L.Rel ahead) :=
  steady_onSessions (carries_then hown.revokeOwner (hown.issue claim))

include hL hown

theorem steady_currentAccount : (currentAccount owner).Steady (L.Rel ahead) :=
  .bind (Database.steady_query hL (hown.transact .account)) fun found => steady_require _ found

/-- What is done with a record is the same, if only its contents are asked for. -/
theorem parallel_record {α : Type} {f : Option FactorRecord → Op α} {R : State → State → Prop}
    (h : L.Rel ahead s t) (hR : ∀ {s' t'}, L.Rel ahead s' t' → R s' t')
    (hsame : ∀ {row row'}, SameContents row row' → f row = f row')
    (hf : ∀ row s' t', L.Rel ahead s' t' → (f row).Parallel R s' t') :
    (Database.record owner >>= f).Parallel R s t := by
  refine parallel_iff.2 ((Database.paired_record (A := SameContents) hL (fun _ => rfl)
    hown.contents h).bind hR ?_)
  intro row row' s' t' _ hrows hst
  rw [← hsame hrows]
  exact parallel_iff.1 (hf row s' t' hst)

theorem steady_record {α : Type} {f : Option FactorRecord → Op α}
    (hsame : ∀ {row row'}, SameContents row row' → f row = f row')
    (hf : ∀ row, (f row).Steady (L.Rel ahead)) :
    (Database.record owner >>= f).Steady (L.Rel ahead) :=
  fun _ _ h => parallel_record hL hown h id hsame hf

theorem steady_confirmPassword (password : String) :
    (confirmPassword o owner password).Steady (L.Rel ahead) :=
  .bind (steady_currentAccount hL hown) fun account =>
    .bind (steady_checkPassword account password _) fun _ => steady_pure account

theorem steady_activeCopies : (activeCopies owner).Steady (L.Rel ahead) :=
  steady_record hL hown (fun h => by rw [h.active]) fun _ => steady_require _ _

omit hown in
/-- What a session may claim depends on whether the record is on. For this the likeness has to know
the record, and not only serve its contents. -/
theorem steady_claimFor (hown : L.Knows o owner) : (claimFor owner).Steady (L.Rel ahead) := by
  refine fun s t h => parallel_iff.2 ((Database.paired_record hL (fun _ => rfl) hown.record h).bind
    id ?_)
  rintro row _ s' t' - rfl hst
  exact ⟨.ok rfl, hst⟩

end Parts

end Service

end SecondFactor
