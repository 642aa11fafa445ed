import SecondFactor.Proofs.Revocation
import SecondFactor.Proofs.Service.Staleness

/-!
# Verifications and the tokens in use

A verification is given a session, which was found under a token before, and goes by what it was
given. It does not look for the tokens of the session again: it drops what is left of them, be that
none, and hands out a new pair. A session that was ended in the meantime comes back to life in this
way, where a renewal would have been refused.

## The architecture

* **`Op.Oblivious`** — an operation does not touch the tokens in use, nor look at them.
* **`Op.Heedless`** — an operation ends in the same way, and does the same to everything else,
  whatever tokens are in use; **`Heedless.of_bind`** puts the last step after the others.
* **`heedless_validate`**, **`heedless_validateBackupCode`** — both verifications are so.
* **`Revives`** — a state is left in which an account has a new token in use.
* **`verification_heeds_no_revocation`** — a verification does so if and only if it is answered.
-/

namespace SecondFactor

/-- A state with other tokens in use. -/
def State.withSessions (s : State) (registry : Session.Registry) : State :=
  { s with sessions := registry }

namespace Op

variable {α β : Type}

/-- The operation does not touch the tokens in use, and does the same whatever they are. -/
def Oblivious (x : Op α) : Prop :=
  ∀ s registry, x.exec (s.withSessions registry) =
    ((x.exec s).1, (x.exec s).2.withSessions registry)

/-- The operation ends in the same way, and leaves the same apart from the tokens in use, whatever
these are. -/
def Heedless (x : Op α) : Prop :=
  ∀ s registry registry', (x.exec (s.withSessions registry)).1 = (x.exec s).1 ∧
    (x.exec (s.withSessions registry)).2.withSessions registry' =
      (x.exec s).2.withSessions registry'

/-- Steps that leave the tokens alone may follow each other. -/
theorem Oblivious.bind {x : Op α} {f : α → Op β} (hx : x.Oblivious) (hf : ∀ a, (f a).Oblivious) :
    (x >>= f).Oblivious := by
  intro s registry
  rw [exec_bind, exec_bind, hx s registry]
  rcases x.exec s with ⟨failure | a, t⟩
  · rfl
  · exact hf a t registry

/-- Before a step that goes by its session alone there may be any that leave the tokens alone. -/
theorem Heedless.of_bind {x : Op α} {f : α → Op β} (hx : x.Oblivious)
    (hf : ∀ a, (f a).Heedless) : (x >>= f).Heedless := by
  intro s registry registry'
  rw [exec_bind, exec_bind, hx s registry]
  rcases x.exec s with ⟨failure | a, t⟩
  · exact ⟨rfl, rfl⟩
  · exact hf a t registry registry'

theorem oblivious_pure (a : α) : (pure a : Op α).Oblivious := fun _ _ => rfl

theorem oblivious_refuse (cause : Cause) : (refuse cause : Op α).Oblivious := fun _ _ => rfl

theorem oblivious_ofResult (result : Except Failure α) : (ofResult result).Oblivious := by
  cases result with
  | ok a => exact fun _ _ => rfl
  | error failure => exact fun _ _ => rfl

theorem oblivious_demand (result : Except Cause α) : (demand result).Oblivious := by
  cases result with
  | ok a => exact fun _ _ => rfl
  | error cause => exact fun _ _ => rfl

theorem oblivious_require (cause : Cause) (found : Option α) : (require cause found).Oblivious := by
  cases found with
  | some a => exact fun _ _ => rfl
  | none => exact fun _ _ => rfl

theorem oblivious_ensure (cause : Cause) (condition : Bool) :
    (ensure cause condition).Oblivious := by
  cases condition with
  | true => exact fun _ _ => rfl
  | false => exact fun _ _ => rfl

end Op

namespace Database

open Op

variable {α : Type}

/-- A run of a query that leaves the tokens in use alone. -/
def Run.Oblivious (run : Run α) : Prop :=
  ∀ s registry, (ExceptT.run run).run (s.withSessions registry) =
    (((ExceptT.run run).run s).1, ((ExceptT.run run).run s).2.withSessions registry)

theorem oblivious_transact (f : Ledger → α × Ledger) : (transact f).Oblivious := fun _ _ => rfl

theorem oblivious_lookAtRecord (owner : Uuid) : (lookAtRecord owner).Oblivious := by
  rintro ⟨ledger, staging, sessions, down, queue, _ | row, enableFails⟩ registry
  · rfl
  · rfl

theorem stage_withSessions (owner : Uuid) (entry : Pending) (content : Bytes) (s : State)
    (registry : Session.Registry) :
    stage owner entry content (s.withSessions registry) =
      (stage owner entry content s).withSessions registry := by
  unfold stage State.withSessions
  dsimp only
  cases s.staging.enter owner entry content with
  | ok staging => rfl
  | error cause => rfl

/-- A query leaves the tokens in use alone, if what it runs does. The set-up that may come in
between enters a pending secret and no tokens. -/
theorem oblivious_put {q : Query} {refusal : Option α} {run : Run α}
    {causeOf : DatabaseError → Cause} (hrun : run.Oblivious) :
    (put q refusal run causeOf).Oblivious := by
  intro s registry
  have hmishap : (ExceptT.run (afterMishap q refusal run)).run (s.withSessions registry) =
      (((ExceptT.run (afterMishap q refusal run)).run s).1,
        ((ExceptT.run (afterMishap q refusal run)).run s).2.withSessions registry) := by
    rcases s with ⟨ledger, staging, sessions, down, queue, stale, enableFails⟩
    simp only [afterMishap, run_get, State.withSessions]
    cases down with
    | true => rfl
    | false =>
      rcases Mishap.strike q queue with ⟨_ | error | _ | ⟨owner, entry, content⟩, rest⟩
      · exact hrun ⟨ledger, staging, sessions, false, rest, stale, enableFails⟩ registry
      · rfl
      · cases refusal with
        | none => exact hrun ⟨ledger, staging, sessions, false, rest, stale, enableFails⟩ registry
        | some answer => rfl
      · -- The other set-up comes in between, whatever tokens are in use.
        let t : State := ⟨ledger, staging, sessions, false, rest, stale, enableFails⟩
        show (ExceptT.run run).run (stage owner entry content (t.withSessions registry)) = _
        rw [stage_withSessions]
        exact hrun (stage owner entry content t) registry
  rw [put_exec, put_exec, hmishap]

end Database

namespace Service

open Op

variable (o : Occasion) (session : Session)

/-! ## Verifications -/

theorem oblivious_ensureUnverified (claim : Claim) : (ensureUnverified claim).Oblivious := by
  cases claim with
  | on | verified | empty | off => exact fun _ _ => rfl

theorem oblivious_currentAccount (owner : Uuid) : (currentAccount owner).Oblivious :=
  .bind (Database.oblivious_put (Database.oblivious_transact _)) fun found =>
    oblivious_require _ found

theorem oblivious_confirmPassword (owner : Uuid) (password : String) :
    (confirmPassword o owner password).Oblivious :=
  .bind (oblivious_currentAccount owner) fun account =>
    .bind (.bind (oblivious_ofResult _) fun verdict => oblivious_ensure _ verdict) fun _ =>
      oblivious_pure account

theorem oblivious_activeCopies (owner : Uuid) : (activeCopies owner).Oblivious :=
  .bind (Database.oblivious_put (Database.oblivious_lookAtRecord owner)) fun _ =>
    oblivious_require _ _

theorem oblivious_openMain (copies : Copies) (password : String) :
    (openMain o copies password).Oblivious := by
  unfold openMain
  cases openCopy o copies.main password with
  | ok secret => exact oblivious_pure secret
  | error failure => exact oblivious_refuse _

/-- A check of the main copy reads the account and the record, and no tokens. -/
theorem oblivious_checkMain (password code : String) :
    (checkMain o session password code).Oblivious :=
  .bind (oblivious_ensureUnverified session.claim) fun _ =>
    .bind (oblivious_confirmPassword o session.owner password) fun _ =>
      .bind (oblivious_activeCopies session.owner) fun copies =>
        .bind (oblivious_openMain o copies password) fun _ =>
          .bind (.bind (oblivious_require _ _) fun _ => oblivious_ofResult _) fun check =>
            oblivious_pure (copies, check)

/-- The tokens that are handed out do not depend on the others. Their family is dropped whether or
not it is there, which is the reason why a revoked session may still be verified. -/
theorem heedless_reissue (claim : Claim) : (reissue o session claim).Heedless := by
  intro s registry registry'
  refine ⟨?_, rfl⟩
  show (Session.issue _ _ _ _ _ _ _).1 = (Session.issue _ _ _ _ _ _ _).1
  unfold Session.issue
  dsimp only
  cases o.now.after? o.deployment.sessionLifetimes.access with
  | none => rfl
  | some expires =>
    cases o.now.after? o.deployment.sessionLifetimes.refresh with
    | none => rfl
    | some expires' => rfl

/-- **A verification by a one-time code** goes by the session alone, not by its tokens. It looks
them up once, at the request, and does not ask again whether they are still good. -/
theorem heedless_validate (password code : String) :
    (validate o session password code).Heedless :=
  .of_bind (oblivious_checkMain o session password code) fun (_, check) =>
    .of_bind (Database.oblivious_put (Database.oblivious_transact _)) fun kept =>
      .of_bind (oblivious_ensure _ kept) fun _ =>
        .of_bind (oblivious_ensure _ check.verified) fun _ => heedless_reissue o session .verified

/-- **A verification by a backup code** does so as well, although the code is used up by then. -/
theorem heedless_validateBackupCode (code : String) :
    (validateBackupCode o session code).Heedless :=
  .of_bind (oblivious_ensureUnverified session.claim) fun _ =>
    .of_bind (oblivious_currentAccount session.owner) fun _ =>
      .of_bind (oblivious_activeCopies session.owner) fun _ =>
        .of_bind (oblivious_demand _) fun _ =>
          .of_bind (Database.oblivious_put (Database.oblivious_transact _)) fun used =>
            .of_bind (oblivious_ensure _ used) fun _ => heedless_reissue o session .verified

end Service

/-! ## New tokens -/

/-- An account has a token in use that it did not have before. -/
def Revives (now : Instant) (owner : Uuid) (before after : Session.Registry) : Prop :=
  ∃ row ∈ after, row ∉ before ∧ row.2.owner = owner ∧ ¬ row.2.expires ≤ now

theorem not_revives (now : Instant) (owner : Uuid) (registry : Session.Registry) :
    ¬ Revives now owner registry registry := fun ⟨_, hrow, hnew, _⟩ => hnew hrow

/-- New pairs last at all. -/
def Occasion.Lasting (o : Occasion) : Prop :=
  ∀ kind, ∃ expires, o.now.after? (o.deployment.sessionLifetimes.of kind) = some expires ∧
    ¬ expires ≤ o.now

/-- A pair that lasts, and whose family is new, revives its account: there is a row that was not
there, and it is good for some time. -/
theorem revives_of_issued {o : Occasion} (hlasts : o.Lasting) (owner : Uuid) (claim : Claim)
    (registry : Session.Registry) {before : Session.Registry}
    (hnew : ∀ row ∈ before, row.2.family ≠ o.draws.tokens.family) :
    (∃ tokens, (Service.issued o owner claim registry).1 = .ok tokens) ∧
      Revives o.now owner before (Service.issued o owner claim registry).2 := by
  obtain ⟨expires, haccess, -⟩ := hlasts .access
  obtain ⟨expires', hrefresh, hlasting⟩ := hlasts .refresh
  have hissued : Service.issued o owner claim registry = (.ok ⟨o.draws.tokens.text .access,
      o.draws.tokens.text .refresh, o.deployment.sessionLifetimes.access, claim⟩,
      (registry.put (Session.digest o.deployment.primitives (o.draws.tokens.text .access))
        ⟨owner, claim, .access, o.draws.tokens.family, expires⟩).put
        (Session.digest o.deployment.primitives (o.draws.tokens.text .refresh))
        ⟨owner, claim, .refresh, o.draws.tokens.family, expires'⟩) := by
    change o.now.after? o.deployment.sessionLifetimes.access = some expires at haccess
    change o.now.after? o.deployment.sessionLifetimes.refresh = some expires' at hrefresh
    unfold Service.issued Session.issue
    dsimp only
    rw [haccess]
    dsimp only
    rw [hrefresh]
    rfl
  rw [hissued]
  exact ⟨⟨_, rfl⟩, _, List.mem_cons_self, fun hrow => hnew _ hrow rfl, rfl, hlasting⟩

section Verifying

variable {o : Occasion} {s s' : State} {session : Session} {r : Except Failure Session.Tokens}

/-- A verification revives an account exactly if it is answered. -/
theorem revives_validate_iff (hlasts : o.Lasting)
    (hnew : ∀ row ∈ s.sessions, row.2.family ≠ o.draws.tokens.family) {password code : String}
    (h : (Service.validate o session password code).Ends s r s') :
    Revives o.now session.owner s.sessions s'.sessions ↔ ∃ tokens, r = .ok tokens := by
  cases Service.validate_outcome h with
  | refused _ hquiet | lost _ hquiet =>
    rw [hquiet.sessions]
    exact ⟨fun hrevives => absurd hrevives (not_revives _ _ _), nofun⟩
  | mistaken _ _ _ hb =>
    rw [hb.sessions_eq]
    exact ⟨fun hrevives => absurd hrevives (not_revives _ _ _), nofun⟩
  | done _ _ _ hb =>
    rw [hb.sessions_eq]
    have hissued := revives_of_issued hlasts session.owner .verified
      (Session.revokeFamily session.family s.sessions) hnew
    exact ⟨fun _ => hissued.1, fun _ => hissued.2⟩

/-- So does one by a backup code. -/
theorem revives_validateBackupCode_iff (hlasts : o.Lasting)
    (hnew : ∀ row ∈ s.sessions, row.2.family ≠ o.draws.tokens.family) {code : String}
    (h : (Service.validateBackupCode o session code).Ends s r s') :
    Revives o.now session.owner s.sessions s'.sessions ↔ ∃ tokens, r = .ok tokens := by
  cases Service.validateBackupCode_outcome h with
  | refused hquiet =>
    rw [hquiet.sessions]
    exact ⟨fun hrevives => absurd hrevives (not_revives _ _ _), nofun⟩
  | done _ _ _ _ hb =>
    rw [hb.sessions_eq]
    have hissued := revives_of_issued hlasts session.owner .verified
      (Session.revokeFamily session.family s.sessions) hnew
    exact ⟨fun _ => hissued.1, fun _ => hissued.2⟩

end Verifying

/-- **A verification heeds no revocation.** Whatever tokens are in use, it ends in the same way and
does the same to everything else. So it gives an account a new token in use if and only if it is
answered, whether its session has any token left or was ended since it was found. -/
theorem verification_heeds_no_revocation {o : Occasion} {s : State} (hlasts : o.Lasting)
    (hnew : ∀ row ∈ s.sessions, row.2.family ≠ o.draws.tokens.family) (session : Session) :
    (∀ password code, (Service.validate o session password code).Heedless ∧
      ∀ r s', (Service.validate o session password code).Ends s r s' →
        (Revives o.now session.owner s.sessions s'.sessions ↔ ∃ tokens, r = .ok tokens)) ∧
    ∀ code, (Service.validateBackupCode o session code).Heedless ∧
      ∀ r s', (Service.validateBackupCode o session code).Ends s r s' →
        (Revives o.now session.owner s.sessions s'.sessions ↔ ∃ tokens, r = .ok tokens) := by
  constructor
  · intro password code
    exact ⟨Service.heedless_validate o session password code,
      fun r s' => revives_validate_iff hlasts hnew⟩
  · intro code
    exact ⟨Service.heedless_validateBackupCode o session code,
      fun r s' => revives_validateBackupCode_iff hlasts hnew⟩

/-! A run in which an account logs in and out again, and a verification that was begun in
between. -/

/-- The run. -/
def History.loggingOut : History :=
  .turn (.turn .enrolling
    (.posting 5 "/api/login" none "\x7b\"email\":\"a@b.c\",\"password\":\"password\"\x7d"))
    (.posting 6 "/api/logout" (some 5) "")

/-- The verification, by the session from before the logout. -/
def Turn.belated : Turn :=
  .inStep 7 (.call (.validate ⟨.ofByte 1, .on, .ofByte 5⟩ "password" "000007"))

/-- In the run, the session has no token left, and its account gets a new one. -/
theorem verification_heeds_no_revocation_belated : ∃ s s' r,
    s = Turn.belated.facing (History.loggingOut.state .transparent) ∧
    (∀ row ∈ s.sessions, row.2.family ≠ .ofByte 5) ∧
    (Service.validate (Turn.belated.occasion .transparent) ⟨.ofByte 1, .on, .ofByte 5⟩
      "password" "000007").Ends s r s' ∧
    Revives Turn.belated.now (.ofByte 1) s.sessions s'.sessions := by
  have hrun : (∀ row ∈ (Turn.belated.facing (History.loggingOut.state .transparent)).sessions,
        row.2.family ≠ .ofByte 5 ∧ row.2.family ≠ Turn.belated.draws.tokens.family) ∧
      ((Service.validate (Turn.belated.occasion .transparent) ⟨.ofByte 1, .on, .ofByte 5⟩
        "password" "000007").exec
          (Turn.belated.facing (History.loggingOut.state .transparent))).1.toBool = true := by
    decide +kernel
  -- What follows is not to look into the state again.
  obtain ⟨s, hs⟩ : ∃ s, s = Turn.belated.facing (History.loggingOut.state .transparent) :=
    ⟨_, rfl⟩
  rw [← hs] at hrun ⊢
  obtain ⟨hfamilies, hok⟩ := hrun
  have hlasts : (Turn.belated.occasion .transparent).Lasting := by
    intro kind
    cases kind with
    | access => exact ⟨_, rfl, by decide⟩
    | refresh => exact ⟨_, rfl, by decide⟩
  have hends := Op.ends_exec (Service.validate (Turn.belated.occasion .transparent)
    ⟨.ofByte 1, .on, .ofByte 5⟩ "password" "000007") s
  have hanswered : ∃ tokens, ((Service.validate (Turn.belated.occasion .transparent)
      ⟨.ofByte 1, .on, .ofByte 5⟩ "password" "000007").exec s).1 = .ok tokens := by
    generalize ((Service.validate (Turn.belated.occasion .transparent)
      ⟨.ofByte 1, .on, .ofByte 5⟩ "password" "000007").exec s).1 = r at hok
    cases r with
    | ok tokens => exact ⟨tokens, rfl⟩
    | error failure => cases hok
  obtain ⟨hvalidate, -⟩ := verification_heeds_no_revocation hlasts
    (fun row hrow => (hfamilies row hrow).2) ⟨.ofByte 1, .on, .ofByte 5⟩
  exact ⟨s, _, _, rfl, fun row hrow => (hfamilies row hrow).1, hends,
    ((hvalidate "password" "000007").2 _ _ hends).2 hanswered⟩

end SecondFactor
