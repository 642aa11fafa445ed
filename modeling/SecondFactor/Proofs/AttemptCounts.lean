import SecondFactor.Proofs.Marks
import SecondFactor.Proofs.Provenance

/-!
# Attempts that are counted

The main copy counts the attempts. A verification writes a copy with one more, made of the copy that
it replaces; whatever else is done to the record keeps the number, as long as the second factor is
neither recovered nor given up. What a copy counts is what it opens to under any key, so decryption
is taken here to give only what was encrypted.

## The architecture

* **`State.Counts`** — the number of attempts in the main copy.
* **`Turn.Persists`**, **`Turn.Keeps`** — a verification that writes, and a turn that does not end
  the counting; **`History.Continues`** — a history made of such turns.
* **`counts_turn`** — a turn adds one attempt that was written, or none; **`counts_run`** — the run.
* **`counts_of_enabled`** — what is on can be opened, and so counts some number.
-/

namespace SecondFactor

open Service (Call Reply)

variable {D : Deployment} {h : History} {t : Turn} {s : State} {owner : Uuid} {row : FactorRecord}

/-! ## §1 — what a main copy counts -/

/-- The main copy of the record that is on counts so many attempts: it can be opened, and then that
is the number. -/
def State.Counts (D : Deployment) (s : State) (owner : Uuid) (n : Nat) : Prop :=
  ∃ row copy, s.ledger.records.get? owner = some row ∧ row.enabled = true ∧ row.main = some copy ∧
    (∃ key secret, Otp.Secret.unwrap D.primitives copy key = .ok secret) ∧
    Holds D (fun secret => secret.counter = n) copy

/-- A verification for the account has written a main copy. -/
structure Turn.Persists (D : Deployment) (past : History) (t : Turn) (owner : Uuid) : Prop where
  called : ∃ session password code,
    t.call? D (past.state D) = some (.validate session password code) ∧ session.owner = owner
  written : ((t.next D (past.state D)).ledger.records.get? owner).bind (·.main) ≠
    ((past.state D).ledger.records.get? owner).bind (·.main)

/-- The call of the turn does not recover or give up the second factor of the account. -/
def Turn.Keeps (D : Deployment) (past : History) (t : Turn) (owner : Uuid) : Prop :=
  ∀ call, t.call? D (past.state D) = some call → ¬ call.givesUp (past.state D).ledger owner

/-- A history goes on, without the second factor of an account being recovered or given up, and with
so many attempts that are written. -/
inductive History.Continues (D : Deployment) (owner : Uuid) (h : History) :
    Nat → History → Prop where
  | here : Continues D owner h 0 h
  | other {k : Nat} {past : History} {t : Turn} (hpast : h.Continues D owner k past)
      (hkeeps : t.Keeps D past owner) (hno : ¬ t.Persists D past owner) :
      Continues D owner h k (past.turn t)
  | attempt {k : Nat} {past : History} {t : Turn} (hpast : h.Continues D owner k past)
      (hyes : t.Persists D past owner) : Continues D owner h (k + 1) (past.turn t)

namespace State.Counts

variable {n : Nat}

/-- A main copy that was just sealed counts what its secret says. Nobody can open it to anything
else. -/
theorem of_wrap (hP : D.primitives.SealingLaws) (hA : D.primitives.Authentic)
    {secret : Otp.Secret} {key : Key} {nonce : Nonce}
    (hrow : s.ledger.records.get? owner = some row) (hon : row.enabled = true)
    (hmain : row.main = some (secret.wrap D.primitives key nonce)) (hbounded : secret.Bounded)
    (hcounter : secret.counter = n) : s.Counts D owner n :=
  ⟨row, _, hrow, hon, hmain, ⟨key, secret, Otp.Secret.unwrap_wrap hP hbounded⟩,
    holds_wrap hA hbounded hcounter key nonce⟩

theorem of_same {s' : State} (hc : s.Counts D owner n)
    (hsame : s'.ledger.records.get? owner = s.ledger.records.get? owner) :
    s'.Counts D owner n := by
  obtain ⟨row, copy, hrow, hcopy⟩ := hc
  exact ⟨row, copy, hsame.trans hrow, hcopy⟩

theorem enabled (hc : s.Counts D owner n) : s.enabled owner = true := by
  obtain ⟨row, copy, hrow, hon, -⟩ := hc
  exact State.enabled_of_row hrow hon

/-- What the main copy opens to has the number of attempts. So a check that starts from it knows the
number, whatever password it was given. -/
theorem counter {key : Key} {copy : Bytes} {secret : Otp.Secret} (hc : s.Counts D owner n)
    (hrow : s.ledger.records.get? owner = some row) (hcopy : row.main = some copy)
    (hopen : Otp.Secret.unwrap D.primitives copy key = .ok secret) : secret.counter = n := by
  obtain ⟨there, main, hthere, -, hmain, -, hholds⟩ := hc
  obtain rfl := Option.some.inj (hthere.symm.trans hrow)
  obtain rfl := Option.some.inj (hmain.symm.trans hcopy)
  exact hholds key secret hopen

/-- The number is a stored one, since something could be opened. -/
theorem lt (hc : s.Counts D owner n) : n < Otp.wordBound := by
  obtain ⟨row, copy, hrow, -, hcopy, ⟨key, secret, hopen⟩, hholds⟩ := hc
  obtain ⟨-, -, -, hcounter, -⟩ := Otp.Secret.bounded_of_unwrap hopen
  rwa [hholds key secret hopen] at hcounter

end State.Counts

/-! ## §2 — a turn, and a run -/

/-- A verification whose copy is the main copy afterwards has written it: the nonce was drawn in
this turn, so no copy from before has it. -/
theorem Turn.Persists.of_wrap (ht : t.Unrepeated D h) {session : Session} {password code : String}
    {after : FactorRecord} {secret : Otp.Secret} {key : Key}
    (hcall : t.call? D (h.state D) = some (.validate session password code))
    (hafter : (t.next D (h.state D)).ledger.records.get? session.owner = some after)
    (hmain : after.main = some (secret.wrap D.primitives key t.draws.mainNonce)) :
    t.Persists D h session.owner := by
  refine ⟨⟨session, password, code, hcall, rfl⟩, fun hsame => ?_⟩
  have hbefore : (Marking.nonce D).current (h.state D) session.owner =
      some ((Marking.nonce D).stamp t) := by
    rw [hafter, Option.bind_some, hmain] at hsame
    obtain ⟨before, hthere, hcopy⟩ := Option.bind_eq_some_iff.1 hsame.symm
    rw [Marking.current_of_row _ hthere]
    exact FactorRecord.nonce?_of_wrap hcopy
  exact ht.fresh_nonce.not_stamped ((Marking.nonce D).stamped hbefore)

theorem Turn.Persists.keeps (hp : t.Persists D h owner) : t.Keeps D h owner := by
  intro call hcall
  obtain ⟨session, password, code, hcall', -⟩ := hp.called
  obtain rfl := Option.some.inj (hcall'.symm.trans hcall)
  exact id

/-- What a check of the main copy writes can be stored, and has one attempt more than what it
opened. -/
theorem Service.MainChecked.bounded {o : Occasion} {session : Session} {password code : String}
    {copies : Copies} {check : Otp.Check}
    (hchecked : Service.MainChecked o session password code s copies check)
    (hlast : o.now ≤ .last) :
    ∃ held, Service.openCopy o copies.main password = .ok held ∧ check.secret.Bounded ∧
      check.secret.counter = min (held.counter + 1) (Otp.wordBound - 1) := by
  obtain ⟨held, seconds, hopen, hnow, hcheck⟩ := hchecked.checked
  obtain rfl := Instant.seconds_of_sinceEpoch? hnow
  exact ⟨held, hopen, Otp.Secret.bounded_check hcheck (Otp.Secret.bounded_of_unwrap hopen)
    (Instant.seconds_lt hlast), Otp.Secret.counter_check hcheck⟩

/-- **The step.** An attempt that is written adds one, and nothing else changes the number. The
comparison before a write makes sure that the copy with the number is the one that is replaced. -/
theorem counts_turn (hP : D.primitives.SealingLaws) (hA : D.primitives.Authentic)
    (ht : t.Unrepeated D h) (hkeeps : t.Keeps D h owner) {n : Nat}
    (hc : (h.state D).Counts D owner n) :
    (t.Persists D h owner ∧
      (t.next D (h.state D)).Counts D owner (min (n + 1) (Otp.wordBound - 1))) ∨
    (¬ t.Persists D h owner ∧ (t.next D (h.state D)).Counts D owner n) := by
  have hkept : (t.next D (h.state D)).ledger.records.get? owner =
      (h.state D).ledger.records.get? owner →
      ¬ t.Persists D h owner ∧ (t.next D (h.state D)).Counts D owner n :=
    fun hsame => ⟨fun hp => hp.written (by rw [hsame]), hc.of_same hsame⟩
  rcases t.rewrites D (h.state D) owner with hsame | ⟨call, hcall, hrewrites⟩
  · exact .inr (hkept hsame)
  generalize hafter : (t.next D (h.state D)).ledger.records.get? owner = after at hrewrites
  cases hrewrites with
  | kept => exact .inr (hkept hafter)
  -- The second factor was on already.
  | enabled _ hoff =>
    have hon : (t.facing (h.state D)).enabled owner = true := hc.enabled
    rw [hoff] at hon
    cases hon
  -- What was checked is the copy that is there, so it had the number.
  | rechecked howner hrow hmain hchecked =>
    subst howner
    obtain ⟨hon, hcopy⟩ := FactorRecord.hasMain_iff.1 hmain
    obtain ⟨held, hopen, hbounded, hcounter⟩ := hchecked.bounded ht.last
    rw [hc.counter hrow hcopy hopen] at hcounter
    exact .inl ⟨.of_wrap ht hcall hafter rfl, .of_wrap hP hA hafter hon rfl hbounded hcounter⟩
  -- So was what a change of the password opened, and it seals that again.
  | resealed _ hrow hmain hopen =>
    obtain ⟨hon, hcopy⟩ := FactorRecord.hasMain_iff.1 hmain
    refine .inr ⟨fun hp => ?_, .of_wrap hP hA hafter hon rfl (Otp.Secret.bounded_of_unwrap hopen)
      (hc.counter hrow hcopy hopen)⟩
    obtain ⟨_, _, _, hcall', -⟩ := hp.called
    cases hcall'.symm.trans hcall
  | recovered hfound => exact absurd ⟨_, hfound⟩ (hkeeps _ hcall)
  | disabled howner | removed howner => exact absurd howner (hkeeps _ hcall)

/-- **The run.** Every attempt that is written is counted, up to the greatest stored number.
Induction on how the history goes on. -/
theorem counts_run (hP : D.primitives.SealingLaws) (hA : D.primitives.Authentic)
    {n k : Nat} {later : History}
    (hc : (h.state D).Counts D owner n) (hlater : h.Continues D owner k later)
    (hrun : later.All fun past t => t.Unrepeated D past) :
    (later.state D).Counts D owner (min (n + k) (Otp.wordBound - 1)) := by
  induction hlater with
  | here =>
    have hn : n ≤ Otp.wordBound - 1 := Nat.le_sub_one_of_lt hc.lt
    rwa [Nat.add_zero, Nat.min_eq_left hn]
  | other _ hkeeps hno ih =>
    rcases counts_turn hP hA hrun.2 hkeeps (ih hrun.1) with ⟨hyes, -⟩ | ⟨-, hcounts⟩
    · exact absurd hyes hno
    · exact hcounts
  | @attempt k past t _ hyes ih =>
    rcases counts_turn hP hA hrun.2 hyes.keeps (ih hrun.1) with ⟨-, hcounts⟩ | ⟨hno, -⟩
    · have hsum : min (min (n + k) (Otp.wordBound - 1) + 1) (Otp.wordBound - 1) =
          min (n + (k + 1)) (Otp.wordBound - 1) := by omega
      rwa [hsum] at hcounts
    · exact absurd hyes hno

/-! ## §3 — what is on can be opened -/

/-- What is pending can be stored, so that an activation can seal it. A set-up puts only what the
policy allows, and attempts keep within the widths. -/
theorem bounded_pending (hstorable : D.policy.Storable)
    (hrun : h.All fun past t => t.Unrepeated D past)
    (hplain : h.All fun _ t => t.mishaps.Plain) {entry : Pending}
    (hentry : (h.state D).staging.entries.get? owner = some entry) : entry.secret.Bounded := by
  induction h generalizing entry with
  | start gallery => cases hentry
  | turn h t ih =>
    have hbefore := fun {entry} => @ih hrun.1 hplain.1 entry
    cases course hplain.2 owner with
    | kept _ _ hpending _ | rechecked _ _ _ _ _ _ _ _ hpending _
    | resealed _ _ _ _ _ _ _ hpending _ | recovered _ _ _ _ _ _ _ _ _ _ _ _ _ _ hpending _ =>
      exact hbefore (hpending entry hentry)
    | setUp _ _ hnew _ hsecret =>
      obtain rfl := Option.some.inj (hnew.symm.trans hentry)
      rw [hsecret]
      exact hstorable.bounded_newSecret _ _
    -- A check puts back what can be stored, as long as the clock keeps within the calendar.
    | restaged hthere hcheck _ _ hnew _ =>
      obtain rfl := Option.some.inj (hnew.symm.trans hentry)
      obtain ⟨code, hcheck⟩ := hcheck
      exact Otp.Secret.bounded_check hcheck (hbefore hthere) (Instant.seconds_lt hrun.2.last)
    | enabled _ _ _ _ _ _ _ _ hgone => cases hgone.symm.trans hentry

/-- The secret of an activation can be stored. -/
theorem bounded_activated (hstorable : D.policy.Storable)
    (hrun : (h.turn t).All fun past t => t.Unrepeated D past)
    (hplain : (h.turn t).All fun _ t => t.mishaps.Plain) {session : Session} {code : String}
    {entry : Pending} {check : Otp.Check} {u : State}
    (hcheck : (Service.checkPending (t.occasion D) session code).Ends (t.facing (h.state D))
      (.ok (entry, check)) u) : check.secret.Bounded := by
  have hchecked := ((Service.checkPending_ends hcheck).2 _ rfl).2
  obtain ⟨seconds, hnow, hcode⟩ := hchecked.checked
  obtain rfl := Instant.seconds_of_sinceEpoch? hnow
  exact Otp.Secret.bounded_check hcode
    (bounded_pending hstorable hrun.1 hplain.1 (hchecked.there hplain.2))
    (Instant.seconds_lt hrun.2.last)

/-- The main copy of a record that is on can be opened, if no other set-up came in between.
Induction on the history; every call that writes the copy has sealed it itself. -/
theorem counts_of_enabled (hP : D.primitives.SealingLaws) (hA : D.primitives.Authentic)
    (hstorable : D.policy.Storable)
    (hrun : h.All fun past t => t.Unrepeated D past)
    (hplain : h.All fun _ t => t.mishaps.Plain) (hon : (h.state D).enabled owner = true) :
    ∃ n, (h.state D).Counts D owner n := by
  induction h with
  | start gallery => cases hon
  | turn h t ih =>
    have hkept : (t.next D (h.state D)).ledger.records.get? owner =
        (h.state D).ledger.records.get? owner →
        ∃ n, (t.next D (h.state D)).Counts D owner n := by
      intro hsame
      have hbefore : (h.state D).enabled owner = true := by
        rw [State.enabled, ← hsame]
        exact hon
      obtain ⟨n, hn⟩ := ih hrun.1 hplain.1 hbefore
      exact ⟨n, hn.of_same hsame⟩
    rcases t.rewrites D (h.state D) owner with hsame | ⟨call, -, hrewrites⟩
    · exact hkept hsame
    obtain ⟨row, hrow, henabled⟩ := Ledger.of_any hon
    have hafter : (t.next D (h.state D)).ledger.records.get? owner = some row := hrow
    rw [hafter] at hrewrites
    -- Any other call has written the copy, or there is no record that is on.
    generalize hresult : some row = after at hrewrites
    cases hrewrites with
    | kept => exact hkept (hafter.trans hresult)
    | enabled howner _ hcheck =>
      cases hresult
      exact ⟨_, .of_wrap hP hA hafter rfl rfl (bounded_activated hstorable hrun hplain hcheck) rfl⟩
    | rechecked _ _ _ hchecked =>
      cases hresult
      obtain ⟨held, -, hbounded, -⟩ := hchecked.bounded hrun.2.last
      exact ⟨_, .of_wrap hP hA hafter henabled rfl hbounded rfl⟩
    | resealed _ _ _ hopen =>
      cases hresult
      exact ⟨_, .of_wrap hP hA hafter henabled rfl (Otp.Secret.bounded_of_unwrap hopen) rfl⟩
    | recovered _ _ _ _ hsecret =>
      cases hresult
      obtain ⟨held, seconds, hopen, -, hretire⟩ := hsecret.opened
      exact ⟨_, .of_wrap hP hA hafter henabled rfl
        (Otp.Secret.bounded_retire hretire (Otp.Secret.bounded_of_unwrap hopen)) rfl⟩
    | disabled =>
      cases hresult
      cases henabled
    | removed => cases hresult

end SecondFactor
