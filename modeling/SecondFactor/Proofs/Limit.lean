import SecondFactor.Proofs.Otp.Attempts
import SecondFactor.Proofs.AttemptCounts

/-!
# Attempts are limited

A step allows a limited number of attempts, and the count is kept in the secret itself. It moves on
with the main copy: a verification writes it back before the verdict is told, and a change of the
password seals it again. A recovery goes back to an older count, and makes up for it by using every
step of the window. So the limit is one for the account, whatever sessions the attempts are made
from.

## The architecture

* **`History.Spends`** — a history goes on with the second factor on, and with so many attempts in a
  step that are written.
* **`State.Spends`** — the invariant: in whatever the main copy opens to, as many attempts are
  spent; **`spends_turn`**, **`spends_attempt`** — a turn in the step keeps it, and an attempt that
  is written adds one.
* **`spends_run`** — the run, by induction on how the history goes on.
* **`attempts_limited`** — for sequences of attempts, and for the service.
-/

namespace SecondFactor

open Service (Call Reply)

variable {D : Deployment} {h : History} {t : Turn} {s : State} {owner : Uuid} {k made : Nat}

/-! ## §1 — attempts that are spent -/

/-- The step that a turn is made in. -/
def Turn.step (D : Deployment) (t : Turn) : Nat := t.seconds / D.policy.step

/-- A history goes on from some point with the second factor of an account on, and with so many
attempts in a step that are written to its main copy. -/
inductive History.Spends (D : Deployment) (owner : Uuid) (k : Nat) : Nat → History → Prop where
  | here {h : History} : Spends D owner k 0 h
  | other {made : Nat} {past : History} {t : Turn} (hpast : Spends D owner k made past)
      (hon : t.staysOn D (past.state D) owner = true) : Spends D owner k made (past.turn t)
  | attempt {made : Nat} {past : History} {t : Turn} (hpast : Spends D owner k made past)
      (hwritten : t.Persists D past owner) (hstep : t.step D = k) :
      Spends D owner k (made + 1) (past.turn t)

/-- In whatever the main copy of an account opens to, so many attempts in a step are spent. -/
def State.Spends (D : Deployment) (s : State) (owner : Uuid) (k made : Nat) : Prop :=
  ∀ row copy, s.ledger.records.get? owner = some row → row.enabled = true →
    row.main = some copy → Holds D (Otp.Secret.Spent · k made) copy

theorem State.Spends.of_none (D : Deployment) (s : State) (owner : Uuid) (k : Nat) :
    s.Spends D owner k 0 := fun _ _ _ _ _ _ _ _ => .inl (.inl rfl)

/-- A main copy that was just sealed spends what its secret says. -/
theorem State.Spends.of_wrap (hA : D.primitives.Authentic) {row : FactorRecord}
    {secret : Otp.Secret} {key : Key} {nonce : Nonce}
    (hrow : s.ledger.records.get? owner = some row)
    (hmain : row.main = some (secret.wrap D.primitives key nonce)) (hbounded : secret.Bounded)
    (hspent : secret.Spent k made) : s.Spends D owner k made := by
  intro found copy hfound _ hcopy
  obtain rfl := Option.some.inj (hfound.symm.trans hrow)
  obtain rfl := Option.some.inj (hcopy.symm.trans hmain)
  exact holds_wrap hA hbounded hspent key nonce

/-- The turn of a check is in the step that the secret counts, since every secret has the step of
the policy. -/
theorem Otp.Secret.Regular.step_eq {secret : Otp.Secret} (hs : secret.Regular D.policy)
    {seconds : Nat} (hseconds : t.seconds = seconds) (hk : t.step D = k) :
    seconds / secret.step = k := by
  rw [hs.step, ← hseconds]
  exact hk

/-! ## §2 — one turn -/

/-- What is opened in a check of the main copy that is there: it counts steps by the policy, and so
many attempts are spent. -/
theorem checked_main (hr : Regular D h) (hs : (h.state D).Spends D owner k made)
    {session : Session} {password code : String} {row : FactorRecord} {copies : Copies}
    {check : Otp.Check} (hrow : (h.state D).ledger.records.get? owner = some row)
    (hmain : row.hasMain copies.main = true)
    (hcheck : Service.MainChecked (t.occasion D) session password code (t.facing (h.state D)) copies
      check) :
    ∃ secret, secret.Regular D.policy ∧ secret.Spent k made ∧ t.Checks D secret check := by
  obtain ⟨secret, seconds, hopen, hnow, hcode⟩ := hcheck.checked
  obtain rfl := Instant.seconds_of_sinceEpoch? hnow
  obtain ⟨hon, hcopy⟩ := FactorRecord.hasMain_iff.1 hmain
  have hregular := hr.rows owner row (had_of_record hrow) hon _ (.inl hcopy) _ _ hopen
  exact ⟨secret, hregular, hs row _ hrow hon hcopy _ _ hopen, _, hcode⟩

/-- A verification that has written the main copy found there the copy that it was shown, and wrote
what it checked. -/
theorem Turn.Persists.rechecked (hp : t.Persists D h owner) :
    ∃ session password code row copies check,
      (h.state D).ledger.records.get? owner = some row ∧ row.hasMain copies.main = true ∧
      Service.MainChecked (t.occasion D) session password code (t.facing (h.state D)) copies
        check ∧
      (t.next D (h.state D)).ledger.records.get? owner = some { row with
        main := some (Service.Outcome.recheckedMain (t.occasion D) password check)
        updated := t.now } := by
  obtain ⟨session, password, code, hcall, -⟩ := hp.called
  rcases t.rewrites D (h.state D) owner with hsame | ⟨call, hcall', hrewrites⟩
  · exact absurd (by rw [hsame]) hp.written
  obtain rfl := Option.some.inj (hcall.symm.trans hcall')
  generalize hafter : (t.next D (h.state D)).ledger.records.get? owner = after at hrewrites
  cases hrewrites with
  | kept =>
    refine absurd ?_ hp.written
    rw [hafter]
    rfl
  | rechecked _ hrow hmain hcheck => exact ⟨_, _, _, _, _, _, hrow, hmain, hcheck, rfl⟩

/-- **A turn in the step** leaves spent what was spent: the count goes with the secret, and a
recovery, which goes back to an older count, has used every step of the window. -/
theorem spends_turn (hA : D.primitives.Authentic) (ht : t.Timely D h) (hr : Regular D h)
    (hon : t.staysOn D (h.state D) owner = true) (hk : t.step D = k)
    (hless : made < UInt32.size - 1) (hs : (h.state D).Spends D owner k made) :
    (t.next D (h.state D)).Spends D owner k made := by
  obtain ⟨hbefore, hthen⟩ := Bool.and_eq_true _ _ ▸ hon
  have hkept : (t.next D (h.state D)).ledger.records.get? owner =
      (h.state D).ledger.records.get? owner → (t.next D (h.state D)).Spends D owner k made :=
    fun hsame row copy hrow => hs row copy (hsame.symm.trans hrow)
  rcases t.rewrites D (h.state D) owner with hsame | ⟨call, hcall, hrewrites⟩
  · exact hkept hsame
  generalize hafter : (t.next D (h.state D)).ledger.records.get? owner = after at hrewrites
  have hstays : after.any (·.enabled) = true := hafter ▸ hthen
  cases hrewrites with
  | kept => exact hkept hafter
  | enabled _ hoff => cases hoff.symm.trans hbefore
  | rechecked _ hrow hmain hcheck =>
    obtain ⟨secret, hregular, hspent, hcode⟩ := checked_main hr hs hrow hmain hcheck
    refine .of_wrap hA hafter rfl (ht.regular_check hcode hregular).bounded ?_
    obtain ⟨code, hcode⟩ := hcode
    exact (hspent.check hless hcode (hregular.step_eq rfl hk)).fewer
  | resealed _ hrow hmain hopen =>
    obtain ⟨henabled, hcopy⟩ := FactorRecord.hasMain_iff.1 hmain
    exact .of_wrap hA hafter rfl (Otp.Secret.bounded_of_unwrap hopen)
      (hs _ _ hrow henabled hcopy _ _ hopen)
  | recovered hfound _ _ hshown hsecret =>
    -- The backup copy may not know of the latest attempts.
    obtain ⟨held, seconds, hopen, hnow, hretire⟩ := hsecret.opened
    obtain rfl := Instant.seconds_of_sinceEpoch? hnow
    obtain ⟨row, hrow, hactive⟩ := Option.bind_eq_some_iff.1 hshown
    obtain ⟨henabled, -, hbackup, -⟩ := FactorRecord.active?_eq_some.1 hactive
    have hhad := had_of_shown ht hcall (congrArg (Option.map Prod.fst) hfound) hrow
    have hregular := hr.rows owner row hhad henabled _ (.inr hbackup) _ _ hopen
    exact .of_wrap hA hafter rfl (Otp.Secret.bounded_retire hretire hregular.bounded)
      (.of_retire hretire (hregular.step_eq rfl hk))
  | disabled | removed => cases hstays

/-- **An attempt that is written** spends one more, whoever makes it and with whatever session. The
count is in the secret, so it goes where the copy goes. -/
theorem spends_attempt (hA : D.primitives.Authentic) (ht : t.Timely D h) (hr : Regular D h)
    (hwritten : t.Persists D h owner) (hk : t.step D = k) (hless : made < UInt32.size - 1)
    (hs : (h.state D).Spends D owner k made) :
    (t.next D (h.state D)).Spends D owner k (made + 1) := by
  obtain ⟨_, _, _, _, _, _, hrow, hmain, hcheck, hafter⟩ := hwritten.rechecked
  obtain ⟨secret, hregular, hspent, hcode⟩ := checked_main hr hs hrow hmain hcheck
  refine .of_wrap hA hafter rfl (ht.regular_check hcode hregular).bounded ?_
  obtain ⟨code, hcode⟩ := hcode
  exact hspent.check hless hcode (hregular.step_eq rfl hk)

/-! ## §3 — the run -/

theorem Turn.Timely.step_le (ht : t.Timely D h) : h.seconds / D.policy.step ≤ t.step D :=
  Nat.div_le_div_right ht.seconds_le

/-- **The run.** As long as the step lasts, what was written in it is spent. Induction on how the
history goes on. -/
theorem spends_run (hA : D.primitives.Authentic) (hstorable : D.policy.Storable)
    (hspends : h.Spends D owner k made) (hrun : h.All fun past t => t.Timely D past)
    (hmade : made < UInt32.size - 1) (hlasts : h.seconds / D.policy.step ≤ k) :
    (0 < made → h.seconds / D.policy.step = k) ∧ (h.state D).Spends D owner k made := by
  induction hspends with
  | here => exact ⟨nofun, .of_none _ _ _ _⟩
  | @other made past t _ hon ih =>
    have hstep := hrun.2.step_le
    obtain ⟨hbegun, hs⟩ := ih hrun.1 hmade (hstep.trans hlasts)
    rcases Nat.eq_zero_or_pos made with rfl | hpos
    · exact ⟨nofun, .of_none _ _ _ _⟩
    · -- The clock has come to the step, and has not left it.
      have hk : t.step D = k := Nat.le_antisymm hlasts (hbegun hpos ▸ hstep)
      exact ⟨fun _ => hk, spends_turn hA hrun.2 (regular hA hstorable hrun.1) hon hk hmade hs⟩
  | @attempt made past t _ hwritten hk ih =>
    have hless := Nat.lt_of_succ_lt hmade
    obtain ⟨-, hs⟩ := ih hrun.1 hless (hrun.2.step_le.trans hlasts)
    exact ⟨fun _ => hk, spends_attempt hA hrun.2 (regular hA hstorable hrun.1) hwritten hk hless hs⟩

/-- **When the attempts that a step allows are spent**, a verification in it is refused, with
whatever code. The account is let in again in the next step. -/
theorem refused_of_spends (hlimit : D.policy.maxAttempts < UInt32.size - 1) (hr : Regular D h)
    (hs : (h.state D).Spends D owner k D.policy.maxAttempts) (hk : t.step D = k)
    {session : Session} {password code : String}
    (hcall : t.call? D (h.state D) = some (.validate session password code))
    (howner : session.owner = owner) :
    (∃ failure, t.outcome D (h.state D) = some (.error failure)) ∧
      (t.next D (h.state D)).sessions = (h.state D).sessions := by
  subst howner
  obtain ⟨r, hout, hends⟩ := Turn.ends_of_call hcall
  obtain ⟨q, hq, rfl⟩ := Op.ends_map.1 hends
  cases Service.validate_outcome hq with
  | refused _ hquiet | lost _ hquiet => exact ⟨⟨_, hout⟩, hquiet.sessions⟩
  | mistaken _ _ _ hb => exact ⟨⟨_, hout⟩, hb.sessions_eq⟩
  | done hcheck hyes hl _ =>
    obtain ⟨row, hrow, hmain, -⟩ := Ledger.updateMain?_eq hl
    have hchecked := (Service.checkMain_ends hcheck).2 _ rfl
    obtain ⟨secret, hregular, hspent, code', hcode⟩ := checked_main hr hs hrow hmain hchecked
    have hno := hspent.not_accepted hlimit hcode (hregular.step_eq rfl hk)
    obtain ⟨n, haccepted⟩ := Option.isSome_iff_exists.1 hyes
    cases hno.symm.trans haccepted

/-- **Attempts are limited.** In a sequence of attempts whose clock does not go back, only the first
so many that are counted in a step can be accepted or change the steps that are remembered. In a run
of the service whose clock does not go back, with whatever fails of the database and whatever
earlier records are shown, a verification for an account is refused without a new token when so many
attempts were written in its step, whatever the session and the code, and whether or not the
password was changed or recovered in between. -/
theorem attempts_limited {m : Nat} (hlimit : m < UInt32.size - 1) :
    (∀ (P : Primitives) (s : Otp.Secret) (as : List Otp.Attempt) (k : Nat),
      as.Pairwise (fun a b => a.now ≤ b.now) →
      (∀ x ∈ (Otp.Trial.countedIn k (s.trials P m as)).drop m, x.isHeeded = false) ∧
        (Otp.Trial.heededIn k (s.trials P m as)).length ≤ m) ∧
    ∀ (D : Deployment), D.primitives.Authentic → D.policy.Storable → D.policy.maxAttempts = m →
      ∀ (h : History) (t : Turn) (owner : Uuid), (h.turn t).All (fun past t => t.Timely D past) →
      h.Spends D owner (t.step D) m →
      ∀ (session : Session) (password code : String), session.owner = owner →
      t.call? D (h.state D) = some (.validate session password code) →
      (∃ failure, t.outcome D (h.state D) = some (.error failure)) ∧
        (t.next D (h.state D)).sessions = (h.state D).sessions := by
  constructor
  · intro P s as k hclock
    have hidle := Otp.Secret.idle_beyond_limit (P := P) (s := s) (k := k) hlimit hclock
      (Nat.zero_le m) (.inl rfl)
    exact ⟨hidle, Otp.Secret.length_heededIn_le hlimit hclock⟩
  · rintro D hA hstorable rfl h t owner hrun hspends session password code howner hcall
    obtain ⟨-, hs⟩ := spends_run hA hstorable hspends hrun.1 hlimit hrun.2.step_le
    exact refused_of_spends hlimit (regular hA hstorable hrun.1) hs rfl hcall howner

/-! A service that allows two attempts in a step. Both are made, and the password is changed before
a right code is tried. -/

/-- The service on transparent primitives, with two attempts in a step. -/
def Deployment.strict : Deployment :=
  { Deployment.transparent with policy := { Otp.Policy.usual with maxAttempts := 2 } }

/-- A turn in the step after the tenth, with random values of its own. -/
def Turn.inEleventh (b : UInt8) (act : Act) : Turn :=
  { Turn.inStep b act with now := .ofUnix (330 + b.toNat) 0 }

/-- The run up to where the second factor is on. -/
def History.secured : History :=
  .turn (.turn (.turn (.start .missing)
    (.inStep 1 (.call (.register "a@b.c" "password"))))
    (.inStep 2 (.call (.setup ⟨.ofByte 1, .empty, .ofByte 0⟩ "password"))))
    (.inStep 3 (.call (.activate ⟨.ofByte 1, .empty, .ofByte 0⟩ "000003")))

/-- The run up to where the password is changed, after two wrong codes from two sessions. -/
def History.guessing : History :=
  .turn (.turn (.turn .secured
    (.inEleventh 4 (.call (.validate ⟨.ofByte 1, .on, .ofByte 1⟩ "password" "000001"))))
    (.inEleventh 5 (.call (.validate ⟨.ofByte 1, .on, .ofByte 2⟩ "password" "000002"))))
    (.inEleventh 6 (.call (.changePassword ⟨.ofByte 1, .verified, .ofByte 3⟩ "password"
      "passw0rd")))

/-- A right code. -/
def Turn.knowing : Turn :=
  .inEleventh 7 (.call (.validate ⟨.ofByte 1, .on, .ofByte 4⟩ "passw0rd" "000011"))

/-- Three attempts in a step, the last with the right code. -/
def Otp.Attempt.guessing : List Otp.Attempt :=
  [.inStep 10 "000001", .inStep 10 "000002", .inStep 10 "000010"]

theorem attempts_limited_guessing :
    ((Otp.Secret.fresh.trials .transparent 3 Otp.Attempt.guessing).any (·.isHeeded) = true ∧
      (Otp.Trial.heededIn 10
        (Otp.Secret.fresh.trials .transparent 2 Otp.Attempt.guessing)).length ≤ 2 ∧
      ∀ x ∈ (Otp.Trial.countedIn 10
        (Otp.Secret.fresh.trials .transparent 2 Otp.Attempt.guessing)).drop 2,
        x.isHeeded = false) ∧
    (Turn.knowing.answers .transparent (History.guessing.state .transparent) ∧
      ∃ failure, Turn.knowing.outcome .strict (History.guessing.state .strict) =
        some (.error failure)) := by
  obtain ⟨hsequences, hruns⟩ := attempts_limited (m := 2) (by decide)
  obtain ⟨hidle, hlength⟩ := hsequences .transparent .fresh Otp.Attempt.guessing 10 (by decide)
  have hrun : (History.guessing.turn .knowing).All fun past t => t.Timely .strict past :=
    ⟨⟨⟨⟨⟨⟨⟨trivial,
      .of_current rfl rfl (by decide +kernel) (by decide) (by decide +kernel)⟩,
      .of_current rfl rfl (by decide +kernel) (by decide) (by decide +kernel)⟩,
      .of_current rfl rfl (by decide +kernel) (by decide) (by decide +kernel)⟩,
      .of_current rfl rfl (by decide +kernel) (by decide) (by decide +kernel)⟩,
      .of_current rfl rfl (by decide +kernel) (by decide) (by decide +kernel)⟩,
      .of_current rfl rfl (by decide +kernel) (by decide) (by decide +kernel)⟩,
      .of_current rfl rfl (by decide +kernel) (by decide) (by decide +kernel)⟩
  have hspends : History.guessing.Spends .strict (.ofByte 1) (Turn.knowing.step .strict) 2 :=
    .other (.attempt (.attempt .here
      ⟨⟨_, _, _, rfl, rfl⟩, by decide +kernel⟩ (by decide +kernel))
      ⟨⟨_, _, _, rfl, rfl⟩, by decide +kernel⟩ (by decide +kernel)) (by decide +kernel)
  obtain ⟨hrefused, -⟩ := hruns .strict Primitives.transparent_authentic ⟨by decide, by decide⟩ rfl
    .guessing .knowing (.ofByte 1) hrun hspends _ _ _ rfl rfl
  exact ⟨⟨by decide +kernel, hlength, hidle⟩, by decide +kernel, hrefused⟩

end SecondFactor
