import SecondFactor.Proofs.Otp.Verdict

/-!
# One attempt after the other

Each attempt meets the secret that the one before left; an attempt that fails leaves it as it was.
Two things hold of any such sequence, whatever codes are tried. A step allows no more attempts than
the limit, if the clock does not go back. And no step is accepted twice, even if the clock goes back
by as many steps as are accepted around the current one: a used step is forgotten only once it lies
so far back that no attempt reaches it any more.

## The architecture

* **`Trial`** — an attempt with what it met and what came of it; **`trials`** — a whole sequence.
* **`Made`** — the attempts so far in a step; **`idle_beyond_limit`** — what comes after the limit
  is reached, by induction on the attempts.
* **`Spent`** — the same for a secret that may have gone through a recovery.
* **`Bars`** — a step cannot be accepted by the attempts to come; **`Bars.check`** — an attempt
  keeps it so; **`not_accepted_of_bars`** — the sequence, by induction.
* **`steps_accepted_once`** — no step is accepted twice.
-/

namespace SecondFactor.Otp

/-! ## §1 — sequences of attempts -/

/-- A code that is tried at a time. -/
structure Attempt where
  code : String
  now : Nat

/-- An attempt with the secret that it met, and what came of it. -/
structure Trial where
  before : Secret
  now : Nat
  result : Except Failure Check

namespace Trial

variable (x : Trial)

/-- The step in which the attempt was made. -/
def step : Nat := x.now / x.before.step

/-- The secret that the next attempt meets. -/
def after : Secret :=
  match x.result with
  | .ok c => c.secret
  | .error _ => x.before

/-- The step whose code was accepted. -/
def accepted? : Option Nat :=
  match x.result with
  | .ok c => c.accepted
  | .error _ => none

/-- The attempt was counted, whether or not its code was looked at. -/
def isCounted : Bool :=
  match x.result with
  | .ok _ => true
  | .error _ => false

/-- The code was accepted, or the steps that are remembered have changed. -/
def isHeeded : Bool := x.accepted?.isSome || x.after.usedSteps != x.before.usedSteps

variable {x}

/-- The attempts of a sequence that were made in a step and counted. -/
def countedIn (k : Nat) (xs : List Trial) : List Trial :=
  xs.filter fun x => x.step = k ∧ x.isCounted = true

/-- The attempts of a sequence that were made in a step and heeded. -/
def heededIn (k : Nat) (xs : List Trial) : List Trial :=
  xs.filter fun x => x.step = k ∧ x.isHeeded = true

/-- An attempt that is heeded is counted as well. -/
theorem isCounted_of_isHeeded (h : x.isHeeded = true) : x.isCounted = true := by
  obtain ⟨before, now, failure | c⟩ := x
  · have hsame : (before.usedSteps != before.usedSteps) = true := h
    rw [bne_self_eq_false] at hsame
    cases hsame
  · rfl

theorem countedIn_cons (k : Nat) (x : Trial) (xs : List Trial) : countedIn k (x :: xs) =
    if x.step = k ∧ x.isCounted = true then x :: countedIn k xs else countedIn k xs := by
  unfold countedIn
  rw [List.filter_cons]
  exact if_congr decide_eq_true_iff rfl rfl

theorem heededIn_eq (k : Nat) (xs : List Trial) :
    heededIn k xs = (countedIn k xs).filter (·.isHeeded) := by
  unfold heededIn countedIn
  rw [List.filter_filter]
  refine List.filter_congr fun x _ => ?_
  cases hx : x.isHeeded with
  | false => simp
  | true => simp [isCounted_of_isHeeded hx]

end Trial

namespace Secret

variable (P : Primitives) (maxAttempts : Nat)

/-- The attempts of a sequence, when `maxAttempts` attempts in a step are looked at. -/
def trials : Secret → List Attempt → List Trial
  | _, [] => []
  | s, a :: as =>
    let x : Trial := ⟨s, a.now, s.check P maxAttempts a.code a.now⟩
    x :: trials x.after as

variable {P maxAttempts} {s : Secret} {as : List Attempt} {c : Check} {code : String}
  {now n k : Nat}

/-- An attempt that breaks off leaves the secret as it was, so the sequence goes on from there. -/
theorem trials_of_error {a : Attempt} {failure : Failure}
    (h : s.check P maxAttempts a.code a.now = .error failure) :
    s.trials P maxAttempts (a :: as) = ⟨s, a.now, .error failure⟩ :: s.trials P maxAttempts as := by
  rw [trials, h]
  rfl

theorem trials_of_ok {a : Attempt} (h : s.check P maxAttempts a.code a.now = .ok c) :
    s.trials P maxAttempts (a :: as) = ⟨s, a.now, .ok c⟩ :: c.secret.trials P maxAttempts as := by
  rw [trials, h]
  rfl

/-- The attempts of a sequence are made in the steps of their times. -/
theorem step_of_mem_trials {x : Trial} (hx : x ∈ s.trials P maxAttempts as) :
    ∃ a ∈ as, x.step = a.now / s.step := by
  induction as generalizing s with
  | nil => cases hx
  | cons a as ih =>
    rcases List.mem_cons.1 hx with rfl | hrest
    · exact ⟨a, List.mem_cons_self, rfl⟩
    · obtain ⟨b, hb, hstep⟩ := ih hrest
      refine ⟨b, List.mem_cons_of_mem a hb, hstep.trans (congrArg _ ?_)⟩
      unfold Trial.after
      cases hcheck : s.check P maxAttempts a.code a.now with
      | error failure => rfl
      | ok c => exact step_eq_of_core (core_check hcheck)

/-! ## §2 — the limit -/

theorem attempts_check (h : s.check P maxAttempts code now = .ok c) :
    c.secret.attemptStep = now / s.step ∧ c.secret.attemptsInStep = s.tally (now / s.step) := by
  rw [← attemptsInStep_countAttempt]
  cases (check_cases h).2 <;> exact ⟨rfl, rfl⟩

/-- **An attempt beyond the limit** is counted, and nothing else. Whether its code was right makes
no difference to what follows. -/
theorem check_beyond (h : s.check P maxAttempts code now = .ok c)
    (hbeyond : maxAttempts < s.tally (now / s.step)) :
    c = ⟨s.countAttempt (now / s.step), none⟩ := by
  have hlength := length_of_check h
  have hunseen : ¬ s.LooksAt maxAttempts code (now / s.step) :=
    fun hseen => Nat.not_le_of_lt hbeyond hseen.1
  exact Except.ok.inj (h.symm.trans (check_of_unseen (check_cases h).1 hlength hunseen))

/-- So many attempts were made in a step, if not more. -/
def Made (s : Secret) (k made : Nat) : Prop :=
  made = 0 ∨ s.attemptStep = k ∧ made ≤ s.attemptsInStep

/-- The stored count runs along with the attempts made, up to the greatest number that it can hold.
The limit is below that. -/
theorem Made.lt_tally {made : Nat} (h : s.Made k made) (hmade : made < UInt32.size - 1) :
    made < s.tally k := by
  unfold tally
  rcases h with rfl | ⟨hstep, hcounted⟩
  · split
    · exact Nat.lt_min.2 ⟨Nat.succ_pos _, hmade⟩
    · exact Nat.one_pos
  · rw [if_pos hstep]
    exact Nat.lt_min.2 ⟨Nat.lt_succ_of_le hcounted, hmade⟩

theorem Made.fewer {made : Nat} (h : s.Made k (made + 1)) : s.Made k made :=
  h.imp nofun fun ⟨hstep, hcounted⟩ => ⟨hstep, Nat.le_of_succ_le hcounted⟩

theorem Made.check {made : Nat} (hmade : s.Made k made) (hless : made < UInt32.size - 1)
    (h : s.check P maxAttempts code now = .ok c) (hk : now / s.step = k) :
    c.secret.Made k (made + 1) := by
  obtain ⟨hstep, hcounted⟩ := attempts_check h
  rw [hk] at hstep hcounted
  exact .inr ⟨hstep, hcounted ▸ hmade.lt_tally hless⟩

/-- No attempt is made any more in a step that the clock has left behind. -/
theorem countedIn_passed (hpassed : ∀ a ∈ as, k < a.now / s.step) :
    Trial.countedIn k (s.trials P maxAttempts as) = [] := by
  refine List.filter_eq_nil_iff.2 fun x hx hk => ?_
  obtain ⟨a, ha, hstep⟩ := step_of_mem_trials hx
  have hpast := hpassed a ha
  rw [← hstep, (of_decide_eq_true hk).1] at hpast
  exact Nat.lt_irrefl k hpast

/-- **Beyond the limit nothing is heeded.** When so many attempts were made in a step, only what is
left to the limit can be heeded in it. Induction on the attempts. -/
theorem idle_beyond_limit (hlimit : maxAttempts < UInt32.size - 1) {made : Nat}
    (hclock : as.Pairwise fun a b => a.now ≤ b.now) (hmade : made ≤ maxAttempts)
    (hstart : made = 0 ∨ s.Made k made ∧ ∀ a ∈ as, k ≤ a.now / s.step) :
    ∀ x ∈ (Trial.countedIn k (s.trials P maxAttempts as)).drop (maxAttempts - made),
      x.isHeeded = false := by
  induction as generalizing s made with
  | nil =>
    intro x hx
    cases List.mem_of_mem_drop hx
  | cons a as ih =>
    obtain ⟨hfirst, hrest⟩ := List.pairwise_cons.1 hclock
    cases hcheck : s.check P maxAttempts a.code a.now with
    | error failure =>
      rw [trials_of_error hcheck, Trial.countedIn_cons, if_neg fun h => Bool.false_ne_true h.2]
      refine ih hrest hmade (hstart.imp_right fun h => ⟨h.1, fun b hb => ?_⟩)
      exact h.2 b (List.mem_cons_of_mem a hb)
    | ok c =>
      have hsame := step_eq_of_core (core_check hcheck)
      have hbefore : s.Made k made := hstart.elim .inl And.left
      have hless := Nat.lt_of_le_of_lt hmade hlimit
      rw [trials_of_ok hcheck, Trial.countedIn_cons]
      by_cases hk : a.now / s.step = k
      · rw [if_pos ⟨hk, rfl⟩]
        have hmore := hbefore.check hless hcheck hk
        have hlater : ∀ b ∈ as, k ≤ b.now / c.secret.step := by
          intro b hb
          rw [hsame, ← hk]
          exact Nat.div_le_div_right (hfirst b hb)
        rcases Nat.lt_or_eq_of_le hmade with hleft | rfl
        · -- The step allows this attempt, and has one less left.
          rw [show maxAttempts - made = (maxAttempts - (made + 1)) + 1 by omega,
            List.drop_succ_cons]
          exact ih hrest hleft (.inr ⟨hmore, hlater⟩)
        · -- The limit is reached, by this attempt and by those that follow.
          have hidle := ih hrest hmade (.inr ⟨hmore.fewer, hlater⟩)
          rw [Nat.sub_self, List.drop_zero] at hidle ⊢
          refine List.forall_mem_cons.2 ⟨?_, hidle⟩
          obtain rfl := check_beyond hcheck (hk ▸ hbefore.lt_tally hless)
          exact bne_self_eq_false _
      · rw [if_neg fun h => hk h.1]
        rcases hstart with rfl | ⟨-, hreached⟩
        · exact ih hrest hmade (.inl rfl)
        · have hpassed := Nat.lt_of_le_of_ne (hreached a List.mem_cons_self) (Ne.symm hk)
          have hlater : ∀ b ∈ as, k < b.now / c.secret.step := by
            intro b hb
            rw [hsame]
            exact Nat.lt_of_lt_of_le hpassed (Nat.div_le_div_right (hfirst b hb))
          rw [countedIn_passed hlater]
          intro x hx
          cases List.mem_of_mem_drop hx

/-- **A step allows no more attempts than the limit.** The attempts may be made at any times and in
any order, as long as they are made one after the other. -/
theorem length_heededIn_le (hlimit : maxAttempts < UInt32.size - 1)
    (hclock : as.Pairwise fun a b => a.now ≤ b.now) :
    (Trial.heededIn k (s.trials P maxAttempts as)).length ≤ maxAttempts := by
  have hidle := idle_beyond_limit (P := P) (s := s) (k := k) hlimit hclock (Nat.zero_le _)
    (.inl rfl)
  rw [Nat.sub_zero] at hidle
  rw [Trial.heededIn_eq]
  generalize Trial.countedIn k (s.trials P maxAttempts as) = counted at hidle ⊢
  have hrest : (counted.drop maxAttempts).filter (·.isHeeded) = [] :=
    List.filter_eq_nil_iff.2 fun x hx => by
      rw [hidle x hx]
      exact Bool.false_ne_true
  rw [← List.take_append_drop maxAttempts counted, List.filter_append, hrest, List.append_nil]
  exact (List.length_filter_le _ _).trans (List.length_take_le _ _)

/-! ### Steps that are spent

A recovery goes back to an older copy, which does not know of the latest attempts. It leaves no step
of the window to be accepted instead. -/

/-- So many attempts in a step are spent: they were made, or there is no step left for any. -/
def Spent (s : Secret) (k made : Nat) : Prop :=
  s.Made k made ∨ ∀ n ∈ s.window k, n ∈ s.usedSteps

theorem window_eq_of_core {t : Secret} (h : s.core = t.core) (k : Nat) :
    s.window k = t.window k := by
  obtain ⟨-, -, -, -, -, -, hskew⟩ := core_eq_iff.1 h
  unfold window
  rw [hskew]

/-- What a check forgets lies two windows back. -/
theorem used_or_passed (h : s.check P maxAttempts code now = .ok c) (hn : n ∈ s.usedSteps) :
    n ∈ c.secret.usedSteps ∨ n + 2 * s.skew < now / s.step := by
  have hkept : ∀ {t : Secret}, n ∈ t.usedSteps → t.skew = s.skew →
      n ∈ (t.forgetBefore (now / s.step)).usedSteps ∨ n + 2 * s.skew < now / s.step := by
    intro t ht hskew
    by_cases hrecent : now / s.step ≤ n + 2 * s.skew
    · exact .inl (mem_forgetBefore.2 ⟨ht, hskew ▸ hrecent⟩)
    · exact .inr (Nat.lt_of_not_le hrecent)
  cases (check_cases h).2 with
  | unseen => exact .inl hn
  | matched _ _ => exact hkept (mem_markUsed.2 (.inl hn)) rfl
  | unmatched => exact hkept hn rfl

namespace Spent

variable {made : Nat}

theorem fewer (h : s.Spent k (made + 1)) : s.Spent k made := h.imp_left Made.fewer

/-- **A check in the step** spends one attempt more, whether or not its code is looked at. -/
theorem check (hs : s.Spent k made) (hless : made < UInt32.size - 1)
    (h : s.check P maxAttempts code now = .ok c) (hk : now / s.step = k) :
    c.secret.Spent k (made + 1) := by
  refine hs.imp (·.check hless h hk) fun hused n hn => ?_
  rw [window_eq_of_core (core_check h)] at hn
  refine (used_or_passed h (hused n hn)).resolve_right fun hpassed => ?_
  have hlow := (mem_window.1 hn).1
  omega

/-- **When the attempts that a step allows are spent**, no code is accepted in it, be it right or
wrong. -/
theorem not_accepted (hs : s.Spent k maxAttempts) (hlimit : maxAttempts < UInt32.size - 1)
    (h : s.check P maxAttempts code now = .ok c) (hk : now / s.step = k) : c.accepted = none := by
  rcases hs with hmade | hused
  · obtain rfl := check_beyond h (hk ▸ hmade.lt_tally hlimit)
    rfl
  · cases (check_cases h).2 with
    | unseen | unmatched => rfl
    | matched hwindow hfresh => exact absurd (hused _ (hk ▸ hwindow)) hfresh

/-- **A recovery in the step** leaves nothing to spend. It uses up every step of the window, and the
count of attempts with it. -/
theorem of_retire {t : Secret} (h : s.retire now = .ok t) (hk : now / s.step = k) :
    t.Spent k made := by
  obtain ⟨-, hcore, hused⟩ := retire_spec h
  refine .inr fun n hn => (hused n).2 (.inr ?_)
  rw [window_eq_of_core hcore] at hn
  rw [hk]
  exact mem_window.1 hn

end Spent

/-! ## §3 — steps are accepted once -/

/-- The attempts to come cannot accept a step: it is used, or their windows have passed it. -/
def Bars (s : Secret) (n : Nat) (as : List Attempt) : Prop :=
  n ∈ s.usedSteps ∨ ∀ a ∈ as, n + s.skew < a.now / s.step

/-- An accepted step is used from then on. -/
theorem used_of_accepted (h : s.check P maxAttempts code now = .ok c) (hn : c.accepted = some n) :
    n ∈ c.secret.usedSteps := by
  cases (check_cases h).2 with
  | unseen => cases hn
  | matched hwindow _ =>
    cases hn
    have hlow := (mem_window.1 hwindow).1
    refine mem_forgetBefore.2 ⟨mem_markUsed.2 (.inr rfl), ?_⟩
    show now / s.step ≤ n + 2 * s.skew
    omega
  | unmatched => cases hn

/-- **A check leaves steps barred**, if the attempts to come are no further back than the skew. A
step is barred because it is used, or because no window will reach it. -/
theorem Bars.check (h : s.check P maxAttempts code now = .ok c) (hbars : s.Bars n as)
    (hback : ∀ a ∈ as, now / s.step ≤ a.now / s.step + s.skew) : c.secret.Bars n as := by
  obtain ⟨-, -, -, -, -, hstep, hskew⟩ := core_eq_iff.1 (core_check h)
  unfold Bars
  rw [hstep, hskew]
  rcases hbars with hused | hpassed
  · refine (used_or_passed h hused).imp_right fun hfar a ha => ?_
    have hnear := hback a ha
    omega
  · exact .inr hpassed

theorem clock_check (h : s.check P maxAttempts code now = .ok c)
    (hclock : as.Pairwise fun a b => a.now / s.step ≤ b.now / s.step + s.skew) :
    as.Pairwise fun a b => a.now / c.secret.step ≤ b.now / c.secret.step + c.secret.skew := by
  obtain ⟨-, -, -, -, -, hstep, hskew⟩ := core_eq_iff.1 (core_check h)
  rw [hstep, hskew]
  exact hclock

/-- **A barred step is not accepted.** Induction on the attempts, each of which leaves it barred for
those that follow. -/
theorem not_accepted_of_bars (hbars : s.Bars n as)
    (hclock : as.Pairwise fun a b => a.now / s.step ≤ b.now / s.step + s.skew) :
    ∀ x ∈ s.trials P maxAttempts as, x.accepted? ≠ some n := by
  induction as generalizing s with
  | nil => nofun
  | cons a as ih =>
    obtain ⟨hfirst, hrest⟩ := List.pairwise_cons.1 hclock
    have hlater : s.Bars n as := hbars.imp_right fun h b hb => h b (List.mem_cons_of_mem a hb)
    have hcovers : s.Covers n a.now := hbars.imp_right fun h => h a List.mem_cons_self
    cases hcheck : s.check P maxAttempts a.code a.now with
    | error failure =>
      rw [trials_of_error hcheck]
      exact List.forall_mem_cons.2 ⟨nofun, ih hlater hrest⟩
    | ok c =>
      rw [trials_of_ok hcheck]
      have hafter := clock_check hcheck hrest
      exact List.forall_mem_cons.2
        ⟨hcovers.not_accepted hcheck, ih (hlater.check hcheck hfirst) hafter⟩

/-- **No step is accepted twice**, even if the clock goes back, as long as it does not go back by
more steps than the skew. -/
theorem steps_accepted_once (P : Primitives) (maxAttempts : Nat) {s : Secret} {as : List Attempt}
    (hclock : as.Pairwise fun a b => a.now / s.step ≤ b.now / s.step + s.skew) :
    ((s.trials P maxAttempts as).filterMap Trial.accepted?).Nodup := by
  induction as generalizing s with
  | nil => exact List.nodup_nil
  | cons a as ih =>
    obtain ⟨hfirst, hrest⟩ := List.pairwise_cons.1 hclock
    cases hcheck : s.check P maxAttempts a.code a.now with
    | error failure =>
      rw [trials_of_error hcheck, List.filterMap_cons_none rfl]
      exact ih hrest
    | ok c =>
      rw [trials_of_ok hcheck]
      have hafter := clock_check hcheck hrest
      cases haccepted : c.accepted with
      | none =>
        rw [List.filterMap_cons_none (show Trial.accepted? ⟨s, a.now, .ok c⟩ = none from haccepted)]
        exact ih hafter
      | some n =>
        rw [List.filterMap_cons_some
          (show Trial.accepted? ⟨s, a.now, .ok c⟩ = some n from haccepted)]
        refine List.nodup_cons.2 ⟨fun hn => ?_, ih hafter⟩
        obtain ⟨x, hx, hagain⟩ := List.mem_filterMap.1 hn
        -- The step is used, so nothing that follows accepts it.
        exact not_accepted_of_bars (.inl (used_of_accepted hcheck haccepted)) hafter x hx hagain

end Secret

/-! The clock goes back by a step twice. In between, a step is forgotten that was accepted. -/

/-- A secret of the usual policy. -/
def Secret.fresh : Secret := Policy.usual.newSecret "a@b.c" (.replicate 20 7)

/-- A code that is tried at the start of a step of thirty seconds. -/
def Attempt.inStep (step : Nat) (code : String) : Attempt := ⟨code, 30 * step⟩

/-- The attempts: a step, the one before, and two later ones in the wrong order. -/
def Attempt.wavering : List Attempt :=
  [.inStep 10 "000010", .inStep 9 "000009", .inStep 12 "000012", .inStep 11 "000010",
    .inStep 11 "000011"]

/-- Each of the four steps is accepted once. The second attempt on step 10 fails, because that step
is still remembered; step 9 is not, but is out of reach of the window by then. -/
theorem Secret.steps_accepted_once_wavering :
    ((fresh.trials .transparent 5 Attempt.wavering).filterMap Trial.accepted? = [10, 9, 12, 11] ∧
      (fresh.trials .transparent 5 Attempt.wavering).getLast?.map (·.after.usedSteps) =
        some [10, 12, 11]) ∧
    ((fresh.trials .transparent 5 Attempt.wavering).filterMap Trial.accepted?).Nodup :=
  ⟨by decide +kernel, steps_accepted_once .transparent 5 (by decide)⟩

end SecondFactor.Otp
