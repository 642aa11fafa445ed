import SecondFactor.Otp.Check

/-!
# The bookkeeping of a secret

What a check and a recovery do to a secret: they change the bookkeeping and nothing else, keep the
numbers within their widths, and never make a step acceptable again. A step is covered when it is
remembered as used, or lies so far back that no check looks at it any more. Forgetting is thus no
loss, since what is forgotten has been left behind by the window.

## The architecture

* **`Secret.core`** — a secret without its bookkeeping.
* **`check_cases`** — the three things that a check can do to a secret.
* **`Secret.Covers`** — the step cannot be accepted from now on; kept by `covers_check`,
  `covers_retire` and `Covers.later`.
* **`accepted_spec`** — an accepted step was not covered, lies in the window, and is covered then.
-/

namespace SecondFactor.Otp.Secret

variable {P : Primitives} {s t : Secret} {c : Check} {maxAttempts now now' n : Nat} {code : String}

/-! ## §1 — what changes

A check counts the attempt, may mark one step as used, and then forgets old steps. -/

/-- The secret as it was made: without its bookkeeping. -/
def core (s : Secret) : Secret :=
  { s with counter := 0, usedSteps := [], attemptStep := 0, attemptsInStep := 0 }

/-- Two secrets with one core are shared with one authenticator and count steps alike. -/
theorem core_eq_iff {s t : Secret} : s.core = t.core ↔
    s.key = t.key ∧ s.account = t.account ∧ s.issuer = t.issuer ∧ s.algorithm = t.algorithm ∧
      s.digits = t.digits ∧ s.step = t.step ∧ s.skew = t.skew := by
  unfold core
  rw [Secret.mk.injEq]
  constructor
  · rintro ⟨haccount, hissuer, halgorithm, hdigits, hstep, hskew, hkey, -⟩
    exact ⟨hkey, haccount, hissuer, halgorithm, hdigits, hstep, hskew⟩
  · rintro ⟨hkey, haccount, hissuer, halgorithm, hdigits, hstep, hskew⟩
    exact ⟨haccount, hissuer, halgorithm, hdigits, hstep, hskew, hkey, rfl, rfl, rfl, rfl⟩

theorem step_eq_of_core {s t : Secret} (h : s.core = t.core) : s.step = t.step :=
  (core_eq_iff.1 h).2.2.2.2.2.1

/-- A check counts, and then finds a step, finds none, or does not look for one. -/
inductive Checked (s : Secret) (current : Nat) : Check → Prop where
  | unseen : Checked s current ⟨s.countAttempt current, none⟩
  | matched {t : Nat} (hwindow : t ∈ s.window current) (hfresh : t ∉ s.usedSteps) :
      Checked s current ⟨((s.countAttempt current).markUsed t).forgetBefore current, some t⟩
  | unmatched : Checked s current ⟨(s.countAttempt current).forgetBefore current, none⟩

/-- **Everything that a check can do.** It counts the attempt in any case. Beyond the limit it does
nothing else; otherwise it forgets old steps, and uses up the one it finds, if it finds one. -/
theorem check_cases (h : s.check P maxAttempts code now = .ok c) :
    0 < s.step ∧ Checked s (now / s.step) c := by
  unfold check at h
  split at h
  · cases h
  · split at h
    · cases h
    · rename_i hstep
      refine ⟨Nat.pos_of_ne_zero hstep, ?_⟩
      dsimp only at h
      split at h
      · cases h
        exact .unseen
      · split at h
        · cases h
        · split at h
          · cases h
          · split at h
            · rename_i t ht
              cases h
              -- The step was found among those of the window that are not used.
              obtain ⟨hwindow, hfresh⟩ := List.mem_filter.1 (List.mem_of_getLast? ht)
              refine .matched hwindow fun hused => ?_
              have hcontains : (s.countAttempt (now / s.step)).usedSteps.contains t = true :=
                List.contains_iff_mem.2 hused
              rw [hcontains] at hfresh
              cases hfresh
            · cases h
              exact .unmatched

/-- The steps of a window are those no further from the current one than the skew, as far as a clock
can reach. -/
theorem mem_window {current : Nat} : n ∈ s.window current ↔
    current ≤ n + s.skew ∧ n ≤ current + s.skew ∧ n < wordBound := by
  unfold window
  rw [List.mem_filterMap]
  constructor
  · rintro ⟨i, hi, h⟩
    rw [List.mem_range] at hi
    split at h
    · rename_i hfits
      cases h
      omega
    · cases h
  · rintro ⟨hlow, hhigh, hbound⟩
    refine ⟨n + s.skew - current, List.mem_range.2 (by omega), ?_⟩
    rw [if_pos (by omega)]
    exact congrArg some (by omega)

/-! ## §2 — what stays -/

theorem core_check (h : s.check P maxAttempts code now = .ok c) : c.secret.core = s.core := by
  cases (check_cases h).2 <;> rfl

/-- **A check counts one attempt**, up to the greatest stored number. There the counter stays, and
never begins anew. -/
theorem counter_check (h : s.check P maxAttempts code now = .ok c) :
    c.secret.counter = min (s.counter + 1) (wordBound - 1) := by
  cases (check_cases h).2 <;> rfl

theorem mem_forgetBefore {current : Nat} : n ∈ (s.forgetBefore current).usedSteps ↔
    n ∈ s.usedSteps ∧ current ≤ n + 2 * s.skew := by
  show n ∈ s.usedSteps.filter (fun t => current - 2 * s.skew ≤ t) ↔ _
  rw [List.mem_filter, decide_eq_true_iff]
  exact and_congr_right fun _ => ⟨fun h => by omega, fun h => by omega⟩

theorem mem_markUsed {t : Nat} : n ∈ (s.markUsed t).usedSteps ↔ n ∈ s.usedSteps ∨ n = t := by
  show n ∈ s.usedSteps ++ [t] ↔ _
  rw [List.mem_append, List.mem_singleton]

/-- What is used after a check was so before or lies in the window. -/
theorem used_of_check (h : s.check P maxAttempts code now = .ok c) (hn : n ∈ c.secret.usedSteps) :
    n ∈ s.usedSteps ∨ n ∈ s.window (now / s.step) := by
  cases (check_cases h).2 with
  | unseen => exact .inl hn
  | matched hwindow _ =>
    rcases mem_markUsed.1 (mem_forgetBefore.1 hn).1 with hused | rfl
    · exact .inl hused
    · exact .inr hwindow
  | unmatched => exact .inl (mem_forgetBefore.1 hn).1

/-- Counting stops at the greatest number. -/
theorem bounded_countAttempt {current : Nat} (hs : s.Bounded) (hcurrent : current < wordBound) :
    (s.countAttempt current).Bounded := by
  have hcounter : ∀ k, min (k + 1) (wordBound - 1) < wordBound := by
    intro k
    have hpos : 0 < wordBound := by decide
    omega
  have hattempts : ∀ k, min (k + 1) (UInt32.size - 1) < UInt32.size := by
    intro k
    have hpos : 0 < UInt32.size := by decide
    omega
  obtain ⟨hdigits, hstep, hskew, -, hused, -, -⟩ := hs
  unfold countAttempt
  exact ⟨hdigits, hstep, hskew, hcounter _, hused, hcurrent, hattempts _⟩

theorem Bounded.setUsed {used : List Nat} (hs : s.Bounded) (hused : ∀ t ∈ used, t < wordBound) :
    { s with usedSteps := used }.Bounded := by
  obtain ⟨hdigits, hstep, hskew, hcounter, -, hattempt, hattempts⟩ := hs
  exact ⟨hdigits, hstep, hskew, hcounter, hused, hattempt, hattempts⟩

/-- **A check keeps the numbers within their widths**, as long as the clock does. So what was
checked can be stored again. -/
theorem bounded_check (h : s.check P maxAttempts code now = .ok c) (hs : s.Bounded)
    (hnow : now < wordBound) : c.secret.Bounded := by
  have hused : ∀ t ∈ c.secret.usedSteps, t < wordBound := by
    intro t ht
    rcases used_of_check h ht with hbefore | hwindow
    · exact hs.2.2.2.2.1 t hbefore
    · exact (mem_window.1 hwindow).2.2
  have hcounted := bounded_countAttempt hs
    (Nat.lt_of_le_of_lt (Nat.div_le_self now s.step) hnow)
  cases (check_cases h).2 with
  | unseen => exact hcounted
  | matched _ _ => exact hcounted.setUsed hused
  | unmatched => exact hcounted.setUsed hused

/-! ## §3 — retiring the window -/

/-- Steps that are retired one after the other: the result remembers these and what was remembered
before. Induction on the steps. -/
theorem mem_foldl_retireStep (steps : List Nat) (s : Secret) :
    (steps.foldl retireStep s).core = s.core ∧
      ∀ n, n ∈ (steps.foldl retireStep s).usedSteps ↔ n ∈ s.usedSteps ∨ n ∈ steps := by
  induction steps generalizing s with
  | nil => exact ⟨rfl, fun n => by simp⟩
  | cons t steps ih =>
    obtain ⟨hcore, hused⟩ := ih (s.retireStep t)
    have hstep : (s.retireStep t).core = s.core ∧
        ∀ n, n ∈ (s.retireStep t).usedSteps ↔ n ∈ s.usedSteps ∨ n = t := by
      unfold retireStep
      split
      · rename_i hcontains
        have ht := List.contains_iff_mem.1 hcontains
        refine ⟨rfl, fun n => ⟨.inl, ?_⟩⟩
        rintro (hn | rfl)
        · exact hn
        · exact ht
      · exact ⟨rfl, fun n => mem_markUsed⟩
    refine ⟨hcore.trans hstep.1, fun n => ?_⟩
    rw [List.foldl_cons, hused n, hstep.2 n, List.mem_cons, or_assoc]

/-- Retiring steps counts no attempts. -/
theorem counts_foldl_retireStep (steps : List Nat) (s : Secret) :
    (steps.foldl retireStep s).counter = s.counter ∧
      (steps.foldl retireStep s).attemptStep = s.attemptStep ∧
      (steps.foldl retireStep s).attemptsInStep = s.attemptsInStep := by
  induction steps generalizing s with
  | nil => exact ⟨rfl, rfl, rfl⟩
  | cons t steps ih =>
    obtain ⟨hcounter, hattempt, hattempts⟩ := ih (s.retireStep t)
    have hstep : (s.retireStep t).counter = s.counter ∧
        (s.retireStep t).attemptStep = s.attemptStep ∧
        (s.retireStep t).attemptsInStep = s.attemptsInStep := by
      unfold retireStep
      split <;> exact ⟨rfl, rfl, rfl⟩
    exact ⟨hcounter.trans hstep.1, hattempt.trans hstep.2.1, hattempts.trans hstep.2.2⟩

/-- What a recovery makes of a secret: every step of the window is used, and nothing else is
changed. -/
theorem retire_spec (h : s.retire now = .ok t) :
    0 < s.step ∧ t.core = s.core ∧ ∀ n, n ∈ t.usedSteps ↔ n ∈ s.usedSteps ∨
      (now / s.step ≤ n + s.skew ∧ n ≤ now / s.step + s.skew ∧ n < wordBound) := by
  unfold retire at h
  split at h
  · cases h
  · rename_i hstep
    cases h
    -- The range runs from the low end of the window to its high end, both cut to the width.
    obtain ⟨hcore, hused⟩ := mem_foldl_retireStep (List.range' (now / s.step - s.skew)
      (min (now / s.step + s.skew) (wordBound - 1) + 1 - (now / s.step - s.skew))) s
    refine ⟨Nat.pos_of_ne_zero hstep, hcore, fun n => ?_⟩
    rw [hused n, List.mem_range'_1]
    have hpos : 0 < wordBound := by decide
    exact or_congr_right ⟨fun h => by omega, fun h => by omega⟩

theorem core_retire (h : s.retire now = .ok t) : t.core = s.core := (retire_spec h).2.1

/-- A recovery leaves the attempts as they were counted. -/
theorem counts_retire (h : s.retire now = .ok t) : t.counter = s.counter ∧
    t.attemptStep = s.attemptStep ∧ t.attemptsInStep = s.attemptsInStep := by
  unfold retire at h
  split at h
  · cases h
  · cases h
    exact counts_foldl_retireStep _ s

/-- What is retired are steps of the window, which are within bounds. -/
theorem bounded_retire (h : s.retire now = .ok t) (hs : s.Bounded) : t.Bounded := by
  obtain ⟨-, hcore, hused⟩ := retire_spec h
  obtain ⟨-, -, -, -, hdigits, hstep, hskew⟩ := core_eq_iff.1 hcore
  have hcounts := counts_retire h
  obtain ⟨hdigits', hstep', hskew', hcounter', hsteps', hattempt', hattempts'⟩ := hs
  refine ⟨hdigits ▸ hdigits', hstep ▸ hstep', hskew ▸ hskew', hcounts.1 ▸ hcounter', ?_,
    hcounts.2.1 ▸ hattempt', hcounts.2.2 ▸ hattempts'⟩
  intro n hn
  rcases (hused n).1 hn with h | h
  · exact hsteps' n h
  · exact h.2.2

/-! ## §4 — steps that cannot be accepted

The window moves on with the clock, so a step that it has passed stays behind it. -/

/-- The step is used, or the window has passed it. -/
def Covers (s : Secret) (n now : Nat) : Prop := n ∈ s.usedSteps ∨ n + s.skew < now / s.step

theorem Covers.later (h : s.Covers n now) (hle : now ≤ now') : s.Covers n now' := by
  rcases h with hused | hpassed
  · exact .inl hused
  · exact .inr (Nat.lt_of_lt_of_le hpassed (Nat.div_le_div_right hle))

/-- **A covered step is not accepted.** It is used, or it lies behind the window, and the clock only
takes the window further. -/
theorem Covers.not_accepted (h : s.Covers n now) (hc : s.check P maxAttempts code now = .ok c) :
    c.accepted ≠ some n := by
  intro haccepted
  cases (check_cases hc).2 with
  | unseen => cases haccepted
  | matched hwindow hfresh =>
    cases haccepted
    rcases h with hused | hpassed
    · exact hfresh hused
    · have hlow := (mem_window.1 hwindow).1
      omega
  | unmatched => cases haccepted

/-- Forgetting leaves steps covered: what is forgotten has been passed by the window. -/
theorem covers_forgetBefore (h : s.Covers n now) :
    (s.forgetBefore (now / s.step)).Covers n now := by
  rcases h with hused | hpassed
  · -- A used step is forgotten when it is two windows back, and then the window has passed it.
    by_cases hkept : now / s.step ≤ n + 2 * s.skew
    · exact .inl (mem_forgetBefore.2 ⟨hused, hkept⟩)
    · refine .inr ?_
      show n + s.skew < now / s.step
      omega
  · exact .inr hpassed

/-- **A check leaves steps covered.** It forgets a used step only when the window has passed it, so
that the one reason gives way to the other. -/
theorem covers_check (h : s.check P maxAttempts code now = .ok c) (hn : s.Covers n now) :
    c.secret.Covers n now := by
  have hcounted : (s.countAttempt (now / s.step)).Covers n now := hn
  cases (check_cases h).2 with
  | unseen => exact hcounted
  | @matched t _ _ =>
    have hmarked : ((s.countAttempt (now / s.step)).markUsed t).Covers n now := by
      rcases hcounted with hused | hpassed
      · exact .inl (mem_markUsed.2 (.inl hused))
      · exact .inr hpassed
    exact covers_forgetBefore hmarked
  | unmatched => exact covers_forgetBefore hcounted

/-- **An accepted step** lies in the window, and is covered from then on. This is where a step is
honoured, and the reason why it is not honoured again. -/
theorem accepted_spec (h : s.check P maxAttempts code now = .ok c) (hn : c.accepted = some n) :
    n ≤ now / s.step + s.skew ∧ n < wordBound ∧ c.secret.Covers n now := by
  cases (check_cases h).2 with
  | unseen => cases hn
  | matched hwindow _ =>
    cases hn
    obtain ⟨-, hhigh, hbound⟩ := mem_window.1 hwindow
    have hmarked : ((s.countAttempt (now / s.step)).markUsed n).Covers n now :=
      .inl (mem_markUsed.2 (.inr rfl))
    exact ⟨hhigh, hbound, covers_forgetBefore hmarked⟩
  | unmatched => cases hn

/-- **A recovery covers every step up to the end of the window**, whatever the copy remembers. Steps
that were accepted with another copy are among them. -/
theorem covers_retire (h : s.retire now = .ok t) (hhigh : n ≤ now / s.step + s.skew)
    (hbound : n < wordBound) : t.Covers n now := by
  obtain ⟨-, hcore, hused⟩ := retire_spec h
  obtain ⟨-, -, -, -, -, hstep, hskew⟩ := core_eq_iff.1 hcore
  -- Before the window, nothing has to be remembered.
  by_cases hlow : now / s.step ≤ n + s.skew
  · exact .inl ((hused n).2 (.inr ⟨hlow, hhigh, hbound⟩))
  · refine .inr ?_
    rw [hstep, hskew]
    omega

end SecondFactor.Otp.Secret
