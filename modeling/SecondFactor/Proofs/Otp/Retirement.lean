import SecondFactor.Proofs.Otp.Attempts
import SecondFactor.Proofs.RecoveryKey

/-!
# Retiring the window

A secret that is restored from an old copy does not know which codes were used since the copy was
made. Retiring the window closes the past for it: no code is accepted any more for a step that a
check could have accepted by then, not even once the retired steps are forgotten again, since they
are forgotten only when the window has passed them. The future stays open: a step beyond the window
is accepted whenever it would have been.

## The architecture

* **`retire_eq`** — what is added to the used steps, in closed form.
* **`accepted_beyond_iff`** — for a later step it makes no difference that earlier ones are used.
* **`spec_codeText`** — the codes that are made can be checked; **`accepted_ahead`** — each step has
  a time at which its code is accepted.
* **`Covers.not_accepted_later`** — what is covered once is not accepted any more.
* **`Closes`** — all that is said of retiring; **`retire_closes`** — it is so.
-/

namespace SecondFactor.Otp.Secret

variable {P : Primitives} {s : Secret} {key : Bytes} {code : String} {added : List Nat}
  {maxAttempts time now n : Nat}

/-! ## §1 — what is added -/

/-- Different steps, retired one after the other. Induction on the steps. -/
theorem foldl_retireStep {steps : List Nat} (hsteps : steps.Nodup) (s : Secret) :
    steps.foldl retireStep s =
      { s with usedSteps := s.usedSteps ++ steps.filter fun n => !s.usedSteps.contains n } := by
  induction steps generalizing s with
  | nil =>
    rw [List.foldl_nil, List.filter_nil, List.append_nil]
  | cons t steps ih =>
    obtain ⟨hfresh, hrest⟩ := List.nodup_cons.1 hsteps
    rw [List.foldl_cons, List.filter_cons, ih hrest]
    cases hused : s.usedSteps.contains t with
    | true =>
      rw [show s.retireStep t = s from if_pos hused]
      rfl
    | false =>
      rw [show s.retireStep t = s.markUsed t from if_neg (Bool.eq_false_iff.1 hused)]
      -- The step that was just marked does not come again.
      have hsame : steps.filter (fun n => !(s.markUsed t).usedSteps.contains n) =
          steps.filter fun n => !s.usedSteps.contains n := by
        refine List.filter_congr fun n hn => congrArg _ ?_
        have hother : n ≠ t := fun h => hfresh (h ▸ hn)
        rw [Bool.eq_iff_iff, List.contains_iff_mem, List.contains_iff_mem, mem_markUsed]
        exact or_iff_left hother
      rw [hsame]
      exact congrArg (fun used => { s with usedSteps := used }) (List.append_assoc _ [t] _)

/-- **Retiring adds the steps of the window** that are not used yet, in order. What was used stays
in front, also where it lies further back. -/
theorem retire_eq (hstep : 0 < s.step) (time : Nat) :
    ∃ added, s.retire time = .ok { s with usedSteps := s.usedSteps ++ added } ∧
      added.Pairwise (· < ·) ∧
      ∀ n, n ∈ added ↔ n ∉ s.usedSteps ∧ s.Near (time / s.step) n ∧ n < wordBound := by
  have hincreasing := List.pairwise_lt_range' (s := time / s.step - s.skew)
    (n := min (time / s.step + s.skew) (wordBound - 1) + 1 - (time / s.step - s.skew))
  refine ⟨_, ?_, hincreasing.filter fun n => !s.usedSteps.contains n, fun n => ?_⟩
  · unfold retire
    rw [if_neg (Nat.ne_of_gt hstep)]
    exact congrArg _ (foldl_retireStep (hincreasing.imp Nat.ne_of_lt) s)
  · have hpos : 0 < wordBound := by decide
    rw [List.mem_filter, List.mem_range'_1, Bool.not_eq_true', List.contains_eq_mem,
      decide_eq_false_iff_not, and_comm]
    refine and_congr_right fun _ => ⟨fun h => ⟨⟨?_, ?_⟩, ?_⟩, fun ⟨⟨hlow, hhigh⟩, hbound⟩ => ?_⟩
    · omega
    · omega
    · omega
    · omega

/-! ## §2 — the past

Every step up to the end of the window is used or has been passed, so it is barred. -/

/-- A sequence is made of checks. -/
theorem check_of_mem_trials {as : List Attempt} {x : Trial} (hx : x ∈ s.trials P maxAttempts as) :
    ∃ a ∈ as, x.result = x.before.check P maxAttempts a.code a.now := by
  induction as generalizing s with
  | nil => cases hx
  | cons a as ih =>
    rcases List.mem_cons.1 hx with rfl | hrest
    · exact ⟨a, List.mem_cons_self, rfl⟩
    · obtain ⟨b, hb, hresult⟩ := ih hrest
      exact ⟨b, List.mem_cons_of_mem a hb, hresult⟩

/-- A step that is accepted was in a window, so that it is a number that can be stored. -/
theorem lt_wordBound_of_mem_trials {as : List Attempt} {x : Trial}
    (hx : x ∈ s.trials P maxAttempts as) (hn : x.accepted? = some n) : n < wordBound := by
  obtain ⟨a, -, hresult⟩ := check_of_mem_trials hx
  unfold Trial.accepted? at hn
  cases hcheck : x.result with
  | error failure =>
    rw [hcheck] at hn
    cases hn
  | ok c =>
    rw [hcheck] at hn hresult
    exact (accepted_spec hresult.symm hn).2.1

/-- **A covered step is not accepted any more**, as long as the clock does not go back. It is the
attempts that are ordered; between them anything may be done. -/
theorem Covers.not_accepted_later (h : s.Covers n time) {as : List Attempt}
    (hlater : ∀ a ∈ as, time ≤ a.now) (hclock : as.Pairwise fun a b => a.now ≤ b.now) :
    ∀ x ∈ s.trials P maxAttempts as, x.accepted? ≠ some n := by
  refine not_accepted_of_bars (h.imp_right fun hpassed a ha => ?_) (hclock.imp fun hle => ?_)
  · exact Nat.lt_of_lt_of_le hpassed (Nat.div_le_div_right (hlater a ha))
  · exact Nat.le_add_right_of_le (Nat.div_le_div_right hle)

/-! ## §3 — the future -/

/-- Used steps that are added take away the steps that were added, and no others. What a code is
right for is otherwise the same. -/
theorem admits_append : { s with usedSteps := s.usedSteps ++ added }.Admits P key code now n ↔
    n ∉ added ∧ s.Admits P key code now n := by
  constructor
  · rintro ⟨hnear, hunused, hshown⟩
    have hneither := not_or.1 fun h => hunused (List.mem_append.2 h)
    exact ⟨hneither.2, hnear, hneither.1, hshown⟩
  · rintro ⟨hnew, hnear, hunused, hshown⟩
    exact ⟨hnear, fun h => (List.mem_append.1 h).elim hunused hnew, hshown⟩

/-- Nor does it make a difference to the times that are reckoned: the step is the latest of them, so
with its own time those of the earlier ones are stored numbers too. -/
theorem overruns_append_iff (hbefore : ∀ m ∈ added, m < n) (hn : n * s.step < wordBound) :
    { s with usedSteps := s.usedSteps ++ added }.Overruns now ↔ s.Overruns now := by
  constructor
  · exact fun h => h.of_core rfl fun m _ hm => List.mem_append_left added hm
  · rintro ⟨m, hwindow, hunused, hlong⟩
    refine ⟨m, hwindow, fun h => ?_, hlong⟩
    have hnew := (List.mem_append.1 h).resolve_left hunused
    have hle := Nat.mul_le_mul_right s.step (Nat.le_of_lt (hbefore m hnew))
    exact Nat.not_lt.2 hlong (Nat.lt_of_le_of_lt hle hn)

/-- **For a step it makes no difference** that earlier ones are used: it is the last of those for
which a code is right with them or without them. -/
theorem accepted_beyond_iff (hstep : 0 < s.step) (hbefore : ∀ m ∈ added, m < n) :
    (∃ c, { s with usedSteps := s.usedSteps ++ added }.check P maxAttempts code now = .ok c ∧
      c.accepted = some n) ↔
    ∃ c, s.check P maxAttempts code now = .ok c ∧ c.accepted = some n := by
  by_cases husable : ∃ key, s.usableKey = .ok key
  · obtain ⟨key, hkey⟩ := husable
    have hgreatest : ∀ current,
        IsGreatest {m | m < wordBound ∧ { s with usedSteps := s.usedSteps ++ added }.Admits
          P key code current m} n ↔
        IsGreatest {m | m < wordBound ∧ s.Admits P key code current m} n := by
      intro current
      constructor
      · rintro ⟨⟨hfits, hn⟩, hlast⟩
        refine ⟨⟨hfits, (admits_append.1 hn).2⟩, fun m hm => ?_⟩
        by_cases hused : m ∈ added
        · exact Nat.le_of_lt (hbefore m hused)
        · exact hlast ⟨hm.1, admits_append.2 ⟨hused, hm.2⟩⟩
      · rintro ⟨⟨hfits, hn⟩, hlast⟩
        have hnew : n ∉ added := fun hused => Nat.lt_irrefl n (hbefore n hused)
        exact ⟨⟨hfits, admits_append.2 ⟨hnew, hn⟩⟩, fun m hm =>
          hlast ⟨hm.1, (admits_append.1 hm.2).2⟩⟩
    rw [accepted_iff hstep hkey,
      accepted_iff (s := { s with usedSteps := s.usedSteps ++ added }) hstep hkey]
    refine and_congr_right' (and_congr_right' ?_)
    -- In either direction the step is one whose time was reckoned.
    constructor
    · rintro ⟨hfits, hlast⟩
      have hn := hlast.1.2.product_lt hlast.1.1 hfits
      exact ⟨(not_congr (overruns_append_iff (s := s) hbefore hn)).1 hfits, (hgreatest _).1 hlast⟩
    · rintro ⟨hfits, hlast⟩
      have hn := hlast.1.2.product_lt hlast.1.1 hfits
      exact ⟨(not_congr (overruns_append_iff (s := s) hbefore hn)).2 hfits, (hgreatest _).2 hlast⟩
  · constructor
    · rintro ⟨c, hcheck, hn⟩
      exact absurd (usableKey_of_accepted hcheck hn) husable
    · rintro ⟨c, hcheck, hn⟩
      exact absurd (usableKey_of_accepted hcheck hn) husable

/-! ### Codes of later steps -/

/-- The ten digits, looked at one by one. -/
theorem digit_of_lt {i : Nat} (h : i < 10) :
    Symbolic (Char.ofNat (48 + i)) ∧ Text.isDigit (Char.ofNat (48 + i)) = true := by
  have hspec : ∀ i, i < 10 → ((Char.ofNat (48 + i)).utf8Size = 1 ∧ Char.ofNat (48 + i) ≠ '-' ∧
      Char.ofNat (48 + i) ≠ ' ' ∧ (Char.ofNat (48 + i)).toUpper = Char.ofNat (48 + i)) ∧
      Text.isDigit (Char.ofNat (48 + i)) = true := by
    decide
  obtain ⟨⟨hsize, hhyphen, hspace, hupper⟩, hdigit⟩ := hspec i h
  exact ⟨⟨hsize, hhyphen, hspace, hupper⟩, hdigit⟩

/-- **A code has as many digits as it should**, and nothing else. It can be typed as it is shown,
and its length tells the check that it is meant for this secret. -/
theorem spec_codeText (digits number : Nat) :
    (codeText digits number).utf8ByteSize = digits ∧ isNumeric (codeText digits number) = true := by
  have hdigits : ∀ c ∈ (List.range digits).map (fun i =>
      Char.ofNat (48 + number / Nat.pow 10 (digits - 1 - i) % 10)),
      Symbolic c ∧ Text.isDigit c = true := by
    intro c hc
    obtain ⟨i, -, rfl⟩ := List.mem_map.1 hc
    exact digit_of_lt (Nat.mod_lt _ (by decide))
  unfold codeText isNumeric
  refine ⟨?_, ?_⟩
  · rw [RecoveryKey.utf8ByteSize_ofList fun c hc => (hdigits c hc).1, List.length_map,
      List.length_range]
  · rw [String.toList_ofList, List.all_eq_true]
    exact fun c hc => (hdigits c hc).2

/-- **Each unused step has a time at which its code is accepted**, whatever other codes are: when
the step is the last of the window. -/
theorem accepted_ahead (hstep : 0 < s.step) (hkey : s.usableKey = .ok key)
    (hunused : n ∉ s.usedSteps) (hskew : s.skew ≤ n) (hproduct : n * s.step < wordBound)
    (htally : s.tally (n - s.skew) ≤ maxAttempts) :
    ∃ c, s.check P maxAttempts (s.codeAt P key n) ((n - s.skew) * s.step) = .ok c ∧
      c.accepted = some n := by
  obtain ⟨hlength, hnumeric⟩ := spec_codeText s.digits (P.stepNumber s.algorithm key n)
  rw [accepted_iff hstep hkey, Nat.mul_div_cancel _ hstep]
  have hlast : n - s.skew + s.skew = n := Nat.sub_add_cancel hskew
  have hbound := Nat.lt_of_le_of_lt (Nat.le_mul_of_pos_right n hstep) hproduct
  have hfits : ¬ s.Overruns (n - s.skew) := not_overruns_of_products fun m hm =>
    Nat.lt_of_le_of_lt (Nat.mul_le_mul_right s.step (hlast ▸ hm.2)) hproduct
  refine ⟨hlength, ⟨htally, hnumeric⟩, hfits,
    ⟨hbound, ⟨?_, ?_⟩, hunused, codeShown_start hstep n⟩, ?_⟩
  · exact Nat.sub_le_of_le_add (Nat.le_add_right_of_le (Nat.le_add_right _ _))
  · exact Nat.le_of_eq hlast.symm
  · exact fun m hm => hlast ▸ hm.2.near.2

/-! ## §4 — closing the past -/

/-- What retiring the window at a time makes of a secret. -/
structure Closes (P : Primitives) (maxAttempts : Nat) (s t : Secret) (time : Nat) : Prop where
  /-- The steps of the window are used, each of them once, and nothing else is changed. -/
  added : ∃ added, t = { s with usedSteps := s.usedSteps ++ added } ∧ added.Pairwise (· < ·) ∧
    ∀ n, n ∈ added ↔ n ∉ s.usedSteps ∧ s.Near (time / s.step) n ∧ n < wordBound
  /-- From then on only steps beyond the window are accepted. -/
  past : ∀ as : List Attempt, (∀ a ∈ as, time ≤ a.now) →
    as.Pairwise (fun a b => a.now ≤ b.now) →
    ∀ x ∈ t.trials P maxAttempts as, ∀ n, x.accepted? = some n → time / s.step + s.skew < n
  /-- They are accepted as they would have been. -/
  beyond : ∀ n, time / s.step + s.skew < n → ∀ code now,
    (∃ c, t.check P maxAttempts code now = .ok c ∧ c.accepted = some n) ↔
      ∃ c, s.check P maxAttempts code now = .ok c ∧ c.accepted = some n
  /-- If the secret makes codes, there is a time at which an unused one is accepted. -/
  ahead : ∀ key, s.usableKey = .ok key → ∀ n, time / s.step + s.skew < n → n ∉ s.usedSteps →
    n * s.step < wordBound → s.tally (n - s.skew) ≤ maxAttempts →
    time ≤ (n - s.skew) * s.step ∧
      ∃ c, t.check P maxAttempts (s.codeAt P key n) ((n - s.skew) * s.step) = .ok c ∧
        c.accepted = some n

/-- **Retiring the window closes the past** for good, and leaves the future as it is. -/
theorem retire_closes (P : Primitives) (maxAttempts : Nat) {s : Secret} (hstep : 0 < s.step)
    (time : Nat) : ∃ t, s.retire time = .ok t ∧ Closes P maxAttempts s t time := by
  obtain ⟨added, hretire, hincreasing, hadded⟩ := retire_eq hstep time
  have hbeyond : ∀ n, time / s.step + s.skew < n → ∀ code now,
      (∃ c, { s with usedSteps := s.usedSteps ++ added }.check P maxAttempts code now = .ok c ∧
        c.accepted = some n) ↔
      ∃ c, s.check P maxAttempts code now = .ok c ∧ c.accepted = some n := by
    intro n hn code now
    refine accepted_beyond_iff hstep fun m hm => Nat.lt_of_le_of_lt ?_ hn
    exact ((hadded m).1 hm).2.1.2
  refine ⟨_, hretire, ⟨added, rfl, hincreasing, hadded⟩, ?_, hbeyond, ?_⟩
  · intro as hlater hclock x hx n hn
    by_contra hpast
    have hcovers := covers_retire hretire (Nat.le_of_not_lt hpast)
      (lt_wordBound_of_mem_trials hx hn)
    exact hcovers.not_accepted_later hlater hclock x hx hn
  · intro key hkey n hn hunused hfits htally
    have hskew : s.skew ≤ n := Nat.le_of_lt (Nat.lt_of_le_of_lt (Nat.le_add_left _ _) hn)
    refine ⟨?_, (hbeyond n hn _ _).2 (accepted_ahead hstep hkey hunused hskew hfits htally)⟩
    exact Nat.le_of_lt ((Nat.div_lt_iff_lt_mul hstep).1 (Nat.lt_sub_of_add_lt hn))

/-! At the start of time the window begins with the first step. -/

/-- The window that is retired begins with the first step, so that four steps are used instead of
five. The code of the next step is accepted as soon as the window reaches that far. -/
theorem retire_closes_early :
    ∃ t c, early.retire 59 = .ok t ∧ t.usedSteps = [0, 1, 2, 3] ∧ Closes .transparent 5 early t 59 ∧
      t.check .transparent 5 "000004" 60 = .ok c ∧ c.accepted = some 4 := by
  obtain ⟨t, hretire, hcloses⟩ := retire_closes .transparent 5 (s := early) (by decide) 59
  have hused : early.retire 59 = .ok { early with usedSteps := [0, 1, 2, 3] } := by decide +kernel
  have hkey : early.usableKey = .ok (List.replicate 20 7) := by decide +kernel
  obtain ⟨-, c, hcheck, haccepted⟩ :=
    hcloses.ahead _ hkey 4 (by decide) (by decide) (by decide) (by decide)
  obtain rfl := Except.ok.inj (hused.symm.trans hretire)
  exact ⟨_, c, hretire, rfl, hcloses, hcheck, haccepted⟩

end SecondFactor.Otp.Secret
