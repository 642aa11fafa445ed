import SecondFactor.Proofs.Otp.Attempts
import Mathlib.Data.Nat.SuccPred

/-!
# A code that is given again

A code that was accepted is given again in the same step. What a check remembers is the step that
it accepted, and not the code: if an earlier step nearby has the same code, the code is accepted a
second time, for that step. Such steps are rare, since a code is one of a million, but nothing keeps
them apart. So a code is accepted once if and only if the steps nearby have different codes, or no
attempt is left.

## The architecture

* **`admits_accepted`** — the steps for which a code is still right after it was accepted.
* **`accepted_again_iff`** — for which of them it is accepted again.
* **`resubmitted_verified_iff`** — when a code is accepted again in the same step.
-/

namespace SecondFactor.Otp.Secret

variable {P : Primitives} {s : Secret} {c : Check} {key : Bytes} {code : String}
  {maxAttempts now n m : Nat}

/-! ## §1 — the steps that are left -/

/-- Of the steps nearby, a check that accepts one takes away only this one. -/
theorem used_accepted_iff (h : s.check P maxAttempts code now = .ok c)
    (hn : c.accepted = some n) (hnear : s.Near (now / s.step) m) :
    m ∈ c.secret.usedSteps ↔ m ∈ s.usedSteps ∨ m = n := by
  cases (check_cases h).2 with
  | unseen | unmatched => cases hn
  | matched _ _ =>
    cases hn
    have hrecent : now / s.step ≤ m + 2 * s.skew := by
      have hlow := hnear.1
      omega
    exact mem_forgetBefore.trans ((and_iff_left hrecent).trans mem_markUsed)

/-- **After a step was accepted**, a code is right for the steps that it was right for before,
without this one. -/
theorem admits_accepted (h : s.check P maxAttempts code now = .ok c) (hn : c.accepted = some n)
    {again : String} :
    c.secret.Admits P key again (now / s.step) m ↔
      m ≠ n ∧ s.Admits P key again (now / s.step) m := by
  have hcore := core_check h
  obtain ⟨-, -, -, -, -, hstep, hskew⟩ := core_eq_iff.1 hcore
  have hnear : c.secret.Near (now / s.step) m ↔ s.Near (now / s.step) m := by
    unfold Near
    rw [hskew]
  have hshown : c.secret.codeShown P key (m * c.secret.step) = s.codeShown P key (m * s.step) := by
    rw [hstep, codeShown_of_core hcore]
  constructor
  · rintro ⟨hclose, hunused, hcode⟩
    rw [used_accepted_iff h hn (hnear.1 hclose), not_or] at hunused
    exact ⟨hunused.2, hnear.1 hclose, hunused.1, hshown.symm.trans hcode⟩
  · rintro ⟨hother, hclose, hunused, hcode⟩
    refine ⟨hnear.2 hclose, ?_, hshown.trans hcode⟩
    rw [used_accepted_iff h hn hclose, not_or]
    exact ⟨hunused, hother⟩

/-! ## §2 — the second attempt -/

/-- The steps that are left for a code that was accepted are those before. -/
theorem admits_left_iff (hkey : s.usableKey = .ok key)
    (h : s.check P maxAttempts code now = .ok c) (hn : c.accepted = some n) :
    m < wordBound ∧ c.secret.Admits P key code (now / s.step) m ↔
      m < n ∧ s.Admits P key code (now / s.step) m := by
  obtain ⟨-, -, -, ⟨hfits, -⟩, hgreatest⟩ := (accepted_iff (check_cases h).1 hkey).1 ⟨c, h, hn⟩
  rw [admits_accepted h hn]
  constructor
  · rintro ⟨hbound, hother, hadmits⟩
    exact ⟨Nat.lt_of_le_of_ne (hgreatest ⟨hbound, hadmits⟩) hother, hadmits⟩
  · rintro ⟨hbefore, hadmits⟩
    exact ⟨Nat.lt_trans hbefore hfits, Nat.ne_of_lt hbefore, hadmits⟩

/-- After a code was accepted it can be checked. The times that the second check reckons are among
those that the first one did. -/
theorem checkable_after (hkey : s.usableKey = .ok key) (h : s.check P maxAttempts code now = .ok c)
    (hn : c.accepted = some n) :
    0 < c.secret.step ∧ c.secret.usableKey = .ok key ∧ code.utf8ByteSize = c.secret.digits ∧
      ¬ c.secret.Overruns (now / s.step) := by
  have hcore := core_check h
  obtain ⟨-, -, -, -, hdigits, hstep, -⟩ := core_eq_iff.1 hcore
  obtain ⟨-, -, hfits, -⟩ := (accepted_iff (check_cases h).1 hkey).1 ⟨c, h, hn⟩
  refine ⟨hstep ▸ (check_cases h).1, (usableKey_of_core hcore).trans hkey,
    (length_of_check h).trans hdigits.symm, fun hover => hfits (hover.of_core hcore ?_)⟩
  exact fun m hnear hm => (used_accepted_iff h hn hnear).2 (.inl hm)

/-- **For which step a code is accepted again** in the same step: for the last of those before, if
one more attempt is allowed. -/
theorem accepted_again_iff (hkey : s.usableKey = .ok key)
    (h : s.check P maxAttempts code now = .ok c) (hn : c.accepted = some n) {later : Nat}
    (hsame : later / s.step = now / s.step) :
    (∃ again, c.secret.check P maxAttempts code later = .ok again ∧ again.accepted = some m) ↔
      c.secret.tally (now / s.step) ≤ maxAttempts ∧
        IsGreatest {m | m < n ∧ s.Admits P key code (now / s.step) m} m := by
  obtain ⟨hstep, hkeyAfter, hlength, hfits⟩ := checkable_after hkey h hn
  obtain ⟨-, ⟨-, hnumeric⟩, -⟩ := (accepted_iff (check_cases h).1 hkey).1 ⟨c, h, hn⟩
  have hcurrent : later / c.secret.step = now / s.step := by
    rw [step_eq_of_core (core_check h), hsame]
  -- The steps that the second check takes into account are those before the first one's.
  have hleft : {m | m < wordBound ∧ c.secret.Admits P key code (now / s.step) m} =
      {m | m < n ∧ s.Admits P key code (now / s.step) m} :=
    Set.ext fun _ => admits_left_iff hkey h hn
  rw [accepted_iff hstep hkeyAfter, hcurrent, hleft]
  constructor
  · rintro ⟨-, ⟨htally, -⟩, -, hgreatest⟩
    exact ⟨htally, hgreatest⟩
  · rintro ⟨htally, hgreatest⟩
    exact ⟨hlength, ⟨htally, hnumeric⟩, hfits, hgreatest⟩

/-- **A code that was accepted is accepted again** in the same step if and only if the step allows
one more attempt and there is an earlier step nearby that is not used and has the same code. It is
then accepted for the last of these. -/
theorem resubmitted_verified_iff (P : Primitives) {s : Secret} {c : Check} {code : String}
    {maxAttempts now later n : Nat} (hcheck : s.check P maxAttempts code now = .ok c)
    (haccepted : c.accepted = some n) (hsame : later / s.step = now / s.step) :
    ∃ key again, s.usableKey = .ok key ∧ c.secret.check P maxAttempts code later = .ok again ∧
      (again.verified = true ↔ c.secret.tally (now / s.step) ≤ maxAttempts ∧
        ∃ m < n, s.Admits P key code (now / s.step) m) ∧
      ∀ m, again.accepted = some m →
        IsGreatest {m | m < n ∧ s.Admits P key code (now / s.step) m} m := by
  obtain ⟨key, hkey⟩ := usableKey_of_accepted hcheck haccepted
  obtain ⟨hstep, hkeyAfter, hlength, hfits⟩ := checkable_after hkey hcheck haccepted
  have hcurrent : later / c.secret.step = now / s.step := by
    rw [step_eq_of_core (core_check hcheck), hsame]
  obtain ⟨again, hagain⟩ : ∃ again, c.secret.check P maxAttempts code later = .ok again :=
    check_defined hstep hkeyAfter hlength (hcurrent ▸ hfits)
  have hwhen : ∀ m, again.accepted = some m ↔ c.secret.tally (now / s.step) ≤ maxAttempts ∧
      IsGreatest {m | m < n ∧ s.Admits P key code (now / s.step) m} m := by
    intro m
    rw [← accepted_again_iff hkey hcheck haccepted hsame]
    constructor
    · exact fun hm => ⟨again, hagain, hm⟩
    · rintro ⟨other, hother, hm⟩
      rwa [Except.ok.inj (hagain.symm.trans hother)]
  refine ⟨key, again, hkey, hagain, ?_, fun m hm => ((hwhen m).1 hm).2⟩
  rw [Check.verified, Option.isSome_iff_exists]
  constructor
  · rintro ⟨m, hm⟩
    obtain ⟨htally, ⟨hbefore, hadmits⟩, -⟩ := (hwhen m).1 hm
    exact ⟨htally, m, hbefore, hadmits⟩
  · rintro ⟨htally, m, hbefore, hadmits⟩
    -- There are finitely many earlier steps, so one of them is the last.
    have hbounded : BddAbove {m | m < n ∧ s.Admits P key code (now / s.step) m} :=
      ⟨n, fun m hm => Nat.le_of_lt hm.1⟩
    obtain ⟨last, hlast⟩ := hbounded.exists_isGreatest_of_nonempty ⟨m, hbefore, hadmits⟩
    exact ⟨last, (hwhen last).2 ⟨htally, hlast⟩⟩

/-! Two steps in a row have the same code. -/

/-- Codes have six digits and there are many steps, so that this was to be expected of some key. -/
theorem codeAt_fresh_again :
    fresh.codeAt .standard (List.replicate 20 7) 58227898 = "212039" ∧
      fresh.codeAt .standard (List.replicate 20 7) 58227899 = "212039" := by
  decide +kernel

/-- The second of the two steps is accepted first, as the latest for which the code is right. When
the same code comes again it is right for the first one still, and is accepted a second time. -/
theorem resubmitted_verified_iff_collision :
    ∃ c again, fresh.check .standard 5 "212039" 1746836940 = .ok c ∧ c.accepted = some 58227899 ∧
      c.secret.check .standard 5 "212039" 1746836945 = .ok again ∧ again.verified = true := by
  have hkey : fresh.usableKey = .ok (List.replicate 20 7) := by decide +kernel
  have hadmits : ∀ n, fresh.Near 58227898 n →
      fresh.codeAt .standard (List.replicate 20 7) n = "212039" →
      fresh.Admits .standard (List.replicate 20 7) "212039" 58227898 n :=
    fun n hnear hcode => ⟨hnear, nofun, (codeShown_start (by decide) n).trans hcode⟩
  -- The later of the two steps ends the window, so it is the one that is accepted.
  obtain ⟨c, hcheck, haccepted⟩ : ∃ c, fresh.check .standard 5 "212039" 1746836940 = .ok c ∧
      c.accepted = some 58227899 :=
    (accepted_iff (by decide) hkey).2 ⟨by decide, by decide, by decide,
      ⟨by decide, hadmits _ ⟨by decide, by decide⟩ codeAt_fresh_again.2⟩,
      fun m hm => hm.2.near.2⟩
  obtain ⟨key, again, hsame, hagain, hverified, -⟩ :=
    resubmitted_verified_iff .standard hcheck haccepted
      (show 1746836945 / fresh.step = 1746836940 / fresh.step by decide)
  obtain rfl := Except.ok.inj (hkey.symm.trans hsame)
  refine ⟨c, again, hcheck, haccepted, hagain, hverified.2 ⟨?_, 58227898, by decide, ?_⟩⟩
  · obtain ⟨hstep, hcounted⟩ := attempts_check hcheck
    unfold tally
    rw [if_pos hstep, hcounted]
    decide
  · exact hadmits _ ⟨by decide, by decide⟩ codeAt_fresh_again.1

end SecondFactor.Otp.Secret
