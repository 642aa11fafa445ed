import SecondFactor.Proofs.Otp.Bookkeeping
import SecondFactor.Proofs.Laws
import Mathlib.Order.Bounds.Basic

/-!
# What a check says

A check refuses a code of the wrong length before anything else. Otherwise it counts the attempt,
and looks at the code if the step allows one more and the code is a number. It then accepts the code
if that is the one of some step nearby that is not used; of several such steps it takes the last.
This module says so without the loop over the window, by the set of the steps that would do. Only a
step that is too long for the clock is left out: where one begins beyond the stored numbers, the
check that looks at the code breaks off.

## The architecture

* **`tally`** — the attempts in a step, with the next one; **`LooksAt`** — the attempt is looked at.
* **`Near`**, **`Admits`** — the steps nearby, and those among them for which the code is right.
* **`matchingStep_eq_some`**, **`matchingStep_eq_none`** — the loop finds the last of these steps.
* **`check_of_unseen`**, **`check_of_overrun`**, **`check_of_seen`** — the three ways in which a
  code of the right length is checked.
* **`accepted_iff`** — when a check accepts a step.
* **`codes_judged_by_steps`** — all of it.
-/

namespace SecondFactor.Otp.Secret

variable {P : Primitives} {s : Secret} {c : Check} {key : Bytes} {code : String}
  {maxAttempts now current n : Nat}

/-! ## §1 — what is asked -/

/-- The attempts in a step with the one that is made now. The first attempt in another step begins
to count again, and counts stop at the greatest stored number. -/
def tally (s : Secret) (current : Nat) : Nat :=
  if s.attemptStep = current then min (s.attemptsInStep + 1) (UInt32.size - 1) else 1

/-- The code that an authenticator shows at a time. -/
def codeShown (P : Primitives) (s : Secret) (key : Bytes) (time : Nat) : String :=
  s.codeAt P key (time / s.step)

/-- A step is within the skew of the current one. -/
def Near (s : Secret) (current n : Nat) : Prop := current ≤ n + s.skew ∧ n ≤ current + s.skew

/-- An attempt is looked at: the step allows it, and the code is a number. -/
def LooksAt (s : Secret) (maxAttempts : Nat) (code : String) (current : Nat) : Prop :=
  s.tally current ≤ maxAttempts ∧ isNumeric code = true

instance : Decidable (s.LooksAt maxAttempts code current) := inferInstanceAs (Decidable (_ ∧ _))

/-- A step is one of those for which a code is right. -/
structure Admits (P : Primitives) (s : Secret) (key : Bytes) (code : String) (current n : Nat) :
    Prop where
  near : s.Near current n
  unused : n ∉ s.usedSteps
  shown : s.codeShown P key (n * s.step) = code

/-- Counting an attempt stores the number of attempts that have now been made in the step. -/
theorem attemptsInStep_countAttempt (s : Secret) (current : Nat) :
    (s.countAttempt current).attemptsInStep = s.tally current := by
  unfold countAttempt tally
  split
  · rfl
  · exact Nat.min_eq_left (by decide)

/-- The code of a step is the one that is shown when it begins, and so throughout. -/
theorem codeShown_start (hstep : 0 < s.step) (n : Nat) :
    s.codeShown P key (n * s.step) = s.codeAt P key n := by
  rw [codeShown, Nat.mul_div_cancel n hstep]

theorem codeShown_of_core {t : Secret} (h : s.core = t.core) (time : Nat) :
    s.codeShown P key time = t.codeShown P key time := by
  obtain ⟨-, -, -, halgorithm, hdigits, hstep, -⟩ := core_eq_iff.1 h
  unfold codeShown codeAt
  rw [halgorithm, hdigits, hstep]

theorem usableKey_of_core {t : Secret} (h : s.core = t.core) : s.usableKey = t.usableKey := by
  obtain ⟨hkey, haccount, hissuer, -, hdigits, -, -⟩ := core_eq_iff.1 h
  unfold usableKey keyBytes
  rw [hkey, haccount, hissuer, hdigits]

/-! ## §2 — the loop over the window -/

theorem window_increasing (s : Secret) (current : Nat) :
    (s.window current).Pairwise (· < ·) := by
  refine List.pairwise_lt_range.filterMap _ fun i j hij m hm n hn => ?_
  split at hm <;> split at hn <;> cases hm <;> cases hn
  omega

/-- The loop goes over the steps that a stored number can hold. -/
theorem mem_matching (hstep : 0 < s.step) :
    n ∈ (s.window current).filter
      (fun t => !s.usedSteps.contains t && s.codeAt P key t == code) ↔
    n < wordBound ∧ s.Admits P key code current n := by
  rw [List.mem_filter, mem_window, Bool.and_eq_true, Bool.not_eq_true', beq_iff_eq,
    List.contains_eq_mem, decide_eq_false_iff_not]
  constructor
  · rintro ⟨⟨hlow, hhigh, hfits⟩, hunused, hcode⟩
    exact ⟨hfits, ⟨hlow, hhigh⟩, hunused, (codeShown_start hstep n).trans hcode⟩
  · rintro ⟨hfits, hnear, hunused, hcode⟩
    exact ⟨⟨hnear.1, hnear.2, hfits⟩, hunused, (codeShown_start hstep n).symm.trans hcode⟩

/-- The last member of an increasing list is its greatest. -/
theorem isGreatest_of_getLast? {l : List Nat} (hl : l.Pairwise (· < ·))
    (h : l.getLast? = some n) : IsGreatest {m | m ∈ l} n := by
  obtain ⟨front, rfl⟩ := List.getLast?_eq_some_iff.1 h
  refine ⟨List.mem_append_right _ List.mem_cons_self, fun m hm => ?_⟩
  rcases List.mem_append.1 hm with hfront | hlast
  · exact Nat.le_of_lt ((List.pairwise_append.1 hl).2.2 m hfront n List.mem_cons_self)
  · exact Nat.le_of_eq (List.mem_singleton.1 hlast)

/-- **The step that is found** is the last for which the code is right. The loop goes through the
whole window and keeps the latest, whatever it found before. -/
theorem matchingStep_eq_some (hstep : 0 < s.step) :
    s.matchingStep P key code current = some n ↔
      IsGreatest {m | m < wordBound ∧ s.Admits P key code current m} n := by
  have hset : {m | m < wordBound ∧ s.Admits P key code current m} = {m | m ∈
      (s.window current).filter (fun t => !s.usedSteps.contains t && s.codeAt P key t == code)} :=
    Set.ext fun _ => (mem_matching hstep).symm
  rw [hset]
  have hincreasing := (s.window_increasing current).filter
    (fun t => !s.usedSteps.contains t && s.codeAt P key t == code)
  refine ⟨isGreatest_of_getLast? hincreasing, fun hn => ?_⟩
  -- The list has a last member, and there is only one greatest.
  obtain ⟨m, hm⟩ := Option.isSome_iff_exists.1
    (List.getLast?_isSome.2 (List.ne_nil_of_mem hn.1))
  rw [hn.unique (isGreatest_of_getLast? hincreasing hm)]
  exact hm

theorem matchingStep_eq_none (hstep : 0 < s.step) :
    s.matchingStep P key code current = none ↔
      ∀ m < wordBound, ¬ s.Admits P key code current m := by
  unfold matchingStep
  rw [List.getLast?_eq_none_iff, List.eq_nil_iff_forall_not_mem]
  exact forall_congr' fun m => (not_congr (mem_matching hstep)).trans not_and

section Matching

variable (hstep : 0 < s.step) (hproducts : ∀ n, s.Near current n → n * s.step < wordBound)
include hstep hproducts

theorem Admits.lt_wordBound (h : s.Admits P key code current n) : n < wordBound :=
  Nat.lt_of_le_of_lt (Nat.le_mul_of_pos_right n hstep) (hproducts n h.near)

/-- If all products can be stored, the bound on steps says nothing, and the step that is found is
the latest of all for which the code is right. -/
theorem isGreatest_of_matchingStep (h : s.matchingStep P key code current = some n) :
    IsGreatest {m | s.Admits P key code current m} n := by
  obtain ⟨⟨-, hadmits⟩, hgreatest⟩ := (matchingStep_eq_some hstep).1 h
  exact ⟨hadmits, fun m hm => hgreatest ⟨hm.lt_wordBound hstep hproducts, hm⟩⟩

/-- Under the same assumption, a code for which no step is found is right for none. -/
theorem not_admits_of_matchingStep (h : s.matchingStep P key code current = none) (m : Nat) :
    ¬ s.Admits P key code current m :=
  fun hm => (matchingStep_eq_none hstep).1 h m (hm.lt_wordBound hstep hproducts) hm

end Matching

/-! ## §3 — the check -/

theorem check_of_length (hlength : code.utf8ByteSize ≠ s.digits) :
    s.check P maxAttempts code now = .error (.refused (.validation (.codeDigits s.digits))) := by
  unfold check
  rw [if_pos hlength]

theorem LooksAt.allowed (h : s.LooksAt maxAttempts code current) :
    ¬ (maxAttempts < (s.countAttempt current).attemptsInStep ∨ (!isNumeric code) = true) := by
  rw [attemptsInStep_countAttempt, h.2]
  exact not_or.2 ⟨Nat.not_lt.2 h.1, Bool.false_ne_true⟩

/-- An attempt that is not looked at is counted. -/
theorem check_of_unseen (hstep : 0 < s.step) (hlength : code.utf8ByteSize = s.digits)
    (hunseen : ¬ s.LooksAt maxAttempts code (now / s.step)) :
    s.check P maxAttempts code now = .ok ⟨s.countAttempt (now / s.step), none⟩ := by
  unfold check
  rw [if_neg (not_not.2 hlength), if_neg (Nat.ne_of_gt hstep)]
  refine if_pos ?_
  rw [attemptsInStep_countAttempt, Bool.not_eq_true']
  rcases not_and_or.1 hunseen with htally | hnumeric
  · exact .inl (Nat.lt_of_not_le htally)
  · exact .inr (Bool.not_eq_true _ ▸ hnumeric)

/-- If the times of all steps nearby are stored numbers, nothing breaks off. This is how statements
put it that leave out steps that are too long for the clock. -/
theorem not_overruns_of_products (hproducts : ∀ n, s.Near current n → n * s.step < wordBound) :
    ¬ s.Overruns current := by
  rintro ⟨t, hwindow, -, hlong⟩
  obtain ⟨hlow, hhigh, -⟩ := mem_window.1 hwindow
  exact Nat.not_lt.2 hlong (hproducts t ⟨hlow, hhigh⟩)

/-- The time of a step for which a code is right is a stored number, if nothing breaks off. -/
theorem Admits.product_lt (h : s.Admits P key code current n) (hbound : n < wordBound)
    (hfits : ¬ s.Overruns current) : n * s.step < wordBound :=
  Nat.lt_of_not_le fun hlong =>
    hfits ⟨n, mem_window.2 ⟨h.near.1, h.near.2, hbound⟩, h.unused, hlong⟩

/-- With more steps used there is less to break off at. It is enough that the steps nearby are used
still, so a check may have forgotten others. -/
theorem Overruns.of_core {t : Secret} (h : t.Overruns current) (hcore : t.core = s.core)
    (hused : ∀ m, s.Near current m → m ∈ s.usedSteps → m ∈ t.usedSteps) : s.Overruns current := by
  obtain ⟨-, -, -, -, -, hstep, hskew⟩ := core_eq_iff.1 hcore
  obtain ⟨m, hwindow, hunused, hlong⟩ := h
  rw [mem_window, hskew] at hwindow
  rw [hstep] at hlong
  exact ⟨m, mem_window.2 hwindow, fun h => hunused (hused m ⟨hwindow.1, hwindow.2.1⟩ h), hlong⟩

/-- An attempt that is looked at breaks off where the time of a step is no stored number. -/
theorem check_of_overrun (hstep : 0 < s.step) (hlength : code.utf8ByteSize = s.digits)
    (hkey : s.usableKey = .ok key) (hseen : s.LooksAt maxAttempts code (now / s.step))
    (hover : s.Overruns (now / s.step)) : s.check P maxAttempts code now = .error .crash := by
  -- Counting touches nothing that a code or its time is made of.
  have hkey' : (s.countAttempt (now / s.step)).usableKey = .ok key := hkey
  have hover' : (s.countAttempt (now / s.step)).Overruns (now / s.step) := hover
  unfold check
  rw [if_neg (not_not.2 hlength), if_neg (Nat.ne_of_gt hstep)]
  dsimp only
  rw [if_neg hseen.allowed, hkey']
  exact if_pos hover'

/-- An attempt that is looked at is counted, its step is remembered if there is one, and old steps
are forgotten. -/
theorem check_of_seen (hstep : 0 < s.step) (hlength : code.utf8ByteSize = s.digits)
    (hkey : s.usableKey = .ok key) (hseen : s.LooksAt maxAttempts code (now / s.step))
    (hfits : ¬ s.Overruns (now / s.step)) :
    s.check P maxAttempts code now = .ok (
      match s.matchingStep P key code (now / s.step) with
      | some t => ⟨((s.countAttempt (now / s.step)).markUsed t).forgetBefore (now / s.step), some t⟩
      | none => ⟨(s.countAttempt (now / s.step)).forgetBefore (now / s.step), none⟩) := by
  have hsame : (s.countAttempt (now / s.step)).usableKey = .ok key := hkey
  have hfits' : ¬ (s.countAttempt (now / s.step)).Overruns (now / s.step) := hfits
  have hmatching : (s.countAttempt (now / s.step)).matchingStep P key code (now / s.step) =
    s.matchingStep P key code (now / s.step) := rfl
  unfold check
  rw [if_neg (not_not.2 hlength), if_neg (Nat.ne_of_gt hstep)]
  dsimp only
  rw [if_neg hseen.allowed, hsame]
  dsimp only
  rw [if_neg hfits', hmatching]
  cases s.matchingStep P key code (now / s.step) <;> rfl

theorem length_of_check (h : s.check P maxAttempts code now = .ok c) :
    code.utf8ByteSize = s.digits := by
  by_contra hlength
  cases (check_of_length hlength).symm.trans h

/-- Who looks at a code makes the codes of all steps nearby, and so has a key and can reckon their
times. -/
theorem usableKey_of_seen (h : s.check P maxAttempts code now = .ok c)
    (hseen : s.LooksAt maxAttempts code (now / s.step)) :
    ∃ key, s.usableKey = .ok key ∧ ¬ s.Overruns (now / s.step) := by
  have hlength := length_of_check h
  have hstep := (check_cases h).1
  cases hkey : s.usableKey with
  | ok key =>
    refine ⟨key, rfl, fun hover => ?_⟩
    cases (check_of_overrun hstep hlength hkey hseen hover).symm.trans h
  | error cause =>
    have hsame : (s.countAttempt (now / s.step)).usableKey = .error cause := hkey
    unfold check at h
    rw [if_neg (not_not.2 hlength), if_neg (Nat.ne_of_gt hstep)] at h
    dsimp only at h
    rw [if_neg hseen.allowed, hsame] at h
    cases h

/-- A code that was accepted was looked at, and looking at it takes a key. -/
theorem usableKey_of_accepted (h : s.check P maxAttempts code now = .ok c)
    (hn : c.accepted = some n) : ∃ key, s.usableKey = .ok key := by
  by_cases hseen : s.LooksAt maxAttempts code (now / s.step)
  · obtain ⟨key, hkey, -⟩ := usableKey_of_seen h hseen
    exact ⟨key, hkey⟩
  · rw [check_of_unseen (check_cases h).1 (length_of_check h) hseen] at h
    cases h
    cases hn

/-- **When a check accepts a step**: the code has the right length and is looked at, no step nearby
is too long for the clock, and the step is the last for which the code is right. -/
theorem accepted_iff (hstep : 0 < s.step) (hkey : s.usableKey = .ok key) :
    (∃ c, s.check P maxAttempts code now = .ok c ∧ c.accepted = some n) ↔
      code.utf8ByteSize = s.digits ∧ s.LooksAt maxAttempts code (now / s.step) ∧
        ¬ s.Overruns (now / s.step) ∧
        IsGreatest {m | m < wordBound ∧ s.Admits P key code (now / s.step) m} n := by
  rw [← matchingStep_eq_some hstep]
  constructor
  · -- An attempt that is not looked at accepts nothing. One that is looked at has reckoned the
    -- times of all steps nearby, and accepts what the loop finds.
    rintro ⟨c, hcheck, haccepted⟩
    have hlength := length_of_check hcheck
    by_cases hseen : s.LooksAt maxAttempts code (now / s.step)
    · obtain ⟨-, -, hfits⟩ := usableKey_of_seen hcheck hseen
      refine ⟨hlength, hseen, hfits, ?_⟩
      rw [check_of_seen hstep hlength hkey hseen hfits] at hcheck
      cases hcheck
      cases hmatching : s.matchingStep P key code (now / s.step) with
      | none =>
        rw [hmatching] at haccepted
        cases haccepted
      | some t =>
        rw [hmatching] at haccepted
        exact haccepted
    · rw [check_of_unseen hstep hlength hseen] at hcheck
      cases hcheck
      cases haccepted
  · rintro ⟨hlength, hseen, hfits, hmatching⟩
    have hcheck := check_of_seen (P := P) hstep hlength hkey hseen hfits
    rw [hmatching] at hcheck
    exact ⟨_, hcheck, rfl⟩

/-- A code of the right length is checked, whatever comes of it, unless a step nearby is too long
for the clock. -/
theorem check_defined (hstep : 0 < s.step) (hkey : s.usableKey = .ok key)
    (hlength : code.utf8ByteSize = s.digits) (hfits : ¬ s.Overruns (now / s.step)) :
    ∃ c, s.check P maxAttempts code now = .ok c := by
  by_cases hseen : s.LooksAt maxAttempts code (now / s.step)
  · exact ⟨_, check_of_seen hstep hlength hkey hseen hfits⟩
  · exact ⟨_, check_of_unseen hstep hlength hseen⟩

/-- What is forgotten lies further back than the step that was just accepted. -/
theorem usedSteps_accepted {t : Nat} (hnear : s.Near current t) :
    (((s.countAttempt current).markUsed t).forgetBefore current).usedSteps =
      s.usedSteps.filter (fun u => current ≤ u + 2 * s.skew) ++ [t] := by
  have hrecent : current ≤ t + 2 * s.skew := by
    have hlow := hnear.1
    omega
  show (s.usedSteps ++ [t]).filter (fun u => current - 2 * s.skew ≤ u) = _
  rw [List.filter_append]
  refine congrArg₂ _ (List.filter_congr fun u _ => ?_) ?_
  · exact decide_eq_decide.2 Nat.sub_le_iff_le_add
  · exact List.filter_eq_self.2 fun u hu => by
      obtain rfl := List.mem_singleton.1 hu
      exact decide_eq_true (Nat.sub_le_iff_le_add.2 hrecent)

theorem usedSteps_refused (s : Secret) (current : Nat) :
    ((s.countAttempt current).forgetBefore current).usedSteps =
      s.usedSteps.filter (fun u => current ≤ u + 2 * s.skew) :=
  List.filter_congr fun _ _ => decide_eq_decide.2 Nat.sub_le_iff_le_add

/-- The fields of a secret after an attempt, one by one. -/
theorem counted_eq (s : Secret) (current : Nat) (used : List Nat) :
    { s.countAttempt current with usedSteps := used } =
      { s with
        counter := min (s.counter + 1) (wordBound - 1)
        attemptStep := current
        attemptsInStep := s.tally current
        usedSteps := used } := by
  rw [← attemptsInStep_countAttempt]
  rfl

/-- What a check of a code of the right length says, and what it makes of the secret. -/
structure Judged (P : Primitives) (s : Secret) (key : Bytes) (maxAttempts : Nat) (code : String)
    (current : Nat) (c : Check) : Prop where
  verified : c.verified = true ↔
    s.LooksAt maxAttempts code current ∧ ∃ n, s.Admits P key code current n
  /-- Of several steps it is the last. -/
  last : ∀ n, c.accepted = some n → IsGreatest {m | s.Admits P key code current m} n
  secret : c.secret = { s with
    counter := min (s.counter + 1) (wordBound - 1)
    attemptStep := current
    attemptsInStep := s.tally current
    usedSteps :=
      if s.LooksAt maxAttempts code current then
        s.usedSteps.filter (fun t => current ≤ t + 2 * s.skew) ++ c.accepted.toList
      else s.usedSteps }

/-- The judgement of an attempt that is not looked at: it is counted, and that is all. -/
theorem judged_of_unseen (hunseen : ¬ s.LooksAt maxAttempts code current) :
    Judged P s key maxAttempts code current ⟨s.countAttempt current, none⟩ where
  verified := ⟨nofun, fun h => absurd h.1 hunseen⟩
  last := nofun
  secret := by
    rw [if_neg hunseen, ← counted_eq]
    rfl

/-- The judgement of one that is: what the loop finds decides, and old steps are forgotten either
way. -/
theorem judged_of_seen (hstep : 0 < s.step)
    (hproducts : ∀ n, s.Near current n → n * s.step < wordBound)
    (hseen : s.LooksAt maxAttempts code current) :
    Judged P s key maxAttempts code current (
      match s.matchingStep P key code current with
      | some t => ⟨((s.countAttempt current).markUsed t).forgetBefore current, some t⟩
      | none => ⟨(s.countAttempt current).forgetBefore current, none⟩) := by
  cases hmatching : s.matchingStep P key code current with
  | some t =>
    have hgreatest := isGreatest_of_matchingStep hstep hproducts hmatching
    refine ⟨⟨fun _ => ⟨hseen, t, hgreatest.1⟩, fun _ => rfl⟩, fun n hn => ?_, ?_⟩
    · obtain rfl := Option.some.inj hn
      exact hgreatest
    · rw [if_pos hseen, ← counted_eq]
      exact congrArg (fun used => { s.countAttempt current with usedSteps := used })
        (usedSteps_accepted hgreatest.1.near)
  | none =>
    have hnone := not_admits_of_matchingStep hstep hproducts hmatching
    refine ⟨⟨nofun, fun ⟨_, n, hn⟩ => absurd hn (hnone n)⟩, nofun, ?_⟩
    rw [if_pos hseen, ← counted_eq]
    exact congrArg (fun used => { s.countAttempt current with usedSteps := used })
      ((usedSteps_refused s current).trans (List.append_nil _).symm)

/-- **Codes are judged by the steps nearby.** For a secret with which codes can be made, a check
fails exactly if the code has another length than the secret asks for, and then as a matter of its
form. Otherwise it accepts the code if and only if the attempt is looked at and the code is right
for some step within the skew that is not used. The attempt is counted in any case; if it is looked
at, the last of those steps is remembered, and used steps of more than twice the skew ago are
forgotten. Nothing else of the secret changes. -/
theorem codes_judged_by_steps (P : Primitives) {s : Secret} {key : Bytes} (hstep : 0 < s.step)
    (hkey : s.usableKey = .ok key) (maxAttempts : Nat) (code : String) {now : Nat}
    (hproducts : ∀ n, s.Near (now / s.step) n → n * s.step < wordBound) :
    ((∃ complaint, s.check P maxAttempts code now = .error (.refused (.validation complaint))) ↔
      code.utf8ByteSize ≠ s.digits) ∧
    (code.utf8ByteSize = s.digits → ∃ c, s.check P maxAttempts code now = .ok c ∧
      Judged P s key maxAttempts code (now / s.step) c) := by
  have hchecked : code.utf8ByteSize = s.digits → ∃ c, s.check P maxAttempts code now = .ok c ∧
      Judged P s key maxAttempts code (now / s.step) c := by
    intro hlength
    by_cases hseen : s.LooksAt maxAttempts code (now / s.step)
    · exact ⟨_, check_of_seen hstep hlength hkey hseen (not_overruns_of_products hproducts),
        judged_of_seen hstep hproducts hseen⟩
    · exact ⟨_, check_of_unseen hstep hlength hseen, judged_of_unseen hseen⟩
  refine ⟨⟨?_, fun hlength => ⟨_, check_of_length hlength⟩⟩, hchecked⟩
  rintro ⟨complaint, hrefused⟩ hlength
  obtain ⟨c, hcheck, -⟩ := hchecked hlength
  cases hcheck.symm.trans hrefused

/-! At the start of time the window is cut off, and the code of the first step is used already. -/

/-- A secret with a wider window than usual, whose first step is used, and in which four attempts
have been counted in step 1. -/
def early : Secret :=
  { Policy.usual.newSecret "a@b.c" (.replicate 20 7) with
    skew := 2, usedSteps := [0], attemptStep := 1, attemptsInStep := 4 }

/-- The window is cut off at the first step, and the code of its last step is accepted. A code that
is too short is turned away before it is looked at. -/
theorem codes_judged_by_steps_early :
    ∃ key c, early.usableKey = .ok key ∧ (∀ n, early.Near 1 n → n * early.step < wordBound) ∧
      early.check .transparent 5 "000003" 59 = .ok c ∧ c.accepted = some 3 ∧
      Judged .transparent early key 5 "000003" 1 c ∧
      ∃ complaint, early.check .transparent 5 "3" 59 =
        .error (.refused (.validation complaint)) := by
  have hproducts : ∀ n, early.Near (59 / early.step) n → n * early.step < wordBound := by
    intro n hn
    have hhigh : n ≤ 3 := hn.2
    exact Nat.lt_of_le_of_lt (Nat.mul_le_mul_right 30 hhigh) (by decide)
  have hkey : early.usableKey = .ok (List.replicate 20 7) := by decide +kernel
  obtain ⟨-, hlong⟩ := codes_judged_by_steps .transparent (by decide) hkey 5 "000003" hproducts
  obtain ⟨hshort, -⟩ := codes_judged_by_steps .transparent (by decide) hkey 5 "3" hproducts
  obtain ⟨c, hcheck, hjudged⟩ := hlong (by decide)
  refine ⟨_, c, hkey, hproducts, hcheck, ?_, hjudged, hshort.2 (by decide)⟩
  have haccepted :
      (early.check .transparent 5 "000003" 59).toOption.bind (·.accepted) = some 3 := by
    decide +kernel
  rw [hcheck] at haccepted
  exact haccepted

end SecondFactor.Otp.Secret
