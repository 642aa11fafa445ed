import Mathlib.Data.List.Nodup
import Mathlib.Data.List.Perm.Subperm
import SecondFactor.Proofs.Otp.Usability

/-!
# The steps that are remembered

What a secret remembers of used steps grows with every code that is accepted and with every
recovery, and only a check that looks at its code forgets any. It stays in order all the same. Each
step is remembered once, none lies ahead of the window, since the clock does not go back, and what a
check leaves lies in the window or half a window before it, however many recoveries there were.

## The architecture

* **`Visit`**, **`visited`** — what changes the bookkeeping of a secret, and a row of such changes.
* **`Kept`** — each step once, and none ahead; kept by **`Kept.check`** and **`Kept.retire`**, so by
  any row of changes (**`kept_visited`**, by induction).
* **`recent_of_seen`** — what a check that looks at its code leaves.
* **`Orderly`** — all that is said of a row of changes; **`used_steps_orderly`** — it is so.
-/

namespace SecondFactor.Otp

/-! ## §1 — what changes the bookkeeping -/

/-- A code is tried, or the secret is recovered. -/
inductive Visit where
  | attempt (code : String) (now : Nat)
  | recovery (now : Nat)

namespace Visit

/-- The time of the change. -/
def now : Visit → Nat
  | attempt _ now | recovery now => now

/-- A code is checked when `maxAttempts` attempts in a step are looked at; a recovery retires the
window. -/
def handling (maxAttempts : Nat) : Visit → Secret.Handling
  | attempt code now => .check maxAttempts code now
  | recovery now => .retire now

end Visit

namespace Secret

variable {P : Primitives} {s t : Secret} {c : Check} {vs : List Visit} {code : String}
  {maxAttempts now last n : Nat}

/-- The secret after a row of changes, each of them of what the one before left. -/
def visited (P : Primitives) (maxAttempts : Nat) (s : Secret) (vs : List Visit) : Secret :=
  handled P s (vs.map (Visit.handling maxAttempts))

/-! ## §2 — each step once, and none ahead -/

/-- What is remembered up to a time. -/
structure Kept (s : Secret) (last : Nat) : Prop where
  nodup : s.usedSteps.Nodup
  ahead : ∀ n ∈ s.usedSteps, n ≤ last / s.step + s.skew

theorem kept_of_unused (h : s.usedSteps = []) (last : Nat) : s.Kept last := by
  refine ⟨?_, ?_⟩ <;> rw [h]
  · exact List.nodup_nil
  · exact nofun

/-- **A check keeps it.** The step that it adds was not used, and lies in the window, so no further
ahead than the skew. -/
theorem Kept.check (hs : s.Kept last) (h : s.check P maxAttempts code now = .ok c)
    (hnow : now ≤ last) : c.secret.Kept last := by
  obtain ⟨-, -, -, -, -, hstep, hskew⟩ := core_eq_iff.1 (core_check h)
  refine ⟨?_, fun n hn => ?_⟩
  · cases (check_cases h).2 with
    | unseen => exact hs.nodup
    | @matched t _ hfresh =>
      have hmarked : (s.usedSteps ++ [t]).Nodup := by
        refine List.nodup_append.2 ⟨hs.nodup, List.nodup_singleton t, ?_⟩
        rintro a ha b hb rfl
        exact hfresh (List.mem_singleton.1 hb ▸ ha)
      exact hmarked.filter _
    | unmatched => exact hs.nodup.filter _
  · -- A step of the window is not ahead of the window of any later time.
    rw [hstep, hskew]
    rcases used_of_check h hn with hused | hwindow
    · exact hs.ahead n hused
    · have hhigh := (mem_window.1 hwindow).2.1
      have hlater := Nat.div_le_div_right (c := s.step) hnow
      omega

/-- **So does a recovery.** The steps that it adds were not used, and lie in the window. -/
theorem Kept.retire (hs : s.Kept last) (h : s.retire now = .ok t) (hnow : now ≤ last) :
    t.Kept last := by
  obtain ⟨added, hretire, hincreasing, hadded⟩ := retire_eq (retire_spec h).1 now
  cases h.symm.trans hretire
  refine ⟨List.nodup_append.2 ⟨hs.nodup, hincreasing.imp Nat.ne_of_lt, ?_⟩, fun n hn => ?_⟩
  · rintro a ha b hb rfl
    exact ((hadded a).1 hb).1 ha
  · rcases List.mem_append.1 hn with hused | hnew
    · exact hs.ahead n hused
    · have hhigh := ((hadded n).1 hnew).2.1.2
      have hlater := Nat.div_le_div_right (c := s.step) hnow
      exact hhigh.trans (Nat.add_le_add_right hlater _)

/-- One change. -/
theorem kept_handling (P : Primitives) (maxAttempts : Nat) (s : Secret) (v : Visit) :
    (((v.handling maxAttempts).result? P s).getD s).core = s.core ∧
      ∀ last, v.now ≤ last → s.Kept last →
        (((v.handling maxAttempts).result? P s).getD s).Kept last := by
  cases hresult : (v.handling maxAttempts).result? P s with
  | none => exact ⟨rfl, fun _ _ hs => hs⟩
  | some t =>
    cases v with
    | attempt code now =>
      obtain ⟨c, hc, rfl⟩ := Option.map_eq_some_iff.1 hresult
      have hcheck := eq_ok_of_toOption hc
      exact ⟨core_check hcheck, fun _ hnow hs => hs.check hcheck hnow⟩
    | recovery now =>
      have hretire := eq_ok_of_toOption hresult
      exact ⟨core_retire hretire, fun _ hnow hs => hs.retire hretire hnow⟩

/-- **A row of changes keeps it.** Induction on the changes. The bound is that of the latest time
among them. -/
theorem kept_visited (P : Primitives) (maxAttempts : Nat) (s : Secret) (vs : List Visit) :
    (s.visited P maxAttempts vs).core = s.core ∧
      ∀ last, (∀ v ∈ vs, v.now ≤ last) → s.Kept last → (s.visited P maxAttempts vs).Kept last := by
  induction vs generalizing s with
  | nil => exact ⟨rfl, fun _ _ hs => hs⟩
  | cons v vs ih =>
    obtain ⟨hcore, hkept⟩ := kept_handling P maxAttempts s v
    obtain ⟨hrest, hafter⟩ := ih (((v.handling maxAttempts).result? P s).getD s)
    refine ⟨hrest.trans hcore, fun last hvs hs => ?_⟩
    obtain ⟨hv, hlater⟩ := List.forall_mem_cons.1 hvs
    exact hafter last hlater (hkept last hv hs)

/-- **The latest change bounds it**, as long as the clock does not go back: then the latest time is
that of the last change. -/
theorem kept_latest (P : Primitives) (maxAttempts : Nat) (hfresh : s.usedSteps = [])
    (hclock : vs.Pairwise fun v w => v.now ≤ w.now) :
    (s.visited P maxAttempts vs).usedSteps.Nodup ∧
      ∀ n ∈ (s.visited P maxAttempts vs).usedSteps,
        ∃ latest, vs.getLast? = some latest ∧ n ≤ latest.now / s.step + s.skew := by
  rcases List.eq_nil_or_concat' vs with rfl | ⟨before, latest, rfl⟩
  · show s.usedSteps.Nodup ∧ ∀ n ∈ s.usedSteps, _
    rw [hfresh]
    exact ⟨List.nodup_nil, nofun⟩
  · have hlast : ∀ v ∈ before ++ [latest], v.now ≤ latest.now := by
      intro v hv
      rcases List.mem_append.1 hv with hbefore | hend
      · exact (List.pairwise_append.1 hclock).2.2 v hbefore latest List.mem_cons_self
      · rw [List.mem_singleton.1 hend]
    obtain ⟨hcore, hkept⟩ := kept_visited P maxAttempts s (before ++ [latest])
    obtain ⟨-, -, -, -, -, hstep, hskew⟩ := core_eq_iff.1 hcore
    obtain ⟨hnodup, hahead⟩ := hkept latest.now hlast (kept_of_unused hfresh _)
    rw [hstep, hskew] at hahead
    exact ⟨hnodup, fun n hn => ⟨latest, List.getLast?_concat, hahead n hn⟩⟩

/-! ## §3 — what a check leaves -/

/-- **Who looks at a code forgets what lies two windows back.** So the steps that are kept are
bounded from both sides. -/
theorem recent_of_seen (h : s.check P maxAttempts code now = .ok c)
    (hseen : s.LooksAt maxAttempts code (now / s.step)) (hn : n ∈ c.secret.usedSteps) :
    now / s.step ≤ n + 2 * s.skew := by
  obtain ⟨key, hkey, hfits⟩ := usableKey_of_seen h hseen
  rw [check_of_seen (check_cases h).1 (length_of_check h) hkey hseen hfits] at h
  cases h
  -- Whether or not the code is accepted, the check ends with forgetting.
  generalize s.matchingStep P key code (now / s.step) = matching at hn
  cases matching with
  | some t => exact (mem_forgetBefore.1 hn).2
  | none => exact (mem_forgetBefore.1 hn).2

/-- Different numbers in a range are no more than the range is long. -/
theorem length_le_of_between {l : List Nat} {low high : Nat} (hl : l.Nodup)
    (h : ∀ n ∈ l, low ≤ n ∧ n ≤ high) : l.length ≤ high + 1 - low := by
  have hrange : l ⊆ List.range' low (high + 1 - low) := by
    intro n hn
    have hbounds := h n hn
    rw [List.mem_range'_1]
    omega
  have hlength := (hl.subperm hrange).length_le
  rwa [List.length_range'] at hlength

/-- What is said of the used steps of a secret after a row of changes. -/
structure Orderly (P : Primitives) (maxAttempts : Nat) (s : Secret) (vs : List Visit) : Prop where
  nodup : (s.visited P maxAttempts vs).usedSteps.Nodup
  /-- None lies beyond the window of the latest change. -/
  ahead : ∀ n ∈ (s.visited P maxAttempts vs).usedSteps,
    ∃ latest, vs.getLast? = some latest ∧ n ≤ latest.now / s.step + s.skew
  /-- After one more attempt that is looked at, they are those of a few steps. -/
  evaluated : ∀ code now c, (∀ v ∈ vs, v.now ≤ now) →
    (s.visited P maxAttempts vs).LooksAt maxAttempts code (now / s.step) →
    (s.visited P maxAttempts vs).check P maxAttempts code now = .ok c →
    (∀ n ∈ c.secret.usedSteps,
      now / s.step - 2 * s.skew ≤ n ∧ n ≤ now / s.step + s.skew) ∧
    c.secret.usedSteps.length ≤ 3 * s.skew + 1
  /-- If the secret makes codes, there is a verdict on every code of the right length, where no step
  nearby is too long for the clock. -/
  judged : ∀ key code now, s.usableKey = .ok key → code.utf8ByteSize = s.digits →
    ¬ (s.visited P maxAttempts vs).Overruns (now / s.step) →
    ∃ c, (s.visited P maxAttempts vs).check P maxAttempts code now = .ok c

/-- **The used steps stay in order**, whatever is tried and however often the secret is recovered,
as long as the clock does not go back. -/
theorem used_steps_orderly (P : Primitives) (maxAttempts : Nat) {s : Secret} (hstep : 0 < s.step)
    (hfresh : s.usedSteps = []) {vs : List Visit}
    (hclock : vs.Pairwise fun v w => v.now ≤ w.now) : Orderly P maxAttempts s vs := by
  obtain ⟨hcore, hkept⟩ := kept_visited P maxAttempts s vs
  obtain ⟨-, -, -, -, hdigits, hsame, hskew⟩ := core_eq_iff.1 hcore
  obtain ⟨hnodup, hahead⟩ := kept_latest P maxAttempts hfresh hclock
  refine ⟨hnodup, hahead, fun code now c hlater hseen hcheck => ?_,
    fun key code now hkey hlength hfits => ?_⟩
  · have hafter := (hkept now hlater (kept_of_unused hfresh now)).check hcheck (Nat.le_refl now)
    obtain ⟨-, -, -, -, -, hstep', hskew'⟩ := core_eq_iff.1 ((core_check hcheck).trans hcore)
    have hbetween : ∀ n ∈ c.secret.usedSteps,
        now / s.step - 2 * s.skew ≤ n ∧ n ≤ now / s.step + s.skew := by
      intro n hn
      rw [← hsame] at hseen
      have hrecent := recent_of_seen hcheck hseen hn
      have hahead := hafter.ahead n hn
      rw [hsame, hskew] at hrecent
      rw [hstep', hskew'] at hahead
      exact ⟨Nat.sub_le_of_le_add hrecent, hahead⟩
    have hlength := length_le_of_between hafter.nodup hbetween
    exact ⟨hbetween, by omega⟩
  · rw [← hsame] at hfits
    exact check_defined (hsame ▸ hstep) ((usableKey_of_core hcore).trans hkey)
      (hlength.trans hdigits.symm) hfits

/-! Four steps are left, which is as many as there can be: those of a recovery, and the one of a
code that is given a step early. -/

/-- A code of step 1 in step 0, one that is too short to be looked at, and a recovery in step 3. -/
def visits : List Visit := [.attempt "000001" 0, .attempt "1" 30, .recovery 90]

/-- Four steps are remembered afterwards, each once. -/
theorem used_steps_orderly_full :
    0 < fresh.step ∧ fresh.usedSteps = [] ∧ visits.Pairwise (fun v w => v.now ≤ w.now) ∧
    Orderly .transparent 5 fresh visits ∧
    (fresh.visited .transparent 5 visits).usedSteps = [1, 2, 3, 4] ∧
    ∃ c, (fresh.visited .transparent 5 visits).check .transparent 5 "000005" 120 = .ok c ∧
      c.secret.usedSteps = [2, 3, 4, 5] ∧
      (∀ n ∈ c.secret.usedSteps, 2 ≤ n ∧ n ≤ 5) ∧ c.secret.usedSteps.length ≤ 4 := by
  have hclock : visits.Pairwise fun v w => v.now ≤ w.now := by decide
  have horderly := used_steps_orderly .transparent 5 (s := fresh) (by decide) rfl hclock
  have hkey : fresh.usableKey = .ok (List.replicate 20 7) := by decide +kernel
  obtain ⟨c, hcheck⟩ := horderly.judged _ "000005" 120 hkey (by decide) (by decide +kernel)
  have hused :
      ((fresh.visited .transparent 5 visits).check .transparent 5 "000005" 120).toOption.map
        (·.secret.usedSteps) = some [2, 3, 4, 5] := by decide +kernel
  rw [hcheck] at hused
  exact ⟨by decide, rfl, hclock, horderly, by decide +kernel, c, hcheck, Option.some.inj hused,
    horderly.evaluated _ _ _ (by decide) (by decide +kernel) hcheck⟩

end Secret

end SecondFactor.Otp
