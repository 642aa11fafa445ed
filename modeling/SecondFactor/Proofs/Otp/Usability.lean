import SecondFactor.Proofs.Base32
import SecondFactor.Proofs.Enrollments
import SecondFactor.Proofs.Otp.Retirement
import SecondFactor.Proofs.Results

/-!
# Secrets that stay usable

Whoever is enrolled has to be able to use the secret for as long as it is kept. A policy that passed
its checks, the label that takes the colons out of an account's text, and a key of twenty bytes give
a secret with which codes can be made, and nothing that happens to a secret touches what that
depends on. So the only thing that is ever refused is a code of the wrong length, as long as the
clock can reckon the steps nearby.

## The architecture

* **`usableKey_newSecret`** — codes can be made with a new secret.
* **`Serviceable`** — what can be done with a secret from now on; **`serviceable_of_usableKey`** —
  it needs a key, a step and numbers within their widths, and no more.
* **`Handling`** — what happens to a secret while it is kept; **`Handling.keeps`** for one handling,
  **`handled_keeps`** for all of them, one after the other.
* **`secret_stays_usable`** — a new secret after any handlings.
-/

namespace SecondFactor.Otp

/-! ## §1 — new secrets -/

/-- In the label of an authenticator a colon separates issuer and account, so that none may be
within the account. -/
theorem accountLabel_no_colon (account : String) : ':' ∉ (accountLabel account).toList := by
  unfold accountLabel
  rw [String.toList_map, List.mem_map]
  rintro ⟨c, -, hc⟩
  split at hc
  · exact absurd hc (by decide)
  · rename_i hne
    exact hne hc

/-- The parameters of a policy are those that it was made from. -/
theorem Policy.toParams_of_make {params : Params} {p : Policy}
    (h : Policy.make params = .ok p) : p.toParams = params := by
  unfold Policy.make at h
  split at h
  · split at h
    · split at h
      · cases h
        rfl
      · cases h
    · cases h
  · cases h

/-- **Codes can be made with a new secret**, with the bytes that were drawn as the key. A policy
that was accepted at the start cannot lead to a secret that is refused later. -/
theorem Policy.usableKey_newSecret (p : Policy) (account : String) (entropy : Vector UInt8 20) :
    (p.newSecret account entropy).usableKey = .ok entropy.toList := by
  have hread : (p.newSecret account entropy).keyBytes = .ok entropy.toList := by
    unfold Secret.keyBytes newSecret
    rw [Base32.decode?_encode]
  have hlength : 16 ≤ entropy.toList.length := by
    rw [Vector.length_toList]
    decide
  unfold Secret.usableKey
  rw [hread]
  exact if_pos ⟨p.digits_range.1, p.digits_range.2, hlength, p.issuer_no_colon,
    accountLabel_no_colon account⟩

namespace Secret

variable {P : Primitives} {s t : Secret} {key : Bytes}

/-! ## §2 — what can be done with a secret -/

/-- A secret can be used, in each way in which secrets are used. -/
structure Serviceable (P : Primitives) (s : Secret) (key : Bytes) : Prop where
  usable : s.usableKey = .ok key
  /-- A code of another length is refused as such, … -/
  refused : ∀ maxAttempts code now, code.utf8ByteSize ≠ s.digits →
    s.check P maxAttempts code now = .error (.refused (.validation (.codeDigits s.digits)))
  /-- … and there is a verdict on every other code, where no step is too long for the clock, … -/
  judged : ∀ maxAttempts code now, code.utf8ByteSize = s.digits → ¬ s.Overruns (now / s.step) →
    ∃ c, s.check P maxAttempts code now = .ok c
  /-- … such as are those that an authenticator shows, at whatever time. -/
  shown : ∀ maxAttempts time now, ¬ s.Overruns (now / s.step) →
    ∃ c, s.check P maxAttempts (s.codeShown P key time) now = .ok c
  retired : ∀ now, ∃ t, s.retire now = .ok t
  sealed : ∀ key nonce, unwrap P (s.wrap P key nonce) key = .ok s
  written : ofBytes s.bytes = .ok s

/-- A code is shown with as many digits as its secret says, noughts in front included. -/
theorem length_codeShown (P : Primitives) (s : Secret) (key : Bytes) (time : Nat) :
    (s.codeShown P key time).utf8ByteSize = s.digits :=
  (spec_codeText s.digits (P.stepNumber s.algorithm key (time / s.step))).1

/-- **When a secret can be used.** It is enough that its key can be used: attempts of the right
length are judged, others refused, and sealing and opening give it back. -/
theorem serviceable_of_usableKey (hP : P.SealingLaws) (hkey : s.usableKey = .ok key)
    (hstep : 0 < s.step) (hs : s.Bounded) : Serviceable P s key where
  usable := hkey
  refused _ _ _ hlength := check_of_length hlength
  judged _ _ _ hlength hfits := check_defined hstep hkey hlength hfits
  shown _ time _ hfits := check_defined hstep hkey (length_codeShown P s key time) hfits
  retired now := by
    obtain ⟨t, hretire, -⟩ := retire_closes P 0 hstep now
    exact ⟨t, hretire⟩
  sealed _ _ := unwrap_wrap hP hs
  written := ofBytes_bytes hs

/-! ## §3 — what happens to a secret -/

/-- What happens to a secret while it is kept. -/
inductive Handling where
  | check (maxAttempts : Nat) (code : String) (now : Nat)
  | retire (now : Nat)
  /-- It is sealed under a key and opened again. -/
  | reopen (key : Key) (nonce : Nonce)
  /-- It is written and read. -/
  | reread

namespace Handling

/-- The clock shows a stored number. -/
def Dated : Handling → Prop
  | check _ _ now | retire now => now < wordBound
  | reopen .. | reread => True

instance : (h : Handling) → Decidable h.Dated
  | check .. | retire _ => inferInstanceAs (Decidable (_ < _))
  | reopen .. | reread => inferInstanceAs (Decidable True)

/-- The secret that a handling gives, if it gives one. -/
def result? (P : Primitives) (s : Secret) : Handling → Option Secret
  | check maxAttempts code now => (s.check P maxAttempts code now).toOption.map Check.secret
  | retire now => (s.retire now).toOption
  | reopen key nonce => (unwrap P (s.wrap P key nonce) key).toOption
  | reread => (ofBytes s.bytes).toOption

end Handling

/-- The secret after a row of handlings. One that gives no secret leaves the one there was. -/
def handled (P : Primitives) : Secret → List Handling → Secret
  | s, [] => s
  | s, h :: hs => handled P ((h.result? P s).getD s) hs

/-- The same secret, with other bookkeeping that can be stored. -/
def KeptAs (t s : Secret) : Prop := t.core = s.core ∧ t.Bounded

/-- **A handling keeps the secret.** A case for each handling. The core stays as it is, and the
numbers stay within their widths. -/
theorem Handling.keeps (hP : P.SealingLaws) {h : Handling} (hdated : h.Dated) (hs : s.Bounded)
    (ht : h.result? P s = some t) : t.KeptAs s := by
  cases h with
  -- An attempt and a recovery do bookkeeping within bounds.
  | check maxAttempts code now =>
    obtain ⟨c, hc, rfl⟩ := Option.map_eq_some_iff.1 ht
    have hcheck := eq_ok_of_toOption hc
    exact ⟨core_check hcheck, bounded_check hcheck hs hdated⟩
  | retire now =>
    have hretire := eq_ok_of_toOption ht
    exact ⟨core_retire hretire, bounded_retire hretire hs⟩
  -- What was sealed opens, and what was written is read, as the very same secret.
  | reopen key nonce =>
    have hopen : some s = some t := by
      rw [← ht, result?, unwrap_wrap hP hs]
      rfl
    cases hopen
    exact ⟨rfl, hs⟩
  | reread =>
    have hread : some s = some t := by
      rw [← ht, result?, ofBytes_bytes hs]
      rfl
    cases hread
    exact ⟨rfl, hs⟩

/-- **So do all handlings together.** Induction on the handlings. The order in which they come does
not matter. -/
theorem handled_keeps (hP : P.SealingLaws) {hs : List Handling} (hdated : ∀ h ∈ hs, h.Dated)
    (hbounded : s.Bounded) : (handled P s hs).KeptAs s := by
  induction hs generalizing s with
  | nil => exact ⟨rfl, hbounded⟩
  | cons h hs ih =>
    obtain ⟨hfirst, hrest⟩ := List.forall_mem_cons.1 hdated
    have hkept : ((h.result? P s).getD s).KeptAs s := by
      cases hresult : h.result? P s with
      | none => exact ⟨rfl, hbounded⟩
      | some t => exact Handling.keeps hP hfirst hbounded hresult
    obtain ⟨hcore, hstored⟩ := ih hrest hkept.2
    exact ⟨hcore.trans hkept.1, hstored⟩

/-- **A secret that an accepted policy made stays usable**, whatever happens to it: codes can be
made with the key that was drawn, and nothing but the length of a code is ever refused, where no
step nearby is too long for the clock. -/
theorem secret_stays_usable {P : Primitives} (hP : P.SealingLaws) {params : Params} {p : Policy}
    (hmake : Policy.make params = .ok p) (hstorable : p.Storable) (account : String)
    (entropy : Vector UInt8 20) {hs : List Handling} (hdated : ∀ h ∈ hs, h.Dated) :
    Serviceable P (handled P (p.newSecret account entropy) hs) entropy.toList ∧
      (handled P (p.newSecret account entropy) hs).digits = params.digits ∧
      (handled P (p.newSecret account entropy) hs).core = (p.newSecret account entropy).core := by
  obtain ⟨hcore, hbounded⟩ :=
    handled_keeps hP hdated (hstorable.bounded_newSecret account entropy)
  obtain ⟨-, -, -, -, hdigits, hstep, -⟩ := core_eq_iff.1 hcore
  have hkey := (usableKey_of_core hcore).trans (p.usableKey_newSecret account entropy)
  have hpos : 0 < (handled P (p.newSecret account entropy) hs).step := hstep ▸ p.step_pos
  refine ⟨serviceable_of_usableKey hP hkey hpos hbounded, ?_, hcore⟩
  rw [hdigits, ← Policy.toParams_of_make hmake]
  rfl

/-! An account's text of colons and more, eight digits, the longest step that can be stored, and one
handling of each kind. The second check is of a code that is too short, and the third breaks off,
since the third step is too long for the clock; neither gives a secret. Once the steps up to there
are used, none of their times is reckoned any more. -/

/-- The policy. -/
def Policy.extreme : Policy where
  issuer := "A"
  algorithm := .sha512
  digits := 8
  step := wordBound - 1
  digits_range := by decide
  step_pos := by decide
  issuer_nonempty := by decide
  issuer_no_colon := by decide

/-- The handlings: attempts right and wrong, also at the end of time, a recovery, and a way through
each of the stored forms. -/
def handlings : List Handling :=
  [.check 5 "00000000" 0, .check 5 "0" 0, .check 5 "00000001" (wordBound - 1),
    .retire (wordBound - 1), .reopen (.replicate 32 1) (.replicate 12 2), .reread]

/-- After all of them the secret can be used still: a code of seven digits is refused, and one of
eight is looked at, even at the last time that there is. -/
theorem secret_stays_usable_extreme :
    (∀ h ∈ handlings, h.Dated) ∧
    ∃ s, s = handled .transparent (Policy.extreme.newSecret ":ユーザー:" (.replicate 20 7)) handlings ∧
      s.account = "_ユーザー_" ∧ s.counter = 1 ∧ s.usedSteps = [0, 1, 2] ∧
      Serviceable .transparent s (List.replicate 20 7) ∧
      s.check .transparent 5 "0000000" 0 =
        .error (.refused (.validation (.codeDigits 8))) ∧
      ∃ c, s.check .transparent 5 "00000003" (wordBound - 1) = .ok c := by
  have hdated : ∀ h ∈ handlings, h.Dated := by decide
  have hmake : Policy.make Policy.extreme.toParams = .ok Policy.extreme := rfl
  obtain ⟨hserviceable, hdigits, -⟩ :=
    secret_stays_usable Primitives.transparent_sealing hmake ⟨by decide, by decide⟩ ":ユーザー:"
      (.replicate 20 7) hdated
  refine ⟨hdated, _, rfl, by decide +kernel, by decide +kernel, by decide +kernel, hserviceable, ?_,
    ?_⟩
  · have hrefused := hserviceable.refused 5 "0000000" 0
    rw [hdigits] at hrefused
    exact hrefused (by decide)
  · exact hserviceable.judged 5 "00000003" (wordBound - 1) (by rw [hdigits]; decide)
      (by decide +kernel)

end Secret

end SecondFactor.Otp
