import SecondFactor.Proofs.Laws

/-!
# Sealing loses nothing and adds nothing

An envelope opens to exactly what was sealed in it, and nothing opens but what was sealed. Of the
cipher this takes one law for granted, that decryption accepts the encryptions under its key and
nonce and no other bytes; the cipher that runs has it, whatever its block cipher does, since masking
twice gives the text back and the tag follows from the masked text. Over it lies the stored form of
secrets, which is read back as it was written.

## The architecture

* **`Cipher.Gcm.mask_mask`** — masking undoes itself; **`Cipher.Gcm.decrypt?_eq_some`** — what is
  decrypted.
* **`Primitives.ExactSealing`** — the law; **`Primitives.standard_exactSealing`** — it holds of the
  cipher that runs, and with it **`Primitives.standard_sealing`**.
* **`Envelope.unwrap_eq_ok`** — opening is sealing the other way round.
* **`sealing_exact`** — envelopes and sealed secrets.
-/

namespace SecondFactor

/-! ## §1 — the cipher that runs -/

namespace Cipher.Gcm

open Aes (Square)

variable {keys : List Square} {key nonce text plain cipher : Bytes}

theorem length_bytes (s : Square) : s.bytes.length = 16 := rfl

theorem length_stream (count : Nat) : ((List.range count).flatMap fun i =>
    (Aes.encipher keys (counterBlock nonce (i + 2))).bytes).length = count * 16 := by
  simp only [List.length_flatMap, length_bytes, List.map_const', List.length_range,
    List.sum_replicate_nat]

/-- A stream that is long enough is taken away again by adding it once more. Induction on the
text. -/
theorem xor_xor {stream : Bytes} (h : text.length ≤ stream.length) :
    (text.zipWith (· ^^^ ·) stream).zipWith (· ^^^ ·) stream = text := by
  induction text generalizing stream with
  | nil => rfl
  | cons x text ih =>
    match stream, h with
    | y :: stream, h =>
      rw [List.zipWith_cons_cons, List.zipWith_cons_cons, ih (Nat.le_of_succ_le_succ h),
        UInt8.xor_assoc, UInt8.xor_self, UInt8.xor_zero]

theorem length_mask : (mask keys nonce text).length = text.length := by
  unfold mask
  dsimp only
  rw [List.length_zipWith, length_stream]
  omega

/-- **Masking undoes itself**, because the stream depends on the key, the nonce and the length of
the text alone. -/
theorem mask_mask : mask keys nonce (mask keys nonce text) = text := by
  have hlong : text.length ≤ ((List.range ((text.length + 15) / 16)).flatMap fun i =>
      (Aes.encipher keys (counterBlock nonce (i + 2))).bytes).length := by
    rw [length_stream]
    omega
  have hmask : ∀ masked : Bytes, masked.length = text.length → mask keys nonce masked =
      masked.zipWith (· ^^^ ·) ((List.range ((text.length + 15) / 16)).flatMap fun i =>
        (Aes.encipher keys (counterBlock nonce (i + 2))).bytes) := by
    intro masked hlength
    unfold mask
    dsimp only
    rw [hlength]
  rw [hmask _ length_mask, hmask _ rfl]
  exact xor_xor hlong

theorem length_tag : (tag keys nonce text).length = tagLength := by
  unfold tag
  dsimp only
  rw [List.length_zipWith, length_bytes]
  rfl

theorem length_encrypt : (encrypt key nonce plain).length = plain.length + tagLength := by
  unfold encrypt
  dsimp only
  rw [List.length_append, length_mask, length_tag]

/-- **What is decrypted** is what was encrypted under the key and the nonce. The tag is compared
with the one that encryption would have put there, so nothing else passes. -/
theorem decrypt?_eq_some :
    decrypt? key nonce cipher = some plain ↔ cipher = encrypt key nonce plain := by
  constructor
  · intro h
    unfold decrypt? at h
    dsimp only at h
    split at h
    · rename_i htag
      obtain rfl := Option.some.inj h
      unfold encrypt
      dsimp only
      rw [mask_mask, ← htag, List.take_append_drop]
    · cases h
  · rintro rfl
    have hmasked : (encrypt key nonce plain).length - tagLength =
        (mask (Aes.roundKeys key) nonce plain).length := by
      rw [length_encrypt, length_mask, Nat.add_sub_cancel]
    unfold decrypt?
    dsimp only
    rw [hmasked]
    unfold encrypt
    dsimp only
    rw [List.take_left, List.drop_left, if_pos rfl, mask_mask]

end Cipher.Gcm

/-! ## §2 — the law -/

namespace Primitives

/-- Under the keys that a cipher takes, decryption accepts exactly the encryptions under its key and
nonce, and undoes them; the tag has a fixed length. -/
structure ExactSealing (P : Primitives) : Prop where
  decrypt_iff : ∀ (key : Bytes), Envelope.IsKeyLength key.length →
    ∀ (nonce : Nonce) (cipher plain : Bytes),
      P.decrypt? key nonce.toList cipher = some plain ↔ cipher = P.encrypt key nonce.toList plain
  length_encrypt : ∀ (key : Bytes), Envelope.IsKeyLength key.length →
    ∀ (nonce : Nonce) (plain : Bytes),
      (P.encrypt key nonce.toList plain).length = plain.length + Envelope.tagLength

/-- **The cipher that runs keeps the law.** No assumption about it is left for what is said of
sealing and opening with one key. -/
theorem standard_exactSealing : standard.ExactSealing where
  decrypt_iff _ _ _ _ _ := Cipher.Gcm.decrypt?_eq_some
  length_encrypt _ _ _ _ := Cipher.Gcm.length_encrypt

/-- Under derived keys this is more than the laws of sealing ask for. It still leaves open that one
ciphertext belongs to two keys. -/
theorem ExactSealing.sealing {P : Primitives} (hP : P.ExactSealing) : P.SealingLaws := by
  have hkey : ∀ key : Key, Envelope.IsKeyLength key.toList.length := by
    intro key
    rw [Vector.length_toList]
    decide
  refine ⟨fun key nonce plain => (hP.decrypt_iff _ (hkey key) nonce _ _).2 rfl,
    fun key nonce plain => ?_⟩
  rw [hP.length_encrypt _ (hkey key)]
  exact Nat.le_add_left _ _

/-- **The cipher that runs keeps the laws of sealing**, which statements about the service take for
granted. -/
theorem standard_sealing : standard.SealingLaws := standard_exactSealing.sealing

end Primitives

/-! ## §3 — envelopes -/

namespace Envelope

variable {P : Primitives} {key d plain : Bytes} {nonce : Nonce}

/-- With a key of the right length, sealing cannot fail. -/
theorem wrap_of_keyLength (hkey : IsKeyLength key.length) :
    wrap P key nonce plain = .ok (join P key nonce plain) := if_pos hkey

/-- What is too short for a nonce and a tag is told apart from nothing else that does not open. -/
theorem unwrap_of_short (hkey : IsKeyLength key.length)
    (hshort : d.length < nonceLength + tagLength) : unwrap P key d = .error .unauthentic := by
  unfold unwrap
  rw [if_pos hkey, if_pos hshort]

theorem length_join (hP : P.ExactSealing) (hkey : IsKeyLength key.length) :
    (join P key nonce plain).length = plain.length + (nonceLength + tagLength) := by
  unfold join
  rw [List.length_append, hP.length_encrypt key hkey, Vector.length_toList]
  show nonceLength + (plain.length + tagLength) = _
  omega

/-- The two parts of an envelope are found again where it is cut. -/
theorem parts_join (P : Primitives) (key : Bytes) (nonce : Nonce) (plain : Bytes) :
    (join P key nonce plain).take nonceLength = nonce.toList ∧
      (join P key nonce plain).drop nonceLength = P.encrypt key nonce.toList plain := by
  have hlength : nonce.toList.length = nonceLength := Vector.length_toList
  exact ⟨List.take_left' hlength, List.drop_left' hlength⟩

/-- The bytes before the encryption are a nonce, whatever they are. -/
theorem exists_nonce (h : nonceLength ≤ d.length) :
    ∃ nonce : Nonce, nonce.toList = d.take nonceLength :=
  ⟨⟨(d.take nonceLength).toArray, by
    rw [List.size_toArray, List.length_take]
    exact Nat.min_eq_left h⟩, rfl⟩

/-- **What opens is what was sealed**, for some nonce. Both directions hold for every key, also for
one of a length that the cipher does not take, where neither side ever holds. -/
theorem unwrap_eq_ok (hP : P.ExactSealing) :
    unwrap P key d = .ok plain ↔ ∃ nonce, wrap P key nonce plain = .ok d := by
  by_cases hkey : IsKeyLength key.length
  · constructor
    · intro h
      unfold unwrap at h
      rw [if_pos hkey] at h
      split at h
      · cases h
      · rename_i hlong
        -- What opens was sealed with the nonce that it begins with.
        obtain ⟨nonce, hnonce⟩ := exists_nonce (d := d) (by omega)
        rw [← hnonce] at h
        split at h
        · rename_i found hfound
          cases h
          refine ⟨nonce, (wrap_of_keyLength hkey).trans (congrArg _ ?_)⟩
          rw [join, ← (hP.decrypt_iff key hkey nonce _ _).1 hfound, hnonce, List.take_append_drop]
        · cases h
    · rintro ⟨nonce, h⟩
      obtain rfl := Except.ok.inj ((wrap_of_keyLength hkey).symm.trans h)
      obtain ⟨htake, hdrop⟩ := parts_join P key nonce plain
      have hlong : ¬ (join P key nonce plain).length < nonceLength + tagLength := by
        rw [length_join hP hkey]
        omega
      unfold unwrap
      rw [if_pos hkey, if_neg hlong, htake, hdrop, (hP.decrypt_iff key hkey nonce _ _).2 rfl]
  · have hunwrap : unwrap P key d = .error (.keyLength key.length) := if_neg hkey
    have hwrap : ∀ nonce, wrap P key nonce plain = .error (.keyLength key.length) :=
      fun _ => if_neg hkey
    simp [hunwrap, hwrap]

end Envelope

/-! ## §4 — sealed secrets -/

/-- **Sealing loses nothing and adds nothing.** A secret whose numbers are within their widths is
got back with its bookkeeping from its sealed form. An envelope is as long as its plaintext, its
nonce and its tag; it opens to its plaintext, and whatever opens is a nonce with the encryption of
the plaintext under it. What is shorter than a nonce and a tag is not authentic, and for a key of
another length nothing is sealed and nothing opens. -/
theorem sealing_exact {P : Primitives} (hP : P.ExactSealing) :
    (∀ s : Otp.Secret, s.Bounded → ∀ (key : Key) (nonce : Nonce),
      Otp.Secret.unwrap P (s.wrap P key nonce) key = .ok s) ∧
    (∀ key : Bytes, Envelope.IsKeyLength key.length →
      (∀ (nonce : Nonce) (plain : Bytes), ∃ d, Envelope.wrap P key nonce plain = .ok d ∧
        Envelope.unwrap P key d = .ok plain ∧ d.length = plain.length + 28) ∧
      (∀ d plain : Bytes, Envelope.unwrap P key d = .ok plain →
        d = d.take 12 ++ P.encrypt key (d.take 12) plain ∧
          ∃ nonce, Envelope.wrap P key nonce plain = .ok d) ∧
      (∀ d : Bytes, d.length < 28 → Envelope.unwrap P key d = .error .unauthentic)) ∧
    (∀ key : Bytes, ¬ Envelope.IsKeyLength key.length →
      (∀ (nonce : Nonce) (plain : Bytes),
        Envelope.wrap P key nonce plain = .error (.keyLength key.length)) ∧
      (∀ d : Bytes, Envelope.unwrap P key d = .error (.keyLength key.length))) := by
  refine ⟨fun s hs key nonce => ?_, fun key hkey => ⟨fun nonce plain => ?_, fun d plain h => ?_,
    fun d hshort => Envelope.unwrap_of_short hkey hshort⟩, fun key hkey => ⟨fun nonce plain =>
    if_neg hkey, fun d => if_neg hkey⟩⟩
  · have hkey : Envelope.IsKeyLength key.toList.length := by
      rw [Vector.length_toList]
      decide
    -- The key of a secret has the right length, so this is a case of the part about bytes.
    have hopens : Envelope.unwrap P key.toList (s.wrap P key nonce) = .ok s.bytes :=
      (Envelope.unwrap_eq_ok hP).2 ⟨nonce, Envelope.wrap_of_keyLength hkey⟩
    unfold Otp.Secret.unwrap
    rw [hopens]
    dsimp only
    rw [Otp.Secret.ofBytes_bytes hs]
  · have hsealed : Envelope.wrap P key nonce plain = .ok (Envelope.join P key nonce plain) :=
      Envelope.wrap_of_keyLength hkey
    exact ⟨_, hsealed, (Envelope.unwrap_eq_ok hP).2 ⟨nonce, hsealed⟩, Envelope.length_join hP hkey⟩
  · -- What opens was sealed, with some nonce; and this is the first part of the envelope.
    obtain ⟨nonce, hsealed⟩ := (Envelope.unwrap_eq_ok hP).1 h
    refine ⟨?_, nonce, hsealed⟩
    obtain rfl := Except.ok.inj ((Envelope.wrap_of_keyLength hkey).symm.trans hsealed)
    have htake : (Envelope.join P key nonce plain).take 12 = nonce.toList :=
      (Envelope.parts_join ..).1
    rw [htake]
    rfl

/-! A secret with marks, control characters and the greatest numbers, under the cipher that runs. -/

/-- A secret with marks, control characters and the greatest numbers. -/
def Otp.Secret.unusual : Otp.Secret :=
  { Policy.usual.newSecret "" (.replicate 20 7) with
    account := "\"\\/\x00\x08\n\x7f\u2028ユーザー😀"
    issuer := " \\u0041\" "
    algorithm := .sha512
    skew := 255
    counter := wordBound - 1
    usedSteps := [0, wordBound - 1, 7, 7]
    attemptStep := wordBound - 1
    attemptsInStep := UInt32.size - 1 }

theorem sealing_exact_unusual :
    Otp.Secret.unwrap .standard
      (Otp.Secret.unusual.wrap .standard (.replicate 32 1) (.replicate 12 2)) (.replicate 32 1) =
      .ok .unusual ∧
    (∃ d, Envelope.wrap .standard (List.replicate 24 1) (.replicate 12 2) [0, 255] = .ok d ∧
      Envelope.unwrap .standard (List.replicate 24 1) d = .ok [0, 255] ∧ d.length = 30) ∧
    Envelope.unwrap .standard (List.replicate 16 1) (List.replicate 27 0) = .error .unauthentic ∧
    Envelope.unwrap .standard (List.replicate 31 1) [] = .error (.keyLength 31) := by
  obtain ⟨hsecrets, henvelopes, hother⟩ := sealing_exact Primitives.standard_exactSealing
  refine ⟨hsecrets _ (by decide) _ _, ?_, ?_, ?_⟩
  · exact (henvelopes _ (by decide)).1 _ _
  · exact (henvelopes _ (by decide)).2.2 _ (by decide)
  · exact (hother (List.replicate 31 1) (by decide)).2 _

end SecondFactor
