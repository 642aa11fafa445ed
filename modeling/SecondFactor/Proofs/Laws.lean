import SecondFactor.Proofs.Otp.StoredForm
import SecondFactor.Service.State

/-!
# Laws of the primitives

What statements about the service take for granted of cryptography. An envelope opens under the key
under which it was sealed, and the hash of a word is accepted for that word. Nothing is said about
what an attacker can compute: the laws are about the values that the service itself makes.

Two idealisations go further, and no cipher and no hash of a fixed length keeps them to the letter:
that an envelope opens to nothing else under any key, and that a hash is accepted for one word only.
They are hypotheses of their own, of those statements alone that need them.

## The architecture

* **`SealingLaws`**, **`HashingLaws`**, **`ReadableHashing`** — the laws, which the primitives that
  run keep, as hypotheses of the theorems that need them.
* **`Misread`**, **`Authentic`** — a ciphertext that decrypts to something else, and that there is
  none; **`ExactHashing`** is the other idealisation, for statements about what is refused.
* **`Secret.unwrap_wrap`**, **`Secret.misread_of_unwrap`**, **`Secret.eq_of_unwrap_wrap`** — what
  becomes of sealed secrets.
* **`Primitives.transparent`** — primitives that hide nothing and keep the laws, so that the laws do
  not contradict each other; **`Deployment.transparent`** is a service that runs on them.
-/

namespace SecondFactor

namespace Primitives

/-- The laws of encryption under derived keys: what was sealed can be opened again. -/
structure SealingLaws (P : Primitives) : Prop where
  /-- Decryption undoes encryption. -/
  decrypt_encrypt : ∀ (key : Key) (nonce : Nonce) (plain : Bytes),
    P.decrypt? key.toList nonce.toList (P.encrypt key.toList nonce.toList plain) = some plain
  /-- A tag is added. -/
  tagged : ∀ (key : Key) (nonce : Nonce) (plain : Bytes),
    Envelope.tagLength ≤ (P.encrypt key.toList nonce.toList plain).length

/-- What was encrypted under one key decrypts under another, and to something else. A key has fewer
bits than a plaintext can have, so such a pair of keys exists for every cipher; nobody is known to
have found one by accident. -/
def Misread (P : Primitives) (key other : Key) (nonce : Nonce) (plain : Bytes) : Prop :=
  ∃ found, P.decrypt? other.toList nonce.toList (P.encrypt key.toList nonce.toList plain) =
    some found ∧ found ≠ plain

/-- Whatever decryption gives was encrypted. This idealises the tag of an envelope as one that is
never right by accident. -/
def Authentic (P : Primitives) : Prop := ∀ (key other : Key) (nonce : Nonce) (plain : Bytes),
  ¬ P.Misread key other nonce plain

/-- It takes two keys to misread what was encrypted, since under its own key it decrypts to
itself. -/
theorem Misread.ne {P : Primitives} (hP : P.SealingLaws) {key other : Key} {nonce : Nonce}
    {plain : Bytes} (h : P.Misread key other nonce plain) : key ≠ other := by
  rintro rfl
  obtain ⟨found, hfound, hother⟩ := h
  exact hother (Option.some.inj (hfound.symm.trans (hP.decrypt_encrypt key nonce plain)))

/-- The laws of password hashing. -/
structure HashingLaws (P : Primitives) : Prop where
  /-- The hash of a word is accepted for the word. -/
  verify_hash : ∀ (salt : Salt) (word : String), P.verifyWord (P.hashWord salt word) word = .ok true
  hash_nonempty : ∀ (salt : Salt) (word : String), P.hashWord salt word ≠ ""

/-- A hash is accepted for its own word only. -/
def ExactHashing (P : Primitives) : Prop := ∀ (salt : Salt) (word other : String), word ≠ other →
  P.verifyWord (P.hashWord salt word) other = .ok false

/-- There is a verdict on every word about a hash that was made, be it the word's or not. -/
def ReadableHashing (P : Primitives) : Prop := ∀ (salt : Salt) (word other : String),
  ∃ verdict, P.verifyWord (P.hashWord salt word) other = .ok verdict

/-- The hash that runs begins with the name of its variant. -/
theorem standard_hash_nonempty (salt : Salt) (word : String) :
    standard.hashWord salt word ≠ "" := by
  intro h
  have hlength : (Argon2.hash salt.toList word).length = 0 := congrArg String.length h
  unfold Argon2.hash at hlength
  rw [String.length_append, String.length_append, String.length_append] at hlength
  have hname : "$argon2id$v=19$m=19456,t=2,p=1$".length = 31 := by decide
  omega

end Primitives

/-! ## Sealed secrets -/

namespace Otp.Secret

variable {P : Primitives} {s t : Secret} {key other : Key} {nonce : Nonce} {envelope : Bytes}

/-- An envelope opens if it is long enough, what is decrypted is there, and that is the stored form
of a secret. All later statements about opening start from this one. -/
theorem unwrap_eq_ok : unwrap P envelope key = .ok s ↔
    Envelope.nonceLength + Envelope.tagLength ≤ envelope.length ∧
      ∃ plain, P.decrypt? key.toList (envelope.take Envelope.nonceLength)
        (envelope.drop Envelope.nonceLength) = some plain ∧ ofBytes plain = .ok s := by
  have hkey : Envelope.IsKeyLength key.toList.length := by
    rw [Vector.length_toList]
    decide
  unfold unwrap Envelope.unwrap
  rw [if_pos hkey]
  -- An envelope opens if it is long enough to be cut, if it can be decrypted, and if what is in it
  -- can be read; each of these is tested in turn.
  by_cases hshort : envelope.length < Envelope.nonceLength + Envelope.tagLength
  · rw [if_pos hshort]
    exact ⟨nofun, fun h => absurd h.1 (by omega)⟩
  · rw [if_neg hshort]
    cases hplain : P.decrypt? key.toList (envelope.take Envelope.nonceLength)
        (envelope.drop Envelope.nonceLength) with
    | none => exact ⟨nofun, fun ⟨_, _, h, _⟩ => nomatch h⟩
    | some plain =>
      dsimp only
      cases hread : ofBytes plain with
      | error fault =>
        refine ⟨nofun, ?_⟩
        rintro ⟨-, other, hother, hok⟩
        cases hother
        rw [hread] at hok
        cases hok
      | ok u =>
        constructor
        · intro h
          cases h
          exact ⟨by omega, plain, rfl, hread⟩
        · rintro ⟨-, other, hother, hok⟩
          cases hother
          rw [hread] at hok
          cases hok
          rfl

theorem bounded_of_unwrap (h : unwrap P envelope key = .ok s) : s.Bounded := by
  obtain ⟨-, plain, -, hread⟩ := unwrap_eq_ok.1 h
  exact bounded_of_ofBytes hread

/-- The two parts of an envelope are found again where it is cut: the nonce, and what was
encrypted. -/
theorem parts_wrap (P : Primitives) (s : Secret) (key : Key) (nonce : Nonce) :
    (s.wrap P key nonce).take Envelope.nonceLength = nonce.toList ∧
      (s.wrap P key nonce).drop Envelope.nonceLength =
        P.encrypt key.toList nonce.toList s.bytes := by
  have hlength : nonce.toList.length = Envelope.nonceLength := Vector.length_toList
  exact ⟨List.take_left' hlength, List.drop_left' hlength⟩

/-- A sealed secret is not empty: it begins with a nonce. -/
theorem wrap_ne_nil (P : Primitives) (s : Secret) (key : Key) (nonce : Nonce) :
    s.wrap P key nonce ≠ [] := by
  intro h
  have hnonce := (parts_wrap P s key nonce).1
  rw [h] at hnonce
  have hlength := congrArg List.length hnonce
  rw [Vector.length_toList] at hlength
  exact absurd hlength (by decide)

/-- **A sealed secret is opened again** with its key, if it could be stored. Decryption undoes
encryption, and the stored form is read back as it was written. -/
theorem unwrap_wrap (hP : P.SealingLaws) (hs : s.Bounded) :
    unwrap P (s.wrap P key nonce) key = .ok s := by
  obtain ⟨htake, hdrop⟩ := parts_wrap P s key nonce
  refine unwrap_eq_ok.2 ⟨?_, s.bytes, ?_, ofBytes_bytes hs⟩
  · have htag := hP.tagged key nonce s.bytes
    rw [wrap, Envelope.join, List.length_append, Vector.length_toList]
    exact Nat.add_le_add_left htag _
  · rw [htake, hdrop]
    exact hP.decrypt_encrypt key nonce s.bytes

/-- If a sealed secret opens to something else, what was encrypted is misread. -/
theorem misread_of_unwrap (hs : s.Bounded) (h : unwrap P (s.wrap P key nonce) other = .ok t)
    (hne : t ≠ s) : P.Misread key other nonce s.bytes := by
  obtain ⟨htake, hdrop⟩ := parts_wrap P s key nonce
  obtain ⟨-, plain, hplain, hread⟩ := unwrap_eq_ok.1 h
  rw [htake, hdrop] at hplain
  refine ⟨plain, hplain, fun hsame => hne ?_⟩
  rw [hsame, ofBytes_bytes hs] at hread
  exact (Except.ok.inj hread).symm

/-- **A sealed secret opens to nothing else**, whatever the key, if what is decrypted is what was
encrypted. -/
theorem eq_of_unwrap_wrap (hA : P.Authentic) (hs : s.Bounded)
    (h : unwrap P (s.wrap P key nonce) other = .ok t) : t = s := by
  by_contra hne
  exact hA _ _ _ _ (misread_of_unwrap hs h hne)

end Otp.Secret

/-! ## Transparent primitives

An envelope that begins with its key in the clear opens under that key only, and a hash that spells
its word is that of no other. -/

/-- Primitives that hide nothing. -/
def Primitives.transparent : Primitives where
  digest b := Vector.ofFn fun i => b.getD i.val 0
  encrypt key _ plain := key ++ plain
  decrypt? key _ cipher :=
    if cipher.take key.length = key then some (cipher.drop key.length) else none
  hashWord _ word := "#" ++ word
  verifyWord hash word := .ok (hash == "#" ++ word)
  stepNumber _ _ step := step

/-- The transparent cipher keeps the laws of sealing. -/
theorem Primitives.transparent_sealing : transparent.SealingLaws where
  decrypt_encrypt key nonce plain := by
    show (if (key.toList ++ plain).take key.toList.length = key.toList then
      some ((key.toList ++ plain).drop key.toList.length) else none) = some plain
    rw [List.take_left, List.drop_left, if_pos rfl]
  tagged key nonce plain := by
    show Envelope.tagLength ≤ (key.toList ++ plain).length
    rw [List.length_append, Vector.length_toList]
    exact Nat.le_trans (by decide) (Nat.le_add_right 32 plain.length)

/-- It is authentic, since the key is part of what it gives: under another key nothing is
decrypted. -/
theorem Primitives.transparent_authentic : transparent.Authentic := by
  rintro key other nonce plain ⟨found, h, hother⟩
  have hlength : other.toList.length = key.toList.length := by
    rw [Vector.length_toList, Vector.length_toList]
  change (if (key.toList ++ plain).take other.toList.length = other.toList then
    some ((key.toList ++ plain).drop other.toList.length) else none) = some found at h
  rw [hlength, List.drop_left] at h
  split at h
  · exact hother (Option.some.inj h).symm
  · cases h

/-- The transparent hash keeps the laws of hashing, and it accepts its own word only. -/
theorem Primitives.transparent_hashing : transparent.HashingLaws where
  verify_hash salt word := congrArg Except.ok (beq_self_eq_true ("#" ++ word))
  hash_nonempty salt word h := by
    have hlength := congrArg String.length h
    rw [show transparent.hashWord salt word = "#" ++ word from rfl, String.length_append] at hlength
    exact absurd hlength (by simp)

theorem Primitives.transparent_exact : transparent.ExactHashing := by
  intro salt word other hne
  have hhash : "#" ++ word ≠ "#" ++ other := fun heq => hne ((String.append_right_inj _).1 heq)
  exact congrArg Except.ok (beq_false_of_ne hhash)

theorem Primitives.transparent_readable : transparent.ReadableHashing :=
  fun _ word other => ⟨"#" ++ word == "#" ++ other, rfl⟩

/-- The usual parameters of new secrets. -/
def Otp.Policy.usual : Otp.Policy where
  issuer := "Issuer"
  digits_range := by decide
  step_pos := by decide
  issuer_nonempty := by decide
  issuer_no_colon := by decide

/-- A service on transparent primitives. -/
def Deployment.transparent : Deployment where
  primitives := .transparent
  policy := .usual
  kdf := .single
  pendingLifetime := 600
  sessionLifetimes := ⟨900, 86400⟩

/-- Ten different codes, each of one letter over and over. -/
def BackupCode.Stream.ascending : BackupCode.Stream where
  draws := (List.range count).map fun i => .replicate 8 (Fin.ofNat 32 i)
  enough := by decide +kernel

/-- An identifier for each byte. -/
def Uuid.ofByte (b : UInt8) : Uuid := ⟨.replicate 16 b⟩

/-- Random values that are different for different bytes. -/
def Draws.ofByte (b : UInt8) : Draws where
  account := .ofByte b
  entry := .ofByte b
  image := ⟨.ofByte b⟩
  secretKey := .replicate 20 b
  recoveryKey := .replicate 20 b
  passwordSalt := .replicate 16 b
  fingerprintSalt := .replicate 16 b
  mainNonce := .replicate 12 b
  backupNonce := .replicate 12 b
  tokens := ⟨.ofByte b, .replicate 32 b, .replicate 32 (b + 128)⟩
  codes := .ascending
  reference := .ofByte b

end SecondFactor
