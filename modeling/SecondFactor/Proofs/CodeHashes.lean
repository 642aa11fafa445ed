import SecondFactor.BackupCode
import SecondFactor.Proofs.ImageNames

/-!
# What the hash of a backup code stands for

The hash that is kept of a backup code is that of one text, in which the identifier of the account
stands before the code. Since the identifier has a fixed width, the text says where the code begins,
whatever characters the code has, so two codes of two accounts never give one text. And what comes
after the text, the one or two digests and the digits, loses nothing but what the digest loses: if
two hashes are equal, the digest has been given two different byte strings that it cannot tell
apart, and these can be written down.

## The architecture

* **`Primitives.Collide`** — two byte strings that a digest does not tell apart.
* **`Hex.encode_inj`**, **`Uuid.chars_inj`** — digits tell the bytes, and the identifier.
* **`Kdf.derive_eq_iff`**, **`Kdf.fingerprint_eq_iff`** — when two words have one key.
* **`BackupCode.label_inj`** — the text that is hashed tells account and code.
* **`BackupCode.hash_eq_iff`** — when two codes have one hash.
-/

namespace SecondFactor

/-! ## §1 — digests -/

/-- Two different byte strings with one digest. -/
def Primitives.Collide (P : Primitives) (a b : Bytes) : Prop := a ≠ b ∧ P.digest a = P.digest b

/-- Nothing is assumed of the digest here. Two texts have one digest because they are the same, or
they are a collision. -/
theorem Primitives.digest_eq_iff {P : Primitives} {a b : Bytes} :
    P.digest a = P.digest b ↔ a = b ∨ P.Collide a b := by
  constructor
  · intro h
    by_cases hab : a = b
    · exact .inl hab
    · exact .inr ⟨hab, h⟩
  · rintro (rfl | ⟨-, h⟩)
    · rfl
    · exact h

/-! ## §2 — digits -/

theorem Hex.chars_inj {bs bs' : Bytes} : chars bs = chars bs' ↔ bs = bs' := by
  refine ⟨fun h => ?_, congrArg chars⟩
  have hread := decodeChars?_eq_some_iff.2 (map_toLower_chars bs)
  rw [h, decodeChars?_eq_some_iff.2 (map_toLower_chars bs')] at hread
  exact (Option.some.inj hread).symm

theorem Hex.encode_inj {bs bs' : Bytes} : encode bs = encode bs' ↔ bs = bs' :=
  String.ofList_inj.trans chars_inj

theorem Uuid.chars_inj {u v : Uuid} : u.chars = v.chars ↔ u = v := by
  refine ⟨fun h => ?_, congrArg chars⟩
  have hread := ofHyphenated?_eq_some_iff.2 (map_toLower_chars u)
  rw [h, ofHyphenated?_eq_some_iff.2 (map_toLower_chars v)] at hread
  exact (Option.some.inj hread).symm

/-! ## §3 — keys of words -/

namespace Kdf

variable {P : Primitives} {k : Kdf} {word other : String}

/-- **When two words have one key**: if their digests collide, or in double mode the digests of
these with the pepper in front. -/
theorem derive_eq_iff : k.derive P word = k.derive P other ↔
    word = other ∨ P.Collide (Bytes.ofText word) (Bytes.ofText other) ∨
      ∃ pepper, k.pepper = some pepper ∧
        P.Collide (pepper ++ (P.digest (Bytes.ofText word)).toList)
          (pepper ++ (P.digest (Bytes.ofText other)).toList) := by
  have hfirst : P.digest (Bytes.ofText word) = P.digest (Bytes.ofText other) ↔
      word = other ∨ P.Collide (Bytes.ofText word) (Bytes.ofText other) := by
    rw [Primitives.digest_eq_iff]
    exact or_congr_left ⟨Bytes.ofText_injective, congrArg Bytes.ofText⟩
  obtain ⟨pepper⟩ := k
  cases pepper with
  | none =>
    refine hfirst.trans ⟨Or.imp_right .inl, Or.imp_right ?_⟩
    rintro (h | ⟨_, hnone, -⟩)
    · exact h
    · cases hnone
  | some pepper =>
    -- The pepper stands in front of both first digests and has one length, so it cancels.
    show P.digest (pepper ++ _) = P.digest (pepper ++ _) ↔ _
    rw [Primitives.digest_eq_iff, List.append_cancel_left_eq, Vector.toList_inj, hfirst, or_assoc]
    refine or_congr_right (or_congr_right ⟨fun h => ⟨pepper, rfl, h⟩, ?_⟩)
    rintro ⟨_, hpepper, h⟩
    cases hpepper
    exact h

theorem fingerprint_eq_iff :
    k.fingerprint P word = k.fingerprint P other ↔ k.derive P word = k.derive P other :=
  Hex.encode_inj.trans Vector.toList_inj

end Kdf

/-! ## §4 — codes -/

namespace BackupCode

/-- The text that is hashed of a code. -/
def label (owner : Uuid) (code : String) : String := owner.toText ++ ":" ++ code

/-- **The text tells account and code**, whatever the code is: the identifier has a fixed width. So
nobody gains by a code that looks like the end of another identifier. -/
theorem label_inj {u v : Uuid} {c d : String} : label u c = label v d ↔ u = v ∧ c = d := by
  constructor
  · intro h
    have hlists : u.chars ++ ':' :: c.toList = v.chars ++ ':' :: d.toList := by
      have htexts := congrArg String.toList h
      simpa [label, Uuid.toText] using htexts
    obtain ⟨howner, hcode⟩ := List.append_inj hlists (by rw [Uuid.length_chars, Uuid.length_chars])
    exact ⟨Uuid.chars_inj.1 howner, String.toList_inj.1 (List.cons.inj hcode).2⟩
  · rintro ⟨rfl, rfl⟩
    rfl

/-- **A hash is bound to account and code.** The text that is hashed tells both of them apart, and
the digits of the hash tell the key of the text. So equal hashes are those of one code of one
account, or else two explicit byte strings collide: the two texts, or in double mode their digests
with the pepper in front. -/
theorem hash_eq_iff (P : Primitives) (k : Kdf) (u v : Uuid) (c d : String) :
    (label u c = label v d ↔ u = v ∧ c = d) ∧
    (hash P k u c = hash P k v d ↔ k.derive P (label u c) = k.derive P (label v d)) ∧
    (hash P k u c = hash P k v d ↔ (u = v ∧ c = d) ∨
      P.Collide (Bytes.ofText (label u c)) (Bytes.ofText (label v d)) ∨
      ∃ pepper, k.pepper = some pepper ∧
        P.Collide (pepper ++ (P.digest (Bytes.ofText (label u c))).toList)
          (pepper ++ (P.digest (Bytes.ofText (label v d))).toList)) := by
  have hkeys : hash P k u c = hash P k v d ↔ k.derive P (label u c) = k.derive P (label v d) :=
    Kdf.fingerprint_eq_iff
  refine ⟨label_inj, hkeys, ?_⟩
  rw [hkeys, Kdf.derive_eq_iff, label_inj]

end BackupCode

end SecondFactor
