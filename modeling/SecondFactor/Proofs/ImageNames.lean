import SecondFactor.Gallery

/-!
# Names of images

A name from outside counts as that of an image when it spells an identifier and has the suffix of
images. There are four spellings, each in either case; but the image that is meant has one name, the
hyphenated one in lower case, and it is under this name that it is looked for. That name has no
character that could lead out of the directory.

## The architecture

* **`Hex.decodeChars?_eq_some_iff`** — what is read as bytes is what is written of them, in either
  case.
* **`Uuid.Hyphenated`**, **`Uuid.unhyphenate`** — the layout, and the digits that stand in it.
* **`Uuid.Spells`** — the spellings of an identifier; **`Uuid.ofChars?_eq_some_iff`** — these are
  the texts that are read as it.
* **`ImageRef.parse?_eq_some_iff`** — the names that mean an image; **`ImageRef.parse?_text`** — the
  written one is among them.
* **`ImageRef.Plain`**, **`ImageRef.plain_text`** — what the written one looks like.
-/

namespace SecondFactor

/-! ## §1 — digits -/

/-- No letter outside ASCII becomes an ASCII character when it is made small. Without this, other
letters than those meant might be taken for digits. -/
theorem Text.ascii_of_toLower {c d : Char} (hd : d.toNat < 128) (h : c.toLower = d) :
    c.toNat < 128 := by
  unfold Char.toLower at h
  split at h
  · rename_i hrange
    have hhigh : c.toNat ≤ 90 := UInt32.le_iff_toNat_le.1 hrange.2
    omega
  · rwa [h]

namespace Hex

theorem value?_of_ascii : ∀ k < 128, ∀ n < 16,
    value? (Char.ofNat k) = some n ↔ (Char.ofNat k).toLower = digit n := by
  decide +kernel

/-- Whatever is read as a digit is an ASCII character, so that the enumeration above covers it. -/
theorem ascii_of_value? {c : Char} {n : Nat} (h : value? c = some n) : c.toNat < 128 ∧ n < 16 := by
  have hle : ∀ {a b : Char}, a ≤ b → a.toNat ≤ b.toNat := fun hab => UInt32.le_iff_toNat_le.1 hab
  unfold value? at h
  split at h
  · rename_i hrange
    have hhigh : c.toNat ≤ 57 := hle hrange.2
    cases h
    omega
  · split at h
    · rename_i hrange
      have hhigh : c.toNat ≤ 102 := hle hrange.2
      cases h
      omega
    · split at h
      · rename_i hrange
        have hhigh : c.toNat ≤ 70 := hle hrange.2
        cases h
        omega
      · cases h

/-- The digits are those of either case. -/
theorem value?_eq_some_iff {c : Char} {n : Nat} :
    value? c = some n ↔ n < 16 ∧ c.toLower = digit n := by
  have hdigit : ∀ n < 16, (digit n).toNat < 128 := by decide
  have hsame := fun (hascii : c.toNat < 128) (hn : n < 16) =>
    Char.ofNat_toNat c ▸ value?_of_ascii c.toNat hascii n hn
  constructor
  · intro h
    obtain ⟨hascii, hn⟩ := ascii_of_value? h
    exact ⟨hn, (hsame hascii hn).1 h⟩
  · rintro ⟨hn, h⟩
    exact (hsame (Text.ascii_of_toLower (hdigit n hn) h) hn).2 h

/-- **What is read is what is written, in either case.** Induction on the pairs of digits. Every
text that means some bytes is thereby known. -/
theorem decodeChars?_eq_some_iff {cs : List Char} {bs : Bytes} :
    decodeChars? cs = some bs ↔ cs.map Char.toLower = chars bs := by
  induction cs using decodeChars?.induct generalizing bs with
  | case1 =>
    cases bs with
    | nil => exact ⟨fun _ => rfl, fun _ => rfl⟩
    | cons b bs => exact ⟨nofun, nofun⟩
  | case2 c =>
    cases bs with
    | nil => exact ⟨nofun, nofun⟩
    | cons b bs =>
      refine ⟨nofun, fun h => ?_⟩
      have hlength := congrArg List.length h
      cases hlength
  | case3 high low rest ih =>
    rw [decodeChars?]
    constructor
    · intro h
      obtain ⟨m, hm, h⟩ := Option.bind_eq_some_iff.1 h
      obtain ⟨n, hn, h⟩ := Option.bind_eq_some_iff.1 h
      obtain ⟨more, hmore, h⟩ := Option.bind_eq_some_iff.1 h
      obtain rfl := Option.some.inj h
      obtain ⟨hm16, hhigh⟩ := value?_eq_some_iff.1 hm
      obtain ⟨hn16, hlow⟩ := value?_eq_some_iff.1 hn
      -- The byte gives its two halves back.
      have hbyte : (UInt8.ofNat (16 * m + n)).toNat = 16 * m + n :=
        UInt8.toNat_ofNat_of_lt' (show 16 * m + n < 256 by omega)
      show high.toLower :: low.toLower :: rest.map Char.toLower =
        digit _ :: digit _ :: chars more
      rw [hbyte, ih.1 hmore, hhigh, hlow, show (16 * m + n) / 16 = m by omega,
        show (16 * m + n) % 16 = n by omega]
    · intro h
      cases bs with
      | nil => cases h
      | cons b bs =>
        have hb := b.toNat_lt
        injection h with hhigh h
        injection h with hlow hrest
        refine Option.bind_eq_some_iff.2 ⟨_, value?_eq_some_iff.2 ⟨by omega, hhigh⟩,
          Option.bind_eq_some_iff.2 ⟨_, value?_eq_some_iff.2 ⟨Nat.mod_lt _ (by decide), hlow⟩,
            Option.bind_eq_some_iff.2 ⟨_, ih.2 hrest, ?_⟩⟩⟩
        rw [Nat.div_add_mod, UInt8.ofNat_toNat]
        rfl

/-- Two digits are written for a byte. -/
theorem length_chars (bs : Bytes) : (chars bs).length = 2 * bs.length := by
  induction bs with
  | nil => rfl
  | cons b bs ih =>
    show (chars bs).length + 2 = 2 * (bs.length + 1)
    omega

/-- Nothing but digits is written. -/
theorem mem_chars {bs : Bytes} {c : Char} (h : c ∈ chars bs) : ∃ n < 16, c = digit n := by
  obtain ⟨b, -, hc⟩ := List.mem_flatMap.1 h
  have hb := b.toNat_lt
  rcases List.mem_cons.1 hc with rfl | hc
  · exact ⟨_, by omega, rfl⟩
  · obtain rfl := List.mem_singleton.1 hc
    exact ⟨_, Nat.mod_lt _ (by decide), rfl⟩

/-- Writing uses the lower-case digits. -/
theorem map_toLower_chars (bs : Bytes) : (chars bs).map Char.toLower = chars bs := by
  have hdigit : ∀ n < 16, (digit n).toLower = digit n := by decide
  have hchars : ∀ c ∈ chars bs, c.toLower = id c := by
    intro c hc
    obtain ⟨n, hn, rfl⟩ := mem_chars hc
    exact hdigit n hn
  rw [List.map_congr_left hchars, List.map_id]

end Hex

/-! ## §2 — hyphens -/

namespace Uuid

variable {u : Uuid} {cs ds : List Char}

/-- Hyphens stand where groups of digits end. -/
def Hyphenated (cs : List Char) : Prop :=
  cs.length = 36 ∧ cs[8]? = some '-' ∧ cs[13]? = some '-' ∧ cs[18]? = some '-' ∧ cs[23]? = some '-'

/-- What is left without the hyphens. -/
def unhyphenate (cs : List Char) : List Char :=
  cs.take 8 ++ (cs.drop 9).take 4 ++ (cs.drop 14).take 4 ++ (cs.drop 19).take 4 ++ cs.drop 24

theorem hyphenate_append {a b c d e : List Char} (ha : a.length = 8) (hb : b.length = 4)
    (hc : c.length = 4) (hd : d.length = 4) : hyphenate (a ++ b ++ c ++ d ++ e) =
      a ++ '-' :: (b ++ '-' :: (c ++ '-' :: (d ++ '-' :: e))) := by
  simp [hyphenate, List.drop_append, List.drop_of_length_le, ha, hb, hc, hd]

theorem drop_of_getElem? {i : Nat} {c : Char} (h : cs[i]? = some c) :
    cs.drop i = c :: cs.drop (i + 1) := by
  obtain ⟨hi, rfl⟩ := List.getElem?_eq_some_iff.1 h
  exact List.drop_eq_getElem_cons hi

/-- Hyphens that are taken out of their places can be put back. -/
theorem hyphenate_unhyphenate (h : Hyphenated cs) : hyphenate (unhyphenate cs) = cs := by
  obtain ⟨hlength, h8, h13, h18, h23⟩ := h
  have hgroup : ∀ {i : Nat}, i + 5 ≤ 36 → cs[i + 4]? = some '-' →
      (cs.drop i).take 4 ++ '-' :: cs.drop (i + 5) = cs.drop i := by
    intro i hi h
    rw [← drop_of_getElem? h, ← List.drop_drop, List.take_append_drop]
  unfold unhyphenate
  rw [hyphenate_append (by simp [hlength]) (by simp [hlength]) (by simp [hlength])
    (by simp [hlength]), hgroup (by decide) h23, hgroup (by decide) h18, hgroup (by decide) h13,
    ← drop_of_getElem? h8, List.take_append_drop]

/-- A run of 32 digits is five groups. -/
theorem exists_groups (h : ds.length = 32) : ∃ a b c d e : List Char,
    ds = a ++ b ++ c ++ d ++ e ∧ a.length = 8 ∧ b.length = 4 ∧ c.length = 4 ∧ d.length = 4 ∧
      e.length = 12 := by
  refine ⟨ds.take 8, (ds.drop 8).take 4, (ds.drop 12).take 4, (ds.drop 16).take 4, ds.drop 20, ?_,
    by simp [h], by simp [h], by simp [h], by simp [h], by simp [h]⟩
  have hgroup : ∀ i, (ds.drop i).take 4 ++ ds.drop (i + 4) = ds.drop i := fun i => by
    rw [← List.drop_drop, List.take_append_drop]
  rw [List.append_assoc, List.append_assoc, List.append_assoc, hgroup 16, hgroup 12, hgroup 8,
    List.take_append_drop]

theorem hyphenated_hyphenate (h : ds.length = 32) : Hyphenated (hyphenate ds) := by
  obtain ⟨a, b, c, d, e, rfl, ha, hb, hc, hd, he⟩ := exists_groups h
  rw [hyphenate_append ha hb hc hd]
  simp [Hyphenated, ha, hb, hc, hd, he]

theorem unhyphenate_hyphenate (h : ds.length = 32) : unhyphenate (hyphenate ds) = ds := by
  obtain ⟨a, b, c, d, e, rfl, ha, hb, hc, hd, -⟩ := exists_groups h
  rw [hyphenate_append ha hb hc hd]
  simp [unhyphenate, List.drop_append, List.drop_of_length_le, ha, hb, hc, hd]

/-- A text with hyphens consists of the digits and the hyphens. -/
theorem mem_hyphenate {c : Char} (h : c ∈ hyphenate ds) : c = '-' ∨ c ∈ ds := by
  have hpart : ∀ {i n : Nat}, c ∈ (ds.drop i).take n → c ∈ ds :=
    fun h => List.mem_of_mem_drop (List.mem_of_mem_take h)
  unfold hyphenate at h
  simp only [List.mem_append, List.mem_cons] at h
  rcases h with h | h | h | h | h | h | h | h | h
  · exact .inr (List.mem_of_mem_take h)
  · exact .inl h
  · exact .inr (hpart h)
  · exact .inl h
  · exact .inr (hpart h)
  · exact .inl h
  · exact .inr (hpart h)
  · exact .inl h
  · exact .inr (List.mem_of_mem_drop h)

/-- A change of every character goes by the places, if it leaves hyphens alone. So a text can be
made small before the hyphens are put in or after. -/
theorem map_hyphenate (f : Char → Char) (hf : f '-' = '-') (ds : List Char) :
    (hyphenate ds).map f = hyphenate (ds.map f) := by
  simp [hyphenate, List.map_take, List.map_drop, hf]

theorem map_unhyphenate (f : Char → Char) (cs : List Char) :
    (unhyphenate cs).map f = unhyphenate (cs.map f) := by
  simp [unhyphenate, List.map_take, List.map_drop]

theorem toLower_eq_hyphen {c : Char} : c.toLower = '-' ↔ c = '-' := by
  have hascii : ∀ k < 128, (Char.ofNat k).toLower = '-' → Char.ofNat k = '-' := by decide +kernel
  refine ⟨fun h => ?_, fun h => by rw [h]; rfl⟩
  have hcode : c.toNat < 128 := Text.ascii_of_toLower (by decide) h
  exact Char.ofNat_toNat c ▸ hascii c.toNat hcode (by rwa [Char.ofNat_toNat])

/-- Hyphens stand in the same places in either case. -/
theorem hyphenated_map_toLower : Hyphenated (cs.map Char.toLower) ↔ Hyphenated cs := by
  have hplace : ∀ i, (cs.map Char.toLower)[i]? = some '-' ↔ cs[i]? = some '-' := fun i => by
    rw [List.getElem?_map]
    cases cs[i]? with
    | none => simp
    | some c => simp [toLower_eq_hyphen]
  unfold Hyphenated
  rw [List.length_map, hplace, hplace, hplace, hplace]

/-! ## §3 — spellings -/

/-- An identifier is read from its sixteen bytes and from no others. -/
theorem ofBytes?_eq_some_iff {bs : Bytes} : ofBytes? bs = some u ↔ bs = u.octets.toList := by
  obtain ⟨⟨octets, hlength⟩⟩ := u
  unfold ofBytes?
  constructor
  · intro h
    split at h
    · cases h
      rfl
    · cases h
  · rintro rfl
    rw [dif_pos (by simpa using hlength)]
    rfl

theorem length_digits (u : Uuid) : u.digits.length = 32 := by
  rw [digits, Hex.length_chars, Vector.length_toList]

/-- The plain form of an identifier is its digits, in either case. -/
theorem ofDigits?_eq_some_iff : ofDigits? cs = some u ↔ cs.map Char.toLower = u.digits := by
  unfold ofDigits? digits
  rw [Option.bind_eq_some_iff]
  constructor
  · rintro ⟨bs, hbs, hu⟩
    rw [Hex.decodeChars?_eq_some_iff.1 hbs, ofBytes?_eq_some_iff.1 hu]
  · exact fun h => ⟨_, Hex.decodeChars?_eq_some_iff.2 h, ofBytes?_eq_some_iff.2 rfl⟩

/-- **What is read with hyphens is what is written, in either case.** The reader asks for hyphens in
their places and for nothing else between the digits. -/
theorem ofHyphenated?_eq_some_iff : ofHyphenated? cs = some u ↔ cs.map Char.toLower = u.chars := by
  have hlength := length_digits u
  constructor
  · intro h
    obtain ⟨hh, hread⟩ : Hyphenated cs ∧ ofDigits? (unhyphenate cs) = some u :=
      Option.ite_none_right_eq_some.1 h
    rw [← hyphenate_unhyphenate hh, map_hyphenate _ rfl, ofDigits?_eq_some_iff.1 hread]
    rfl
  · intro h
    have hh : Hyphenated cs := hyphenated_map_toLower.1 (h ▸ hyphenated_hyphenate hlength)
    refine (if_pos hh).trans (ofDigits?_eq_some_iff.2 ?_)
    show (unhyphenate cs).map Char.toLower = u.digits
    rw [map_unhyphenate, h]
    exact unhyphenate_hyphenate hlength

/-- The spellings of an identifier. Letters may be of either case. -/
inductive Spells (u : Uuid) : List Char → Prop where
  /-- A run of digits. -/
  | simple {cs : List Char} (h : cs.map Char.toLower = u.digits) : Spells u cs
  | hyphenated {cs : List Char} (h : cs.map Char.toLower = u.chars) : Spells u cs
  | braced {cs : List Char} (h : cs.map Char.toLower = u.chars) :
      Spells u ('\x7b' :: cs ++ ['\x7d'])
  | urn {scheme cs : List Char} (hscheme : scheme.map Char.toLower = "urn:uuid:".toList)
      (h : cs.map Char.toLower = u.chars) : Spells u (scheme ++ cs)

theorem length_chars (u : Uuid) : u.chars.length = 36 :=
  (hyphenated_hyphenate (length_digits u)).1

/-- Braces are taken off if there is one at each end. A single one is no form at all. -/
theorem unbrace?_eq_some_iff {inner : List Char} (hlength : 2 ≤ cs.length) :
    unbrace? cs = some inner ↔ cs = '\x7b' :: inner ++ ['\x7d'] := by
  unfold unbrace?
  rw [Option.ite_none_right_eq_some]
  constructor
  · rintro ⟨⟨hhead, hlast⟩, hinner⟩
    obtain ⟨rest, rfl⟩ := List.head?_eq_some_iff.1 hhead
    cases rest with
    | nil => cases hlength with | step h => cases h
    | cons c rest =>
      rw [List.getLast?_cons_cons] at hlast
      obtain ⟨before, hbefore⟩ := List.getLast?_eq_some_iff.1 hlast
      rw [hbefore] at hinner ⊢
      cases hinner
      simp
  · rintro rfl
    rw [List.getLast?_concat]
    exact ⟨⟨rfl, rfl⟩, congrArg some List.dropLast_concat⟩

/-- A scheme is taken off in whichever case it is written. -/
theorem unscheme?_eq_some_iff {inner : List Char} : unscheme? cs = some inner ↔
    ∃ scheme, scheme.map Char.toLower = "urn:uuid:".toList ∧ cs = scheme ++ inner := by
  unfold unscheme?
  rw [Option.ite_none_right_eq_some]
  constructor
  · rintro ⟨hscheme, hinner⟩
    cases hinner
    exact ⟨cs.take 9, hscheme, (List.take_append_drop 9 cs).symm⟩
  · rintro ⟨scheme, hscheme, rfl⟩
    have hlength : scheme.length = 9 := by
      rw [← List.length_map Char.toLower, hscheme]
      rfl
    rw [List.take_left' hlength, List.drop_left' hlength]
    exact ⟨hscheme, rfl⟩

/-- **The texts that are read as an identifier are its spellings.** There are four forms; they
differ in length, so that a text is of one form only. -/
theorem ofChars?_eq_some_iff : ofChars? cs = some u ↔ u.Spells cs := by
  constructor
  · intro h
    -- The length tells which of the four forms it can be.
    unfold ofChars? at h
    split at h
    · exact .simple (ofDigits?_eq_some_iff.1 h)
    · exact .hyphenated (ofHyphenated?_eq_some_iff.1 h)
    · rename_i hlength
      obtain ⟨inner, hinner, hread⟩ := Option.bind_eq_some_iff.1 h
      rw [(unbrace?_eq_some_iff (by omega)).1 hinner]
      exact .braced (ofHyphenated?_eq_some_iff.1 hread)
    · obtain ⟨inner, hinner, hread⟩ := Option.bind_eq_some_iff.1 h
      obtain ⟨scheme, hscheme, rfl⟩ := unscheme?_eq_some_iff.1 hinner
      exact .urn hscheme (ofHyphenated?_eq_some_iff.1 hread)
    · cases h
  · intro h
    have hlengths : ∀ {cs ds : List Char}, cs.map Char.toLower = ds → cs.length = ds.length :=
      fun hmap => by rw [← hmap, List.length_map]
    unfold ofChars?
    cases h with
    | simple h =>
      rw [hlengths h, length_digits]
      exact ofDigits?_eq_some_iff.2 h
    | hyphenated h =>
      rw [hlengths h, length_chars]
      exact ofHyphenated?_eq_some_iff.2 h
    | @braced inner h =>
      have hlength : ('\x7b' :: inner ++ ['\x7d']).length = 38 := by
        simp [hlengths h, length_chars]
      rw [hlength]
      exact Option.bind_eq_some_iff.2
        ⟨inner, (unbrace?_eq_some_iff (by omega)).2 rfl, ofHyphenated?_eq_some_iff.2 h⟩
    | @urn scheme inner hscheme h =>
      have hlength : (scheme ++ inner).length = 45 := by
        rw [List.length_append, hlengths hscheme, hlengths h, length_chars]
        rfl
      rw [hlength]
      exact Option.bind_eq_some_iff.2
        ⟨inner, unscheme?_eq_some_iff.2 ⟨scheme, hscheme, rfl⟩, ofHyphenated?_eq_some_iff.2 h⟩

theorem map_toLower_chars (u : Uuid) : u.chars.map Char.toLower = u.chars := by
  unfold chars
  rw [map_hyphenate _ rfl]
  exact congrArg hyphenate (Hex.map_toLower_chars u.octets.toList)

end Uuid

/-! ## §4 — names -/

namespace ImageRef

variable {r : ImageRef} {name : String}

/-- **The names that mean an image** are the spellings of its identifier, with the suffix. A name
that is asked for may be any of them, and the file has but one. -/
theorem parse?_eq_some_iff :
    parse? name = some r ↔ ∃ stem, name.toList = stem ++ suffix ∧ r.id.Spells stem := by
  unfold parse?
  dsimp only
  rw [Option.ite_none_right_eq_some]
  constructor
  · rintro ⟨⟨hsuffix, -⟩, hstem⟩
    obtain ⟨u, hu, rfl⟩ := Option.map_eq_some_iff.1 hstem
    have hname := List.take_append_drop (name.toList.length - suffix.length) name.toList
    rw [hsuffix] at hname
    exact ⟨_, hname.symm, Uuid.ofChars?_eq_some_iff.1 hu⟩
  · rintro ⟨stem, hname, hstem⟩
    have hlength : name.toList.length - suffix.length = stem.length := by
      rw [hname, List.length_append, Nat.add_sub_cancel]
    rw [hlength, hname, List.drop_left, List.take_left, Uuid.ofChars?_eq_some_iff.2 hstem]
    exact ⟨⟨rfl, by simp⟩, rfl⟩

theorem parse?_text (r : ImageRef) : parse? r.text = some r := by
  refine parse?_eq_some_iff.2 ⟨r.id.chars, ?_, .hyphenated (Uuid.map_toLower_chars _)⟩
  rw [text, String.toList_ofList]

example : (parse? "\x7b0A1B2C3D-4e5f-6071-8293-A4B5C6D7E8F9\x7d.png").map text =
    some "0a1b2c3d-4e5f-6071-8293-a4b5c6d7e8f9.png" := by
  decide +kernel

/-- The look of a written name: 32 lower-case digits, with hyphens after the eighth, twelfth,
sixteenth and twentieth, and the suffix. It leads to no other directory. -/
structure Plain (name : String) : Prop where
  layout : ∃ stem, name.toList = stem ++ ".png".toList ∧ Uuid.Hyphenated stem ∧
    ∀ c ∈ Uuid.unhyphenate stem, c ∈ "0123456789abcdef".toList
  noSeparator : '/' ∉ name.toList ∧ '\\' ∉ name.toList
  noParent : ¬ "..".toList <:+: name.toList

/-- **The name of an image is plain**: digits with hyphens and the suffix. It has no separator of
folders in it and does not lead upwards, so that a file of this name lies in the folder of
images. -/
theorem plain_text (r : ImageRef) : Plain r.text := by
  have hname : r.text.toList = r.id.chars ++ ".png".toList := String.toList_ofList
  have hdigits : ∀ c ∈ r.id.digits, c ∈ "0123456789abcdef".toList := by
    have hdigit : ∀ n < 16, Hex.digit n ∈ "0123456789abcdef".toList := by decide
    intro c hc
    obtain ⟨n, hn, rfl⟩ := Hex.mem_chars hc
    exact hdigit n hn
  have hstem : ∀ c ∈ r.id.chars, c ∈ "-0123456789abcdef".toList := by
    intro c hc
    rcases Uuid.mem_hyphenate hc with rfl | hc
    · decide
    · exact List.mem_cons_of_mem _ (hdigits c hc)
  refine ⟨⟨r.id.chars, hname, Uuid.hyphenated_hyphenate (Uuid.length_digits _), ?_⟩, ?_, ?_⟩
  · unfold Uuid.chars
    rw [Uuid.unhyphenate_hyphenate (Uuid.length_digits _)]
    exact hdigits
  · have hforeign : ∀ c, c ∉ "-0123456789abcdef".toList → c ∉ ".png".toList →
        c ∉ r.text.toList := by
      intro c hc hsuffix hmem
      rw [hname, List.mem_append] at hmem
      exact hmem.elim (fun h => hc (hstem c h)) hsuffix
    exact ⟨hforeign '/' (by decide) (by decide), hforeign '\\' (by decide) (by decide)⟩
  · intro hinfix
    -- Two dots in a row would be two dots, and there is but the one before the suffix.
    have hdots := hinfix.sublist.count_le '.'
    have hnone : r.id.chars.count '.' = 0 :=
      List.count_eq_zero.2 fun h => absurd (hstem _ h) (by decide)
    rw [hname, List.count_append, hnone] at hdots
    exact absurd hdots (by decide)

end ImageRef

end SecondFactor
