import Mathlib.Data.List.Forall2
import Mathlib.Data.Set.List
import SecondFactor.Proofs.BackupCode

/-!
# Normal forms of what is typed in

Recovery keys and backup codes are brought into a normal form before they are looked at. What is
typed in counts only up to the case of the letters `A` to `Z` and up to hyphens and spaces, and the
normal form loses nothing else: texts that differ in any other way have different ones. Which texts
have a normal form is a matter of their length alone, and this length is counted in bytes, so that a
text of fewer characters may do. The shown form of a key or code is one of its spellings.

## The architecture

* **`SameLetter`** — the two cases of a letter; **`toUpper_eq_toUpper_iff`** — these, and no others,
  have one upper case.
* **`unmarked`**, **`Alike`** — what a text comes to, and when two come to the same;
  **`spells_iff`** — that is when one is a spelling of the other.
* **`Normalizes`** — all that is said of a normal form; **`normalizes_of_strip`** — it is so of a
  text in upper case without hyphens and spaces.
* **`RecoveryKey.normalize_of_format`**, **`BackupCode.exists_draw`** — a text over the alphabet is
  the normal form of what is shown of it.
* **`typed_forms_normalized`** — all of it, of recovery keys and of backup codes.
-/

namespace SecondFactor

/-! ## §1 — letters -/

/-- One character, or the two cases of one letter. -/
def SameLetter (c d : Char) : Prop :=
  c = d ∨ 'A' ≤ c ∧ c ≤ 'Z' ∧ d.toNat = c.toNat + 32 ∨ 'A' ≤ d ∧ d ≤ 'Z' ∧ c.toNat = d.toNat + 32

/-- Letters have their two cases 32 apart. -/
theorem toNat_toUpper (c : Char) :
    c.toUpper.toNat = if 97 ≤ c.toNat ∧ c.toNat ≤ 122 then c.toNat - 32 else c.toNat := by
  unfold Char.toUpper
  split
  · rename_i hlower
    have hlow : 97 ≤ c.toNat := UInt32.le_iff_toNat_le.1 hlower.1
    have hhigh : c.toNat ≤ 122 := UInt32.le_iff_toNat_le.1 hlower.2
    have hshift : ('A'.val - 'a'.val).toNat = 4294967264 := by decide
    rw [if_pos ⟨hlow, hhigh⟩, Char.toNat, UInt32.toNat_add, hshift, Char.toNat_val]
    omega
  · rename_i hother
    exact (if_neg fun h => hother ⟨UInt32.le_iff_toNat_le.2 h.1, UInt32.le_iff_toNat_le.2 h.2⟩).symm

/-- **Only the two cases of a letter have one upper case.** Letters outside ASCII are left alone, so
that they are equal to themselves only. -/
theorem toUpper_eq_toUpper_iff {c d : Char} : c.toUpper = d.toUpper ↔ SameLetter c d := by
  have hle : ∀ {a b : Char}, a ≤ b ↔ a.toNat ≤ b.toNat := UInt32.le_iff_toNat_le
  have hA : 'A'.toNat = 65 := rfl
  have hZ : 'Z'.toNat = 90 := rfl
  unfold SameLetter
  rw [← Char.toNat_inj, ← Char.toNat_inj, toNat_toUpper, toNat_toUpper, hle, hle, hle, hle, hA, hZ]
  split <;> split <;> omega

theorem toUpper_toUpper (c : Char) : c.toUpper.toUpper = c.toUpper := by
  have hupper := toNat_toUpper c
  rw [← Char.toNat_inj, toNat_toUpper c.toUpper, if_neg]
  split at hupper <;> omega

/-- The upper case of a character takes as many bytes. -/
theorem utf8Size_toUpper (c : Char) : c.toUpper.utf8Size = c.utf8Size := by
  by_cases hlower : 97 ≤ c.toNat ∧ c.toNat ≤ 122
  · have hupper : c.toUpper.toNat = c.toNat - 32 := (toNat_toUpper c).trans (if_pos hlower)
    have hone : ∀ {d : Char}, d.toNat ≤ 127 → d.utf8Size = 1 := fun {d} h =>
      if_pos (UInt32.le_iff_toNat_le.2 (show d.val.toNat ≤ (127 : UInt32).toNat from h))
    rw [hone (by omega), hone (by omega)]
  · have hsame : c.toUpper.toNat = c.toNat := (toNat_toUpper c).trans (if_neg hlower)
    rw [Char.toNat_inj.1 hsame]

/-! ## §2 — texts -/

/-- The characters of a text without hyphens and spaces. -/
def unmarked (text : String) : List Char := text.toList.filter (· ∉ ['-', ' '])

/-- The two texts differ in nothing but the case of letters, hyphens and spaces. -/
def Alike (text other : String) : Prop :=
  List.Forall₂ SameLetter (unmarked text) (unmarked other)

namespace RecoveryKey

/-- What counts of a text is its unmarked characters as capitals. One side is how the normal form is
computed, the other how a user would put it. -/
theorem counted_eq (text : String) : counted text.toList = (unmarked text).map Char.toUpper := by
  unfold counted unmarked
  refine congrArg _ (List.filter_congr fun c _ => ?_)
  rw [Bool.eq_iff_iff]
  simp

theorem counted_eq_counted_iff {text other : String} :
    counted text.toList = counted other.toList ↔ Alike text other := by
  have hletters : SameLetter = fun c d => c.toUpper = d.toUpper := by
    funext c d
    exact propext toUpper_eq_toUpper_iff.symm
  rw [counted_eq, counted_eq, Alike, hletters, ← List.forall₂_eq_eq_eq, List.forall₂_map_left_iff,
    List.forall₂_map_right_iff]

end RecoveryKey

/-- **A spelling of a text differs in nothing but the case of letters, hyphens and spaces**, and
every such text is a spelling. -/
theorem spells_iff {text other : String} : Spells text other ↔ Alike text other :=
  RecoveryKey.respelled_iff.trans RecoveryKey.counted_eq_counted_iff

/-! ## §3 — normal forms -/

/-- What is said of a normal form that texts of a certain length have. -/
structure Normalizes (size : Nat) (normalize : String → Except Cause String) : Prop where
  /-- The length is that of the text without hyphens and spaces, in bytes. -/
  accepted_iff : ∀ text, (∃ code, normalize text = .ok code) ↔
    (String.ofList (unmarked text)).utf8ByteSize = size
  /-- A normal form is its own. -/
  stable : ∀ text code, normalize text = .ok code → normalize code = .ok code
  alike : ∀ text other, Alike text other → normalize text = normalize other
  /-- Texts that are not alike have different normal forms, if they have any. -/
  distinct : ∀ text other code, normalize text = .ok code → normalize other = .ok code →
    Alike text other

namespace RecoveryKey

/-- The number of bytes does not change when letters are made large, for this is done to ASCII
letters only. -/
theorem utf8ByteSize_map_toUpper (cs : List Char) :
    (String.ofList (cs.map Char.toUpper)).utf8ByteSize = (String.ofList cs).utf8ByteSize := by
  induction cs with
  | nil => rfl
  | cons c cs ih =>
    have hcons : ∀ (c : Char) cs, (String.ofList (c :: cs)).utf8ByteSize =
        c.utf8Size + (String.ofList cs).utf8ByteSize := fun c cs => by
      rw [← List.singleton_append, String.ofList_append, String.utf8ByteSize_append,
        ← String.singleton_eq_ofList, String.utf8ByteSize_singleton]
    rw [List.map_cons, hcons, hcons, utf8Size_toUpper, ih]

theorem utf8ByteSize_strip (text : String) :
    (strip text).utf8ByteSize = (String.ofList (unmarked text)).utf8ByteSize := by
  rw [strip_eq, counted_eq, utf8ByteSize_map_toUpper]

/-- Stripping leaves nothing to strip. -/
theorem strip_strip (text : String) : strip (strip text) = strip text := by
  have hkept : ∀ c ∈ counted text.toList, ¬ (c = '-' ∨ c = ' ') ∧ c.toUpper = c := by
    intro c hc
    rw [counted_eq] at hc
    obtain ⟨b, hb, rfl⟩ := List.mem_map.1 hc
    have hother : ¬ (b = '-' ∨ b = ' ') := by simpa using (List.mem_filter.1 hb).2
    -- A mark is the upper case of nothing but itself.
    refine ⟨fun hmark => hother ?_, toUpper_toUpper b⟩
    have hsame : b = b.toUpper := (toUpper_eq_mark_iff hmark).1 rfl
    rwa [← hsame] at hmark
  rw [strip_eq, strip_eq, String.toList_ofList]
  generalize counted text.toList = cs at hkept
  induction cs with
  | nil => rfl
  | cons c cs ih =>
    obtain ⟨⟨hmark, hupper⟩, hrest⟩ := List.forall_mem_cons.1 hkept
    rw [counted_cons_letter hmark, hupper, String.ofList_inj.1 (ih hrest)]

/-- **Stripping a text gives a normal form.** Both kinds of keys are read by it, with another length
and another fault, and share the proof. -/
theorem normalizes_of_strip {size : Nat} {normalize : String → Except Cause String} {cause : Cause}
    (h : ∀ text, normalize text =
      if (strip text).utf8ByteSize = size then .ok (strip text) else .error cause) :
    Normalizes size normalize := by
  have hok : ∀ text code, normalize text = .ok code ↔
      (strip text).utf8ByteSize = size ∧ strip text = code := by
    intro text code
    rw [h]
    split
    · rename_i hsize
      exact ⟨fun heq => ⟨hsize, Except.ok.inj heq⟩, fun heq => congrArg _ heq.2⟩
    · rename_i hsize
      exact ⟨nofun, fun heq => absurd heq.1 hsize⟩
  -- Which texts have a normal form; that it is its own normal form; that spellings share it; and
  -- that nothing else does.
  refine ⟨fun text => ?_, fun text code hcode => ?_, fun text other halike => ?_,
    fun text other code hcode hother => ?_⟩
  · rw [← utf8ByteSize_strip]
    exact ⟨fun ⟨code, hcode⟩ => ((hok text code).1 hcode).1,
      fun hsize => ⟨_, (hok text _).2 ⟨hsize, rfl⟩⟩⟩
  · obtain ⟨hsize, rfl⟩ := (hok text code).1 hcode
    exact (hok _ _).2 ⟨by rwa [strip_strip], strip_strip text⟩
  · rw [h, h, strip_of_spells (spells_iff.2 halike)]
  · obtain ⟨-, hstrip⟩ := (hok text code).1 hcode
    obtain ⟨-, hstrip'⟩ := (hok other code).1 hother
    exact counted_eq_counted_iff.1 (String.ofList_inj.1 (hstrip.trans hstrip'.symm))

end RecoveryKey

/-! ## §4 — shown forms -/

/-- The symbols of Base32. -/
def Base32.alphabet : List Char := "ABCDEFGHIJKLMNOPQRSTUVWXYZ234567".toList

theorem Base32.symbolic_of_alphabet {c : Char} (h : c ∈ alphabet) : Symbolic c := by
  have hsymbols : alphabet = (List.range 32).map symbol := by decide
  rw [hsymbols] at h
  obtain ⟨i, hi, rfl⟩ := List.mem_map.1 h
  exact symbolic_of_lt (List.mem_range.1 hi)

/-- **Every spelling of what is shown of a key gives the key**, for any key of the alphabet and the
length, whether or not it was generated here. -/
theorem RecoveryKey.normalize_of_format {key typed : String}
    (hkey : ∀ c ∈ key.toList, c ∈ Base32.alphabet) (hlength : key.length = 32)
    (h : Spells (format key) typed) : normalize typed = .ok key := by
  have hsymbolic : ∀ c ∈ key.toList, Symbolic c := fun c hc =>
    Base32.symbolic_of_alphabet (hkey c hc)
  have hstrip : strip typed = key := by
    have hshown := strip_format (n := 8) (String.length_toList.trans hlength) hsymbolic
    rw [String.ofList_toList] at hshown
    exact (strip_of_spells h).trans hshown
  have hsize : key.utf8ByteSize = length := by
    have hbytes := utf8ByteSize_ofList hsymbolic
    rw [String.ofList_toList, String.length_toList] at hbytes
    exact hbytes.trans hlength
  rw [normalize, hstrip, if_pos hsize]

namespace BackupCode

/-- **A text of eight characters of the alphabet can be drawn.** What is shown of draws thus holds
of all such texts. -/
theorem exists_draw {code : String} (hcode : ∀ c ∈ code.toList, c ∈ alphabet)
    (hlength : code.length = 8) : ∃ d : Draw, code = d.text := by
  have hplaces : code.toList ∈ Set.range (List.map fun i : Fin 32 => alphabet.getD i.val 'A') := by
    rw [Set.range_list_map]
    intro c hc
    obtain ⟨i, hi, hplace⟩ := List.mem_iff_getElem.1 (hcode c hc)
    refine ⟨⟨i, hi⟩, ?_⟩
    dsimp only
    rw [List.getD_eq_getElem?_getD, List.getElem?_eq_getElem hi, Option.getD_some, hplace]
  obtain ⟨places, hchars⟩ := hplaces
  have hsize : places.toArray.size = 8 := by
    rw [List.size_toArray, ← hlength, ← String.length_toList, ← hchars, List.length_map]
  refine ⟨⟨places.toArray, hsize⟩, ?_⟩
  rw [Draw.text_eq, Draw.chars, Vector.toList_mk, List.toList_toArray, hchars,
    String.ofList_toList]

end BackupCode

/-- **What is typed in gives what was shown.** A key of 32 Base32 symbols is the normal form of
every spelling of its shown form, and so is a code of eight characters of the codes' alphabet; any
row of such codes can be shown. Keys and codes alike have a normal form if and only if their length
is right, it is its own normal form, and it is the same for two texts if and only if they differ in
nothing but the case of letters, hyphens and spaces. -/
theorem typed_forms_normalized :
    (∀ key : String, (∀ c ∈ key.toList, c ∈ Base32.alphabet) → key.length = 32 →
      ∀ typed, Spells (RecoveryKey.format key) typed → RecoveryKey.normalize typed = .ok key) ∧
    (∀ codes : List String,
      (∀ code ∈ codes, (∀ c ∈ code.toList, c ∈ BackupCode.alphabet) ∧ code.length = 8) →
      ∃ shown, codes.mapM BackupCode.display? = some shown ∧
        List.Forall₂ (fun code text => ∀ typed, Spells text typed →
          BackupCode.normalize typed = .ok code) codes shown) ∧
    (∀ text other, Spells text other ↔ Alike text other) ∧
    Normalizes 32 RecoveryKey.normalize ∧ Normalizes 8 BackupCode.normalize := by
  refine ⟨fun key hkey hlength typed => RecoveryKey.normalize_of_format hkey hlength,
    fun codes hcodes => ?_, fun text other => spells_iff,
    RecoveryKey.normalizes_of_strip fun _ => rfl, RecoveryKey.normalizes_of_strip fun _ => rfl⟩
  have hdrawn : ∀ code ∈ codes, ∃ d : BackupCode.Draw, code = d.text := fun code hcode =>
    BackupCode.exists_draw (hcodes code hcode).1 (hcodes code hcode).2
  obtain ⟨shown, hall, hmap⟩ := BackupCode.displayed_of_drawn hdrawn
  rw [← List.forall₂_eq_eq_eq, List.forall₂_map_left_iff, List.forall₂_map_right_iff] at hmap
  refine ⟨shown, hall, ((List.forall₂_and_left codes shown).2 ⟨hdrawn, hmap⟩).imp ?_⟩
  rintro code text ⟨⟨d, rfl⟩, hshown⟩ typed htyped
  exact BackupCode.normalize_of_shown hshown htyped

/-! Bytes are counted, not characters, and the two cases of a letter outside the alphabet are two
characters. -/

/-- Letters outside ASCII keep their case, and a text of four of them counts for as many bytes as it
has. -/
theorem typed_forms_normalized_foreign :
    RecoveryKey.normalize "abcd EFGH-ijkl--MNOP qrst-UVWX-yz23456-7" =
      .ok "ABCDEFGHIJKLMNOPQRSTUVWXYZ234567" ∧
    ["ABCD2345", "ZZZZ9999"].mapM BackupCode.display? = some ["ABCD-2345", "ZZZZ-9999"] ∧
    BackupCode.normalize " zzzz 99-99" = .ok "ZZZZ9999" ∧
    ∃ code other, BackupCode.normalize "鍵-é a ß" = .ok code ∧
      BackupCode.normalize "鍵-É a ß" = .ok other ∧ code ≠ other := by
  obtain ⟨hkeys, hcodes, hspells, -, hnormal⟩ := typed_forms_normalized
  have hfirst : "ABCD2345".toList ⊆ BackupCode.alphabet := by decide
  have hsecond : "ZZZZ9999".toList ⊆ BackupCode.alphabet := by decide
  obtain ⟨shown, hshown, hforms⟩ := hcodes ["ABCD2345", "ZZZZ9999"]
    (List.forall_mem_cons.2 ⟨⟨hfirst, rfl⟩, List.forall_mem_singleton.2 ⟨hsecond, rfl⟩⟩)
  have hdisplay : ["ABCD2345", "ZZZZ9999"].mapM BackupCode.display? =
      some ["ABCD-2345", "ZZZZ-9999"] := by decide +kernel
  obtain rfl := Option.some.inj (hdisplay.symm.trans hshown)
  obtain ⟨code, hcode⟩ := (hnormal.accepted_iff "鍵-é a ß").2 (by decide +kernel)
  obtain ⟨other, hother⟩ := (hnormal.accepted_iff "鍵-É a ß").2 (by decide +kernel)
  refine ⟨hkeys _ (fun _ hc => hc) (by decide) _ (by decide +kernel), hdisplay, ?_, code, other,
    hcode, hother, ?_⟩
  · cases hforms with
    | cons _ hrest => cases hrest with
      | cons hlast _ => exact hlast _ (by decide +kernel)
  · rintro rfl
    have halike := hnormal.distinct _ _ _ hcode hother
    exact absurd ((hspells _ _).2 halike) (by decide +kernel)

end SecondFactor
