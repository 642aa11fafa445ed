import SecondFactor.RecoveryKey

/-!
# Recovery keys as they are shown and entered

A recovery key that was generated is of the form that an entered one is brought into: 32 upper-case
Base32 symbols without hyphens and spaces. It is shown with hyphens, and typed in again by hand,
perhaps in another case and with other hyphens and spaces. So the key under which the backup copy
was sealed is the one that any spelling of its shown form gives again.

## The architecture

* **`Symbolic`** — characters of one byte that are entered as they are kept;
  **`Base32.symbolic_of_mem`** and **`Base32.length_chars`** — the symbols of a byte string.
* **`Respelled`** — what a typed text may change; **`RecoveryKey.respelled_iff`** — all but the
  characters that count.
* **`RecoveryKey.strip_format`** — the shown form puts hyphens between groups of symbols.
* **`RecoveryKey.normalize_generate`** — a generated key is its own normal form;
  **`RecoveryKey.normalize_of_shown`** — and that of every spelling of its shown form.
-/

namespace SecondFactor

/-! ## Symbols -/

/-- A character of one byte that is neither a hyphen, a space, nor a lower-case letter. -/
structure Symbolic (c : Char) : Prop where
  size : c.utf8Size = 1
  hyphen : c ≠ '-'
  space : c ≠ ' '
  upper : c.toUpper = c

namespace Base32

theorem symbol_of_mem_symbols {n count : Nat} {c : Char} (h : c ∈ symbols n count) :
    ∃ i, i < 32 ∧ c = symbol i := by
  obtain ⟨i, -, rfl⟩ := List.mem_map.1 h
  exact ⟨_, Nat.mod_lt _ (by decide), rfl⟩

/-- Every character is a symbol. Induction on the groups of five bytes. -/
theorem symbol_of_mem {bs : Bytes} {c : Char} (h : c ∈ chars bs) : ∃ i, i < 32 ∧ c = symbol i := by
  induction bs using chars.induct with
  | case1 a b c' d e rest ih =>
    rw [chars, List.mem_append] at h
    rcases h with h | h
    · exact symbol_of_mem_symbols h
    · exact ih h
  | case2 | case3 | case4 | case5 => exact symbol_of_mem_symbols h
  | case6 => cases h

/-- Five bytes make eight symbols. Induction on the number of whole groups. -/
theorem length_chars {bs : Bytes} {groups : Nat} (h : bs.length = 5 * groups) :
    (chars bs).length = 8 * groups := by
  induction groups generalizing bs with
  | zero =>
    obtain rfl := List.length_eq_zero_iff.1 h
    rfl
  | succ groups ih =>
    match bs, h with
    | a :: b :: c :: d :: e :: rest, h =>
      have hrest := @ih rest (by
        simp only [List.length_cons] at h
        omega)
      rw [chars, List.length_append, hrest]
      show 8 + 8 * groups = 8 * (groups + 1)
      omega

/-- Symbols are capitals and digits, so that making a text large leaves them. -/
theorem symbolic_of_lt {i : Nat} (h : i < 32) : Symbolic (symbol i) := by
  have hspec : ∀ i, i < 32 → (symbol i).utf8Size = 1 ∧ symbol i ≠ '-' ∧ symbol i ≠ ' ' ∧
      (symbol i).toUpper = symbol i := by
    decide
  obtain ⟨hsize, hhyphen, hspace, hupper⟩ := hspec i h
  exact ⟨hsize, hhyphen, hspace, hupper⟩

theorem symbolic_of_mem {bs : Bytes} {c : Char} (h : c ∈ chars bs) : Symbolic c := by
  obtain ⟨i, hi, rfl⟩ := symbol_of_mem h
  exact symbolic_of_lt hi

end Base32

/-! ## Spellings -/

/-- The second text is the first, with letters in another case and with hyphens and spaces added or
left out. -/
inductive Respelled : List Char → List Char → Prop where
  | nil : Respelled [] []
  | letter {c d : Char} {cs ds : List Char} (hsame : c.toUpper = d.toUpper)
      (h : Respelled cs ds) : Respelled (c :: cs) (d :: ds)
  | added {m : Char} {cs ds : List Char} (hmark : m = '-' ∨ m = ' ') (h : Respelled cs ds) :
      Respelled cs (m :: ds)
  | leftOut {m : Char} {cs ds : List Char} (hmark : m = '-' ∨ m = ' ') (h : Respelled cs ds) :
      Respelled (m :: cs) ds

theorem Respelled.refl : ∀ cs : List Char, Respelled cs cs
  | [] => .nil
  | _ :: cs => .letter rfl (refl cs)

/-- The typed text is a spelling of the shown one. -/
def Spells (shown typed : String) : Prop := Respelled shown.toList typed.toList

/-- Nothing but a hyphen or a space becomes one in upper case. -/
theorem toUpper_eq_mark_iff {c m : Char} (h : m = '-' ∨ m = ' ') : c.toUpper = m ↔ c = m := by
  have hm : m.toNat < 65 := by
    rcases h with rfl | rfl
    · decide
    · decide
  clear h
  -- Only small letters change, and what they become lies above both marks.
  unfold Char.toUpper
  split
  · rename_i hlower
    have hle : 97 ≤ c.toNat := UInt32.le_iff_toNat_le.1 hlower.1
    have hge : c.toNat ≤ 122 := UInt32.le_iff_toNat_le.1 hlower.2
    have hshift : ('A'.val - 'a'.val).toNat = 4294967264 := by decide
    constructor
    · rintro rfl
      rw [Char.toNat, UInt32.toNat_add, hshift, Char.toNat_val] at hm
      omega
    · rintro rfl
      omega
  · exact Iff.rfl

namespace RecoveryKey

/-- The characters of a text that count. -/
def counted (cs : List Char) : List Char :=
  (cs.filter fun c => c != '-' && c != ' ').map Char.toUpper

theorem counted_cons_mark {m : Char} (h : m = '-' ∨ m = ' ') (cs : List Char) :
    counted (m :: cs) = counted cs := by
  rcases h with rfl | rfl
  · rfl
  · rfl

theorem counted_cons_letter {c : Char} (h : ¬ (c = '-' ∨ c = ' ')) (cs : List Char) :
    counted (c :: cs) = c.toUpper :: counted cs := by
  obtain ⟨hhyphen, hspace⟩ := not_or.1 h
  simp [counted, hhyphen, hspace]

/-- What counts of two texts in a row is what counts of the one and then of the other. -/
theorem counted_append (cs ds : List Char) : counted (cs ++ ds) = counted cs ++ counted ds := by
  rw [counted, List.filter_append, List.map_append]
  rfl

/-- **A spelling has the same characters that count.** Induction on how it came about. -/
theorem counted_of_respelled {cs ds : List Char} (h : Respelled cs ds) :
    counted cs = counted ds := by
  induction h with
  | nil => rfl
  | @letter c d cs ds hsame h ih =>
    by_cases hmark : c = '-' ∨ c = ' '
    · -- A mark stays the mark that it is.
      have hd : d = c := by
        have hc : c.toUpper = c := (toUpper_eq_mark_iff hmark).2 rfl
        exact (toUpper_eq_mark_iff hmark).1 (hsame.symm.trans hc)
      rw [hd, counted_cons_mark hmark, counted_cons_mark hmark, ih]
    · have hother : ¬ (d = '-' ∨ d = ' ') := by
        intro hd
        have hc : c.toUpper = d := hsame.trans ((toUpper_eq_mark_iff hd).2 rfl)
        rw [(toUpper_eq_mark_iff hd).1 hc] at hmark
        exact hmark hd
      rw [counted_cons_letter hmark, counted_cons_letter hother, hsame, ih]
  | added hmark h ih => rw [counted_cons_mark hmark, ih]
  | leftOut hmark h ih => rw [counted_cons_mark hmark, ih]

/-- A text in which nothing counts is a spelling of the empty one. -/
theorem respelled_of_uncounted {cs : List Char} (h : counted cs = []) : Respelled cs [] := by
  induction cs with
  | nil => exact .nil
  | cons c cs ih =>
    by_cases hmark : c = '-' ∨ c = ' '
    · rw [counted_cons_mark hmark] at h
      exact .leftOut hmark (ih h)
    · rw [counted_cons_letter hmark] at h
      cases h

/-- Texts with the same characters that count are spellings. Induction on the second one; what the
first begins with is dropped up to its next letter. -/
theorem respelled_of_counted {cs ds : List Char} (h : counted cs = counted ds) :
    Respelled cs ds := by
  induction ds generalizing cs with
  | nil => exact respelled_of_uncounted h
  | cons d ds ih =>
    by_cases hmark : d = '-' ∨ d = ' '
    · rw [counted_cons_mark hmark] at h
      exact .added hmark (ih h)
    · rw [counted_cons_letter hmark] at h
      induction cs with
      | nil => cases h
      | cons c cs ihcs =>
        by_cases hmark' : c = '-' ∨ c = ' '
        · rw [counted_cons_mark hmark'] at h
          exact .leftOut hmark' (ihcs h)
        · rw [counted_cons_letter hmark'] at h
          obtain ⟨hsame, hrest⟩ := List.cons_eq_cons.1 h
          exact .letter hsame (ih hrest)

/-- **Spellings are the texts in which the same characters count.** The relation says how a user may
have come to a text; the other side is what the service computes. -/
theorem respelled_iff {cs ds : List Char} : Respelled cs ds ↔ counted cs = counted ds :=
  ⟨counted_of_respelled, respelled_of_counted⟩

instance (shown typed : String) : Decidable (Spells shown typed) :=
  decidable_of_iff (counted shown.toList = counted typed.toList) respelled_iff.symm

theorem strip_eq (text : String) : strip text = String.ofList (counted text.toList) := rfl

theorem strip_of_spells {shown typed : String} (h : Spells shown typed) :
    strip typed = strip shown := by
  rw [strip_eq, strip_eq, counted_of_respelled h]

/-- A text of symbols counts as it is. -/
theorem counted_symbolic {cs : List Char} (h : ∀ c ∈ cs, Symbolic c) : counted cs = cs := by
  have hkept : cs.filter (fun c => c != '-' && c != ' ') = cs := by
    rw [List.filter_eq_self]
    intro c hc
    simp [(h c hc).hyphen, (h c hc).space]
  rw [counted, hkept]
  have hupper : cs.map Char.toUpper = cs.map id :=
    List.map_congr_left fun c hc => (h c hc).upper
  rw [hupper, List.map_id]

/-! ## The shown form -/

/-- A text of characters of one byte. -/
theorem utf8ByteSize_ofList {cs : List Char} (h : ∀ c ∈ cs, Symbolic c) :
    (String.ofList cs).utf8ByteSize = cs.length := by
  induction cs with
  | nil => rfl
  | cons c cs ih =>
    rw [List.forall_mem_cons] at h
    have hcons : String.ofList (c :: cs) = String.singleton c ++ String.ofList cs := by
      rw [String.singleton_eq_ofList, ← String.ofList_append, List.singleton_append]
    rw [hcons, String.utf8ByteSize_append, ih h.2, String.utf8ByteSize_singleton, h.1.size,
      List.length_cons, Nat.add_comm]

theorem ofText_append (cs ds : List Char) : Bytes.ofText (String.ofList (cs ++ ds)) =
    Bytes.ofText (String.ofList cs) ++ Bytes.ofText (String.ofList ds) := by
  unfold Bytes.ofText
  rw [String.ofList_append, String.toByteArray_append, ByteArray.data_append,
    Array.toList_append]

theorem groups_append {four : Bytes} (h : four.length = 4) (rest : Bytes) :
    groups (four ++ rest) = four :: groups rest := by
  match four, h with
  | [a, b, c, d], _ => rfl

/-- A text of symbols is shown in groups of four characters. Induction on the groups. -/
theorem groups_symbolic {n : Nat} {cs : List Char} (hlength : cs.length = 4 * n)
    (hcs : ∀ c ∈ cs, Symbolic c) : ∃ pieces : List (List Char), pieces.flatten = cs ∧
      (groups (Bytes.ofText (String.ofList cs))).filterMap Bytes.toText? =
        pieces.map String.ofList := by
  induction n generalizing cs with
  | zero =>
    obtain rfl := List.length_eq_zero_iff.1 hlength
    exact ⟨[], rfl, rfl⟩
  | succ n ih =>
    have hdrop : (cs.drop 4).length = 4 * n := by
      rw [List.length_drop]
      omega
    obtain ⟨pieces, hpieces, hshown⟩ := ih hdrop fun c hc => hcs c (List.mem_of_mem_drop hc)
    refine ⟨cs.take 4 :: pieces, ?_, ?_⟩
    · rw [List.flatten_cons, hpieces, List.take_append_drop]
    · have hfour : (Bytes.ofText (String.ofList (cs.take 4))).length = 4 := by
        rw [Bytes.length_ofText, utf8ByteSize_ofList fun c hc => hcs c (List.mem_of_mem_take hc),
          List.length_take]
        omega
      have hsplit : Bytes.ofText (String.ofList cs) = Bytes.ofText (String.ofList (cs.take 4)) ++
          Bytes.ofText (String.ofList (cs.drop 4)) := by
        rw [← ofText_append, List.take_append_drop]
      rw [hsplit, groups_append hfour, List.filterMap_cons, Bytes.toText?_ofText]
      dsimp only
      rw [hshown, List.map_cons]

/-- The hyphens between the groups do not count. -/
theorem counted_intercalate (pieces : List (List Char)) :
    counted (['-'].intercalate pieces) = counted pieces.flatten := by
  induction pieces with
  | nil => rfl
  | cons piece pieces ih =>
    cases pieces with
    | nil => rw [List.intercalate_singleton, List.flatten_singleton]
    | cons next pieces =>
      rw [List.intercalate_cons_cons, List.flatten_cons, counted_append, counted_append,
        counted_append, ih]
      show counted piece ++ [] ++ _ = _
      rw [List.append_nil]

/-- The shown form of a text of symbols has no other characters that count. -/
theorem strip_format {cs : List Char} {n : Nat} (hlength : cs.length = 4 * n)
    (hcs : ∀ c ∈ cs, Symbolic c) : strip (format (String.ofList cs)) = String.ofList cs := by
  obtain ⟨pieces, hpieces, hshown⟩ := groups_symbolic hlength hcs
  have hlist : (pieces.map String.ofList).map String.toList = pieces := by
    rw [List.map_map]
    exact (List.map_congr_left fun piece _ => String.toList_ofList).trans (List.map_id pieces)
  rw [strip_eq, format, hshown, String.toList_intercalate, hlist]
  show String.ofList (counted (['-'].intercalate pieces)) = _
  rw [counted_intercalate, hpieces, counted_symbolic hcs]

/-! ## Generated keys -/

theorem symbolic_generate (entropy : Vector UInt8 20) :
    ∀ c ∈ Base32.chars entropy.toList, Symbolic c := fun _ => Base32.symbolic_of_mem

theorem size_generate (entropy : Vector UInt8 20) : (generate entropy).utf8ByteSize = length := by
  rw [generate, Base32.encodeUnpadded, utf8ByteSize_ofList (symbolic_generate entropy)]
  exact @Base32.length_chars entropy.toList 4 Vector.length_toList

/-- **A generated key is its own normal form**, so that the key which is shown and the key which
seals are one. -/
theorem normalize_generate (entropy : Vector UInt8 20) :
    normalize (generate entropy) = .ok (generate entropy) := by
  have hstrip : strip (generate entropy) = generate entropy := by
    rw [strip_eq, generate, Base32.encodeUnpadded, String.toList_ofList,
      counted_symbolic (symbolic_generate entropy)]
  rw [normalize, hstrip, if_pos (size_generate entropy)]

/-- **Every spelling of the shown form of a key gives the key.** Case, blanks and dashes make no
difference to who types it in. -/
theorem normalize_of_shown {entropy : Vector UInt8 20} {typed : String}
    (h : Spells (format (generate entropy)) typed) : normalize typed = .ok (generate entropy) := by
  have hstrip : strip typed = generate entropy := by
    rw [strip_of_spells h, generate, Base32.encodeUnpadded]
    refine strip_format (n := 8) ?_ (symbolic_generate entropy)
    exact @Base32.length_chars entropy.toList 4 Vector.length_toList
  rw [normalize, hstrip, if_pos (size_generate entropy)]

/-- Different keys are shown differently. -/
theorem eq_of_format {entropy entropy' : Vector UInt8 20}
    (h : format (generate entropy) = format (generate entropy')) :
    generate entropy = generate entropy' := by
  have hown := normalize_of_shown (Respelled.refl (format (generate entropy)).toList)
  rw [h] at hown
  exact Except.ok.inj (hown.symm.trans (normalize_of_shown (Respelled.refl _)))

/-! ## Fingerprints -/

/-- The verdict on a recovery key is that on a word, with another fault for what cannot be read. -/
theorem verify_eq_ok {P : Primitives} {key fingerprint : String} {verdict : Bool} :
    verify P key fingerprint = .ok verdict ↔ P.verifyWord fingerprint key = .ok verdict := by
  unfold verify
  cases P.verifyWord fingerprint key with
  | error fault => exact ⟨nofun, nofun⟩
  | ok found =>
    exact ⟨fun h => congrArg Except.ok (Except.ok.inj h),
      fun h => congrArg Except.ok (Except.ok.inj h)⟩

end RecoveryKey

end SecondFactor
