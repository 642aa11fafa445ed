import Mathlib.Tactic.Common
import SecondFactor.Json.Object
import SecondFactor.Json.Record

/-!
# What is written is read back

The reader of records takes apart what the writer of objects puts together. The text of a value is
never looked at beyond the byte that ends it, so each statement is about a written value with
something behind it.

## The architecture

* **Strings** — a byte is escaped in one of three ways and read back in one step
  (`readContent_escape`); a text is read back by induction on its bytes (`readText_textBytes`).
* **Numbers** — the decimal digits of a number below 2^64 are read to the end and give the number
  (`readWord_natBytes`). What follows must not go on as a number would (`Ends`).
* **`Spells`** — which written value spells which datum of a shape; `readDatum_of_spells` is the
  statement for a single value.
* **`decodeRecord_bytes`** — the whole record: members are read in the order in which they are
  written, by induction on the rows that are left.
-/

namespace SecondFactor.Json

/-! ## Strings -/

theorem hexValue?_digit :
    ∀ n < 16, hexValue? (UInt8.ofNat (Hex.digit n).toNat) = some n := by decide

theorem codePointBytes_control : ∀ n < 32, codePointBytes n = [UInt8.ofNat n] := by decide

/-- A byte that is written by number is read back: both of its digits are digits. -/
theorem readEscape_byNumber {b : UInt8} (hb : b < 0x20) (rest : Bytes) :
    readEscape ((escapeByNumber b).tail ++ rest) = .ok ([b], rest) := by
  have hlt : b.toNat < 32 := UInt8.lt_iff_toNat_lt.1 hb
  have hhigh := hexValue?_digit (b.toNat / 16) (by omega)
  have hlow := hexValue?_digit (b.toNat % 16) (by omega)
  have hzero : hexValue? 0x30 = some 0 := by decide
  have hvalue : b.toNat / 16 * 16 + b.toNat % 16 = b.toNat := by omega
  have hl : isLowSurrogate b.toNat = false := by simp [isLowSurrogate]; omega
  have hh : isHighSurrogate b.toNat = false := by simp [isHighSurrogate]; omega
  have hbytes : codePointBytes b.toNat = [b] := by
    rw [codePointBytes_control _ hlt, UInt8.ofNat_toNat]
  simp [escapeByNumber, Hex.ofByte, readEscape, readNumberEscape, readHex4, hhigh, hlow, hzero,
    hvalue, hl, hh, hbytes, bind, Except.bind, pure, Except.pure]

/-- One step of the reader takes one written byte, in whichever way it is written: as it is, with a
letter, or by number. -/
theorem readContent_escape (b : UInt8) (fuel : Nat) (bs : Bytes) :
    readContent (fuel + 1) (escape b ++ bs) = (do
      let (content, rest) ← readContent fuel bs
      return (b :: content, rest)) := by
  unfold escape
  split_ifs with h1 h2 h3 h4 h5 h6 h7 h8
  · subst h1; rfl
  · subst h2; rfl
  · subst h3; rfl
  · subst h4; rfl
  · subst h5; rfl
  · subst h6; rfl
  · subst h7; rfl
  · have hform : escapeByNumber b = 0x5c :: (escapeByNumber b).tail := rfl
    rw [hform, List.cons_append, readContent, if_neg (by decide), if_pos rfl,
      readEscape_byNumber h8]
    rfl
  · simp [readContent, h1, h2, h8]

/-- The bytes of a text are read back up to the closing quote. Induction on the bytes; the fuel
covers one step for each. -/
theorem readContent_escaped (bs : Bytes) (rest : Bytes) : ∀ fuel, bs.length < fuel →
    readContent fuel (bs.flatMap escape ++ 0x22 :: rest) = .ok (bs, rest) := by
  induction bs with
  | nil =>
    intro fuel hfuel
    obtain ⟨k, rfl⟩ : ∃ k, fuel = k + 1 := ⟨fuel - 1, by simp at hfuel; omega⟩
    rfl
  | cons b bs ih =>
    intro fuel hfuel
    obtain ⟨k, rfl⟩ : ∃ k, fuel = k + 1 := ⟨fuel - 1, by simp at hfuel; omega⟩
    rw [List.flatMap_cons, List.append_assoc, readContent_escape, ih k (by simp at hfuel; omega)]
    rfl

theorem escape_ne_nil (b : UInt8) : escape b ≠ [] := by
  unfold escape
  split_ifs <;> simp [escapeByNumber]

/-- A text is not shortened by being written. -/
theorem length_le_flatMap_escape (bs : Bytes) : bs.length ≤ (bs.flatMap escape).length := by
  induction bs with
  | nil => simp
  | cons b bs ih =>
    have := List.length_pos_iff.2 (escape_ne_nil b)
    simp only [List.flatMap_cons, List.length_append, List.length_cons]
    omega

/-- The contents of a string are read up to the closing quote, and no further. -/
theorem readString_escaped (s : String) (rest : Bytes) :
    readString ((Bytes.ofText s).flatMap escape ++ 0x22 :: rest) = .ok (s, rest) := by
  have hlen := length_le_flatMap_escape (Bytes.ofText s)
  have hfuel : (Bytes.ofText s).length <
      ((Bytes.ofText s).flatMap escape ++ 0x22 :: rest).length + 1 := by
    simp only [List.length_append, List.length_cons]
    omega
  rw [readString, readContent_escaped _ _ _ hfuel]
  simp [bind, Except.bind, pure, Except.pure]

/-- **A text is read back**, and what follows it is left. -/
theorem readText_textBytes (s : String) (rest : Bytes) :
    readText (textBytes s ++ rest) = .ok (s, rest) := by
  have h : textBytes s ++ rest = 0x22 :: ((Bytes.ofText s).flatMap escape ++ 0x22 :: rest) := by
    simp [textBytes]
  rw [h, ← readString_escaped s rest]
  rfl

/-! ## Numbers -/

/-- The character of a digit. -/
def digitByte (d : Nat) : UInt8 := UInt8.ofNat (Nat.digitChar d).toNat

theorem natBytes_of_lt {n : Nat} (h : n < 10) : natBytes n = [digitByte n] := by
  simp [natBytes, Nat.toDigits_of_lt_base h, digitByte]

theorem natBytes_of_ge {n : Nat} (h : 10 ≤ n) :
    natBytes n = natBytes (n / 10) ++ [digitByte (n % 10)] := by
  simp [natBytes, Nat.toDigits_of_base_le (by decide : 1 < 10) h, digitByte]

theorem isDigit_digitByte : ∀ d < 10, isDigit (digitByte d) = true := by decide

theorem value_digitByte : ∀ d < 10, (digitByte d).toNat - 0x30 = d := by decide

/-- Only a nought is written as a nought. This is what rules out leading ones. -/
theorem digitByte_ne_zero : ∀ d < 10, d ≠ 0 → digitByte d ≠ 0x30 := by decide

/-- Induction on the digits of a number, from the first to the last. -/
theorem natBytes_induct {p : Nat → Bytes → Prop} (single : ∀ n < 10, p n [digitByte n])
    (more : ∀ n bs, 10 ≤ n → p (n / 10) bs → p n (bs ++ [digitByte (n % 10)])) (n : Nat) :
    p n (natBytes n) := by
  induction n using Nat.strongRecOn with
  | ind n ih =>
    by_cases h : n < 10
    · rw [natBytes_of_lt h]
      exact single n h
    · rw [natBytes_of_ge (by omega)]
      exact more n _ (by omega) (ih _ (by omega))

/-- A number is written with digits alone. -/
theorem isDigit_of_mem_natBytes (n : Nat) : ∀ b ∈ natBytes n, isDigit b = true := by
  induction n using natBytes_induct with
  | single n h => simpa using isDigit_digitByte n h
  | more n bs h ih =>
    intro b hb
    rcases List.mem_append.1 hb with hb | hb
    · exact ih b hb
    · rw [List.mem_singleton.1 hb]
      exact isDigit_digitByte _ (by omega)

/-- The number with one more decimal digit. -/
def pushDigit (n : Nat) (b : UInt8) : Nat := n * 10 + (b.toNat - 0x30)

/-- The digits of a number, taken one after the other, give the number. -/
theorem foldl_pushDigit_natBytes (n : Nat) : (natBytes n).foldl pushDigit 0 = n := by
  induction n using natBytes_induct with
  | single n h => simp [pushDigit, value_digitByte n h]
  | more n bs h ih =>
    rw [List.foldl_append, ih]
    simp only [List.foldl_cons, List.foldl_nil, pushDigit,
      value_digitByte _ (Nat.mod_lt n (by omega))]
    omega

/-- A number that is not nought does not begin with one, so the reader goes on to its other
digits. -/
theorem natBytes_pos_head {n : Nat} : 0 < n → ∃ b bs, natBytes n = b :: bs ∧ b ≠ 0x30 := by
  induction n using natBytes_induct with
  | single n h => exact fun hpos => ⟨_, [], rfl, digitByte_ne_zero n h (by omega)⟩
  | more n bs h ih =>
    intro _
    obtain ⟨b, cs, rfl, hb⟩ := ih (by omega)
    exact ⟨b, _, rfl, hb⟩

/-- A number does not get less by more digits. If all of it fits, each part of it does. -/
theorem le_foldl_pushDigit (ds : Bytes) (v : Nat) : v ≤ ds.foldl pushDigit v := by
  induction ds generalizing v with
  | nil => exact Nat.le_refl v
  | cons d ds ih =>
    have : v ≤ pushDigit v d := by unfold pushDigit; omega
    exact Nat.le_trans this (ih _)

theorem appendDigit?_of_lt {v : Nat} {d : UInt8} (h : pushDigit v d < UInt64.size) :
    appendDigit? v d = some (pushDigit v d) := if_pos h

-- The test inside the loop is kept closed, or the comparison with 2^64 is unfolded digit by digit.
attribute [local irreducible] appendDigit? in
theorem ofIntegral_go_cons (v : Nat) (d : UInt8) (ds : Bytes) :
    Significand.ofIntegral.go v (d :: ds) = match appendDigit? v d with
      | some v => Significand.ofIntegral.go v ds
      | none => ⟨v, (d :: ds).length⟩ := rfl

/-- As long as the number fits, no digit is left over. -/
theorem ofIntegral_go (ds : Bytes) (v : Nat) (h : ds.foldl pushDigit v < UInt64.size) :
    Significand.ofIntegral.go v ds = ⟨ds.foldl pushDigit v, 0⟩ := by
  induction ds generalizing v with
  | nil => rfl
  | cons d ds ih =>
    rw [List.foldl_cons] at h ⊢
    have hfit : pushDigit v d < UInt64.size := Nat.lt_of_le_of_lt (le_foldl_pushDigit ds _) h
    rw [ofIntegral_go_cons, appendDigit?_of_lt hfit]
    exact ih _ h

theorem ofIntegral_natBytes {n : Nat} (h : n < UInt64.size) :
    Significand.ofIntegral (natBytes n) = ⟨n, 0⟩ := by
  have hv := foldl_pushDigit_natBytes n
  rw [Significand.ofIntegral, ofIntegral_go _ _ (by rw [hv]; exact h), hv]

/-- A text in which a value has ended: a comma or a closing bracket comes first. -/
def Ends (bs : Bytes) : Prop := ∃ b rest, bs = b :: rest ∧ (b = 0x2c ∨ b = 0x5d ∨ b = 0x7d)

theorem Ends.not_digit {bs : Bytes} (h : Ends bs) : bs.takeWhile isDigit = [] := by
  obtain ⟨b, rest, rfl, rfl | rfl | rfl⟩ := h <;> rfl

theorem takeWhile_natBytes (n : Nat) {rest : Bytes} (h : Ends rest) :
    (natBytes n ++ rest).takeWhile isDigit = natBytes n := by
  rw [List.takeWhile_append_of_pos (isDigit_of_mem_natBytes n), h.not_digit, List.append_nil]

theorem dropWhile_natBytes (n : Nat) {rest : Bytes} (h : Ends rest) :
    (natBytes n ++ rest).dropWhile isDigit = rest := by
  rw [List.dropWhile_append_of_pos (isDigit_of_mem_natBytes n)]
  obtain ⟨b, rest, rfl, rfl | rfl | rfl⟩ := h <;> rfl

theorem readTail_natBytes {n : Nat} (hn : n < UInt64.size) {rest : Bytes} (h : Ends rest) :
    readTail true (natBytes n) rest = .ok (.natural n, rest) := by
  obtain ⟨b, rest, rfl, rfl | rfl | rfl⟩ := h <;>
    simp [readTail, readTail.plain, ofIntegral_natBytes hn]

/-- **A number is read back**, if it fits and if something follows that is no part of a number. -/
theorem readNumber_natBytes {n : Nat} (hn : n < UInt64.size) {rest : Bytes} (h : Ends rest) :
    readNumber true (natBytes n ++ rest) = .ok (.natural n, rest) := by
  rcases Nat.eq_zero_or_pos n with rfl | hpos
  · obtain ⟨b, rest, rfl, rfl | rfl | rfl⟩ := h <;> rfl
  · have htake := takeWhile_natBytes n h
    have hdrop := dropWhile_natBytes n h
    have htail := readTail_natBytes hn h
    obtain ⟨b, bs, hbs, hb⟩ := natBytes_pos_head hpos
    have hdigit : isDigit b = true := isDigit_of_mem_natBytes n b (by simp [hbs])
    rw [hbs] at htake hdrop htail ⊢
    rw [List.cons_append] at htake hdrop ⊢
    simp only [readNumber, if_neg hb, if_pos hdigit, htake, hdrop, htail]

theorem natBytes_ne_nil (n : Nat) : natBytes n ≠ [] := by simp [natBytes]

theorem isBlank_of_isDigit {b : UInt8} (h : isDigit b = true) : isBlank b = false := by
  by_contra hblank
  simp only [isBlank, Bool.not_eq_false, Bool.or_eq_true, beq_iff_eq] at hblank
  rcases hblank with ((rfl | rfl) | rfl) | rfl <;> exact absurd h (by decide)

theorem skipBlanks_cons {b : UInt8} (h : isBlank b = false) (bs : Bytes) :
    skipBlanks (b :: bs) = b :: bs := by
  rw [skipBlanks, List.dropWhile_cons_of_neg (by simp [h])]

/-- A number that fits a field is read for that field. -/
theorem readWord_natBytes {n bound : Nat} (hn : n < bound) (hbound : bound ≤ UInt64.size)
    {rest : Bytes} (h : Ends rest) : readWord bound (natBytes n ++ rest) = .ok (n, rest) := by
  have hread := readNumber_natBytes (Nat.lt_of_lt_of_le hn hbound) h
  obtain ⟨b, bs, hbs⟩ := List.exists_cons_of_ne_nil (natBytes_ne_nil n)
  have hdigit : isDigit b = true := isDigit_of_mem_natBytes n b (by simp [hbs])
  rw [hbs, List.cons_append] at hread ⊢
  simp [readWord, skipBlanks_cons (isBlank_of_isDigit hdigit), hdigit, hread, hn, bind, Except.bind,
    pure, Except.pure]

/-! ## Lists of numbers -/

theorem separate_cons (p : Bytes) (ps : List Bytes) :
    separate (p :: ps) = p ++ ps.flatMap (0x2c :: ·) := by
  induction ps generalizing p with
  | nil => simp [separate]
  | cons q ps ih => simp [separate, ih]

/-- An item of a list is found at once when it is the first, and after its comma when not. -/
theorem nextItem_natBytes (n : Nat) (rest : Bytes) :
    nextItem true (natBytes n ++ rest) = .ok (.inl (natBytes n ++ rest)) ∧
      nextItem false (0x2c :: (natBytes n ++ rest)) = .ok (.inl (natBytes n ++ rest)) := by
  obtain ⟨b, bs, hbs⟩ := List.exists_cons_of_ne_nil (natBytes_ne_nil n)
  have hdigit : isDigit b = true := isDigit_of_mem_natBytes n b (by simp [hbs])
  have hskip := skipBlanks_cons (isBlank_of_isDigit hdigit)
  have hcomma := skipBlanks_cons (b := 0x2c) (by decide)
  have hclose : b ≠ 0x5d := by rintro rfl; exact absurd hdigit (by decide)
  rw [hbs, List.cons_append]
  exact ⟨by simp [nextItem, hskip, hclose], by simp [nextItem, hskip, hcomma, hclose]⟩

/-- The items that are left are read one after the other, each after its comma. -/
theorem readItems_left {bound : Nat} (hbound : bound ≤ UInt64.size) (rest : Bytes) :
    ∀ (ns : List Nat) (fuel : Nat), ns.length < fuel → (∀ n ∈ ns, n < bound) →
      readItems bound fuel false (ns.flatMap (fun n => 0x2c :: natBytes n) ++ 0x5d :: rest) =
        .ok (ns, rest)
  | [], fuel + 1, _, _ => by simp [readItems, nextItem, skipBlanks_cons (b := 0x5d) (by decide),
      bind, Except.bind, pure, Except.pure]
  | n :: ns, fuel + 1, hfuel, hns => by
    have hends : Ends (ns.flatMap (fun n => 0x2c :: natBytes n) ++ 0x5d :: rest) := by
      cases ns with
      | nil => exact ⟨_, _, rfl, by decide⟩
      | cons m ns => exact ⟨_, _, rfl, by decide⟩
    have hword := readWord_natBytes (hns n (by simp)) hbound hends
    have hleft := readItems_left hbound rest ns fuel (by simp at hfuel; omega)
      fun m hm => hns m (by simp [hm])
    simp only [List.flatMap_cons, List.cons_append, List.append_assoc]
    simp only [readItems, (nextItem_natBytes n _).2, hword, hleft, bind, Except.bind, pure,
      Except.pure]

/-- Each item takes at least its comma, so the fuel of the reader suffices for a list. -/
theorem length_le_flatMap_natBytes (ns : List Nat) :
    ns.length ≤ (ns.flatMap fun n => 0x2c :: natBytes n).length := by
  induction ns with
  | nil => simp
  | cons n ns ih =>
    simp only [List.flatMap_cons, List.length_append, List.length_cons]
    omega

/-- **A list of numbers is read back**, be it empty or not. Each number has to be below the bound of
the field. -/
theorem readWords_separate {bound : Nat} (hbound : bound ≤ UInt64.size) {ns : List Nat}
    (hns : ∀ n ∈ ns, n < bound) (rest : Bytes) :
    readWords bound (0x5b :: (separate (ns.map natBytes) ++ 0x5d :: rest)) = .ok (ns, rest) := by
  rw [readWords, skipBlanks_cons (by decide)]
  simp only [if_true]
  cases ns with
  | nil => simp [separate, readItems, nextItem, skipBlanks_cons (b := 0x5d) (by decide), bind,
      Except.bind, pure, Except.pure]
  | cons n ns =>
    have hends : Ends (ns.flatMap (fun n => 0x2c :: natBytes n) ++ 0x5d :: rest) := by
      cases ns with
      | nil => exact ⟨_, _, rfl, by decide⟩
      | cons m ns => exact ⟨_, _, rfl, by decide⟩
    have hword := readWord_natBytes (hns n (by simp)) hbound hends
    have hlen := length_le_flatMap_natBytes ns
    rw [List.map_cons, separate_cons, List.flatMap_map, List.append_assoc]
    have hleft := readItems_left hbound rest ns
      (natBytes n ++ (ns.flatMap (fun n => 0x2c :: natBytes n) ++ 0x5d :: rest)).length
      (by simp only [List.length_append, List.length_cons]; omega) fun m hm => hns m (by simp [hm])
    simp only [readItems, (nextItem_natBytes n _).1, hword, hleft, bind, Except.bind, pure,
      Except.pure]

/-! ## Values -/

/-- Which written value spells which datum of a shape. -/
inductive Spells : Shape → Value → Datum → Prop where
  | text (s : String) : Spells .text (.text s) (.text s)
  | word {n bound : Nat} (hn : n < bound) (hbound : bound ≤ UInt64.size) :
      Spells (.word bound) (.number n) (.word n)
  | words {ns : List Nat} {bound : Nat} (hns : ∀ n ∈ ns, n < bound) (hbound : bound ≤ UInt64.size) :
      Spells (.words bound) (.list (ns.map fun (n : Nat) => Scalar.number n)) (.words ns)
  | choice {name : String} {names : List String} (hname : name ∈ names) :
      Spells (.choice names) (.text name) (.choice name)

@[simp] theorem bytes_natCast (n : Nat) : (Scalar.number n).bytes = natBytes n := by
  simp only [Scalar.bytes]
  rw [if_neg (by omega), Int.natAbs_natCast]

/-- A written value is read back as what it spells. One case for each shape, and behind it the
reader stands where the value ended. -/
theorem readDatum_of_spells {shape : Shape} {v : Value} {d : Datum} (h : Spells shape v d)
    {rest : Bytes} (hends : Ends rest) : readDatum shape (v.bytes ++ rest) = .ok (d, rest) := by
  cases h with
  | text s =>
    show readDatum .text (textBytes s ++ rest) = _
    simp [readDatum, readText_textBytes, bind, Except.bind, pure, Except.pure]
  | word hn hbound =>
    simp [Value.number, Value.bytes, readDatum, readWord_natBytes hn hbound hends, bind,
      Except.bind, pure, Except.pure]
  | words hns hbound =>
    have hmap : ∀ ns : List Nat, (ns.map fun (n : Nat) => Scalar.number n).map Scalar.bytes =
        ns.map natBytes := by simp
    simp only [Value.bytes, hmap, List.cons_append, List.append_assoc, List.nil_append]
    simp [readDatum, readWords_separate hbound hns, bind, Except.bind, pure, Except.pure]
  | @choice name names hname =>
    have hquote : textBytes name ++ rest =
        0x22 :: ((Bytes.ofText name).flatMap escape ++ 0x22 :: rest) := by simp [textBytes]
    have hread : readText (textBytes name ++ rest) = .ok (name, rest) :=
      readText_textBytes name rest
    show readDatum (.choice names) (textBytes name ++ rest) = _
    rw [hquote] at hread ⊢
    simp [readDatum, readChoice, readName, skipBlanks_cons (b := 0x22) (by decide), hread, hname,
      bind, Except.bind, pure, Except.pure]

/-! ## Records -/

/-- A field of a record with what is written for it and what it spells. -/
structure Row where
  name : String
  shape : Shape
  value : Value
  datum : Datum

/-- A row as it is written: name, colon, value. -/
def Row.bytes (row : Row) : Bytes := textBytes row.name ++ 0x3a :: row.value.bytes

/-- Rows that fill a record: their names differ, and their values spell their data. -/
structure Rows (rows : List Row) : Prop where
  sound : ∀ row ∈ rows, Spells row.shape row.value row.datum
  nodup : (rows.map Row.name).Nodup

/-- The fields that the reader looks for. -/
def fieldsOf (rows : List Row) : Fields := rows.map fun row => (row.name, row.shape)

/-- The object that is written. -/
def objectOf (rows : List Row) : Object := rows.map fun row => (row.name, row.value)

/-- Where names differ, a name has what stands in its row. -/
theorem lookup_of_mem {α β : Type} [DecidableEq α] {l : List (α × β)} (hl : (l.map Prod.fst).Nodup)
    {k : α} {v : β} (h : (k, v) ∈ l) : l.lookup k = some v := by
  induction l with
  | nil => simp at h
  | cons row l ih =>
    rw [List.map_cons, List.nodup_cons] at hl
    rcases List.mem_cons.1 h with rfl | h
    · rw [List.lookup_cons_self]
    · have hne : k ≠ row.1 := by
        rintro rfl
        exact hl.1 (List.mem_map.2 ⟨_, h, rfl⟩)
      rw [List.lookup_cons, beq_false_of_ne hne]
      exact ih hl.2 h

/-- A member is read up to what follows it, whatever was found before. -/
theorem readMember {fields : Fields} {row : Row} (hrow : Spells row.shape row.value row.datum)
    (hfield : fields.lookup row.name = some row.shape) {found : List (String × Datum)}
    (hfound : found.lookup row.name = none) {first : Bool} {bs rest : Bytes}
    (hnext : nextMember first bs =
      .ok (.inl ((Bytes.ofText row.name).flatMap escape ++
        0x22 :: 0x3a :: (row.value.bytes ++ rest))))
    (hends : Ends rest) (fuel : Nat) :
    readMembers fields (fuel + 1) first found bs =
      readMembers fields fuel false ((row.name, row.datum) :: found) rest := by
  have hstring := readString_escaped row.name (0x3a :: (row.value.bytes ++ rest))
  have hcolon : readColon (0x3a :: (row.value.bytes ++ rest)) = .ok (row.value.bytes ++ rest) := by
    simp [readColon, skipBlanks_cons (b := 0x3a) (by decide)]
  simp [readMembers, hnext, hstring, hfield, hfound, hcolon, readDatum_of_spells hrow hends, bind,
    Except.bind]

/-- A member is found at once when it is the first, and after its comma when not. -/
theorem nextMember_row (row : Row) (rest : Bytes) :
    nextMember true (row.bytes ++ rest) =
        .ok (.inl ((Bytes.ofText row.name).flatMap escape ++
          0x22 :: 0x3a :: (row.value.bytes ++ rest))) ∧
      nextMember false (0x2c :: (row.bytes ++ rest)) =
        .ok (.inl ((Bytes.ofText row.name).flatMap escape ++
          0x22 :: 0x3a :: (row.value.bytes ++ rest))) := by
  have hquote := skipBlanks_cons (b := 0x22) (by decide)
  have hcomma := skipBlanks_cons (b := 0x2c) (by decide)
  constructor <;> simp [nextMember, Row.bytes, textBytes, hquote, hcomma]

/-- Behind a member there stands a comma or the closing brace, and neither is part of a number. -/
theorem ends_rows (rows : List Row) (rest : Bytes) :
    Ends (rows.flatMap (fun row => 0x2c :: row.bytes) ++ 0x7d :: rest) := by
  cases rows with
  | nil => exact ⟨_, _, rfl, by decide⟩
  | cons row rows => exact ⟨_, _, rfl, by decide⟩

/-- What rows add to what was found. -/
def foundBy (rows : List Row) : List (String × Datum) :=
  (rows.map fun row => (row.name, row.datum)).reverse

/-- The members that are left are read one after the other, each after its comma. -/
theorem readMembers_left {fields : Fields} (rest : Bytes) :
    ∀ (rows : List Row) (fuel : Nat) (found : List (String × Datum)), rows.length < fuel →
      Rows rows → (∀ row ∈ rows, fields.lookup row.name = some row.shape) →
      (∀ row ∈ rows, found.lookup row.name = none) →
      readMembers fields fuel false found
          (rows.flatMap (fun row => 0x2c :: row.bytes) ++ 0x7d :: rest) =
        .ok (foundBy rows ++ found, rest)
  | [], fuel + 1, found, _, _, _, _ => by
    simp [readMembers, nextMember, skipBlanks_cons (b := 0x7d) (by decide), foundBy, bind,
      Except.bind, pure, Except.pure]
  | row :: rows, fuel + 1, found, hfuel, hrows, hfields, hfound => by
    have hname := (List.nodup_cons.1 hrows.nodup).1
    have hleft : Rows rows :=
      ⟨fun r hr => hrows.sound r (by simp [hr]), (List.nodup_cons.1 hrows.nodup).2⟩
    have hnot : ∀ r ∈ rows, ((row.name, row.datum) :: found).lookup r.name = none := by
      intro r hr
      have hne : r.name ≠ row.name := fun h => hname (List.mem_map.2 ⟨r, hr, h⟩)
      simpa [List.lookup_cons, beq_false_of_ne hne] using hfound r (by simp [hr])
    rw [List.flatMap_cons, List.append_assoc, List.cons_append,
      readMember (hrows.sound row (by simp)) (hfields row (by simp)) (hfound row (by simp))
        (nextMember_row row _).2 (ends_rows rows rest),
      readMembers_left rest rows fuel _ (by simp at hfuel; omega) hleft
        (fun r hr => hfields r (by simp [hr])) hnot]
    simp [foundBy]

/-- The members of an object are read up to the closing brace, in the order in which they were
written. -/
theorem readMembers_separate {fields : Fields} {rows : List Row} (hrows : Rows rows)
    (hfields : ∀ row ∈ rows, fields.lookup row.name = some row.shape) {fuel : Nat}
    (hfuel : rows.length < fuel) (rest : Bytes) :
    readMembers fields fuel true [] (separate (rows.map Row.bytes) ++ 0x7d :: rest) =
      .ok (foundBy rows, rest) := by
  obtain ⟨fuel, rfl⟩ : ∃ k, fuel = k + 1 := ⟨fuel - 1, by omega⟩
  cases rows with
  | nil => simp [separate, readMembers, nextMember, skipBlanks_cons (b := 0x7d) (by decide),
      foundBy, bind, Except.bind, pure, Except.pure]
  | cons row rows =>
    have hleft : Rows rows :=
      ⟨fun r hr => hrows.sound r (by simp [hr]), (List.nodup_cons.1 hrows.nodup).2⟩
    have hnot : ∀ r ∈ rows, [(row.name, row.datum)].lookup r.name = none := by
      intro r hr
      have hne : r.name ≠ row.name :=
        fun h => (List.nodup_cons.1 hrows.nodup).1 (List.mem_map.2 ⟨r, hr, h⟩)
      simp [List.lookup_cons, beq_false_of_ne hne]
    rw [List.map_cons, separate_cons, List.flatMap_map, List.append_assoc,
      readMember (hrows.sound row (by simp)) (hfields row (by simp)) rfl
        (nextMember_row row _).1 (ends_rows rows rest),
      readMembers_left rest rows fuel _ (by simp at hfuel; omega) hleft
        (fun r hr => hfields r (by simp [hr])) hnot]
    simp [foundBy]

/-- The fuel of the reader suffices for the members too. -/
theorem length_le_separate (rows : List Row) :
    rows.length ≤ (separate (rows.map Row.bytes)).length + 1 := by
  cases rows with
  | nil => simp
  | cons row rows =>
    have hleft : rows.length ≤ (rows.flatMap fun row => 0x2c :: row.bytes).length := by
      induction rows with
      | nil => simp
      | cons r rows ih =>
        simp only [List.flatMap_cons, List.length_append, List.length_cons]
        omega
    have hpos : 0 < row.bytes.length := by simp [Row.bytes, textBytes]
    rw [List.map_cons, separate_cons, List.flatMap_map]
    simp only [List.length_append, List.length_cons]
    omega

theorem lookup_fieldsOf {rows : List Row} (hrows : Rows rows) :
    ∀ row ∈ rows, (fieldsOf rows).lookup row.name = some row.shape := by
  intro row hrow
  refine lookup_of_mem ?_ (List.mem_map.2 ⟨row, hrow, rfl⟩)
  simpa [fieldsOf, Function.comp_def] using hrows.nodup

theorem lookup_foundBy {rows : List Row} (hrows : Rows rows) :
    ∀ row ∈ rows, (foundBy rows).lookup row.name = some row.datum := by
  intro row hrow
  refine lookup_of_mem ?_ (List.mem_reverse.2 (List.mem_map.2 ⟨row, hrow, rfl⟩))
  rw [foundBy, List.map_reverse, (List.reverse_perm _).nodup_iff, List.map_map]
  exact hrows.nodup

/-- All fields are found, in whatever order they were written, each with its datum. -/
theorem mapM_lookup_foundBy {rows : List Row} (hrows : Rows rows) :
    (fieldsOf rows).mapM (fun field => (foundBy rows).lookup field.1) =
      some (rows.map Row.datum) := by
  have hall := lookup_foundBy hrows
  generalize foundBy rows = found at hall
  clear hrows
  induction rows with
  | nil => rfl
  | cons row rows ih =>
    have hrest := ih fun r hr => hall r (by simp [hr])
    simp only [fieldsOf] at hrest
    simp [fieldsOf, hall row (by simp), hrest]

/-- **A record is read back.** The data of the fields, from the object that is written of them. Both
sides go by the names, so their order does not matter. -/
theorem decodeRecord_bytes {rows : List Row} (hrows : Rows rows) :
    decodeRecord (fieldsOf rows) (objectOf rows).bytes = .ok (rows.map Row.datum) := by
  have hbytes : (objectOf rows).bytes = 0x7b :: (separate (rows.map Row.bytes) ++ [0x7d]) := by
    rw [Object.bytes, objectOf, List.map_map]
    rfl
  have hlen := length_le_separate rows
  have hfuel : rows.length < (separate (rows.map Row.bytes) ++ [0x7d]).length + 1 := by
    rw [List.length_append, List.length_singleton]
    omega
  have hmembers := readMembers_separate hrows (lookup_fieldsOf hrows) hfuel []
  have hmapM := mapM_lookup_foundBy hrows
  rw [hbytes, decodeRecord, readRecord, skipBlanks_cons (by decide)]
  simp only [hmembers, hmapM, wholeOf, bind, Except.bind, pure, Except.pure]
  rfl

end SecondFactor.Json
