import Mathlib.Algebra.Group.Nat.Defs
import SecondFactor.Proofs.RecoveryKey

/-!
# Base32 text that is read again

What is written of a byte string is read as that byte string. Both sides work on groups: five bytes
and eight symbols are two ways to write down a number below 2^40, and a shorter group stands for a
number whose low bits, which its missing bytes would fill, are zero.

## The architecture

* **`value?_symbol`** — a symbol has the value that it was made for.
* **`fold_places`** — the values of a group, taken together, are the number of the group.
* **`decodeGroup?_symbols`** — a group of any of the five shapes is read.
* **`decodeChars?_chars`** — and so are the groups of a text, one after the other;
  **`decode?_encode`** says it of the text.
-/

namespace SecondFactor.Base32

/-! ## §1 — the number of a group -/

/-- Reading a symbol undoes writing it. There are thirty-two of them, and each is looked at. -/
theorem value?_symbol {i : Nat} (h : i < 32) : value? (symbol i) = some i := by
  have hspec : ∀ i, i < 32 → value? (symbol i) = some i := by decide
  exact hspec i h

theorem symbol_ne_padding {i : Nat} (h : i < 32) : symbol i ≠ '=' := by
  have hspec : ∀ i, i < 32 → symbol i ≠ '=' := by decide
  exact hspec i h

/-- The values of the first symbols of a number. -/
def places (n count : Nat) : List Nat :=
  (List.range count).map fun i => (n >>> (5 * (7 - i))) % 32

/-- The symbols of a group are read one by one, and give the places of its number in base
thirty-two. -/
theorem mapM_value?_symbols (n count : Nat) :
    (symbols n count).mapM value? = some (places n count) := by
  unfold symbols places
  induction List.range count with
  | nil => rfl
  | cons i is ih =>
    rw [List.map_cons, List.mapM_cons, value?_symbol (Nat.mod_lt _ (by decide)), ih]
    rfl

theorem length_symbols (n count : Nat) : (symbols n count).length = count := by
  rw [symbols, List.length_map, List.length_range]

/-- The first values give the top bits of the number. Induction on how many there are. -/
theorem fold_top {n count : Nat} (hn : n < 2 ^ 40) (hcount : count ≤ 8) :
    (places n count).foldl (fun n v => n * 32 + v) 0 = n >>> (5 * (8 - count)) := by
  induction count with
  | zero =>
    show 0 = n >>> 40
    rw [Nat.shiftRight_eq_div_pow, Nat.div_eq_of_lt hn]
  | succ count ih =>
    have hwidth : 5 * (8 - count) = 5 * (7 - count) + 5 := by omega
    have hnext : 5 * (8 - (count + 1)) = 5 * (7 - count) := by omega
    unfold places at ih ⊢
    rw [List.range_succ, List.map_append, List.foldl_append, ih (by omega), hwidth, hnext,
      Nat.shiftRight_add, Nat.shiftRight_eq_div_pow _ 5]
    exact Nat.div_add_mod' (n >>> (5 * (7 - count))) 32

/-- Symbols that are left out count as zeros, which shift the number and add nothing. -/
theorem fold_zeros (n count : Nat) :
    (List.replicate count 0).foldl (fun n v => n * 32 + v) n = n * 2 ^ (5 * count) := by
  induction count generalizing n with
  | zero => exact (Nat.mul_one n).symm
  | succ count ih =>
    rw [List.replicate_succ, List.foldl_cons, ih, Nat.add_zero, Nat.mul_assoc, Nat.mul_add 5,
      Nat.add_comm, Nat.pow_add]

/-- **The values of a group are its number**, if the symbols that are left out are zero. A full
group and the four short ones are all cases of this. -/
theorem fold_places {n count : Nat} (hn : n < 2 ^ 40) (hcount : count ≤ 8)
    (hlow : 2 ^ (5 * (8 - count)) ∣ n) :
    (places n count ++ List.replicate (8 - count) 0).foldl (fun n v => n * 32 + v) 0 = n := by
  rw [List.foldl_append, fold_top hn hcount, fold_zeros, Nat.shiftRight_eq_div_pow,
    Nat.div_mul_cancel hlow]

/-! ## §2 — one group -/

/-- **A group is read**: the symbols of a number in one of the five shapes give its bytes. The
shapes are those that the writer produces; others are refused. -/
theorem decodeGroup?_symbols {n count bytes : Nat} (hn : n < 2 ^ 40)
    (hshape : groupBytes? count = some bytes) (hlow : 2 ^ (8 * (5 - bytes)) ∣ n) :
    decodeGroup? (symbols n count) =
      some ((List.range bytes).map fun i => UInt8.ofNat (n >>> (8 * (4 - i)))) := by
  -- The bits that the missing bytes would fill are at least those of the missing symbols.
  have hfits : count ≤ 8 ∧ 5 * (8 - count) ≤ 8 * (5 - bytes) := by
    unfold groupBytes? at hshape
    split at hshape <;> cases hshape <;> decide
  have hnumber := fold_places hn hfits.1 (Nat.dvd_trans (Nat.pow_dvd_pow 2 hfits.2) hlow)
  have hzero : n % (1 <<< (8 * (5 - bytes))) = 0 := by
    rw [Nat.one_shiftLeft]
    exact Nat.mod_eq_zero_of_dvd hlow
  unfold decodeGroup?
  rw [length_symbols, hshape, mapM_value?_symbols]
  show (if ((places n count ++ List.replicate (8 - count) 0).foldl (fun n v => n * 32 + v) 0) %
    (1 <<< (8 * (5 - bytes))) = 0 then _ else _) = _
  rw [hnumber, if_pos hzero]
  rfl

/-- Taking off the padding gives back the symbols, since none of them is the padding character. -/
theorem stripPadding_symbols (n count pad : Nat) :
    stripPadding (symbols n count ++ List.replicate pad '=') = symbols n count := by
  have hpad : ∀ c ∈ List.replicate pad '=', (c == '=') = true := fun c hc =>
    beq_iff_eq.2 (List.eq_of_mem_replicate hc)
  have hsymbols : (symbols n count).reverse.dropWhile (· == '=') = (symbols n count).reverse := by
    cases hreverse : (symbols n count).reverse with
    | nil => rfl
    | cons c cs =>
      have hc : c ∈ symbols n count := List.mem_reverse.1 (hreverse ▸ List.mem_cons_self)
      obtain ⟨i, hi, rfl⟩ := symbol_of_mem_symbols hc
      rw [List.dropWhile_cons_of_neg (by simp [symbol_ne_padding hi])]
  unfold stripPadding
  rw [List.reverse_append, List.reverse_replicate, List.dropWhile_append_of_pos hpad, hsymbols,
    List.reverse_reverse]

/-- Five bytes make a number below 2⁴⁰, which is what eight symbols can hold. -/
theorem groupNumber_lt (a b c d e : UInt8) : groupNumber a b c d e < 2 ^ 40 := by
  have ha := a.toNat_lt
  have hb := b.toNat_lt
  have hc := c.toNat_lt
  have hd := d.toNat_lt
  have he := e.toNat_lt
  unfold groupNumber
  omega

/-- The bytes of a group are those that its number was made of. -/
theorem bytes_groupNumber (a b c d e : UInt8) :
    ((List.range 5).map fun i => UInt8.ofNat (groupNumber a b c d e >>> (8 * (4 - i)))) =
      [a, b, c, d, e] := by
  have hbyte : ∀ (x : UInt8) (m : Nat), m % 256 = x.toNat → UInt8.ofNat m = x := fun x m h =>
    UInt8.toNat_inj.1 ((UInt8.toNat_ofNat').trans h)
  have ha := a.toNat_lt
  have hb := b.toNat_lt
  have hc := c.toNat_lt
  have hd := d.toNat_lt
  have he := e.toNat_lt
  show [_, _, _, _, _] = _
  simp only [Nat.shiftRight_eq_div_pow, groupNumber]
  rw [hbyte a _ (by omega), hbyte b _ (by omega), hbyte c _ (by omega), hbyte d _ (by omega),
    hbyte e _ (by omega)]

/-! ## §3 — the groups of a text -/

/-- A text is read in groups of eight, the first one first. -/
theorem decodeChars?_append {group : List Char} (hlength : group.length = 8) (rest : List Char) :
    decodeChars? (group ++ rest) = (do
      let bytes ← decodeGroup? (stripPadding group)
      let more ← decodeChars? rest
      return bytes ++ more) := by
  match group, hlength with
  | [_, _, _, _, _, _, _, _], _ => rfl

/-- The last group of a text, filled up. The reader takes the padding for noughts and drops the
bytes that it stands for. -/
theorem decodeChars?_last {a b c d e : UInt8} {count bytes : Nat}
    (hshape : groupBytes? count = some bytes)
    (hlow : 2 ^ (8 * (5 - bytes)) ∣ groupNumber a b c d e) :
    decodeChars? (symbols (groupNumber a b c d e) count ++ List.replicate (8 - count) '=') =
      some ([a, b, c, d, e].take bytes) := by
  have hfits : count ≤ 8 ∧ bytes ≤ 5 := by
    unfold groupBytes? at hshape
    split at hshape <;> cases hshape <;> decide
  have hlength : (symbols (groupNumber a b c d e) count ++
      List.replicate (8 - count) '=').length = 8 := by
    rw [List.length_append, length_symbols, List.length_replicate]
    exact Nat.add_sub_of_le hfits.1
  have hgroup := decodeChars?_append hlength []
  rw [List.append_nil, stripPadding_symbols,
    decodeGroup?_symbols (groupNumber_lt a b c d e) hshape hlow] at hgroup
  rw [hgroup, ← bytes_groupNumber, ← List.map_take, List.take_range, Nat.min_eq_left hfits.2]
  exact congrArg some (List.append_nil _)

/-- **What is written is read.** Induction on the groups of five bytes. -/
theorem decodeChars?_chars (bs : Bytes) :
    decodeChars? (chars bs ++ List.replicate ((8 - (chars bs).length % 8) % 8) '=') = some bs := by
  induction bs using chars.induct with
  -- A full group has no padding; the last one has one to four bytes, and the bytes that it lacks
  -- are zeros.
  | case1 a b c d e rest ih =>
    rw [chars, List.length_append, length_symbols, Nat.add_mod_left, List.append_assoc,
      decodeChars?_append (length_symbols _ 8), ih,
      show stripPadding (symbols (groupNumber a b c d e) 8) = _ by
        simpa using stripPadding_symbols (groupNumber a b c d e) 8 0,
      decodeGroup?_symbols (groupNumber_lt a b c d e) rfl (Nat.one_dvd _), bytes_groupNumber]
    rfl
  | case2 a b c d =>
    have hlow : 2 ^ (8 * (5 - 4)) ∣ groupNumber a b c d 0 := by
      simp only [groupNumber, UInt8.toNat_zero]
      omega
    rw [chars, length_symbols]
    exact decodeChars?_last rfl hlow
  | case3 a b c =>
    have hlow : 2 ^ (8 * (5 - 3)) ∣ groupNumber a b c 0 0 := by
      simp only [groupNumber, UInt8.toNat_zero]
      omega
    rw [chars, length_symbols]
    exact decodeChars?_last rfl hlow
  | case4 a b =>
    have hlow : 2 ^ (8 * (5 - 2)) ∣ groupNumber a b 0 0 0 := by
      simp only [groupNumber, UInt8.toNat_zero]
      omega
    rw [chars, length_symbols]
    exact decodeChars?_last rfl hlow
  | case5 a =>
    have hlow : 2 ^ (8 * (5 - 1)) ∣ groupNumber a 0 0 0 0 := by
      simp only [groupNumber, UInt8.toNat_zero]
      omega
    rw [chars, length_symbols]
    exact decodeChars?_last rfl hlow
  | case6 => rfl

/-- **Writing and reading bytes gives the bytes.** The padding that the writer leaves out is put
back by the reader. -/
theorem decode?_encode (bs : Bytes) : decode? (encode bs) = some bs := by
  unfold decode? encode
  rw [String.toList_ofList]
  exact decodeChars?_chars bs

end SecondFactor.Base32
