import SecondFactor.Proofs.Laws

/-!
# Password hashes are read back

The hash of a word is made as text and read as text. What was made is read for what it is: its
costs, its salt and its tag. So it is accepted for its own word, and there is a verdict on every
other one.

## The architecture

* **`Base64.decodeChars?_chars`** — bytes that are written in Base64 are read again.
* **`Argon2.length_tag`** — how many bytes a tag has.
* **`Argon2.parse?_text`** — the fields of a text that was made.
* **`Argon2.verify_hash`** — the verdict on any word.
* **`Primitives.standard_hashing`**, **`Primitives.standard_readable`** — so the hashes that run
  keep the laws.
-/

namespace SecondFactor

/-! ## §1 — bytes as text -/

namespace Base64

theorem value?_symbol : ∀ n < 64, value? .standard (symbol .standard n) = some n := by decide

theorem length_symbols (α : Alphabet) (n count : Nat) : (symbols α n count).length = count := by
  rw [symbols, List.length_map, List.length_range]

/-- The symbols of a number are its digits to the base 64. -/
theorem symbols_eq (α : Alphabet) (n : Nat) {count : Nat} (hcount : count ≤ 4) :
    symbols α n count =
      ([n / 262144, n / 4096, n / 64, n].take count).map fun digit => symbol α (digit % 64) := by
  have hall : symbols α n 4 =
      [n / 262144, n / 4096, n / 64, n].map fun digit => symbol α (digit % 64) := by
    simp [symbols, List.range_succ, Nat.shiftRight_eq_div_pow]
  have hfirst : symbols α n count = (symbols α n 4).take count := by
    rw [symbols, symbols, ← List.map_take, List.take_range, Nat.min_eq_left hcount]
  rw [hfirst, hall, List.map_take]

/-- Three bytes take four symbols, and what is left over takes no padding. -/
theorem length_chars (α : Alphabet) (bs : Bytes) :
    (chars α bs).length = (4 * bs.length + 2) / 3 := by
  induction bs using chars.induct with
  | case1 a b c rest ih =>
    rw [chars, List.length_append, length_symbols, ih]
    simp only [List.length_cons]
    omega
  | case2 | case3 =>
    rw [chars, length_symbols]
    simp only [List.length_cons, List.length_nil]
  | case4 => rfl

theorem byte_eq {n : Nat} {a : UInt8} (h : n % 256 = a.toNat) : UInt8.ofNat n = a :=
  UInt8.toNat_inj.1 (UInt8.toNat_ofNat.trans h)

/-- **Bytes that are written are read again.** Salt and tag are found in a hash text as they were
put there. -/
theorem decodeChars?_chars (bs : Bytes) :
    decodeChars? .standard (chars .standard bs) = some bs := by
  have hvalue : ∀ n, value? .standard (symbol .standard (n % 64)) = some (n % 64) :=
    fun n => value?_symbol _ (Nat.mod_lt n (by decide))
  induction bs using chars.induct with
  -- Three bytes make a number of twenty-four bits, which is cut into four symbols and put together
  -- again. The two shorter groups at the end are filled up with noughts.
  | case1 a b c rest ih =>
    have ha := a.toNat_lt
    have hb := b.toNat_lt
    have hc := c.toNat_lt
    rw [chars, symbols_eq _ _ (by decide)]
    simp only [List.take, List.map, List.cons_append, List.nil_append, decodeChars?, hvalue, ih,
      Option.bind_eq_bind, Option.bind_some, Option.pure_def]
    generalize hn : (a.toNat * 256 + b.toNat) * 256 + c.toNat = n
    have hwhole : (((n / 262144 % 64) * 64 + n / 4096 % 64) * 64 + n / 64 % 64) * 64 + n % 64 =
        n := by omega
    rw [hwhole, byte_eq (a := a) (by omega), byte_eq (a := b) (by omega),
      byte_eq (a := c) (by omega)]
  | case2 a b =>
    have ha := a.toNat_lt
    have hb := b.toNat_lt
    rw [chars, symbols_eq _ _ (by decide)]
    simp only [List.take, List.map, decodeChars?, hvalue, Option.bind_eq_bind, Option.bind_some,
      Option.pure_def]
    generalize hn : (a.toNat * 256 + b.toNat) * 256 = n
    have hwhole : ((n / 262144 % 64) * 64 + n / 4096 % 64) * 64 + n / 64 % 64 = n / 64 := by omega
    rw [hwhole, if_pos (by omega), byte_eq (a := a) (by omega), byte_eq (a := b) (by omega)]
  | case3 a =>
    have ha := a.toNat_lt
    rw [chars, symbols_eq _ _ (by decide)]
    simp only [List.take, List.map, decodeChars?, hvalue, Option.bind_eq_bind, Option.bind_some,
      Option.pure_def]
    have hwhole : (a.toNat * 65536 / 262144 % 64) * 64 + a.toNat * 65536 / 4096 % 64 =
        a.toNat * 16 := by omega
    rw [hwhole, if_pos (by omega), byte_eq (a := a) (by omega)]
  | case4 => rfl

/-- A written byte string has no other characters than the values of a password hash, so that salt
and tag can stand in one as they are. -/
theorem isValueChar_of_mem (bs : Bytes) :
    ∀ c ∈ chars .standard bs, Argon2.Phc.isValueChar c = true := by
  have hsymbol : ∀ n < 64, Argon2.Phc.isValueChar (symbol .standard n) = true := by decide
  have hsymbols : ∀ n count, ∀ c ∈ symbols .standard n count, Argon2.Phc.isValueChar c = true := by
    intro n count c hc
    obtain ⟨i, -, rfl⟩ := List.mem_map.1 hc
    exact hsymbol _ (Nat.mod_lt _ (by decide))
  induction bs using chars.induct with
  | case1 a b c rest ih =>
    intro x hx
    rcases List.mem_append.1 hx with hx | hx
    · exact hsymbols _ _ x hx
    · exact ih x hx
  | case2 a b => exact hsymbols _ _
  | case3 a => exact hsymbols _ _
  | case4 => nofun

end Base64

/-! ## §2 — the length of a tag -/

namespace Digest

/-- Compressing a block leaves a state of eight words, and so does absorbing a message. The digest
is cut from that state. -/
theorem Blake2b.length_compress {h block : List UInt64} {read : Nat} {last : Bool}
    (hh : h.length = 8) : (compress h block read last).length = 8 := by
  unfold compress
  simp only [List.length_zipWith, List.length_take, List.length_drop, hh]
  rfl

theorem Blake2b.length_absorb {length count read : Nat} {message : Bytes} {h : List UInt64}
    (hh : h.length = 8) : (absorb length count read message h).length = 8 := by
  induction count generalizing read message h with
  | zero => exact hh
  | succ count ih => exact ih (length_compress hh)

/-- So a digest has the length that was asked for, if that is at most sixty-four bytes. -/
theorem length_blake2b {size : Nat} (hsize : size ≤ 64) (message : Bytes) :
    (blake2b size message).length = size := by
  have hwords : ∀ ws : List UInt64, (ws.flatMap Bytes.ofWord64Low).length = 8 * ws.length := by
    intro ws
    induction ws with
    | nil => rfl
    | cons w ws ih =>
      rw [List.flatMap_cons, List.length_append, ih, List.length_cons, Nat.mul_succ, Nat.add_comm]
      rfl
  unfold blake2b
  rw [List.length_take, hwords, Blake2b.length_absorb rfl]
  omega

end Digest

namespace Argon2

theorem length_tag {p : Params} (hsize : p.size ≤ 64) (password salt : Bytes) :
    (tag p password salt).length = p.size := by
  unfold tag longDigest
  dsimp only
  rw [if_pos hsize]
  exact Digest.length_blake2b hsize _

/-! ## §3 — the fields of a text -/

namespace Phc

/-- The text that is made of a salt and a tag, as it is read. -/
def made (salt tag : Bytes) : Phc where
  algorithm := "argon2id".toList
  version := some 19
  params := [(['m'], "19456".toList), (['t'], ['2']), (['p'], ['1'])]
  salt := some (Base64.chars .standard salt)
  tag := some tag

/-- What is written of up to thirty-two bytes may stand as a value in a hash text. -/
theorem isValue_chars {bs : Bytes} (hlength : bs.length ≤ 32) :
    isValue (Base64.chars .standard bs) = true := by
  unfold isValue
  rw [List.all_eq_true.2 (Base64.isValueChar_of_mem bs), Base64.length_chars, Bool.and_true,
    decide_eq_true_iff]
  omega

/-- A dollar sign starts each field, and none is within a field. The parser cuts the text at these
signs before it looks at any field. -/
theorem splitOn_text (salt tag : Bytes) :
    ("$argon2id$v=19$m=19456,t=2,p=1$" ++ Base64.encode .standard salt ++ "$" ++
      Base64.encode .standard tag).toList.splitOn '$' =
    [[], "argon2id".toList, "v=19".toList, "m=19456,t=2,p=1".toList,
      Base64.chars .standard salt, Base64.chars .standard tag] := by
  have hdollar : ∀ bs, '$' ∉ Base64.chars .standard bs := fun bs hmem =>
    absurd (Base64.isValueChar_of_mem bs _ hmem) (by decide)
  have hhead : "$argon2id$v=19$m=19456,t=2,p=1$".toList = '$' :: "argon2id".toList ++
      '$' :: "v=19".toList ++ '$' :: "m=19456,t=2,p=1".toList ++ ['$'] := by decide
  have hwhole : ("$argon2id$v=19$m=19456,t=2,p=1$" ++ Base64.encode .standard salt ++ "$" ++
      Base64.encode .standard tag).toList = ['$'].intercalate
      [[], "argon2id".toList, "v=19".toList, "m=19456,t=2,p=1".toList,
        Base64.chars .standard salt, Base64.chars .standard tag] := by
    rw [String.toList_append, String.toList_append, String.toList_append, hhead]
    simp [Base64.encode, List.intercalate, List.intersperse]
  rw [hwhole]
  refine List.splitOn_intercalate '$' ?_ (List.cons_ne_nil _ _)
  simp only [List.forall_mem_cons]
  exact ⟨by decide, by decide, by decide, by decide, hdollar salt, hdollar tag, nofun⟩

theorem salt?_chars {salt : Bytes} (hsalt : salt.length = 16) :
    salt? (Base64.chars .standard salt) = some (Base64.chars .standard salt) := by
  unfold salt?
  rw [isValue_chars (by omega), Base64.length_chars, hsalt]
  rfl

theorem tag?_chars {tag : Bytes} (htag : tag.length = 32) :
    tag? (Base64.chars .standard tag) = some tag := by
  unfold tag?
  rw [Base64.decodeChars?_chars, Option.bind_eq_bind, Option.bind_some, htag]
  rfl

/-- **A text that was made is read**, as the parts that it was made of. -/
theorem parse?_text {salt tag : Bytes} (hsalt : salt.length = 16) (htag : tag.length = 32) :
    parse? ("$argon2id$v=19$m=19456,t=2,p=1$" ++ Base64.encode .standard salt ++ "$" ++
      Base64.encode .standard tag) = some (made salt tag) := by
  have hname : isName "argon2id".toList = true := by decide
  have hversion : ∀ fields, takeVersion? ("v=19".toList :: fields) = some (some 19, fields) :=
    fun _ => rfl
  have hparams : ∀ fields, takeParams? ("m=19456,t=2,p=1".toList :: fields) =
      some ((made salt tag).params, fields) := fun _ => rfl
  unfold parse?
  rw [splitOn_text]
  simp only [hname, hversion, hparams, salt?_chars hsalt, tag?_chars htag, Bool.not_true,
    Bool.false_eq_true, if_false, Option.bind_eq_bind, Option.bind_some, Option.pure_def]
  rfl

/-- The tag of a text that was made is recomputed with the costs under which it was made, and not
with those of today. -/
theorem check_made {salt expected : Bytes} (hsalt : salt.length = 16)
    (hexpected : expected.length = 32) (password : Bytes) :
    (made salt expected).check password = .ok (Argon2.tag {} password salt == expected) := by
  have hcosts : (made salt expected).costs? expected.length = some {} := by
    rw [hexpected]
    rfl
  -- Variant, version and salt are read off the text, so the same computation is made as at first.
  have hrecompute : (made salt expected).recompute? {} (Base64.chars .standard salt) password =
      some (Argon2.tag {} password salt) := by
    unfold recompute?
    have hvariant : variant? "argon2id".toList = some .hybrid := by decide
    have hversion : versionOf? (made salt expected).version = some .adding := rfl
    rw [show (made salt expected).algorithm = "argon2id".toList from rfl, hvariant, hversion,
      Base64.decodeChars?_chars]
    simp only [Option.bind_eq_bind, Option.bind_some]
    rw [if_pos ⟨by decide, by omega⟩]
  unfold check
  rw [show (made salt expected).salt = some (Base64.chars .standard salt) from rfl,
    show (made salt expected).tag = some expected from rfl]
  dsimp only
  rw [hcosts]
  dsimp only
  rw [if_pos (by decide), hrecompute]
  rfl

end Phc

/-- **The verdict on a word** about a hash that was made: whether the two words have one tag. The
word that it was made of has, so it is accepted. -/
theorem verify_hash {salt : Bytes} (hsalt : salt.length = 16) (word other : String) :
    verify (hash salt word) other = .ok (tag {} (Bytes.ofText other) salt ==
      tag {} (Bytes.ofText word) salt) := by
  have hlength : (tag {} (Bytes.ofText word) salt).length = 32 := length_tag (by decide) _ _
  unfold verify hash
  rw [Phc.parse?_text hsalt hlength]
  exact Phc.check_made hsalt hlength _

end Argon2

/-! ## §4 — the laws -/

namespace Primitives

/-- The hashes that run keep the laws of password hashing. -/
theorem standard_hashing : standard.HashingLaws where
  verify_hash salt word :=
    (Argon2.verify_hash Vector.length_toList word word).trans (by rw [beq_self_eq_true])
  hash_nonempty := standard_hash_nonempty

/-- There is a verdict on every word about them. -/
theorem standard_readable : standard.ReadableHashing := fun _ word other =>
  ⟨_, Argon2.verify_hash Vector.length_toList word other⟩

end Primitives

end SecondFactor
