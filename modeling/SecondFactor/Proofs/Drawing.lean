import Mathlib.Data.List.Perm.Subperm
import Mathlib.Data.Nat.Nth
import SecondFactor.Proofs.BackupCode
import SecondFactor.Proofs.Laws

/-!
# How a set of codes is drawn

Characters are drawn without end, eight to a word, until ten different words have come up. The set
is made of these: a word counts where it comes up for the first time, wherever else it may come up
again, and the tenth such place ends the drawing. So a set is drawn from a row of random characters
if and only if the row has ten different words, and no set depends on what is drawn beyond.

## The architecture

* **`word`**, **`IsNew`** — the words of a row of characters, and the places where one is new.
* **`firsts`** — the different words up to a place, as they came up; **`firsts_succ`**,
  **`mem_firsts`**, **`firsts_eq_nth`** — what one more place adds, which words these are, and where
  they are.
* **`collect_firsts`** — the loop goes on from them, by induction on the places that follow;
  **`collect_words`** — what it draws.
* **`exists_ten_iff`** — the loop comes to an end if there are ten different words.
* **`CodeSet.Drawn`** — all that is said of a set; **`first_ten_words`** — it is so.
-/

namespace SecondFactor.BackupCode

/-! ## §1 — words -/

/-- A word of a row of characters, which is cut into words of eight. -/
def word (row : Nat → Fin 32) (j : Nat) : Draw := Vector.ofFn fun i => row (8 * j + i)

variable {w : Nat → Draw} {d : Draw} {n : Nat}

/-- A word comes up at this place for the first time. -/
def IsNew (w : Nat → Draw) (j : Nat) : Prop := ∀ i < j, w i ≠ w j

instance (w : Nat → Draw) : DecidablePred (IsNew w) := fun j =>
  inferInstanceAs (Decidable (∀ i < j, w i ≠ w j))

/-- A word that is not new came up before. -/
theorem not_isNew_iff : ¬ IsNew w n ↔ ∃ i < n, w i = w n := by
  simp [IsNew]

/-- The words that come up before a place, each once, in the order in which they first do. -/
def firsts (w : Nat → Draw) (n : Nat) : List Draw := ((List.range n).filter (IsNew w)).map w

/-- One more place adds its word, if this is new. -/
theorem firsts_succ (w : Nat → Draw) (n : Nat) :
    firsts w (n + 1) = if IsNew w n then firsts w n ++ [w n] else firsts w n := by
  unfold firsts
  rw [List.range_succ, List.filter_append, List.map_append, List.filter_singleton]
  by_cases hnew : IsNew w n
  · simp [hnew]
  · simp [hnew]

/-- **These are all the words so far.** Induction on the places. The order is lost here, and kept in
`firsts_prefix`. -/
theorem mem_firsts : d ∈ firsts w n ↔ ∃ i < n, w i = d := by
  induction n with
  | zero => exact ⟨nofun, nofun⟩
  | succ n ih =>
    rw [firsts_succ, Nat.exists_lt_succ_right]
    split
    · rw [List.mem_append, List.mem_singleton, ih, eq_comm (a := d)]
    · -- The word is not added, since it came up before.
      rename_i hseen
      rw [ih]
      refine ⟨.inl, fun h => h.elim id ?_⟩
      rintro rfl
      exact not_isNew_iff.1 hseen

/-- A word is among the ones before it exactly if it is not new. This is the test that the loop
makes. -/
theorem mem_firsts_self : w n ∈ firsts w n ↔ ¬ IsNew w n := mem_firsts.trans not_isNew_iff.symm

theorem firsts_prefix (w : Nat → Draw) (n k : Nat) : firsts w n <+: firsts w (n + k) := by
  refine List.IsPrefix.map w (List.IsPrefix.filter _ ?_)
  rw [List.range_add]
  exact List.prefix_append _ _

/-- The places of these words, one by one. Induction on the places. -/
theorem firsts_eq_nth (w : Nat → Draw) (n : Nat) :
    firsts w n = (List.range (Nat.count (IsNew w) n)).map fun i => w (Nat.nth (IsNew w) i) := by
  induction n with
  | zero => rw [Nat.count_zero]; rfl
  | succ n ih =>
    rw [firsts_succ, Nat.count_succ]
    split
    · rename_i hnew
      rw [List.range_succ, List.map_append, List.map_singleton, Nat.nth_count hnew, ih]
    · rw [Nat.add_zero, ih]

/-! ## §2 — the loop -/

/-- **The loop goes on from the different words so far** and ends with the first ten. Induction on
the places that follow. -/
theorem collect_firsts (k : Nat) (h : (firsts w n).length ≤ 10) :
    collect (firsts w n) ((List.range' n k).map w) =
      if 10 ≤ (firsts w (n + k)).length then some ((firsts w (n + k)).take 10) else none := by
  have hcount : count = 10 := rfl
  induction k generalizing n with
  | zero =>
    rw [List.range'_zero, List.map_nil, collect, hcount, Nat.add_zero]
    by_cases hten : (firsts w n).length = 10
    · rw [if_pos hten, if_pos (Nat.le_of_eq hten.symm), List.take_of_length_le h]
    · rw [if_neg hten, if_neg fun hle => hten (Nat.le_antisymm h hle)]
  | succ k ih =>
    have hnext := firsts_succ w n
    rw [List.range'_succ, List.map_cons, collect, hcount]
    by_cases hten : (firsts w n).length = 10
    · -- The loop has ended; more words do not change the first ten.
      have hprefix := firsts_prefix w n (k + 1)
      have htake := List.prefix_iff_eq_take.1 hprefix
      rw [hten] at htake
      rw [if_pos hten, if_pos (hten ▸ hprefix.length_le), ← htake]
    · have hshift : n + (k + 1) = n + 1 + k := by omega
      rw [if_neg hten, hshift]
      by_cases hnew : IsNew w n
      · rw [if_pos hnew] at hnext
        rw [if_neg (mem_firsts_self.not.2 (not_not.2 hnew)), ← hnext]
        refine ih ?_
        rw [hnext, List.length_append, List.length_singleton]
        omega
      · rw [if_neg hnew] at hnext
        rw [if_pos (mem_firsts_self.2 hnew), ← hnext]
        exact ih (hnext ▸ h)

/-- **What the loop draws**: the first ten different words, as soon as there are ten. Until then it
asks for more. -/
theorem collect_words (w : Nat → Draw) (n : Nat) :
    collect [] ((List.range n).map w) =
      if 10 ≤ (firsts w n).length then some ((firsts w n).take 10) else none := by
  have hloop := collect_firsts (w := w) (n := 0) n (Nat.zero_le 10)
  rwa [Nat.zero_add, ← List.range_eq_range'] at hloop

/-- Words that come up do so before some place. -/
theorem exists_bound {words : List Draw} (h : ∀ d ∈ words, ∃ j, w j = d) :
    ∃ n, ∀ d ∈ words, ∃ j < n, w j = d := by
  induction words with
  | nil => exact ⟨0, nofun⟩
  | cons d words ih =>
    obtain ⟨⟨j, hj⟩, hrest⟩ := List.forall_mem_cons.1 h
    obtain ⟨n, hn⟩ := ih hrest
    refine ⟨max n (j + 1), List.forall_mem_cons.2 ⟨⟨j, by omega, hj⟩, fun e he => ?_⟩⟩
    obtain ⟨i, hi, heq⟩ := hn e he
    exact ⟨i, by omega, heq⟩

/-- **The loop comes to an end if there are ten different words**, and only then. Nothing is said of
how long that takes; for random characters it is certain, but not bounded. -/
theorem exists_ten_iff : (∃ n, 10 ≤ (firsts w n).length) ↔
    ∃ words : List Draw, words.Nodup ∧ words.length = 10 ∧ ∀ d ∈ words, ∃ j, w j = d := by
  constructor
  · rintro ⟨n, hn⟩
    have hdrawn := collect_words w n
    rw [if_pos hn] at hdrawn
    refine ⟨_, nodup_collect List.nodup_nil hdrawn, List.length_take_of_le hn, fun d hd => ?_⟩
    obtain ⟨j, -, hj⟩ := mem_firsts.1 (List.mem_of_mem_take hd)
    exact ⟨j, hj⟩
  · rintro ⟨words, hwords, hten, hup⟩
    obtain ⟨n, hn⟩ := exists_bound hup
    have hsubset : words ⊆ firsts w n := fun d hd => mem_firsts.2 (hn d hd)
    exact ⟨n, hten ▸ (hwords.subperm hsubset).length_le⟩

/-! ## §3 — sets -/

/-- The draws are the first words of a row of characters. -/
def Stream.From (s : Stream) (row : Nat → Fin 32) : Prop :=
  ∃ n, s.draws = (List.range n).map (word row)

/-- The codes of a stream that was cut from an infinite row are the new words of that row, counted
from the start. What comes after the tenth does not matter. -/
theorem Stream.codes_of_from {s : Stream} {row : Nat → Fin 32} (h : s.From row) :
    s.codes = (List.range 10).map fun i => (word row (Nat.nth (IsNew (word row)) i)).text := by
  obtain ⟨n, hn⟩ := h
  have hdrawn : collect [] s.draws = some ((collect [] s.draws).get s.enough) :=
    (Option.some_get s.enough).symm
  unfold codes
  -- Which draws the codes are follows from the loop alone, not from the proof that there are
  -- enough.
  generalize (collect [] s.draws).get s.enough = drawn at hdrawn ⊢
  rw [hn, collect_words] at hdrawn
  split at hdrawn
  · rename_i hten
    cases hdrawn
    rw [firsts_eq_nth, List.length_map, List.length_range] at hten
    rw [firsts_eq_nth, ← List.map_take, List.take_range, Nat.min_eq_left hten, List.map_map]
    rfl
  · cases hdrawn

/-- What is said of a set that is drawn from words. -/
structure CodeSet.Drawn (P : Primitives) (k : Kdf) (owner : Uuid) (w : Nat → Draw)
    (set : CodeSet) : Prop where
  /-- The codes are the words at the first ten places where one is new. -/
  codes : set.codes = (List.range 10).map fun i => (w (Nat.nth (IsNew w) i)).text
  different : set.codes.Nodup
  written : ∀ code ∈ set.codes, code.length = 8 ∧ (∀ c ∈ code.toList, c ∈ alphabet) ∧
    normalize code = .ok code
  /-- Each code has its hash at its own place. -/
  hashed : set.hashes.length = 10 ∧ ∀ i : Nat, set.hashes[i]? = set.codes[i]?.map (hash P k owner)

/-- A word is written with eight characters of the alphabet, and is read as it is written. -/
theorem written_text (d : Draw) : d.text.length = 8 ∧ (∀ c ∈ d.text.toList, c ∈ alphabet) ∧
    normalize d.text = .ok d.text := by
  refine ⟨?_, fun c hc => ?_, normalize_text d⟩
  · rw [Draw.text_eq, String.length_ofList]
    exact d.length_chars
  · rw [Draw.text_eq, String.toList_ofList] at hc
    obtain ⟨i, -, rfl⟩ := List.mem_map.1 hc
    have hspec : ∀ i : Fin 32, alphabet.getD i.val 'A' ∈ alphabet := by decide
    exact hspec i

/-- **A set is made of the first ten different words**, whatever the random characters are. It is
drawn if and only if there are ten different words; its codes are these in the order in which they
first come up, each with its own hash, and each of them is entered as it is written. -/
theorem first_ten_words (P : Primitives) (k : Kdf) (owner : Uuid) (row : Nat → Fin 32) :
    ((∃ s : Stream, s.From row) ↔
      ∃ words : List Draw, words.Nodup ∧ words.length = 10 ∧ ∀ d ∈ words, ∃ j, word row j = d) ∧
    ∀ s : Stream, s.From row → (s.generate P k owner).Drawn P k owner (word row) := by
  refine ⟨?_, fun s hs => ?_⟩
  · rw [← exists_ten_iff]
    constructor
    · -- With fewer words, the loop would be drawing still.
      rintro ⟨s, n, hn⟩
      have henough := s.enough
      rw [hn, collect_words] at henough
      by_contra hfew
      rw [if_neg fun hten => hfew ⟨n, hten⟩] at henough
      cases henough
    · -- Ten different words come up before some place, and the stream is cut there.
      rintro ⟨n, hn⟩
      refine ⟨⟨(List.range n).map (word row), ?_⟩, n, rfl⟩
      rw [collect_words, if_pos hn]
      rfl
  · have hcodes := Stream.codes_of_from hs
    refine ⟨hcodes, s.nodup_codes, fun code hcode => ?_, ?_, fun i => List.getElem?_map⟩
    · obtain ⟨d, rfl⟩ := Stream.draw_of_mem hcode
      exact written_text d
    · show (s.codes.map _).length = 10
      rw [List.length_map, hcodes, List.length_map, List.length_range]

/-! Every word comes up twice, so that nineteen have to be drawn. -/

/-- A row of characters in which each block of eight comes twice. -/
def doubled (m : Nat) : Fin 32 := ⟨m / 16 % 32, Nat.mod_lt _ (by decide)⟩

/-- The words that are drawn from it until there are ten. -/
def Stream.doubled : Stream where
  draws := (List.range 19).map (word BackupCode.doubled)
  enough := by decide +kernel

/-- The codes are the ten words in the order in which they come up, each once. -/
theorem first_ten_words_doubled :
    Stream.doubled.From doubled ∧
    (Stream.doubled.generate .transparent .single (.ofByte 1)).codes =
      ["AAAAAAAA", "BBBBBBBB", "CCCCCCCC", "DDDDDDDD", "EEEEEEEE", "FFFFFFFF", "GGGGGGGG",
        "HHHHHHHH", "JJJJJJJJ", "KKKKKKKK"] ∧
    (Stream.doubled.generate .transparent .single (.ofByte 1)).Drawn .transparent .single
      (.ofByte 1) (word doubled) ∧
    ∃ words : List Draw, words.Nodup ∧ words.length = 10 ∧
      ∀ d ∈ words, ∃ j, word doubled j = d := by
  have hfrom : Stream.doubled.From doubled := ⟨19, rfl⟩
  obtain ⟨hends, hdrawn⟩ := first_ten_words .transparent .single (.ofByte 1) doubled
  exact ⟨hfrom, by decide +kernel, hdrawn _ hfrom, hends.1 ⟨_, hfrom⟩⟩

end SecondFactor.BackupCode
