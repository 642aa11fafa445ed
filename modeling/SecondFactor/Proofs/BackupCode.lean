import Mathlib.Data.List.Nodup
import SecondFactor.BackupCode
import SecondFactor.Proofs.RecoveryKey

/-!
# Backup codes as they are drawn, shown and entered

The codes of a set are ten different texts of eight symbols. Each can be shown, and every spelling
of what is shown gives the code again, so that a code is told from the others by what is typed in.

## The architecture

* **`Draw.text_injective`**, **`Draw.symbolic`** — what the text of a draw is made of.
* **`Stream.nodup_codes`** — the codes of a set are different.
* **`normalize_text`** — a drawn code is its own normal form.
* **`display?_text`**, **`displayed_of_drawn`** — a drawn code has a shown form, and so have
  several; **`Stream.displayed`** — and a set.
* **`normalize_of_shown`** — every spelling of the shown form gives the code.
-/

namespace SecondFactor.BackupCode

/-! ## Texts of draws -/

/-- The characters of the text of a draw. -/
def Draw.chars (d : Draw) : List Char := d.toList.map fun i => alphabet.getD i.val 'A'

theorem Draw.text_eq (d : Draw) : d.text = String.ofList d.chars := rfl

theorem Draw.length_chars (d : Draw) : d.chars.length = length := by
  rw [chars, List.length_map]
  exact Vector.length_toList

/-- The letters and digits of the alphabet are not separators, and are capitals already: the normal
form leaves them as they are. -/
theorem symbolic_of_alphabet (i : Fin 32) : Symbolic (alphabet.getD i.val 'A') := by
  have hspec : ∀ i : Fin 32, (alphabet.getD i.val 'A').utf8Size = 1 ∧
      alphabet.getD i.val 'A' ≠ '-' ∧ alphabet.getD i.val 'A' ≠ ' ' ∧
      (alphabet.getD i.val 'A').toUpper = alphabet.getD i.val 'A' := by
    decide
  obtain ⟨hsize, hhyphen, hspace, hupper⟩ := hspec i
  exact ⟨hsize, hhyphen, hspace, hupper⟩

theorem Draw.symbolic (d : Draw) : ∀ c ∈ d.chars, Symbolic c := by
  intro c hc
  obtain ⟨i, -, rfl⟩ := List.mem_map.1 hc
  exact symbolic_of_alphabet i

/-- The characters of the alphabet are different, so a text tells its draw. -/
theorem Draw.text_injective {d e : Draw} (h : d.text = e.text) : d = e := by
  have hchars : d.chars = e.chars := by
    have htexts := congrArg String.toList h
    rwa [text_eq, text_eq, String.toList_ofList, String.toList_ofList] at htexts
  have halphabet : ∀ i j : Fin 32, alphabet.getD i.val 'A' = alphabet.getD j.val 'A' → i = j := by
    decide +kernel
  exact Vector.toList_inj.1 ((List.map_inj_right halphabet).1 hchars)

/-! ## Sets of codes -/

/-- No draw is taken twice. Induction on the stream, with whatever was drawn before. This is why the
codes of a set are different although draws may repeat. -/
theorem nodup_collect {drawn stream out : List Draw} (hdrawn : drawn.Nodup)
    (h : collect drawn stream = some out) : out.Nodup := by
  induction stream generalizing drawn with
  | nil =>
    unfold collect at h
    split at h
    · cases h
      exact hdrawn
    · cases h
  | cons d stream ih =>
    unfold collect at h
    split at h
    · cases h
      exact hdrawn
    · split at h
      · -- The word came up before and is drawn again.
        exact ih hdrawn h
      · rename_i hnew
        -- A new word is put behind those that were taken, and it is none of them.
        refine ih ?_ h
        rw [List.nodup_append]
        refine ⟨hdrawn, List.nodup_singleton d, ?_⟩
        intro a ha b hb
        rw [List.mem_singleton.1 hb]
        rintro rfl
        exact hnew ha

namespace Stream

variable {s : Stream} {code : String}

/-- A code of a set is the text of a draw, so what is shown of draws holds of codes. -/
theorem draw_of_mem (h : code ∈ s.codes) : ∃ d : Draw, code = d.text := by
  obtain ⟨d, -, rfl⟩ := List.mem_map.1 h
  exact ⟨d, rfl⟩

/-- **The codes of a set are different.** Counting codes is therefore counting draws. -/
theorem nodup_codes (s : Stream) : s.codes.Nodup := by
  have hcollected : ((collect [] s.draws).get s.enough).Nodup :=
    nodup_collect List.nodup_nil (Option.some_get s.enough).symm
  exact hcollected.map fun d e => Draw.text_injective

end Stream

/-! ## Shown forms -/

/-- All of the alphabet is ASCII, so that the codes have as many bytes as characters. -/
theorem size_text (d : Draw) : d.text.utf8ByteSize = length := by
  rw [Draw.text_eq, RecoveryKey.utf8ByteSize_ofList d.symbolic, d.length_chars]

/-- A drawn code is its own normal form. -/
theorem normalize_text (d : Draw) : normalize d.text = .ok d.text := by
  have hstrip : RecoveryKey.strip d.text = d.text := by
    rw [RecoveryKey.strip_eq, Draw.text_eq, String.toList_ofList,
      RecoveryKey.counted_symbolic d.symbolic]
  unfold normalize
  dsimp only
  rw [hstrip, if_pos (size_text d)]

/-- A drawn code is shown in two groups of four characters. -/
theorem display?_text (d : Draw) : display? d.text =
    some (String.ofList (d.chars.take 4) ++ "-" ++ String.ofList (d.chars.drop 4)) := by
  have hsplit : Bytes.ofText d.text = Bytes.ofText (String.ofList (d.chars.take 4)) ++
      Bytes.ofText (String.ofList (d.chars.drop 4)) := by
    rw [← RecoveryKey.ofText_append, List.take_append_drop, Draw.text_eq]
  have hfirst : (Bytes.ofText (String.ofList (d.chars.take 4))).length = 4 := by
    rw [Bytes.length_ofText, RecoveryKey.utf8ByteSize_ofList fun c hc =>
      d.symbolic c (List.mem_of_mem_take hc), List.length_take, d.length_chars]
    rfl
  have hlength : ¬ (Bytes.ofText d.text).length < 4 := by
    rw [Bytes.length_ofText, size_text]
    decide
  unfold display?
  dsimp only
  rw [if_neg hlength, hsplit, List.take_left' hfirst, List.drop_left' hfirst]
  simp only [Bytes.toText?_ofText]
  rfl

/-- Drawn codes can be shown. Induction on the codes. -/
theorem displayed_of_drawn {codes : List String} (h : ∀ code ∈ codes, ∃ d : Draw, code = d.text) :
    ∃ shown, codes.mapM display? = some shown ∧ codes.map display? = shown.map some := by
  induction codes with
  | nil => exact ⟨[], rfl, rfl⟩
  | cons code codes ih =>
    obtain ⟨d, rfl⟩ := h code List.mem_cons_self
    obtain ⟨shown, hall, hmap⟩ := ih fun other hother => h other (List.mem_cons_of_mem _ hother)
    obtain ⟨text, hfirst⟩ : ∃ text, display? d.text = some text := ⟨_, display?_text d⟩
    refine ⟨text :: shown, ?_, ?_⟩
    · rw [List.mapM_cons, hfirst, hall]
      rfl
    · rw [List.map_cons, List.map_cons, hfirst, hmap]

/-- **A set can be shown**, code by code. A request for new codes cannot fail for this reason after
it has written them. -/
theorem Stream.displayed (s : Stream) : ∃ shown,
    s.codes.mapM display? = some shown ∧ s.codes.map display? = shown.map some :=
  displayed_of_drawn fun _ => draw_of_mem

/-- **Every spelling of the shown form of a code gives the code.** Case, blanks and the dash between
the groups make no difference to who types it in. -/
theorem normalize_of_shown {d : Draw} {shown typed : String} (hshown : display? d.text = some shown)
    (h : Spells shown typed) : normalize typed = .ok d.text := by
  rw [display?_text, Option.some.injEq] at hshown
  have hstrip : RecoveryKey.strip typed = d.text := by
    rw [RecoveryKey.strip_of_spells h, ← hshown, RecoveryKey.strip_eq]
    simp only [String.toList_append, String.toList_ofList, List.append_assoc]
    rw [RecoveryKey.counted_append]
    show String.ofList (RecoveryKey.counted (d.chars.take 4) ++
      RecoveryKey.counted ('-' :: d.chars.drop 4)) = _
    rw [RecoveryKey.counted_cons_mark (.inl rfl), ← RecoveryKey.counted_append,
      List.take_append_drop, RecoveryKey.counted_symbolic d.symbolic, Draw.text_eq]
  unfold normalize
  dsimp only
  rw [hstrip, if_pos (size_text d)]

end SecondFactor.BackupCode
