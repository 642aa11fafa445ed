import SecondFactor.Proofs.CodeCourse

/-!
# Books on backup codes

The rows of an account are always those of the codes of its set that are left, and no code was used
twice. This is an invariant of every run, which each of the four courses of a turn keeps. It takes
that no two codes that play a part for the account have one hash.

## The architecture

* **`History.codesLeft`** — the codes of the set that were not accepted yet.
* **`Booked`** — the invariant; **`Booked.renewed`**, **`Booked.spent`** and so on — what each
  course makes of it.
* **`booked`** — the run, by induction on the history.
-/

namespace SecondFactor

open Service (Call Reply)

/-! ## §1 — every run -/

/-- The codes of the set that were not accepted yet. -/
def History.codesLeft (D : Deployment) (owner : Uuid) (h : History) : List String :=
  (h.codeSet D owner).filter fun code => code ∉ h.spentCodes D owner

/-- **The rows of an account are those of the codes that are left**, and no code was used twice. -/
structure Booked (D : Deployment) (owner : Uuid) (h : History) : Prop where
  rows : (h.state D).ledger.codesOf owner = (h.codesLeft D owner).map (codeRow D owner)
  different : (h.codeSet D owner).Nodup
  once : (h.spentCodes D owner).Nodup
  ours : ∀ code ∈ h.spentCodes D owner, code ∈ h.codeSet D owner
  drawn : ∀ code ∈ h.codeSet D owner, code ∈ h.codeTexts D owner
  ten : h.codeSet D owner = [] ∨ (h.codeSet D owner).length = BackupCode.count

section Runs

variable {D : Deployment} {h : History} {t : Turn} {owner : Uuid} {code : String}

namespace History

theorem codeSet_renewed (h' : t.renewsCodes D (h.state D) owner = true) :
    (h.turn t).codeSet D owner = t.draws.codes.codes ∧ (h.turn t).spentCodes D owner = [] := by
  rw [codeSet, spentCodes, if_pos h', if_pos h']
  exact ⟨rfl, rfl⟩

/-- The books are closed when the record is off before the turn or after it. A record that is turned
off and on again in between has lost its codes. -/
theorem codeSet_dropped (hrenews : t.renewsCodes D (h.state D) owner = false)
    (hoff : t.staysOn D (h.state D) owner = false) :
    (h.turn t).codeSet D owner = [] ∧ (h.turn t).spentCodes D owner = [] := by
  rw [codeSet, spentCodes, hrenews, hoff]
  exact ⟨rfl, rfl⟩

/-- Otherwise the set stays, and the turn adds at most the code that it spends. -/
theorem codeSet_kept (hrenews : t.renewsCodes D (h.state D) owner = false)
    (hon : t.staysOn D (h.state D) owner = true) :
    (h.turn t).codeSet D owner = h.codeSet D owner ∧ (h.turn t).spentCodes D owner =
      (t.spends? D (h.state D) owner).toList ++ h.spentCodes D owner := by
  rw [codeSet, spentCodes, hrenews, hon]
  exact ⟨rfl, rfl⟩

/-- Texts are only added, so what is assumed of all of them at the end was so all along. -/
theorem codeTexts_before (hcode : code ∈ h.codeTexts D owner) :
    code ∈ (h.turn t).codeTexts D owner :=
  List.mem_append_right _ hcode

theorem codeTexts_entered (hentered : t.entered? D (h.state D) owner = some code) :
    code ∈ (h.turn t).codeTexts D owner := by
  refine List.mem_append_left _ (List.mem_append_right _ ?_)
  rw [hentered]
  exact List.mem_singleton_self code

theorem codeTexts_drawn (hrenews : t.renewsCodes D (h.state D) owner = true)
    (hcode : code ∈ t.draws.codes.codes) : code ∈ (h.turn t).codeTexts D owner := by
  refine List.mem_append_left _ (List.mem_append_left _ ?_)
  rw [if_pos hrenews]
  exact hcode

/-- The assumption on hashes is made of a whole run, and passes to each part of it. -/
theorem Collisionless.before (hhash : (h.turn t).Collisionless D owner) :
    h.Collisionless D owner :=
  fun code hcode other hother => hhash code (codeTexts_before hcode) other (codeTexts_before hother)

theorem mem_codesLeft :
    code ∈ h.codesLeft D owner ↔ code ∈ h.codeSet D owner ∧ code ∉ h.spentCodes D owner := by
  rw [codesLeft, List.mem_filter, decide_eq_true_iff]

end History

theorem Turn.entered?_of_spends? {s : State} (hspends : t.spends? D s owner = some code) :
    t.entered? D s owner = some code := by
  rw [Turn.spends?] at hspends
  split at hspends
  · cases hspends
  · exact hspends

namespace Booked

/-- With no set there is nothing to book. This is the case of the beginning, and of every turn with
the record off before it or behind. -/
theorem of_nil (hset : h.codeSet D owner = []) (hspent : h.spentCodes D owner = [])
    (hrows : (h.state D).ledger.codesOf owner = []) : Booked D owner h where
  rows := by
    rw [hrows, History.codesLeft, hset]
    rfl
  different := hset ▸ List.nodup_nil
  once := hspent ▸ List.nodup_nil
  ours := by
    rw [hspent]
    nofun
  drawn := by
    rw [hset]
    nofun
  ten := .inl hset

/-- The case of a renewal: the rows are those of the codes drawn, which are ten and different, and
none of them is used yet. -/
theorem renewed (hrenews : t.renewsCodes D (h.state D) owner = true)
    (hrows : (t.next D (h.state D)).ledger.codesOf owner =
      t.draws.codes.codes.map (codeRow D owner)) : Booked D owner (h.turn t) := by
  obtain ⟨hset, hspent⟩ := History.codeSet_renewed hrenews
  refine ⟨?_, ?_, hspent ▸ List.nodup_nil, ?_, ?_, .inr ?_⟩
  · show (t.next D (h.state D)).ledger.codesOf owner = _
    rw [hrows, History.codesLeft, hset, hspent]
    congr 1
    exact (List.filter_eq_self.2 fun _ _ => rfl).symm
  · rw [hset]
    exact t.draws.codes.nodup_codes
  · rw [hspent]
    nofun
  · intro code hcode
    rw [hset] at hcode
    exact History.codeTexts_drawn hrenews hcode
  · rw [hset]
    exact t.draws.codes.length_codes

/-- The case of a turn that neither draws nor spends. -/
theorem kept (hb : Booked D owner h) (hrenews : t.renewsCodes D (h.state D) owner = false)
    (hspends : t.spends? D (h.state D) owner = none)
    (hon : t.staysOn D (h.state D) owner = true)
    (hrows : (t.next D (h.state D)).ledger.codesOf owner =
      (h.state D).ledger.codesOf owner) : Booked D owner (h.turn t) := by
  obtain ⟨hset, hspent⟩ := History.codeSet_kept hrenews hon
  rw [hspends, Option.toList_none, List.nil_append] at hspent
  refine ⟨?_, hset ▸ hb.different, hspent ▸ hb.once, ?_, ?_, hset ▸ hb.ten⟩
  · show (t.next D (h.state D)).ledger.codesOf owner = _
    rw [hrows, hb.rows, History.codesLeft, History.codesLeft, hset, hspent]
  · rw [hset, hspent]
    exact hb.ours
  · rw [hset]
    exact fun code hcode => History.codeTexts_before (hb.drawn code hcode)

/-- A code whose row is there is left. -/
theorem left_of_row (hb : Booked D owner h) {other : History}
    (hhash : other.Collisionless D owner)
    (hdrawn : ∀ code ∈ h.codeSet D owner, code ∈ other.codeTexts D owner)
    (hcode : code ∈ other.codeTexts D owner)
    (hrow : codeRow D owner code ∈ (h.state D).ledger.codes) : code ∈ h.codesLeft D owner := by
  have hours : codeRow D owner code ∈ (h.state D).ledger.codesOf owner :=
    List.mem_filter.2 ⟨hrow, decide_eq_true rfl⟩
  rw [hb.rows] at hours
  obtain ⟨found, hfound, heq⟩ := List.mem_map.1 hours
  have hin := (History.mem_codesLeft.1 hfound).1
  rwa [hhash code hcode found (hdrawn found hin) (congrArg Prod.snd heq).symm]

/-- A code that is left has its row, so a call that looks for the row will find it. -/
theorem row_of_left (hb : Booked D owner h) (hcode : code ∈ h.codesLeft D owner) :
    codeRow D owner code ∈ (h.state D).ledger.codes := by
  have hours : codeRow D owner code ∈ (h.state D).ledger.codesOf owner := by
    rw [hb.rows]
    exact List.mem_map_of_mem hcode
  exact (List.mem_filter.1 hours).1

/-- The rows of different codes are different. -/
theorem nodup_rows (hb : Booked D owner h) (hhash : h.Collisionless D owner) :
    ((h.state D).ledger.codesOf owner).Nodup := by
  rw [hb.rows]
  refine List.Nodup.map_on ?_ (hb.different.filter _)
  intro code hcode other hother heq
  exact hhash code (hb.drawn code (History.mem_codesLeft.1 hcode).1) other
    (hb.drawn other (History.mem_codesLeft.1 hother).1) (congrArg Prod.snd heq)

/-- The case of a code that is spent. It is here that two codes must not share a hash: what is
consumed is a row, and the row has to be that of the code that was entered. -/
theorem spent (hb : Booked D owner h) (hhash : (h.turn t).Collisionless D owner)
    (hrenews : t.renewsCodes D (h.state D) owner = false)
    (hspends : t.spends? D (h.state D) owner = some code)
    (hon : t.staysOn D (h.state D) owner = true)
    (hrow : codeRow D owner code ∈ (h.state D).ledger.codes)
    (hcodes : (t.next D (h.state D)).ledger.codes =
      (h.state D).ledger.codes.erase (codeRow D owner code)) :
    code ∈ h.codesLeft D owner ∧ Booked D owner (h.turn t) := by
  obtain ⟨hset, hspent⟩ := History.codeSet_kept hrenews hon
  rw [hspends, Option.toList_some, List.singleton_append] at hspent
  have hentered : code ∈ (h.turn t).codeTexts D owner :=
    History.codeTexts_entered (Turn.entered?_of_spends? hspends)
  have hdrawn : ∀ other ∈ h.codeSet D owner, other ∈ (h.turn t).codeTexts D owner :=
    fun other hother => History.codeTexts_before (hb.drawn other hother)
  -- The row that goes is the row of a code of the set, and without collisions of this one.
  have hleft := hb.left_of_row hhash hdrawn hentered hrow
  obtain ⟨hin, hnew⟩ := History.mem_codesLeft.1 hleft
  refine ⟨hleft, ?_, hset ▸ hb.different, ?_, ?_, ?_, hset ▸ hb.ten⟩
  · -- The rows lose that of the code, and the codes that are left lose the code.
    show (t.next D (h.state D)).ledger.codesOf owner = _
    rw [Ledger.codesOf_of_consumed hcodes,
      (hb.nodup_rows hhash.before).erase_eq_filter, hb.rows, List.filter_map]
    congr 1
    rw [History.codesLeft, History.codesLeft, hset, hspent, List.filter_filter]
    refine List.filter_congr fun other hother => ?_
    have hrows : codeRow D owner other = (owner, BackupCode.hash D.primitives D.kdf owner code) ↔
        other = code :=
      ⟨fun heq => hhash other (hdrawn other hother) code hentered (congrArg Prod.snd heq),
        congrArg (codeRow D owner)⟩
    rw [Bool.eq_iff_iff]
    simp [hrows]
  · rw [hspent]
    exact List.nodup_cons.2 ⟨hnew, hb.once⟩
  · rw [hset, hspent]
    intro other hother
    rcases List.mem_cons.1 hother with rfl | hother
    · exact hin
    · exact hb.ours other hother
  · rw [hset]
    exact hdrawn

end Booked

/-- **The run.** Induction on the history. That an account has codes only beside a record that is
on carries the turns in which the record goes off or comes on. -/
theorem booked (hword : ∀ salt word, D.primitives.hashWord salt word ≠ "")
    (hrun : h.All fun _ t => t.Undisturbed) (hhash : h.Collisionless D owner) :
    Booked D owner h := by
  induction h with
  | start gallery => exact .of_nil rfl rfl rfl
  | turn h t ih =>
    have hb := ih hrun.1 hhash.before
    have hbefore := (shaped hword hrun.1).ledger
    have hafter : ((h.turn t).state D).ledger.Shaped := (shaped hword hrun).ledger
    have hcourse : t.CodeCourse D (h.state D) owner := codeCourse hrun.2.current
    cases hcourse with
    | renewed hrenews hrows => exact .renewed hrenews hrows
    | spent hrenews hspends hon hrow hcodes =>
      exact (hb.spent hhash hrenews hspends hon hrow hcodes).2
    | dropped hrenews _ hoff hrows =>
      obtain ⟨hset, hspent⟩ := History.codeSet_dropped hrenews hoff
      exact .of_nil hset hspent hrows
    | kept hrenews hspends hrows =>
      cases hon : t.staysOn D (h.state D) owner with
      | true => exact hb.kept hrenews hspends hon hrows
      | false =>
        obtain ⟨hset, hspent⟩ := History.codeSet_dropped hrenews hon
        refine .of_nil hset hspent ?_
        -- A record that is off has no codes beside it, whether it is off before the turn or behind
        -- it.
        rcases Bool.and_eq_false_iff.1 hon with hoff | hoff
        · exact hrows.trans (hbefore.codesOf_eq_nil hoff)
        · exact hafter.codesOf_eq_nil hoff

end Runs

end SecondFactor
