import Mathlib.Data.List.Nodup
import SecondFactor.Proofs.Json.Written
import SecondFactor.Proofs.Results
import SecondFactor.Proofs.Service.Queries

/-!
# Rows that are dropped

To hide pending secrets from a store is to drop them, with their images. Dropping rows commutes with
everything that an operation does to the store, as long as the table has one row for each key and no
two pending secrets share an image. To discard an entry is itself to drop a row, so that much of
this comes down to dropping twice.

## The architecture

* **`Table.Keyed`** — a table with one row for each key.
* **`Gallery.sweep`**, **`Staging.drop`** — the stores without some rows; **`drop_drop`**,
  **`discard_eq_drop`** — to discard an entry is to drop a row.
* **`Staging.Tidy`** — tables with one row for each key, and images for one entry each, with a view
  to the set-ups that are still to come.
* **`enter_eq`**, **`drop_push`** — a set-up, before and after rows are dropped.
-/

namespace SecondFactor

/-! ## §1 — tables -/

namespace Table

variable {κ α : Type} [DecidableEq κ] {t : Table κ α} {k : κ} {v : α}

/-- A table that has one row for each key. -/
def Keyed (t : Table κ α) : Prop := (t.map Prod.fst).Nodup

instance (t : Table κ α) : Decidable t.Keyed := inferInstanceAs (Decidable (t.map Prod.fst).Nodup)

omit [DecidableEq κ] in
theorem Keyed.filter (h : t.Keyed) (p : κ × α → Bool) : Keyed (t.filter p) :=
  h.sublist (List.filter_sublist.map _)

theorem Keyed.put (h : t.Keyed) : (t.put k v).Keyed := by
  refine List.nodup_cons.2 ⟨fun hk => ?_, h.filter _⟩
  obtain ⟨row, hrow, rfl⟩ := List.mem_map.1 hk
  exact of_decide_eq_true (List.mem_filter.1 hrow).2 rfl

/-- In such a table, to find a value is to have its row. This lets the lookups below be argued by
rows. -/
theorem Keyed.get?_iff (h : t.Keyed) : t.get? k = some v ↔ (k, v) ∈ t :=
  ⟨mem_of_get?, Json.lookup_of_mem h⟩

theorem Keyed.get?_filter (h : t.Keyed) (p : κ × α → Bool) :
    get? (t.filter p) k = (t.get? k).filter fun v => p (k, v) := by
  ext v
  rw [(h.filter p).get?_iff, List.mem_filter, ← h.get?_iff, Option.filter_eq_some_iff]

end Table

/-! ## §2 — images that are dropped -/

namespace Gallery

variable {q q' : ImageRef → Bool} {g : Gallery} {r : ImageRef}

/-- The gallery without the images of some names. A folder stays. -/
def sweep (q : ImageRef → Bool) : Gallery → Gallery
  | .directory items => .directory (items.filter fun item => !(q item.1 && item.2 != .folder))
  | g => g

theorem delete_eq_sweep (g : Gallery) (r : ImageRef) : g.delete r = g.sweep (· == r) := by
  cases g with
  | blocked | missing => rfl
  | directory items => rfl

/-- Two sweeps are one, so that it does not matter in which order images go. -/
theorem sweep_sweep (q q' : ImageRef → Bool) (g : Gallery) :
    (g.sweep q).sweep q' = g.sweep fun r => q r || q' r := by
  cases g with
  | blocked | missing => rfl
  | directory items =>
    show Gallery.directory _ = .directory _
    rw [List.filter_filter]
    congr 1
    refine List.filter_congr fun item _ => ?_
    dsimp only
    cases q item.1 <;> cases q' item.1 <;> cases item.2 != .folder <;> rfl

/-- A sweep that spares everything does nothing. -/
theorem sweep_none (h : ∀ r, q r = false) (g : Gallery) : g.sweep q = g := by
  cases g with
  | blocked | missing => rfl
  | directory items =>
    show Gallery.directory _ = _
    rw [List.filter_eq_self.2 fun item _ => by rw [h item.1]; rfl]

/-- What is spared by a sweep is found as before. -/
theorem lookup_sweep (h : q r = false) (items : List (ImageRef × Item)) :
    (items.filter fun item => !(q item.1 && item.2 != .folder)).lookup r = items.lookup r := by
  induction items with
  | nil => rfl
  | cons item items ih =>
    by_cases hitem : item.1 = r
    · have hstays : (!(q item.1 && item.2 != .folder)) = true := by rw [hitem, h]; rfl
      rw [List.filter_cons_of_pos (by exact hstays), List.lookup_cons, List.lookup_cons, hitem]
      simp
    · have hother : (r == item.1) = false := beq_false_of_ne (Ne.symm hitem)
      rw [List.lookup_cons, hother, ← ih, List.filter_cons]
      split
      · rw [List.lookup_cons, hother]
      · rfl

theorem item?_sweep (h : q r = false) (g : Gallery) : (g.sweep q).item? r = g.item? r := by
  cases g with
  | blocked | missing => rfl
  | directory items => exact lookup_sweep h items

theorem read_sweep (h : q r = false) (g : Gallery) : (g.sweep q).read r = g.read r := by
  cases g with
  | blocked | missing => rfl
  | directory items =>
    unfold read sweep
    dsimp only
    rw [lookup_sweep h]

/-- An image that is saved stands under its name, and everything else stays. A file of that name is
overwritten, which is why names of images have to be new. -/
theorem item?_save {g' : Gallery} {content : Bytes} (h : g.save r content = .ok g')
    (other : ImageRef) :
    g'.item? other = if other = r then some (.image content) else g.item? other := by
  unfold save at h
  split at h
  · cases h
  · rename_i prepared hprepared
    have hsame : prepared.item? other = g.item? other := by
      cases g with
      | blocked => cases hprepared
      | missing | directory =>
        cases hprepared
        rfl
    split at h
    · cases h
    · cases h
      rw [← hsame]
      exact Table.get?_put prepared.items r other _

/-- Saving an image under another name does not interfere. The sweep may therefore come before the
set-up or after it. -/
theorem save_sweep (h : q r = false) (g : Gallery) (content : Bytes) :
    (g.sweep q).save r content = (g.save r content).map (sweep q) := by
  have hstays : (!(q r && Item.image content != .folder)) = true := by rw [h]; rfl
  cases g with
  | blocked => rfl
  | missing =>
    show Except.ok (Gallery.directory [(r, .image content)]) = .ok (.directory (List.filter _ _))
    rw [List.filter_cons_of_pos (by exact hstays)]
    rfl
  | directory items =>
    have hsave : ∀ items : List (ImageRef × Item), save (.directory items) r content =
        if items.lookup r = some .folder then .error (.internal .imageWrite)
        else .ok (.directory ((r, .image content) :: items.filter fun item => item.1 ≠ r)) :=
      fun _ => rfl
    show save (.directory _) r content = _
    rw [hsave, hsave, lookup_sweep h]
    split
    · rfl
    · show Except.ok (Gallery.directory _) = .ok (.directory (List.filter _ _))
      rw [List.filter_cons_of_pos (by exact hstays), List.filter_filter, List.filter_filter]
      congr 3
      exact List.filter_congr fun item _ => Bool.and_comm _ _

end Gallery

/-! ## §3 — pending secrets that are dropped -/

namespace Staging

variable {p q : Uuid × Pending → Bool} {s t : Staging} {owner : Uuid} {entry : Pending}

/-- Whether an image is that of an entry of some kind. -/
def shows (s : Staging) (p : Uuid × Pending → Bool) (r : ImageRef) : Bool :=
  s.entries.any fun row => p row && row.2.image == r

/-- What is left of tidy pending secrets is tidy. -/
def drop (p : Uuid × Pending → Bool) (s : Staging) : Staging where
  entries := s.entries.filter fun row => !p row
  gallery := s.gallery.sweep (s.shows p)

/-- A row may be added if it brings its own key and its own image. -/
def push (s : Staging) (row : Uuid × Pending) : Staging := { s with entries := row :: s.entries }

/-- An image goes with the rows that show it. -/
theorem shows_iff {r : ImageRef} :
    s.shows p r = true ↔ ∃ row ∈ s.entries, p row = true ∧ row.2.image = r := by
  simp only [shows, List.any_eq_true, Bool.and_eq_true, beq_iff_eq]

theorem shows_eq_false {r : ImageRef} :
    s.shows p r = false ↔ ∀ row ∈ s.entries, p row = true → row.2.image ≠ r := by
  rw [← Bool.not_eq_true, shows_iff]
  push Not
  rfl

theorem shows_congr (h : ∀ r, (∃ row ∈ s.entries, p row = true ∧ row.2.image = r) ↔
    ∃ row ∈ t.entries, q row = true ∧ row.2.image = r) : s.shows p = t.shows q := by
  funext r
  rw [Bool.eq_iff_iff, shows_iff, shows_iff, h r]

/-- Dropping some rows and then others is dropping either. An image goes with the first of its rows
that does; where each image has one row, as here, nothing else goes. -/
theorem drop_drop (p q : Uuid × Pending → Bool) (s : Staging) :
    (s.drop p).drop q = s.drop fun row => p row || q row := by
  unfold drop
  rw [List.filter_filter, Gallery.sweep_sweep]
  congr 1
  · refine List.filter_congr fun row _ => ?_
    rw [Bool.not_or, Bool.and_comm]
  · -- An image that is named by a row of both kinds goes either way.
    congr 1
    funext r
    rw [Bool.eq_iff_iff, Bool.or_eq_true, shows_iff, shows_iff, shows_iff]
    simp only [List.mem_filter, Bool.or_eq_true, Bool.not_eq_true']
    constructor
    · rintro (⟨row, hrow, hp, hr⟩ | ⟨row, ⟨hrow, -⟩, hq, hr⟩)
      · exact ⟨row, hrow, .inl hp, hr⟩
      · exact ⟨row, hrow, .inr hq, hr⟩
    · rintro ⟨row, hrow, hpq, hr⟩
      cases hp : p row with
      | true => exact .inl ⟨row, hrow, hp, hr⟩
      | false =>
        rcases hpq with hp' | hq
        · rw [hp] at hp'
          cases hp'
        · exact .inr ⟨row, ⟨hrow, hp⟩, hq, hr⟩

/-- Only the rows that are there matter. -/
theorem drop_congr (h : ∀ row ∈ s.entries, p row = q row) : s.drop p = s.drop q := by
  unfold drop
  congr 1
  · exact List.filter_congr fun row hrow => by rw [h row hrow]
  · congr 1
    exact shows_congr fun r => exists_congr fun row => and_congr_right fun hrow => by
      rw [h row hrow]

/-- Rows may be dropped in either order. A purge therefore may come before other droppings or after
them. -/
theorem drop_comm (p q : Uuid × Pending → Bool) (s : Staging) :
    (s.drop p).drop q = (s.drop q).drop p := by
  rw [drop_drop, drop_drop]
  exact drop_congr fun row _ => Bool.or_comm _ _

/-- What is dropped with less is dropped with more. -/
theorem drop_of_drop (hpq : ∀ row, p row = true → q row = true) (h : s.drop p = t.drop p) :
    s.drop q = t.drop q := by
  have hq : (fun row => p row || q row) = q := by
    funext row
    cases hp : p row with
    | true => rw [hpq row hp]; rfl
    | false => rfl
  rw [← hq, ← drop_drop, h, drop_drop]

/-- Dropping no row does nothing. -/
theorem drop_none (h : ∀ row ∈ s.entries, p row = false) : s.drop p = s := by
  unfold drop
  rw [List.filter_eq_self.2 fun row hrow => by rw [h row hrow]; rfl, Gallery.sweep_none]
  intro r
  rw [shows_eq_false]
  intro row hrow hp
  cases (h row hrow).symm.trans hp

/-- **To discard an entry is to drop its row.** From here on discarding, expiring and purging are
one operation with different reasons. -/
theorem discard_eq_drop (hs : s.entries.Keyed) (owner : Uuid) :
    s.discard owner = s.drop fun row => row.1 == owner := by
  unfold discard
  cases hentry : s.entries.get? owner with
  | none =>
    refine (drop_none fun row hrow => beq_false_of_ne ?_).symm
    rintro rfl
    rw [hs.get?_iff.2 hrow] at hentry
    cases hentry
  | some entry =>
    unfold drop
    dsimp only
    rw [Gallery.delete_eq_sweep]
    congr 1
    · refine List.filter_congr fun row _ => ?_
      by_cases h : row.1 = owner <;> simp [h]
    · congr 1
      funext r
      rw [Bool.eq_iff_iff, beq_iff_eq, shows_iff]
      constructor
      · rintro rfl
        exact ⟨(owner, entry), Table.mem_of_get? hentry, beq_self_eq_true owner, rfl⟩
      · rintro ⟨row, hrow, hkey, rfl⟩
        -- The table has one row for the account.
        obtain rfl : row.1 = owner := by simpa using hkey
        rw [hs.get?_iff.2 hrow] at hentry
        cases hentry
        rfl

/-! ### Tidy stagings -/

variable {names names' : List ImageRef}

/-- Each account has one entry and each image is that of one; no set-up that is still to come has
the image of an entry or of another one. -/
structure Tidy (names : List ImageRef) (s : Staging) : Prop where
  keys : s.entries.Keyed
  images : (names ++ s.entries.map fun row => row.2.image).Nodup

instance (names : List ImageRef) (s : Staging) : Decidable (s.Tidy names) :=
  decidable_of_iff (s.entries.Keyed ∧ (names ++ s.entries.map fun row => row.2.image).Nodup)
    ⟨fun ⟨hkeys, himages⟩ => ⟨hkeys, himages⟩, fun h => ⟨h.keys, h.images⟩⟩

namespace Tidy

theorem fewer (h : s.Tidy names) (hfewer : names'.Subperm names) : s.Tidy names' where
  keys := h.keys
  images := by
    obtain ⟨l, hperm, hsublist⟩ := hfewer
    exact (hperm.append_right _).nodup_iff.1 (h.images.sublist (hsublist.append_right _))

theorem drop (h : s.Tidy names) (p : Uuid × Pending → Bool) : (s.drop p).Tidy names where
  keys := h.keys.filter _
  images := h.images.sublist ((List.filter_sublist.map _).append_left _)

theorem discard (h : s.Tidy names) (owner : Uuid) : (s.discard owner).Tidy names := by
  rw [discard_eq_drop h.keys]
  exact h.drop _

theorem eq_of_image (h : s.Tidy names) {row other : Uuid × Pending} (hrow : row ∈ s.entries)
    (hother : other ∈ s.entries) (himage : row.2.image = other.2.image) : row = other :=
  List.inj_on_of_nodup_map (List.nodup_append.1 h.images).2.1 hrow hother himage

theorem image_ne {r : ImageRef} (h : s.Tidy (r :: names)) :
    ∀ row ∈ s.entries, row.2.image ≠ r := by
  intro row hrow himage
  have hnew := (List.nodup_cons.1 h.images).1
  exact hnew (List.mem_append.2 (.inr (List.mem_map.2 ⟨row, hrow, himage⟩)))

theorem push {row : Uuid × Pending} (h : s.Tidy (row.2.image :: names))
    (hkey : ∀ other ∈ s.entries, other.1 ≠ row.1) : (s.push row).Tidy names where
  keys := by
    refine List.nodup_cons.2 ⟨fun hk => ?_, h.keys⟩
    obtain ⟨other, hother, hsame⟩ := List.mem_map.1 hk
    exact hkey other hother hsame
  images := List.perm_middle.nodup_iff.2 h.images

/-- An entry that takes the place of another one may have its image. -/
theorem makes_way (h : s.Tidy names) (hentry : s.entries.get? owner = some entry) :
    (s.drop fun row => row.1 == owner).Tidy (entry.image :: names) where
  keys := h.keys.filter _
  images := by
    have hmem := Table.mem_of_get? hentry
    have hparts := List.nodup_append.1 h.images
    refine List.nodup_cons.2 ⟨fun himage => ?_, (h.drop _).images⟩
    rcases List.mem_append.1 himage with hname | hrow
    · exact hparts.2.2 _ hname _ (List.mem_map.2 ⟨_, hmem, rfl⟩) rfl
    · obtain ⟨row, hrow, hsame⟩ := List.mem_map.1 hrow
      obtain ⟨hrow, hkey⟩ := List.mem_filter.1 hrow
      rw [h.eq_of_image hrow hmem hsame] at hkey
      simp at hkey

end Tidy

/-! ### Set-ups -/

/-- A set-up saves its image, drops the row of the account, and puts its own. -/
theorem enter_eq (hs : s.entries.Keyed) (owner : Uuid) (entry : Pending) (content : Bytes) :
    s.enter owner entry content = (s.gallery.save entry.image content).map fun gallery =>
      (drop (fun row => row.1 == owner) { s with gallery }).push (owner, entry) := by
  unfold enter
  congr 1
  funext gallery
  unfold put
  rw [discard_eq_drop (s := { s with gallery }) hs]
  unfold push Table.put Table.erase drop
  dsimp only
  congr 2
  exact List.filter_eq_self.2 fun row hrow => by simpa using (List.mem_filter.1 hrow).2

/-- A set-up uses up its image name, and no other set-up will use it again. -/
theorem Tidy.enter (h : s.Tidy (entry.image :: names)) {content : Bytes}
    (henter : s.enter owner entry content = .ok t) : t.Tidy names := by
  rw [enter_eq h.keys] at henter
  obtain ⟨gallery, -, rfl⟩ := map_eq_ok.1 henter
  have hsaved : Tidy (entry.image :: names) { s with gallery } := ⟨h.keys, h.images⟩
  refine (hsaved.drop _).push fun other hother => ?_
  simpa using (List.mem_filter.1 hother).2

/-- A row that is added is dropped along with the others, or stays with its image. With `enter_eq`
this says what a set-up does to a store of which rows are dropped. -/
theorem drop_push (p : Uuid × Pending → Bool) (s : Staging) (row : Uuid × Pending) :
    (s.push row).drop p = if p row then
      { s.drop p with gallery := (s.drop p).gallery.sweep (· == row.2.image) }
    else (s.drop p).push row := by
  have hshows : ∀ r, (s.push row).shows p r = (p row && row.2.image == r || s.shows p r) :=
    fun _ => rfl
  cases hp : p row with
  | true =>
    have himages : (s.push row).shows p = fun r => s.shows p r || r == row.2.image := by
      funext r
      rw [hshows, hp, Bool.true_and, Bool.or_comm, Bool.beq_comm]
    rw [if_pos rfl, drop, himages, ← Gallery.sweep_sweep]
    congr 1
    exact List.filter_cons_of_neg (by simp [hp])
  | false =>
    have himages : (s.push row).shows p = s.shows p := by
      funext r
      rw [hshows, hp, Bool.false_and, Bool.false_or]
    rw [if_neg Bool.false_ne_true, drop, himages]
    unfold push drop
    congr 1
    exact List.filter_cons_of_pos (by simp [hp])

theorem drop_push_congr (h : s.drop p = t.drop p) (row : Uuid × Pending) :
    (s.push row).drop p = (t.push row).drop p := by
  rw [drop_push, drop_push, h]

end Staging

end SecondFactor
