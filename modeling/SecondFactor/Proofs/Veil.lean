import SecondFactor.Proofs.Dropping
import SecondFactor.Proofs.Service.Steady

/-!
# States that differ in hidden rows

Two states may differ in some rows of the stores: in those that have expired, say, or in those of
another account. They are alike if nothing is left of the difference once these rows are dropped.
Dropping rows commutes with what an operation does, so an operation for an account whose hidden rows
have all expired does not see what is hidden.

## The architecture

* **`Staging.Veiled`**, **`Session.Veiled`** — what is not hidden is the same.
* **`Staging.Concealed`** — an account of which all pending secrets are hidden.
* **`Veil`** and **`Veil.likeness`** — states that differ in hidden rows, as a notion of likeness;
  **`Veil.lawful`** and **`Veil.knows`** — what the steps of operations do to them.
-/

namespace SecondFactor

/-! ## §1 — pending secrets behind a veil -/

namespace Staging

variable {p q : Uuid × Pending → Bool} {s t : Staging} {owner : Uuid} {entry : Pending}
  {names names' : List ImageRef}

/-- What is not hidden is the same. -/
structure Veiled (p : Uuid × Pending → Bool) (names : List ImageRef) (s t : Staging) : Prop where
  same : s.drop p = t.drop p
  left : s.Tidy names
  right : t.Tidy names

/-- An entry of the account that is hidden, or none. -/
def Concealed (p : Uuid × Pending → Bool) (s : Staging) (owner : Uuid) : Prop :=
  ∀ entry, s.entries.get? owner = some entry → p (owner, entry) = true

/-- A hidden entry can as well be discarded. -/
theorem drop_discard (hs : s.entries.Keyed) (h : s.Concealed p owner) :
    (s.discard owner).drop p = s.drop p := by
  rw [discard_eq_drop hs, drop_drop]
  refine drop_congr fun row hrow => ?_
  cases hkey : row.1 == owner with
  | false => rfl
  | true =>
    obtain rfl : row.1 = owner := by simpa using hkey
    rw [Bool.true_or, h row.2 (hs.get?_iff.2 hrow)]

/-- The entry of an account is changed, and neither the old one nor the new one is hidden. Then the
change is made to what is seen. -/
theorem drop_put (hs : s.entries.Keyed) (hentry : s.entries.get? owner = some entry)
    (hp : p (owner, entry) = false) {entry' : Pending} (hp' : p (owner, entry') = false) :
    drop p { s with entries := s.entries.put owner entry' } =
      { s.drop p with entries := (s.drop p).entries.put owner entry' } := by
  have hentries : List.filter (fun row => !p row) (s.entries.put owner entry') =
      Table.put (s.entries.filter fun row => !p row) owner entry' := by
    unfold Table.put Table.erase
    rw [List.filter_cons_of_pos (by simp [hp']), List.filter_filter, List.filter_filter]
    congr 1
    exact List.filter_congr fun row _ => Bool.and_comm _ _
  have hshows : shows { s with entries := s.entries.put owner entry' } p = s.shows p := by
    refine shows_congr fun r => exists_congr fun row => ?_
    refine ⟨fun ⟨hrow, hhidden, hr⟩ => ?_, fun ⟨hrow, hhidden, hr⟩ => ?_⟩
    · rcases List.mem_cons.1 hrow with rfl | hrow
      · cases hp'.symm.trans hhidden
      · exact ⟨(List.mem_filter.1 hrow).1, hhidden, hr⟩
    · refine ⟨List.mem_cons_of_mem _ (List.mem_filter.2 ⟨hrow, ?_⟩), hhidden, hr⟩
      -- The row of the account is not hidden.
      rw [decide_eq_true_iff]
      rintro rfl
      cases (hs.get?_iff.2 hrow).symm.trans hentry
      cases hp.symm.trans hhidden
  unfold drop
  rw [hentries, hshows]

/-- A changed entry keeps its image, so that no image comes to belong to two entries. -/
theorem Tidy.put (h : s.Tidy names) (hentry : s.entries.get? owner = some entry)
    {entry' : Pending} (himage : entry'.image = entry.image) :
    Tidy names { s with entries := s.entries.put owner entry' } := by
  have hother : ∀ other ∈ (s.drop fun row => row.1 == owner).entries, other.1 ≠ owner :=
    fun other hmem => by simpa using (List.mem_filter.1 hmem).2
  have hway := h.makes_way hentry
  rw [← himage] at hway
  have hpushed : ((s.drop fun row => row.1 == owner).push (owner, entry')).Tidy names :=
    hway.push hother
  have hentries : ((s.drop fun row => row.1 == owner).push (owner, entry')).entries =
      s.entries.put owner entry' := by
    show _ :: List.filter _ _ = _ :: List.filter _ _
    congr 1
    exact List.filter_congr fun row _ => by by_cases h : row.1 = owner <;> simp [h]
  have hkeys := hpushed.keys
  have himages := hpushed.images
  rw [hentries] at hkeys himages
  exact ⟨hkeys, himages⟩

/-- A look at an entry that has expired finds nothing, and discards it. It is the same as if there
had been none. -/
theorem look_of_expired {lifetime : Int} {now : Instant}
    (h : ∀ entry, s.entries.get? owner = some entry →
      isExpired? lifetime now entry = some true) :
    s.look lifetime now owner = (.ok none, s.discard owner) := by
  unfold look discard
  cases hentry : s.entries.get? owner with
  | none => rfl
  | some entry =>
    dsimp only
    rw [h entry hentry]

/-- An amendment of an entry goes by its age. -/
theorem amend_of_entry {lifetime : Int} {now : Instant} {f : Pending → Pending}
    (hentry : s.entries.get? owner = some entry) : s.amend lifetime now owner f =
      match isExpired? lifetime now entry with
      | none => (.error .crash, s)
      | some true => (.ok (), s.discard owner)
      | some false => (.ok (), { s with entries := s.entries.put owner (f entry) }) := by
  unfold amend look
  rw [hentry]
  dsimp only
  cases isExpired? lifetime now entry with
  | none => rfl
  | some expired => cases expired <;> rfl

namespace Veiled

theorem fewer (h : Veiled p names s t) (hfewer : names'.Subperm names) : Veiled p names' s t :=
  ⟨h.same, h.left.fewer hfewer, h.right.fewer hfewer⟩

/-- The entry of an account is the same and not hidden, or it is hidden wherever there is one. All
that follows is told apart by these two cases. -/
theorem cases (h : Veiled p names s t) (owner : Uuid) :
    (∃ entry, p (owner, entry) = false ∧ s.entries.get? owner = some entry ∧
      t.entries.get? owner = some entry) ∨ (s.Concealed p owner ∧ t.Concealed p owner) := by
  have hshown : (s.entries.get? owner).filter (fun entry => !p (owner, entry)) =
      (t.entries.get? owner).filter fun entry => !p (owner, entry) := by
    rw [← h.left.keys.get?_filter fun row => !p row, ← h.right.keys.get?_filter fun row => !p row]
    exact congrArg (fun u : Staging => u.entries.get? owner) h.same
  cases hfound : (s.entries.get? owner).filter fun entry => !p (owner, entry) with
  | some entry =>
    rw [hfound] at hshown
    obtain ⟨hs, hentry⟩ := Option.filter_eq_some_iff.1 hfound
    obtain ⟨ht, -⟩ := Option.filter_eq_some_iff.1 hshown.symm
    exact .inl ⟨entry, by simpa using hentry, hs, ht⟩
  | none =>
    rw [hfound] at hshown
    refine .inr ⟨fun entry hentry => ?_, fun entry hentry => ?_⟩
    · simpa using Option.filter_eq_none_iff.1 hfound entry hentry
    · simpa using Option.filter_eq_none_iff.1 hshown.symm entry hentry

/-- Discarding the entry of an account makes the two stores no less alike, whether the entry was
hidden or not. -/
theorem discard (h : Veiled p names s t) (owner : Uuid) :
    Veiled p names (s.discard owner) (t.discard owner) where
  same := by
    rw [discard_eq_drop h.left.keys, discard_eq_drop h.right.keys, drop_comm, h.same, drop_comm]
  left := h.left.discard owner
  right := h.right.discard owner

/-- Discarding on a condition may come about in one of the stores only. Then the entry was hidden in
it, and its loss is not seen. -/
theorem discardIf (h : Veiled p names s t) (owner id : Uuid) :
    Veiled p names (s.discardIf owner id) (t.discardIf owner id) := by
  have htidy : ∀ {u : Staging}, u.Tidy names → (u.discardIf owner id).Tidy names := by
    intro u hu
    unfold Staging.discardIf
    split
    · exact hu.discard owner
    · exact hu
  rcases h.cases owner with ⟨entry, -, hs, ht⟩ | ⟨hs, ht⟩
  · unfold Staging.discardIf
    rw [hs, ht]
    split
    · exact h.discard owner
    · exact h
  · -- Whether a hidden entry is the one that is named makes no difference.
    have hsame : ∀ {u : Staging}, u.Tidy names → u.Concealed p owner →
        (u.discardIf owner id).drop p = u.drop p := by
      intro u hu hconcealed
      unfold Staging.discardIf
      split
      · exact drop_discard hu.keys hconcealed
      · rfl
    refine ⟨?_, htidy h.left, htidy h.right⟩
    rw [hsame h.left hs, hsame h.right ht, h.same]

/-- **A set-up fails in both cases, or in neither.** It fails if its image cannot be saved, and that
depends on the folder and on what stands under the new name, neither of which is hidden. -/
theorem enter (h : Veiled p (entry.image :: names) s t) (content : Bytes) :
    (∃ cause, s.enter owner entry content = .error cause ∧
      t.enter owner entry content = .error cause) ∨
    ∃ s' t', s.enter owner entry content = .ok s' ∧ t.enter owner entry content = .ok t' ∧
      Veiled p names s' t' := by
  -- The images that are dropped are others than the one that is saved.
  have hsave : ∀ {u : Staging}, u.Tidy (entry.image :: names) →
      (u.drop p).gallery.save entry.image content =
        (u.gallery.save entry.image content).map (Gallery.sweep (u.shows p)) :=
    fun hu => Gallery.save_sweep (shows_eq_false.2 fun row hrow _ => hu.image_ne row hrow) _ content
  have hboth : (s.gallery.save entry.image content).map (Gallery.sweep (s.shows p)) =
      (t.gallery.save entry.image content).map (Gallery.sweep (t.shows p)) := by
    rw [← hsave h.left, ← hsave h.right, h.same]
  have hs := enter_eq h.left.keys owner entry content
  have ht := enter_eq h.right.keys owner entry content
  cases hleft : s.gallery.save entry.image content with
  | error cause =>
    rw [hleft] at hboth hs
    rw [map_eq_error.1 hboth.symm] at ht
    exact .inl ⟨cause, hs, ht⟩
  | ok gallery =>
    rw [hleft] at hboth hs
    obtain ⟨gallery', hright, hgallery⟩ := map_eq_ok.1 hboth.symm
    rw [hright] at ht
    refine .inr ⟨_, _, hs, ht, ?_, h.left.enter hs, h.right.enter ht⟩
    have hsaved : drop p { s with gallery } = drop p { t with gallery := gallery' } :=
      congrArg₂ Staging.mk (congrArg entries h.same) hgallery.symm
    refine drop_push_congr ?_ _
    rw [drop_comm, hsaved, drop_comm]

end Veiled

section Expiring

variable {lifetime : Int} {now : Instant}
  (hexpired : ∀ entry, p (owner, entry) = true → isExpired? lifetime now entry = some true)

include hexpired

/-- **A look finds the same**, where hidden entries of the account have expired. One that is hidden
is dropped in passing, and the look finds nothing, as where there is none. -/
theorem Veiled.look (h : Veiled p names s t) :
    (s.look lifetime now owner).1 = (t.look lifetime now owner).1 ∧
      Veiled p names (s.look lifetime now owner).2 (t.look lifetime now owner).2 := by
  rcases h.cases owner with ⟨entry, -, hs, ht⟩ | ⟨hs, ht⟩
  · unfold Staging.look
    rw [hs, ht]
    dsimp only
    cases isExpired? lifetime now entry with
    | none => exact ⟨rfl, h⟩
    | some expired => cases expired with
      | true => exact ⟨rfl, h.discard owner⟩
      | false => exact ⟨rfl, h⟩
  · rw [look_of_expired fun entry hentry => hexpired entry (hs entry hentry),
      look_of_expired fun entry hentry => hexpired entry (ht entry hentry)]
    exact ⟨rfl, h.discard owner⟩

/-- A change of the entry is the same, if it leaves its image and does not hide it. -/
theorem Veiled.amend {f : Pending → Pending} (himage : ∀ entry, (f entry).image = entry.image)
    (hshown : ∀ entry, p (owner, entry) = false → p (owner, f entry) = false)
    (h : Veiled p names s t) :
    (s.amend lifetime now owner f).1 = (t.amend lifetime now owner f).1 ∧
      Veiled p names (s.amend lifetime now owner f).2 (t.amend lifetime now owner f).2 := by
  -- The entry is the same in both stores, or it is hidden where there is one. A hidden entry has
  -- expired, so an amendment only discards it.
  rcases h.cases owner with ⟨entry, hp, hs, ht⟩ | ⟨hs, ht⟩
  · rw [amend_of_entry hs, amend_of_entry ht]
    cases isExpired? lifetime now entry with
    | none => exact ⟨rfl, h⟩
    | some expired => cases expired with
      | true => exact ⟨rfl, h.discard owner⟩
      | false =>
        refine ⟨rfl, ?_, h.left.put hs (himage entry), h.right.put ht (himage entry)⟩
        have hp' := hshown entry hp
        show drop p _ = drop p _
        rw [drop_put h.left.keys hs hp hp', drop_put h.right.keys ht hp hp', h.same]
  · have hlook : ∀ {u : Staging}, u.Concealed p owner →
        u.amend lifetime now owner f = (.ok (), u.discard owner) := by
      intro u hu
      unfold Staging.amend
      rw [look_of_expired fun entry hentry => hexpired entry (hu entry hentry)]
    rw [hlook hs, hlook ht]
    exact ⟨rfl, h.discard owner⟩

/-- The image of an entry that was found is the same. It is not swept away with hidden entries, as
none of them shows it. -/
theorem Veiled.read (h : Veiled p names s t) (hentry : s.entries.get? owner = some entry)
    (hlasting : isExpired? lifetime now entry = some false) :
    s.gallery.read entry.image = t.gallery.read entry.image := by
  have hp : p (owner, entry) = false := by
    cases hp : p (owner, entry) with
    | false => rfl
    | true => cases (hexpired entry hp).symm.trans hlasting
  have hread : ∀ {u : Staging}, u.Tidy names → u.entries.get? owner = some entry →
      (u.drop p).gallery.read entry.image = u.gallery.read entry.image := by
    intro u hu hfound
    refine Gallery.read_sweep (shows_eq_false.2 fun row hrow hhidden himage => ?_) u.gallery
    -- The image is that of the one entry, which is not hidden.
    rw [hu.eq_of_image hrow (Table.mem_of_get? hfound) himage, hp] at hhidden
    cases hhidden
  rcases h.cases owner with ⟨other, -, hs, ht⟩ | ⟨hs, -⟩
  · cases hs.symm.trans hentry
    rw [← hread h.left hs, ← hread h.right ht, h.same]
  · cases (hs entry hentry).symm.trans hp

end Expiring

end Staging

/-! ## §2 — tokens behind a veil -/

namespace Session

variable {h : Entry → Bool} {registry registry' : Registry}

/-- The tokens in use without those that are hidden. -/
def unveiled (h : Entry → Bool) (registry : Registry) : Registry :=
  registry.keep fun entry => !h entry

/-- The tokens that are not hidden are the same. -/
structure Veiled (h : Entry → Bool) (registry registry' : Registry) : Prop where
  same : unveiled h registry = unveiled h registry'
  left : Table.Keyed registry
  right : Table.Keyed registry'

theorem keep_comm (p q : Entry → Bool) (registry : Registry) :
    Table.keep (registry.keep p) q = Table.keep (registry.keep q) p := by
  unfold Table.keep
  rw [List.filter_filter, List.filter_filter]
  exact List.filter_congr fun row _ => Bool.and_comm _ _

/-- A token that is put is seen, or it only takes another one away. -/
theorem unveiled_put (key : Key) (entry : Entry) (registry : Registry) :
    unveiled h (registry.put key entry) = if h entry then Table.erase (unveiled h registry) key
      else Table.put (unveiled h registry) key entry := by
  have herase : unveiled h (Table.erase registry key) = Table.erase (unveiled h registry) key := by
    unfold unveiled Table.keep Table.erase
    rw [List.filter_filter, List.filter_filter]
    exact List.filter_congr fun row _ => Bool.and_comm _ _
  have hcons : unveiled h (registry.put key entry) =
      if !h entry then (key, entry) :: unveiled h (registry.erase key)
      else unveiled h (registry.erase key) := by
    unfold unveiled Table.keep Table.put
    rw [List.filter_cons]
  rw [hcons, herase]
  cases h entry <;> rfl

namespace Veiled

theorem put (hv : Veiled h registry registry') (key : Key) (entry : Entry) :
    Veiled h (registry.put key entry) (registry'.put key entry) where
  same := by rw [unveiled_put, unveiled_put, hv.same]
  left := hv.left.put
  right := hv.right.put

/-- Tokens are dropped from both, for a reason that is read off the row. -/
theorem keep (hv : Veiled h registry registry') (p : Entry → Bool) :
    Veiled h (registry.keep p) (registry'.keep p) where
  same := by
    unfold unveiled
    rw [keep_comm, keep_comm p]
    exact congrArg (Table.keep · p) hv.same
  left := hv.left.filter _
  right := hv.right.filter _

/-- A new pair is handed out in both registries, with the same texts. -/
theorem issue (hv : Veiled h registry registry') (P : Primitives) (lifetimes : Lifetimes)
    (now : Instant) (draws : Draws) (owner : Uuid) (claim : Claim) :
    (issue P lifetimes now draws owner claim registry).1 =
        (issue P lifetimes now draws owner claim registry').1 ∧
      Veiled h (issue P lifetimes now draws owner claim registry).2
        (issue P lifetimes now draws owner claim registry').2 := by
  unfold Session.issue
  dsimp only
  cases now.after? lifetimes.access with
  | none => exact ⟨rfl, hv⟩
  | some expires => cases now.after? lifetimes.refresh with
    | none => exact ⟨rfl, hv.put _ _⟩
    | some expires' => exact ⟨rfl, (hv.put _ _).put _ _⟩

theorem get?_eq (hv : Veiled h registry registry') (key : Key) :
    (registry.get? key).filter (fun entry => !h entry) =
      (registry'.get? key).filter fun entry => !h entry := by
  rw [← hv.left.get?_filter fun row => !h row.2, ← hv.right.get?_filter fun row => !h row.2]
  exact congrArg (Table.get? · key) hv.same

theorem find? {P : Primitives} {kind : Kind} {now : Instant} {token : String} {entry : Entry}
    (hv : Veiled h registry registry') (hfound : find? P kind now token registry = some entry)
    (hshown : h entry = false) : Session.find? P kind now token registry' = some entry := by
  obtain ⟨hget, hlasting⟩ := Option.filter_eq_some_iff.1 hfound
  have hget' := hv.get?_eq (digest P token)
  rw [hget, Option.filter_some, hshown] at hget'
  exact Option.filter_eq_some_iff.2 ⟨(Option.filter_eq_some_iff.1 hget'.symm).1, hlasting⟩

end Veiled

end Session

/-! ## §3 — states behind a veil -/

/-- What of the stores is hidden. -/
structure Veil where
  /-- What is said about the ledgers of two states. -/
  ledger : Ledger → Ledger → Prop
  pending : Uuid × Pending → Bool
  token : Session.Entry → Bool

namespace Veil

variable (V : Veil)

/-- States that differ in what is hidden are alike. -/
def likeness : Likeness where
  ledger := V.ledger
  staging names := Staging.Veiled V.pending (names.map Prod.snd)
  sessions := Session.Veiled V.token

variable {V}

/-- A veil hides nothing of the accounts, so that addresses are found. -/
theorem lawful (haddress : ∀ email, Carries V.ledger fun l => (l.findByEmail? email, l)) :
    V.likeness.Lawful where
  address := haddress
  fewer hfewer h := by
    obtain ⟨l, hperm, hsublist⟩ := hfewer
    exact h.fewer ⟨_, hperm.map Prod.snd, hsublist.map Prod.snd⟩
  arrive h content := h.enter content

/-- **An operation does not see what is hidden**, if the hidden entries of its account have
expired. -/
theorem knows {o : Occasion} {owner : Uuid}
    (htransact : ∀ {α : Type} {f : Ledger → α × Ledger}, Ledger.Within owner f →
      Carries V.ledger f)
    (hexpired : ∀ entry, V.pending (owner, entry) = true →
      Staging.isExpired? o.deployment.pendingLifetime o.now entry = some true)
    (hsecret : ∀ entry secret,
      V.pending (owner, { entry with secret }) = V.pending (owner, entry)) :
    V.likeness.Knows o owner where
  transact hf := htransact hf.within
  contents h := .of_eq (htransact Ledger.record_within h).1
  record h := (htransact Ledger.record_within h).1
  look _ _ _ h := h.look hexpired
  restage id secret _ _ _ h := by
    refine Staging.Veiled.amend hexpired (fun entry => ?_) (fun entry hentry => ?_) h
    · split <;> rfl
    · split
      · rw [hsecret, hentry]
      · exact hentry
  discard _ _ _ h := ⟨rfl, h.discard owner⟩
  discardIf id _ _ _ h := ⟨rfl, h.discardIf owner id⟩
  read h hentry hlasting := h.read hexpired hentry hlasting
  issue claim _ _ h := h.issue _ _ _ _ owner claim
  revokeOwner h := ⟨rfl, h.keep fun entry => entry.owner ≠ owner⟩

theorem drops (family : Uuid) : V.likeness.Drops family := fun h =>
  ⟨rfl, h.keep fun entry => entry.family ≠ family⟩

end Veil

end SecondFactor
