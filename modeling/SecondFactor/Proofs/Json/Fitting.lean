import Mathlib.Data.List.Forall2
import SecondFactor.Proofs.Json.Written
import SecondFactor.Proofs.Results

/-!
# What is read fits

Whatever document is read, by whomever it was written, the data that it gives fit the shapes that
they were read for: numbers are below their bounds.

## The architecture

* **`Fits`** — whether a datum is one of a shape.
* **One value** — `fits_of_readDatum`, from the tests that the readers make.
* **`fits_of_readPositions`**, **`fits_of_readMembers`** — the fields of a list and the members of
  an object, by induction on what is still to be read.
* **`fits_of_decodeRecord`** — the fields of a whole document.
-/

namespace SecondFactor.Json

/-! ## One value -/

/-- Whether a datum is one of a shape: of its kind, with numbers below the bound. -/
def Fits : Shape → Datum → Prop
  | .text, .text _ => True
  | .word bound, .word n => n < bound
  | .words bound, .words ns => ∀ n ∈ ns, n < bound
  | .choice _, .choice _ => True
  | _, _ => False

/-- The reader compares a number with the bound before it gives it out. -/
theorem lt_of_readWord {bound n : Nat} {bs rest : Bytes} (h : readWord bound bs = .ok (n, rest)) :
    n < bound := by
  unfold readWord at h
  split at h
  · cases h
  · split at h
    · obtain ⟨⟨number, tail⟩, -, h⟩ := bind_eq_ok.1 h
      cases number with
      | other => cases h
      | natural m =>
        by_cases hm : m < bound
        · simp only [hm, if_true] at h
          cases h
          exact hm
        · simp only [hm, if_false] at h
          cases h
    · cases h

/-- So it does for the items of a list. Induction on the fuel, which counts them. -/
theorem lt_of_readItems {bound : Nat} : ∀ {fuel : Nat} {first : Bool} {bs : Bytes} {ns : List Nat}
    {rest : Bytes}, readItems bound fuel first bs = .ok (ns, rest) → ∀ n ∈ ns, n < bound
  | 0, _, _, _, _, h => by cases h
  | fuel + 1, first, bs, ns, rest, h => by
    obtain ⟨next, -, h⟩ := bind_eq_ok.1 h
    cases next with
    | inr tail =>
      cases h
      simp
    | inl item =>
      obtain ⟨⟨n, tail⟩, hn, h⟩ := bind_eq_ok.1 h
      obtain ⟨⟨ms, tail⟩, hms, h⟩ := bind_eq_ok.1 h
      cases h
      exact List.forall_mem_cons.2 ⟨lt_of_readWord hn, lt_of_readItems hms⟩

/-- A list that is empty has nothing to compare. -/
theorem lt_of_readWords {bound : Nat} {bs : Bytes} {ns : List Nat} {rest : Bytes}
    (h : readWords bound bs = .ok (ns, rest)) : ∀ n ∈ ns, n < bound := by
  unfold readWords at h
  split at h
  · cases h
  · split at h
    · exact lt_of_readItems h
    · cases h

/-- **A value that is read fits its shape**, since each shape has its own reader. The bounds of
numbers are part of the shape. -/
theorem fits_of_readDatum {shape : Shape} {bs : Bytes} {d : Datum} {rest : Bytes}
    (h : readDatum shape bs = .ok (d, rest)) : Fits shape d := by
  cases shape with
  | text =>
    obtain ⟨⟨s, tail⟩, -, h⟩ := bind_eq_ok.1 h
    cases h
    trivial
  | word bound =>
    obtain ⟨⟨n, tail⟩, hn, h⟩ := bind_eq_ok.1 h
    cases h
    exact lt_of_readWord hn
  | words bound =>
    obtain ⟨⟨ns, tail⟩, hns, h⟩ := bind_eq_ok.1 h
    cases h
    exact lt_of_readWords hns
  | choice names =>
    obtain ⟨⟨name, tail⟩, -, h⟩ := bind_eq_ok.1 h
    cases h
    trivial

/-! ## Records -/

/-- The fields of a list fit, one by one. -/
theorem fits_of_readPositions : ∀ {fields : Fields} {first : Bool} {bs : Bytes} {ds : List Datum}
    {rest : Bytes}, readPositions fields first bs = .ok (ds, rest) →
      List.Forall₂ (fun field d => Fits field.2 d) fields ds
  | [], _, bs, ds, rest, h => by
    unfold readPositions at h
    split at h
    · cases h
    · split at h
      · cases h
        exact .nil
      · cases h
  | (name, shape) :: fields, first, bs, ds, rest, h => by
    obtain ⟨next, -, h⟩ := bind_eq_ok.1 h
    cases next with
    | inr tail => cases h
    | inl item =>
      obtain ⟨⟨d, tail⟩, hd, h⟩ := bind_eq_ok.1 h
      obtain ⟨⟨es, tail⟩, hes, h⟩ := bind_eq_ok.1 h
      cases h
      exact .cons (fits_of_readDatum hd) (fits_of_readPositions hes)

/-- Every datum found in an object fits the field that it was found for. Members under unknown names
are read over and never stored. -/
theorem fits_of_readMembers {fields : Fields} : ∀ {fuel : Nat} {first : Bool}
    {found : List (String × Datum)} {bs : Bytes} {found' : List (String × Datum)} {rest : Bytes},
    readMembers fields fuel first found bs = .ok (found', rest) →
      (∀ row ∈ found, ∃ shape, fields.lookup row.1 = some shape ∧ Fits shape row.2) →
      ∀ row ∈ found', ∃ shape, fields.lookup row.1 = some shape ∧ Fits shape row.2
  | 0, _, _, _, _, _, h, _ => by cases h
  | fuel + 1, first, found, bs, found', rest, h, hfound => by
    obtain ⟨next, -, h⟩ := bind_eq_ok.1 h
    cases next with
    | inr tail =>
      cases h
      exact hfound
    | inl tail =>
      obtain ⟨⟨name, tail⟩, -, h⟩ := bind_eq_ok.1 h
      cases hshape : fields.lookup name with
      | none =>
        simp only [hshape] at h
        obtain ⟨tail, -, h⟩ := bind_eq_ok.1 h
        obtain ⟨tail, -, h⟩ := bind_eq_ok.1 h
        exact fits_of_readMembers h hfound
      | some shape =>
        simp only [hshape] at h
        split at h
        · cases h
        · obtain ⟨tail, -, h⟩ := bind_eq_ok.1 h
          obtain ⟨⟨d, tail⟩, hd, h⟩ := bind_eq_ok.1 h
          refine fits_of_readMembers h (List.forall_mem_cons.2 ⟨?_, hfound⟩)
          exact ⟨shape, hshape, fits_of_readDatum hd⟩

/-! ## Documents -/

/-- What is looked up is in the list. -/
theorem mem_of_lookup {α β : Type} [DecidableEq α] {l : List (α × β)} {k : α} {v : β}
    (h : l.lookup k = some v) : (k, v) ∈ l := by
  induction l with
  | nil => cases h
  | cons row l ih =>
    rw [List.lookup_cons] at h
    by_cases hk : k = row.1
    · rw [beq_iff_eq.2 hk] at h
      cases h
      exact hk ▸ List.mem_cons_self
    · rw [beq_false_of_ne hk] at h
      exact List.mem_cons_of_mem _ (ih h)

/-- A look-up for each key that succeeds gives the values in the order of the keys. -/
theorem forall₂_of_mapM {α β : Type} {f : α → Option β} : ∀ {l : List α} {m : List β},
    l.mapM f = some m → List.Forall₂ (fun a b => a ∈ l ∧ f a = some b) l m
  | [], m, h => by
    cases h
    exact .nil
  | a :: l, m, h => by
    rw [List.mapM_cons] at h
    obtain ⟨b, hb, h⟩ := Option.bind_eq_some_iff.1 h
    obtain ⟨bs, hbs, h⟩ := Option.bind_eq_some_iff.1 h
    cases h
    refine .cons ⟨List.mem_cons_self, hb⟩ ((forall₂_of_mapM hbs).imp ?_)
    exact fun x y hxy => ⟨List.mem_cons_of_mem _ hxy.1, hxy.2⟩

/-- **What a document gives fits its fields.** Their names must differ, so that a name has one
shape. -/
theorem fits_of_decodeRecord {fields : Fields} (hfields : (fields.map Prod.fst).Nodup)
    {document : Bytes} {ds : List Datum} (h : decodeRecord fields document = .ok ds) :
    List.Forall₂ (fun field d => Fits field.2 d) fields ds := by
  obtain ⟨⟨es, rest⟩, hread, h⟩ := bind_eq_ok.1 h
  -- Behind the document there must be nothing.
  have hds : es = ds := by
    dsimp only at h
    split at h
    · cases h
      rfl
    · cases h
  subst hds
  unfold readRecord at hread
  split at hread
  · cases hread
  · split at hread
    · exact fits_of_readPositions hread
    · split at hread
      · obtain ⟨⟨found, tail⟩, hfound, hread⟩ := bind_eq_ok.1 hread
        have hfits := fits_of_readMembers hfound (by simp)
        dsimp only at hread
        split at hread
        · rename_i ds hds
          cases hread
          -- In an object every field is looked up by its name, and as names differ it gets the
          -- datum that was read for it.
          refine (forall₂_of_mapM hds).imp ?_
          rintro field d ⟨hfield, hd⟩
          obtain ⟨shape, hshape, hfit⟩ := hfits _ (mem_of_lookup hd)
          rw [lookup_of_mem hfields hfield] at hshape
          cases hshape
          exact hfit
        · cases hread
      · cases hread

end SecondFactor.Json
