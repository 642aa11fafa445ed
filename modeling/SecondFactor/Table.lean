/-!
# Tables

A table holds at most one value for each key it was written under. Writing a key puts its row in
front and drops the old one, so that what a look-up sees after a write can be said row by row.
-/

namespace SecondFactor

abbrev Table (κ α : Type) := List (κ × α)

namespace Table

variable {κ α : Type} [DecidableEq κ]

def get? (t : Table κ α) (k : κ) : Option α := t.lookup k

def erase (t : Table κ α) (k : κ) : Table κ α := t.filter fun row => row.1 ≠ k

def put (t : Table κ α) (k : κ) (v : α) : Table κ α := (k, v) :: t.erase k

/-- The table with the value under a key changed, if there is one. -/
def modify (t : Table κ α) (k : κ) (f : α → α) : Table κ α :=
  t.map fun row => if row.1 = k then (row.1, f row.2) else row

/-- The rows whose value is kept. -/
def keep (t : Table κ α) (p : α → Bool) : Table κ α := t.filter fun row => p row.2

@[simp] theorem get?_nil (k : κ) : get? ([] : Table κ α) k = none := rfl

theorem get?_cons (row : κ × α) (t : Table κ α) (k : κ) :
    get? (row :: t) k = if row.1 = k then some row.2 else get? t k := by
  unfold get?
  rw [List.lookup_cons]
  by_cases h : row.1 = k
  · rw [if_pos h, beq_iff_eq.2 h.symm]
  · rw [if_neg h, beq_eq_false_iff_ne.2 (Ne.symm h)]

@[simp] theorem get?_erase_self (t : Table κ α) (k : κ) : (t.erase k).get? k = none := by
  induction t with
  | nil => rfl
  | cons row t ih =>
    by_cases h : row.1 = k
    · simpa [erase, h] using ih
    · have : erase (row :: t) k = row :: erase t k := by simp [erase, h]
      rw [this, get?_cons, if_neg h, ih]

theorem get?_erase_of_ne (t : Table κ α) {k l : κ} (hne : l ≠ k) :
    (t.erase k).get? l = t.get? l := by
  induction t with
  | nil => rfl
  | cons row t ih =>
    by_cases h : row.1 = k
    · have : erase (row :: t) k = erase t k := by simp [erase, h]
      rw [this, ih, get?_cons, if_neg (fun hl => hne (hl.symm.trans h))]
    · have : erase (row :: t) k = row :: erase t k := by simp [erase, h]
      rw [this, get?_cons, get?_cons, ih]

@[simp] theorem get?_put_self (t : Table κ α) (k : κ) (v : α) : (t.put k v).get? k = some v := by
  simp [put, get?_cons]

theorem get?_put_of_ne (t : Table κ α) {k l : κ} (v : α) (hne : l ≠ k) :
    (t.put k v).get? l = t.get? l := by
  rw [put, get?_cons, if_neg (Ne.symm hne), get?_erase_of_ne t hne]

@[simp] theorem get?_modify_self (t : Table κ α) (k : κ) (f : α → α) :
    (t.modify k f).get? k = (t.get? k).map f := by
  induction t with
  | nil => rfl
  | cons row t ih =>
    have hcons : modify (row :: t) k f =
        (if row.1 = k then (row.1, f row.2) else row) :: modify t k f := rfl
    rw [hcons, get?_cons, get?_cons, ih]
    by_cases h : row.1 = k <;> simp [h]

theorem get?_modify_of_ne (t : Table κ α) {k l : κ} (f : α → α) (hne : l ≠ k) :
    (t.modify k f).get? l = t.get? l := by
  induction t with
  | nil => rfl
  | cons row t ih =>
    have hcons : modify (row :: t) k f =
        (if row.1 = k then (row.1, f row.2) else row) :: modify t k f := rfl
    rw [hcons, get?_cons, get?_cons, ih]
    by_cases h : row.1 = k
    · simp [h, Ne.symm hne]
    · simp [h]

theorem mem_of_get? {t : Table κ α} {k : κ} {v : α} (h : t.get? k = some v) : (k, v) ∈ t := by
  induction t with
  | nil => cases h
  | cons row t ih =>
    rw [get?_cons] at h
    split at h
    · rename_i hkey
      cases h
      exact List.mem_cons.2 (.inl (by rw [← hkey]))
    · exact List.mem_cons.2 (.inr (ih h))

/-! ## Look-ups after a change -/

theorem get?_erase (t : Table κ α) (k l : κ) :
    (t.erase k).get? l = if l = k then none else t.get? l := by
  split
  · rename_i h
    rw [h, get?_erase_self]
  · rename_i h
    exact get?_erase_of_ne t h

theorem get?_put (t : Table κ α) (k l : κ) (v : α) :
    (t.put k v).get? l = if l = k then some v else t.get? l := by
  split
  · rename_i h
    rw [h, get?_put_self]
  · rename_i h
    exact get?_put_of_ne t v h

theorem get?_modify (t : Table κ α) (k l : κ) (f : α → α) :
    (t.modify k f).get? l = if l = k then (t.get? k).map f else t.get? l := by
  split
  · rename_i h
    rw [h, get?_modify_self]
  · rename_i h
    exact get?_modify_of_ne t f h

end Table

end SecondFactor
