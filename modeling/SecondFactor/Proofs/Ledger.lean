import SecondFactor.Ledger

/-!
# What a change does to an account

Every change of the ledger is about one account. The lemmas here say, for each change, what becomes
of the account and of its record, and that the others stay; a conditional change also says what it
has found.

## The architecture

* **Accounts** and **records** after a change, as look-ups under any key.
* **`enable?_eq`**, **`updateMain?_eq`**, **`changePassword?_some_eq`**, **`recover?_eq`** — the
  conditional changes: what was there, and what is there now.
* **Backup codes** after a conditional change.
-/

namespace SecondFactor

namespace FactorRecord

variable {r : FactorRecord} {c : Copies}

/-- A record is active when it is enabled and holds copies that are not empty. -/
theorem active?_eq_some : r.active? = some c ↔
    r.enabled = true ∧ r.main = some c.main ∧ r.backup = some c.backup ∧
      r.fingerprint = some c.fingerprint ∧ c.main ≠ [] ∧ c.backup ≠ [] ∧ c.fingerprint ≠ "" := by
  rcases r with ⟨main, backup, fingerprint, enabled, created, updated⟩
  rcases c with ⟨cmain, cbackup, cfingerprint⟩
  cases enabled <;> cases main <;> cases backup <;> cases fingerprint <;> simp [active?]
  grind

/-- The guard on the main copy asks for an enabled record that still has the copy that was read. -/
theorem hasMain_iff {main : Bytes} :
    r.hasMain main = true ↔ r.enabled = true ∧ r.main = some main := by
  rw [hasMain, Bool.and_eq_true, beq_iff_eq]

/-- The guard on the fingerprint is of the same form. -/
theorem hasFingerprint_iff {fingerprint : String} :
    r.hasFingerprint fingerprint = true ↔
      r.enabled = true ∧ r.fingerprint = some fingerprint := by
  rw [hasFingerprint, Bool.and_eq_true, beq_iff_eq]

theorem active?_ofCopies {created updated : Instant} (hmain : c.main ≠ []) (hbackup : c.backup ≠ [])
    (hfingerprint : c.fingerprint ≠ "") : (ofCopies c created updated).active? = some c :=
  active?_eq_some.2 ⟨rfl, rfl, rfl, rfl, hmain, hbackup, hfingerprint⟩

theorem active?_setMain {main : Bytes} {updated : Instant} (h : r.active? = some c)
    (hmain : main ≠ []) :
    { r with main := some main, updated }.active? = some { c with main } := by
  obtain ⟨henabled, -, hbackup, hfingerprint, -, hfull⟩ := active?_eq_some.1 h
  exact active?_eq_some.2 ⟨henabled, rfl, hbackup, hfingerprint, hmain, hfull⟩

end FactorRecord

namespace Ledger

variable {l l' : Ledger} {owner other : Uuid}

/-! ## Accounts -/

theorem get?_setPasswordHash (l : Ledger) (owner other : Uuid) (hash : String) :
    (l.setPasswordHash owner hash).accounts.get? other =
      if other = owner then (l.accounts.get? owner).map fun a => { a with passwordHash := hash }
      else l.accounts.get? other := by
  rw [← Table.get?_modify]
  rfl

theorem get?_register (l : Ledger) (id other : Uuid) (account : Account) :
    (l.register id account).accounts.get? other =
      if other = id then some account else l.accounts.get? other :=
  Table.get?_put l.accounts id other account

theorem accounts_remove (l : Ledger) (owner other : Uuid) :
    (l.remove owner).accounts.get? other =
      if other = owner then none else l.accounts.get? other :=
  Table.get?_erase l.accounts owner other

theorem records_remove (l : Ledger) (owner other : Uuid) :
    (l.remove owner).records.get? other =
      if other = owner then none else l.records.get? other :=
  Table.get?_erase l.records owner other

/-! ## Records -/

/-- A record is emptied and turned off, and stays in the table with its age. -/
theorem records_disable (l : Ledger) (owner other : Uuid) (now : Instant) :
    (l.disable owner now).records.get? other =
      if other = owner then (l.records.get? owner).map fun r =>
        { r with
          main := none
          backup := none
          fingerprint := none
          enabled := false
          updated := now }
      else l.records.get? other := by
  rw [← Table.get?_modify]
  rfl

/-- A test of the record under a key was passed by the record that is there. -/
theorem of_any {p : FactorRecord → Bool} (h : (l.records.get? owner).any p = true) :
    ∃ row, l.records.get? owner = some row ∧ p row = true := by
  cases hrow : l.records.get? owner with
  | none =>
    rw [hrow] at h
    cases h
  | some row =>
    rw [hrow] at h
    exact ⟨row, rfl, h⟩

/-- **Turning a record on** succeeds only where none is on. The record keeps its age if there was
one. -/
theorem enable?_eq {copies : Copies} {now : Instant} (h : l.enable? owner copies now = some l') :
    (l.records.get? owner).any (·.enabled) = false ∧ l'.accounts = l.accounts ∧
      ∃ created, ∀ other, l'.records.get? other =
        if other = owner then some (.ofCopies copies created now) else l.records.get? other := by
  unfold enable? at h
  dsimp only at h
  split at h
  · cases h
  · rename_i hoff
    cases h
    exact ⟨by simpa using hoff, rfl, _, fun other => Table.get?_put l.records owner other _⟩

/-- **Replacing the main copy** succeeds only if it is still the one that was read, in a record that
is on. -/
theorem updateMain?_eq {expected main : Bytes} {now : Instant}
    (h : l.updateMain? owner expected main now = some l') :
    ∃ row, l.records.get? owner = some row ∧ row.hasMain expected = true ∧
      l'.accounts = l.accounts ∧ ∀ other, l'.records.get? other =
        if other = owner then some { row with main := some main, updated := now }
        else l.records.get? other := by
  unfold updateMain? at h
  split at h
  · rename_i hmain
    cases h
    obtain ⟨row, hrow, hmain⟩ := of_any hmain
    refine ⟨row, hrow, hmain, rfl, fun other => ?_⟩
    show (l.records.modify owner fun r =>
      { r with main := some main, updated := now }).get? other = _
    rw [Table.get?_modify, hrow]
    rfl
  · cases h

/-- The ledger with the main copy replaced. -/
theorem of_updateMain? {expected main : Bytes} {now : Instant}
    (h : l.updateMain? owner expected main now = some l') :
    (l.records.get? owner).any (·.hasMain expected) = true ∧
      l' = { l with
        records := l.records.modify owner fun r =>
          { r with main := some main, updated := now } } := by
  unfold updateMain? at h
  split at h
  · rename_i hmain
    exact ⟨hmain, (Option.some.inj h).symm⟩
  · cases h

/-- A change of the password without a copy to replace has no guard at all. -/
theorem changePassword?_none_eq {hash : String} (h : l.changePassword? owner hash none = some l') :
    l' = l.setPasswordHash owner hash :=
  (Option.some.inj h).symm

/-- A change of the password that comes with a copy is guarded by the copy that was read. -/
theorem changePassword?_some_eq {hash : String} {expected main : Bytes}
    (h : l.changePassword? owner hash (some (expected, main)) = some l') :
    ∃ row, l.records.get? owner = some row ∧ row.hasMain expected = true ∧
      l'.accounts = (l.setPasswordHash owner hash).accounts ∧ ∀ other, l'.records.get? other =
        if other = owner then some { row with main := some main } else l.records.get? other := by
  unfold changePassword? at h
  dsimp only at h
  split at h
  · rename_i hmain
    cases h
    obtain ⟨row, hrow, hmain⟩ := of_any hmain
    refine ⟨row, hrow, hmain, rfl, fun other => ?_⟩
    show (l.records.modify owner fun r => { r with main := some main }).get? other = _
    rw [Table.get?_modify, hrow]
    rfl
  · cases h

/-- **A recovery** is guarded by the fingerprint, and replaces both copies and the fingerprint along
with the password. -/
theorem recover?_eq {expected hash : String} {copies : Copies}
    (h : l.recover? owner expected hash copies = some l') :
    ∃ row, l.records.get? owner = some row ∧ row.hasFingerprint expected = true ∧
      l'.accounts = (l.setPasswordHash owner hash).accounts ∧ ∀ other, l'.records.get? other =
        if other = owner then some { row with
          main := some copies.main
          backup := some copies.backup
          fingerprint := some copies.fingerprint }
        else l.records.get? other := by
  unfold recover? at h
  split at h
  · rename_i hfingerprint
    cases h
    obtain ⟨row, hrow, hfingerprint⟩ := of_any hfingerprint
    refine ⟨row, hrow, hfingerprint, rfl, fun other => ?_⟩
    show (l.records.modify owner fun r => { r with
      main := some copies.main
      backup := some copies.backup
      fingerprint := some copies.fingerprint }).get? other = _
    rw [Table.get?_modify, hrow]
    rfl
  · cases h

/-- Using a code touches nothing but the codes. -/
theorem consumeCode?_eq {hash : String} (h : l.consumeCode? owner hash = some l') :
    l'.accounts = l.accounts ∧ l'.records = l.records := by
  unfold consumeCode? at h
  split at h
  · cases h
    exact ⟨rfl, rfl⟩
  · cases h

/-! ## Backup codes -/

/-- A record that is turned on starts without codes. -/
theorem codes_enable? {copies : Copies} {now : Instant}
    (h : l.enable? owner copies now = some l') : l'.codes = l.codesWithout owner := by
  unfold enable? at h
  dsimp only at h
  split at h
  · cases h
  · cases h
    rfl

/-- A new main copy leaves the codes. -/
theorem codes_updateMain? {expected main : Bytes} {now : Instant}
    (h : l.updateMain? owner expected main now = some l') : l'.codes = l.codes := by
  unfold updateMain? at h
  split at h
  · cases h
    rfl
  · cases h

/-- So does a new password. -/
theorem codes_changePassword? {hash : String} {main : Option (Bytes × Bytes)}
    (h : l.changePassword? owner hash main = some l') : l'.codes = l.codes := by
  unfold changePassword? at h
  split at h
  · cases h
    rfl
  · dsimp only at h
    split at h
    · cases h
      rfl
    · cases h

theorem codes_recover? {expected hash : String} {copies : Copies}
    (h : l.recover? owner expected hash copies = some l') : l'.codes = l.codes := by
  unfold recover? at h
  split at h
  · cases h
    rfl
  · cases h

/-- Using a code takes one row away, even if there were two of them. -/
theorem codes_consumeCode? {hash : String} (h : l.consumeCode? owner hash = some l') :
    l'.codes = l.codes.erase (owner, hash) := by
  unfold consumeCode? at h
  split at h
  · cases h
    rfl
  · cases h

end Ledger

end SecondFactor
