import Mathlib.Data.List.Nodup
import SecondFactor.Proofs.Ledger

/-!
# The shape of the ledger

The tables of the ledger refer to one another: a record belongs to an account, and backup codes to a
record that is on. Some operations ask whether a record is enabled and others whether it has its
copies. Every change of the ledger keeps the tables fitting: what refers to an account finds it, and
a record has all of its copies or none, so that both questions have one answer.

## The architecture

* **`FactorRecord.Whole`** — a record has all its copies, or none.
* **`Ledger.Shaped`** — how accounts, records and codes fit together.
* **`Shaped.of_record`**, **`Shaped.of_codes`** — changes of one record, and of codes alone.
* One lemma of **`Shaped`** for each change of the ledger, named as the change.
-/

namespace SecondFactor

/-! ## §1 — records -/

/-- **A record is whole.** Enabled, it has both copies and a fingerprint, and none of them is empty;
otherwise it has none of the three. -/
structure FactorRecord.Whole (r : FactorRecord) : Prop where
  on : r.enabled = true → ∃ c : Copies, r.main = some c.main ∧ r.backup = some c.backup ∧
    r.fingerprint = some c.fingerprint ∧ c.main ≠ [] ∧ c.backup ≠ [] ∧ c.fingerprint ≠ ""
  off : r.enabled = false → r.main = none ∧ r.backup = none ∧ r.fingerprint = none

namespace FactorRecord.Whole

variable {r : FactorRecord} {c : Copies}

theorem of_active (h : r.active? = some c) : r.Whole := by
  obtain ⟨henabled, hcopies⟩ := active?_eq_some.1 h
  exact ⟨fun _ => ⟨c, hcopies⟩, fun hoff => by rw [henabled] at hoff; cases hoff⟩

theorem active (h : r.Whole) (henabled : r.enabled = true) : ∃ c, r.active? = some c := by
  obtain ⟨c, hcopies⟩ := h.on henabled
  exact ⟨c, active?_eq_some.2 ⟨henabled, hcopies⟩⟩

/-- For a whole record, *enabled* and *active* come to the same. The service asks for one in some
places and for the other in others. -/
theorem isSome_active? (h : r.Whole) : r.active?.isSome = r.enabled := by
  cases henabled : r.enabled with
  | true =>
    obtain ⟨c, hc⟩ := h.active henabled
    rw [hc]
    rfl
  | false =>
    cases hactive : r.active? with
    | none => rfl
    | some c =>
      have hon := (active?_eq_some.1 hactive).1
      rw [henabled] at hon
      cases hon

theorem setMain {main : Bytes} {updated : Instant} (h : r.Whole) (henabled : r.enabled = true)
    (hmain : main ≠ []) : { r with main := some main, updated }.Whole := by
  obtain ⟨c, hc⟩ := h.active henabled
  exact of_active (active?_setMain hc hmain)

end FactorRecord.Whole

/-! ## §2 — the ledger -/

namespace Ledger

/-- There is an account with an identifier. -/
def Known (l : Ledger) (id : Uuid) : Prop := (l.accounts.get? id).isSome = true

/-- The addresses of all accounts. -/
def addresses (l : Ledger) : List String := l.accounts.map fun row => row.2.email

/-- Whether the second factor of an account is on. -/
def enabled (l : Ledger) (owner : Uuid) : Bool := (l.records.get? owner).any (·.enabled)

/-- **The ledger is in shape.** -/
structure Shaped (l : Ledger) : Prop where
  /-- No two accounts have one address. -/
  addresses : l.addresses.Nodup
  /-- A record belongs to an account. -/
  owned : ∀ owner row, l.records.get? owner = some row → l.Known owner
  whole : ∀ owner row, l.records.get? owner = some row → row.Whole
  /-- Backup codes belong to a record that is on. -/
  codes : ∀ row ∈ l.codes, l.enabled row.1 = true
  few : ∀ owner, l.countCodes owner ≤ 10

variable {l l' : Ledger} {owner id : Uuid}

theorem known_of_get? {account : Account} (h : l.accounts.get? id = some account) : l.Known id := by
  rw [Known, h]
  rfl

theorem known_of_findByEmail? {email : String} {account : Account}
    (h : l.findByEmail? email = some (id, account)) : l.Known id := by
  have hmem : (id, account) ∈ l.accounts := List.mem_of_find?_eq_some h
  rw [Known, Table.get?, List.lookup_isSome_iff]
  exact ⟨(id, account), hmem, beq_self_eq_true id⟩

/-- A record that is on belongs to an account. -/
theorem Shaped.known (h : l.Shaped) (henabled : l.enabled owner = true) : l.Known owner := by
  obtain ⟨row, hrow, -⟩ := of_any henabled
  exact h.owned owner row hrow

/-- Where no two accounts have one address, an account is found under its own. -/
theorem findByEmail?_of_nodup (h : l.addresses.Nodup) {account : Account}
    (haccount : l.accounts.get? id = some account) :
    l.findByEmail? account.email = some (id, account) := by
  have hmem : (id, account) ∈ l.accounts := Table.mem_of_get? haccount
  cases hfound : l.findByEmail? account.email with
  | none =>
    have hother := List.find?_eq_none.1 hfound _ hmem
    simp at hother
  | some found =>
    -- No two accounts have one address.
    have hin : found ∈ l.accounts := List.mem_of_find?_eq_some hfound
    have hsame : found.2.email = account.email := by
      simpa using List.find?_some hfound
    rw [List.inj_on_of_nodup_map h hin hmem hsame]

theorem Shaped.findByEmail?_of_get? (h : l.Shaped) {account : Account}
    (haccount : l.accounts.get? id = some account) :
    l.findByEmail? account.email = some (id, account) :=
  findByEmail?_of_nodup h.addresses haccount

/-- An account that goes takes its address along and leaves the others in their order. -/
theorem addresses_erase (l : Ledger) (id : Uuid) :
    ((l.accounts.erase id).map fun row => row.2.email).Sublist l.addresses :=
  List.Sublist.map _ List.filter_sublist

/-- An account under an address that is free leaves the addresses different. -/
theorem nodup_addresses_register {account : Account} (h : l.addresses.Nodup)
    (hfree : l.findByEmail? account.email = none) : (l.register id account).addresses.Nodup := by
  show (account.email :: (l.accounts.erase id).map fun row => row.2.email).Nodup
  refine List.nodup_cons.2 ⟨fun hmem => ?_, h.sublist (l.addresses_erase id)⟩
  obtain ⟨row, hrow, hemail⟩ := List.mem_map.1 ((l.addresses_erase id).subset hmem)
  have hother := List.find?_eq_none.1 hfree row hrow
  exact hother (by simpa using hemail)

/-! ### Accounts that stay -/

/-- The accounts are the same but for their passwords. -/
structure SameAccounts (l l' : Ledger) : Prop where
  addresses : l'.addresses = l.addresses
  known : ∀ id, l.Known id → l'.Known id

theorem SameAccounts.of_eq (h : l'.accounts = l.accounts) : SameAccounts l l' where
  addresses := by rw [Ledger.addresses, h, Ledger.addresses]
  known id hid := by rwa [Known, h]

/-- With another password hash they are still the same accounts with the same addresses. The shape
of a ledger does not depend on hashes. -/
theorem SameAccounts.of_setPasswordHash {hash : String}
    (h : l'.accounts = (l.setPasswordHash owner hash).accounts) : SameAccounts l l' where
  addresses := by
    have hrows : (l.setPasswordHash owner hash).addresses = l.addresses := by
      show List.map _ (List.map _ l.accounts) = List.map _ l.accounts
      rw [List.map_map]
      refine List.map_congr_left fun row _ => ?_
      show (if row.1 = owner then (row.1, { row.2 with passwordHash := hash }) else row).2.email = _
      split <;> rfl
    rw [← hrows, Ledger.addresses, Ledger.addresses, h]
  known id hid := by
    rw [Known, h, get?_setPasswordHash]
    split
    · rename_i heq
      subst heq
      rwa [Option.isSome_map]
    · exact hid

theorem SameAccounts.of_updateMain {expected main : Bytes} {now : Instant}
    (hl : l.updateMain? owner expected main now = some l') : SameAccounts l l' := by
  obtain ⟨_, -, -, haccounts, -⟩ := updateMain?_eq hl
  exact .of_eq haccounts

theorem SameAccounts.of_changePassword {hash : String} {main : Option (Bytes × Bytes)}
    (hl : l.changePassword? owner hash main = some l') : SameAccounts l l' := by
  cases main with
  | none =>
    rw [changePassword?_none_eq hl]
    exact .of_setPasswordHash rfl
  | some pair =>
    obtain ⟨_, -, -, haccounts, -⟩ := changePassword?_some_eq hl
    exact .of_setPasswordHash haccounts

theorem SameAccounts.of_recover {expected hash : String} {copies : Copies}
    (hl : l.recover? owner expected hash copies = some l') : SameAccounts l l' := by
  obtain ⟨_, -, -, haccounts, -⟩ := recover?_eq hl
  exact .of_setPasswordHash haccounts

/-! ### Which records are on -/

theorem enabled_of_records (h : l'.records = l.records) (other : Uuid) :
    l'.enabled other = l.enabled other := by
  rw [enabled, h, enabled]

/-- A record that is written back is on if it was. -/
theorem enabled_of_write {before after : FactorRecord} (hrow : l.records.get? owner = some before)
    (hrecords : ∀ other, l'.records.get? other =
      if other = owner then some after else l.records.get? other)
    (henabled : after.enabled = before.enabled) (other : Uuid) :
    l'.enabled other = l.enabled other := by
  rw [enabled, hrecords, enabled]
  split
  · rename_i heq
    rw [heq, hrow]
    exact henabled
  · rfl

/-- What is turned on is on, and the other records are as they were. -/
theorem enabled_enable? {copies : Copies} {now : Instant}
    (hl : l.enable? owner copies now = some l') (other : Uuid) :
    l'.enabled other = if other = owner then true else l.enabled other := by
  obtain ⟨-, -, created, hrecords⟩ := enable?_eq hl
  rw [enabled, hrecords]
  split
  · rfl
  · rfl

theorem enabled_updateMain? {expected main : Bytes} {now : Instant}
    (hl : l.updateMain? owner expected main now = some l') (other : Uuid) :
    l'.enabled other = l.enabled other := by
  obtain ⟨row, hrow, -, -, hrecords⟩ := updateMain?_eq hl
  exact enabled_of_write hrow hrecords rfl other

/-- What is turned off is off, and the other records are as they were. -/
theorem enabled_disable (l : Ledger) (owner other : Uuid) (now : Instant) :
    (l.disable owner now).enabled other = if other = owner then false else l.enabled other := by
  rw [enabled, records_disable]
  split
  · cases l.records.get? owner with
    | none => rfl
    | some row => rfl
  · rfl

/-- A change of the password turns nothing on or off. -/
theorem enabled_changePassword? {hash : String} {main : Option (Bytes × Bytes)}
    (hl : l.changePassword? owner hash main = some l') (other : Uuid) :
    l'.enabled other = l.enabled other := by
  cases main with
  | none =>
    rw [changePassword?_none_eq hl]
    rfl
  | some pair =>
    obtain ⟨row, hrow, -, -, hrecords⟩ := changePassword?_some_eq hl
    exact enabled_of_write hrow hrecords rfl other

theorem enabled_recover? {expected hash : String} {copies : Copies}
    (hl : l.recover? owner expected hash copies = some l') (other : Uuid) :
    l'.enabled other = l.enabled other := by
  obtain ⟨row, hrow, -, -, hrecords⟩ := recover?_eq hl
  exact enabled_of_write hrow hrecords rfl other

theorem enabled_remove (l : Ledger) (owner other : Uuid) :
    (l.remove owner).enabled other = if other = owner then false else l.enabled other := by
  rw [enabled, records_remove]
  split
  · rfl
  · rfl

/-! ### Codes that stay -/

theorem codesWithout_sublist (l : Ledger) (owner : Uuid) :
    (l.codesWithout owner).Sublist l.codes :=
  List.filter_sublist

theorem owner_ne_of_mem_codesWithout {row : Uuid × String} (h : row ∈ l.codesWithout owner) :
    row.1 ≠ owner := by
  simpa using (List.mem_filter.1 h).2

theorem countCodes_le (h : l'.codes.Sublist l.codes) (owner : Uuid) :
    l'.countCodes owner ≤ l.countCodes owner :=
  h.countP_le

/-! ### What each kind of change keeps -/

namespace Shaped

/-- The record of one account changes. When it is off afterwards, its codes are gone. Every change
of a record is an instance of this. -/
theorem of_record {found : Option FactorRecord} (h : l.Shaped) (haccounts : SameAccounts l l')
    (howner : l.Known owner)
    (hrecords : ∀ other, l'.records.get? other =
      if other = owner then found else l.records.get? other)
    (hfound : ∀ row, found = some row → row.Whole) (hcodes : l'.codes.Sublist l.codes)
    (hleft : found.any (·.enabled) = false → ∀ row ∈ l'.codes, row.1 ≠ owner) : l'.Shaped where
  addresses := by
    rw [haccounts.addresses]
    exact h.addresses
  owned other row hrow := by
    rw [hrecords] at hrow
    split at hrow
    · rename_i heq
      rw [heq]
      exact haccounts.known owner howner
    · exact haccounts.known other (h.owned other row hrow)
  whole other row hrow := by
    rw [hrecords] at hrow
    split at hrow
    · exact hfound row hrow
    · exact h.whole other row hrow
  codes row hrow := by
    -- A code that is left lay beside a record that was on. If that is the record which is written,
    -- it is on still, or no code of the account would be left.
    have hbefore := h.codes row (hcodes.subset hrow)
    rw [enabled, hrecords]
    split
    · rename_i heq
      cases hon : found.any (·.enabled) with
      | true => rfl
      | false => exact absurd heq (hleft hon row hrow)
    · exact hbefore
  few other := Nat.le_trans (countCodes_le hcodes other) (h.few other)

/-- A record that is on gets another main copy. -/
theorem of_setMain {row : FactorRecord} {main : Bytes} {updated : Instant} (h : l.Shaped)
    (haccounts : SameAccounts l l') (hrow : l.records.get? owner = some row)
    (henabled : row.enabled = true) (hmain : main ≠ [])
    (hrecords : ∀ other, l'.records.get? other =
      if other = owner then some { row with main := some main, updated }
      else l.records.get? other)
    (hcodes : l'.codes = l.codes) : l'.Shaped := by
  have hkept : l'.codes.Sublist l.codes := hcodes ▸ List.Sublist.refl l'.codes
  refine h.of_record haccounts (h.owned owner row hrow) hrecords ?_ hkept ?_
  · intro after hafter
    cases hafter
    exact (h.whole owner row hrow).setMain henabled hmain
  · intro hoff
    change row.enabled = false at hoff
    rw [henabled] at hoff
    cases hoff

/-- Nothing but the codes changes. They belong to accounts whose record is on, ten at most for
each. -/
theorem of_codes (h : l.Shaped) (haccounts : l'.accounts = l.accounts)
    (hrecords : l'.records = l.records) (hcodes : ∀ row ∈ l'.codes, l.enabled row.1 = true)
    (hfew : ∀ owner, l'.countCodes owner ≤ 10) : l'.Shaped where
  addresses := by
    rw [(SameAccounts.of_eq haccounts).addresses]
    exact h.addresses
  owned other row hrow := by
    rw [hrecords] at hrow
    exact (SameAccounts.of_eq haccounts).known other (h.owned other row hrow)
  whole other row hrow := by
    rw [hrecords] at hrow
    exact h.whole other row hrow
  codes row hrow := by
    rw [enabled_of_records hrecords]
    exact hcodes row hrow
  few := hfew

/-- The ledger from which every run starts is in shape. -/
theorem empty : Ledger.empty.Shaped where
  addresses := List.nodup_nil
  owned := nofun
  whole := nofun
  codes := nofun
  few _ := Nat.zero_le 10

/-- Nothing in the shape is about password hashes. -/
theorem setPasswordHash {hash : String} (h : l.Shaped) : (l.setPasswordHash owner hash).Shaped where
  addresses := by
    rw [(SameAccounts.of_setPasswordHash rfl).addresses]
    exact h.addresses
  owned other row hrow := (SameAccounts.of_setPasswordHash rfl).known other (h.owned other row hrow)
  whole := h.whole
  codes := h.codes
  few := h.few

/-- An account is added, under an address that is free. -/
theorem register {account : Account} (h : l.Shaped) (hfree : l.findByEmail? account.email = none) :
    (l.register id account).Shaped where
  addresses := nodup_addresses_register h.addresses hfree
  owned other row hrow := by
    have hother := h.owned other row hrow
    rw [Known, get?_register]
    split
    · rfl
    · exact hother
  whole := h.whole
  codes := h.codes
  few := h.few

/-- A record is turned on with copies that are there. Its account has no codes yet, or has those
from before. -/
theorem enable {copies : Copies} {now : Instant} (h : l.Shaped) (howner : l.Known owner)
    (hmain : copies.main ≠ []) (hbackup : copies.backup ≠ [])
    (hfingerprint : copies.fingerprint ≠ "")
    (hl : l.enable? owner copies now = some l') : l'.Shaped := by
  obtain ⟨-, haccounts, created, hrecords⟩ := enable?_eq hl
  have hcodes := codes_enable? hl
  refine h.of_record (.of_eq haccounts) howner hrecords ?_ ?_ nofun
  · intro row hrow
    cases hrow
    exact .of_active (FactorRecord.active?_ofCopies hmain hbackup hfingerprint)
  · rw [hcodes]
    exact l.codesWithout_sublist owner

theorem updateMain {expected main : Bytes} {now : Instant} (h : l.Shaped) (hmain : main ≠ [])
    (hl : l.updateMain? owner expected main now = some l') : l'.Shaped := by
  obtain ⟨row, hrow, hexpected, haccounts, hrecords⟩ := updateMain?_eq hl
  obtain ⟨henabled, -⟩ := FactorRecord.hasMain_iff.1 hexpected
  exact h.of_setMain (.of_eq haccounts) hrow henabled hmain hrecords (codes_updateMain? hl)

/-- A record is turned off and emptied, and its codes go. -/
theorem disable {now : Instant} (h : l.Shaped) (howner : l.Known owner) :
    (l.disable owner now).Shaped := by
  refine h.of_record (.of_eq rfl) howner (records_disable l owner · now) ?_
    (l.codesWithout_sublist owner) fun _ row => owner_ne_of_mem_codesWithout
  intro row hrow
  obtain ⟨before, -, rfl⟩ := Option.map_eq_some_iff.1 hrow
  exact ⟨nofun, fun _ => ⟨rfl, rfl, rfl⟩⟩

/-- A change of the password keeps the shape, with or without a main copy. -/
theorem changePassword {hash : String} {main : Option (Bytes × Bytes)} (h : l.Shaped)
    (hmain : ∀ expected rewrapped, main = some (expected, rewrapped) → rewrapped ≠ [])
    (hl : l.changePassword? owner hash main = some l') : l'.Shaped := by
  cases main with
  | none =>
    rw [changePassword?_none_eq hl]
    exact h.setPasswordHash
  | some pair =>
    obtain ⟨row, hrow, hexpected, haccounts, hrecords⟩ := changePassword?_some_eq hl
    obtain ⟨henabled, -⟩ := FactorRecord.hasMain_iff.1 hexpected
    exact h.of_setMain (.of_setPasswordHash haccounts) hrow henabled (hmain pair.1 pair.2 rfl)
      hrecords (codes_changePassword? hl)

/-- A recovery keeps the shape: the record is on before and after, and all that it holds is new. -/
theorem recover {expected hash : String} {copies : Copies} (h : l.Shaped)
    (hmain : copies.main ≠ []) (hbackup : copies.backup ≠ [])
    (hfingerprint : copies.fingerprint ≠ "")
    (hl : l.recover? owner expected hash copies = some l') : l'.Shaped := by
  obtain ⟨row, hrow, hexpected, haccounts, hrecords⟩ := recover?_eq hl
  obtain ⟨henabled, -⟩ := FactorRecord.hasFingerprint_iff.1 hexpected
  have hkept : l'.codes.Sublist l.codes := codes_recover? hl ▸ List.Sublist.refl l'.codes
  refine h.of_record (.of_setPasswordHash haccounts) (h.owned owner row hrow) hrecords ?_ hkept ?_
  · intro after hafter
    cases hafter
    exact .of_active (c := copies) <| FactorRecord.active?_eq_some.2
      ⟨henabled, rfl, rfl, rfl, hmain, hbackup, hfingerprint⟩
  · intro hoff
    change row.enabled = false at hoff
    rw [henabled] at hoff
    cases hoff

/-- New codes take the place of the old ones, for an account whose record is on. -/
theorem replaceCodes {hashes : List String} (h : l.Shaped) (henabled : l.enabled owner = true)
    (hten : hashes.length ≤ 10) : (l.replaceCodes owner hashes).Shaped := by
  refine h.of_codes rfl rfl ?_ ?_
  · intro row hrow
    rcases List.mem_append.1 hrow with hrow | hrow
    · exact h.codes row ((l.codesWithout_sublist owner).subset hrow)
    · obtain ⟨hash, -, rfl⟩ := List.mem_map.1 hrow
      exact henabled
  · intro other
    show (l.codesWithout owner ++ hashes.map fun hash => (owner, hash)).countP _ ≤ 10
    rw [List.countP_append]
    by_cases hother : other = owner
    · -- Of the codes of this account there are the new ones alone.
      have hnone : (l.codesWithout owner).countP (fun row => decide (row.1 = other)) = 0 := by
        rw [List.countP_eq_zero]
        intro row hrow
        simpa [hother] using owner_ne_of_mem_codesWithout hrow
      have hnew := List.countP_le_length (p := fun row => decide (row.1 = other))
        (l := hashes.map fun hash => (owner, hash))
      rw [List.length_map] at hnew
      omega
    · have hnew : (hashes.map fun hash => (owner, hash)).countP
          (fun row => decide (row.1 = other)) = 0 := by
        rw [List.countP_eq_zero]
        intro row hrow
        obtain ⟨hash, -, rfl⟩ := List.mem_map.1 hrow
        simpa using Ne.symm hother
      have hold := (l.codesWithout_sublist owner).countP_le
        (p := fun row => decide (row.1 = other))
      have hfew := h.few other
      unfold countCodes at hfew
      omega

/-- A code that is used leaves one code less. -/
theorem consumeCode {hash : String} (h : l.Shaped) (hl : l.consumeCode? owner hash = some l') :
    l'.Shaped := by
  obtain ⟨haccounts, hrecords⟩ := consumeCode?_eq hl
  have hcodes : l'.codes.Sublist l.codes := by
    rw [codes_consumeCode? hl]
    exact List.erase_sublist
  exact h.of_codes haccounts hrecords (fun row hrow => h.codes row (hcodes.subset hrow))
    fun other => Nat.le_trans (countCodes_le hcodes other) (h.few other)

/-- An account goes with everything that belongs to it, so that no record and no code is left
without one. -/
theorem remove (h : l.Shaped) : (l.remove owner).Shaped where
  addresses := h.addresses.sublist (l.addresses_erase owner)
  owned other row hrow := by
    rw [records_remove] at hrow
    split at hrow
    · cases hrow
    · rename_i hother
      rw [Known, accounts_remove, if_neg hother]
      exact h.owned other row hrow
  whole other row hrow := by
    rw [records_remove] at hrow
    split at hrow
    · cases hrow
    · exact h.whole other row hrow
  codes row hrow := by
    have hother := owner_ne_of_mem_codesWithout hrow
    rw [enabled, records_remove, if_neg hother]
    exact h.codes row ((l.codesWithout_sublist owner).subset hrow)
  few other := Nat.le_trans (l.codesWithout_sublist owner).countP_le (h.few other)

end Shaped

end Ledger

end SecondFactor
