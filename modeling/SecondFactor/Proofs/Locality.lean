import SecondFactor.Proofs.SingleUse

/-!
# Transactions keep to one account

The tables of the ledger hold the rows of all accounts, and each transaction goes through a table
from end to end. Yet it reads and writes the rows of one account alone: its answer and what it
leaves of that account depend on nothing else, and it leaves the rows of every other account as they
were.

## The architecture

* **`Ledger.part`** — what the ledger holds of an account.
* **`Ledger.Within`** — a transaction keeps to an account; **`Within.look`**,
  **`Within.change`**, **`Within.conditional`** — the three kinds of transactions.
* One `_within` lemma for each transaction of the service; **`Ledger.Transaction`** — all of them,
  but for the look at a record.
-/

namespace SecondFactor.Ledger

/-! ## §1 — what is held of an account -/

/-- What the ledger holds of an account. -/
structure Part where
  account : Option Account
  record : Option FactorRecord
  codes : List (Uuid × String)
  deriving DecidableEq

/-- What the ledger holds of an account. -/
def part (l : Ledger) (owner : Uuid) : Part :=
  ⟨l.accounts.get? owner, l.records.get? owner, l.codesOf owner⟩

variable {α : Type} {l l' m m' : Ledger} {owner other : Uuid}

theorem part_eq (haccount : l'.accounts.get? owner = l.accounts.get? owner)
    (hrecord : l'.records.get? owner = l.records.get? owner)
    (hcodes : l'.codesOf owner = l.codesOf owner) : l'.part owner = l.part owner := by
  rw [part, haccount, hrecord, hcodes, part]

/-- **A transaction keeps to an account.** -/
structure Within (owner : Uuid) (f : Ledger → α × Ledger) : Prop where
  answer : ∀ {l l' : Ledger}, l.part owner = l'.part owner → (f l).1 = (f l').1
  own : ∀ {l l' : Ledger}, l.part owner = l'.part owner →
    (f l).2.part owner = (f l').2.part owner
  others : ∀ {l : Ledger} {other : Uuid}, other ≠ owner → (f l).2.part other = l.part other
  /-- The table of accounts, by which addresses are looked up, changes in the same way. -/
  accounts : ∀ {l l' : Ledger}, l.accounts = l'.accounts → l.part owner = l'.part owner →
    (f l).2.accounts = (f l').2.accounts

namespace Within

theorem look {f : Ledger → α} (h : ∀ {l l' : Ledger}, l.part owner = l'.part owner → f l = f l') :
    Within owner fun l => (f l, l) where
  answer := h
  own := id
  others _ := rfl
  accounts h _ := h

/-- A change that is made in any case. -/
theorem change {f : Ledger → Ledger}
    (own : ∀ {l l' : Ledger}, l.part owner = l'.part owner → (f l).part owner = (f l').part owner)
    (others : ∀ {l : Ledger} {other : Uuid}, other ≠ owner → (f l).part other = l.part other)
    (accounts : ∀ {l l' : Ledger}, l.accounts = l'.accounts → (f l).accounts = (f l').accounts) :
    Within owner fun l => ((), f l) where
  answer _ := rfl
  own := own
  others := others
  accounts h _ := accounts h

/-- A change that is made under a condition on the rows of the account. The four assumptions are
what has to be checked for each of the guarded writes of the service. -/
theorem conditional {f : Ledger → Option Ledger}
    (gate : ∀ {l l' : Ledger}, l.part owner = l'.part owner → (f l).isSome = (f l').isSome)
    (own : ∀ {l l' m m' : Ledger}, l.part owner = l'.part owner → f l = some m → f l' = some m' →
      m.part owner = m'.part owner)
    (others : ∀ {l m : Ledger} {other : Uuid}, other ≠ owner → f l = some m →
      m.part other = l.part other)
    (accounts : ∀ {l l' m m' : Ledger}, l.accounts = l'.accounts → f l = some m →
      f l' = some m' → m.accounts = m'.accounts) :
    Within owner (Database.conditional f) := by
  -- Two ledgers with the same rows of the account both pass the condition, or both fail it.
  have hcases : ∀ {l l' : Ledger}, l.part owner = l'.part owner →
      (Database.conditional f l = (false, l) ∧ Database.conditional f l' = (false, l')) ∨
      ∃ m m', f l = some m ∧ f l' = some m' ∧
        Database.conditional f l = (true, m) ∧ Database.conditional f l' = (true, m') := by
    intro l l' hpart
    have hgate := gate hpart
    unfold Database.conditional
    cases hl : f l with
    | none =>
      cases hl' : f l' with
      | none => exact .inl ⟨rfl, rfl⟩
      | some m' =>
        rw [hl, hl'] at hgate
        cases hgate
    | some m =>
      cases hl' : f l' with
      | none =>
        rw [hl, hl'] at hgate
        cases hgate
      | some m' => exact .inr ⟨m, m', rfl, rfl, rfl, rfl⟩
  refine ⟨fun hpart => ?_, fun hpart => ?_, fun {l other} hother => ?_, fun haccounts hpart => ?_⟩
  · rcases hcases hpart with ⟨hl, hl'⟩ | ⟨m, m', -, -, hl, hl'⟩
    · rw [hl, hl']
    · rw [hl, hl']
  · rcases hcases hpart with ⟨hl, hl'⟩ | ⟨m, m', hm, hm', hl, hl'⟩
    · rw [hl, hl']
      exact hpart
    · rw [hl, hl']
      exact own hpart hm hm'
  · rcases hcases (rfl : l.part owner = l.part owner) with ⟨hl, -⟩ | ⟨m, -, hm, -, hl, -⟩
    · rw [hl]
    · rw [hl]
      exact others hother hm
  · rcases hcases hpart with ⟨hl, hl'⟩ | ⟨m, m', hm, hm', hl, hl'⟩
    · rw [hl, hl']
      exact haccounts
    · rw [hl, hl']
      exact accounts haccounts hm hm'

end Within

/-! ## §2 — looks -/

theorem account_within : Within owner fun l => (l.accounts.get? owner, l) :=
  .look fun h => congrArg Part.account h

theorem record_within : Within owner fun l => (l.records.get? owner, l) :=
  .look fun h => congrArg Part.record h

theorem countCodes_within : Within owner fun l => (l.countCodes owner, l) :=
  .look fun {l l'} h => by
    rw [← length_codesOf, ← length_codesOf]
    exact congrArg (fun p => p.codes.length) h

/-! ## §3 — changes of codes -/

theorem codesOf_dropped (h : l'.codes = l.codesWithout owner) : l'.codesOf owner = [] := by
  rw [codesOf_of_without h, if_pos rfl]

theorem codesOf_without_ne (h : l'.codes = l.codesWithout owner) (hother : other ≠ owner) :
    l'.codesOf other = l.codesOf other := by
  rw [codesOf_of_without h, if_neg hother]

/-- A new set of codes is written for the account, whatever it had. -/
theorem replaceCodes_within {hashes : List String} :
    Within owner fun l => ((), l.replaceCodes owner hashes) := by
  refine .change (fun {l l'} hpart => ?_) (fun {l other} hother => ?_) id
  · refine part_eq (congrArg Part.account hpart) (congrArg Part.record hpart) ?_
    rw [codesOf_replaceCodes, codesOf_replaceCodes, if_pos rfl, if_pos rfl]
  · refine part_eq rfl rfl ?_
    rw [codesOf_replaceCodes, if_neg hother]

theorem mem_codesOf {hash : String} :
    (owner, hash) ∈ l.codesOf owner ↔ (owner, hash) ∈ l.codes := by
  rw [codesOf, List.mem_filter]
  exact ⟨And.left, fun h => ⟨h, decide_eq_true rfl⟩⟩

/-- A code is used if its row is there. This can be told from the rows of the account, because a row
names its owner. -/
theorem consumeCode_within {hash : String} :
    Within owner (Database.conditional fun l => l.consumeCode? owner hash) := by
  refine .conditional (fun {l l'} hpart => ?_) (fun {l l' m m'} hpart hm hm' => ?_)
    (fun {l m other} hother hm => ?_) fun {l l' m m'} haccounts hm hm' => ?_
  · have hcodes : l.codesOf owner = l'.codesOf owner := congrArg Part.codes hpart
    unfold consumeCode?
    simp only [← mem_codesOf, hcodes]
    split <;> rfl
  · obtain ⟨haccounts, hrecords⟩ := consumeCode?_eq hm
    obtain ⟨haccounts', hrecords'⟩ := consumeCode?_eq hm'
    refine part_eq ?_ ?_ ?_
    · rw [haccounts, haccounts']
      exact congrArg Part.account hpart
    · rw [hrecords, hrecords']
      exact congrArg Part.record hpart
    · rw [codesOf_of_consumed (codes_consumeCode? hm), codesOf_of_consumed (codes_consumeCode? hm')]
      exact congrArg (fun p => p.codes.erase (owner, hash)) hpart
  · obtain ⟨haccounts, hrecords⟩ := consumeCode?_eq hm
    exact part_eq (by rw [haccounts]) (by rw [hrecords])
      (codesOf_of_consumed_ne (codes_consumeCode? hm) hother)
  · rw [(consumeCode?_eq hm).1, (consumeCode?_eq hm').1, haccounts]

/-! ## §4 — changes of records -/

/-- A record is turned on if it is not on already. Its age comes from the record that is there, and
that is of the account too. -/
theorem enable_within {copies : Copies} {now : Instant} :
    Within owner (Database.conditional fun l => l.enable? owner copies now) := by
  have hput : ∀ {l m : Ledger}, l.enable? owner copies now = some m → m = { l with
      records := l.records.put owner
        (.ofCopies copies (((l.records.get? owner).map (·.created)).getD now) now)
      codes := l.codesWithout owner } := by
    intro l m hm
    unfold enable? at hm
    dsimp only at hm
    split at hm
    · cases hm
    · exact (Option.some.inj hm).symm
  -- Whether the write goes through, what it leaves of the account, that it leaves other accounts
  -- alone, and what it does with the table of accounts: the four parts of being within an account,
  -- in this order here and below.
  refine .conditional (fun {l l'} hpart => ?_) (fun {l l' m m'} hpart hm hm' => ?_)
    (fun {l m other} hother hm => ?_) fun {l l' m m'} haccounts hm hm' => ?_
  · have hrecord : l.records.get? owner = l'.records.get? owner := congrArg Part.record hpart
    unfold enable?
    dsimp only
    rw [hrecord]
    split <;> rfl
  · have hrecord : l.records.get? owner = l'.records.get? owner := congrArg Part.record hpart
    refine part_eq ?_ ?_ ?_
    · rw [(enable?_eq hm).2.1, (enable?_eq hm').2.1]
      exact congrArg Part.account hpart
    · rw [hput hm, hput hm', Table.get?_put_self, Table.get?_put_self, hrecord]
    · rw [codesOf_dropped (codes_enable? hm), codesOf_dropped (codes_enable? hm')]
  · obtain ⟨-, haccounts, created, hrecords⟩ := enable?_eq hm
    refine part_eq (by rw [haccounts]) ?_ (codesOf_without_ne (codes_enable? hm) hother)
    rw [hrecords, if_neg hother]
  · rw [(enable?_eq hm).2.1, (enable?_eq hm').2.1, haccounts]

/-- The main copy is replaced if it is the expected one, and all other fields of the record stay. -/
theorem updateMain_within {expected main : Bytes} {now : Instant} :
    Within owner (Database.conditional fun l => l.updateMain? owner expected main now) := by
  refine .conditional (fun {l l'} hpart => ?_) (fun {l l' m m'} hpart hm hm' => ?_)
    (fun {l m other} hother hm => ?_) fun {l l' m m'} haccounts hm hm' => ?_
  · have hrecord : l.records.get? owner = l'.records.get? owner := congrArg Part.record hpart
    unfold updateMain?
    rw [hrecord]
    split <;> rfl
  · obtain ⟨row, hrow, -, haccounts, hrecords⟩ := updateMain?_eq hm
    obtain ⟨row', hrow', -, haccounts', hrecords'⟩ := updateMain?_eq hm'
    have hrecord : l.records.get? owner = l'.records.get? owner := congrArg Part.record hpart
    rw [hrow, hrow'] at hrecord
    -- The record is the same in both ledgers, so it is the same row that is written.
    cases hrecord
    refine part_eq ?_ ?_ ?_
    · rw [haccounts, haccounts']
      exact congrArg Part.account hpart
    · rw [hrecords, hrecords', if_pos rfl, if_pos rfl]
    · rw [codesOf_of_eq (codes_updateMain? hm), codesOf_of_eq (codes_updateMain? hm')]
      exact congrArg Part.codes hpart
  · obtain ⟨row, hrow, -, haccounts, hrecords⟩ := updateMain?_eq hm
    refine part_eq (by rw [haccounts]) ?_ (codesOf_of_eq (codes_updateMain? hm) other)
    rw [hrecords, if_neg hother]
  · obtain ⟨-, -, -, hleft, -⟩ := updateMain?_eq hm
    obtain ⟨-, -, -, hright, -⟩ := updateMain?_eq hm'
    rw [hleft, hright, haccounts]

/-- A record is turned off in any case, if there is one. -/
theorem disable_within {now : Instant} : Within owner fun l => ((), l.disable owner now) := by
  refine .change (fun {l l'} hpart => ?_) (fun {l other} hother => ?_) id
  · have hrecord : l.records.get? owner = l'.records.get? owner := congrArg Part.record hpart
    refine part_eq (congrArg Part.account hpart) ?_ ?_
    · rw [records_disable, records_disable, hrecord]
    · rw [codesOf_dropped rfl, codesOf_dropped rfl]
  · refine part_eq rfl ?_ (codesOf_without_ne rfl hother)
    rw [records_disable, if_neg hother]

/-! ## §5 — changes of accounts -/

theorem get?_setPasswordHash_congr {hash : String} (hpart : l.part owner = l'.part owner) :
    (l.setPasswordHash owner hash).accounts.get? owner =
      (l'.setPasswordHash owner hash).accounts.get? owner := by
  have haccount : l.accounts.get? owner = l'.accounts.get? owner := congrArg Part.account hpart
  rw [get?_setPasswordHash, get?_setPasswordHash, haccount]

theorem setPasswordHash_congr {hash : String} (h : l.accounts = l'.accounts) :
    (l.setPasswordHash owner hash).accounts = (l'.setPasswordHash owner hash).accounts := by
  unfold setPasswordHash
  rw [h]

/-- The password hash is set together with a change of the record under a condition. -/
theorem conditional_within {f : Ledger → Option Ledger} (hash : String)
    (gate : ∀ {l l' : Ledger}, l.part owner = l'.part owner → (f l).isSome = (f l').isSome)
    (accounts : ∀ {l m : Ledger}, f l = some m →
      m.accounts = (l.setPasswordHash owner hash).accounts)
    (record : ∀ {l l' m m' : Ledger}, l.part owner = l'.part owner → f l = some m →
      f l' = some m' → m.records.get? owner = m'.records.get? owner)
    (others : ∀ {l m : Ledger} {other : Uuid}, other ≠ owner → f l = some m →
      m.records.get? other = l.records.get? other)
    (codes : ∀ {l m : Ledger}, f l = some m → m.codes = l.codes) :
    Within owner (Database.conditional f) := by
  refine .conditional gate (fun {l l' m m'} hpart hm hm' => ?_) (fun {l m other} hother hm => ?_)
    fun {l l' m m'} haccounts hm hm' => ?_
  · refine part_eq ?_ (record hpart hm hm') ?_
    · rw [accounts hm, accounts hm']
      exact get?_setPasswordHash_congr hpart
    · rw [codesOf_of_eq (codes hm), codesOf_of_eq (codes hm')]
      exact congrArg Part.codes hpart
  · refine part_eq ?_ (others hother hm) (codesOf_of_eq (codes hm) other)
    rw [accounts hm, get?_setPasswordHash, if_neg hother]
  · rw [accounts hm, accounts hm']
    exact setPasswordHash_congr haccounts

/-- A change of the password is guarded by the record of the account, or not at all. In both cases
it writes rows of that account only. -/
theorem changePassword_within {hash : String} {main : Option (Bytes × Bytes)} :
    Within owner (Database.conditional fun l => l.changePassword? owner hash main) := by
  cases main with
  -- Without a copy there is no condition, and no record is written.
  | none =>
    refine conditional_within hash (fun _ => rfl) (fun hm => ?_)
      (fun {l l' m m'} hpart hm hm' => ?_) (fun _ hm => ?_) codes_changePassword?
    · rw [changePassword?_none_eq hm]
    · rw [changePassword?_none_eq hm, changePassword?_none_eq hm']
      exact congrArg Part.record hpart
    · rw [changePassword?_none_eq hm]
      rfl
  -- With one, the record of the account is asked for the copy that was read.
  | some pair =>
    refine conditional_within hash (fun {l l'} hpart => ?_) (fun hm => ?_)
      (fun {l l' m m'} hpart hm hm' => ?_) (fun hother hm => ?_) codes_changePassword?
    · have hrecord : l.records.get? owner = l'.records.get? owner := congrArg Part.record hpart
      unfold changePassword?
      dsimp only
      rw [hrecord]
      split <;> rfl
    · obtain ⟨-, -, -, haccounts, -⟩ := changePassword?_some_eq hm
      exact haccounts
    · obtain ⟨row, hrow, -, -, hrecords⟩ := changePassword?_some_eq hm
      obtain ⟨row', hrow', -, -, hrecords'⟩ := changePassword?_some_eq hm'
      have hrecord : l.records.get? owner = l'.records.get? owner := congrArg Part.record hpart
      rw [hrow, hrow'] at hrecord
      cases hrecord
      rw [hrecords, hrecords', if_pos rfl, if_pos rfl]
    · obtain ⟨row, hrow, -, -, hrecords⟩ := changePassword?_some_eq hm
      rw [hrecords, if_neg hother]

/-- A recovery is guarded by the fingerprint in the record of the account. -/
theorem recover_within {expected hash : String} {copies : Copies} :
    Within owner (Database.conditional fun l => l.recover? owner expected hash copies) := by
  refine conditional_within hash (fun {l l'} hpart => ?_) (fun hm => ?_)
    (fun {l l' m m'} hpart hm hm' => ?_) (fun hother hm => ?_) codes_recover?
  · have hrecord : l.records.get? owner = l'.records.get? owner := congrArg Part.record hpart
    unfold recover?
    rw [hrecord]
    split <;> rfl
  · obtain ⟨-, -, -, haccounts, -⟩ := recover?_eq hm
    exact haccounts
  · obtain ⟨row, hrow, -, -, hrecords⟩ := recover?_eq hm
    obtain ⟨row', hrow', -, -, hrecords'⟩ := recover?_eq hm'
    have hrecord : l.records.get? owner = l'.records.get? owner := congrArg Part.record hpart
    rw [hrow, hrow'] at hrecord
    cases hrecord
    rw [hrecords, hrecords', if_pos rfl, if_pos rfl]
  · obtain ⟨row, hrow, -, -, hrecords⟩ := recover?_eq hm
    rw [hrecords, if_neg hother]

/-- A deletion takes the rows of the account out of all three tables. -/
theorem remove_within : Within owner fun l => ((), l.remove owner) := by
  refine .change (fun {l l'} hpart => ?_) (fun {l other} hother => ?_) fun {l l'} haccounts => ?_
  · refine part_eq ?_ ?_ ?_
    · rw [accounts_remove, accounts_remove, if_pos rfl, if_pos rfl]
    · rw [records_remove, records_remove, if_pos rfl, if_pos rfl]
    · rw [codesOf_dropped rfl, codesOf_dropped rfl]
  · refine part_eq ?_ ?_ (codesOf_without_ne rfl hother)
    · rw [accounts_remove, if_neg hother]
    · rw [records_remove, if_neg hother]
  · show l.accounts.erase owner = l'.accounts.erase owner
    rw [haccounts]

/-! ## §6 — all of them -/

/-- The transactions that the service makes for an account, but for the look at its record. -/
inductive Transaction (owner : Uuid) : {α : Type} → (Ledger → α × Ledger) → Prop where
  | account : Transaction owner fun l => (l.accounts.get? owner, l)
  | remove : Transaction owner fun l => ((), l.remove owner)
  | countCodes : Transaction owner fun l => (l.countCodes owner, l)
  | replaceCodes (hashes : List String) :
      Transaction owner fun l => ((), l.replaceCodes owner hashes)
  | consumeCode (hash : String) :
      Transaction owner (Database.conditional fun l => l.consumeCode? owner hash)
  | enable (copies : Copies) (now : Instant) :
      Transaction owner (Database.conditional fun l => l.enable? owner copies now)
  | updateMain (expected main : Bytes) (now : Instant) :
      Transaction owner (Database.conditional fun l => l.updateMain? owner expected main now)
  | disable (now : Instant) : Transaction owner fun l => ((), l.disable owner now)
  | changePassword (hash : String) (main : Option (Bytes × Bytes)) :
      Transaction owner (Database.conditional fun l => l.changePassword? owner hash main)
  | recover (expected hash : String) (copies : Copies) :
      Transaction owner (Database.conditional fun l => l.recover? owner expected hash copies)

theorem Transaction.within {f : Ledger → α × Ledger} (h : Transaction owner f) :
    Within owner f := by
  cases h with
  | account => exact account_within
  | remove => exact remove_within
  | countCodes => exact countCodes_within
  | replaceCodes hashes => exact replaceCodes_within
  | consumeCode hash => exact consumeCode_within
  | enable copies now => exact enable_within
  | updateMain expected main now => exact updateMain_within
  | disable now => exact disable_within
  | changePassword hash main => exact changePassword_within
  | recover expected hash copies => exact recover_within

end SecondFactor.Ledger
