import SecondFactor.Proofs.BackupCode
import SecondFactor.Proofs.Service.Calm
import SecondFactor.Proofs.Stores

/-!
# Sets of backup codes

What the ledger keeps of a set of codes are rows with their hashes, and it does not say which set
they are from. The history does: the set of an account is the one that was drawn last, as long as
the record has stayed on since, and the codes of it that were accepted are used.

## The architecture

* **`Ledger.codesOf`** — the rows of an account, and what each change of the ledger makes of them.
* **`Turn.entered?`**, **`Turn.spends?`**, **`Turn.renewsCodes`** — what a turn does with codes.
* **`History.codeSet`**, **`History.spentCodes`** — the set of an account, and what was used of it.
-/

namespace SecondFactor

open Service (Call Reply)

/-! ## §1 — the rows of an account -/

namespace Ledger

variable {l l' : Ledger} {owner subject : Uuid} {hash : String}

/-- The rows of the backup codes of an account. -/
def codesOf (l : Ledger) (owner : Uuid) : List (Uuid × String) :=
  l.codes.filter fun row => row.1 = owner

/-- The service counts the codes of an account, and here its rows are taken one by one. Both are the
same selection from the ledger. -/
theorem length_codesOf (l : Ledger) (owner : Uuid) :
    (l.codesOf owner).length = l.countCodes owner :=
  List.countP_eq_length_filter.symm

theorem codesOf_of_eq (h : l'.codes = l.codes) (owner : Uuid) :
    l'.codesOf owner = l.codesOf owner := by
  rw [codesOf, h, codesOf]

/-- A write that drops the codes of one account drops nothing else, so it is enough to ask whose
rows are looked at. -/
theorem codesOf_of_without (h : l'.codes = l.codesWithout subject) (owner : Uuid) :
    l'.codesOf owner = if owner = subject then [] else l.codesOf owner := by
  rw [codesOf, h, codesWithout, List.filter_filter]
  split
  · rename_i heq
    rw [List.filter_eq_nil_iff]
    intro row _
    rw [heq]
    simp
  · rename_i hother
    refine List.filter_congr fun row _ => ?_
    -- A row of the one account is not a row of the other.
    by_cases hrow : row.1 = owner
    · simp [hrow, hother]
    · simp [hrow]

/-- A new set takes the place of whatever the account had; the rows of others stay in their
order. -/
theorem codesOf_replaceCodes (l : Ledger) (subject owner : Uuid) (hashes : List String) :
    (l.replaceCodes subject hashes).codesOf owner =
      if owner = subject then hashes.map fun hash => (owner, hash) else l.codesOf owner := by
  have hold : (l.codesWithout subject).filter (fun row => decide (row.1 = owner)) =
      if owner = subject then [] else l.codesOf owner :=
    @codesOf_of_without l { l with codes := l.codesWithout subject } subject rfl owner
  rw [codesOf, replaceCodes, List.filter_append, hold]
  split
  · rename_i heq
    rw [heq, List.nil_append, List.filter_eq_self]
    intro row hrow
    obtain ⟨hash, -, rfl⟩ := List.mem_map.1 hrow
    exact decide_eq_true rfl
  · rename_i hother
    have hnew : (hashes.map fun hash => (subject, hash)).filter
        (fun row => decide (row.1 = owner)) = [] := by
      rw [List.filter_eq_nil_iff]
      intro row hrow
      obtain ⟨hash, -, rfl⟩ := List.mem_map.1 hrow
      simpa using Ne.symm hother
    rw [hnew, List.append_nil, codesOf]

theorem codesOf_of_consumed (h : l'.codes = l.codes.erase (subject, hash)) (owner : Uuid) :
    l'.codesOf owner = (l.codesOf owner).erase (subject, hash) := by
  rw [codesOf, h, codesOf, List.erase_filter]

/-- A code that is consumed costs no other account a row, even if that has a row under the same
hash: the row names its owner. -/
theorem codesOf_of_consumed_ne (h : l'.codes = l.codes.erase (subject, hash))
    (hother : owner ≠ subject) : l'.codesOf owner = l.codesOf owner := by
  rw [codesOf_of_consumed h, List.erase_of_not_mem]
  intro hmem
  exact hother (of_decide_eq_true (List.mem_filter.1 hmem).2).symm

/-- An account whose record is off has no codes. -/
theorem Shaped.codesOf_eq_nil (h : l.Shaped) (hoff : l.enabled owner = false) :
    l.codesOf owner = [] := by
  rw [codesOf, List.filter_eq_nil_iff]
  intro row hrow heq
  have hon := h.codes row hrow
  rw [of_decide_eq_true heq, hoff] at hon
  cases hon

end Ledger

/-! ## §2 — what a turn does with codes -/

namespace Turn

variable (D : Deployment) (t : Turn) (s : State) (owner : Uuid)

/-- The call of the turn is refused. -/
def refused : Bool :=
  match t.failure? D s with
  | some (.refused _) => true
  | _ => false

/-- The code that is entered for an account. -/
def entered? : Option String :=
  match t.call? D s with
  | some (.validateBackupCode session typed) =>
    if session.owner = owner then (BackupCode.normalize typed).toOption else none
  | _ => none

/-- The code that is accepted for an account: what is entered, unless the call is refused. -/
def spends? : Option String := if t.refused D s then none else t.entered? D s owner

/-- Whether the turn draws a new set for an account. -/
def renewsCodes : Bool :=
  match t.call? D s, t.outcome D s with
  | some (.generateBackupCodes session _), some (.ok _) => session.owner == owner
  | _, _ => false

variable {D t s owner} {call : Call} {session : Session}

theorem spends?_of_entered_none (h : t.entered? D s owner = none) :
    t.spends? D s owner = none := by
  rw [spends?, h, ite_self]

theorem entered?_eq {typed : String}
    (hcall : t.call? D s = some (.validateBackupCode session typed))
    (howner : session.owner = owner) :
    t.entered? D s owner = (BackupCode.normalize typed).toOption := by
  rw [entered?, hcall]
  exact if_pos howner

/-- Only a verification by a backup code enters one, and only for the account of its session. Every
other call of a walk is settled by this. -/
theorem entered?_eq_none (hcall : t.call? D s = some call)
    (hother : ∀ session typed, call = .validateBackupCode session typed →
      session.owner ≠ owner) : t.entered? D s owner = none := by
  unfold entered?
  rw [hcall]
  split
  · rename_i session typed heq
    exact if_neg (hother session typed (Option.some.inj heq))
  · rfl

theorem entered?_of_none (hcall : t.call? D s = none) : t.entered? D s owner = none := by
  rw [entered?, hcall]

/-- Only a request for new codes draws a set, and only for the account of its session. -/
theorem renewsCodes_eq_false (hcall : t.call? D s = some call)
    (hother : ∀ session password, call = .generateBackupCodes session password →
      session.owner ≠ owner) : t.renewsCodes D s owner = false := by
  unfold renewsCodes
  rw [hcall]
  split
  · rename_i session password reply heq _
    exact beq_eq_false_iff_ne.2 (hother session password (Option.some.inj heq))
  · rfl

theorem renewsCodes_of_none (hcall : t.call? D s = none) : t.renewsCodes D s owner = false := by
  unfold renewsCodes
  rw [hcall]

/-- A request for new codes that is not answered has shown none, and does not count as a renewal. It
wrote nothing either, which `codeCourse` shows. -/
theorem renewsCodes_of_error {failure : Failure} (hout : t.outcome D s = some (.error failure)) :
    t.renewsCodes D s owner = false := by
  unfold renewsCodes
  rw [hout]
  split
  · rename_i heq
    cases heq
  · rfl

theorem renewsCodes_eq_true {password : String} {reply : Reply}
    (hcall : t.call? D s = some (.generateBackupCodes session password))
    (hout : t.outcome D s = some (.ok reply)) (howner : session.owner = owner) :
    t.renewsCodes D s owner = true := by
  rw [renewsCodes, hcall, hout]
  exact beq_iff_eq.2 howner

/-- A call that fails was refused unless it broke off. After a break nobody knows from the answer
whether the code was used, so that case is kept apart. -/
theorem refused_of_error {failure : Failure} (hout : t.outcome D s = some (.error failure)) :
    t.refused D s = true ↔ failure ≠ .crash := by
  rw [refused, failure?, hout]
  cases failure with
  | refused cause => exact ⟨fun _ => nofun, fun _ => rfl⟩
  | crash => exact ⟨nofun, fun h => absurd rfl h⟩

theorem refused_of_ok {reply : Reply} (hout : t.outcome D s = some (.ok reply)) :
    t.refused D s = false := by
  rw [refused, failure?, hout]
  rfl

end Turn

/-! ## §3 — sets -/

namespace History

variable (D : Deployment) (owner : Uuid)

/-- The set of codes of an account: what was drawn last, as long as the record has stayed on
since. -/
def codeSet : History → List String
  | start _ => []
  | turn h t =>
    if t.renewsCodes D (h.state D) owner then t.draws.codes.codes
    else if t.staysOn D (h.state D) owner then codeSet h
    else []

/-- The codes of the set that were accepted. -/
def spentCodes : History → List String
  | start _ => []
  | turn h t =>
    if t.renewsCodes D (h.state D) owner then []
    else if t.staysOn D (h.state D) owner then
      (t.spends? D (h.state D) owner).toList ++ spentCodes h
    else []

/-- The codes that were drawn for an account or entered for it. -/
def codeTexts : History → List String
  | start _ => []
  | turn h t =>
    (if t.renewsCodes D (h.state D) owner then t.draws.codes.codes else []) ++
      (t.entered? D (h.state D) owner).toList ++ codeTexts h

/-- No two of the codes that were drawn or entered have one hash. -/
def Collisionless (h : History) : Prop :=
  ∀ code ∈ h.codeTexts D owner, ∀ other ∈ h.codeTexts D owner,
    BackupCode.hash D.primitives D.kdf owner code =
      BackupCode.hash D.primitives D.kdf owner other → code = other

end History

end SecondFactor
