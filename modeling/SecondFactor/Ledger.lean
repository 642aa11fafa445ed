import SecondFactor.BackupCode
import SecondFactor.Instant
import SecondFactor.Json.Object
import SecondFactor.Session
import SecondFactor.Otp.Secret
import SecondFactor.Table

/-!
# The ledger of accounts

What outlives a restart: the accounts, the second factor of each, and the hashes of backup codes.
Each change is one transaction. A change that depends on what its caller has read names it, and is
refused, without any effect, when it is no longer so.
-/

namespace SecondFactor

structure Account where
  email : String
  passwordHash : String
  created : Instant
  updated : Instant
  deriving DecidableEq

/-- What is shown of an account: all but the password hash. -/
def Account.members (a : Account) (id : Uuid) : Json.Object :=
  [("id", .text id.toText), ("email", .text a.email), ("created_at", .text a.created.logText),
   ("updated_at", .text a.updated.logText)]

/-- A secret sealed twice, under a key from the password and under a key from the recovery key,
with the fingerprint of the recovery key. -/
structure Copies where
  main : Bytes
  backup : Bytes
  fingerprint : String
  deriving DecidableEq

structure FactorRecord where
  main : Option Bytes
  backup : Option Bytes
  fingerprint : Option String
  enabled : Bool
  created : Instant
  updated : Instant
  deriving DecidableEq

namespace FactorRecord

def status (r : FactorRecord) : Status := if r.enabled then .on else .off

/-- What is shown of a record: nothing of the copies. -/
def members (r : FactorRecord) (owner : Uuid) : Json.Object :=
  [("user_id", .text owner.toText), ("enabled", .flag r.enabled),
   ("created_at", .text r.created.logText), ("updated_at", .text r.updated.logText)]

/-- The copies of an enabled record, when all are there and none is empty. -/
def active? (r : FactorRecord) : Option Copies :=
  match r.enabled, r.main, r.backup, r.fingerprint with
  | true, some main, some backup, some fingerprint =>
    if main.isEmpty || backup.isEmpty || fingerprint.isEmpty then none
    else some ⟨main, backup, fingerprint⟩
  | _, _, _, _ => none

def ofCopies (c : Copies) (created updated : Instant) : FactorRecord :=
  { main := some c.main
    backup := some c.backup
    fingerprint := some c.fingerprint
    enabled := true
    created
    updated }

def hasMain (r : FactorRecord) (main : Bytes) : Bool := r.enabled && r.main == some main

def hasFingerprint (r : FactorRecord) (fingerprint : String) : Bool :=
  r.enabled && r.fingerprint == some fingerprint

end FactorRecord

structure Ledger where
  accounts : Table Uuid Account
  records : Table Uuid FactorRecord
  /-- The hashes of the unused codes with their accounts. -/
  codes : List (Uuid × String)

namespace Ledger

def empty : Ledger := ⟨[], [], []⟩

/-! ## Accounts -/

def findByEmail? (l : Ledger) (email : String) : Option (Uuid × Account) :=
  l.accounts.find? fun row => row.2.email = email

def register (l : Ledger) (id : Uuid) (account : Account) : Ledger :=
  { l with accounts := l.accounts.put id account }

def codesWithout (l : Ledger) (owner : Uuid) : List (Uuid × String) :=
  l.codes.filter fun row => row.1 ≠ owner

def remove (l : Ledger) (id : Uuid) : Ledger :=
  { accounts := l.accounts.erase id, records := l.records.erase id, codes := l.codesWithout id }

def setPasswordHash (l : Ledger) (id : Uuid) (hash : String) : Ledger :=
  { l with accounts := l.accounts.modify id fun a => { a with passwordHash := hash } }

/-! ## Second factors -/

/-- Turns the second factor on, unless it is on already. Backup codes from before are dropped. -/
def enable? (l : Ledger) (owner : Uuid) (copies : Copies) (now : Instant) : Option Ledger :=
  let before := l.records.get? owner
  if before.any (·.enabled) then none
  else
    let created := (before.map (·.created)).getD now
    some { l with
      records := l.records.put owner (.ofCopies copies created now)
      codes := l.codesWithout owner }

/-- Replaces the main copy, if it is still the expected one. -/
def updateMain? (l : Ledger) (owner : Uuid) (expected main : Bytes) (now : Instant) :
    Option Ledger :=
  if (l.records.get? owner).any (·.hasMain expected) then
    some { l with
      records := l.records.modify owner fun r => { r with main := some main, updated := now } }
  else none

/-- Turns the second factor off and drops all that belongs to it. -/
def disable (l : Ledger) (owner : Uuid) (now : Instant) : Ledger :=
  { l with
    records := l.records.modify owner fun r =>
      { r with main := none, backup := none, fingerprint := none, enabled := false, updated := now }
    codes := l.codesWithout owner }

/-- Sets the password hash and, for an account with a second factor, the main copy, if that is
still the expected one. -/
def changePassword? (l : Ledger) (owner : Uuid) (hash : String) (main : Option (Bytes × Bytes)) :
    Option Ledger :=
  match main with
  | none => some (l.setPasswordHash owner hash)
  | some (expected, rewrapped) =>
    if (l.records.get? owner).any (·.hasMain expected) then
      let l := { l with
        records := l.records.modify owner fun r => { r with main := some rewrapped } }
      some (l.setPasswordHash owner hash)
    else none

/-- Sets the password hash and all copies, if the fingerprint is still the expected one. -/
def recover? (l : Ledger) (owner : Uuid) (expected : String) (hash : String) (copies : Copies) :
    Option Ledger :=
  if (l.records.get? owner).any (·.hasFingerprint expected) then
    let l := { l with
      records := l.records.modify owner fun r =>
        { r with
          main := some copies.main
          backup := some copies.backup
          fingerprint := some copies.fingerprint } }
    some (l.setPasswordHash owner hash)
  else none

/-! ## Backup codes -/

def replaceCodes (l : Ledger) (owner : Uuid) (hashes : List String) : Ledger :=
  { l with codes := l.codesWithout owner ++ hashes.map fun hash => (owner, hash) }

/-- The ledger without one code of an account, if the account has it. -/
def consumeCode? (l : Ledger) (owner : Uuid) (hash : String) : Option Ledger :=
  if (owner, hash) ∈ l.codes then some { l with codes := l.codes.erase (owner, hash) } else none

def countCodes (l : Ledger) (owner : Uuid) : Nat := l.codes.countP fun row => row.1 = owner

end Ledger

end SecondFactor
