import SecondFactor.Service.State

/-!
# The database

Each query is one transaction on the ledger. The mishap that lies ahead for it comes first; then the
query runs, and an error of the database refuses the request, except that a violated uniqueness of
addresses means that the address is taken.
-/

namespace SecondFactor

abbrev Database.Run (α : Type) := ExceptT DatabaseError (StateM State) α

namespace Database

variable {α : Type}

/-! ## Transactions -/

def transact (f : Ledger → α × Ledger) : Run α :=
  modifyGet fun s => let (a, ledger) := f s.ledger; (a, { s with ledger })

/-- A change that depends on a condition: whether it was made. -/
def conditional (f : Ledger → Option Ledger) (l : Ledger) : Bool × Ledger :=
  match f l with
  | some l' => (true, l')
  | none => (false, l)

/-- Looks a record up. What lies ahead as a stale record is shown instead, once. -/
def lookAtRecord (owner : Uuid) : Run (Option FactorRecord) :=
  modifyGet fun s => match s.mishaps.staleRecord with
    | some record => (some record, { s with mishaps := { s.mishaps with staleRecord := none } })
    | none => (s.ledger.records.get? owner, s)

def enroll (now : Instant) (owner : Uuid) (copies : Copies) : Run Bool := do
  let s ← get
  if s.mishaps.enableFails then
    set { s with mishaps := { s.mishaps with enableFails := false } }
    throw ⟨none⟩
  transact (conditional fun l => l.enable? owner copies now)

/-- Saves the image of an entry and puts the entry, as a request does that sets a second factor
up. -/
def stage (owner : Uuid) (entry : Pending) (content : Bytes) (s : State) : State :=
  match s.staging.enter owner entry content with
  | .ok staging => { s with staging }
  | .error _ => s

/-- Runs a query after what befalls it; `refusal` is its answer when it is refused. -/
def afterMishap (q : Query) (refusal : Option α) (run : Run α) : Run α := do
  let s ← get
  if s.mishaps.down then throw ⟨none⟩
  let (kind, queue) := Mishap.strike q s.mishaps.queue
  set { s with mishaps := { s.mishaps with queue } }
  match kind with
  | none => run
  | some (.fails error) => throw error
  | some .refuses => match refusal with
    | some answer => return answer
    -- A query that has nothing to refuse just runs.
    | none => run
  | some (.preceded owner entry content) =>
    modify (stage owner entry content)
    run

/-- Puts a query; `causeOf` tells what an error of the database means for the request. -/
def put (q : Query) (refusal : Option α) (run : Run α)
    (causeOf : DatabaseError → Cause := fun _ => .database) : Op α :=
  ExceptT.adapt (fun error => .refused (causeOf error)) (afterMishap q refusal run)

/-! ## The queries of the service -/

/-- The name of the constraint that no two accounts have one address. -/
def addressConstraint : String := "users_email_key"

def registrationCause (error : DatabaseError) : Cause :=
  if error.violated = some addressConstraint then .emailTaken else .database

def account (id : Uuid) : Op (Option Account) :=
  put .accountById none (transact fun l => (l.accounts.get? id, l))

def accountByEmail (email : String) : Op (Option (Uuid × Account)) :=
  put .accountByEmail none (transact fun l => (l.findByEmail? email, l))

def createAccount (id : Uuid) (new : Account) : Op Unit :=
  put .createAccount none (transact fun l => ((), l.register id new)) registrationCause

def deleteAccount (id : Uuid) : Op Unit :=
  put .deleteAccount (some ()) (transact fun l => ((), l.remove id))

def record (owner : Uuid) : Op (Option FactorRecord) := put .findRecord none (lookAtRecord owner)

def enable (now : Instant) (owner : Uuid) (copies : Copies) : Op Bool :=
  put .enable (some false) (enroll now owner copies)

/-- Replaces the main copy, if it is still the expected one. -/
def updateMain (now : Instant) (owner : Uuid) (expected main : Bytes) : Op Bool :=
  put .updateMain (some false)
    (transact (conditional fun l => l.updateMain? owner expected main now))

def disable (now : Instant) (owner : Uuid) : Op Unit :=
  put .disable none (transact fun l => ((), l.disable owner now))

def replaceCodes (owner : Uuid) (hashes : List String) : Op Unit :=
  put .replaceCodes none (transact fun l => ((), l.replaceCodes owner hashes))

/-- Uses a backup code up, if the account has it. -/
def consumeCode (owner : Uuid) (hash : String) : Op Bool :=
  put .consumeCode (some false) (transact (conditional fun l => l.consumeCode? owner hash))

def countCodes (owner : Uuid) : Op Nat :=
  put .countCodes none (transact fun l => (l.countCodes owner, l))

/-- Sets the password hash and, when a pair of copies is given, the main copy. -/
def changePassword (owner : Uuid) (hash : String) (main : Option (Bytes × Bytes)) : Op Bool :=
  put .changePassword (some false)
    (transact (conditional fun l => l.changePassword? owner hash main))

/-- Sets the password hash and all copies, if the fingerprint is still the expected one. -/
def recoverPassword (owner : Uuid) (expected hash : String) (copies : Copies) : Op Bool :=
  put .recoverPassword (some false)
    (transact (conditional fun l => l.recover? owner expected hash copies))

end Database

end SecondFactor
