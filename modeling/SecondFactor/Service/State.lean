import SecondFactor.Ledger
import SecondFactor.Otp.Check
import SecondFactor.Otp.Policy
import SecondFactor.Staging

/-!
# The state of the service and its operations

A running service holds the ledger, the pending secrets with their images, and the tokens in use.
What it needs from outside comes with each request: the clock reading and the random values, of
which a request takes those that it has a use for. An operation either yields a result or is
refused; what it did before it was refused stays done.

The database can fail. Mishaps that lie ahead are part of the state, so that a statement about all
states is one about every course of failures.
-/

namespace SecondFactor

/-! ## Mishaps -/

inductive Query where
  | accountById
  | accountByEmail
  | createAccount
  | deleteAccount
  | findRecord
  | enable
  | updateMain
  | disable
  | replaceCodes
  | consumeCode
  | countCodes
  | changePassword
  | recoverPassword
  deriving DecidableEq

/-- An error of the database, with the name of the constraint that was violated, if one was. -/
structure DatabaseError where
  violated : Option String
  deriving DecidableEq

/-- What a mishap does to a query. -/
inductive Mishap.Kind where
  | fails (error : DatabaseError)
  /-- A conditional change is refused without effect. -/
  | refuses
  /-- Another request stages a secret just before. -/
  | preceded (owner : Uuid) (entry : Pending) (content : Bytes)

/-- A mishap that befalls a query once, after so many of its kind went through. -/
structure Mishap where
  query : Query
  skip : Nat
  kind : Mishap.Kind

structure Mishaps where
  /-- The database cannot be reached at all. -/
  down : Bool := false
  queue : List Mishap := []
  /-- What the next look at a record shows, as if the record had changed since. -/
  staleRecord : Option FactorRecord := none
  /-- The next enrollment fails. -/
  enableFails : Bool := false

/-- What befalls a query, and the mishaps after it: the first mishap for such queries either
strikes or has one query less to wait for. -/
def Mishap.strike (q : Query) : List Mishap → Option Mishap.Kind × List Mishap
  | [] => (none, [])
  | m :: ms =>
    if m.query = q then
      if m.skip = 0 then (some m.kind, ms) else (none, { m with skip := m.skip - 1 } :: ms)
    else
      let (kind, rest) := Mishap.strike q ms
      (kind, m :: rest)

/-! ## State and operations -/

structure State where
  ledger : Ledger
  staging : Staging
  sessions : Session.Registry
  mishaps : Mishaps

def State.initial (gallery : Gallery) : State :=
  { ledger := .empty, staging := ⟨[], gallery⟩, sessions := [], mishaps := {} }

structure Deployment where
  primitives : Primitives
  policy : Otp.Policy
  kdf : Kdf
  /-- How long a pending secret lasts, in seconds. -/
  pendingLifetime : Int
  sessionLifetimes : Session.Lifetimes

structure Draws where
  account : Uuid
  entry : Uuid
  image : ImageRef
  secretKey : Vector UInt8 20
  recoveryKey : Vector UInt8 20
  passwordSalt : Salt
  fingerprintSalt : Salt
  mainNonce : Nonce
  backupNonce : Nonce
  tokens : Session.Draws
  codes : BackupCode.Stream
  reference : Uuid

/-- What a request meets: the set-up, the time and the random values. -/
structure Occasion where
  deployment : Deployment
  now : Instant
  draws : Draws

abbrev Op (α : Type) := ExceptT Failure (StateM State) α

namespace Op

variable {α : Type}

def refuse (cause : Cause) : Op α := throw (.refused cause)

/-- Goes on with a result, or ends as it did. -/
def ofResult : Except Failure α → Op α
  | .ok a => pure a
  | .error failure => throw failure

/-- Goes on with a result, or refuses the request. -/
def demand : Except Cause α → Op α
  | .ok a => pure a
  | .error cause => refuse cause

/-- Goes on with what is there, or refuses the request. -/
def require (cause : Cause) : Option α → Op α
  | some a => pure a
  | none => refuse cause

/-- Refuses the request unless a condition holds. -/
def ensure (cause : Cause) (condition : Bool) : Op Unit :=
  if condition then pure () else refuse cause

/-- Runs an operation on the pending secrets, which keep what it did even if it fails. -/
def onStaging (f : Staging → Except Failure α × Staging) : Op α :=
  ExceptT.mk fun s => let (result, staging) := f s.staging; (result, { s with staging })

def changeStaging (f : Staging → Staging) : Op Unit :=
  modify fun s => { s with staging := f s.staging }

/-- Runs an operation on the tokens in use, which keep what it did even if it fails. -/
def onSessions (f : Session.Registry → Except Failure α × Session.Registry) : Op α :=
  ExceptT.mk fun s => let (result, sessions) := f s.sessions; (result, { s with sessions })

def changeSessions (f : Session.Registry → Session.Registry) : Op Unit :=
  modify fun s => { s with sessions := f s.sessions }

end Op

end SecondFactor
