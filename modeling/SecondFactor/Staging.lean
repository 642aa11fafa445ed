import SecondFactor.Gallery
import SecondFactor.Instant
import SecondFactor.Otp.Secret
import SecondFactor.Table

/-!
# Pending secrets

Between setting up a second factor and activating it, the secret is held in memory, one for an
account, with the key derived from the password of the set-up and the image that shows it. A later
set-up takes the place of an earlier one. A secret that is replaced, removed or found expired
takes its image along. Entries can be put and removed at any time; a look that asks whether an entry
is expired fails when that would be beyond the calendar, and the entry stays.
-/

namespace SecondFactor

/-- A secret that waits for its first code. -/
structure Pending where
  /-- Tells set-ups of one account apart. -/
  id : Uuid
  /-- The key derived from the password of the set-up. -/
  passwordKey : Key
  secret : Otp.Secret
  image : ImageRef
  created : Instant
  deriving DecidableEq

structure Staging where
  entries : Table Uuid Pending
  gallery : Gallery

namespace Staging

/-- Whether an entry has outlived its time, in seconds, if that ends within the calendar. -/
def isExpired? (lifetime : Int) (now : Instant) (entry : Pending) : Option Bool :=
  (entry.created.after? lifetime).map fun expires => decide (expires ≤ now)

/-- The staging without the entry of an account and without its image. -/
def discard (s : Staging) (owner : Uuid) : Staging :=
  match s.entries.get? owner with
  | none => s
  | some entry => ⟨s.entries.erase owner, s.gallery.delete entry.image⟩

def put (s : Staging) (owner : Uuid) (entry : Pending) : Staging :=
  let cleared := s.discard owner
  { cleared with entries := cleared.entries.put owner entry }

/-- Saves the image of an entry and puts the entry. -/
def enter (s : Staging) (owner : Uuid) (entry : Pending) (content : Bytes) : Except Cause Staging :=
  (s.gallery.save entry.image content).map fun gallery => put { s with gallery } owner entry

/-- The entry of an account; an expired one is dropped. -/
def look (lifetime : Int) (now : Instant) (owner : Uuid) (s : Staging) :
    Except Failure (Option Pending) × Staging :=
  match s.entries.get? owner with
  | none => (.ok none, s)
  | some entry => match isExpired? lifetime now entry with
    | none => (.error .crash, s)
    | some true => (.ok none, s.discard owner)
    | some false => (.ok (some entry), s)

/-- Changes the entry of an account; an expired one is dropped. -/
def amend (lifetime : Int) (now : Instant) (owner : Uuid) (f : Pending → Pending) (s : Staging) :
    Except Failure Unit × Staging :=
  match s.look lifetime now owner with
  | (.error failure, s) => (.error failure, s)
  | (.ok none, s) => (.ok (), s)
  | (.ok (some entry), s) => (.ok (), { s with entries := s.entries.put owner (f entry) })

def has (s : Staging) (owner : Uuid) : Bool := (s.entries.get? owner).isSome

/-- The staging without the entry of an account, if it is still the one named. -/
def discardIf (s : Staging) (owner id : Uuid) : Staging :=
  if (s.entries.get? owner).any (·.id == id) then s.discard owner else s

def expiredOwners (lifetime : Int) (now : Instant) (s : Staging) : List Uuid :=
  (s.entries.filter fun row => isExpired? lifetime now row.2 = some true).map Prod.fst

/-- Drops expired entries: how many there were. None is dropped when one fails to be looked at. -/
def purge (lifetime : Int) (now : Instant) (s : Staging) : Except Failure Nat × Staging :=
  if s.entries.all fun row => (isExpired? lifetime now row.2).isSome then
    let owners := s.expiredOwners lifetime now
    (.ok owners.length, owners.foldl discard s)
  else (.error .crash, s)

end Staging

end SecondFactor
