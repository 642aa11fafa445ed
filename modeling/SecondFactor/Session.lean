import SecondFactor.Cause
import SecondFactor.Encoding.Base64
import SecondFactor.Instant
import SecondFactor.Json.Record
import SecondFactor.Primitives
import SecondFactor.Table
import SecondFactor.Uuid

/-!
# Sessions

A login yields a pair of tokens, one for access and one for a new pair. Tokens are random and
opaque; only their digests are kept, with the account, what is known about its second factor (the
claim), the pair they belong to (the family) and when they expire. Refreshing and changing the
claim replace the whole family.

A pair whose tokens last beyond the calendar cannot be handed out. What was entered and revoked
until that is noticed stays so.
-/

namespace SecondFactor

/-- Whether an account has a second factor. -/
inductive Status where
  | off
  | on
  deriving DecidableEq

def Status.text : Status → String
  | .off => "off"
  | .on => "on"

/-- What a session says about the second factor of its account. -/
inductive Claim where
  /-- There never was one, or it was just given up. -/
  | empty
  | off
  /-- There is one, and it was not checked in this session. -/
  | on
  /-- It was checked in this session. -/
  | verified
  deriving DecidableEq

namespace Claim

def text : Claim → String
  | empty => ""
  | off => "off"
  | on => "on"
  | verified => "verified"

def all : List Claim := [empty, off, on, verified]

def ofText? (s : String) : Option Claim := all.find? (·.text = s)

/-- The claim that a JSON document consists of. -/
def decode (document : Bytes) : Except Json.Fault Claim := do
  match ofText? (← Json.decodeChoice (all.map text) document) with
  | some claim => return claim
  | none => throw .mismatch

def ofStatus : Option Status → Claim
  | none => empty
  | some .off => off
  | some .on => on

def isUnenrolled : Claim → Bool
  | empty | off => true
  | on | verified => false

end Claim

structure Session where
  owner : Uuid
  claim : Claim
  family : Uuid
  deriving DecidableEq

namespace Session

inductive Kind where
  | access
  | refresh
  deriving DecidableEq

structure Entry where
  owner : Uuid
  claim : Claim
  kind : Kind
  family : Uuid
  expires : Instant
  deriving DecidableEq

/-- The tokens in use, by their digests. -/
abbrev Registry := Table Key Entry

/-- How long tokens last, in seconds. -/
structure Lifetimes where
  access : Int
  refresh : Int

structure Draws where
  family : Uuid
  access : Vector UInt8 32
  refresh : Vector UInt8 32

structure Tokens where
  access : String
  refresh : String
  expiresIn : Int
  claim : Claim
  deriving DecidableEq

def tokenText (entropy : Vector UInt8 32) : String := Base64.encode .urlSafe entropy.toList

variable (P : Primitives)

/-- The digest under which a token is kept. -/
def digest (token : String) : Key := P.digest (Bytes.ofText token)

/-- A new pair of tokens for an account. The access token is entered before it is known when the
refresh token expires. -/
def issue (lifetimes : Lifetimes) (now : Instant) (draws : Draws) (owner : Uuid) (claim : Claim)
    (registry : Registry) : Except Failure Tokens × Registry :=
  let access := tokenText draws.access
  let refresh := tokenText draws.refresh
  let entry (kind : Kind) (expires : Instant) : Entry :=
    { owner, claim, kind, family := draws.family, expires }
  match now.after? lifetimes.access with
  | none => (.error .crash, registry)
  | some expires =>
    let registry := registry.put (digest P access) (entry .access expires)
    match now.after? lifetimes.refresh with
    | none => (.error .crash, registry)
    | some expires =>
      (.ok { access, refresh, expiresIn := lifetimes.access, claim },
        registry.put (digest P refresh) (entry .refresh expires))

/-- The entry of a token of the given kind that has not expired. -/
def find? (kind : Kind) (now : Instant) (token : String) (registry : Registry) : Option Entry :=
  (registry.get? (digest P token)).filter fun entry =>
    entry.kind == kind && !decide (entry.expires ≤ now)

def authenticate? (now : Instant) (token : String) (registry : Registry) : Option Session :=
  (find? P .access now token registry).map fun entry => ⟨entry.owner, entry.claim, entry.family⟩

def revokeFamily (family : Uuid) (registry : Registry) : Registry :=
  registry.keep fun entry => entry.family ≠ family

def revokeOwner (owner : Uuid) (registry : Registry) : Registry :=
  registry.keep fun entry => entry.owner ≠ owner

def purge (now : Instant) (registry : Registry) : Registry :=
  registry.keep fun entry => !decide (entry.expires ≤ now)

/-- A new pair for a refresh token, which its whole family makes way for. -/
def refresh (lifetimes : Lifetimes) (now : Instant) (draws : Draws) (token : String)
    (registry : Registry) : Except Failure Tokens × Registry :=
  match find? P .refresh now token registry with
  | none => (.error (.refused .unauthorized), registry)
  | some entry =>
    issue P lifetimes now draws entry.owner entry.claim (revokeFamily entry.family registry)

/-- A new pair with another claim, which the session's family makes way for. -/
def reissue (lifetimes : Lifetimes) (now : Instant) (draws : Draws) (s : Session) (claim : Claim)
    (registry : Registry) : Except Failure Tokens × Registry :=
  issue P lifetimes now draws s.owner claim (revokeFamily s.family registry)

/-- A new pair for an account, which all its other tokens make way for. -/
def replaceAll (lifetimes : Lifetimes) (now : Instant) (draws : Draws) (owner : Uuid)
    (claim : Claim) (registry : Registry) : Except Failure Tokens × Registry :=
  issue P lifetimes now draws owner claim (revokeOwner owner registry)

end Session

end SecondFactor
