import Mathlib.Data.List.Forall2
import SecondFactor.Proofs.Ledger
import SecondFactor.Proofs.Service.Steady

/-!
# One state in two guises

Two states may hold the same in all that matters and still keep it in different forms: a record may
be older in one than in the other, or off in one and not there at all in the other. Who logs in is
told whether there is a record, and then the session says *off* in one state and nothing in the
other. Every change of the ledger and of the tokens keeps such a difference what it is.

## The architecture

* **`Claim.PassesFor`** — *off* may be said in the place of nothing.
* **`Guise`** — how the records of two states may differ, and for which accounts claims may.
* **`Guise.likeness`** — states that differ in guise are alike; **`Guise.Lawful`** — what changes of
  records have to keep.
* **`Ledgers.remove`**, **`Ledgers.enable?`** and so on — the changes of a ledger.
* **`Registries.issue`**, **`Registries.refresh`** — a claim is handed on as it is.
-/

namespace SecondFactor

open Service (Call Reply)

/-! ## §1 — claims -/

/-- A claim is said where the other might be: they are the same, or one is *off* and the other is
nothing. -/
def Claim.PassesFor (claim claim' : Claim) : Prop :=
  claim = claim' ∨ claim = .off ∧ claim' = .empty

/-- The same tokens, but for the claim that is shown with them. -/
def Session.Tokens.PassFor (tokens tokens' : Session.Tokens) : Prop :=
  ∃ claim, tokens' = { tokens with claim } ∧ tokens.claim.PassesFor claim

/-- Two overviews that agree but for what the session claims. -/
def Service.Overview.PassesFor (v v' : Service.Overview) : Prop :=
  ∃ claim, v' = { v with claim } ∧ v.claim.PassesFor claim

/-- The same reply, but for the claim that is shown. -/
inductive Service.Reply.PassesFor : Reply → Reply → Prop where
  | same (reply : Reply) : PassesFor reply reply
  | login {tokens tokens' : Session.Tokens} (h : tokens.PassFor tokens') :
      PassesFor (.login tokens) (.login tokens')
  | tokens {tokens tokens' : Session.Tokens} (h : tokens.PassFor tokens') :
      PassesFor (.tokens tokens) (.tokens tokens')
  | overview {v v' : Service.Overview} (h : v.PassesFor v') : PassesFor (.overview v) (.overview v')

/-- The call of a session that makes another claim. -/
def Service.Call.withClaim (claim : Claim) : Call → Call
  | .logout session => .logout { session with claim }
  | .deleteAccount session password => .deleteAccount { session with claim } password
  | .overview session => .overview { session with claim }
  | .setup session password => .setup { session with claim } password
  | .image session name => .image { session with claim } name
  | .activate session code => .activate { session with claim } code
  | .validate session password code => .validate { session with claim } password code
  | .validateBackupCode session code => .validateBackupCode { session with claim } code
  | .generateBackupCodes session password => .generateBackupCodes { session with claim } password
  | .deactivate session password => .deactivate { session with claim } password
  | .changePassword session current new => .changePassword { session with claim } current new
  | call => call

/-! ## §2 — guises -/

/-- How two states may differ in guise. -/
structure Guise where
  records : Table Uuid FactorRecord → Table Uuid FactorRecord → Prop
  /-- The accounts whose sessions may say *off* in one state and nothing in the other. -/
  vague : Uuid → Prop

namespace Guise

variable (G : Guise)

/-- What the sessions of an account may say. -/
def Claims (owner : Uuid) (claim claim' : Claim) : Prop :=
  claim = claim' ∨ G.vague owner ∧ claim = .off ∧ claim' = .empty

/-- The same session, but for what it says. -/
def Sessions (session session' : Session) : Prop :=
  ∃ claim, session' = { session with claim } ∧ G.Claims session.owner session.claim claim

/-- The same entry of a token, but for what its session says. -/
def Entries (entry entry' : Session.Entry) : Prop :=
  ∃ claim, entry' = { entry with claim } ∧ G.Claims entry.owner entry.claim claim

/-- Two ledgers that agree but for the records, which are as the guise says. -/
structure Ledgers (l l' : Ledger) : Prop where
  accounts : l.accounts = l'.accounts
  records : G.records l.records l'.records
  codes : l.codes = l'.codes

/-- The same tokens under the same digests. -/
def Registries (registry registry' : Session.Registry) : Prop :=
  List.Forall₂ (fun row row' => row'.1 = row.1 ∧ G.Entries row.2 row'.2) registry registry'

/-- States that differ in guise are alike. -/
def likeness : Likeness where
  ledger := G.Ledgers
  staging _ s t := s = t
  sessions := G.Registries

/-- Two states differ in guise. -/
abbrev Rel : State → State → Prop := G.likeness.Rel []

/-- What a notion of guise has to say about records. -/
structure Lawful : Prop where
  contents : ∀ {r r'}, G.records r r' → ∀ owner, SameContents (r.get? owner) (r'.get? owner)
  claims : ∀ {r r'}, G.records r r' → ∀ owner,
    G.Claims owner (.ofStatus ((r.get? owner).map FactorRecord.status))
      (.ofStatus ((r'.get? owner).map FactorRecord.status))
  erase : ∀ {r r'}, G.records r r' → ∀ owner, G.records (r.erase owner) (r'.erase owner)
  /-- A record that is on is changed, or one is turned off. -/
  modify : ∀ {r r'}, G.records r r' → ∀ (owner : Uuid) (f : FactorRecord → FactorRecord),
    (∀ row created, f { row with created } = { f row with created }) →
    (r.get? owner).any (·.enabled) = true ∨ (∀ row, (f row).enabled = false) →
    G.records (r.modify owner f) (r'.modify owner f)
  /-- One that is not on is turned on. -/
  enable : ∀ {r r'}, G.records r r' → ∀ (owner : Uuid) (copies : Copies) (now : Instant),
    (r.get? owner).any (·.enabled) = false → G.records
      (r.put owner (.ofCopies copies (((r.get? owner).map (·.created)).getD now) now))
      (r'.put owner (.ofCopies copies (((r'.get? owner).map (·.created)).getD now) now))

variable {G}

theorem Claims.refl (owner : Uuid) (claim : Claim) : G.Claims owner claim claim := .inl rfl

theorem Claims.passesFor {owner : Uuid} {claim claim' : Claim} (h : G.Claims owner claim claim') :
    claim.PassesFor claim' := by
  rcases h with rfl | ⟨-, h⟩
  · exact .inl rfl
  · exact .inr h

theorem rel_ahead {ahead : List Arrival} {s t : State} (h : G.Rel s t) :
    G.likeness.Rel ahead s t :=
  ⟨h.mishaps, h.ledger, h.staging, h.sessions⟩

/-! ## §3 — the ledger -/

namespace Ledgers

variable {l l' : Ledger}

theorem codesWithout (h : G.Ledgers l l') (owner : Uuid) :
    l.codesWithout owner = l'.codesWithout owner := by
  unfold Ledger.codesWithout
  rw [h.codes]

/-- Accounts are found by what stands in the table of accounts, which is the same. -/
theorem findByEmail? (h : G.Ledgers l l') (email : String) :
    l.findByEmail? email = l'.findByEmail? email := by
  unfold Ledger.findByEmail?
  rw [h.accounts]

theorem register (h : G.Ledgers l l') (id : Uuid) (account : Account) :
    G.Ledgers (l.register id account) (l'.register id account) :=
  ⟨congrArg (Table.put · id account) h.accounts, h.records, h.codes⟩

theorem setPasswordHash (h : G.Ledgers l l') (owner : Uuid) (hash : String) :
    G.Ledgers (l.setPasswordHash owner hash) (l'.setPasswordHash owner hash) :=
  ⟨by unfold Ledger.setPasswordHash; rw [h.accounts], h.records, h.codes⟩

theorem remove (h : G.Ledgers l l') (hG : G.Lawful) (owner : Uuid) :
    G.Ledgers (l.remove owner) (l'.remove owner) :=
  ⟨congrArg (Table.erase · owner) h.accounts, hG.erase h.records owner, h.codesWithout owner⟩

/-- A record is changed in either guise, if the change leaves the age alone and the record is on or
is turned off. A lawful guise allows for no other difference. -/
theorem modify (h : G.Ledgers l l') (hG : G.Lawful) {owner : Uuid}
    {f : FactorRecord → FactorRecord}
    (hcreated : ∀ row created, f { row with created } = { f row with created })
    (hon : (l.records.get? owner).any (·.enabled) = true ∨ ∀ row, (f row).enabled = false) :
    G.Ledgers { l with records := l.records.modify owner f }
      { l' with records := l'.records.modify owner f } :=
  ⟨h.accounts, hG.modify h.records owner f hcreated hon, h.codes⟩

/-- A record is turned off in both guises. -/
theorem disable (h : G.Ledgers l l') (hG : G.Lawful) (owner : Uuid) (now : Instant) :
    G.Ledgers (l.disable owner now) (l'.disable owner now) := by
  unfold Ledger.disable
  rw [h.codesWithout owner]
  refine ⟨h.accounts, (h.modify hG ?_ (.inr ?_)).records, rfl⟩
  · exact fun _ _ => rfl
  · exact fun _ => rfl

theorem replaceCodes (h : G.Ledgers l l') (owner : Uuid) (hashes : List String) :
    G.Ledgers (l.replaceCodes owner hashes) (l'.replaceCodes owner hashes) :=
  ⟨h.accounts, h.records, congrArg (· ++ hashes.map fun hash => (owner, hash))
    (h.codesWithout owner)⟩

/-- A code is used in both guises, or in neither. -/
theorem consumeCode? (h : G.Ledgers l l') (owner : Uuid) (hash : String) :
    Option.Rel G.Ledgers (l.consumeCode? owner hash) (l'.consumeCode? owner hash) := by
  unfold Ledger.consumeCode?
  rw [h.codes]
  split
  · exact .some ⟨h.accounts, h.records, rfl⟩
  · exact .none

/-- A record is turned on in both guises, or is on already in both. -/
theorem enable? (h : G.Ledgers l l') (hG : G.Lawful) (owner : Uuid) (copies : Copies)
    (now : Instant) :
    Option.Rel G.Ledgers (l.enable? owner copies now) (l'.enable? owner copies now) := by
  have hsame := (hG.contents h.records owner).enabled
  unfold Ledger.enable?
  dsimp only
  rw [← hsame]
  split
  · exact .none
  · rename_i hoff
    exact .some ⟨h.accounts, hG.enable h.records owner copies now (by simpa using hoff),
      h.codesWithout owner⟩

theorem enabled_of_any {p : FactorRecord → Bool} {row : Option FactorRecord}
    (hp : ∀ row, p row = true → row.enabled = true) (h : row.any p = true) :
    row.any (·.enabled) = true := by
  cases row with
  | none => cases h
  | some row => exact hp row h

/-- The guarded changes ask whether the record is on, and a record that is on is the same in both
guises but for its age. -/
theorem updateMain? (h : G.Ledgers l l') (hG : G.Lawful) (owner : Uuid) (expected main : Bytes)
    (now : Instant) : Option.Rel G.Ledgers (l.updateMain? owner expected main now)
      (l'.updateMain? owner expected main now) := by
  unfold Ledger.updateMain?
  rw [← (hG.contents h.records owner).hasMain]
  split
  · rename_i hmain
    have hon := enabled_of_any (fun row hrow => (FactorRecord.hasMain_iff.1 hrow).1) hmain
    refine .some (h.modify hG ?_ (.inl hon))
    exact fun _ _ => rfl
  · exact .none

theorem changePassword? (h : G.Ledgers l l') (hG : G.Lawful) (owner : Uuid) (hash : String)
    (main : Option (Bytes × Bytes)) : Option.Rel G.Ledgers (l.changePassword? owner hash main)
      (l'.changePassword? owner hash main) := by
  unfold Ledger.changePassword?
  cases main with
  | none => exact .some (h.setPasswordHash owner hash)
  | some pair =>
    dsimp only
    rw [← (hG.contents h.records owner).hasMain]
    split
    · rename_i hmain
      have hon := enabled_of_any (fun row hrow => (FactorRecord.hasMain_iff.1 hrow).1) hmain
      refine .some (setPasswordHash (h.modify hG ?_ (.inl hon)) owner hash)
      exact fun _ _ => rfl
    · exact .none

theorem recover? (h : G.Ledgers l l') (hG : G.Lawful) (owner : Uuid) (expected hash : String)
    (copies : Copies) : Option.Rel G.Ledgers (l.recover? owner expected hash copies)
      (l'.recover? owner expected hash copies) := by
  unfold Ledger.recover?
  rw [← (hG.contents h.records owner).hasFingerprint]
  split
  · rename_i hfingerprint
    have hon := enabled_of_any (fun row hrow => (FactorRecord.hasFingerprint_iff.1 hrow).1)
      hfingerprint
    refine .some (setPasswordHash (h.modify hG ?_ (.inl hon)) owner hash)
    exact fun _ _ => rfl
  · exact .none

end Ledgers

/-- A conditional change is made in both ledgers, or in neither. -/
theorem carries_conditional {f : Ledger → Option Ledger}
    (hf : ∀ {l l'}, G.Ledgers l l' → Option.Rel G.Ledgers (f l) (f l')) :
    Carries G.likeness.ledger (Database.conditional f) := by
  intro l l' h
  have hboth := hf h
  unfold Database.conditional
  revert hboth
  generalize f l = m
  generalize f l' = m'
  rintro (hm | _)
  · exact ⟨rfl, hm⟩
  · exact ⟨rfl, h⟩

/-! ## §4 — the tokens -/

namespace Registries

variable {registry registry' : Session.Registry}

theorem keep (h : G.Registries registry registry') {p : Session.Entry → Bool}
    (hp : ∀ entry claim, p { entry with claim } = p entry) :
    G.Registries (registry.keep p) (registry'.keep p) := by
  refine List.rel_filter ?_ h
  rintro ⟨key, entry⟩ ⟨key', entry'⟩ ⟨-, claim, rfl, -⟩
  show p entry = true ↔ p { entry with claim } = true
  rw [hp entry claim]

theorem put (h : G.Registries registry registry') (key : Key) {entry entry' : Session.Entry}
    (hentry : G.Entries entry entry') :
    G.Registries (registry.put key entry) (registry'.put key entry') := by
  refine .cons ⟨rfl, hentry⟩ (List.rel_filter ?_ h)
  rintro ⟨key, entry⟩ ⟨key', entry'⟩ ⟨rfl, -⟩
  exact Iff.rfl

/-- Under a key there stand two tokens that agree but for that, or none. -/
theorem get? (h : G.Registries registry registry') (key : Key) :
    Option.Rel G.Entries (registry.get? key) (registry'.get? key) := by
  induction h with
  | nil => exact .none
  | @cons row row' registry registry' hrow _ ih =>
    rw [Table.get?_cons, Table.get?_cons, hrow.1]
    split
    · exact .some hrow.2
    · exact ih

/-- A token is worth the same, but for what its session says. It may have expired in neither or in
both. -/
theorem find? (h : G.Registries registry registry') (P : Primitives) (kind : Session.Kind)
    (now : Instant) (token : String) :
    Option.Rel G.Entries (Session.find? P kind now token registry)
      (Session.find? P kind now token registry') := by
  have hget := h.get? (Session.digest P token)
  unfold Session.find?
  revert hget
  generalize registry.get? (Session.digest P token) = found
  generalize registry'.get? (Session.digest P token) = found'
  rintro (@⟨entry, _, claim, rfl, hclaim⟩ | _)
  · rw [Option.filter_some, Option.filter_some]
    dsimp only
    split
    · exact .some ⟨claim, rfl, hclaim⟩
    · exact .none
  · exact .none

theorem authenticate? (h : G.Registries registry registry') (P : Primitives) (now : Instant)
    (token : String) : Option.Rel G.Sessions (Session.authenticate? P now token registry)
      (Session.authenticate? P now token registry') := by
  have hfind := h.find? P .access now token
  unfold Session.authenticate?
  revert hfind
  generalize Session.find? P .access now token registry = found
  generalize Session.find? P .access now token registry' = found'
  rintro (@⟨entry, _, claim, rfl, hclaim⟩ | _)
  · exact .some ⟨claim, rfl, hclaim⟩
  · exact .none

/-- A new pair of tokens, but for the claim that is handed on. The texts and the times do not depend
on the registry. -/
theorem issue (h : G.Registries registry registry') (P : Primitives)
    (lifetimes : Session.Lifetimes) (now : Instant) (draws : Session.Draws) {owner : Uuid}
    {claim claim' : Claim} (hclaim : G.Claims owner claim claim') :
    Matched Session.Tokens.PassFor (Session.issue P lifetimes now draws owner claim registry).1
        (Session.issue P lifetimes now draws owner claim' registry').1 ∧
      G.Registries (Session.issue P lifetimes now draws owner claim registry).2
        (Session.issue P lifetimes now draws owner claim' registry').2 := by
  unfold Session.issue
  dsimp only
  cases now.after? lifetimes.access with
  | none => exact ⟨.error _, h⟩
  | some expires =>
    have hentry : ∀ kind expires, G.Entries ⟨owner, claim, kind, draws.family, expires⟩
        ⟨owner, claim', kind, draws.family, expires⟩ := fun _ _ => ⟨claim', rfl, hclaim⟩
    have haccess := h.put (Session.digest P (Session.tokenText draws.access))
      (hentry .access expires)
    cases now.after? lifetimes.refresh with
    | none => exact ⟨.error _, haccess⟩
    | some expires' =>
      exact ⟨.ok ⟨claim', rfl, hclaim.passesFor⟩, haccess.put _ (hentry .refresh expires')⟩

theorem revokeFamily (h : G.Registries registry registry') (family : Uuid) :
    G.Registries (Session.revokeFamily family registry) (Session.revokeFamily family registry') :=
  h.keep (p := fun entry => entry.family ≠ family) fun _ _ => rfl

theorem revokeOwner (h : G.Registries registry registry') (owner : Uuid) :
    G.Registries (Session.revokeOwner owner registry) (Session.revokeOwner owner registry') :=
  h.keep (p := fun entry => entry.owner ≠ owner) fun _ _ => rfl

/-- The claim of a token that is refreshed is handed on. -/
theorem refresh (h : G.Registries registry registry') (P : Primitives)
    (lifetimes : Session.Lifetimes) (now : Instant) (draws : Session.Draws) (token : String) :
    Matched Session.Tokens.PassFor (Session.refresh P lifetimes now draws token registry).1
        (Session.refresh P lifetimes now draws token registry').1 ∧
      G.Registries (Session.refresh P lifetimes now draws token registry).2
        (Session.refresh P lifetimes now draws token registry').2 := by
  have hfind := h.find? P .refresh now token
  unfold Session.refresh
  revert hfind
  generalize Session.find? P .refresh now token registry = found
  generalize Session.find? P .refresh now token registry' = found'
  rintro (@⟨entry, _, claim, rfl, hclaim⟩ | _)
  · exact (h.revokeFamily entry.family).issue P lifetimes now draws hclaim
  · exact ⟨.error _, h⟩

theorem purge (h : G.Registries registry registry') (now : Instant) :
    G.Registries (Session.purge now registry) (Session.purge now registry') :=
  h.keep (p := fun entry => !decide (entry.expires ≤ now)) fun _ _ => rfl

end Registries

end Guise

end SecondFactor
