import Mathlib.Data.List.Induction
import SecondFactor.Proofs.Agreement
import SecondFactor.Proofs.Http.Guises
import SecondFactor.Proofs.Records
import SecondFactor.Proofs.Stores

/-!
# A second factor that was given up

Turning a second factor off empties the record and leaves it in the ledger. From then on the account
is treated as one that has no record. It is told apart only by the claim of its later sessions,
which is *off* and not nothing, and that claim is of no use. Turning the factor on again ends all
these sessions and fills the record. Then only its age is left to tell.

## The architecture

* **`State.GivenUp`** — what is left of a second factor that was given up;
  **`givenUp_of_deactivate`**.
* **`State.withoutRecord`**, **`State.redated`** — the state of an account that has no record, and
  of one whose record is of another age.
* **`Guise.dated`**, **`Guise.lapsed`** — a record of another age, and a record that is off where
  there is none; **`dated_lawful`**, **`lapsed_lawful`** — changes of records keep both.
* **`verified_of_switched`** — a turn that turns a second factor on leaves only verified sessions.
* **`dated_of_enabled`** — once it is on again, only the age of the record differs; by induction on
  the run.
* **`deactivated_as_unenrolled`** — an account whose second factor was given up is answered as one
  that never had one.
-/

namespace SecondFactor

open Service (Call Reply)

/-! ## §1 — changes that commute -/

namespace Table

variable {κ α : Type} [DecidableEq κ] (t : Table κ α)

/-- Rows under different keys do not interfere, and this and the next few lemmas say so for each
pair of changes. -/
theorem erase_comm (k l : κ) : (t.erase k).erase l = (t.erase l).erase k := by
  unfold erase
  rw [List.filter_filter, List.filter_filter]
  exact List.filter_congr fun row _ => Bool.and_comm _ _

theorem erase_erase (k : κ) : (t.erase k).erase k = t.erase k := by
  unfold erase
  rw [List.filter_filter]
  exact List.filter_congr fun row _ => Bool.and_self _

theorem erase_modify (k l : κ) (f : α → α) : (t.modify l f).erase k = (t.erase k).modify l f := by
  unfold erase modify
  rw [List.filter_map]
  congr 1
  refine List.filter_congr fun row _ => ?_
  rw [Function.comp_apply]
  split <;> rfl

theorem erase_modify_self (k : κ) (f : α → α) : (t.modify k f).erase k = t.erase k := by
  rw [erase_modify]
  unfold modify
  refine (List.map_congr_left fun row hrow => if_neg ?_).trans (List.map_id _)
  exact of_decide_eq_true (List.mem_filter.1 hrow).2

theorem modify_put_self (k : κ) (v : α) (f : α → α) : (t.put k v).modify k f = t.put k (f v) := by
  have hrest : (t.erase k).modify k f = t.erase k := by rw [← erase_modify, erase_modify_self]
  exact congrArg₂ List.cons (if_pos rfl) hrest

theorem modify_put (k l : κ) (v : α) (f : α → α) (hne : k ≠ l) :
    (t.put k v).modify l f = (t.modify l f).put k v := by
  unfold put
  rw [erase_modify]
  exact congrArg₂ List.cons (if_neg hne) rfl

theorem erase_put (k l : κ) (v : α) (hne : l ≠ k) : (t.put k v).erase l = (t.erase l).put k v := by
  unfold put
  rw [erase_comm t l k]
  unfold erase
  rw [List.filter_cons_of_pos (by simpa using hne.symm)]

/-- Two changes of one row need to commute; changes of different rows always do. -/
theorem modify_comm (k l : κ) {f g : α → α} (hfg : ∀ v, f (g v) = g (f v)) :
    (t.modify l g).modify k f = (t.modify k f).modify l g := by
  unfold modify
  rw [List.map_map, List.map_map]
  refine List.map_congr_left fun (key, value) _ => ?_
  dsimp only [Function.comp_apply]
  by_cases hk : key = k
  · by_cases hl : key = l
    · simp only [if_pos hk, if_pos hl, hfg]
    · simp only [if_pos hk, if_neg hl]
  · by_cases hl : key = l
    · simp only [if_neg hk, if_pos hl]
    · simp only [if_neg hk, if_neg hl]

end Table

/-! ## §2 — the two guises -/

/-- The records with the one of an account made at another time. -/
def Ledger.redated (owner : Uuid) (created : Instant) (records : Table Uuid FactorRecord) :
    Table Uuid FactorRecord :=
  records.modify owner fun row => { row with created }

/-- No record of an account is on. -/
def Ledger.Off (owner : Uuid) (records : Table Uuid FactorRecord) : Prop :=
  ∀ row ∈ records, row.1 = owner → row.2.enabled = false

theorem Ledger.Off.get? {owner : Uuid} {records : Table Uuid FactorRecord} (h : Off owner records) :
    (records.get? owner).any (·.enabled) = false := by
  cases hrow : records.get? owner with
  | none => rfl
  | some row => exact h _ (Table.mem_of_get? hrow) rfl

/-- The record of an account is off in one ledger and not there in the other. -/
structure Ledger.Lacks (owner : Uuid) (r r' : Table Uuid FactorRecord) : Prop where
  erased : r' = r.erase owner
  off : Off owner r

namespace Ledger.Lacks

variable {owner : Uuid} {r r' : Table Uuid FactorRecord}

/-- The records of the two guises are the same, but that one of them lacks the record of the
account. -/
theorem get? (h : Lacks owner r r') (other : Uuid) :
    r'.get? other = if other = owner then none else r.get? other := by
  rw [h.erased, Table.get?_erase]

/-- A record that is off holds nothing, so that it has the contents of a record that is missing.
Every test that the service makes of a record is of its contents. -/
theorem contents (h : Lacks owner r r') (other : Uuid) :
    SameContents (r.get? other) (r'.get? other) := by
  rw [h.get?]
  split
  · rename_i heq
    subst heq
    have hoff := h.off.get?
    cases hrow : r.get? other with
    | none => rfl
    | some row =>
      rw [hrow, Option.any_some] at hoff
      show row.contents? = none
      rw [FactorRecord.contents?, hoff]
      rfl
  · rfl

/-- A record that is off makes for the claim *off*, and none for none. This is the one difference
that a session may show between the two guises. -/
theorem claims (h : Lacks owner r r') (other : Uuid) :
    Claim.ofStatus ((r.get? other).map FactorRecord.status) =
        .ofStatus ((r'.get? other).map FactorRecord.status) ∨
      other = owner ∧ Claim.ofStatus ((r.get? other).map FactorRecord.status) = .off ∧
        Claim.ofStatus ((r'.get? other).map FactorRecord.status) = .empty := by
  rw [h.get?]
  split
  · rename_i heq
    subst heq
    have hoff := h.off.get?
    cases hrow : r.get? other with
    | none => exact .inl rfl
    | some row =>
      rw [hrow, Option.any_some] at hoff
      refine .inr ⟨rfl, ?_, rfl⟩
      rw [Option.map_some, FactorRecord.status, hoff]
      rfl
  · exact .inl rfl

theorem erase (h : Lacks owner r r') (other : Uuid) :
    Lacks owner (r.erase other) (r'.erase other) where
  erased := by rw [h.erased, Table.erase_comm]
  off row hrow := h.off row (List.mem_of_mem_filter hrow)

/-- The record that is changed is that of another account, or it is turned off. A record that is off
cannot be turned on by a change of this kind, which only `enable?` does. -/
theorem modify (h : Lacks owner r r') {other : Uuid} {f : FactorRecord → FactorRecord}
    (hf : (r.get? other).any (·.enabled) = true ∨ ∀ row, (f row).enabled = false) :
    Lacks owner (r.modify other f) (r'.modify other f) where
  erased := by rw [h.erased, Table.erase_modify]
  off row hrow howner := by
    obtain ⟨⟨key, before⟩, hbefore, rfl⟩ := List.mem_map.1 hrow
    dsimp only at howner ⊢
    split at howner
    · rename_i hkey
      rw [if_pos hkey]
      rcases hf with hon | hf
      · obtain rfl : other = owner := hkey.symm.trans howner
        rw [h.off.get?] at hon
        cases hon
      · exact hf before
    · rename_i hkey
      rw [if_neg hkey]
      exact h.off _ hbefore howner

/-- A record that is put is that of another account, or the guises would have the same one. -/
theorem put (h : Lacks owner r r') {other : Uuid} (hother : other ≠ owner) (row : FactorRecord) :
    Lacks owner (r.put other row) (r'.put other row) where
  erased := by rw [h.erased, Table.erase_put r other owner row hother.symm]
  off row' hrow' howner := by
    rcases List.mem_cons.1 hrow' with rfl | hrow'
    · exact absurd howner hother
    · exact h.off row' (List.mem_of_mem_filter hrow') howner

end Ledger.Lacks

/-- A record that is filled anew is the same but for its age, whatever there was before. -/
theorem Ledger.put_redated {owner : Uuid} {r r' : Table Uuid FactorRecord}
    (h : r'.erase owner = r.erase owner) (copies : Copies) (created created' now : Instant) :
    r'.put owner (.ofCopies copies created' now) =
      redated owner created' (r.put owner (.ofCopies copies created now)) := by
  unfold redated
  rw [Table.modify_put_self]
  exact congrArg (List.cons _) h

namespace Guise

/-- The record of an account is of another age. -/
def dated (owner : Uuid) : Guise where
  records r r' := ∃ created, r' = Ledger.redated owner created r
  vague _ := False

/-- The record of an account is off in one state and not there in the other, or it is of another
age. -/
def lapsed (owner : Uuid) : Guise where
  records r r' := Ledger.Lacks owner r r' ∨ (dated owner).records r r'
  vague := (· = owner)

/-- **The age of a record may be changed without a call noticing.** No write looks at the age but
the one that turns a record on, and that keeps it. -/
theorem dated_lawful (owner : Uuid) : (dated owner).Lawful where
  contents := by
    rintro r _ ⟨created, rfl⟩ other
    unfold Ledger.redated
    rw [Table.get?_modify]
    split
    · rename_i heq
      rw [heq]
      cases r.get? owner <;> rfl
    · rfl
  claims := by
    rintro r _ ⟨created, rfl⟩ other
    unfold Ledger.redated
    rw [Table.get?_modify]
    split
    · rename_i heq
      rw [heq]
      refine .inl ?_
      cases r.get? owner <;> rfl
    · exact .refl _ _
  erase := by
    rintro r _ ⟨created, rfl⟩ other
    exact ⟨created, Table.erase_modify r other owner _⟩
  modify := by
    rintro r _ ⟨created, rfl⟩ other f hcreated -
    exact ⟨created, Table.modify_comm r other owner fun row => hcreated row created⟩
  enable := by
    -- The record of the account is written anew, or that of another account is. Only in the first
    -- case does the age come in.
    rintro r _ ⟨created, rfl⟩ other copies now -
    by_cases hother : other = owner
    · subst hother
      exact ⟨_, Ledger.put_redated (Table.erase_modify_self r other _) copies _ _ now⟩
    · refine ⟨created, ?_⟩
      unfold Ledger.redated
      rw [Table.modify_put r other owner _ _ hother, Table.get?_modify_of_ne r _ hother]

/-- **A record that is off may be removed without a call noticing.** Nothing but its age is told
from it, and the age comes up when it is turned on. -/
theorem lapsed_lawful (owner : Uuid) : (lapsed owner).Lawful where
  contents := by
    rintro r r' (h | h) other
    · exact h.contents other
    · exact (dated_lawful owner).contents h other
  claims := by
    rintro r r' (h | h) other
    · exact h.claims other
    · rcases (dated_lawful owner).claims h other with heq | ⟨hvague, -⟩
      · exact .inl heq
      · exact hvague.elim
  erase := by
    rintro r r' (h | h) other
    · exact .inl (h.erase other)
    · exact .inr ((dated_lawful owner).erase h other)
  modify := by
    rintro r r' (h | h) other f hcreated hf
    · exact .inl (h.modify hf)
    · exact .inr ((dated_lawful owner).modify h other f hcreated hf)
  enable := by
    rintro r r' (h | h) other copies now hoff
    · by_cases hother : other = owner
      · subst hother
        -- The record that is there now takes the place of the one that was off, or of none.
        exact .inr ⟨_, Ledger.put_redated (by rw [h.erased, Table.erase_erase]) copies _ _ now⟩
      · rw [h.get?, if_neg hother]
        exact .inl (h.put hother _)
    · exact .inr ((dated_lawful owner).enable h other copies now hoff)

end Guise

/-! ## §3 — turned on again -/

namespace State

variable (s : State) (owner : Uuid)

/-- The state without a record of an account. -/
def withoutRecord : State :=
  { s with ledger := { s.ledger with records := s.ledger.records.erase owner } }

/-- The state with the record of an account made at another time. -/
def redated (created : Instant) : State :=
  { s with ledger := { s.ledger with records := Ledger.redated owner created s.ledger.records } }

end State

section Runs

variable {D : Deployment} {s s' : State} {owner : Uuid}

/-- States in which no claims differ differ in the age of a record. This is the form in which the
statement below puts the guise. -/
theorem eq_redated (h : (Guise.dated owner).Rel s s') :
    ∃ created, s' = s.redated owner created := by
  obtain ⟨created, hrecords⟩ := h.ledger.records
  have hsessions : s.sessions = s'.sessions := by
    have hrows := h.sessions.imp (S := Eq) fun {row row'} hrow => by
      obtain ⟨hkey, claim, hentry, heq | ⟨hvague, -⟩⟩ := hrow
      · refine Prod.ext hkey.symm ?_
        rw [hentry, ← heq]
      · exact hvague.elim
    rwa [List.forall₂_eq_eq_eq] at hrows
  refine ⟨created, ?_⟩
  obtain ⟨⟨accounts, records, codes⟩, staging, sessions, mishaps⟩ := s
  obtain ⟨⟨accounts', records', codes'⟩, staging', sessions', mishaps'⟩ := s'
  obtain rfl : mishaps' = mishaps := h.mishaps
  obtain rfl : accounts = accounts' := h.ledger.accounts
  obtain rfl : codes = codes' := h.ledger.codes
  obtain rfl : staging = staging' := h.staging
  obtain rfl : sessions = sessions' := hsessions
  obtain rfl : records' = _ := hrecords
  rfl

/-- A record that is on is there in both states, and sessions that were verified say the same. The
second guise is thereby left for the first. -/
theorem dated_of_lapsed (h : (Guise.lapsed owner).Rel s s') (hon : s.enabled owner = true)
    (hverified : ∀ row ∈ s.sessions, row.2.owner = owner → row.2.claim = .verified) :
    (Guise.dated owner).Rel s s' where
  mishaps := h.mishaps
  ledger := by
    refine ⟨h.ledger.accounts, ?_, h.ledger.codes⟩
    rcases h.ledger.records with hlacks | hdated
    · rw [State.enabled, hlacks.off.get?] at hon
      cases hon
    · exact hdated
  staging := h.staging
  sessions := by
    refine ((List.forall₂_and_left _ _).2 ⟨hverified, h.sessions⟩).imp fun {row row'} hrow => ?_
    obtain ⟨hverified, hkey, claim, hentry, heq | ⟨howner, hoff, -⟩⟩ := hrow
    · exact ⟨hkey, claim, hentry, .inl heq⟩
    · cases (hverified howner).symm.trans hoff

/-- **A turn that turns a second factor on** leaves the account with verified sessions only. The
sessions that claimed differently in the two guises are gone. -/
theorem verified_of_switched {t : Turn} (hoff : s.enabled owner = false)
    (hon : (t.next D s).enabled owner = true) :
    ∀ row ∈ (t.next D s).sessions, row.2.owner = owner → row.2.claim = .verified := by
  have hchanged : (t.next D s).ledger ≠ (t.facing s).ledger := by
    intro hsame
    unfold State.enabled at hoff hon
    rw [hsame] at hon
    cases hoff.symm.trans hon
  -- A record that passes a test was on before.
  have hbefore : ∀ row, (t.facing s).ledger.records.get? owner = some row →
      row.enabled = false := by
    intro row hrow
    have hany : ((t.facing s).ledger.records.get? owner).any (·.enabled) = false := hoff
    rwa [hrow] at hany
  rcases t.next_cases D s with ⟨-, -, hnext⟩ | ⟨call, r, -, -, hends⟩
  · exact absurd (congrArg State.ledger hnext) hchanged
  have hrewrites := rewrites_of_ends hends owner
  rw [State.enabled] at hon
  generalize (t.next D s).ledger.records.get? owner = after at hrewrites hon
  cases hrewrites with
  | kept => cases hoff.symm.trans hon
  | enabled howner =>
    obtain ⟨q, hq, -⟩ := Op.ends_map.1 hends
    cases Service.activate_outcome hq with
    | refused _ hfaded => exact absurd hfaded.ledger hchanged
    | mistaken _ _ hb | unwritten _ _ hb => exact absurd hb.ledger_eq hchanged
    | late _ _ hquiet => exact absurd hquiet.ledger hchanged
    | done _ _ _ hb =>
      intro row hrow hrowner
      rw [hb.sessions_eq] at hrow
      rcases Session.mem_issue hrow with hrow | ⟨-, hclaim, -⟩
      · exact absurd (hrowner.trans howner.symm) (Session.mem_revokeOwner hrow).2
      · exact hclaim
  | rechecked _ hrow hmain | resealed _ hrow hmain =>
    cases (hbefore _ hrow).symm.trans (FactorRecord.hasMain_iff.1 hmain).1
  | recovered _ hrow hfingerprint =>
    cases (hbefore _ hrow).symm.trans (FactorRecord.hasFingerprint_iff.1 hfingerprint).1
  | disabled | removed => cases hon

/-- **Once a second factor is on again, only the age of the record differs.** Induction on the run,
from its end: the last turn turned the record on, or found it on. -/
theorem dated_of_enabled {ts : List Turn} (h : (Guise.lapsed owner).Rel s s')
    (hoff : s.enabled owner = false) (hon : (s.after D ts).enabled owner = true) :
    (Guise.dated owner).Rel (s.after D ts) (s'.after D ts) := by
  induction ts using List.reverseRecOn with
  | nil => cases hoff.symm.trans hon
  | append_singleton ts t ih =>
    have hrel := (Guise.run (D := D) (Guise.lapsed_lawful owner) ts h).2
    rw [State.after_append] at hon
    rw [State.after_append, State.after_append]
    cases hbefore : (s.after D ts).enabled owner with
    | true => exact (Guise.turn (Guise.dated_lawful owner) t (ih hbefore)).2
    | false =>
      exact dated_of_lapsed (Guise.turn (Guise.lapsed_lawful owner) t hrel).2 hon
        (verified_of_switched hbefore hon)

end Runs

/-! ## §4 — given up -/

/-- **What is left of a second factor that was given up**: a record without copies, and the tokens
that were handed out for it. -/
structure State.GivenUp (D : Deployment) (s : State) (owner : Uuid) (tokens : Session.Tokens) :
    Prop where
  record : ∃ row, s.ledger.records.get? owner = some row ∧ row.enabled = false ∧ row.main = none ∧
    row.backup = none ∧ row.fingerprint = none
  codes : ∀ row ∈ s.ledger.codes, row.1 ≠ owner
  pending : s.staging.entries.get? owner = none
  sessions : Session.Sole D.primitives owner tokens s.sessions

/-- A record that is disabled is off, and holds nothing. -/
theorem Ledger.off_disable (l : Ledger) (owner : Uuid) (now : Instant) :
    Off owner (l.disable owner now).records := by
  intro row hrow howner
  obtain ⟨before, -, rfl⟩ := List.mem_map.1 hrow
  dsimp only at howner ⊢
  split at howner
  · rename_i hkey
    rw [if_pos hkey]
  · rename_i hkey
    exact absurd howner hkey

section Deactivation

variable {D : Deployment} {t : Turn} {s : State} {session : Session} {password : String}

/-- A turn in which a second factor is given up turns it off, and drops what belongs to it. -/
theorem deactivated (hcall : t.call? D s = some (.deactivate session password))
    (hanswers : t.answers D s) :
    ∃ copies tokens, ((t.facing s).shown session.owner).bind FactorRecord.active? = some copies ∧
      t.outcome D s = some (.ok (.tokens tokens)) ∧
      Becomes (t.facing s) (s.ledger.disable session.owner t.now) (·.discard session.owner)
        (fun reg => (Service.issued (t.occasion D) session.owner .empty
          (Session.revokeOwner session.owner reg)).2) (t.next D s) ∧
      Session.Sole D.primitives session.owner tokens (t.next D s).sessions := by
  obtain ⟨r, hr, hends⟩ := t.ends_of_call hcall
  obtain ⟨reply, hreply⟩ := hanswers
  obtain rfl := Option.some.inj (hreply.symm.trans hr)
  obtain ⟨q, hq, hok⟩ := Op.ends_map.1 hends
  obtain ⟨tokens, rfl, rfl⟩ := map_eq_ok.1 hok.symm
  have hsole := (sole_of_deactivate hq).1
  generalize hresult : (Except.ok tokens : Except Failure Session.Tokens) = result at hq
  cases Service.deactivate_outcome hq with
  | refused => cases hresult
  | done _ _ _ hshown hb => exact ⟨_, tokens, hshown, hr, hb, hsole⟩

/-- A deactivation that is answered gives the second factor up: the record is off, the codes are
gone, and the tokens that were handed out are the only ones. -/
theorem givenUp_of_deactivate (hplain : t.mishaps.Plain) (hcurrent : t.mishaps.staleRecord = none)
    (hcall : t.call? D s = some (.deactivate session password)) (hanswers : t.answers D s) :
    ∃ tokens, t.outcome D s = some (.ok (.tokens tokens)) ∧
      (t.next D s).GivenUp D session.owner tokens := by
  obtain ⟨copies, tokens, hshown, hout, hb, hsole⟩ := deactivated hcall hanswers
  refine ⟨tokens, hout, ?_, ?_, ?_, hsole⟩
  · obtain ⟨row, hrow, -⟩ := Option.bind_eq_some_iff.1 hshown
    have hrow : s.ledger.records.get? session.owner = some row := by
      rwa [State.shown, show (t.facing s).mishaps.staleRecord = none from hcurrent,
        Option.none_or] at hrow
    rw [hb.ledger_eq, Ledger.records_disable, if_pos rfl, hrow, Option.map_some]
    exact ⟨_, rfl, rfl, rfl, rfl, rfl⟩
  · intro row hrow
    rw [hb.ledger_eq] at hrow
    exact of_decide_eq_true (List.mem_filter.1 hrow).2
  · rw [hb.staging_eq hplain, Staging.get?_discard, if_pos rfl]

end Deactivation

theorem lapsed_withoutRecord {s : State} {owner : Uuid}
    (hoff : Ledger.Off owner s.ledger.records) :
    (Guise.lapsed owner).Rel s (s.withoutRecord owner) := by
  refine ⟨rfl, ⟨rfl, .inl ⟨rfl, hoff⟩, rfl⟩, rfl, List.forall₂_same.2 fun row _ => ?_⟩
  exact ⟨rfl, row.2.claim, rfl, .refl _ _⟩

/-- **An account whose second factor was given up is answered as one that never had one.** After the
turn nothing is left of it but a record without copies and the new tokens. From then on, whatever is
asked at whatever times and whatever befalls it, the answers are those of a service in which the
record is not there, except that a claim may be shown as *off* in the place of nothing. Once the
second factor is on again, the states are the same but for the age of the record. -/
theorem deactivated_as_unenrolled {D : Deployment} {h : History} {t : Turn} {session : Session}
    {password : String} (hplain : t.mishaps.Plain) (hcurrent : t.mishaps.staleRecord = none)
    (hcall : t.call? D (h.state D) = some (.deactivate session password))
    (hanswers : t.answers D (h.state D)) :
    (∃ tokens, t.outcome D (h.state D) = some (.ok (.tokens tokens)) ∧
      ((h.turn t).state D).GivenUp D session.owner tokens) ∧
    ∀ ts : List Turn,
      List.Forall₂ Answer.PassesFor (((h.turn t).state D).answers D ts)
        ((((h.turn t).state D).withoutRecord session.owner).answers D ts) ∧
      ((((h.turn t).state D).after D ts).enabled session.owner = true → ∀ ts' : List Turn,
        ∃ created, (((h.turn t).state D).withoutRecord session.owner).after D (ts ++ ts') =
          (((h.turn t).state D).after D (ts ++ ts')).redated session.owner created) := by
  obtain ⟨-, -, -, -, hb, -⟩ := deactivated hcall hanswers
  have hoff : Ledger.Off session.owner (t.next D (h.state D)).ledger.records := by
    rw [hb.ledger_eq]
    exact (h.state D).ledger.off_disable session.owner t.now
  have hlapsed := lapsed_withoutRecord hoff
  refine ⟨givenUp_of_deactivate hplain hcurrent hcall hanswers, fun ts => ⟨?_, fun hon ts' => ?_⟩⟩
  · exact (Guise.run (Guise.lapsed_lawful session.owner) ts hlapsed).1
  · have hdated := dated_of_enabled hlapsed hoff.get? hon
    rw [State.after_append, State.after_append]
    exact eq_redated (Guise.run (Guise.dated_lawful session.owner) ts' hdated).2

/-! An account turns its second factor off, logs in, and turns it on again. -/

/-- The second factor is turned off. -/
def Turn.yielding : Turn :=
  .posting 5 "/api/2fa/deactivate" (some 4) "\x7b\"password\":\"password\"\x7d"

/-- The turns after it, up to where it is on again. -/
def Turn.comingBack : List Turn :=
  [.posting 6 "/api/login" none "\x7b\"email\":\"a@b.c\",\"password\":\"password\"\x7d",
    .posting 7 "/api/2fa/setup" (some 6) "\x7b\"password\":\"password\"\x7d",
    .posting 8 "/api/2fa/activate" (some 6) "\x7b\"code\":\"000008\"\x7d"]

/-- The run up to where it is off. -/
def History.yielded : History := .turn .enrolling .yielding

/-- After the login, one session says *off*, which none does where there is no record. -/
theorem deactivated_as_unenrolled_yielding :
    ((((History.yielded.state .transparent).after .transparent
        (Turn.comingBack.take 1)).sessions.any (·.2.claim == .off)) = true ∧
      ((((History.yielded.state .transparent).withoutRecord (.ofByte 1)).after .transparent
        (Turn.comingBack.take 1)).sessions.any (·.2.claim == .off)) = false ∧
      ((History.yielded.state .transparent).after .transparent Turn.comingBack).enabled
        (.ofByte 1) = true) ∧
    (∃ tokens, (History.yielded.state .transparent).GivenUp .transparent (.ofByte 1) tokens) ∧
    List.Forall₂ Answer.PassesFor
      ((History.yielded.state .transparent).answers .transparent Turn.comingBack)
      (((History.yielded.state .transparent).withoutRecord (.ofByte 1)).answers .transparent
        Turn.comingBack) ∧
    ∃ created, ((History.yielded.state .transparent).withoutRecord (.ofByte 1)).after .transparent
        Turn.comingBack =
      ((History.yielded.state .transparent).after .transparent Turn.comingBack).redated (.ofByte 1)
        created := by
  have hcall : Turn.yielding.call? .transparent (History.enrolling.state .transparent) =
        some (.deactivate ⟨.ofByte 1, .verified, .ofByte 4⟩ "password") ∧
      Turn.yielding.answers .transparent (History.enrolling.state .transparent) := by
    decide +kernel
  have hback : (((History.yielded.state .transparent).after .transparent
        (Turn.comingBack.take 1)).sessions.any (·.2.claim == .off)) = true ∧
      ((((History.yielded.state .transparent).withoutRecord (.ofByte 1)).after .transparent
        (Turn.comingBack.take 1)).sessions.any (·.2.claim == .off)) = false ∧
      ((History.yielded.state .transparent).after .transparent Turn.comingBack).enabled
        (.ofByte 1) = true := by
    decide +kernel
  obtain ⟨⟨tokens, -, hgiven⟩, hrun⟩ :=
    deactivated_as_unenrolled (.of_nil rfl) rfl hcall.1 hcall.2
  obtain ⟨hanswers, hagain⟩ := hrun Turn.comingBack
  exact ⟨hback, ⟨tokens, hgiven⟩, hanswers, hagain hback.2.2 []⟩

end SecondFactor
