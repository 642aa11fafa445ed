import SecondFactor.Proofs.Ledger
import SecondFactor.Proofs.Service.Outcomes

/-!
# Calls are about one account

Whatever a call does to accounts, records and pending secrets, it does to the account that it is
about. Every other account and its record stay as they were, and its pending secret stays or, if
expired, goes.

## The architecture

* **`Call.subject?`** — the account that a call is about.
* **`Untouched`** — what stays of an account.
* **`untouched`** — the frame of every call.
-/

namespace SecondFactor

open Service (Call Reply)

variable {o : Occasion} {s t s' : State} {owner subject : Uuid}

/-- The account that a call is about, by the ledger that it meets. -/
def Service.Call.subject? (o : Occasion) (l : Ledger) : Call → Option Uuid
  | .register _ _ => some o.draws.account
  | .recoverPassword email _ _ => (l.findByEmail? email).map Prod.fst
  | .logout session | .deleteAccount session _ | .overview session | .setup session _
  | .image session _ | .activate session _ | .validate session _ _ | .validateBackupCode session _
  | .generateBackupCodes session _ | .deactivate session _ | .changePassword session _ _ =>
    some session.owner
  | .health | .login _ _ | .refresh _ | .purge => none

/-- Nothing was done to an account, except that its pending secret may be gone. -/
structure Untouched (s s' : State) (owner : Uuid) : Prop where
  account : s'.ledger.accounts.get? owner = s.ledger.accounts.get? owner
  record : s'.ledger.records.get? owner = s.ledger.records.get? owner
  pending : ∀ entry, s'.staging.entries.get? owner = some entry →
    s.staging.entries.get? owner = some entry

namespace Untouched

/-- A step that only lets expired entries go leaves every account as it is, unless a mishap puts
something in between. -/
theorem of_faded (h : Faded s s') (hp : s.mishaps.Plain) : Untouched s s' owner where
  account := by rw [h.ledger]
  record := by rw [h.ledger]
  pending := h.entries hp owner

theorem of_quiet (h : Quiet s s') (hp : s.mishaps.Plain) : Untouched s s' owner :=
  of_faded h.faded hp

/-- What a call leaves behind is a ledger and two changes of the parts beside it. For an account
that the ledger does not write it is left to see that no entry of it comes up. -/
theorem of_becomes {l : Ledger} {g : Staging → Staging} {f : Session.Registry → Session.Registry}
    (h : Becomes s l g f s') (hp : s.mishaps.Plain)
    (haccount : l.accounts.get? owner = s.ledger.accounts.get? owner)
    (hrecord : l.records.get? owner = s.ledger.records.get? owner)
    (hpending : ∀ entry, (g s.staging).entries.get? owner = some entry →
      s.staging.entries.get? owner = some entry) : Untouched s s' owner where
  account := by rw [h.ledger_eq, haccount]
  record := by rw [h.ledger_eq, hrecord]
  pending := by rwa [h.staging_eq hp]

end Untouched

namespace Staging

variable {staging : Staging} {entry : Pending}

theorem kept_of_discard (h : (staging.discard subject).entries.get? owner = some entry) :
    staging.entries.get? owner = some entry := by
  rw [get?_discard] at h
  split at h
  · cases h
  · exact h

theorem kept_of_discardIf {id : Uuid}
    (h : (staging.discardIf subject id).entries.get? owner = some entry) :
    staging.entries.get? owner = some entry := by
  rw [get?_discardIf] at h
  split at h
  · cases h
  · exact h

end Staging

/-- An attempt writes the secret back into the entry, if that is still the one and has not
expired. -/
theorem Service.get?_restaged {staging : Staging} {entry : Pending} {secret : Otp.Secret}
    (hentry : staging.entries.get? owner = some entry)
    (hlasting : Staging.isExpired? o.deployment.pendingLifetime o.now entry = some false) :
    (restaged o owner entry.id secret staging).entries.get? owner =
      some { entry with secret } := by
  rw [restaged, Staging.amend_of_lasting hentry hlasting, Table.get?_put_self, if_pos rfl]

/-- **A call leaves every account that it is not about.** A case for each call. For those without a
session it is the address or the token that says whom they are about. -/
theorem untouched {call : Call} {r : Except Failure Reply}
    (h : (Service.perform o call).Ends s r s') (hp : s.mishaps.Plain)
    (hne : call.subject? o s.ledger ≠ some owner) : Untouched s s' owner := by
  -- Each call writes rows under the identifier of its subject only. Where it has no subject it
  -- writes no such rows.
  cases call with
  | health =>
    obtain ⟨q, hq, rfl⟩ := Op.ends_map.1 h
    exact .of_faded (Service.health_ends hq) hp
  | register email password =>
    obtain ⟨q, hq, rfl⟩ := Op.ends_map.1 h
    have hother : owner ≠ o.draws.account := fun he => hne (congrArg some he.symm)
    cases Service.register_outcome hq with
    | refused hquiet => exact .of_quiet hquiet hp
    | done _ _ _ hb =>
      refine .of_becomes hb hp ?_ rfl fun _ => id
      rw [Ledger.get?_register, if_neg hother]
  | login email password =>
    obtain ⟨q, hq, rfl⟩ := Op.ends_map.1 h
    cases Service.login_outcome hq with
    | refused hquiet => exact .of_quiet hquiet hp
    | done _ _ _ hb => exact .of_becomes hb hp rfl rfl fun _ => id
  | refresh token =>
    obtain ⟨q, hq, rfl⟩ := Op.ends_map.1 h
    obtain ⟨-, rfl⟩ := Op.ends_onSessions.1 hq
    exact ⟨rfl, rfl, fun _ => id⟩
  | logout session =>
    obtain ⟨q, hq, rfl⟩ := Op.ends_map.1 h
    obtain ⟨-, rfl⟩ := Op.ends_changeSessions.1 hq
    exact ⟨rfl, rfl, fun _ => id⟩
  | deleteAccount session password =>
    obtain ⟨q, hq, rfl⟩ := Op.ends_map.1 h
    have hother : owner ≠ session.owner := fun he => hne (congrArg some he.symm)
    cases Service.deleteAccount_outcome hq with
    | refused hquiet => exact .of_quiet hquiet hp
    | done _ _ _ hl hb =>
      rcases hl with rfl | rfl
      · exact .of_becomes hb hp rfl rfl fun _ => Staging.kept_of_discard
      · refine .of_becomes hb hp ?_ ?_ fun _ => Staging.kept_of_discard
        · rw [Ledger.accounts_remove, if_neg hother]
        · rw [Ledger.records_remove, if_neg hother]
  | overview session =>
    obtain ⟨q, hq, rfl⟩ := Op.ends_map.1 h
    exact .of_faded (Service.overview_ends hq) hp
  | setup session password =>
    obtain ⟨q, hq, rfl⟩ := Op.ends_map.1 h
    have hother : owner ≠ session.owner := fun he => hne (congrArg some he.symm)
    cases Service.setup_outcome hq with
    | refused hquiet => exact .of_quiet hquiet hp
    | done _ _ _ _ _ hbefore hafter hb =>
      refine .of_becomes hb hp rfl rfl fun entry hentry => ?_
      rw [Staging.get?_enter hafter, if_neg hother, hbefore hp] at hentry
      exact hentry
  | image session name =>
    obtain ⟨q, hq, rfl⟩ := Op.ends_map.1 h
    exact .of_faded (Service.pendingImage_ends hq) hp
  | activate session code =>
    obtain ⟨q, hq, rfl⟩ := Op.ends_map.1 h
    have hother : owner ≠ session.owner := fun he => hne (congrArg some he.symm)
    cases Service.activate_outcome hq with
    | refused _ hfaded => exact .of_faded hfaded hp
    | mistaken _ _ hb | unwritten _ _ hb =>
      exact .of_becomes hb hp rfl rfl fun _ => Staging.get?_of_amend_ne hother
    | late _ _ hquiet => exact .of_quiet hquiet hp
    | done _ _ hl hb =>
      obtain ⟨-, haccounts, created, hrecords⟩ := Ledger.enable?_eq hl
      refine .of_becomes hb hp ?_ ?_ fun _ => Staging.kept_of_discardIf
      · rw [haccounts]
      · rw [hrecords, if_neg hother]
  | validate session password code =>
    obtain ⟨q, hq, rfl⟩ := Op.ends_map.1 h
    have hother : owner ≠ session.owner := fun he => hne (congrArg some he.symm)
    cases Service.validate_outcome hq with
    | refused _ hquiet | lost _ hquiet => exact .of_quiet hquiet hp
    | mistaken _ _ hl hb | done _ _ hl hb =>
      obtain ⟨row, -, -, haccounts, hrecords⟩ := Ledger.updateMain?_eq hl
      refine .of_becomes hb hp ?_ ?_ fun _ => id
      · rw [haccounts]
      · rw [hrecords, if_neg hother]
  | validateBackupCode session code =>
    obtain ⟨q, hq, rfl⟩ := Op.ends_map.1 h
    cases Service.validateBackupCode_outcome hq with
    | refused hquiet => exact .of_quiet hquiet hp
    | done _ _ _ hl hb =>
      obtain ⟨haccounts, hrecords⟩ := Ledger.consumeCode?_eq hl
      refine .of_becomes hb hp ?_ ?_ fun _ => id
      · rw [haccounts]
      · rw [hrecords]
  | generateBackupCodes session password =>
    obtain ⟨q, hq, rfl⟩ := Op.ends_map.1 h
    cases Service.generateBackupCodes_outcome hq with
    | refused hquiet => exact .of_quiet hquiet hp
    | done _ _ _ _ hb => exact .of_becomes hb hp rfl rfl fun _ => id
  | deactivate session password =>
    obtain ⟨q, hq, rfl⟩ := Op.ends_map.1 h
    have hother : owner ≠ session.owner := fun he => hne (congrArg some he.symm)
    cases Service.deactivate_outcome hq with
    | refused hquiet => exact .of_quiet hquiet hp
    | done _ _ _ _ hb =>
      refine .of_becomes hb hp rfl ?_ fun _ => Staging.kept_of_discard
      rw [Ledger.records_disable, if_neg hother]
  | changePassword session current new =>
    obtain ⟨q, hq, rfl⟩ := Op.ends_map.1 h
    have hother : owner ≠ session.owner := fun he => hne (congrArg some he.symm)
    cases Service.changePassword_outcome hq with
    | refused hquiet => exact .of_quiet hquiet hp
    | @done _ main _ _ _ _ _ _ hl hb =>
      rcases main with _ | ⟨expected, main⟩
      · obtain rfl := Ledger.changePassword?_none_eq hl
        refine .of_becomes hb hp ?_ rfl fun _ => Staging.kept_of_discard
        rw [Ledger.get?_setPasswordHash, if_neg hother]
      · obtain ⟨row, -, -, haccounts, hrecords⟩ := Ledger.changePassword?_some_eq hl
        refine .of_becomes hb hp ?_ ?_ fun _ => Staging.kept_of_discard
        · rw [haccounts, Ledger.get?_setPasswordHash, if_neg hother]
        · rw [hrecords, if_neg hother]
  | recoverPassword email recoveryKey new =>
    obtain ⟨q, hq, rfl⟩ := Op.ends_map.1 h
    cases Service.recoverPassword_outcome hq with
    | refused hquiet => exact .of_quiet hquiet hp
    | @done _ found _ _ _ _ _ _ hfound _ _ hl hb =>
      have hsubject : (Call.recoverPassword email recoveryKey new).subject? o s.ledger =
          some found := congrArg (Option.map Prod.fst) hfound
      have hother : owner ≠ found := fun he => hne (hsubject.trans (congrArg some he.symm))
      obtain ⟨row, -, -, haccounts, hrecords⟩ := Ledger.recover?_eq hl
      refine .of_becomes hb hp ?_ ?_ fun _ => Staging.kept_of_discard
      · rw [haccounts, Ledger.get?_setPasswordHash, if_neg hother]
      · rw [hrecords, if_neg hother]
  | purge =>
    obtain ⟨q, hq, rfl⟩ := Op.ends_map.1 h
    obtain ⟨hledger, -, hpending⟩ := Service.purge_ends hq
    exact ⟨by rw [hledger], by rw [hledger], hpending owner⟩

end SecondFactor
