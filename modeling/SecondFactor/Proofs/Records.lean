import SecondFactor.Proofs.History
import SecondFactor.Proofs.Shape

/-!
# What a call does to a record

The record of an account is turned on, written back, sealed again, recovered, turned off or removed,
each by one call. The cases are stated with all that the call has found out by then, so that what
holds of a record in every run is proved by going through them. Whatever was shown to the call, the
record that it changes is the one in the ledger.

## The architecture

* **`Rewrites`** — what a call makes of the record of an account.
* **`rewrites_of_ends`** — each call does one of these things; **`Turn.rewrites`** — and each turn.
* **`whole_state`** — in every run a record has all its copies or none, whatever is shown or fails.
-/

namespace SecondFactor

open Service (Call Reply)

/-! ## §1 — the cases -/

/-- A record under other copies. -/
def FactorRecord.withCopies (r : FactorRecord) (c : Copies) : FactorRecord :=
  { r with main := some c.main, backup := some c.backup, fingerprint := some c.fingerprint }

/-- **What a call makes of the record of an account.** -/
inductive Rewrites (o : Occasion) (s : State) (owner : Uuid) :
    Call → Option FactorRecord → Prop where
  | kept {call : Call} : Rewrites o s owner call (s.ledger.records.get? owner)
  /-- The pending secret is sealed, and the record turned on. -/
  | enabled {session : Session} {code : String} {entry : Pending} {check : Otp.Check} {t : State}
      {created : Instant} (howner : session.owner = owner) (hoff : s.enabled owner = false)
      (hcheck : (Service.checkPending o session code).Ends s (.ok (entry, check)) t) :
      Rewrites o s owner (.activate session code)
        (some (.ofCopies (Service.sealCopies o check.secret entry.passwordKey
          (RecoveryKey.generate o.draws.recoveryKey)) created o.now))
  /-- The main copy that was opened is written back with a check. -/
  | rechecked {session : Session} {password code : String} {row : FactorRecord} {copies : Copies}
      {check : Otp.Check} (howner : session.owner = owner)
      (hrow : s.ledger.records.get? owner = some row) (hmain : row.hasMain copies.main = true)
      (hcheck : Service.MainChecked o session password code s copies check) :
      Rewrites o s owner (.validate session password code)
        (some { row with
          main := some (Service.Outcome.recheckedMain o password check)
          updated := o.now })
  /-- The main copy that was opened is sealed again. -/
  | resealed {session : Session} {current new : String} {row : FactorRecord} {copies : Copies}
      {secret : Otp.Secret} (howner : session.owner = owner)
      (hrow : s.ledger.records.get? owner = some row) (hmain : row.hasMain copies.main = true)
      (hopen : Service.openCopy o copies.main current = .ok secret) :
      Rewrites o s owner (.changePassword session current new)
        (some { row with main := some (secret.wrap o.deployment.primitives
          (o.deployment.kdf.derive o.deployment.primitives new) o.draws.mainNonce) })
  /-- The secret in the backup copy that was shown is sealed again, as both copies. -/
  | recovered {email recoveryKey new normal : String} {account : Account} {row : FactorRecord}
      {copies : Copies} {secret : Otp.Secret}
      (hfound : s.ledger.findByEmail? email = some (owner, account))
      (hrow : s.ledger.records.get? owner = some row)
      (hfingerprint : row.hasFingerprint copies.fingerprint = true)
      (hshown : (s.shown owner).bind FactorRecord.active? = some copies)
      (hsecret : Service.Outcome.Recovered o copies normal secret) :
      Rewrites o s owner (.recoverPassword email recoveryKey new)
        (some (row.withCopies (Service.sealCopies o secret
          (o.deployment.kdf.derive o.deployment.primitives new)
          (RecoveryKey.generate o.draws.recoveryKey))))
  | disabled {session : Session} {password : String} {row : FactorRecord}
      (howner : session.owner = owner) (hrow : s.ledger.records.get? owner = some row) :
      Rewrites o s owner (.deactivate session password)
        (some { row with
          main := none
          backup := none
          fingerprint := none
          enabled := false
          updated := o.now })
  | removed {session : Session} {password : String} (howner : session.owner = owner) :
      Rewrites o s owner (.deleteAccount session password) none

/-! ## §2 — each call -/

section Calls

variable {o : Occasion} {s s' : State} {owner : Uuid} {call : Call} {session : Session}

theorem Rewrites.of_same (h : s'.ledger.records.get? owner = s.ledger.records.get? owner) :
    Rewrites o s owner call (s'.ledger.records.get? owner) := by
  rw [h]
  exact .kept

theorem Rewrites.of_ledger (h : s'.ledger = s.ledger) :
    Rewrites o s owner call (s'.ledger.records.get? owner) :=
  .of_same (by rw [h])

/-- A deletion removes the record, of its own account only. -/
theorem rewrites_deleteAccount {password : String} {r : Except Failure Unit}
    (h : (Service.deleteAccount o session password).Ends s r s') :
    Rewrites o s owner (.deleteAccount session password) (s'.ledger.records.get? owner) := by
  cases Service.deleteAccount_outcome h with
  | refused hquiet => exact .of_ledger hquiet.ledger
  | done _ _ _ hl hb =>
    rcases hl with rfl | rfl
    · exact .of_ledger hb.ledger_eq
    · rw [hb.ledger_eq, Ledger.records_remove]
      split
      · rename_i heq
        exact .removed heq.symm
      · exact .kept

/-- An activation that goes through turns the record on, with copies of what it checked. The pending
secret goes into both copies, under two keys. -/
theorem rewrites_activate {code : String} {r : Except Failure Service.Activation}
    (h : (Service.activate o session code).Ends s r s') :
    Rewrites o s owner (.activate session code) (s'.ledger.records.get? owner) := by
  cases Service.activate_outcome h with
  | refused _ hfaded => exact .of_ledger hfaded.ledger
  | mistaken _ _ hb | unwritten _ _ hb => exact .of_ledger hb.ledger_eq
  | late _ _ hquiet => exact .of_ledger hquiet.ledger
  | done hcheck _ hl hb =>
    obtain ⟨hoff, -, created, hrecords⟩ := Ledger.enable?_eq hl
    rw [hb.ledger_eq, hrecords]
    split
    · rename_i heq
      rw [← heq] at hoff
      exact .enabled heq.symm hoff hcheck
    · exact .kept

/-- A verification writes the main copy in the place of the one that it opened. -/
theorem rewrites_validate {password code : String} {r : Except Failure Session.Tokens}
    (h : (Service.validate o session password code).Ends s r s') :
    Rewrites o s owner (.validate session password code) (s'.ledger.records.get? owner) := by
  cases Service.validate_outcome h with
  | refused _ hquiet | lost _ hquiet => exact .of_ledger hquiet.ledger
  | mistaken hcheck _ hl hb | done hcheck _ hl hb =>
    obtain ⟨row, hrow, hmain, -, hrecords⟩ := Ledger.updateMain?_eq hl
    rw [hb.ledger_eq, hrecords]
    split
    · rename_i heq
      rw [← heq] at hrow
      exact .rechecked heq.symm hrow hmain ((Service.checkMain_ends hcheck).2 _ rfl)
    · exact .kept

/-- A deactivation empties the record, if there is one, and leaves it in the table. -/
theorem rewrites_deactivate {password : String} {r : Except Failure Session.Tokens}
    (h : (Service.deactivate o session password).Ends s r s') :
    Rewrites o s owner (.deactivate session password) (s'.ledger.records.get? owner) := by
  cases Service.deactivate_outcome h with
  | refused hquiet => exact .of_ledger hquiet.ledger
  | done _ _ _ _ hb =>
    rw [hb.ledger_eq, Ledger.records_disable]
    split
    · rename_i heq
      rw [← heq]
      cases hrow : s.ledger.records.get? owner with
      | none =>
        rw [Option.map_none, ← hrow]
        exact .kept
      | some row => exact .disabled heq.symm hrow
    · exact .kept

/-- A change of the password writes a main copy only if one was shown, and then in the place of
that. -/
theorem rewrites_changePassword {current new : String} {r : Except Failure Session.Tokens}
    (h : (Service.changePassword o session current new).Ends s r s') :
    Rewrites o s owner (.changePassword session current new) (s'.ledger.records.get? owner) := by
  cases Service.changePassword_outcome h with
  | refused hquiet => exact .of_ledger hquiet.ledger
  | @done _ main _ _ _ _ _ hmain hl hb =>
    rw [hb.ledger_eq]
    cases main with
    | none =>
      rw [Ledger.changePassword?_none_eq hl]
      exact .kept
    | some pair =>
      obtain ⟨copies, secret, -, hopen, hexpected, hsealed⟩ := hmain.of_some
      obtain ⟨row, hrow, hhas, -, hrecords⟩ := Ledger.changePassword?_some_eq hl
      rw [hrecords]
      split
      · rename_i heq
        rw [← heq] at hrow
        rw [hexpected] at hhas
        rw [hsealed]
        exact .resealed heq.symm hrow hhas hopen
      · exact .kept

/-- A recovery replaces copies and fingerprint, where it finds the fingerprint that it was shown. -/
theorem rewrites_recoverPassword {email recoveryKey new : String} {r : Except Failure String}
    (h : (Service.recoverPassword o email recoveryKey new).Ends s r s') :
    Rewrites o s owner (.recoverPassword email recoveryKey new)
      (s'.ledger.records.get? owner) := by
  cases Service.recoverPassword_outcome h with
  | refused hquiet => exact .of_ledger hquiet.ledger
  | done _ hfound hshown hsecret hl hb =>
    obtain ⟨row, hrow, hfingerprint, -, hrecords⟩ := Ledger.recover?_eq hl
    rw [hb.ledger_eq, hrecords]
    split
    · rename_i heq
      rw [← heq] at hfound hshown hrow
      exact .recovered hfound hrow hfingerprint hshown hsecret
    · exact .kept

end Calls

/-- **Each call rewrites the record of an account in its way, or leaves it.** Statements about
records along a run go by these ways, and look at no call again. -/
theorem rewrites_of_ends {o : Occasion} {s s' : State} {call : Call} {r : Except Failure Reply}
    (h : (Service.perform o call).Ends s r s') (owner : Uuid) :
    Rewrites o s owner call (s'.ledger.records.get? owner) := by
  -- Five calls write records, and have been looked at above.
  cases call with
  | health =>
    obtain ⟨q, hq, -⟩ := Op.ends_map.1 h
    exact .of_ledger (Service.health_ends hq).ledger
  | register email password =>
    obtain ⟨q, hq, -⟩ := Op.ends_map.1 h
    cases Service.register_outcome hq with
    | refused hquiet => exact .of_ledger hquiet.ledger
    | done _ _ _ hb =>
      rw [hb.ledger_eq]
      exact .kept
  | login email password =>
    obtain ⟨q, hq, -⟩ := Op.ends_map.1 h
    cases Service.login_outcome hq with
    | refused hquiet => exact .of_ledger hquiet.ledger
    | done _ _ _ hb => exact .of_ledger hb.ledger_eq
  | refresh token =>
    obtain ⟨q, hq, -⟩ := Op.ends_map.1 h
    obtain ⟨-, rfl⟩ := Op.ends_onSessions.1 hq
    exact .kept
  | logout session =>
    obtain ⟨q, hq, -⟩ := Op.ends_map.1 h
    obtain ⟨-, rfl⟩ := Op.ends_changeSessions.1 hq
    exact .kept
  | deleteAccount session password =>
    obtain ⟨q, hq, -⟩ := Op.ends_map.1 h
    exact rewrites_deleteAccount hq
  | overview session =>
    obtain ⟨q, hq, -⟩ := Op.ends_map.1 h
    exact .of_ledger (Service.overview_ends hq).ledger
  | setup session password =>
    obtain ⟨q, hq, -⟩ := Op.ends_map.1 h
    cases Service.setup_outcome hq with
    | refused hquiet => exact .of_ledger hquiet.ledger
    | done _ _ _ _ _ _ _ hb => exact .of_ledger hb.ledger_eq
  | image session name =>
    obtain ⟨q, hq, -⟩ := Op.ends_map.1 h
    exact .of_ledger (Service.pendingImage_ends hq).ledger
  | activate session code =>
    obtain ⟨q, hq, -⟩ := Op.ends_map.1 h
    exact rewrites_activate hq
  | validate session password code =>
    obtain ⟨q, hq, -⟩ := Op.ends_map.1 h
    exact rewrites_validate hq
  | validateBackupCode session code =>
    obtain ⟨q, hq, -⟩ := Op.ends_map.1 h
    cases Service.validateBackupCode_outcome hq with
    | refused hquiet => exact .of_ledger hquiet.ledger
    | done _ _ _ hl hb =>
      refine .of_same ?_
      rw [hb.ledger_eq, (Ledger.consumeCode?_eq hl).2]
  | generateBackupCodes session password =>
    obtain ⟨q, hq, -⟩ := Op.ends_map.1 h
    cases Service.generateBackupCodes_outcome hq with
    | refused hquiet => exact .of_ledger hquiet.ledger
    | done _ _ _ _ hb =>
      rw [hb.ledger_eq]
      exact .kept
  | deactivate session password =>
    obtain ⟨q, hq, -⟩ := Op.ends_map.1 h
    exact rewrites_deactivate hq
  | changePassword session current new =>
    obtain ⟨q, hq, -⟩ := Op.ends_map.1 h
    exact rewrites_changePassword hq
  | recoverPassword email recoveryKey new =>
    obtain ⟨q, hq, -⟩ := Op.ends_map.1 h
    exact rewrites_recoverPassword hq
  | purge =>
    obtain ⟨q, hq, -⟩ := Op.ends_map.1 h
    exact .of_ledger (Service.purge_ends hq).1

/-- **Each turn leaves the record of an account, or its call rewrites it.** A request that leads to
no call leaves it. -/
theorem Turn.rewrites (D : Deployment) (t : Turn) (s : State) (owner : Uuid) :
    (t.next D s).ledger.records.get? owner = s.ledger.records.get? owner ∨
      ∃ call, t.call? D s = some call ∧ Rewrites (t.occasion D) (t.facing s) owner call
        ((t.next D s).ledger.records.get? owner) := by
  rcases t.next_cases D s with ⟨-, -, hnext⟩ | ⟨call, r, hcall, -, hends⟩
  · rw [hnext]
    exact .inl rfl
  · exact .inr ⟨call, hcall, rewrites_of_ends hends owner⟩

/-! ## §3 — whole records -/

/-- **The step.** A call leaves a whole record behind: whoever writes a copy writes one that is not
empty, and only a deactivation takes copies away, all of them at once. -/
theorem Rewrites.whole {o : Occasion} {s : State} {owner : Uuid} {call : Call}
    {after : Option FactorRecord}
    (hword : ∀ salt word, o.deployment.primitives.hashWord salt word ≠ "")
    (h : Rewrites o s owner call after)
    (hbefore : ∀ row, s.ledger.records.get? owner = some row → row.Whole) (row : FactorRecord)
    (hrow : after = some row) : row.Whole := by
  cases h with
  | kept => exact hbefore row hrow
  | enabled =>
    cases hrow
    exact .of_active (FactorRecord.active?_ofCopies (Otp.Secret.wrap_ne_nil _ _ _ _)
      (Otp.Secret.wrap_ne_nil _ _ _ _) (hword _ _))
  | rechecked _ hthere hmain _ | resealed _ hthere hmain _ =>
    cases hrow
    obtain ⟨hon, -⟩ := FactorRecord.hasMain_iff.1 hmain
    exact (hbefore _ hthere).setMain hon (Otp.Secret.wrap_ne_nil _ _ _ _)
  | recovered _ _ hfingerprint _ _ =>
    cases hrow
    obtain ⟨hon, -⟩ := FactorRecord.hasFingerprint_iff.1 hfingerprint
    exact .of_active (FactorRecord.active?_eq_some.2 ⟨hon, rfl, rfl, rfl,
      Otp.Secret.wrap_ne_nil _ _ _ _, Otp.Secret.wrap_ne_nil _ _ _ _, hword _ _⟩)
  | disabled =>
    cases hrow
    exact ⟨nofun, fun _ => ⟨rfl, rfl, rfl⟩⟩
  | removed => cases hrow

/-- **Records are whole in every run**, whatever is shown or fails: there are both copies and the
fingerprint, or none of them. -/
theorem whole_state {D : Deployment}
    (hword : ∀ salt word, D.primitives.hashWord salt word ≠ "") (h : History) (owner : Uuid)
    (row : FactorRecord) (hrow : (h.state D).ledger.records.get? owner = some row) :
    row.Whole := by
  induction h generalizing row with
  | start gallery => cases hrow
  | turn h t ih =>
    rcases t.rewrites D (h.state D) owner with hsame | ⟨call, -, hrewrites⟩
    · exact ih row (hsame.symm.trans hrow)
    · exact hrewrites.whole hword ih row hrow

end SecondFactor
