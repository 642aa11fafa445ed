import SecondFactor.Proofs.History
import SecondFactor.Proofs.Laws
import SecondFactor.Proofs.Ledger

/-!
# Enabled records are complete

An operation asks for the copies of an active record: enabled, with both copies and a fingerprint.
As far as the service itself writes records, a record that is enabled has them all, so that
*enabled* and *active* come to the same.

## The architecture

* **`Ledger.Complete`** — every enabled record is active.
* **`Ledger.Complete.of_write`** — a change of one record keeps it, if the new record is all right.
* **`complete_of_ends`** — every call keeps it; **`complete_state`** — so it holds in every run.
-/

namespace SecondFactor

open Service (Call Reply)

/-- Every enabled record has its copies. -/
def Ledger.Complete (l : Ledger) : Prop :=
  ∀ owner row, l.records.get? owner = some row → row.enabled = true → ∃ c, row.active? = some c

namespace Ledger.Complete

variable {l l' : Ledger} {owner : Uuid}

theorem of_records (h : l.Complete) (hrecords : l'.records = l.records) : l'.Complete := by
  intro other row hrow
  rw [hrecords] at hrow
  exact h other row hrow

/-- One record is written or removed. The others stay complete, so it is enough to look at what is
written. -/
theorem of_write {found : Option FactorRecord} (h : l.Complete)
    (hrecords : ∀ other, l'.records.get? other =
      if other = owner then found else l.records.get? other)
    (hfound : ∀ row, found = some row → row.enabled = true → ∃ c, row.active? = some c) :
    l'.Complete := by
  intro other row hrow
  rw [hrecords] at hrow
  split at hrow
  · exact hfound row hrow
  · exact h other row hrow

/-- A new main copy leaves a complete record complete, as long as something is in it. -/
theorem of_setMain {row : FactorRecord} {main : Bytes} {updated : Instant} (h : l.Complete)
    (hrow : l.records.get? owner = some row) (hmain : main ≠ [])
    (hrecords : ∀ other, l'.records.get? other =
      if other = owner then some { row with main := some main, updated }
      else l.records.get? other) :
    l'.Complete := by
  refine h.of_write hrecords fun row' hrow' henabled => ?_
  cases hrow'
  obtain ⟨c, hc⟩ := h owner row hrow henabled
  exact ⟨_, FactorRecord.active?_setMain hc hmain⟩

end Ledger.Complete

variable {D : Deployment} {o : Occasion} {s s' : State}

/-- **Every call keeps enabled records complete.** Copies that are written are never empty, since an
envelope holds at least its nonce. -/
theorem complete_of_ends (hword : o.deployment.primitives.HashingLaws)
    {call : Call} {r : Except Failure Reply} (h : (Service.perform o call).Ends s r s')
    (hs : s.ledger.Complete) : s'.ledger.Complete := by
  have hsame : s'.ledger = s.ledger → s'.ledger.Complete := fun he => by rwa [he]
  cases call with
  | health =>
    obtain ⟨q, hq, rfl⟩ := Op.ends_map.1 h
    exact hsame (Service.health_ends hq).ledger
  | register email password =>
    obtain ⟨q, hq, rfl⟩ := Op.ends_map.1 h
    cases Service.register_outcome hq with
    | refused hquiet => exact hsame hquiet.ledger
    | done _ _ _ hb => exact hb.ledger_eq ▸ hs.of_records rfl
  | login email password =>
    obtain ⟨q, hq, rfl⟩ := Op.ends_map.1 h
    cases Service.login_outcome hq with
    | refused hquiet => exact hsame hquiet.ledger
    | done _ _ _ hb => exact hsame hb.ledger_eq
  | refresh token =>
    obtain ⟨q, hq, rfl⟩ := Op.ends_map.1 h
    obtain ⟨-, rfl⟩ := Op.ends_onSessions.1 hq
    exact hs
  | logout session =>
    obtain ⟨q, hq, rfl⟩ := Op.ends_map.1 h
    obtain ⟨-, rfl⟩ := Op.ends_changeSessions.1 hq
    exact hs
  | deleteAccount session password =>
    obtain ⟨q, hq, rfl⟩ := Op.ends_map.1 h
    cases Service.deleteAccount_outcome hq with
    | refused hquiet => exact hsame hquiet.ledger
    | done _ _ _ hl hb =>
      rcases hl with rfl | rfl
      · exact hsame hb.ledger_eq
      · rw [hb.ledger_eq]
        exact hs.of_write (Ledger.records_remove _ _) nofun
  | overview session =>
    obtain ⟨q, hq, rfl⟩ := Op.ends_map.1 h
    exact hsame (Service.overview_ends hq).ledger
  | setup session password =>
    obtain ⟨q, hq, rfl⟩ := Op.ends_map.1 h
    cases Service.setup_outcome hq with
    | refused hquiet => exact hsame hquiet.ledger
    | done _ _ _ _ _ _ _ hb => exact hsame hb.ledger_eq
  | image session name =>
    obtain ⟨q, hq, rfl⟩ := Op.ends_map.1 h
    exact hsame (Service.pendingImage_ends hq).ledger
  | activate session code =>
    obtain ⟨q, hq, rfl⟩ := Op.ends_map.1 h
    cases Service.activate_outcome hq with
    | refused _ hfaded => exact hsame hfaded.ledger
    | mistaken _ _ hb => exact hsame hb.ledger_eq
    | unwritten _ _ hb => exact hsame hb.ledger_eq
    | late _ _ hquiet => exact hsame hquiet.ledger
    | done _ _ hl hb =>
      obtain ⟨-, -, created, hrecords⟩ := Ledger.enable?_eq hl
      rw [hb.ledger_eq]
      refine hs.of_write hrecords fun row hrow _ => ?_
      cases hrow
      exact ⟨_, FactorRecord.active?_ofCopies (Otp.Secret.wrap_ne_nil _ _ _ _)
        (Otp.Secret.wrap_ne_nil _ _ _ _) (hword.hash_nonempty _ _)⟩
  | validate session password code =>
    obtain ⟨q, hq, rfl⟩ := Op.ends_map.1 h
    cases Service.validate_outcome hq with
    | refused _ hquiet => exact hsame hquiet.ledger
    | lost _ hquiet => exact hsame hquiet.ledger
    | mistaken _ _ hl hb | done _ _ hl hb =>
      obtain ⟨row, hrow, -, -, hrecords⟩ := Ledger.updateMain?_eq hl
      rw [hb.ledger_eq]
      exact hs.of_setMain hrow (Otp.Secret.wrap_ne_nil _ _ _ _) hrecords
  | validateBackupCode session code =>
    obtain ⟨q, hq, rfl⟩ := Op.ends_map.1 h
    cases Service.validateBackupCode_outcome hq with
    | refused hquiet => exact hsame hquiet.ledger
    | done _ _ _ hl hb =>
      rw [hb.ledger_eq]
      exact hs.of_records (Ledger.consumeCode?_eq hl).2
  | generateBackupCodes session password =>
    obtain ⟨q, hq, rfl⟩ := Op.ends_map.1 h
    cases Service.generateBackupCodes_outcome hq with
    | refused hquiet => exact hsame hquiet.ledger
    | done _ _ _ _ hb => exact hb.ledger_eq ▸ hs.of_records rfl
  | deactivate session password =>
    obtain ⟨q, hq, rfl⟩ := Op.ends_map.1 h
    cases Service.deactivate_outcome hq with
    | refused hquiet => exact hsame hquiet.ledger
    | done _ _ _ _ hb =>
      rw [hb.ledger_eq]
      refine hs.of_write (Ledger.records_disable _ _ · _) fun row hrow henabled => ?_
      -- What is left of the record is not enabled.
      obtain ⟨_, -, rfl⟩ := Option.map_eq_some_iff.1 hrow
      cases henabled
  | changePassword session current new =>
    obtain ⟨q, hq, rfl⟩ := Op.ends_map.1 h
    cases Service.changePassword_outcome hq with
    | refused hquiet => exact hsame hquiet.ledger
    | @done _ main _ _ _ _ _ hmain hl hb =>
      rw [hb.ledger_eq]
      rcases main with _ | ⟨expected, main⟩
      · rw [Ledger.changePassword?_none_eq hl]
        exact hs.of_records rfl
      · obtain ⟨row, hrow, -, -, hrecords⟩ := Ledger.changePassword?_some_eq hl
        obtain ⟨_, secret, -, -, -, rfl⟩ := hmain.of_some
        exact hs.of_setMain hrow (Otp.Secret.wrap_ne_nil _ _ _ _) hrecords
  | recoverPassword email recoveryKey new =>
    obtain ⟨q, hq, rfl⟩ := Op.ends_map.1 h
    cases Service.recoverPassword_outcome hq with
    | refused hquiet => exact hsame hquiet.ledger
    | done _ _ _ _ hl hb =>
      obtain ⟨row, hrow, hfingerprint, -, hrecords⟩ := Ledger.recover?_eq hl
      rw [hb.ledger_eq]
      refine hs.of_write hrecords fun row' hrow' henabled => ?_
      cases hrow'
      exact ⟨_, FactorRecord.active?_eq_some.2 ⟨henabled, rfl, rfl, rfl,
        Otp.Secret.wrap_ne_nil _ _ _ _, Otp.Secret.wrap_ne_nil _ _ _ _, hword.hash_nonempty _ _⟩⟩
  | purge =>
    obtain ⟨q, hq, rfl⟩ := Op.ends_map.1 h
    exact hsame (Service.purge_ends hq).1

/-- **Enabled records are complete in every run**, whatever is shown or fails. A record that is on
is therefore active as well, and the two tests that the service makes agree. -/
theorem complete_state (hword : D.primitives.HashingLaws) (h : History) :
    (h.state D).ledger.Complete := by
  induction h with
  | start gallery => nofun
  | turn h t ih =>
    rcases t.next_cases D (h.state D) with ⟨-, -, hnext⟩ | ⟨call, r, -, -, hends⟩
    · show (t.next D (h.state D)).ledger.Complete
      rw [hnext]
      exact ih
    · exact complete_of_ends hword hends ih

end SecondFactor
