import SecondFactor.Proofs.Completeness

/-!
# Changing the password beside other changes

A change of the password first looks at the record of the account, and then writes. If another call
changed the record in between, the look has shown what is there no longer. What was shown as active
is compared with what is there, so that the write is refused or goes together with the main copy.
What was shown as not active is not compared with anything: the write sets the password hash alone,
even if the second factor was turned on since, and the main copy stays under the key of the old
password.

## The architecture

* **`Rotation.Refused`**, **`Rotation.Rewrapped`** — the two ways in which a change is safe.
* **`Rotation.Unguarded`** — the one way in which it is not.
* **`rewrapped_of_active`**, **`ledger_of_inactive`** — what is written, by what was shown.
* **`changePassword_safe_iff`** — safe in every state but the unguarded ones.
-/

namespace SecondFactor

namespace Rotation

variable (o : Occasion) (owner : Uuid) (current new : String) (s s' : State)

/-- An error was returned, and accounts, records and codes are as they were. -/
def Refused {α : Type} (r : Except Failure α) : Prop :=
  (∃ failure, r = .error failure) ∧ s'.ledger = s.ledger

/-- If the second factor is on, then the main copy opens under the new password to the secret to
which it opened under the old one. -/
def Rewrapped : Prop :=
  s'.enabled owner = true → ∃ secret, s.mainSecret? o.deployment owner current = some secret ∧
    s'.mainSecret? o.deployment owner new = some secret

/-- No active record is shown although the second factor is on, and the main copy that is there does
not open under both passwords to one secret. -/
structure Unguarded : Prop where
  inactive : (s.shown owner).bind FactorRecord.active? = none
  enabled : s.enabled owner = true
  differs : ¬ ∃ secret, s.mainSecret? o.deployment owner current = some secret ∧
    s.mainSecret? o.deployment owner new = some secret

end Rotation

open Rotation

variable {o : Occasion} {session : Session} {current new : String} {s s' : State}

/-- A main copy that opens under the key of a word gives the secret of the account. -/
theorem State.mainSecret?_eq_some {D : Deployment} {owner : Uuid} {word : String}
    {row : FactorRecord} {main : Bytes} {secret : Otp.Secret}
    (hrow : s.ledger.records.get? owner = some row) (hmain : row.main = some main)
    (hopen : Otp.Secret.unwrap D.primitives main (D.kdf.derive D.primitives word) = .ok secret) :
    s.mainSecret? D owner word = some secret := by
  rw [State.mainSecret?, hrow, Option.bind_some, hmain, Option.bind_some, hopen]
  rfl

/-- The main copy is in the record, so it opens as before where records are left alone. -/
theorem State.mainSecret?_of_records {D : Deployment} {owner : Uuid} {word : String}
    (h : s'.ledger.records = s.ledger.records) :
    s'.mainSecret? D owner word = s.mainSecret? D owner word := by
  rw [State.mainSecret?, State.mainSecret?, h]

/-- What was shown as active is still there when the change is made, and is sealed again. The guard
sees to it; without an active record there is no guard, and this is what fails in a race. -/
theorem rewrapped_of_active (hP : o.deployment.primitives.SealingLaws) {expected main : Bytes}
    {shown : Option FactorRecord} {hash : String} {l : Ledger}
    (hmain : Service.Outcome.Resealed o shown current new (some (expected, main)))
    (hl : s.ledger.changePassword? session.owner hash (some (expected, main)) = some l)
    (hledger : s'.ledger = l) : Rewrapped o session.owner current new s s' := by
  intro _
  obtain ⟨copies, secret, -, hopen, rfl, rfl⟩ := hmain.of_some
  obtain ⟨row, hrow, hhas, -, hrecords⟩ := Ledger.changePassword?_some_eq hl
  -- The comparison was with the main copy that was opened.
  have hcurrent : row.main = some copies.main := by
    rw [FactorRecord.hasMain, Bool.and_eq_true, beq_iff_eq] at hhas
    exact hhas.2
  have hnew := hrecords session.owner
  rw [if_pos rfl, ← hledger] at hnew
  refine ⟨secret, State.mainSecret?_eq_some hrow hcurrent hopen,
    State.mainSecret?_eq_some hnew rfl ?_⟩
  exact Otp.Secret.unwrap_wrap hP (Otp.Secret.bounded_of_unwrap hopen)

/-- **A change of the password is safe, except in the unguarded states**, and there it sets the
password hash alone. The state is any state, and what is shown of the record is what lies ahead as a
stale read, or what is there. -/
theorem changePassword_safe_iff (hP : o.deployment.primitives.SealingLaws)
    {r : Except Failure Session.Tokens}
    (h : (Service.changePassword o session current new).Ends s r s') :
    (Refused s s' r ∨ Rewrapped o session.owner current new s s' ↔
      Refused s s' r ∨ ¬ Unguarded o session.owner current new s) ∧
    (¬ Refused s s' r → Unguarded o session.owner current new s →
      s'.ledger = s.ledger.setPasswordHash session.owner
        (o.deployment.primitives.hashWord o.draws.passwordSalt new)) := by
  cases Service.changePassword_outcome h with
  | @refused failure _ hquiet =>
    have hrefused : Refused s s' (.error failure : Except Failure Session.Tokens) :=
      ⟨⟨failure, rfl⟩, hquiet.ledger⟩
    exact ⟨⟨fun _ => .inl hrefused, fun _ => .inl hrefused⟩, fun hno => absurd hrefused hno⟩
  | @done _ main _ _ _ _ _ hmain hl hb =>
    rcases main with _ | ⟨expected, main⟩
    · -- No active record was shown, and nothing was compared.
      have hledger := hb.ledger_eq.trans (Ledger.changePassword?_none_eq hl)
      have hrecords : s'.ledger.records = s.ledger.records := by
        rw [hledger]
        rfl
      have henabled : s'.enabled session.owner = s.enabled session.owner := by
        rw [State.enabled, State.enabled, hrecords]
      refine ⟨or_congr_right ⟨fun hrewrapped hunguarded => ?_, fun hguarded henabled' => ?_⟩,
        fun _ _ => hledger⟩
      · obtain ⟨secret, hcurrent, hnew⟩ := hrewrapped (henabled.trans hunguarded.enabled)
        rw [State.mainSecret?_of_records hrecords] at hnew
        exact hunguarded.differs ⟨secret, hcurrent, hnew⟩
      · by_contra hdiffers
        refine hguarded ⟨hmain.of_none, henabled.symm.trans henabled', ?_⟩
        rintro ⟨secret, hcurrent, hnew⟩
        rw [← State.mainSecret?_of_records hrecords] at hnew
        exact hdiffers ⟨secret, hcurrent, hnew⟩
    · -- An active record was shown, and it is the one that is there.
      have hrewrapped : Rewrapped o session.owner current new s s' :=
        rewrapped_of_active hP hmain hl hb.ledger_eq
      obtain ⟨copies, _, hshown, -⟩ := hmain.of_some
      have hguarded : ¬ Unguarded o session.owner current new s := by
        intro hunguarded
        rw [hunguarded.inactive] at hshown
        cases hshown
      exact ⟨⟨fun _ => .inr hguarded, fun _ => .inr hrewrapped⟩,
        fun _ hunguarded => absurd hunguarded hguarded⟩

/-- Without a stale read, nothing is unguarded as long as enabled records are complete. -/
theorem not_unguarded_of_fresh {owner : Uuid} (hcomplete : s.ledger.Complete)
    (hfresh : s.mishaps.staleRecord = none) : ¬ Unguarded o owner current new s := by
  rintro ⟨hinactive, henabled, -⟩
  obtain ⟨row, hrow, henabled⟩ := Ledger.of_any henabled
  obtain ⟨copies, hcopies⟩ := hcomplete owner row hrow henabled
  rw [State.shown, hfresh, Option.none_or, hrow, Option.bind_some, hcopies] at hinactive
  cases hinactive

/-! A run in which a second factor is turned on, off, and on again. What is shown to the change of
the password is the record in between. -/

/-- The run up to where the second factor is off again. -/
def History.leaving : History :=
  .turn (.turn (.turn (.turn (.start .missing)
    (.inStep 1 (.call (.register "a@b.c" "password"))))
    (.inStep 2 (.call (.setup ⟨.ofByte 1, .empty, .ofByte 0⟩ "password"))))
    (.inStep 3 (.call (.activate ⟨.ofByte 1, .empty, .ofByte 0⟩ "000003"))))
    (.inStep 4 (.call (.deactivate ⟨.ofByte 1, .verified, .ofByte 3⟩ "password")))

/-- The run up to where it is on again. -/
def History.returning : History :=
  .turn (.turn .leaving
    (.inStep 5 (.call (.setup ⟨.ofByte 1, .empty, .ofByte 4⟩ "password"))))
    (.inStep 6 (.call (.activate ⟨.ofByte 1, .empty, .ofByte 4⟩ "000006")))

/-- The change of the password, which is shown the record from when it was off. -/
def Turn.overtaken : Turn :=
  .inStep 7 (.call (.changePassword ⟨.ofByte 1, .verified, .ofByte 6⟩ "password" "passw0rd"))
    ((History.leaving.state .transparent).ledger.records.get? (.ofByte 1))

/-- In the run, the change is answered and leaves the main copy under the old password. -/
theorem changePassword_unsafe_overtaken : ∃ s s' r,
    s = Turn.overtaken.facing (History.returning.state .transparent) ∧
    (Service.changePassword (Turn.overtaken.occasion .transparent)
      ⟨.ofByte 1, .verified, .ofByte 6⟩ "password" "passw0rd").Ends s r s' ∧
    r.toBool = true ∧
    ¬ (Refused s s' r ∨
      Rewrapped (Turn.overtaken.occasion .transparent) (.ofByte 1) "password" "passw0rd" s s') := by
  have hrun : ((Service.changePassword (Turn.overtaken.occasion .transparent)
        ⟨.ofByte 1, .verified, .ofByte 6⟩ "password" "passw0rd").exec
          (Turn.overtaken.facing (History.returning.state .transparent))).1.toBool = true ∧
      ((Turn.overtaken.facing (History.returning.state .transparent)).shown (.ofByte 1)).bind
        FactorRecord.active? = none ∧
      (Turn.overtaken.facing (History.returning.state .transparent)).enabled (.ofByte 1) = true ∧
      (Turn.overtaken.facing (History.returning.state .transparent)).mainSecret?
        (Turn.overtaken.occasion .transparent).deployment (.ofByte 1) "passw0rd" = none := by
    decide +kernel
  -- What follows is not to look into the state again.
  obtain ⟨s, hs⟩ : ∃ s, s = Turn.overtaken.facing (History.returning.state .transparent) := ⟨_, rfl⟩
  rw [← hs] at hrun ⊢
  obtain ⟨hok, hinactive, henabled, hnew⟩ := hrun
  have hends := Op.ends_exec (Service.changePassword (Turn.overtaken.occasion .transparent)
    ⟨.ofByte 1, .verified, .ofByte 6⟩ "password" "passw0rd") s
  have hlaws : (Turn.overtaken.occasion .transparent).deployment.primitives.SealingLaws :=
    Primitives.transparent_sealing
  obtain ⟨hsafe, -⟩ := changePassword_safe_iff hlaws hends
  refine ⟨s, _, _, rfl, hends, hok, fun h => ?_⟩
  rcases hsafe.1 h with ⟨⟨failure, hfailure⟩, -⟩ | hguarded
  · rw [hfailure] at hok
    cases hok
  · refine hguarded ⟨hinactive, henabled, ?_⟩
    rintro ⟨secret, -, hsecret⟩
    rw [hnew] at hsecret
    cases hsecret

end SecondFactor
