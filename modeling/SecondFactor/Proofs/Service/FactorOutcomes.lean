import SecondFactor.Proofs.Service.AccountOutcomes

/-!
# How operations on the second factor end

Setting it up and activating it, verifying a session by a code or a backup code, and what a verified
session may do: drawing backup codes, and turning the second factor off. A check always leaves its
bookkeeping behind, so that these operations write even where they refuse.

## The architecture

* **`restage_ends`**, **`enable_or_restage_ends`** — what activating leaves of a pending secret.
* **`reissue_after`** — how an operation ends that hands out new tokens last.
* **`spendBackupCode`** — a verification by a backup code, up to the tokens.
* **`setup_outcome`**, **`activate_outcome`** and so on — one theorem for each operation.
-/

namespace SecondFactor

namespace Service

open Op

variable {o : Occasion} {s s' : State} {session : Session}

/-! ## Setting up and activating -/

/-- **A set-up** leaves the ledger alone. It puts a pending secret with its image, or it is refused
and does nothing. -/
theorem setup_outcome {password : String} {r : Except Failure ImageRef}
    (h : (setup o session password).Ends s r s') : Outcome.Setup o session password s r s' := by
  rcases ends_bind_of h ends_ensure with ⟨_, _, rfl, hclaim, h1⟩ | ⟨⟨failure, rfl⟩, rfl⟩
  rotate_left
  · exact .refused (.refl s)
  rcases confirmed_record h1 with ⟨account, t, ht, haccount, hpassword, h2⟩ | ⟨⟨failure, rfl⟩, ht⟩
  rotate_left
  · exact .refused ht
  rcases ends_bind_of h2 ends_ensure with ⟨_, _, rfl, hoff, h3⟩ | ⟨⟨failure, rfl⟩, rfl⟩
  rotate_left
  · exact .refused ht
  rcases ends_bind_of h3 ends_demand with ⟨image, _, rfl, -, h4⟩ | ⟨⟨failure, rfl⟩, rfl⟩
  rotate_left
  · exact .refused ht
  -- The new entry takes the place of what is pending now, not of what was pending at first.
  rcases ends_bind.1 h4 with ⟨before, _, hget, h5⟩ | ⟨failure, hget, -⟩
  rotate_left
  · cases (ends_get.1 hget).1
  obtain ⟨hbefore, rfl⟩ := ends_get.1 hget
  cases hbefore
  rcases ends_bind_of h5 ends_demand with ⟨after, _, rfl, hafter, h6⟩ | ⟨⟨failure, rfl⟩, rfl⟩
  rotate_left
  · exact .refused ht
  rcases ends_bind.1 h6 with ⟨_, _, hset, h7⟩ | ⟨failure, hset, -⟩
  rotate_left
  · cases (ends_set.1 hset).1
  obtain ⟨-, rfl⟩ := ends_set.1 hset
  obtain ⟨rfl, rfl⟩ := ends_pure.1 h7
  exact .done hclaim haccount hpassword (by simpa using hoff) rfl ht.staging hafter
    ⟨ht.ledger, fun _ => rfl, ht.sessions⟩

/-- Writing a secret back amends the entry that it was read from, however that ends. If the entry is
gone, or another one has taken its place, nothing is written. -/
theorem restage_ends {owner entry : Uuid} {secret : Otp.Secret} {r : Except Failure Unit}
    (h : (restage o owner entry secret).Ends s r s') :
    s' = { s with staging := restaged o owner entry secret s.staging } :=
  (ends_onStaging.1 h).2

/-- The record is written, or it is not because one is on by now, or the query fails and the secret
is written back to its entry. -/
theorem enable_or_restage_ends {owner entry : Uuid} {secret : Otp.Secret} {copies : Copies}
    {r : Except Failure Bool}
    (h : (tryCatch (Database.enable o.now owner copies) fun failure => do
      restage o owner entry secret
      throw failure : Op Bool).Ends s r s') :
    (∃ l, s.ledger.enable? owner copies o.now = some l ∧ r = .ok true ∧ Writes s l s') ∨
      (r = .ok false ∧ Quiet s s') ∨
      ∃ failure, r = .error failure ∧ Becomes s s.ledger (restaged o owner entry secret) id s' := by
  rcases ends_tryCatch.1 h with ⟨enabled, henable, rfl⟩ | ⟨failure, t, henable, hhandler⟩
  · cases Database.enable_ends henable with
    | refused hs => exact .inr (.inl ⟨rfl, hs.toQuiet⟩)
    | made hl hs => exact .inl ⟨_, hl, rfl, hs⟩
  · cases Database.enable_ends henable with
    | failed ht =>
      have hrestaged : Becomes s s.ledger (restaged o owner entry secret) id
          { t with staging := restaged o owner entry secret t.staging } :=
        ⟨ht.ledger, fun hp => congrArg (restaged o owner entry secret) (ht.staging hp), ht.sessions⟩
      rcases ends_bind.1 hhandler with ⟨_, u, hrestage, hthrow⟩ | ⟨failure, hrestage, rfl⟩
      · obtain rfl := restage_ends hrestage
        obtain ⟨rfl, rfl⟩ := ends_throw.1 hthrow
        exact .inr (.inr ⟨_, rfl, hrestaged⟩)
      · obtain rfl := restage_ends hrestage
        exact .inr (.inr ⟨_, rfl, hrestaged⟩)

/-- **An activation** turns the record on, or writes the attempt back to the pending secret, or
fails before either. The cases that are told apart are those that later statements need: whether the
code was accepted and whether the record was written. -/
theorem activate_outcome {code : String} {r : Except Failure Activation}
    (h : (activate o session code).Ends s r s') : Outcome.Activate o session code s r s' := by
  rcases ends_bind.1 h with ⟨⟨entry, check⟩, t, hcheck, h1⟩ | ⟨failure, hcheck, rfl⟩
  rotate_left
  · exact .refused hcheck (checkPending_ends hcheck).1
  have ht := ((checkPending_ends hcheck).2 _ rfl).1.toQuiet
  dsimp only at h1
  cases hyes : check.accepted with
  | none =>
    -- A wrong code: the attempt is counted in the entry.
    rw [show (!check.verified) = true by simp [Otp.Check.verified, hyes], if_pos rfl] at h1
    have hrestaged : Becomes s s.ledger (restaged o session.owner entry.id check.secret) id
        { t with staging := restaged o session.owner entry.id check.secret t.staging } :=
      ⟨ht.ledger, fun hp => congrArg (restaged o _ _ _) (ht.staging hp), ht.sessions⟩
    rcases ends_bind.1 h1 with ⟨_, u, hrestage, h2⟩ | ⟨failure, hrestage, rfl⟩
    · obtain rfl := restage_ends hrestage
      rcases ends_bind.1 h2 with ⟨_, v, hrefuse, -⟩ | ⟨failure, hrefuse, rfl⟩
      · cases (ends_refuse.1 hrefuse).1
      · obtain ⟨-, rfl⟩ := ends_refuse.1 hrefuse
        exact .mistaken hcheck hyes hrestaged
    · obtain rfl := restage_ends hrestage
      exact .mistaken hcheck hyes hrestaged
  | some step =>
    have hyes : check.accepted.isSome := by rw [hyes]; rfl
    rw [show (!check.verified) = false by simp [Otp.Check.verified, hyes],
      if_neg Bool.false_ne_true] at h1
    rcases ends_bind.1 h1 with ⟨enabled, u, henable, h2⟩ | ⟨failure, henable, rfl⟩
    rotate_left
    · rcases enable_or_restage_ends henable with ⟨_, _, hok, _⟩ | ⟨hok, _⟩ | ⟨_, hfail, hs'⟩
      · cases hok
      · cases hok
      · cases hfail
        have hs' := hs'.after ht
        rw [ht.ledger] at hs'
        -- The code was right and the record could not be written.
        exact .unwritten hcheck hyes hs'
    rcases enable_or_restage_ends henable with ⟨l, hl, hok, hw⟩ | ⟨hok, hu⟩ | ⟨_, hfail, _⟩
    · cases hok
      rcases ends_bind.1 h2 with ⟨_, _, hensure, h3⟩ | ⟨failure, hensure, -⟩
      rotate_left
      · cases (ends_pure.1 hensure).1
      obtain ⟨-, rfl⟩ := ends_pure.1 hensure
      rcases ends_bind.1 h3 with ⟨_, v, hdiscard, h4⟩ | ⟨failure, hdiscard, -⟩
      rotate_left
      · cases (ends_changeStaging.1 hdiscard).1
      obtain ⟨-, rfl⟩ := ends_changeStaging.1 hdiscard
      obtain ⟨q, hreplace, rfl⟩ := ends_map.1
        (show (_ <$> replaceAll o session.owner .verified).Ends _ r s' by rwa [map_eq_pure_bind])
      obtain ⟨hq, rfl⟩ := ends_onSessions.1 hreplace
      -- The record is on, and all sessions make way for a verified one.
      have hw := hw.after ht
      rw [ht.ledger] at hl
      have hq : q = (issued o session.owner .verified
          (Session.revokeOwner session.owner s.sessions)).1 := by
        rw [hq, ← hw.sessions]
        rfl
      rw [hq]
      exact .done hcheck hyes hl (hw.then (·.discardIf session.owner entry.id) _)
    · -- The answer is that a record is on already.
      cases hok
      rcases ends_bind.1 h2 with ⟨_, w, hensure, -⟩ | ⟨failure, hensure, rfl⟩
      · cases (ends_ensure hensure).2 _ rfl
      · obtain ⟨hr, rfl⟩ := ends_refuse.1 hensure
        cases hr
        exact .late hcheck hyes (ht.trans hu)
    · cases hfail

/-! ## Verifying a session -/

/-- What follows the change of a ledger in an operation that verifies a session. -/
theorem reissue_after {claim : Claim} {l : Ledger} {t : State} {r : Except Failure Session.Tokens}
    (hw : Writes s l t) (h : (reissue o session claim).Ends t r s') :
    r = (issued o session.owner claim (Session.revokeFamily session.family s.sessions)).1 ∧
      Becomes s l id (fun reg =>
        (issued o session.owner claim (Session.revokeFamily session.family reg)).2) s' := by
  obtain ⟨hr, rfl⟩ := ends_onSessions.1 h
  refine ⟨?_, hw.then id _⟩
  rw [hr, ← hw.sessions]
  rfl

/-- **A verification** writes the attempt to the main copy and then renews the session, or says that
the code was wrong. It is refused without a trace if the copy is no longer the one that it read. -/
theorem validate_outcome {password code : String} {r : Except Failure Session.Tokens}
    (h : (validate o session password code).Ends s r s') :
    Outcome.Validate o session password code s r s' := by
  rcases ends_bind.1 h with ⟨⟨copies, check⟩, t, hcheck, h1⟩ | ⟨failure, hcheck, rfl⟩
  rotate_left
  · exact .refused hcheck (checkMain_ends hcheck).1
  have ht := (checkMain_ends hcheck).1
  rcases ends_bind.1 h1 with ⟨kept, u, hkeep, h2⟩ | ⟨failure, hkeep, rfl⟩
  rotate_left
  · cases Database.updateMain_ends hkeep with
    | failed hu => exact .lost hcheck (ht.trans hu.toQuiet)
  cases Database.updateMain_ends hkeep with
  | refused hu =>
    -- The main copy is no longer the one that was opened.
    rcases ends_bind_of h2 ends_ensure with ⟨_, _, -, hkept, -⟩ | ⟨⟨failure, rfl⟩, rfl⟩
    · cases hkept
    · exact .lost hcheck (ht.trans hu.toQuiet)
  | made hl hu =>
    -- The copy is written before the code is judged, so a wrong code is counted as well.
    rw [ht.ledger] at hl
    have hw := hu.after ht
    rcases ends_bind.1 h2 with ⟨_, _, hensure, h3⟩ | ⟨failure, hensure, -⟩
    rotate_left
    · cases (ends_pure.1 hensure).1
    obtain ⟨-, rfl⟩ := ends_pure.1 hensure
    rcases ends_bind.1 h3 with ⟨_, _, hensure, h4⟩ | ⟨failure, hensure, rfl⟩
    · obtain ⟨rfl, hyes⟩ := ends_ensure hensure
      obtain ⟨rfl, hs'⟩ := reissue_after hw h4
      exact .done hcheck (hyes () rfl) hl hs'
    · cases hno : check.verified with
      | true =>
        rw [hno] at hensure
        cases (ends_pure.1 hensure).1
      | false =>
        rw [hno] at hensure
        obtain ⟨hr, rfl⟩ := ends_refuse.1 hensure
        cases hr
        exact .mistaken hcheck (by simpa [Otp.Check.verified] using hno) hl hw.becomes

/-- A verification by a backup code, up to where the session is renewed. -/
def spendBackupCode (o : Occasion) (session : Session) (code : String) : Op Unit := do
  ensureUnverified session.claim
  let _ ← currentAccount session.owner
  let _ ← activeCopies session.owner
  let code ← Op.demand (BackupCode.normalize code)
  let used ← Database.consumeCode session.owner
    (BackupCode.hash o.deployment.primitives o.deployment.kdf session.owner code)
  Op.ensure .backupCodeInvalid used

/-- A verification by a backup code is two operations in a row, of which the first uses the code up
and the second renews the session. -/
theorem validateBackupCode_eq (o : Occasion) (session : Session) (code : String) :
    validateBackupCode o session code =
      (spendBackupCode o session code >>= fun _ => reissue o session .verified) := by
  unfold validateBackupCode spendBackupCode
  simp only [bind_assoc]

/-- A backup code is used up, or nothing is done. A code that somebody else used in the meantime is
refused like one that never was. -/
theorem spendBackupCode_ends {code : String} {r : Except Failure Unit}
    (h : (spendBackupCode o session code).Ends s r s') :
    (∃ failure, r = .error failure ∧ Quiet s s') ∨
      r = .ok () ∧ session.claim = .on ∧ ∃ copies normal l,
        (s.shown session.owner).bind FactorRecord.active? = some copies ∧
        BackupCode.normalize code = .ok normal ∧
        s.ledger.consumeCode? session.owner (BackupCode.hash o.deployment.primitives
          o.deployment.kdf session.owner normal) = some l ∧ Writes s l s' := by
  rcases ends_bind_of h ensureUnverified_ends with ⟨_, _, rfl, hclaim, h1⟩ | ⟨⟨failure, rfl⟩, rfl⟩
  rotate_left
  · exact .inl ⟨failure, rfl, .refl s⟩
  rcases ends_bind_of h1 currentAccount_ends with ⟨account, t, ht, -, h2⟩ | ⟨⟨failure, rfl⟩, ht⟩
  rotate_left
  · exact .inl ⟨failure, rfl, ht.toQuiet⟩
  rcases ends_bind_of h2 activeCopies_ends with ⟨copies, u, hu, hactive, h3⟩ | ⟨⟨failure, rfl⟩, hu⟩
  rotate_left
  · exact .inl ⟨failure, rfl, ht.toQuiet.trans hu⟩
  rw [ht.shown] at hactive
  have hq := ht.toQuiet.trans hu
  rcases ends_bind_of h3 ends_demand with ⟨normal, _, rfl, hnormal, h4⟩ | ⟨⟨failure, rfl⟩, rfl⟩
  rotate_left
  · exact .inl ⟨failure, rfl, hq⟩
  rcases ends_bind.1 h4 with ⟨used, v, hconsume, h5⟩ | ⟨failure, hconsume, rfl⟩
  rotate_left
  · cases Database.consumeCode_ends hconsume with
    | failed hv => exact .inl ⟨_, rfl, hq.trans hv.toQuiet⟩
  cases Database.consumeCode_ends hconsume with
  | refused hv =>
    -- The account does not have the code, or not any more.
    obtain ⟨rfl, rfl⟩ := ends_refuse.1 h5
    exact .inl ⟨_, rfl, hq.trans hv.toQuiet⟩
  | made hl hv =>
    rw [hq.ledger] at hl
    obtain ⟨rfl, rfl⟩ := ends_pure.1 h5
    exact .inr ⟨rfl, hclaim, copies, normal, _, hactive, hnormal, hl, hv.after hq⟩

/-- **A verification by a backup code** has used a code up whenever it is not refused, even if no
tokens come of it. -/
theorem validateBackupCode_outcome {code : String} {r : Except Failure Session.Tokens}
    (h : (validateBackupCode o session code).Ends s r s') :
    Outcome.ValidateBackupCode o session code s r s' := by
  rw [validateBackupCode_eq] at h
  rcases ends_bind.1 h with ⟨_, t, hspend, h1⟩ | ⟨failure, hspend, rfl⟩
  · rcases spendBackupCode_ends hspend with
      ⟨failure, hfail, -⟩ | ⟨-, hclaim, copies, normal, l, hshown, hnormal, hl, hw⟩
    · cases hfail
    · obtain ⟨rfl, hs'⟩ := reissue_after hw h1
      exact .done hclaim hshown hnormal hl hs'
  · rcases spendBackupCode_ends hspend with ⟨_, -, hs'⟩ | ⟨hok, -⟩
    · exact .refused hs'
    · cases hok

/-! ## With a verified session -/

/-- The codes are replaced before it turns out whether they can be shown. For the codes that are
drawn they can, as `BackupCode.Stream.displayed` says. -/
theorem generateBackupCodes_ends {password : String} {r : Except Failure (List String)}
    (h : (generateBackupCodes o session password).Ends s r s') :
    (∃ failure, r = .error failure ∧ Quiet s s') ∨
      session.claim = .verified ∧ ∃ account copies,
        s.ledger.accounts.get? session.owner = some account ∧
        o.deployment.primitives.verifyWord account.passwordHash password = .ok true ∧
        (s.shown session.owner).bind FactorRecord.active? = some copies ∧
        Writes s (s.ledger.replaceCodes session.owner (o.draws.codes.codes.map
          (BackupCode.hash o.deployment.primitives o.deployment.kdf session.owner))) s' ∧
        ∀ shown, o.draws.codes.codes.mapM BackupCode.display? = some shown → r = .ok shown := by
  rcases ends_bind_of h ends_ensure with ⟨_, _, rfl, hclaim, h1⟩ | ⟨⟨failure, rfl⟩, rfl⟩
  rotate_left
  · exact .inl ⟨failure, rfl, .refl s⟩
  rcases confirmed_copies h1 with
    ⟨account, copies, t, ht, haccount, hpassword, hactive, h2⟩ | ⟨⟨failure, rfl⟩, ht⟩
  rotate_left
  · exact .inl ⟨failure, rfl, ht⟩
  rcases ends_bind.1 h2 with ⟨_, u, hreplace, h3⟩ | ⟨failure, hreplace, rfl⟩
  · rcases Database.replaceCodes_ends hreplace with ⟨failure, hfail, -⟩ | ⟨-, hu⟩
    · cases hfail
    · rw [ht.ledger] at hu
      refine .inr ⟨by simpa using hclaim, account, copies, haccount, hpassword, hactive, ?_⟩
      -- The codes have been written by now, and whether they can be shown depends on nothing but
      -- the codes.
      split at h3
      · rename_i shown hshown
        obtain ⟨rfl, rfl⟩ := ends_pure.1 h3
        refine ⟨hu.after ht, fun other hother => ?_⟩
        rw [← Option.some.inj (hshown.symm.trans hother)]
      · rename_i hnone
        obtain ⟨rfl, rfl⟩ := ends_throw.1 h3
        refine ⟨hu.after ht, fun other hother => ?_⟩
        cases hnone.symm.trans hother
  · rcases Database.replaceCodes_ends hreplace with ⟨failure', -, hu⟩ | ⟨hok, -⟩
    · exact .inl ⟨failure, rfl, ht.trans hu.toQuiet⟩
    · cases hok

/-- **A request for new codes** replaces the set and shows it, and is refused before it writes. -/
theorem generateBackupCodes_outcome {password : String} {r : Except Failure (List String)}
    (h : (generateBackupCodes o session password).Ends s r s') :
    Outcome.GenerateBackupCodes o session password s r s' := by
  rcases generateBackupCodes_ends h with
    ⟨failure, rfl, hquiet⟩ | ⟨hclaim, account, copies, haccount, hpassword, hactive, hw, -⟩
  · exact .refused hquiet
  · exact .done hclaim haccount hpassword hactive hw.becomes

/-- **A deactivation** empties the record and drops the codes, and then ends all sessions but a new
one. -/
theorem deactivate_outcome {password : String} {r : Except Failure Session.Tokens}
    (h : (deactivate o session password).Ends s r s') :
    Outcome.Deactivate o session password s r s' := by
  rcases ends_bind_of h ends_ensure with ⟨_, _, rfl, hclaim, h1⟩ | ⟨⟨failure, rfl⟩, rfl⟩
  rotate_left
  · exact .refused (.refl s)
  rcases confirmed_copies h1 with
    ⟨account, copies, t, ht, haccount, hpassword, hactive, h2⟩ | ⟨⟨failure, rfl⟩, ht⟩
  rotate_left
  · exact .refused ht
  rcases ends_bind.1 h2 with ⟨_, u, hdisable, h3⟩ | ⟨failure, hdisable, rfl⟩
  · rcases Database.disable_ends hdisable with ⟨failure, hfail, -⟩ | ⟨-, hu⟩
    · cases hfail
    · rw [ht.ledger] at hu
      obtain ⟨rfl, hs'⟩ := discard_and_replace (hu.after ht) h3
      exact .done (by simpa using hclaim) haccount hpassword hactive hs'
  · rcases Database.disable_ends hdisable with ⟨failure', -, hu⟩ | ⟨hok, -⟩
    · exact .refused (ht.trans hu.toQuiet)
    · cases hok

end Service

end SecondFactor
