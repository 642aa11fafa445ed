import SecondFactor.Proofs.Service.Outcome

/-!
# How operations on accounts end

Registering, logging in, deleting the account, and the two ways to a new password. A change of the
password and a recovery seal copies again, so this is also where the ends of opening and sealing are
found out.

## The architecture

* **`authenticate_ends`**, **`claimFor_ends`** — who logs in, and what the session claims.
* **`confirmed_record`**, **`confirmed_copies`** — an operation that starts with a password and goes
  on with the record, or with the copies, of the account.
* **`discard_and_replace`** — how an operation ends that ends all sessions of an account.
* **`resealed_then`**, **`recoverSecret_ends`** — what is sealed again.
* **`register_outcome`**, **`login_outcome`** and so on — one theorem for each operation.
-/

namespace SecondFactor

namespace Service

open Op

variable {o : Occasion} {s s' : State} {session : Session}

/-! ## Accounts -/

/-- **A registration** is refused before it writes, or it writes the account and hands out a first
pair of tokens. -/
theorem register_outcome {email password : String} {r : Except Failure (Uuid × Account)}
    (h : (register o email password).Ends s r s') : Outcome.Register o email password s r s' := by
  rcases ends_bind_of h ends_demand with ⟨address, _, rfl, hparse, h1⟩ | ⟨⟨failure, rfl⟩, rfl⟩
  rotate_left
  · exact .refused (.refl s)
  rcases ends_bind_of h1 Database.accountByEmail_ends with
    ⟨found, t, ht, hfound, h2⟩ | ⟨⟨failure, rfl⟩, ht⟩
  rotate_left
  · exact .refused ht.toQuiet
  cases found with
  | some row =>
    -- The address is taken.
    rcases ends_bind.1 h2 with ⟨_, _, hrefuse, -⟩ | ⟨failure, hrefuse, rfl⟩
    · cases (ends_refuse.1 hrefuse).1
    · obtain ⟨-, rfl⟩ := ends_refuse.1 hrefuse
      exact .refused ht.toQuiet
  | none =>
    rcases ends_bind.1 h2 with ⟨_, u, hcreate, h3⟩ | ⟨failure, hcreate, rfl⟩
    · obtain ⟨rfl, rfl⟩ := ends_pure.1 h3
      rcases Database.createAccount_ends hcreate with ⟨failure, hfail, -⟩ | ⟨-, hwrites⟩
      · cases hfail
      · rw [ht.ledger] at hwrites
        exact .done hparse hfound.symm rfl (hwrites.after ht.toQuiet).becomes
    · rcases Database.createAccount_ends hcreate with ⟨failure', -, hu⟩ | ⟨hok, -⟩
      · exact .refused (ht.trans hu).toQuiet
      · cases hok

/-- Checking an address with a password looks at the ledger and writes nothing. If it goes through,
the account is there under the address and the password is its own. -/
theorem authenticate_ends {email password : String} {r : Except Failure (Uuid × Account)}
    (h : (authenticate o email password).Ends s r s') :
    Unread s s' ∧ ∀ row, r = .ok row → s.ledger.findByEmail? email = some row ∧
      o.deployment.primitives.verifyWord row.2.passwordHash password = .ok true := by
  rcases ends_bind_of h Database.accountByEmail_ends with
    ⟨found, t, ht, rfl, h1⟩ | ⟨⟨failure, rfl⟩, ht⟩
  rotate_left
  · exact ⟨ht, nofun⟩
  rcases ends_bind_of h1 ends_require with ⟨row, _, rfl, hfound, h2⟩ | ⟨⟨failure, rfl⟩, rfl⟩
  rotate_left
  · exact ⟨ht, nofun⟩
  rcases ends_bind_of h2 checkPassword_ends with ⟨_, _, rfl, hpassword, h3⟩ | ⟨⟨failure, rfl⟩, rfl⟩
  rotate_left
  · exact ⟨ht, nofun⟩
  obtain ⟨rfl, rfl⟩ := ends_pure.1 h3
  exact ⟨ht, fun row hok => by cases hok; exact ⟨hfound, hpassword⟩⟩

/-- What a new session may claim is read off the record that is shown, which may be a stale one. -/
theorem claimFor_ends {owner : Uuid} {r : Except Failure Claim} (h : (claimFor owner).Ends s r s') :
    Quiet s s' ∧ ∀ claim, r = .ok claim →
      claim = Claim.ofStatus ((s.shown owner).map FactorRecord.status) := by
  rcases ends_bind_of h Database.record_ends with ⟨shown, t, ht, rfl, h1⟩ | ⟨⟨failure, rfl⟩, ht⟩
  · obtain ⟨rfl, rfl⟩ := ends_pure.1 h1
    exact ⟨ht, fun claim hok => (Except.ok.inj hok).symm⟩
  · exact ⟨ht, nofun⟩

/-- **A login** writes nothing to the ledger; it hands out a pair of tokens, or it is refused. What
the pair claims was read off the record that was shown. -/
theorem login_outcome {email password : String} {r : Except Failure Session.Tokens}
    (h : (login o email password).Ends s r s') : Outcome.Login o email password s r s' := by
  rcases ends_bind_of h authenticate_ends with
    ⟨⟨owner, account⟩, t, ht, ⟨hfound, hpassword⟩, h1⟩ | ⟨⟨failure, rfl⟩, ht⟩
  rotate_left
  · exact .refused ht.toQuiet
  rcases ends_bind_of h1 claimFor_ends with ⟨claim, u, hu, hclaim, h2⟩ | ⟨⟨failure, rfl⟩, hu⟩
  rotate_left
  · exact .refused (ht.toQuiet.trans hu)
  have hq := ht.toQuiet.trans hu
  obtain ⟨hr, hs'⟩ := ends_onSessions.1 h2
  rw [hq.sessions] at hr hs'
  rw [ht.shown] at hclaim
  subst hr hs'
  exact .done hfound hpassword hclaim ⟨hq.ledger, hq.staging, rfl⟩

/-- Three operations begin by confirming the password and then look at the record. What they know by
then is stated once for all of them. -/
theorem confirmed_record {owner : Uuid} {password : String} {α : Type}
    {f : Account → Option FactorRecord → Op α} {r : Except Failure α}
    (h : (do
      let account ← confirmPassword o owner password
      let shown ← Database.record owner
      f account shown).Ends s r s') :
    (∃ account t, Quiet s t ∧ s.ledger.accounts.get? owner = some account ∧
      o.deployment.primitives.verifyWord account.passwordHash password = .ok true ∧
      (f account (s.shown owner)).Ends t r s') ∨ (∃ failure, r = .error failure) ∧ Quiet s s' := by
  rcases ends_bind_of h confirmPassword_ends with
    ⟨account, t, ht, ⟨haccount, hpassword⟩, h1⟩ | ⟨hfail, ht⟩
  rotate_left
  · exact .inr ⟨hfail, ht.toQuiet⟩
  rcases ends_bind_of h1 Database.record_ends with ⟨shown, u, hu, rfl, h2⟩ | ⟨hfail, hu⟩
  rotate_left
  · exact .inr ⟨hfail, ht.toQuiet.trans hu⟩
  rw [ht.shown] at h2
  exact .inl ⟨account, u, ht.toQuiet.trans hu, haccount, hpassword, h2⟩

/-- Two others go on to ask for the copies of an active record. -/
theorem confirmed_copies {owner : Uuid} {password : String} {α : Type}
    {f : Account → Copies → Op α} {r : Except Failure α}
    (h : (do
      let account ← confirmPassword o owner password
      let copies ← activeCopies owner
      f account copies).Ends s r s') :
    (∃ account copies t, Quiet s t ∧ s.ledger.accounts.get? owner = some account ∧
      o.deployment.primitives.verifyWord account.passwordHash password = .ok true ∧
      (s.shown owner).bind FactorRecord.active? = some copies ∧
      (f account copies).Ends t r s') ∨ (∃ failure, r = .error failure) ∧ Quiet s s' := by
  rcases ends_bind_of h confirmPassword_ends with
    ⟨account, t, ht, ⟨haccount, hpassword⟩, h1⟩ | ⟨hfail, ht⟩
  rotate_left
  · exact .inr ⟨hfail, ht.toQuiet⟩
  rcases ends_bind_of h1 activeCopies_ends with ⟨copies, u, hu, hactive, h2⟩ | ⟨hfail, hu⟩
  rotate_left
  · exact .inr ⟨hfail, ht.toQuiet.trans hu⟩
  rw [ht.shown] at hactive
  exact .inl ⟨account, copies, u, ht.toQuiet.trans hu, haccount, hpassword, hactive, h2⟩

/-- **A deletion** removes the rows of the account, its pending secret and its tokens. Where the
rows are gone already, it does the rest and is answered in the same way. -/
theorem deleteAccount_outcome {password : String} {r : Except Failure Unit}
    (h : (deleteAccount o session password).Ends s r s') :
    Outcome.DeleteAccount o session password s r s' := by
  rcases confirmed_record h with ⟨account, t, ht, haccount, hpassword, h1⟩ | ⟨⟨failure, rfl⟩, ht⟩
  rotate_left
  · exact .refused ht
  rcases ends_bind_of h1 ends_ensure with ⟨_, _, rfl, hclaim, h2⟩ | ⟨⟨failure, rfl⟩, rfl⟩
  rotate_left
  · exact .refused ht
  -- The guard that was passed, without the case of no record.
  have hclaim : ((s.shown session.owner).bind FactorRecord.active?).isSome →
      session.claim = .verified := by
    intro hactive
    cases hshown : s.shown session.owner with
    | none => simp [hshown] at hactive
    | some row => simpa [hshown, show row.active?.isSome from by simpa [hshown] using hactive]
        using hclaim
  rcases ends_bind.1 h2 with ⟨_, u, hdelete, h3⟩ | ⟨failure, hdelete, rfl⟩
  rotate_left
  · rcases Database.deleteAccount_ends hdelete with ⟨failure', -, hu⟩ | ⟨hok, -⟩
    · exact .refused (ht.trans hu.toQuiet)
    · cases hok
  rcases ends_bind.1 h3 with ⟨_, v, hdiscard, h4⟩ | ⟨failure, hdiscard, -⟩
  rotate_left
  · cases (ends_changeStaging.1 hdiscard).1
  obtain ⟨-, rfl⟩ := ends_changeStaging.1 hdiscard
  obtain ⟨rfl, rfl⟩ := ends_changeSessions.1 h4
  rcases Database.deleteAccount_ends hdelete with ⟨failure, hfail, -⟩ | ⟨-, hu | hu⟩
  · cases hfail
  · -- A deletion that was refused still ends the sessions.
    have hq := ht.trans hu.toQuiet
    exact .done haccount hpassword hclaim (.inl hq.ledger)
      ⟨rfl, fun hp => congrArg (·.discard session.owner) (hq.staging hp),
        congrArg (Session.revokeOwner session.owner) hq.sessions⟩
  · have hw := hu.after ht
    refine .done haccount hpassword hclaim (.inr ?_)
      ⟨rfl, fun hp => congrArg (·.discard session.owner) (hw.staging hp),
        congrArg (Session.revokeOwner session.owner) hw.sessions⟩
    rw [← ht.ledger]
    exact hw.ledger

/-! ## Passwords -/

/-- What follows the change of a ledger in an operation that ends all sessions of an account: its
pending secret goes, and new tokens are handed out. -/
theorem discard_and_replace {owner : Uuid} {claim : Claim} {l : Ledger} {t : State}
    {r : Except Failure Session.Tokens} (hw : Writes s l t)
    (h : (do
      discardPending owner
      replaceAll o owner claim).Ends t r s') :
    r = (issued o owner claim (Session.revokeOwner owner s.sessions)).1 ∧
      Becomes s l (·.discard owner) (fun reg =>
        (issued o owner claim (Session.revokeOwner owner reg)).2) s' := by
  rcases ends_bind.1 h with ⟨_, u, hdiscard, h1⟩ | ⟨failure, hdiscard, -⟩
  · obtain ⟨-, rfl⟩ := ends_changeStaging.1 hdiscard
    obtain ⟨hr, rfl⟩ := ends_onSessions.1 h1
    refine ⟨?_, hw.then (·.discard owner) _⟩
    rw [hr, ← hw.sessions]
    rfl
  · cases (ends_changeStaging.1 hdiscard).1

/-- Sealing again opens the copy with the old password, and writes nothing itself. The new copy is
kept until the ledger is changed. -/
theorem resealMain_ends {copies : Copies} {current new : String}
    {r : Except Failure (Bytes × Bytes)} (h : (resealMain o copies current new).Ends s r s') :
    s = s' ∧ ∀ main, r = .ok main → ∃ secret, openCopy o copies.main current = .ok secret ∧
      main = (copies.main, secret.wrap o.deployment.primitives
        (o.deployment.kdf.derive o.deployment.primitives new) o.draws.mainNonce) := by
  rcases ends_bind_of h openMain_ends with ⟨secret, _, rfl, hopen, h1⟩ | ⟨⟨failure, rfl⟩, rfl⟩
  · obtain ⟨rfl, rfl⟩ := ends_pure.1 h1
    exact ⟨rfl, fun main hok => by cases hok; exact ⟨secret, hopen, rfl⟩⟩
  · exact ⟨rfl, nofun⟩

/-- The main copy of an active record is sealed again; there is none to seal for another. -/
theorem resealed_then {α : Type} {shown : Option FactorRecord} {current new : String}
    {f : Option (Bytes × Bytes) → Op α} {r : Except Failure α}
    (h : (match shown.bind FactorRecord.active? with
      | some copies => some <$> resealMain o copies current new >>= f
      | none => pure none >>= f : Op α).Ends s r s') :
    (∃ main, Outcome.Resealed o shown current new main ∧ (f main).Ends s r s') ∨
      (∃ failure, r = .error failure) ∧ s = s' := by
  unfold Outcome.Resealed
  -- Which of the two it is depends on the record that was shown.
  cases hactive : shown.bind FactorRecord.active? with
  | none =>
    rw [hactive] at h
    exact .inl ⟨none, rfl, h⟩
  | some copies =>
    rw [hactive] at h
    rcases ends_bind.1 h with ⟨main, t, hmap, h1⟩ | ⟨failure, hmap, rfl⟩
    · obtain ⟨q, hreseal, hq⟩ := ends_map.1 hmap
      obtain ⟨rfl, hmain⟩ := resealMain_ends hreseal
      cases q with
      | error failure => cases hq
      | ok pair =>
        cases hq
        obtain ⟨secret, hopen, rfl⟩ := hmain pair rfl
        exact .inl ⟨_, ⟨secret, hopen, rfl⟩, h1⟩
    · obtain ⟨q, hreseal, -⟩ := ends_map.1 hmap
      exact .inr ⟨⟨failure, rfl⟩, (resealMain_ends hreseal).1⟩

/-- **A change of the password** is guarded by the main copy if there is one to reseal, and not
otherwise. Behind it all sessions but a new one end. -/
theorem changePassword_outcome {current new : String} {r : Except Failure Session.Tokens}
    (h : (changePassword o session current new).Ends s r s') :
    Outcome.ChangePassword o session current new s r s' := by
  rcases confirmed_record h with ⟨account, t, ht, haccount, hpassword, h1⟩ | ⟨⟨failure, rfl⟩, ht⟩
  rotate_left
  · exact .refused ht
  rcases ends_bind_of h1 ends_ensure with ⟨_, _, rfl, hclaim, h2⟩ | ⟨⟨failure, rfl⟩, rfl⟩
  rotate_left
  · exact .refused ht
  rcases resealed_then h2 with ⟨main, hmain, h3⟩ | ⟨⟨failure, rfl⟩, rfl⟩
  rotate_left
  · exact .refused ht
  have hclaim : ((s.shown session.owner).bind FactorRecord.active?).isSome →
      session.claim = .verified := by
    intro hactive
    cases hshown : (s.shown session.owner).bind FactorRecord.active? with
    | none => simp [hshown] at hactive
    | some copies => simpa [hshown] using hclaim
  rcases ends_bind.1 h3 with ⟨changed, u, hchange, h4⟩ | ⟨failure, hchange, rfl⟩
  rotate_left
  · cases Database.changePassword_ends hchange with
    | failed hu => exact .refused (ht.trans hu.toQuiet)
  cases Database.changePassword_ends hchange with
  | refused hu =>
    -- The main copy is no longer the one that was sealed again.
    rcases ends_bind_of h4 ends_ensure with ⟨_, _, -, hchanged, -⟩ | ⟨⟨failure, rfl⟩, rfl⟩
    · cases hchanged
    · exact .refused (ht.trans hu.toQuiet)
  | made hl hu =>
    rw [ht.ledger] at hl
    rcases ends_bind.1 h4 with ⟨_, _, hensure, h5⟩ | ⟨failure, hensure, -⟩
    rotate_left
    · cases (ends_pure.1 hensure).1
    obtain ⟨-, rfl⟩ := ends_pure.1 hensure
    obtain ⟨rfl, hs'⟩ := discard_and_replace (hu.after ht) h5
    exact .done haccount hpassword hclaim hmain hl hs'

/-- A recovery opens the backup copy with the key, and only after the key has been found to be the
right one. -/
theorem recoverSecret_ends {copies : Copies} {recoveryKey : String}
    {r : Except Failure Otp.Secret} (h : (recoverSecret o copies recoveryKey).Ends s r s') :
    s = s' ∧ ∀ secret, r = .ok secret → Outcome.Recovered o copies recoveryKey secret := by
  rcases ends_bind.1 h with ⟨verdict, _, hverdict, h1⟩ | ⟨failure, hverdict, rfl⟩
  rotate_left
  · exact ⟨(ends_ofResult.1 hverdict).2.symm, nofun⟩
  obtain ⟨hverified, rfl⟩ := ends_ofResult.1 hverdict
  rcases ends_bind_of h1 ends_ensure with ⟨_, _, rfl, rfl, h2⟩ | ⟨⟨failure, rfl⟩, rfl⟩
  rotate_left
  · exact ⟨rfl, nofun⟩
  -- A copy that does not open is refused in the same way as a wrong key.
  cases hopen : openCopy o copies.backup recoveryKey with
  | error failure =>
    rw [hopen] at h2
    obtain ⟨rfl, rfl⟩ := ends_refuse.1 h2
    exact ⟨rfl, nofun⟩
  | ok held =>
    rw [hopen] at h2
    rcases ends_bind_of h2 ends_require with ⟨now, _, rfl, hnow, h3⟩ | ⟨⟨failure, rfl⟩, rfl⟩
    · obtain ⟨rfl, rfl⟩ := ends_ofResult.1 h3
      exact ⟨rfl, fun secret hok => ⟨hverified.symm, held, now, hopen, hnow, hok⟩⟩
    · exact ⟨rfl, nofun⟩

/-- **A recovery** replaces password, copies and fingerprint in one change of the ledger, and ends
all sessions. -/
theorem recoverPassword_outcome {email recoveryKey new : String} {r : Except Failure String}
    (h : (recoverPassword o email recoveryKey new).Ends s r s') :
    Outcome.RecoverPassword o email recoveryKey new s r s' := by
  rcases ends_bind_of h ends_demand with ⟨normal, _, rfl, hnormal, h1⟩ | ⟨⟨failure, rfl⟩, rfl⟩
  rotate_left
  · exact .refused (.refl s)
  rcases ends_bind_of h1 Database.accountByEmail_ends with
    ⟨found, t, ht, rfl, h2⟩ | ⟨⟨failure, rfl⟩, ht⟩
  rotate_left
  · exact .refused ht.toQuiet
  rcases ends_bind_of h2 ends_require with
    ⟨⟨owner, account⟩, _, rfl, hfound, h3⟩ | ⟨⟨failure, rfl⟩, rfl⟩
  rotate_left
  · exact .refused ht.toQuiet
  rcases ends_bind_of h3 Database.record_ends with ⟨shown, u, hu, rfl, h4⟩ | ⟨⟨failure, rfl⟩, hu⟩
  rotate_left
  · exact .refused (ht.toQuiet.trans hu)
  have hq := ht.toQuiet.trans hu
  rcases ends_bind_of h4 ends_require with ⟨copies, _, rfl, hactive, h5⟩ | ⟨⟨failure, rfl⟩, rfl⟩
  rotate_left
  · exact .refused hq
  rw [ht.shown] at hactive
  rcases ends_bind_of h5 recoverSecret_ends with
    ⟨secret, _, rfl, hsecret, h6⟩ | ⟨⟨failure, rfl⟩, rfl⟩
  rotate_left
  · exact .refused hq
  rcases ends_bind.1 h6 with ⟨changed, v, hrecover, h7⟩ | ⟨failure, hrecover, rfl⟩
  rotate_left
  · cases Database.recoverPassword_ends hrecover with
    | failed hv => exact .refused (hq.trans hv.toQuiet)
  cases Database.recoverPassword_ends hrecover with
  | refused hv =>
    -- The fingerprint is no longer the one that the key was compared with.
    rcases ends_bind_of h7 ends_ensure with ⟨_, _, -, hchanged, -⟩ | ⟨⟨failure, rfl⟩, rfl⟩
    · cases hchanged
    · exact .refused (hq.trans hv.toQuiet)
  | made hl hv =>
    rw [hq.ledger] at hl
    have hw := hv.after hq
    rcases ends_bind.1 h7 with ⟨_, _, hensure, h8⟩ | ⟨failure, hensure, -⟩
    rotate_left
    · cases (ends_pure.1 hensure).1
    obtain ⟨-, rfl⟩ := ends_pure.1 hensure
    rcases ends_bind.1 h8 with ⟨_, _, hdiscard, h9⟩ | ⟨failure, hdiscard, -⟩
    rotate_left
    · cases (ends_changeStaging.1 hdiscard).1
    obtain ⟨-, rfl⟩ := ends_changeStaging.1 hdiscard
    rcases ends_bind.1 h9 with ⟨_, _, hrevoke, h10⟩ | ⟨failure, hrevoke, -⟩
    rotate_left
    · cases (ends_changeSessions.1 hrevoke).1
    obtain ⟨-, rfl⟩ := ends_changeSessions.1 hrevoke
    obtain ⟨rfl, rfl⟩ := ends_pure.1 h10
    exact .done hnormal hfound hactive hsecret hl (hw.then (·.discard owner) _)

end Service

end SecondFactor
