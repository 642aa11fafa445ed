import SecondFactor.Proofs.Service.Queries
import SecondFactor.Service.Passwords

/-!
# What the parts of operations do

Most of an operation looks at things and tests them, and the operation is refused where a test
fails. A part that only looks leaves everything as it was, whether it goes through or not; what is
learnt from it when it does is said here once for each part.

## The architecture

* **Tests** — `confirmPassword_ends`, `activeCopies_ends`: what a part that looks at the ledger
  found.
* **`Faded`** — nothing was done, except that entries found expired may be gone;
  `lookAtPending_ends` finds an entry and then leaves everything as it was.
* **`checkPending_ends`**, **`checkMain_ends`** — the part of an operation that ends with a code
  checked against a secret.
-/

namespace SecondFactor

/-! ## Entries that are looked at -/

/-- Nothing was done, except that entries found expired may be gone. -/
structure Faded (s s' : State) : Prop where
  ledger : s'.ledger = s.ledger
  sessions : s'.sessions = s.sessions
  entries : s.mishaps.Plain → ∀ owner entry, s'.staging.entries.get? owner = some entry →
    s.staging.entries.get? owner = some entry

theorem Quiet.faded {s s' : State} (h : Quiet s s') : Faded s s' :=
  ⟨h.ledger, h.sessions, fun hp owner entry he => by rwa [h.staging hp] at he⟩

/-- Looks before it do not matter. -/
theorem Faded.after {s t u : State} (h' : Faded t u) (h : Quiet s t) : Faded s u where
  ledger := h'.ledger.trans h.ledger
  sessions := h'.sessions.trans h.sessions
  entries hp owner entry he := by
    rw [← h.staging hp]
    exact h'.entries (h.plain hp) owner entry he

namespace Staging

/-- To discard the entry of one account is to leave the others theirs. -/
theorem get?_discard (s : Staging) (owner other : Uuid) :
    (s.discard owner).entries.get? other =
      if other = owner then none else s.entries.get? other := by
  unfold discard
  split
  · rename_i hnone
    split
    · rename_i h
      rw [h, hnone]
    · rfl
  · split
    · rename_i h
      rw [h, Table.get?_erase_self]
    · rename_i h
      rw [Table.get?_erase_of_ne _ h]

/-- A look never brings an entry in. -/
theorem get?_of_look {lifetime : Int} {now : Instant} {owner other : Uuid} {s : Staging}
    {entry : Pending} (h : (s.look lifetime now owner).2.entries.get? other = some entry) :
    s.entries.get? other = some entry := by
  unfold look at h
  split at h
  · exact h
  · split at h
    · exact h
    · rw [get?_discard] at h
      split at h
      · cases h
      · exact h
    · exact h

/-- What is kept whenever an entry is discarded, a purge keeps. -/
theorem purge_keeps {I : Staging → Prop} (hI : ∀ {s}, I s → ∀ owner, I (s.discard owner))
    {s : Staging} (h : I s) (lifetime : Int) (now : Instant) : I (s.purge lifetime now).2 := by
  have hfold : ∀ (owners : List Uuid) (t : Staging), I t → I (owners.foldl discard t) := by
    intro owners
    induction owners with
    | nil => exact fun _ => id
    | cons owner owners ih => exact fun t ht => ih _ (hI ht owner)
  unfold purge
  split
  · exact hfold _ _ h
  · exact h

theorem get?_of_purge {lifetime : Int} {now : Instant} {owner : Uuid} {s : Staging}
    {entry : Pending} (h : (s.purge lifetime now).2.entries.get? owner = some entry) :
    s.entries.get? owner = some entry := by
  refine purge_keeps (I := fun t => t.entries.get? owner = some entry →
    s.entries.get? owner = some entry) ?_ id lifetime now h
  intro t ht other hfound
  rw [get?_discard] at hfound
  split at hfound
  · cases hfound
  · exact ht hfound

/-- An entry that was found is there, has not expired, and stays. -/
theorem found_of_look {lifetime : Int} {now : Instant} {owner : Uuid} {s : Staging}
    {entry : Pending} (h : (s.look lifetime now owner).1 = .ok (some entry)) :
    s.entries.get? owner = some entry ∧ isExpired? lifetime now entry = some false ∧
      (s.look lifetime now owner).2 = s := by
  unfold look at h ⊢
  -- No entry, one whose age cannot be told, one that has expired: only the last case is left.
  cases hentry : s.entries.get? owner with
  | none =>
    rw [hentry] at h
    cases h
  | some e =>
    rw [hentry] at h
    dsimp only at h ⊢
    cases hexpired : isExpired? lifetime now e with
    | none =>
      rw [hexpired] at h
      cases h
    | some expired =>
      rw [hexpired] at h
      cases expired with
      | true => cases h
      | false =>
        cases h
        exact ⟨rfl, hexpired, rfl⟩

/-- The entry that is changed is there and lasts. -/
theorem amend_of_lasting {lifetime : Int} {now : Instant} {owner : Uuid} {f : Pending → Pending}
    {s : Staging} {entry : Pending} (hentry : s.entries.get? owner = some entry)
    (hlasting : isExpired? lifetime now entry = some false) :
    (s.amend lifetime now owner f).2 = { s with entries := s.entries.put owner (f entry) } := by
  have hlook : s.look lifetime now owner = (.ok (some entry), s) := by
    unfold look
    rw [hentry]
    dsimp only
    rw [hlasting]
  rw [amend, hlook]

/-- Nor does an amendment, for any account but its own. -/
theorem get?_of_amend_ne {lifetime : Int} {now : Instant} {owner other : Uuid}
    {f : Pending → Pending} {s : Staging} {entry : Pending} (hne : other ≠ owner)
    (h : (s.amend lifetime now owner f).2.entries.get? other = some entry) :
    s.entries.get? other = some entry := by
  refine @get?_of_look lifetime now owner other s entry ?_
  unfold amend at h
  split at h
  · rename_i hlook
    rwa [hlook]
  · rename_i hlook
    rwa [hlook]
  · rename_i hlook
    rw [hlook]
    rwa [Table.get?_put_of_ne _ _ hne] at h

/-- A set-up leaves one new entry, in the place of that of its account. -/
theorem get?_enter {owner other : Uuid} {entry : Pending} {content : Bytes} {s s' : Staging}
    (h : s.enter owner entry content = .ok s') :
    s'.entries.get? other = if other = owner then some entry else s.entries.get? other := by
  unfold enter at h
  cases hsave : s.gallery.save entry.image content with
  | error cause =>
    rw [hsave] at h
    cases h
  | ok gallery =>
    rw [hsave] at h
    cases h
    show Table.get? (Table.put (discard { s with gallery } owner).entries owner entry) other = _
    rw [Table.get?_put, get?_discard]
    split <;> rfl

/-- An entry is discarded on the condition that it is the one that was looked at. -/
theorem get?_discardIf (s : Staging) (owner other id : Uuid) :
    (s.discardIf owner id).entries.get? other =
      if other = owner ∧ (s.entries.get? owner).any (·.id == id) then none
      else s.entries.get? other := by
  unfold discardIf
  split
  · rename_i hid
    rw [get?_discard]
    by_cases howner : other = owner
    · rw [if_pos howner, if_pos ⟨howner, hid⟩]
    · rw [if_neg howner, if_neg fun h => howner h.1]
  · rename_i hid
    rw [if_neg fun h => hid h.2]

end Staging

namespace Service

open Op

variable {o : Occasion} {s s' : State} {session : Session}

/-! ## Tests -/

/-- A password that was checked is the right one, whatever the mismatch would have been called. -/
theorem checkPassword_ends {account : Account} {password : String} {mismatch : Mismatch}
    {r : Except Failure Unit} (h : (checkPassword o account password mismatch).Ends s r s') :
    s = s' ∧ ∀ u, r = .ok u →
      o.deployment.primitives.verifyWord account.passwordHash password = .ok true := by
  rcases ends_bind.1 h with ⟨verdict, t, hverdict, hrest⟩ | ⟨failure, hverdict, rfl⟩
  · obtain ⟨hr, rfl⟩ := ends_ofResult.1 hverdict
    obtain ⟨hs, htrue⟩ := ends_ensure hrest
    refine ⟨hs, fun u hok => ?_⟩
    obtain rfl := htrue u hok
    cases hv : o.deployment.primitives.verifyWord account.passwordHash password with
    | error fault =>
      rw [hv] at hr
      cases hr
    | ok v =>
      rw [hv] at hr
      cases hr
      rfl
  · exact ⟨(ends_ofResult.1 hverdict).2.symm, nofun⟩

theorem currentAccount_ends {owner : Uuid} {r : Except Failure Account}
    (h : (currentAccount owner).Ends s r s') :
    Unread s s' ∧ ∀ account, r = .ok account → s.ledger.accounts.get? owner = some account := by
  rcases ends_bind_of h Database.account_ends with ⟨found, t, ht, rfl, h⟩ | ⟨⟨failure, rfl⟩, hs⟩
  · obtain ⟨rfl, hfound⟩ := ends_require h
    exact ⟨ht, hfound⟩
  · exact ⟨hs, nofun⟩

/-- The two together: the account is there and the password is its own. -/
theorem confirmPassword_ends {owner : Uuid} {password : String} {r : Except Failure Account}
    (h : (confirmPassword o owner password).Ends s r s') :
    Unread s s' ∧ ∀ account, r = .ok account → s.ledger.accounts.get? owner = some account ∧
      o.deployment.primitives.verifyWord account.passwordHash password = .ok true := by
  rcases ends_bind_of h currentAccount_ends with
    ⟨account, t, ht, haccount, h⟩ | ⟨⟨failure, rfl⟩, hs⟩
  · rcases ends_bind_of h checkPassword_ends with ⟨_, _, rfl, hpassword, h⟩ | ⟨⟨failure, rfl⟩, rfl⟩
    · obtain ⟨rfl, rfl⟩ := ends_pure.1 h
      exact ⟨ht, fun a hok => by cases hok; exact ⟨haccount, hpassword⟩⟩
    · exact ⟨ht, nofun⟩
  · exact ⟨hs, nofun⟩

/-- The copies are those of the record that is shown. Note that this may be a stale one, so that
nothing is said of the record in the ledger. -/
theorem activeCopies_ends {owner : Uuid} {r : Except Failure Copies}
    (h : (activeCopies owner).Ends s r s') :
    Quiet s s' ∧ ∀ copies, r = .ok copies →
      (s.shown owner).bind FactorRecord.active? = some copies := by
  rcases ends_bind_of h Database.record_ends with ⟨shown, t, ht, rfl, h⟩ | ⟨⟨failure, rfl⟩, hs⟩
  · obtain ⟨rfl, hactive⟩ := ends_require h
    exact ⟨ht, hactive⟩
  · exact ⟨hs, nofun⟩

/-- A main copy that was opened opens under the key of the password. -/
theorem openMain_ends {copies : Copies} {password : String} {r : Except Failure Otp.Secret}
    (h : (openMain o copies password).Ends s r s') :
    s = s' ∧ ∀ secret, r = .ok secret → openCopy o copies.main password = .ok secret := by
  unfold openMain at h
  split at h
  · rename_i secret hopen
    obtain ⟨rfl, rfl⟩ := ends_pure.1 h
    exact ⟨rfl, fun t hok => by cases hok; exact hopen⟩
  · obtain ⟨rfl, rfl⟩ := ends_refuse.1 h
    exact ⟨rfl, nofun⟩

/-- A code is checked without the blanks around it, at the time of the clock. -/
theorem checkCode_ends {secret : Otp.Secret} {code : String} {r : Except Failure Otp.Check}
    (h : (checkCode o secret code).Ends s r s') :
    s = s' ∧ ∀ check, r = .ok check → ∃ now, o.now.sinceEpoch? = some now ∧
      secret.check o.deployment.primitives o.deployment.policy.maxAttempts (Text.trim code) now =
        .ok check := by
  rcases ends_bind_of h ends_require with ⟨now, t, rfl, hnow, h⟩ | ⟨⟨failure, rfl⟩, rfl⟩
  · obtain ⟨rfl, rfl⟩ := ends_ofResult.1 h
    exact ⟨rfl, fun check hok => ⟨now, hnow, hok⟩⟩
  · exact ⟨rfl, nofun⟩

/-- Only a session that has not been verified may be. -/
theorem ensureUnverified_ends {claim : Claim} {r : Except Failure Unit}
    (h : (ensureUnverified claim).Ends s r s') : s = s' ∧ ∀ u, r = .ok u → claim = .on := by
  cases claim with
  | on => exact ⟨(ends_pure.1 h).2.symm, fun _ _ => rfl⟩
  | verified | empty | off =>
    obtain ⟨rfl, rfl⟩ := ends_refuse.1 h
    exact ⟨rfl, nofun⟩

/-- A pending secret that was found is there, has not expired, and the look has done nothing. -/
theorem lookAtPending_ends {owner : Uuid} {r : Except Failure (Option Pending)}
    (h : (lookAtPending o owner).Ends s r s') :
    Faded s s' ∧ ∀ found, r = .ok found → ∀ entry, found = some entry → s' = s ∧
      s.staging.entries.get? owner = some entry ∧
      Staging.isExpired? o.deployment.pendingLifetime o.now entry = some false := by
  obtain ⟨rfl, rfl⟩ := ends_onStaging.1 h
  refine ⟨⟨rfl, rfl, fun _ _ _ he => Staging.get?_of_look he⟩, ?_⟩
  rintro found hfound entry rfl
  obtain ⟨hentry, hlasting, hstays⟩ := Staging.found_of_look hfound
  exact ⟨by rw [hstays], hentry, hlasting⟩

/-! ## Codes that are checked -/

/-- The code was checked against the entry, which is still there. -/
structure PendingChecked (o : Occasion) (session : Session) (code : String) (s : State)
    (entry : Pending) (check : Otp.Check) : Prop where
  unenrolled : session.claim.isUnenrolled = true
  account : ∃ account, s.ledger.accounts.get? session.owner = some account
  there : s.mishaps.Plain → s.staging.entries.get? session.owner = some entry
  lasting : Staging.isExpired? o.deployment.pendingLifetime o.now entry = some false
  checked : ∃ now, o.now.sinceEpoch? = some now ∧
    entry.secret.check o.deployment.primitives o.deployment.policy.maxAttempts (Text.trim code)
      now = .ok check

/-- **What an activation knows of the pending secret** when its code has been checked. A check that
goes through has done nothing yet. -/
theorem checkPending_ends {code : String} {r : Except Failure (Pending × Otp.Check)}
    (h : (checkPending o session code).Ends s r s') :
    Faded s s' ∧ ∀ p, r = .ok p →
      Unread s s' ∧ PendingChecked o session code s p.1 p.2 := by
  rcases ends_bind_of h ends_ensure with ⟨_, _, rfl, hclaim, h1⟩ | ⟨⟨failure, rfl⟩, rfl⟩
  rotate_left
  · exact ⟨(Quiet.refl s).faded, nofun⟩
  rcases ends_bind_of h1 currentAccount_ends with
    ⟨account, t, ht, haccount, h2⟩ | ⟨⟨failure, rfl⟩, hs⟩
  rotate_left
  · exact ⟨hs.faded, nofun⟩
  rcases ends_bind.1 h2 with ⟨found, u, hlook, h3⟩ | ⟨failure, hlook, rfl⟩
  rotate_left
  · exact ⟨(lookAtPending_ends hlook).1.after ht.toQuiet, nofun⟩
  -- The entry may be gone by now if it had expired, which is why a refusal is only said to let
  -- entries go.
  obtain ⟨hfaded, hthere⟩ := lookAtPending_ends hlook
  rcases ends_bind_of h3 ends_require with ⟨entry, _, rfl, hfound, h4⟩ | ⟨⟨failure, rfl⟩, rfl⟩
  rotate_left
  · exact ⟨hfaded.after ht.toQuiet, nofun⟩
  obtain ⟨rfl, hentry, hlasting⟩ := hthere found rfl entry hfound
  rcases ends_bind_of h4 checkCode_ends with ⟨check, _, rfl, hchecked, h5⟩ | ⟨⟨failure, rfl⟩, rfl⟩
  rotate_left
  · exact ⟨ht.faded, nofun⟩
  obtain ⟨rfl, rfl⟩ := ends_pure.1 h5
  refine ⟨ht.faded, fun p hok => ?_⟩
  cases hok
  exact ⟨ht, hclaim, ⟨account, haccount⟩, fun hp => by rw [← ht.staging hp, hentry], hlasting,
    hchecked⟩

/-- The code was checked against the secret in the main copy of the record that was shown. -/
structure MainChecked (o : Occasion) (session : Session) (password code : String) (s : State)
    (copies : Copies) (check : Otp.Check) : Prop where
  claim : session.claim = .on
  account : ∃ account, s.ledger.accounts.get? session.owner = some account ∧
    o.deployment.primitives.verifyWord account.passwordHash password = .ok true
  shown : (s.shown session.owner).bind FactorRecord.active? = some copies
  checked : ∃ secret now, openCopy o copies.main password = .ok secret ∧
    o.now.sinceEpoch? = some now ∧
    secret.check o.deployment.primitives o.deployment.policy.maxAttempts (Text.trim code) now =
      .ok check

/-- **What a verification knows of the record** when its code has been checked. Nothing has been
done by then, and everything is read off the record that was shown. -/
theorem checkMain_ends {password code : String} {r : Except Failure (Copies × Otp.Check)}
    (h : (checkMain o session password code).Ends s r s') :
    Quiet s s' ∧ ∀ p, r = .ok p → MainChecked o session password code s p.1 p.2 := by
  -- Five tests in a row, each of which leaves the state. What each of them finds is collected at
  -- the end.
  rcases ends_bind_of h ensureUnverified_ends with ⟨_, _, rfl, hclaim, h⟩ | ⟨⟨failure, rfl⟩, rfl⟩
  rotate_left
  · exact ⟨.refl s, nofun⟩
  rcases ends_bind_of h confirmPassword_ends with
    ⟨account, t, ht, hconfirm, h⟩ | ⟨⟨failure, rfl⟩, hs⟩
  rotate_left
  · exact ⟨hs.toQuiet, nofun⟩
  rcases ends_bind_of h activeCopies_ends with ⟨copies, u, hu, hactive, h⟩ | ⟨⟨failure, rfl⟩, hs⟩
  rotate_left
  · exact ⟨ht.toQuiet.trans hs, nofun⟩
  rcases ends_bind_of h openMain_ends with ⟨secret, _, rfl, hopen, h⟩ | ⟨⟨failure, rfl⟩, rfl⟩
  rotate_left
  · exact ⟨ht.toQuiet.trans hu, nofun⟩
  rcases ends_bind_of h checkCode_ends with ⟨check, _, rfl, ⟨now, hnow, hcode⟩, h⟩ |
    ⟨⟨failure, rfl⟩, rfl⟩
  rotate_left
  · exact ⟨ht.toQuiet.trans hu, nofun⟩
  obtain ⟨rfl, rfl⟩ := ends_pure.1 h
  refine ⟨ht.toQuiet.trans hu, fun p hok => ?_⟩
  cases hok
  rw [ht.shown] at hactive
  exact ⟨hclaim, ⟨account, hconfirm⟩, hactive, secret, now, hopen, hnow, hcode⟩

end Service

end SecondFactor
