import SecondFactor.Proofs.Purging
import SecondFactor.Proofs.Refusals

/-!
# What a call does to the pending secrets

Pending secrets are changed in few ways: one is entered, discarded, put back after a check, or found
expired by a look. A call makes at most a few of these moves, one after the other, and nothing else.
So what every move keeps, every call keeps, and neither calls nor the queries in between have to be
looked at again.

## The architecture

* **`Service.Moves`** — the moves that a call can make.
* **`setup_moves`**, **`activate_moves`** and so on — the moves of each operation;
  **`perform_moves`** — nothing else.
-/

namespace SecondFactor

open Service (Call Reply)

/-! ## §1 — what a call does to the pending secrets -/

theorem Otp.Secret.image_eq_of_core {s t : Otp.Secret} (h : s.core = t.core) :
    s.image = t.image := by
  have husable : ∀ secret : Otp.Secret, secret.core.usableKey = secret.usableKey := fun _ => rfl
  have huri : ∀ secret : Otp.Secret, secret.core.uri = secret.uri := fun _ => rfl
  unfold image symbol
  rw [← husable s, h, husable t, ← huri s, h, huri t]

namespace Service

open Op

/-- What a call does to the pending secrets, if no other set-up comes in between. -/
inductive Moves (o : Occasion) (s : Staging) : Staging → Prop where
  | stays : Moves o s s
  /-- The directory of the images is made. -/
  | prepares : Moves o s { s with gallery := s.gallery.ready.2 }
  | discards (owner : Uuid) : Moves o s (s.discard owner)
  /-- A secret is written back with its bookkeeping. -/
  | rewrites {owner : Uuid} {entry : Pending} {secret : Otp.Secret}
      (hentry : s.entries.get? owner = some entry) (hcore : secret.core = entry.secret.core) :
      Moves o s { s with entries := s.entries.put owner { entry with secret } }
  /-- A new secret is put, with the image that shows it. -/
  | enters {owner : Uuid} {entry : Pending} {content : Bytes} {s' : Staging}
      (himage : entry.image = o.draws.image) (hcontent : entry.secret.image = .ok content)
      (h : s.enter owner entry content = .ok s') : Moves o s s'
  | purges : Moves o s (s.purge o.deployment.pendingLifetime o.now).2

variable {o : Occasion} {s s' t : State} {session : Session}

/-- A look stays, or discards an entry that has expired. -/
theorem Moves.look (s : Staging) (owner : Uuid) :
    Moves o s (s.look o.deployment.pendingLifetime o.now owner).2 := by
  unfold Staging.look
  split
  · exact .stays
  · split
    · exact .stays
    · exact .discards owner
    · exact .stays

theorem Moves.discardIf (s : Staging) (owner id : Uuid) : Moves o s (s.discardIf owner id) := by
  unfold Staging.discardIf
  split
  · exact .discards owner
  · exact .stays

theorem Moves.of_eq {s s' : Staging} (h : s' = s) : Moves o s s' := by
  rw [h]
  exact .stays

theorem Moves.of_quiet (h : Quiet s s') (hp : s.mishaps.Plain) :
    Moves o s.staging s'.staging := .of_eq (h.staging hp)

theorem Moves.after (h : Moves o t.staging s'.staging) (hq : Quiet s t) (hp : s.mishaps.Plain) :
    Moves o s.staging s'.staging := by
  rw [← hq.staging hp]
  exact h

/-! The looks at a pending secret are walked through for what they leave of the images. -/

/-- All looks at a pending secret are this one. -/
theorem lookAtPending_moves {owner : Uuid} {r : Except Failure (Option Pending)}
    (h : (lookAtPending o owner).Ends s r s') : Moves o s.staging s'.staging := by
  obtain ⟨-, rfl⟩ := ends_onStaging.1 h
  exact .look s.staging owner

theorem overview_moves (hp : s.mishaps.Plain) {r : Except Failure Overview}
    (h : (overview o session).Ends s r s') : Moves o s.staging s'.staging := by
  rcases ends_bind_of h Database.record_ends with ⟨shown, t, ht, -, h1⟩ | ⟨-, ht⟩
  rotate_left
  · exact .of_quiet ht hp
  split at h1
  · rcases ends_bind_of h1 Database.countCodes_ends with ⟨n, u, hu, -, h2⟩ | ⟨-, hu⟩
    · obtain ⟨-, rfl⟩ := ends_pure.1 h2
      exact .of_quiet (ht.trans hu.toQuiet) hp
    · exact .of_quiet (ht.trans hu.toQuiet) hp
  · rcases ends_bind.1 h1 with ⟨found, u, hlook, h2⟩ | ⟨failure, hlook, -⟩
    · have hu := (lookAtPending_moves hlook).after ht hp
      split at h2
      · obtain ⟨-, rfl⟩ := ends_pure.1 h2
        exact hu
      · obtain ⟨-, rfl⟩ := ends_pure.1 h2
        exact hu
    · exact (lookAtPending_moves hlook).after ht hp

theorem pendingImage_moves {name : String} {r : Except Failure Bytes}
    (h : (pendingImage o session name).Ends s r s') : Moves o s.staging s'.staging := by
  rcases ends_bind_of h ends_require with ⟨image, _, rfl, -, h1⟩ | ⟨-, rfl⟩
  rotate_left
  · exact .stays
  rcases ends_bind.1 h1 with ⟨entry, t, hlook, h2⟩ | ⟨failure, hlook, -⟩
  rotate_left
  · exact lookAtPending_moves hlook
  have ht := lookAtPending_moves hlook
  -- What is left to do only reads.
  rcases ends_bind_of h2 ends_ensure with ⟨_, _, rfl, -, h3⟩ | ⟨-, rfl⟩
  rotate_left
  · exact ht
  have h4 := (ends_bind_through (ends_get.2 ⟨rfl, rfl⟩)).1 h3
  rcases ends_bind_of h4 ends_demand with ⟨content, _, rfl, -, h5⟩ | ⟨-, rfl⟩
  · rw [← (ends_require h5).1]
    exact ht
  · exact ht

/-- A check looks at the entry, and leaves the writing back to others. -/
theorem checkPending_moves (hp : s.mishaps.Plain) {code : String}
    {r : Except Failure (Pending × Otp.Check)} (h : (checkPending o session code).Ends s r s') :
    Moves o s.staging s'.staging := by
  rcases ends_bind_of h ends_ensure with ⟨_, _, rfl, -, h1⟩ | ⟨-, rfl⟩
  rotate_left
  · exact .stays
  rcases ends_bind_of h1 currentAccount_ends with ⟨account, t, ht, -, h2⟩ | ⟨-, ht⟩
  rotate_left
  · exact .of_quiet ht.toQuiet hp
  rcases ends_bind.1 h2 with ⟨found, u, hlook, h3⟩ | ⟨failure, hlook, -⟩
  rotate_left
  · exact (lookAtPending_moves hlook).after ht.toQuiet hp
  have hu := (lookAtPending_moves hlook).after ht.toQuiet hp
  rcases ends_bind_of h3 ends_require with ⟨entry, _, rfl, -, h4⟩ | ⟨-, rfl⟩
  rotate_left
  · exact hu
  rcases ends_bind_of h4 checkCode_ends with ⟨check, _, rfl, -, h5⟩ | ⟨-, rfl⟩
  · obtain ⟨-, rfl⟩ := ends_pure.1 h5
    exact hu
  · exact hu

/-- A check that is written back to the entry that it was made with. -/
theorem restaged_moves (hp : s.mishaps.Plain) {code : String} {entry : Pending} {check : Otp.Check}
    (hchecked : PendingChecked o session code s entry check) :
    Moves o s.staging (restaged o session.owner entry.id check.secret s.staging) := by
  obtain ⟨now, -, hcheck⟩ := hchecked.checked
  have hthere := hchecked.there hp
  have hrestaged : restaged o session.owner entry.id check.secret s.staging =
      { s.staging with
        entries := s.staging.entries.put session.owner { entry with secret := check.secret } } := by
    rw [restaged, Staging.amend_of_lasting hthere hchecked.lasting, if_pos rfl]
  rw [hrestaged]
  exact .rewrites hthere (Otp.Secret.core_check hcheck)

/-- **An activation** writes the checked secret back to its entry, or discards the entry with its
image when the record is on. -/
theorem activate_moves (hp : s.mishaps.Plain) {code : String} {r : Except Failure Activation}
    (h : (activate o session code).Ends s r s') : Moves o s.staging s'.staging := by
  cases activate_outcome h with
  | refused hcheck _ => exact checkPending_moves hp hcheck
  | mistaken hcheck _ hb | unwritten hcheck _ hb =>
    rw [hb.staging_eq hp]
    exact restaged_moves hp ((checkPending_ends hcheck).2 _ rfl).2
  | late _ _ hquiet => exact .of_quiet hquiet hp
  | done _ _ _ hb =>
    rw [hb.staging_eq hp]
    exact .discardIf _ _ _

/-- A set-up shows the secret that it puts. The image is rendered from the secret in the entry, so
the two go together from the beginning. -/
theorem setup_moves (hp : s.mishaps.Plain) {password : String} {r : Except Failure ImageRef}
    (h : (setup o session password).Ends s r s') : Moves o s.staging s'.staging := by
  rcases ends_bind_of h ends_ensure with ⟨_, _, rfl, -, h1⟩ | ⟨-, rfl⟩
  rotate_left
  · exact .stays
  rcases confirmed_record h1 with ⟨account, t, ht, -, -, h2⟩ | ⟨-, ht⟩
  rotate_left
  · exact .of_quiet ht hp
  rcases ends_bind_of h2 ends_ensure with ⟨_, _, rfl, -, h3⟩ | ⟨-, rfl⟩
  rotate_left
  · exact .of_quiet ht hp
  -- The image is made before anything is looked up in the store.
  rcases ends_bind_of h3 ends_demand with ⟨content, _, rfl, hcontent, h4⟩ | ⟨-, rfl⟩
  rotate_left
  · exact .of_quiet ht hp
  rcases ends_bind.1 h4 with ⟨before, _, hget, h5⟩ | ⟨failure, hget, -⟩
  rotate_left
  · cases (ends_get.1 hget).1
  obtain ⟨hbefore, rfl⟩ := ends_get.1 hget
  cases hbefore
  -- Reading the pending secrets and writing them back are one step to everybody else.
  rcases ends_bind_of h5 ends_demand with ⟨after, _, rfl, hafter, h6⟩ | ⟨-, rfl⟩
  rotate_left
  · exact .of_quiet ht hp
  rcases ends_bind.1 h6 with ⟨_, _, hset, h7⟩ | ⟨failure, hset, -⟩
  rotate_left
  · cases (ends_set.1 hset).1
  obtain ⟨-, rfl⟩ := ends_set.1 hset
  obtain ⟨-, rfl⟩ := ends_pure.1 h7
  refine Moves.after (.enters ?_ ?_ hafter) ht hp
  · rfl
  · exact hcontent

/-- A purge is one move, however many entries it discards. -/
theorem purge_moves {r : Except Failure Unit} (h : (purge o).Ends s r s') :
    Moves o s.staging s'.staging := by
  rcases ends_bind.1 h with ⟨n, t, hpurge, h1⟩ | ⟨failure, hpurge, -⟩
  · obtain ⟨-, rfl⟩ := ends_onStaging.1 hpurge
    obtain ⟨-, rfl⟩ := ends_changeSessions.1 h1
    exact .purges
  · obtain ⟨-, rfl⟩ := ends_onStaging.1 hpurge
    exact .purges

/-- **A call makes one move.** It leaves the pending secrets, or puts one, writes one back, discards
one, or drops what has expired. Statements about images go by these moves. -/
theorem perform_moves (hp : s.mishaps.Plain) {c : Call} {r : Except Failure Reply}
    (h : (perform o c).Ends s r s') : Moves o s.staging s'.staging := by
  -- The calls that look at a pending secret were walked through above. Those that are left change
  -- it at their end or not at all, which is part of their outcome.
  cases c with
  | health =>
    obtain ⟨q, hq, -⟩ := ends_map.1 h
    obtain ⟨-, rfl⟩ := ends_onStaging.1 hq
    exact .prepares
  | register email password =>
    obtain ⟨q, hq, -⟩ := ends_map.1 h
    cases register_outcome hq with
    | refused hquiet => exact .of_quiet hquiet hp
    | done _ _ _ hb => exact .of_eq (hb.staging_eq hp)
  | login email password =>
    obtain ⟨q, hq, -⟩ := ends_map.1 h
    cases login_outcome hq with
    | refused hquiet => exact .of_quiet hquiet hp
    | done _ _ _ hb => exact .of_eq (hb.staging_eq hp)
  | refresh token =>
    obtain ⟨q, hq, -⟩ := ends_map.1 h
    obtain ⟨-, rfl⟩ := ends_onSessions.1 hq
    exact .stays
  | logout session =>
    obtain ⟨q, hq, -⟩ := ends_map.1 h
    obtain ⟨-, rfl⟩ := ends_changeSessions.1 hq
    exact .stays
  | deleteAccount session password =>
    obtain ⟨q, hq, -⟩ := ends_map.1 h
    cases deleteAccount_outcome hq with
    | refused hquiet => exact .of_quiet hquiet hp
    | done _ _ _ _ hb =>
      rw [hb.staging_eq hp]
      exact .discards _
  | overview session =>
    obtain ⟨q, hq, -⟩ := ends_map.1 h
    exact overview_moves hp hq
  | setup session password =>
    obtain ⟨q, hq, -⟩ := ends_map.1 h
    exact setup_moves hp hq
  | image session name =>
    obtain ⟨q, hq, -⟩ := ends_map.1 h
    exact pendingImage_moves hq
  | activate session code =>
    obtain ⟨q, hq, -⟩ := ends_map.1 h
    exact activate_moves hp hq
  | validate session password code =>
    obtain ⟨q, hq, -⟩ := ends_map.1 h
    cases validate_outcome hq with
    | refused _ hquiet | lost _ hquiet => exact .of_quiet hquiet hp
    | mistaken _ _ _ hb | done _ _ _ hb => exact .of_eq (hb.staging_eq hp)
  | validateBackupCode session code =>
    obtain ⟨q, hq, -⟩ := ends_map.1 h
    cases validateBackupCode_outcome hq with
    | refused hquiet => exact .of_quiet hquiet hp
    | done _ _ _ _ hb => exact .of_eq (hb.staging_eq hp)
  | generateBackupCodes session password =>
    obtain ⟨q, hq, -⟩ := ends_map.1 h
    cases generateBackupCodes_outcome hq with
    | refused hquiet => exact .of_quiet hquiet hp
    | done _ _ _ _ hb => exact .of_eq (hb.staging_eq hp)
  | deactivate session password =>
    obtain ⟨q, hq, -⟩ := ends_map.1 h
    cases deactivate_outcome hq with
    | refused hquiet => exact .of_quiet hquiet hp
    | done _ _ _ _ hb =>
      rw [hb.staging_eq hp]
      exact .discards _
  | changePassword session current new =>
    obtain ⟨q, hq, -⟩ := ends_map.1 h
    cases changePassword_outcome hq with
    | refused hquiet => exact .of_quiet hquiet hp
    | done _ _ _ _ _ hb =>
      rw [hb.staging_eq hp]
      exact .discards _
  | recoverPassword email recoveryKey new =>
    obtain ⟨q, hq, -⟩ := ends_map.1 h
    cases recoverPassword_outcome hq with
    | refused hquiet => exact .of_quiet hquiet hp
    | done _ _ _ _ _ hb =>
      rw [hb.staging_eq hp]
      exact .discards _
  | purge =>
    obtain ⟨q, hq, -⟩ := ends_map.1 h
    exact purge_moves hq

end Service

end SecondFactor
