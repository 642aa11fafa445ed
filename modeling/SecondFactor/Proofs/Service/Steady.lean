import SecondFactor.Proofs.Service.SteadyParts

/-!
# Operations in states that are alike

The walk through the operations, for any notion of likeness: each of them ends in the same way in
two states that are alike for its account, and leaves them alike. Two operations need a closer look.
A set-up counts as still to come until it is made, and an overview and a change of the password use
the claim of the session, which is brought to their end so that the rest can be shared.

## The architecture

* **`overview_eq`**, **`changePassword_eq`** — what a session claims is shown, or handed on, last.
* **`steady_deleteAccount`**, **`steady_validate`** and so on — the operations of a session.
* **`parallel_login`**, **`parallel_recoverPassword`** — those that find their account by its
  address.
* **`perform_steady`** — a call for a session that sets nothing up ends in the same way in both;
  **`perform_parallel`** — and so does any call that is made for a session.
-/

namespace SecondFactor

open Service (Call Reply)

namespace Service

open Op Likeness

variable {L : Likeness} {o : Occasion} {owner : Uuid} {ahead : List Arrival} {s t : State}
  {session : Session}

/-! ## §1 — what comes last

Where the claim of a session is shown or handed on, that comes last. -/

/-- What is told of the second factor of an account. -/
def survey (o : Occasion) (owner : Uuid) : Op (Enrollment × Nat) := do
  if (← Database.record owner).any (·.enabled) then
    return (.on, ← Database.countCodes owner)
  else if (← lookAtPending o owner).isSome then
    return (.pending, 0)
  else
    return (.off, 0)

/-- An overview is what is surveyed, with the claim of the session put in. In this form the survey
can be compared by itself. -/
theorem overview_eq (o : Occasion) (session : Session) : overview o session =
    (fun (enrollment, codesLeft) => ⟨enrollment, session.claim, codesLeft⟩) <$>
      survey o session.owner := by
  unfold overview survey
  rw [map_bind]
  congr 1
  funext row
  split
  · rw [map_bind]
    rfl
  · rw [map_bind]
    congr 1
    funext found
    split <;> rfl

/-- A change of the password, up to where the sessions make way for a new one. -/
def rekey (o : Occasion) (owner : Uuid) (verified : Bool) (current new : String) : Op Unit := do
  let _ ← confirmPassword o owner current
  let active := (← Database.record owner).bind FactorRecord.active?
  Op.ensure (.conflict .verificationNeeded) (active.isNone || verified)
  let hash := o.deployment.primitives.hashWord o.draws.passwordSalt new
  let main ← match active with
    | some copies => some <$> resealMain o copies current new
    | none => pure none
  let changed ← Database.changePassword owner hash main
  Op.ensure (.conflict .concurrentUpdate) changed
  discardPending owner

/-- A change of the password is put in the same form: what it does with the ledger depends only on
whether the session was verified. -/
theorem changePassword_eq (o : Occasion) (session : Session) (current new : String) :
    changePassword o session current new =
      rekey o session.owner (session.claim == .verified) current new >>= fun _ =>
        replaceAll o session.owner session.claim := by
  unfold changePassword rekey
  simp only [bind_assoc]
  congr 1
  funext account
  congr 1
  funext row
  congr 1
  funext u
  cases row.bind FactorRecord.active? with
  | none => simp only [bind_assoc]
  | some copies => simp only [bind_assoc]

/-- The last steps of a set-up. -/
theorem exec_enter {α : Type} (entry : Pending) (content : Bytes) (a : α) (u : State) : (do
      let s ← get
      let staging ← Op.demand (s.staging.enter owner entry content)
      set { s with staging }
      return a : Op α).exec u =
    match u.staging.enter owner entry content with
    | .error cause => (.error (.refused cause), u)
    | .ok staging => (.ok a, { u with staging }) := by
  show (Op.demand (u.staging.enter owner entry content) >>= _).exec u = _
  cases u.staging.enter owner entry content with
  | error cause => rfl
  | ok staging => rfl

/-- The last steps of a set-up, for which the image name that was ahead is used. -/
theorem parallel_enter (hL : L.Lawful) {entry : Pending}
    (h : L.Rel ((owner, entry.image) :: ahead) s t) (content : Bytes) {α : Type} (a : α) : (do
      let s ← get
      let staging ← Op.demand (s.staging.enter owner entry content)
      set { s with staging }
      return a : Op α).Parallel (L.Rel ahead) s t := by
  rw [Parallel, exec_enter, exec_enter]
  rcases hL.arrive h.staging content with ⟨cause, hs, ht⟩ | ⟨s', t', hs, ht, hstaging⟩
  · rw [hs, ht]
    exact ⟨rfl, h.fewer hL .cons_self⟩
  · rw [hs, ht]
    exact ⟨rfl, h.mishaps, h.ledger, hstaging, h.sessions⟩

section Steps

variable (hL : L.Lawful) (hown : L.Serves o owner)

include hL hown

/-- The survey looks at the record and counts the codes. -/
theorem steady_survey : (survey o owner).Steady (L.Rel ahead) := by
  refine steady_record hL hown (fun h => by rw [h.enabled]) fun row => ?_
  split
  · exact .bind (Database.steady_query hL (hown.transact .countCodes)) fun _ => steady_pure _
  · refine .bind (steady_lookAtPending hown) fun found => ?_
    split
    · exact steady_pure _
    · exact steady_pure _

/-- The ledger gets the new password hash and a copy that was sealed again, from the same contents
in both states. -/
theorem steady_rekey (verified : Bool) (current new : String) :
    (rekey o owner verified current new).Steady (L.Rel ahead) := by
  refine .bind (steady_confirmPassword hL hown current) fun _ =>
    steady_record hL hown (fun h => by rw [h.active]) fun row =>
      .bind (steady_ensure _ _) fun _ => ?_
  have hrest : ∀ main, (do
      let changed ← Database.changePassword owner
        (o.deployment.primitives.hashWord o.draws.passwordSalt new) main
      Op.ensure (.conflict .concurrentUpdate) changed
      discardPending owner : Op Unit).Steady (L.Rel ahead) :=
    fun main =>
      .bind (Database.steady_query hL (hown.transact (.changePassword _ _))) fun changed =>
        .bind (steady_ensure _ changed) fun _ => steady_discardPending hown
  cases row.bind FactorRecord.active? with
  | none => exact .bind (steady_pure _) hrest
  | some copies =>
    exact .bind (.map (.bind (steady_openMain copies current) fun _ => steady_pure _)) hrest

end Steps

/-! ## §2 — with a session -/

section Operations

variable (hL : L.Lawful) (hown : L.Serves o session.owner)

include hL hown

/-- The operations of a session, one after the other. Each is walked through by its steps, in the
order in which they stand. -/
theorem steady_deleteAccount (password : String) :
    (deleteAccount o session password).Steady (L.Rel ahead) :=
  .bind (steady_confirmPassword hL hown password) fun _ =>
    steady_record hL hown (fun h => by rw [h.enrolled]) fun _ =>
      .bind (steady_ensure _ _) fun _ =>
        .bind (Database.steady_query hL (hown.transact .remove)) fun _ =>
          .bind (steady_discardPending hown) fun _ => steady_changeSessions hown.revokeOwner

theorem steady_overview : (overview o session).Steady (L.Rel ahead) := by
  rw [overview_eq]
  exact .map (steady_survey hL hown)

theorem steady_checkPending (code : String) :
    (checkPending o session code).Steady (L.Rel ahead) :=
  .bind (steady_ensure _ _) fun _ =>
    .bind (steady_currentAccount hL hown) fun _ =>
      .bind (steady_lookAtPending hown) fun _ =>
        .bind (steady_require _ _) fun entry =>
          .bind (steady_checkCode entry.secret code) fun _ => steady_pure _

/-- An activation looks, checks, writes the record and then the pending secret. -/
theorem steady_activate (code : String) : (activate o session code).Steady (L.Rel ahead) := by
  refine .bind (steady_checkPending hL hown code) fun (entry, check) => ?_
  dsimp only
  split
  · exact .bind (steady_restage hown entry.id check.secret) fun _ => steady_refuse _
  · have henable : ∀ copies, (Database.enable o.now session.owner copies).Steady (L.Rel ahead) :=
      fun copies => Database.steady_put hL
        (Database.paired_enroll (hown.transact (.enable copies o.now)))
    refine .bind (steady_tryCatch (henable _) fun failure => ?_) fun enabled => ?_
    · exact .bind (steady_restage hown entry.id check.secret) fun _ => steady_throw failure
    · exact .bind (steady_ensure _ enabled) fun _ =>
        .bind (steady_changeStaging (hown.discardIf entry.id)) fun _ =>
          .bind (steady_replaceAll hown .verified) fun _ => steady_pure _

theorem steady_checkMain (password code : String) :
    (checkMain o session password code).Steady (L.Rel ahead) :=
  .bind (steady_ensureUnverified session.claim) fun _ =>
    .bind (steady_confirmPassword hL hown password) fun _ =>
      .bind (steady_activeCopies hL hown) fun copies =>
        .bind (steady_openMain copies password) fun secret =>
          .bind (steady_checkCode secret code) fun _ => steady_pure _

omit hL in
/-- A pair with another claim takes the place of the session's. -/
theorem steady_reissue (hfamily : L.Drops session.family) (claim : Claim) :
    (reissue o session claim).Steady (L.Rel ahead) :=
  steady_onSessions (carries_then hfamily (hown.issue claim))

/-- A verification ends the family of its session, so the likeness must allow for that. -/
theorem steady_validate (hfamily : L.Drops session.family) (password code : String) :
    (validate o session password code).Steady (L.Rel ahead) :=
  .bind (steady_checkMain hL hown password code) fun (_, check) =>
    .bind (Database.steady_query hL (hown.transact (.updateMain _ _ _))) fun kept =>
      .bind (steady_ensure _ kept) fun _ =>
        .bind (steady_ensure _ check.verified) fun _ => steady_reissue hown hfamily .verified

theorem steady_validateBackupCode (hfamily : L.Drops session.family) (code : String) :
    (validateBackupCode o session code).Steady (L.Rel ahead) :=
  .bind (steady_ensureUnverified session.claim) fun _ =>
    .bind (steady_currentAccount hL hown) fun _ =>
      .bind (steady_activeCopies hL hown) fun _ =>
        .bind (steady_demand _) fun _ =>
          .bind (Database.steady_query hL (hown.transact (.consumeCode _))) fun used =>
            .bind (steady_ensure _ used) fun _ => steady_reissue hown hfamily .verified

theorem steady_generateBackupCodes (password : String) :
    (generateBackupCodes o session password).Steady (L.Rel ahead) := by
  refine .bind (steady_ensure _ _) fun _ => .bind (steady_confirmPassword hL hown password)
    fun _ => .bind (steady_activeCopies hL hown) fun _ => .bind (Database.steady_query hL
      (hown.transact (.replaceCodes _))) fun _ => ?_
  split
  · exact steady_pure _
  · exact steady_throw _

theorem steady_deactivate (password : String) :
    (deactivate o session password).Steady (L.Rel ahead) :=
  .bind (steady_ensure _ _) fun _ =>
    .bind (steady_confirmPassword hL hown password) fun _ =>
      .bind (steady_activeCopies hL hown) fun _ =>
        .bind (Database.steady_query hL (hown.transact (.disable _))) fun _ =>
          .bind (steady_discardPending hown) fun _ => steady_replaceAll hown .empty

theorem steady_changePassword (current new : String) :
    (changePassword o session current new).Steady (L.Rel ahead) := by
  rw [changePassword_eq]
  exact .bind (steady_rekey hL hown _ current new) fun _ => steady_replaceAll hown session.claim

omit hL in
/-- The image that is read is that of the entry that was found. The likeness has to see to it that
this image is the same in both states. -/
theorem steady_pendingImage (name : String) :
    (pendingImage o session name).Steady (L.Rel ahead) := by
  refine .bind (steady_require _ _) fun image s t hst => ?_
  refine (steady_lookAtPending hown s t hst).bind id fun found s₁ t₁ hlook h₁ => ?_
  refine (steady_ensure _ _ s₁ t₁ h₁).bind id fun _ s₂ t₂ hensure h₂ => ?_
  obtain ⟨rfl, himage⟩ := ends_ensure hensure
  cases found with
  | none => cases himage () rfl
  | some entry =>
    obtain rfl : entry.image = image := by simpa using himage () rfl
    obtain ⟨-, hthere⟩ := lookAtPending_ends hlook
    obtain ⟨rfl, hentry, hlasting⟩ := hthere _ rfl entry rfl
    have hread := hown.read h₂.staging hentry hlasting
    refine parallel_get ?_ ?_
    · rw [hread]
    · exact Steady.bind (steady_demand _) (fun _ => steady_require _ _) s₁ t₂ h₂

/-- A set-up that was expected is no longer ahead when it was made. -/
theorem parallel_setup (password : String)
    (h : L.Rel ((session.owner, o.draws.image) :: ahead) s t) :
    (setup o session password).Parallel (L.Rel ahead) s t := by
  have hdone : ∀ {s' t'}, L.Rel ((session.owner, o.draws.image) :: ahead) s' t' →
      L.Rel ahead s' t' := fun h' => h'.fewer hL .cons_self
  refine (steady_ensure _ _ s t h).bind hdone fun _ s₁ t₁ _ h₁ => ?_
  refine (steady_confirmPassword hL hown password s₁ t₁ h₁).bind hdone
    fun account s₂ t₂ _ h₂ => ?_
  refine parallel_record hL hown h₂ hdone (fun h => by rw [h.enabled]) fun row s₃ t₃ h₃ => ?_
  refine (steady_ensure _ _ s₃ t₃ h₃).bind hdone fun _ s₄ t₄ _ h₄ => ?_
  refine (steady_demand _ s₄ t₄ h₄).bind hdone fun content s₅ t₅ _ h₅ => ?_
  exact parallel_enter hL h₅ content o.draws.image

end Operations

/-! ## §3 — without a session -/

section Addresses

variable {email : String} (hL : L.Lawful)

include hL

theorem steady_authenticate (password : String) :
    (authenticate o email password).Steady (L.Rel ahead) :=
  .bind (Database.steady_query hL (hL.address email)) fun _ =>
    .bind (steady_require _ _) fun found =>
      .bind (steady_checkPassword found.2 password _) fun _ => steady_pure found

/-- Whose account a login is for turns out on the way, so that the likeness must serve whoever has
the address. -/
theorem parallel_login
    (hown : ∀ owner account, s.ledger.findByEmail? email = some (owner, account) → L.Knows o owner)
    (password : String) (h : L.Rel ahead s t) :
    (login o email password).Parallel (L.Rel ahead) s t := by
  refine (steady_authenticate hL password s t h).bind id fun (owner, account) s₁ t₁ hends h₁ => ?_
  have hknows := hown owner account ((authenticate_ends hends).2 _ rfl).1
  exact Steady.bind (steady_claimFor hL hknows)
    (fun claim => steady_onSessions (hknows.issue claim)) s₁ t₁ h₁

/-- It is the same with a recovery. -/
theorem parallel_recoverPassword
    (hown : ∀ owner account, s.ledger.findByEmail? email = some (owner, account) → L.Serves o owner)
    (recoveryKey new : String) (h : L.Rel ahead s t) :
    (recoverPassword o email recoveryKey new).Parallel (L.Rel ahead) s t := by
  refine (steady_demand _ s t h).bind id fun normal s₁ t₁ hdemand h₁ => ?_
  obtain ⟨rfl, -⟩ := ends_demand hdemand
  refine (Database.steady_query hL (hL.address email) s t₁ h₁).bind id
    fun found s₂ t₂ hlook h₂ => ?_
  have hfound := (Database.accountByEmail_ends hlook).2 found rfl
  refine (steady_require _ found s₂ t₂ h₂).bind id fun (owner, account) s₃ t₃ hrequire h₃ => ?_
  obtain ⟨rfl, hsome⟩ := ends_require hrequire
  have hserves := hown owner account (hfound ▸ hsome _ rfl)
  refine parallel_record hL hserves h₃ id (fun h => by rw [h.active]) fun row s₄ t₄ h₄ => ?_
  refine (steady_require _ _ s₄ t₄ h₄).bind id fun copies s₅ t₅ _ h₅ => ?_
  refine (steady_recoverSecret copies normal s₅ t₅ h₅).bind id fun secret s₆ t₆ _ h₆ => ?_
  refine (Database.steady_query hL (hserves.transact (.recover _ _ _)) s₆ t₆ h₆).bind id
    fun changed s₇ t₇ _ h₇ => ?_
  refine (steady_ensure _ changed s₇ t₇ h₇).bind id fun _ s₈ t₈ _ h₈ => ?_
  refine (steady_discardPending hserves s₈ t₈ h₈).bind id fun _ s₉ t₉ _ h₉ => ?_
  exact Steady.bind (steady_changeSessions hserves.revokeOwner) (fun _ => steady_pure _) s₉ t₉ h₉

end Addresses

/-- A registration writes an account that was not there. The likeness has to allow for this write,
since no account is served by it yet. -/
theorem steady_register (hL : L.Lawful)
    (hregister : ∀ account, Carries L.ledger fun l => ((), l.register o.draws.account account))
    (email password : String) : (register o email password).Steady (L.Rel ahead) := by
  refine .bind (steady_demand _) fun address =>
    .bind (Database.steady_query hL (hL.address address)) fun found => ?_
  have hcreate : ∀ account : Account, (do
      Database.createAccount o.draws.account account
      return (o.draws.account, account) : Op (Uuid × Account)).Steady (L.Rel ahead) :=
    fun account => .bind (Database.steady_query hL (hregister account)) fun _ => steady_pure _
  cases found with
  | some row => exact .bind (steady_refuse _) fun _ => hcreate _
  | none => exact hcreate _

/-- A new pair is handed out for the token that is found, which its family makes way for. The token
has to be found in both states. -/
theorem parallel_refresh {token : String}
    (hfind : Session.find? o.deployment.primitives .refresh o.now token s.sessions =
      Session.find? o.deployment.primitives .refresh o.now token t.sessions)
    (hown : ∀ entry, Session.find? o.deployment.primitives .refresh o.now token s.sessions =
      some entry → L.Serves o entry.owner ∧ L.Drops entry.family)
    (h : L.Rel ahead s t) : (refresh o token).Parallel (L.Rel ahead) s t := by
  have hboth : (Session.refresh o.deployment.primitives o.deployment.sessionLifetimes o.now
      o.draws.tokens token s.sessions).1 = (Session.refresh o.deployment.primitives
        o.deployment.sessionLifetimes o.now o.draws.tokens token t.sessions).1 ∧
      L.sessions (Session.refresh o.deployment.primitives o.deployment.sessionLifetimes o.now
        o.draws.tokens token s.sessions).2 (Session.refresh o.deployment.primitives
          o.deployment.sessionLifetimes o.now o.draws.tokens token t.sessions).2 := by
    unfold Session.refresh
    rw [← hfind]
    cases hfound : Session.find? o.deployment.primitives .refresh o.now token s.sessions with
    | none => exact ⟨rfl, h.sessions⟩
    | some entry =>
      obtain ⟨hserves, hdrops⟩ := hown entry hfound
      exact carries_then hdrops (hserves.issue entry.claim) h.sessions
  exact parallel_onSessions hboth.1 hboth.2 h

/-! ## §4 — calls -/

/-- A call for a session that sets no second factor up ends in the same way from any two states that
are alike. -/
theorem perform_steady (hL : L.Lawful) (hown : L.Serves o session.owner)
    (hfamily : L.Drops session.family) {call : Call} (hcall : call.session? = some session)
    (hsetup : ∀ password, call ≠ .setup session password) :
    (perform o call).Steady (L.Rel ahead) := by
  -- The calls without a session, and the set-up, which is not steady: it uses up a name.
  cases call with
  | health | register | login | refresh | recoverPassword | purge => cases hcall
  | logout session =>
    cases hcall
    exact .map (steady_changeSessions hfamily)
  | deleteAccount session password =>
    cases hcall
    exact .map (steady_deleteAccount hL hown password)
  | overview session =>
    cases hcall
    exact .map (steady_overview hL hown)
  | setup session password =>
    cases hcall
    exact absurd rfl (hsetup password)
  | image session name =>
    cases hcall
    exact .map (steady_pendingImage hown name)
  | activate session code =>
    cases hcall
    exact .map (steady_activate hL hown code)
  | validate session password code =>
    cases hcall
    exact .map (steady_validate hL hown hfamily password code)
  | validateBackupCode session code =>
    cases hcall
    exact .map (steady_validateBackupCode hL hown hfamily code)
  | generateBackupCodes session password =>
    cases hcall
    exact .map (steady_generateBackupCodes hL hown password)
  | deactivate session password =>
    cases hcall
    exact .map (steady_deactivate hL hown password)
  | changePassword session current new =>
    cases hcall
    exact .map (steady_changePassword hL hown current new)

/-- **A call that is made for a session** ends in the same way in two states that are alike, and
leaves them alike; a set-up is no longer ahead when it was made. -/
theorem perform_parallel (hL : L.Lawful) (hown : L.Serves o session.owner)
    (hfamily : L.Drops session.family) {call : Call} (hcall : call.session? = some session)
    (h : L.Rel ((session.owner, o.draws.image) :: ahead) s t) :
    (perform o call).Parallel (L.Rel ahead) s t := by
  by_cases hsetup : ∃ password, call = .setup session password
  · obtain ⟨password, rfl⟩ := hsetup
    exact Parallel.map (parallel_setup hL hown password h)
  · exact perform_steady hL hown hfamily hcall (not_exists.1 hsetup) s t (h.fewer hL .cons_self)

end Service

end SecondFactor
