import SecondFactor.Proofs.Service.Guise

/-!
# One service in two guises

Operations ask for the contents of a record and get the same in both guises. Only who logs in is
told whether there is a record. It is told again wherever the claim of the session is shown, and it
makes no other difference.

## The architecture

* **`Guise.lawful_likeness`**, **`Guise.Lawful.serves`** — the steps of operations do the same.
* **`Guise.Calls`** — two calls that differ in the claim of their session.
* **`Guise.perform_paired`** — a call ends in the same way in both states, but for the claims that
  are shown.
-/

namespace SecondFactor

open Service (Call Reply)

namespace Guise

variable {G : Guise}

/-! ## §1 — steps -/

/-- What a guise allows for makes a likeness, and the walk through the steps of an operation is the
one of likenesses. -/
theorem lawful_likeness : G.likeness.Lawful where
  address email _ _ h := ⟨h.findByEmail? email, h⟩
  fewer _ h := h
  arrive {owner entry names s t} h content := by
    obtain rfl : s = t := h
    cases s.enter owner entry content with
    | error cause => exact .inl ⟨cause, rfl, rfl⟩
    | ok s' => exact .inr ⟨s', s', rfl, rfl, rfl⟩

theorem carries_staging {α : Type} (f : Staging → α × Staging) : G.likeness.Stages f := by
  rintro names s t rfl
  exact ⟨rfl, rfl⟩

/-- What is handed out does not depend on the registry. -/
theorem carries_issue (P : Primitives) (lifetimes : Session.Lifetimes) (now : Instant)
    (draws : Session.Draws) (owner : Uuid) (claim : Claim) :
    Carries G.likeness.sessions (Session.issue P lifetimes now draws owner claim) := by
  intro registry registry' h
  refine ⟨?_, (Registries.issue h P lifetimes now draws (.refl owner claim)).2⟩
  unfold Session.issue
  dsimp only
  cases now.after? lifetimes.access with
  | none => rfl
  | some expires => cases now.after? lifetimes.refresh <;> rfl

theorem carries_revokeOwner (owner : Uuid) :
    Carries G.likeness.sessions fun registry => ((), Session.revokeOwner owner registry) :=
  fun h => ⟨rfl, Registries.revokeOwner h owner⟩

theorem drops (family : Uuid) : G.likeness.Drops family :=
  fun h => ⟨rfl, Registries.revokeFamily h family⟩

/-- **The steps that are made for an account** do the same in both guises. With this the general
theorem on likenesses applies to all calls that show no claim. -/
theorem Lawful.serves (hG : G.Lawful) (o : Occasion) (owner : Uuid) :
    G.likeness.Serves o owner where
  transact := by
    intro α f hf
    -- One case for each write to the ledger. Those to the record are where the law of the guise is
    -- used.
    cases hf with
    | account => exact fun h => ⟨congrArg (Table.get? · owner) h.accounts, h⟩
    | remove => exact fun h => ⟨rfl, h.remove hG owner⟩
    | countCodes =>
      intro l l' h
      refine ⟨?_, h⟩
      show l.codes.countP _ = l'.codes.countP _
      rw [h.codes]
    | replaceCodes hashes => exact fun h => ⟨rfl, h.replaceCodes owner hashes⟩
    | consumeCode hash => exact carries_conditional fun h => h.consumeCode? owner hash
    | enable copies now => exact carries_conditional fun h => h.enable? hG owner copies now
    | updateMain expected main now =>
      exact carries_conditional fun h => h.updateMain? hG owner expected main now
    | disable now => exact fun h => ⟨rfl, h.disable hG owner now⟩
    | changePassword hash main =>
      exact carries_conditional fun h => h.changePassword? hG owner hash main
    | recover expected hash copies =>
      exact carries_conditional fun h => h.recover? hG owner expected hash copies
  contents h := hG.contents h.records owner
  look := carries_staging _
  restage _ _ := carries_staging _
  discard := carries_staging _
  discardIf _ := carries_staging _
  read := by
    rintro names s t entry rfl - -
    rfl
  issue := carries_issue _ _ _ _ owner
  revokeOwner := carries_revokeOwner owner

/-! ## §2 — calls -/

/-- Two calls are the same, but for what their session says. -/
def Calls (G : Guise) (c c' : Call) : Prop :=
  ∃ claim, c' = c.withClaim claim ∧
    ∀ session, c.session? = some session → G.Claims session.owner session.claim claim

section Operations

open Op Service Likeness

variable {o : Occasion} {s t : State} {session : Session} {claim : Claim}

/-- A change of the tokens, in both guises. -/
theorem paired_onSessions
    {f g : Session.Registry → Except Failure Session.Tokens × Session.Registry}
    (hfg : Matched Session.Tokens.PassFor (f s.sessions).1 (g t.sessions).1 ∧
      G.Registries (f s.sessions).2 (g t.sessions).2) (h : G.Rel s t) :
    Paired Session.Tokens.PassFor (onSessions f) (onSessions g) G.Rel s t :=
  ⟨hfg.1, h.mishaps, h.ledger, h.staging, hfg.2⟩

/-- A login claims what the record of its account says, and that may differ. -/
theorem paired_login (hG : G.Lawful) (email password : String) (h : G.Rel s t) :
    Paired Session.Tokens.PassFor (login o email password) (login o email password) G.Rel s t := by
  have hL := lawful_likeness (G := G)
  refine (steady_authenticate hL password).bind_paired (fun (owner, account) s₁ t₁ h₁ => ?_) h
  have hclaimFor : Paired (G.Claims owner) (claimFor owner) (claimFor owner) G.Rel s₁ t₁ := by
    refine (Database.paired_record (A := fun row row' => G.Claims owner
      (.ofStatus (row.map FactorRecord.status)) (.ofStatus (row'.map FactorRecord.status))) hL
      (fun _ => .refl owner _) (fun hl => hG.claims hl.records owner) h₁).bind id ?_
    exact fun row row' s₂ t₂ _ hclaims h₂ => ⟨.ok hclaims, h₂⟩
  refine hclaimFor.bind id fun claim claim' s₂ t₂ _ hclaim h₂ => ?_
  exact paired_onSessions (Registries.issue h₂.sessions _ _ _ _ hclaim) h₂

/-- An overview shows the claim of its session. All else that it tells is the same. -/
theorem paired_overview (hG : G.Lawful) (hclaim : G.Claims session.owner session.claim claim)
    (h : G.Rel s t) :
    Paired Overview.PassesFor (overview o session) (overview o { session with claim }) G.Rel
      s t := by
  have hsurvey : (survey o session.owner).Steady G.Rel :=
    steady_survey lawful_likeness (hG.serves o session.owner)
  rw [overview_eq, overview_eq]
  refine (parallel_iff.1 (hsurvey s t h)).map ?_
  rintro seen _ rfl
  exact ⟨claim, rfl, hclaim.passesFor⟩

/-- The claim of a session whose password is changed is handed on. -/
theorem paired_changePassword (hG : G.Lawful)
    (hclaim : G.Claims session.owner session.claim claim) (current new : String) (h : G.Rel s t) :
    Paired Session.Tokens.PassFor (changePassword o session current new)
      (changePassword o { session with claim } current new) G.Rel s t := by
  have hverified : (claim == .verified) = (session.claim == .verified) := by
    rcases hclaim with heq | ⟨-, hoff, hempty⟩
    · rw [heq]
    · rw [hoff, hempty]
      rfl
  have hrekey : (rekey o session.owner (session.claim == .verified) current new).Steady G.Rel :=
    steady_rekey lawful_likeness (hG.serves o session.owner) _ current new
  rw [changePassword_eq, changePassword_eq, hverified]
  refine hrekey.bind_paired (fun _ s' t' h' => ?_) h
  exact paired_onSessions
    ((Registries.revokeOwner h'.sessions session.owner).issue _ _ _ _ hclaim) h'

theorem steady_purge : (purge o).Steady G.Rel :=
  .bind (steady_onStaging (carries_staging _)) fun _ =>
    steady_changeSessions fun h => ⟨rfl, Registries.purge h o.now⟩

/-- Most operations ask a session only whether it was verified or needs to be. -/
theorem perform_withClaim {c : Call} (hsession : c.session? = some session)
    (hclaim : session.claim.PassesFor claim) (hoverview : c ≠ .overview session)
    (hchange : ∀ current new, c ≠ .changePassword session current new) :
    perform o (c.withClaim claim) = perform o c := by
  rcases hclaim with rfl | ⟨hoff, rfl⟩
  · cases c <;> cases hsession <;> rfl
  · obtain ⟨owner, _, family⟩ := session
    cases hoff
    cases c with
    | overview => exact absurd (congrArg Call.overview (Option.some.inj hsession)) hoverview
    | changePassword _ current new =>
      exact absurd (congrArg (Call.changePassword · current new) (Option.some.inj hsession))
        (hchange current new)
    | _ => cases hsession <;> rfl

/-- **A call ends in the same way in both guises**, but for the claims that are shown. Four calls
show one, and are compared by themselves. -/
theorem perform_paired (hG : G.Lawful) {c c' : Call} (hc : G.Calls c c') (h : G.Rel s t) :
    Paired Reply.PassesFor (perform o c) (perform o c') G.Rel s t := by
  obtain ⟨claim, rfl, hclaims⟩ := hc
  have hL := lawful_likeness (G := G)
  have hsame : ∀ {x : Op Reply}, x.Parallel G.Rel s t → Paired Reply.PassesFor x x G.Rel s t := by
    rintro x ⟨hresult, hstates⟩
    exact ⟨hresult ▸ .refl .same _, hstates⟩
  cases hsession : c.session? with
  | some session =>
    have hclaim := hclaims session hsession
    -- Two calls hand the claim of their session on. All others ask only whether it lets them pass,
    -- and do so in both guises or in neither.
    have hrest : c ≠ .overview session → (∀ current new, c ≠ .changePassword session current new) →
        Paired Reply.PassesFor (perform o c) (perform o (c.withClaim claim)) G.Rel s t := by
      intro hoverview hchange
      rw [perform_withClaim hsession hclaim.passesFor hoverview hchange]
      exact hsame (perform_parallel hL (hG.serves o session.owner) (drops session.family) hsession
        (rel_ahead h))
    cases c with
    | overview =>
      cases hsession
      exact (paired_overview hG hclaim h).map fun hv => .overview hv
    | changePassword _ current new =>
      cases hsession
      exact (paired_changePassword hG hclaim current new h).map fun htokens => .tokens htokens
    | _ => exact hrest nofun nofun
  | none =>
    cases c with
    | health => exact hsame (.map (steady_onStaging (carries_staging _) s t h))
    | register email password =>
      have hregister : ∀ account, Carries G.likeness.ledger fun l =>
          ((), l.register o.draws.account account) := fun account _ _ hl =>
        ⟨rfl, hl.register o.draws.account account⟩
      exact hsame (.map (steady_register hL hregister email password s t h))
    | login email password =>
      exact (paired_login hG email password h).map fun htokens => .login htokens
    | refresh token =>
      exact (paired_onSessions (Registries.refresh h.sessions _ _ _ _ token) h).map
        fun htokens => .tokens htokens
    | recoverPassword email recoveryKey new =>
      exact hsame (.map (parallel_recoverPassword hL (fun owner _ _ => hG.serves o owner)
        recoveryKey new h))
    | purge => exact hsame (.map (steady_purge s t h))
    | _ => cases hsession

end Operations

end Guise

end SecondFactor
