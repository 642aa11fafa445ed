import SecondFactor.Proofs.Completeness

/-!
# Tokens that say *verified*, turn by turn

A row that says *verified* was there before the turn, or comes from a check of the second factor in
the turn, or takes over from a row that said so: by `refresh`, or by a change of the password. Which
of these it is, is settled here once for each call.

## The architecture

* **`Turn.succeeds`**, **`Turn.verifies`**, **`Turn.withdraws`**, **`Turn.renews`** — what a turn
  does to the standing of an account or of a token.
* **`Vouched`** — a token is traced back to a check, turn by turn.
* **`Session.mem_issue`** — a pair of tokens enters its own rows and no others.
* **`Traced`** and **`traced`** — the step: where a row that says *verified* comes from, for each
  call.
-/

namespace SecondFactor

open Service (Call Reply)

/-! ## §1 — what a turn does -/

/-- The calls that check the second factor of an account. -/
def Service.Call.checks (owner : Uuid) : Call → Prop
  | .activate session _ | .validate session _ _ | .validateBackupCode session _ =>
    session.owner = owner
  | _ => False

/-- The session of a call that needs a checked second factor. -/
def Service.Call.privileged? : Call → Option Session
  | .deleteAccount session _ | .generateBackupCodes session _ | .changePassword session _ _ =>
    some session
  | _ => none

/-- The calls that give the second factor of an account up, or the account itself. -/
def Service.Call.givesUp (l : Ledger) (owner : Uuid) : Call → Prop
  | .deactivate session _ | .deleteAccount session _ => session.owner = owner
  | .recoverPassword email _ _ => ∃ account, l.findByEmail? email = some (owner, account)
  | _ => False

namespace Turn

variable (D : Deployment) (t : Turn) (s : State)

/-- The call of the turn did what it is for: it was answered, or it broke off when it had changed
the tokens already, which only the expiry of a new pair can make it do. -/
def succeeds : Prop :=
  t.answers D s ∨ (t.outcome D s = some (.error .crash) ∧ (t.next D s).sessions ≠ s.sessions)

/-- The second factor of an account was checked in the turn. -/
def verifies (owner : Uuid) : Prop :=
  ∃ call, t.call? D s = some call ∧ call.checks owner ∧ t.succeeds D s

/-- The second factor of an account, or the account, was given up in the turn. -/
def withdraws (owner : Uuid) : Prop :=
  ∃ call, t.call? D s = some call ∧ call.givesUp s.ledger owner ∧ t.succeeds D s

/-- The token under a key was renewed in the turn: it was the refresh token of a `refresh`, or the
token of the request that changed the password. -/
inductive renews (key : Key) : Prop where
  | refresh {token : String} (hcall : t.call? D s = some (.refresh token))
      (hkey : key = Session.digest D.primitives token) (hdone : t.succeeds D s)
  | changePassword {session : Session} {current new : String} {r : Http.Request} {token : String}
      (hcall : t.call? D s = some (.changePassword session current new))
      (hact : t.act = .request r) (htoken : r.token? = some token)
      (hkey : key = Session.digest D.primitives token) (hdone : t.succeeds D s)

/-- The keys of the tokens that the turn may hand out. -/
def minted : List Key :=
  [Session.digest D.primitives (Session.tokenText t.draws.tokens.access),
   Session.digest D.primitives (Session.tokenText t.draws.tokens.refresh)]

/-- The turn comes from outside: it is a request, or the upkeep of the service itself. -/
def FromOutside : Prop := (∃ r, t.act = .request r) ∨ t.act = .call .purge

end Turn

/-- **A row of the registry is vouched for.** Some turn checked the second factor of its account,
and since then its token was only renewed, and nothing was given up. -/
inductive Vouched (D : Deployment) : History → Key → Session.Entry → Prop where
  /-- The turn checked the second factor and handed the token out. -/
  | checked {h : History} {t : Turn} {key : Key} {entry : Session.Entry}
      (hcheck : t.verifies D (h.state D) entry.owner) (hkey : key ∈ t.minted D) :
      Vouched D (h.turn t) key entry
  /-- The turn handed the token out for one that was vouched for. -/
  | renewed {h : History} {t : Turn} {key old : Key} {entry before : Session.Entry}
      (hbefore : Vouched D h old before) (howner : before.owner = entry.owner)
      (hrenews : t.renews D (h.state D) old) (hkey : key ∈ t.minted D)
      (hkeeps : ¬ t.withdraws D (h.state D) entry.owner) : Vouched D (h.turn t) key entry
  /-- The row was there before the turn. -/
  | kept {h : History} {t : Turn} {key : Key} {entry : Session.Entry}
      (hbefore : Vouched D h key entry) (hrow : (key, entry) ∈ (h.state D).sessions)
      (hkeeps : ¬ t.withdraws D (h.state D) entry.owner) : Vouched D (h.turn t) key entry

/-! ## §2 — rows of the registry -/

namespace Session

theorem mem_put {registry : Registry} {key : Key} {entry : Entry} {row : Key × Entry}
    (h : row ∈ registry.put key entry) : row = (key, entry) ∨ row ∈ registry := by
  rcases List.mem_cons.1 h with h | h
  · exact .inl h
  · exact .inr (List.mem_filter.1 h).1

/-- The rows of a new pair are its own, whether or not the pair could be handed out. So a call that
breaks off while it hands out tokens may leave rows, but only such as it would have left anyway. -/
theorem mem_issue {P : Primitives} {lifetimes : Lifetimes} {now : Instant} {draws : Draws}
    {owner : Uuid} {claim : Claim} {registry : Registry} {row : Key × Entry}
    (h : row ∈ (issue P lifetimes now draws owner claim registry).2) :
    row ∈ registry ∨ (row.2.owner = owner ∧ row.2.claim = claim ∧
      row.1 ∈ [digest P (tokenText draws.access), digest P (tokenText draws.refresh)]) := by
  unfold issue at h
  dsimp only at h
  -- Neither token is entered, or one, or both: an expiry may lie beyond the calendar.
  split at h
  · exact .inl h
  · split at h
    · rcases mem_put h with rfl | h
      · exact .inr ⟨rfl, rfl, by simp⟩
      · exact .inl h
    · rcases mem_put h with rfl | h
      · exact .inr ⟨rfl, rfl, by simp⟩
      · rcases mem_put h with rfl | h
        · exact .inr ⟨rfl, rfl, by simp⟩
        · exact .inl h

/-- A pair that cannot be handed out breaks the call off. -/
theorem crash_of_issue {P : Primitives} {lifetimes : Lifetimes} {now : Instant} {draws : Draws}
    {owner : Uuid} {claim : Claim} {registry : Registry} {failure : Failure}
    (h : (issue P lifetimes now draws owner claim registry).1 = .error failure) :
    failure = .crash := by
  unfold issue at h
  dsimp only at h
  split at h
  · cases h
    rfl
  · split at h
    · cases h
      rfl
    · cases h

theorem mem_revokeOwner {owner : Uuid} {registry : Registry} {row : Key × Entry}
    (h : row ∈ revokeOwner owner registry) : row ∈ registry ∧ row.2.owner ≠ owner := by
  obtain ⟨hmem, howner⟩ := List.mem_filter.1 h
  exact ⟨hmem, by simpa using howner⟩

theorem mem_of_find? {P : Primitives} {kind : Kind} {now : Instant} {token : String}
    {registry : Registry} {entry : Entry} (h : find? P kind now token registry = some entry) :
    (digest P token, entry) ∈ registry := by
  exact Table.mem_of_get? (Option.filter_eq_some_iff.1 h).1

end Session

/-! ## §3 — one turn

Every row after a turn was there before, or belongs to the pair that the turn handed out. In the
first case the turn withdrew nothing from the account of the row; in the second it did what it is
for, since a turn that is refused leaves the registry as it was. -/

namespace Turn

variable {D : Deployment} {t : Turn} {s : State} {owner : Uuid} {call : Call}

/-- A turn that fails and leaves the tokens has done nothing for anybody's standing. -/
theorem not_succeeds {failure : Failure} (hfail : t.outcome D s = some (.error failure))
    (hsame : (t.next D s).sessions = s.sessions) : ¬ t.succeeds D s := by
  rintro (⟨reply, hreply⟩ | ⟨-, hchanged⟩)
  · rw [hfail] at hreply
    cases hreply
  · exact hchanged hsame

/-- A call that gives nothing up does not withdraw the second factor of the account. -/
theorem not_withdraws (hcall : t.call? D s = some call) (h : ¬ call.givesUp s.ledger owner) :
    ¬ t.withdraws D s owner := by
  rintro ⟨other, hother, hgives, -⟩
  rw [hcall] at hother
  cases hother
  exact h hgives

end Turn

/-- Where a row that says *verified* after a turn comes from. -/
inductive Traced (D : Deployment) (t : Turn) (s : State) (key : Key) (entry : Session.Entry) :
    Prop where
  | stayed (hrow : (key, entry) ∈ s.sessions) (hkeeps : ¬ t.withdraws D s entry.owner)
  | checked (hcheck : t.verifies D s entry.owner) (hkey : key ∈ t.minted D)
  | passed {old : Key} {before : Session.Entry} (hrow : (old, before) ∈ s.sessions)
      (hverified : before.claim = .verified) (howner : before.owner = entry.owner)
      (hrenews : t.renews D s old) (hkey : key ∈ t.minted D)
      (hkeeps : ¬ t.withdraws D s entry.owner)

namespace Traced

variable {D : Deployment} {t : Turn} {s : State} {key : Key} {entry : Session.Entry} {call : Call}

/-- A turn that enters no row leaves each where it comes from, if it gives nothing up. -/
theorem of_subset (hcall : t.call? D s = some call) (hgives : ¬ call.givesUp s.ledger entry.owner)
    (hsub : ∀ row ∈ (t.next D s).sessions, row ∈ s.sessions)
    (h : (key, entry) ∈ (t.next D s).sessions) : Traced D t s key entry :=
  .stayed (hsub _ h) (Turn.not_withdraws hcall hgives)

theorem of_same (hcall : t.call? D s = some call) (hgives : ¬ call.givesUp s.ledger entry.owner)
    (hsame : (t.next D s).sessions = s.sessions) (h : (key, entry) ∈ (t.next D s).sessions) :
    Traced D t s key entry :=
  of_subset hcall hgives (fun row hrow => by rwa [hsame] at hrow) h

/-- A turn that fails and leaves the tokens is one of these, whatever it would have given up. -/
theorem of_refused {failure : Failure} (hfail : t.outcome D s = some (.error failure))
    (hsame : (t.next D s).sessions = s.sessions) (h : (key, entry) ∈ (t.next D s).sessions) :
    Traced D t s key entry := by
  rw [hsame] at h
  exact .stayed h fun hw => Turn.not_succeeds hfail hsame hw.choose_spec.2.2

/-- A turn that issued a pair, after it had dropped some rows. A row is one of the pair, and then
the turn has to account for its claim, or it was there before. -/
theorem of_issued {claim : Claim} {owner : Uuid} {registry : Session.Registry}
    {r : Except Failure Reply} (hcall : t.call? D s = some call)
    (hgives : ¬ call.givesUp s.ledger entry.owner) (hout : t.outcome D s = some r)
    (hr : ∀ failure, r = .error failure →
      (Service.issued (t.occasion D) owner claim registry).1 = .error failure)
    (hnext : (t.next D s).sessions = (Service.issued (t.occasion D) owner claim registry).2)
    (hsub : ∀ row ∈ registry, row ∈ s.sessions) (h : (key, entry) ∈ (t.next D s).sessions)
    (hnew : t.succeeds D s → entry.owner = owner → entry.claim = claim → key ∈ t.minted D →
      Traced D t s key entry) : Traced D t s key entry := by
  have hkeeps := Turn.not_withdraws hcall hgives
  by_cases hbefore : (key, entry) ∈ s.sessions
  · exact .stayed hbefore hkeeps
  · -- The row is new, so the turn did not leave the registry as it was.
    have hdone : t.succeeds D s := by
      cases r with
      | ok reply => exact .inl ⟨reply, hout⟩
      | error failure =>
        rw [Session.crash_of_issue (hr failure rfl)] at hout
        exact .inr ⟨hout, fun hsame => hbefore (hsame ▸ h)⟩
    rw [hnext] at h
    rcases Session.mem_issue h with hrow | ⟨howner, hclaim, hkey⟩
    · exact absurd (hsub _ hrow) hbefore
    · exact hnew hdone howner hclaim hkey

end Traced

/-! ## §4 — each call

Most calls leave the registry as it was. The others are taken one by one, by the ways in which they
can end. -/

section Calls

variable {D : Deployment} {t : Turn} {s : State} {key : Key} {entry : Session.Entry}
  {session : Session}

theorem Claim.ofStatus_ne_verified (status : Option Status) :
    Claim.ofStatus status ≠ .verified := by
  rcases status with _ | _ | _ <;> nofun

/-- A login never gives out a verified session. -/
theorem traced_login {email password : String} {q : Except Failure Session.Tokens}
    (hcall : t.call? D s = some (.login email password))
    (hout : t.outcome D s = some (q.map .login))
    (hends : (Service.login (t.occasion D) email password).Ends (t.facing s) q (t.next D s))
    (h : (key, entry) ∈ (t.next D s).sessions) (hverified : entry.claim = .verified) :
    Traced D t s key entry := by
  cases Service.login_outcome hends with
  | refused hquiet => exact .of_refused hout hquiet.sessions h
  | done _ _ hclaim hb =>
    refine .of_issued hcall id hout (fun _ => map_eq_error.1) hb.sessions_eq
      (fun _ => id) h fun _ _ hrow _ => ?_
    -- The row would say what the record says.
    rw [hverified, hclaim] at hrow
    exact absurd hrow.symm (Claim.ofStatus_ne_verified _)

/-- A refresh renews the token that was presented: its row says the same. A session that was never
verified does not become so by being renewed. -/
theorem traced_refresh {token : String} {q : Except Failure Session.Tokens}
    (hcall : t.call? D s = some (.refresh token))
    (hout : t.outcome D s = some (q.map .tokens))
    (hends : (Service.refresh (t.occasion D) token).Ends (t.facing s) q (t.next D s))
    (h : (key, entry) ∈ (t.next D s).sessions) (hverified : entry.claim = .verified) :
    Traced D t s key entry := by
  obtain ⟨hq, hnext⟩ := Op.ends_onSessions.1 hends
  cases hfound : Session.find? D.primitives .refresh t.now token s.sessions with
  | none =>
    -- The token is not known, or it has expired.
    have hrefused : Session.refresh D.primitives D.sessionLifetimes t.now t.draws.tokens token
        s.sessions = (.error (.refused .unauthorized), s.sessions) := by
      rw [Session.refresh, hfound]
    have hq : q = .error (.refused .unauthorized) := hq.trans (congrArg Prod.fst hrefused)
    subst hq
    have hsame := (congrArg State.sessions hnext).trans (congrArg Prod.snd hrefused)
    exact .of_refused hout hsame h
  | some before =>
    have hissued : Session.refresh D.primitives D.sessionLifetimes t.now t.draws.tokens token
        s.sessions = Service.issued (t.occasion D) before.owner before.claim
          (Session.revokeFamily before.family s.sessions) := by
      rw [Session.refresh, hfound]
      rfl
    have hq : q = _ := hq.trans (congrArg Prod.fst hissued)
    subst hq
    have hsessions := (congrArg State.sessions hnext).trans (congrArg Prod.snd hissued)
    refine .of_issued hcall id hout (fun _ => map_eq_error.1) hsessions
      (fun _ hrow => (List.mem_filter.1 hrow).1) h fun hdone howner hclaim hkey => ?_
    -- The pair has the claim of the token that was presented.
    exact .passed (Session.mem_of_find? hfound) (hclaim ▸ hverified) howner.symm
      (.refresh hcall rfl hdone) hkey (Turn.not_withdraws hcall id)

/-- A deletion leaves no row of its account. -/
theorem traced_deleteAccount {password : String} {q : Except Failure Unit}
    (hcall : t.call? D s = some (.deleteAccount session password))
    (hout : t.outcome D s = some (q.map fun _ => .done))
    (hends : (Service.deleteAccount (t.occasion D) session password).Ends (t.facing s) q
      (t.next D s))
    (h : (key, entry) ∈ (t.next D s).sessions) : Traced D t s key entry := by
  cases Service.deleteAccount_outcome hends with
  | refused hquiet => exact .of_refused hout hquiet.sessions h
  | done _ _ _ _ hb =>
    rw [hb.sessions_eq] at h
    -- The rows that are left are those of other accounts.
    obtain ⟨hrow, howner⟩ := Session.mem_revokeOwner h
    exact .stayed hrow (Turn.not_withdraws hcall fun hgives => howner hgives.symm)

/-- An activation that goes through is a check. -/
theorem traced_activate {code : String} {q : Except Failure Service.Activation}
    (hcall : t.call? D s = some (.activate session code))
    (hout : t.outcome D s = some (q.map .activation))
    (hends : (Service.activate (t.occasion D) session code).Ends (t.facing s) q (t.next D s))
    (h : (key, entry) ∈ (t.next D s).sessions) : Traced D t s key entry := by
  cases Service.activate_outcome hends with
  | refused _ hfaded => exact .of_refused hout hfaded.sessions h
  -- Until the record is on, no session is touched.
  | mistaken _ _ hb => exact .of_refused hout hb.sessions_eq h
  | unwritten _ _ hb => exact .of_refused hout hb.sessions_eq h
  | late _ _ hquiet => exact .of_refused hout hquiet.sessions h
  | done _ _ _ hb =>
    -- The new pair comes from the check.
    exact .of_issued hcall id hout
      (fun _ hfail => map_eq_error.1 (map_eq_error.1 hfail)) hb.sessions_eq
      (fun _ hrow => (Session.mem_revokeOwner hrow).1) h fun hdone howner _ hkey =>
        .checked ⟨_, hcall, howner.symm, hdone⟩ hkey

theorem traced_validate {password code : String} {q : Except Failure Session.Tokens}
    (hcall : t.call? D s = some (.validate session password code))
    (hout : t.outcome D s = some (q.map .tokens))
    (hends : (Service.validate (t.occasion D) session password code).Ends (t.facing s) q
      (t.next D s))
    (h : (key, entry) ∈ (t.next D s).sessions) : Traced D t s key entry := by
  cases Service.validate_outcome hends with
  | refused _ hquiet => exact .of_refused hout hquiet.sessions h
  | lost _ hquiet => exact .of_refused hout hquiet.sessions h
  | mistaken _ _ _ hb => exact .of_refused hout hb.sessions_eq h
  | done _ _ _ hb =>
    exact .of_issued hcall id hout (fun _ => map_eq_error.1) hb.sessions_eq
      (fun _ hrow => (List.mem_filter.1 hrow).1) h fun hdone howner _ hkey =>
        .checked ⟨_, hcall, howner.symm, hdone⟩ hkey

theorem traced_validateBackupCode {code : String} {q : Except Failure Session.Tokens}
    (hcall : t.call? D s = some (.validateBackupCode session code))
    (hout : t.outcome D s = some (q.map .tokens))
    (hends : (Service.validateBackupCode (t.occasion D) session code).Ends (t.facing s) q
      (t.next D s))
    (h : (key, entry) ∈ (t.next D s).sessions) : Traced D t s key entry := by
  cases Service.validateBackupCode_outcome hends with
  | refused hquiet => exact .of_refused hout hquiet.sessions h
  | done _ _ _ _ hb =>
    exact .of_issued hcall id hout (fun _ => map_eq_error.1) hb.sessions_eq
      (fun _ hrow => (List.mem_filter.1 hrow).1) h fun hdone howner _ hkey =>
        .checked ⟨_, hcall, howner.symm, hdone⟩ hkey

/-- A deactivation leaves the account one session, and that is not verified. -/
theorem traced_deactivate {password : String} {q : Except Failure Session.Tokens}
    (hcall : t.call? D s = some (.deactivate session password))
    (hout : t.outcome D s = some (q.map .tokens))
    (hends : (Service.deactivate (t.occasion D) session password).Ends (t.facing s) q
      (t.next D s))
    (h : (key, entry) ∈ (t.next D s).sessions) (hverified : entry.claim = .verified) :
    Traced D t s key entry := by
  cases Service.deactivate_outcome hends with
  | refused hquiet => exact .of_refused hout hquiet.sessions h
  | done _ _ _ _ hb =>
    rw [hb.sessions_eq] at h
    rcases Session.mem_issue h with hrow | ⟨-, hclaim, -⟩
    · obtain ⟨hrow, howner⟩ := Session.mem_revokeOwner hrow
      exact .stayed hrow (Turn.not_withdraws hcall fun hgives => howner hgives.symm)
    · -- The new pair says that there is no second factor.
      rw [hverified] at hclaim
      cases hclaim

/-- The session of a call that comes from outside was read from a token, whose row is there and says
the same. -/
theorem token_of_call (hfrom : t.FromOutside) {call : Call} (hcall : t.call? D s = some call)
    (hsession : call.session? = some session) :
    ∃ r token before, t.act = .request r ∧ r.token? = some token ∧
      Session.find? D.primitives .access t.now token s.sessions = some before ∧
      session = ⟨before.owner, before.claim, before.family⟩ := by
  rcases hfrom with ⟨r, hact⟩ | hact
  · have hcall : Http.call? (t.occasion D) (t.facing s) r = some call := by
      rw [Turn.call?, hact] at hcall
      exact hcall
    have hbearer := Http.session_of_call? hcall hsession
    obtain ⟨token, htoken, hauth⟩ := Option.bind_eq_some_iff.1 hbearer
    obtain ⟨before, hfound, hbefore⟩ := Option.map_eq_some_iff.1 hauth
    exact ⟨r, token, before, hact, htoken, hfound, hbefore.symm⟩
  · -- The upkeep is for nobody.
    rw [Turn.call?, hact] at hcall
    cases hcall
    cases hsession

/-- A change of the password renews the token that the request presented. -/
theorem traced_changePassword (hfrom : t.FromOutside) {current new : String}
    {q : Except Failure Session.Tokens}
    (hcall : t.call? D s = some (.changePassword session current new))
    (hout : t.outcome D s = some (q.map .tokens))
    (hends : (Service.changePassword (t.occasion D) session current new).Ends (t.facing s) q
      (t.next D s))
    (h : (key, entry) ∈ (t.next D s).sessions) (hverified : entry.claim = .verified) :
    Traced D t s key entry := by
  cases Service.changePassword_outcome hends with
  | refused hquiet => exact .of_refused hout hquiet.sessions h
  | done _ _ _ _ _ hb =>
    obtain ⟨r, token, before, hact, htoken, hfound, rfl⟩ := token_of_call hfrom hcall rfl
    -- The pair has the claim of the token that the request was made with.
    exact .of_issued hcall id hout (fun _ => map_eq_error.1) hb.sessions_eq
      (fun _ hrow => (Session.mem_revokeOwner hrow).1) h fun hdone howner hclaim hkey =>
        .passed (Session.mem_of_find? hfound) (hclaim.symm.trans hverified) howner.symm
          (.changePassword hcall hact htoken rfl hdone) hkey (Turn.not_withdraws hcall id)

/-- A recovery leaves no row of its account. -/
theorem traced_recoverPassword {email recoveryKey new : String} {q : Except Failure String}
    (hcall : t.call? D s = some (.recoverPassword email recoveryKey new))
    (hout : t.outcome D s = some (q.map .recoveryKey))
    (hends : (Service.recoverPassword (t.occasion D) email recoveryKey new).Ends (t.facing s) q
      (t.next D s))
    (h : (key, entry) ∈ (t.next D s).sessions) : Traced D t s key entry := by
  cases Service.recoverPassword_outcome hends with
  | refused hquiet => exact .of_refused hout hquiet.sessions h
  | done _ hfound _ _ _ hb =>
    rw [hb.sessions_eq] at h
    obtain ⟨hrow, howner⟩ := Session.mem_revokeOwner h
    refine .stayed hrow (Turn.not_withdraws hcall ?_)
    -- An address is that of one account.
    rintro ⟨account, hother⟩
    have hsame := hother.symm.trans hfound
    cases hsame
    exact howner rfl

end Calls

/-- **The step.** Every row that says *verified* after a turn can be traced: it was there and the
turn gave nothing up, or it comes of a check, or of a renewal. -/
theorem traced {D : Deployment} {t : Turn} {s : State} {key : Key} {entry : Session.Entry}
    (hfrom : t.FromOutside) (h : (key, entry) ∈ (t.next D s).sessions)
    (hverified : entry.claim = .verified) : Traced D t s key entry := by
  rcases t.next_cases D s with ⟨hnone, -, hnext⟩ | ⟨call, r, hcall, hout, hends⟩
  · rw [hnext] at h
    refine .stayed h ?_
    rintro ⟨call, hcall, -⟩
    rw [hnone] at hcall
    cases hcall
  -- The calls that hand out tokens were looked at above. Those that are left enter no row.
  cases call with
  | health =>
    obtain ⟨q, hq, rfl⟩ := Op.ends_map.1 hends
    exact .of_same hcall id (Service.health_ends hq).sessions h
  | register email password =>
    obtain ⟨q, hq, rfl⟩ := Op.ends_map.1 hends
    cases Service.register_outcome hq with
    | refused hquiet => exact .of_refused hout hquiet.sessions h
    | done _ _ _ hb => exact .of_same hcall id hb.sessions_eq h
  | login email password =>
    obtain ⟨q, hq, rfl⟩ := Op.ends_map.1 hends
    exact traced_login hcall hout hq h hverified
  | refresh token =>
    obtain ⟨q, hq, rfl⟩ := Op.ends_map.1 hends
    exact traced_refresh hcall hout hq h hverified
  | logout session =>
    obtain ⟨q, hq, rfl⟩ := Op.ends_map.1 hends
    have hnext := congrArg State.sessions (Op.ends_changeSessions.1 hq).2
    exact .of_subset hcall id (fun row hrow => (List.mem_filter.1 (hnext ▸ hrow)).1) h
  | deleteAccount session password =>
    obtain ⟨q, hq, rfl⟩ := Op.ends_map.1 hends
    exact traced_deleteAccount hcall hout hq h
  | overview session =>
    obtain ⟨q, hq, rfl⟩ := Op.ends_map.1 hends
    exact .of_same hcall id (Service.overview_ends hq).sessions h
  | setup session password =>
    obtain ⟨q, hq, rfl⟩ := Op.ends_map.1 hends
    cases Service.setup_outcome hq with
    | refused hquiet => exact .of_refused hout hquiet.sessions h
    | done _ _ _ _ _ _ _ hb => exact .of_same hcall id hb.sessions_eq h
  | image session name =>
    obtain ⟨q, hq, rfl⟩ := Op.ends_map.1 hends
    exact .of_same hcall id (Service.pendingImage_ends hq).sessions h
  | activate session code =>
    obtain ⟨q, hq, rfl⟩ := Op.ends_map.1 hends
    exact traced_activate hcall hout hq h
  | validate session password code =>
    obtain ⟨q, hq, rfl⟩ := Op.ends_map.1 hends
    exact traced_validate hcall hout hq h
  | validateBackupCode session code =>
    obtain ⟨q, hq, rfl⟩ := Op.ends_map.1 hends
    exact traced_validateBackupCode hcall hout hq h
  | generateBackupCodes session password =>
    obtain ⟨q, hq, rfl⟩ := Op.ends_map.1 hends
    cases Service.generateBackupCodes_outcome hq with
    | refused hquiet => exact .of_refused hout hquiet.sessions h
    | done _ _ _ _ hb => exact .of_same hcall id hb.sessions_eq h
  | deactivate session password =>
    obtain ⟨q, hq, rfl⟩ := Op.ends_map.1 hends
    exact traced_deactivate hcall hout hq h hverified
  | changePassword session current new =>
    obtain ⟨q, hq, rfl⟩ := Op.ends_map.1 hends
    exact traced_changePassword hfrom hcall hout hq h hverified
  | recoverPassword email recoveryKey new =>
    obtain ⟨q, hq, rfl⟩ := Op.ends_map.1 hends
    exact traced_recoverPassword hcall hout hq h
  | purge =>
    obtain ⟨q, hq, rfl⟩ := Op.ends_map.1 hends
    exact .of_subset hcall id (Service.purge_ends hq).2.1 h

end SecondFactor
