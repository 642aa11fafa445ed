import SecondFactor.Proofs.Stores

/-!
# Tokens say what the record says

The claim of a token is written down when the token is handed out, and the record of its account can
change any number of times after that. As long as requests come one at a time and are shown the
record itself, no token that is in use says anything else about the second factor than the record
does: whatever turns a record on or off also ends the tokens that say otherwise, and whatever hands
out tokens takes the claim from the record or from a token that agrees with it.

## The architecture

* **`Ledger.Agrees`** — the invariant: every token in use agrees with the record of its account.
* **`Ledger.Agrees.of_issued`** — the tokens of a new pair agree if their claim does.
* **`agrees_of_ends`** — every call keeps the invariant; **`agrees`** — so it holds in every run.
* **`Session.Sole`** — the tokens of an account are those of one pair; **`Session.sole_of_issue`**.
* **`sessions_agree`** — the invariant in words, and what is left after the calls that end sessions.
-/

namespace SecondFactor

open Service (Call Reply)

/-! ## §1 — the invariant -/

/-- **Every token in use agrees with the record of its account**, whether or not it has expired. -/
def Ledger.Agrees (l : Ledger) (registry : Session.Registry) : Prop :=
  ∀ row ∈ registry, row.2.claim.isUnenrolled = !l.enabled row.2.owner

/-- The session of a call is that of a token in use. -/
def Service.Call.Held (registry : Session.Registry) (call : Call) : Prop :=
  ∀ session, call.session? = some session →
    ∃ row ∈ registry, session = ⟨row.2.owner, row.2.claim, row.2.family⟩

/-- A call that comes from outside is made for a token in use, since its session was read from
one. -/
theorem Service.Call.held_of_fromOutside {D : Deployment} {t : Turn} {s : State} {call : Call}
    (hfrom : t.FromOutside) (hcall : t.call? D s = some call) : call.Held s.sessions := by
  intro session hsession
  obtain ⟨r, token, entry, -, -, hfound, heq⟩ := token_of_call hfrom hcall hsession
  exact ⟨_, Session.mem_of_find? hfound, heq⟩

/-- The claim that a record gives rise to agrees with it. -/
theorem Claim.isUnenrolled_ofStatus (found : Option FactorRecord) :
    (Claim.ofStatus (found.map FactorRecord.status)).isUnenrolled = !found.any (·.enabled) := by
  cases found with
  | none => rfl
  | some row =>
    show (Claim.ofStatus (some (if row.enabled then .on else .off))).isUnenrolled = !row.enabled
    cases row.enabled with
    | true => rfl
    | false => rfl

namespace Ledger.Agrees

variable {l l' : Ledger} {registry : Session.Registry} {owner : Uuid} {claim : Claim}

/-- The frame: there are no more tokens, and the records of those that are left stay on or off. -/
theorem of_kept (h : l.Agrees registry) {left : Session.Registry}
    (hleft : ∀ row ∈ left, row ∈ registry ∧ l'.enabled row.2.owner = l.enabled row.2.owner) :
    l'.Agrees left := by
  intro row hrow
  obtain ⟨hbefore, henabled⟩ := hleft row hrow
  rw [henabled]
  exact h row hbefore

theorem of_enabled (h : l.Agrees registry)
    (henabled : ∀ owner, l'.enabled owner = l.enabled owner) :
    l'.Agrees registry :=
  h.of_kept fun row hrow => ⟨hrow, henabled row.2.owner⟩

theorem revokeFamily (h : l.Agrees registry) (family : Uuid) :
    l.Agrees (Session.revokeFamily family registry) :=
  h.of_kept fun _ hrow => ⟨(List.mem_filter.1 hrow).1, rfl⟩

theorem revokeOwner (h : l.Agrees registry) (owner : Uuid) :
    l.Agrees (Session.revokeOwner owner registry) :=
  h.of_kept fun _ hrow => ⟨(Session.mem_revokeOwner hrow).1, rfl⟩

/-- The record of one account is turned on or off, and the tokens of that account are ended. That is
why both calls which do so end all sessions. -/
theorem of_switched (h : l.Agrees registry) {on : Bool}
    (henabled : ∀ other, l'.enabled other = if other = owner then on else l.enabled other) :
    l'.Agrees (Session.revokeOwner owner registry) := by
  refine h.of_kept fun row hrow => ?_
  obtain ⟨hbefore, hne⟩ := Session.mem_revokeOwner hrow
  refine ⟨hbefore, ?_⟩
  rw [henabled, if_neg hne]

/-- The tokens of a new pair agree if their claim does. -/
theorem of_issued (h : l.Agrees registry) {o : Occasion}
    (hclaim : claim.isUnenrolled = !l.enabled owner) :
    l.Agrees (Service.issued o owner claim registry).2 := by
  intro row hrow
  rcases Session.mem_issue hrow with hrow | ⟨howner, hsame, -⟩
  · exact h row hrow
  · rw [howner, hsame]
    exact hclaim

end Ledger.Agrees

/-! ## §2 — each call -/

section Calls

variable {o : Occasion} {s s' : State} {session : Session}

theorem Ledger.Agrees.of_quiet (hs : s.ledger.Agrees s.sessions) (h : Quiet s s') :
    s'.ledger.Agrees s'.sessions := by
  rw [h.ledger, h.sessions]
  exact hs

theorem Ledger.Agrees.of_faded (hs : s.ledger.Agrees s.sessions) (h : Faded s s') :
    s'.ledger.Agrees s'.sessions := by
  rw [h.ledger, h.sessions]
  exact hs

theorem Ledger.Agrees.of_becomes {l : Ledger} {g : Staging → Staging}
    {f : Session.Registry → Session.Registry} (h : Becomes s l g f s')
    (hs : l.Agrees (f s.sessions)) : s'.ledger.Agrees s'.sessions := by
  rw [h.ledger_eq, h.sessions_eq]
  exact hs

/-- Who logs in is given the claim that the record gives rise to. This needs that the record is
shown as it is. -/
theorem agrees_login (hs : s.ledger.Agrees s.sessions) (hcurrent : s.mishaps.staleRecord = none)
    {email password : String} {r : Except Failure Session.Tokens}
    (h : (Service.login o email password).Ends s r s') : s'.ledger.Agrees s'.sessions := by
  cases Service.login_outcome h with
  | refused hquiet => exact hs.of_quiet hquiet
  | done _ _ hclaim hb =>
    refine .of_becomes hb (hs.of_issued ?_)
    rw [hclaim, State.shown_of_current hcurrent]
    exact Claim.isUnenrolled_ofStatus _

/-- A refresh hands on the claim of a token that agrees. -/
theorem agrees_refresh (hs : s.ledger.Agrees s.sessions) {token : String}
    {r : Except Failure Session.Tokens} (h : (Service.refresh o token).Ends s r s') :
    s'.ledger.Agrees s'.sessions := by
  obtain ⟨-, rfl⟩ := Op.ends_onSessions.1 h
  show s.ledger.Agrees (Session.refresh _ _ _ _ _ _).2
  unfold Session.refresh
  split
  · exact hs
  · -- The claim is that of the token that was presented.
    rename_i entry hfound
    exact (hs.revokeFamily entry.family).of_issued (hs _ (Session.mem_of_find? hfound))

theorem agrees_deleteAccount (hs : s.ledger.Agrees s.sessions) {password : String}
    {r : Except Failure Unit} (h : (Service.deleteAccount o session password).Ends s r s') :
    s'.ledger.Agrees s'.sessions := by
  cases Service.deleteAccount_outcome h with
  | refused hquiet => exact hs.of_quiet hquiet
  | done _ _ _ hl hb =>
    rcases hl with rfl | rfl
    · exact .of_becomes hb (hs.revokeOwner session.owner)
    · exact .of_becomes hb (hs.of_switched fun other => s.ledger.enabled_remove session.owner other)

/-- An activation turns the record on, ends all sessions, and begins one that is verified. -/
theorem agrees_activate (hs : s.ledger.Agrees s.sessions) {code : String}
    {r : Except Failure Service.Activation} (h : (Service.activate o session code).Ends s r s') :
    s'.ledger.Agrees s'.sessions := by
  cases Service.activate_outcome h with
  | refused _ hfaded => exact hs.of_faded hfaded
  | mistaken _ _ hb | unwritten _ _ hb => exact .of_becomes hb hs
  | late _ _ hquiet => exact hs.of_quiet hquiet
  | done _ _ hl hb =>
    have henabled := Ledger.enabled_enable? hl
    refine .of_becomes hb ((hs.of_switched henabled).of_issued ?_)
    rw [henabled, if_pos rfl]
    rfl

/-- A verification is done for a record that is on, and says so. -/
theorem agrees_validate (hs : s.ledger.Agrees s.sessions) {password code : String}
    {r : Except Failure Session.Tokens}
    (h : (Service.validate o session password code).Ends s r s') :
    s'.ledger.Agrees s'.sessions := by
  cases Service.validate_outcome h with
  | refused _ hquiet | lost _ hquiet => exact hs.of_quiet hquiet
  | mistaken _ _ hl hb => exact .of_becomes hb (hs.of_enabled (Ledger.enabled_updateMain? hl))
  | done _ _ hl hb =>
    have henabled := Ledger.enabled_updateMain? hl
    refine .of_becomes hb (((hs.of_enabled henabled).revokeFamily session.family).of_issued ?_)
    -- Only the main copy of a record that is on is written back.
    obtain ⟨row, hrow, hmain, -, -⟩ := Ledger.updateMain?_eq hl
    rw [henabled, Ledger.enabled, hrow]
    obtain ⟨hon, -⟩ := FactorRecord.hasMain_iff.1 hmain
    show false = !row.enabled
    rw [hon]
    rfl

theorem agrees_validateBackupCode (hs : s.ledger.Agrees s.sessions)
    (hcurrent : s.mishaps.staleRecord = none) {code : String} {r : Except Failure Session.Tokens}
    (h : (Service.validateBackupCode o session code).Ends s r s') :
    s'.ledger.Agrees s'.sessions := by
  cases Service.validateBackupCode_outcome h with
  | refused hquiet => exact hs.of_quiet hquiet
  | done _ hshown _ hl hb =>
    have henabled := Ledger.enabled_of_records (Ledger.consumeCode?_eq hl).2
    refine .of_becomes hb (((hs.of_enabled henabled).revokeFamily session.family).of_issued ?_)
    have hon : s.ledger.enabled session.owner = true := State.enabled_of_shown hcurrent hshown
    rw [henabled, hon]
    rfl

/-- A second factor that is turned off leaves one session, which says nothing. -/
theorem agrees_deactivate (hs : s.ledger.Agrees s.sessions) {password : String}
    {r : Except Failure Session.Tokens}
    (h : (Service.deactivate o session password).Ends s r s') : s'.ledger.Agrees s'.sessions := by
  cases Service.deactivate_outcome h with
  | refused hquiet => exact hs.of_quiet hquiet
  | done _ _ _ _ hb =>
    have henabled := fun other => s.ledger.enabled_disable session.owner other o.now
    refine .of_becomes hb ((hs.of_switched henabled).of_issued ?_)
    rw [henabled, if_pos rfl]
    rfl

/-- A change of the password hands on the claim of its session, which agrees because the session was
read from a token in use. -/
theorem agrees_changePassword (hs : s.ledger.Agrees s.sessions) {current new : String}
    (hheld : (Call.changePassword session current new).Held s.sessions)
    {r : Except Failure Session.Tokens}
    (h : (Service.changePassword o session current new).Ends s r s') :
    s'.ledger.Agrees s'.sessions := by
  cases Service.changePassword_outcome h with
  | refused hquiet => exact hs.of_quiet hquiet
  | done _ _ _ _ hl hb =>
    have henabled := Ledger.enabled_changePassword? hl
    refine .of_becomes hb (((hs.of_enabled henabled).revokeOwner session.owner).of_issued ?_)
    -- The claim is that of the token of the caller.
    obtain ⟨row, hrow, hsession⟩ := hheld session rfl
    rw [henabled, hsession]
    exact hs row hrow

theorem agrees_recoverPassword (hs : s.ledger.Agrees s.sessions) {email recoveryKey new : String}
    {r : Except Failure String}
    (h : (Service.recoverPassword o email recoveryKey new).Ends s r s') :
    s'.ledger.Agrees s'.sessions := by
  cases Service.recoverPassword_outcome h with
  | refused hquiet => exact hs.of_quiet hquiet
  | done _ _ _ _ hl hb =>
    exact .of_becomes hb ((hs.of_enabled (Ledger.enabled_recover? hl)).revokeOwner _)

end Calls

/-- **The step.** Every call keeps the tokens agreeing with the records, if it is made for a token
that agrees. -/
theorem agrees_of_ends {o : Occasion} {s s' : State} (hs : s.ledger.Agrees s.sessions)
    (hcurrent : s.mishaps.staleRecord = none) {call : Call} (hheld : call.Held s.sessions)
    {r : Except Failure Reply} (h : (Service.perform o call).Ends s r s') :
    s'.ledger.Agrees s'.sessions := by
  -- The calls that look at a record, or turn one on or off, were looked at above. The others change
  -- neither what is on nor what sessions claim.
  cases call with
  | health =>
    obtain ⟨q, hq, -⟩ := Op.ends_map.1 h
    exact hs.of_faded (Service.health_ends hq)
  | register email password =>
    obtain ⟨q, hq, -⟩ := Op.ends_map.1 h
    cases Service.register_outcome hq with
    | refused hquiet => exact hs.of_quiet hquiet
    | done _ _ _ hb => exact .of_becomes hb hs
  | login email password =>
    obtain ⟨q, hq, -⟩ := Op.ends_map.1 h
    exact agrees_login hs hcurrent hq
  | refresh token =>
    obtain ⟨q, hq, -⟩ := Op.ends_map.1 h
    exact agrees_refresh hs hq
  | logout session =>
    obtain ⟨q, hq, -⟩ := Op.ends_map.1 h
    obtain ⟨-, rfl⟩ := Op.ends_changeSessions.1 hq
    exact hs.revokeFamily session.family
  | deleteAccount session password =>
    obtain ⟨q, hq, -⟩ := Op.ends_map.1 h
    exact agrees_deleteAccount hs hq
  | overview session =>
    obtain ⟨q, hq, -⟩ := Op.ends_map.1 h
    exact hs.of_faded (Service.overview_ends hq)
  | setup session password =>
    obtain ⟨q, hq, -⟩ := Op.ends_map.1 h
    cases Service.setup_outcome hq with
    | refused hquiet => exact hs.of_quiet hquiet
    | done _ _ _ _ _ _ _ hb => exact .of_becomes hb hs
  | image session name =>
    obtain ⟨q, hq, -⟩ := Op.ends_map.1 h
    exact hs.of_faded (Service.pendingImage_ends hq)
  | activate session code =>
    obtain ⟨q, hq, -⟩ := Op.ends_map.1 h
    exact agrees_activate hs hq
  | validate session password code =>
    obtain ⟨q, hq, -⟩ := Op.ends_map.1 h
    exact agrees_validate hs hq
  | validateBackupCode session code =>
    obtain ⟨q, hq, -⟩ := Op.ends_map.1 h
    exact agrees_validateBackupCode hs hcurrent hq
  | generateBackupCodes session password =>
    obtain ⟨q, hq, -⟩ := Op.ends_map.1 h
    cases Service.generateBackupCodes_outcome hq with
    | refused hquiet => exact hs.of_quiet hquiet
    | done _ _ _ _ hb => exact .of_becomes hb hs
  | deactivate session password =>
    obtain ⟨q, hq, -⟩ := Op.ends_map.1 h
    exact agrees_deactivate hs hq
  | changePassword session current new =>
    obtain ⟨q, hq, -⟩ := Op.ends_map.1 h
    exact agrees_changePassword hs hheld hq
  | recoverPassword email recoveryKey new =>
    obtain ⟨q, hq, -⟩ := Op.ends_map.1 h
    exact agrees_recoverPassword hs hq
  | purge =>
    obtain ⟨q, hq, -⟩ := Op.ends_map.1 h
    obtain ⟨hledger, hsessions, -⟩ := Service.purge_ends hq
    rw [hledger]
    exact hs.of_kept fun row hrow => ⟨hsessions row hrow, rfl⟩

/-- **The run.** Every token in use agrees with the record of its account. Induction on the
history. -/
theorem agrees {D : Deployment} {h : History}
    (hrun : h.All fun _ t => t.FromOutside ∧ t.mishaps.staleRecord = none) :
    (h.state D).ledger.Agrees (h.state D).sessions := by
  induction h with
  | start gallery => nofun
  | turn h t ih =>
    obtain ⟨hbefore, hfrom, hcurrent⟩ := hrun
    show (t.next D (h.state D)).ledger.Agrees (t.next D (h.state D)).sessions
    rcases t.next_cases D (h.state D) with ⟨-, -, hnext⟩ | ⟨call, r, hcall, -, hends⟩
    · rw [hnext]
      exact ih hbefore
    · exact agrees_of_ends (s := t.facing (h.state D)) (ih hbefore) hcurrent
        (Call.held_of_fromOutside hfrom hcall) hends

/-! ## §3 — the only pair of an account -/

namespace Session

variable {P : Primitives} {owner : Uuid} {tokens : Tokens} {registry : Registry}

/-- **The tokens of an account are those of one pair.** Should both tokens have one digest, the row
under it is that of the refresh token. -/
structure Sole (P : Primitives) (owner : Uuid) (tokens : Tokens) (registry : Registry) : Prop where
  rows : ∀ row ∈ registry, row.2.owner = owner → row.2.claim = tokens.claim ∧
    (row.1 = digest P tokens.access ∧ row.2.kind = .access ∨
      row.1 = digest P tokens.refresh ∧ row.2.kind = .refresh)
  refresh : ∃ entry, registry.get? (digest P tokens.refresh) = some entry ∧ entry.owner = owner ∧
    entry.kind = .refresh
  access : digest P tokens.access ≠ digest P tokens.refresh →
    ∃ entry, registry.get? (digest P tokens.access) = some entry ∧ entry.owner = owner ∧
      entry.kind = .access

/-- What a pair that is handed out consists of: two rows under the digests of the two texts, of one
account and one family, with the claim that was asked for. -/
theorem issue_eq_ok {lifetimes : Lifetimes} {now : Instant} {draws : Draws} {claim : Claim}
    (h : (issue P lifetimes now draws owner claim registry).1 = .ok tokens) :
    tokens.claim = claim ∧ ∃ expires expires',
      (issue P lifetimes now draws owner claim registry).2 = (registry.put
        (digest P tokens.access) ⟨owner, claim, .access, draws.family, expires⟩).put
        (digest P tokens.refresh) ⟨owner, claim, .refresh, draws.family, expires'⟩ := by
  unfold issue at h ⊢
  dsimp only at h ⊢
  cases haccess : now.after? lifetimes.access with
  | none =>
    rw [haccess] at h
    cases h
  | some expires =>
    rw [haccess] at h
    dsimp only at h ⊢
    cases hrefresh : now.after? lifetimes.refresh with
    | none =>
      rw [hrefresh] at h
      cases h
    | some expires' =>
      rw [hrefresh] at h
      cases h
      exact ⟨rfl, expires, expires', rfl⟩

/-- A pair that is handed out for an account without tokens is its only one: its two rows are there,
and no others. -/
theorem sole_of_issue {lifetimes : Lifetimes} {now : Instant} {draws : Draws} {claim : Claim}
    (hclear : ∀ row ∈ registry, row.2.owner ≠ owner)
    (h : (issue P lifetimes now draws owner claim registry).1 = .ok tokens) :
    Sole P owner tokens (issue P lifetimes now draws owner claim registry).2 ∧
      tokens.claim = claim := by
  obtain ⟨hclaim, expires, expires', hafter⟩ := issue_eq_ok h
  rw [hafter]
  refine ⟨⟨?_, ?_, ?_⟩, hclaim⟩
  · intro row hrow howner
    rcases mem_put hrow with rfl | hrow
    · exact ⟨hclaim.symm, .inr ⟨rfl, rfl⟩⟩
    · rcases mem_put hrow with rfl | hrow
      · exact ⟨hclaim.symm, .inl ⟨rfl, rfl⟩⟩
      · exact absurd howner (hclear row hrow)
  · exact ⟨_, Table.get?_put_self _ _ _, rfl, rfl⟩
  · intro hne
    rw [Table.get?_put_of_ne _ _ hne]
    exact ⟨_, Table.get?_put_self _ _ _, rfl, rfl⟩

end Session

/-- The calls that end all sessions of an account and begin one leave that one as the only one. -/
theorem Service.sole_of_replaced {o : Occasion} {s s' : State} {owner : Uuid} {claim : Claim}
    {tokens : Session.Tokens} {l : Ledger} {g : Staging → Staging}
    (hb : Becomes s l g
      (fun reg => (issued o owner claim (Session.revokeOwner owner reg)).2) s')
    (hok : (issued o owner claim (Session.revokeOwner owner s.sessions)).1 = .ok tokens) :
    Session.Sole o.deployment.primitives owner tokens s'.sessions ∧ tokens.claim = claim := by
  rw [hb.sessions_eq]
  exact Session.sole_of_issue (fun row hrow => (Session.mem_revokeOwner hrow).2) hok

section Calls

variable {o : Occasion} {s s' : State} {session : Session}

/-- An activation that is answered leaves one session, which is verified. -/
theorem sole_of_activate {code : String} {a : Service.Activation}
    (h : (Service.activate o session code).Ends s (.ok a) s') :
    Session.Sole o.deployment.primitives session.owner a.tokens s'.sessions ∧
      a.tokens.claim = .verified := by
  generalize hr : (Except.ok a : Except Failure Service.Activation) = r at h
  cases Service.activate_outcome h with
  | refused | mistaken | unwritten | late => cases hr
  | done _ _ _ hb =>
    obtain ⟨tokens, htokens, rfl⟩ := map_eq_ok.1 hr.symm
    exact Service.sole_of_replaced hb htokens

/-- A deactivation that is answered leaves one session, which says nothing of a second factor. -/
theorem sole_of_deactivate {password : String} {tokens : Session.Tokens}
    (h : (Service.deactivate o session password).Ends s (.ok tokens) s') :
    Session.Sole o.deployment.primitives session.owner tokens s'.sessions ∧
      tokens.claim = .empty := by
  generalize hr : (Except.ok tokens : Except Failure Session.Tokens) = r at h
  cases Service.deactivate_outcome h with
  | refused => cases hr
  | done _ _ _ _ hb => exact Service.sole_of_replaced hb hr.symm

/-- A change of the password that is answered leaves one session, with the claim from before. -/
theorem sole_of_changePassword {current new : String} {tokens : Session.Tokens}
    (h : (Service.changePassword o session current new).Ends s (.ok tokens) s') :
    Session.Sole o.deployment.primitives session.owner tokens s'.sessions ∧
      tokens.claim = session.claim := by
  generalize hr : (Except.ok tokens : Except Failure Session.Tokens) = r at h
  cases Service.changePassword_outcome h with
  | refused => cases hr
  | done _ _ _ _ _ hb => exact Service.sole_of_replaced hb hr.symm

/-- A recovery that is answered leaves no session of the account. -/
theorem none_of_recoverPassword {email recoveryKey new shown : String}
    (h : (Service.recoverPassword o email recoveryKey new).Ends s (.ok shown) s') :
    ∃ owner account, s.ledger.findByEmail? email = some (owner, account) ∧
      ∀ row ∈ s'.sessions, row.2.owner ≠ owner := by
  generalize hr : (Except.ok shown : Except Failure String) = r at h
  cases Service.recoverPassword_outcome h with
  | refused => cases hr
  | done _ hfound _ _ _ hb =>
    refine ⟨_, _, hfound, ?_⟩
    rw [hb.sessions_eq]
    exact fun row hrow => (Session.mem_revokeOwner hrow).2

theorem none_of_deleteAccount {password : String}
    (h : (Service.deleteAccount o session password).Ends s (.ok ()) s') :
    ∀ row ∈ s'.sessions, row.2.owner ≠ session.owner := by
  generalize hr : (Except.ok () : Except Failure Unit) = r at h
  cases Service.deleteAccount_outcome h with
  | refused => cases hr
  | done _ _ _ _ hb =>
    rw [hb.sessions_eq]
    exact fun row hrow => (Session.mem_revokeOwner hrow).2

end Calls

/-! ## §4 — sessions agree with the record -/

theorem Claim.isUnenrolled_iff {claim : Claim} :
    (claim.isUnenrolled = true ↔ claim = .empty ∨ claim = .off) ∧
      (claim.isUnenrolled = false ↔ claim = .on ∨ claim = .verified) := by
  cases claim with
  | empty | off | on | verified => decide

/-- **Sessions agree with the record.** In every run of requests that are shown the record itself,
a token of an account whose second factor is on says *on* or *verified*, and any other token says
that there is none. From whatever state, an activation, a deactivation and a change of the password
leave the account with the pair that they return, which says *verified*, nothing, and what the
session said; a recovery and a deletion leave it without a token. -/
theorem sessions_agree {D : Deployment} {h : History}
    (hrun : h.All fun _ t => t.FromOutside ∧ t.mishaps.staleRecord = none) :
    (∀ row ∈ (h.state D).sessions,
      ((h.state D).enabled row.2.owner = true → row.2.claim = .on ∨ row.2.claim = .verified) ∧
      ((h.state D).enabled row.2.owner = false → row.2.claim = .empty ∨ row.2.claim = .off)) ∧
    ∀ (o : Occasion) (s s' : State) (session : Session),
      (∀ code a, (Service.activate o session code).Ends s (.ok a) s' →
        Session.Sole o.deployment.primitives session.owner a.tokens s'.sessions ∧
          a.tokens.claim = .verified) ∧
      (∀ password tokens, (Service.deactivate o session password).Ends s (.ok tokens) s' →
        Session.Sole o.deployment.primitives session.owner tokens s'.sessions ∧
          tokens.claim = .empty) ∧
      (∀ current new tokens,
        (Service.changePassword o session current new).Ends s (.ok tokens) s' →
        Session.Sole o.deployment.primitives session.owner tokens s'.sessions ∧
          tokens.claim = session.claim) ∧
      (∀ email recoveryKey new shown,
        (Service.recoverPassword o email recoveryKey new).Ends s (.ok shown) s' →
        ∃ owner account, s.ledger.findByEmail? email = some (owner, account) ∧
          ∀ row ∈ s'.sessions, row.2.owner ≠ owner) ∧
      ∀ password, (Service.deleteAccount o session password).Ends s (.ok ()) s' →
        ∀ row ∈ s'.sessions, row.2.owner ≠ session.owner := by
  constructor
  · intro row hrow
    have hagrees := agrees hrun row hrow
    change row.2.claim.isUnenrolled = !(h.state D).enabled row.2.owner at hagrees
    constructor
    · intro hon
      rw [hon] at hagrees
      exact Claim.isUnenrolled_iff.2.1 hagrees
    · intro hoff
      rw [hoff] at hagrees
      exact Claim.isUnenrolled_iff.1.1 hagrees
  · intro o s s' session
    exact ⟨fun _ _ => sole_of_activate, fun _ _ => sole_of_deactivate,
      fun _ _ _ => sole_of_changePassword, fun _ _ _ _ => none_of_recoverPassword,
      fun _ => none_of_deleteAccount⟩

/-! The run in which one account has a second factor and another is about to get one. -/

theorem sessions_agree_sharing :
    ((History.sharing.state .transparent).sessions.length = 4 ∧
      ∀ row ∈ (History.sharing.state .transparent).sessions,
        ((History.sharing.state .transparent).enabled row.2.owner = true →
          row.2.claim = .on ∨ row.2.claim = .verified) ∧
        ((History.sharing.state .transparent).enabled row.2.owner = false →
          row.2.claim = .empty ∨ row.2.claim = .off)) ∧
    ∃ tokens s', (Service.changePassword ⟨.transparent, .ofUnix 300 0, .ofByte 10⟩
        ⟨.ofByte 1, .verified, .ofByte 4⟩ "password" "passw0rd").Ends
          (History.sharing.state .transparent) (.ok tokens) s' ∧
      Session.Sole .transparent (.ofByte 1) tokens s'.sessions ∧ tokens.claim = .verified := by
  have hposting (step : UInt8) (path : String) (login : Option UInt8) (form : String) :
      (Turn.posting step path login form).FromOutside := .inl ⟨_, rfl⟩
  have henrolling : History.enrolling.All fun _ t =>
      t.FromOutside ∧ t.mishaps.staleRecord = none :=
    ⟨⟨⟨⟨trivial, hposting _ _ _ _, rfl⟩, hposting _ _ _ _, rfl⟩, hposting _ _ _ _, rfl⟩,
      hposting _ _ _ _, rfl⟩
  obtain ⟨hrows, hleft⟩ := sessions_agree (D := .transparent) (h := .sharing)
    ⟨⟨⟨⟨⟨henrolling, .inl ⟨_, rfl⟩, rfl⟩, hposting _ _ _ _, rfl⟩, hposting _ _ _ _, rfl⟩,
      hposting _ _ _ _, rfl⟩, hposting _ _ _ _, rfl⟩
  have hfacts : (History.sharing.state .transparent).sessions.length = 4 ∧
      ((Service.changePassword ⟨.transparent, .ofUnix 300 0, .ofByte 10⟩
        ⟨.ofByte 1, .verified, .ofByte 4⟩ "password" "passw0rd").exec
          (History.sharing.state .transparent)).1.toBool = true := by
    decide +kernel
  obtain ⟨hlength, hchanged⟩ := hfacts
  refine ⟨⟨hlength, hrows⟩, ?_⟩
  -- The call is run once and for all; from here on only its end matters.
  generalize hends : (Service.changePassword ⟨.transparent, .ofUnix 300 0, .ofByte 10⟩
    ⟨.ofByte 1, .verified, .ofByte 4⟩ "password" "passw0rd").exec
      (History.sharing.state .transparent) = found at hchanged
  rcases found with ⟨failure | tokens, s'⟩
  · cases hchanged
  · obtain ⟨-, -, hpassword, -⟩ := hleft ⟨.transparent, .ofUnix 300 0, .ofByte 10⟩
      (History.sharing.state .transparent) s' ⟨.ofByte 1, .verified, .ofByte 4⟩
    exact ⟨tokens, s', hends, hpassword _ _ tokens hends⟩

end SecondFactor
