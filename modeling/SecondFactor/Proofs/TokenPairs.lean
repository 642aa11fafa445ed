import SecondFactor.Proofs.Agreement
import SecondFactor.Proofs.Marks

/-!
# Pairs of tokens

A token is a row of the registry, and a row comes in only with the pair that a turn hands out. What
a turn does with rows is settled here once, by a walk through the calls: it drops some of those that
it finds, and perhaps enters a pair.

## The architecture

* **`row_of_issue`**, **`texts_of_issue`** — the rows of a pair, and the texts that are handed out.
* **`Turn.Enters`** — the rows of the pair that a turn hands out; **`Turn.Revokes`** — the tokens
  that a turn puts an end to.
* **`Turn.Redeems`**, **`Turn.Denies`** — a refresh token is presented, and a token is worth
  nothing.
* **`Registered`** and **`registered`** — the step: a turn leaves the rows that it does not revoke,
  and perhaps enters a pair.
-/

namespace SecondFactor

open Service (Call Reply)

/-! ## §1 — rows of a new pair -/

namespace Session

/-- How long a token lasts, in seconds. -/
def Lifetimes.of (l : Lifetimes) : Kind → Int
  | .access => l.access
  | .refresh => l.refresh

/-- The text of a token of a new pair. -/
def Draws.text (d : Draws) : Kind → String
  | .access => tokenText d.access
  | .refresh => tokenText d.refresh

variable {P : Primitives} {lifetimes : Lifetimes} {now : Instant} {draws : Draws} {owner : Uuid}
  {claim : Claim} {registry : Registry}

/-- A row after a pair was issued was there before, or it is that of one of the two tokens. The
lemmas on revoked tokens need to know which. -/
theorem row_of_issue {row : Key × Entry}
    (h : row ∈ (issue P lifetimes now draws owner claim registry).2) :
    row ∈ registry ∨ ∃ kind expires, now.after? (lifetimes.of kind) = some expires ∧
      row = (digest P (draws.text kind), ⟨owner, claim, kind, draws.family, expires⟩) := by
  unfold issue at h
  dsimp only at h
  split at h
  · exact .inl h
  · rename_i expires hexpires
    split at h
    · rcases mem_put h with rfl | h
      · exact .inr ⟨.access, expires, hexpires, rfl⟩
      · exact .inl h
    · rename_i expires' hexpires'
      rcases mem_put h with rfl | h
      · exact .inr ⟨.refresh, expires', hexpires', rfl⟩
      · rcases mem_put h with rfl | h
        · exact .inr ⟨.access, expires, hexpires, rfl⟩
        · exact .inl h

/-- The texts that are handed out are those that were drawn. -/
theorem texts_of_issue {tokens : Tokens}
    (h : (issue P lifetimes now draws owner claim registry).1 = .ok tokens) :
    tokens.access = draws.text .access ∧ tokens.refresh = draws.text .refresh := by
  unfold issue at h
  dsimp only at h
  split at h
  · cases h
  · split at h
    · cases h
    · cases h
      exact ⟨rfl, rfl⟩

/-- A token whose rows have all expired is not found, whatever kind is asked for. -/
theorem find?_eq_none_of_expired {kind : Kind} {token : String}
    (h : ∀ entry, (digest P token, entry) ∈ registry → entry.expires ≤ now) :
    find? P kind now token registry = none := by
  cases hfound : find? P kind now token registry with
  | none => rfl
  | some entry =>
    have hlasts := (Option.filter_eq_some_iff.1 hfound).2
    rw [decide_eq_true (h entry (mem_of_find? hfound))] at hlasts
    simp at hlasts

/-- A refresh issues a pair for the account and with the claim of the token that it finds. -/
theorem refresh_of_found {token : String} {entry : Entry}
    (h : find? P .refresh now token registry = some entry) :
    refresh P lifetimes now draws token registry =
      issue P lifetimes now draws entry.owner entry.claim (revokeFamily entry.family registry) := by
  rw [refresh, h]

theorem refresh_of_none {token : String} (h : find? P .refresh now token registry = none) :
    refresh P lifetimes now draws token registry = (.error (.refused .unauthorized), registry) := by
  rw [refresh, h]

/-- What is found is of the kind that was asked for. An access token is no use where a refresh token
is asked for. -/
theorem kind_of_find? {kind : Kind} {token : String} {entry : Entry}
    (h : find? P kind now token registry = some entry) : entry.kind = kind := by
  have hkind := (Option.filter_eq_some_iff.1 h).2
  rw [Bool.and_eq_true, beq_iff_eq] at hkind
  exact hkind.1

end Session

/-! ## §2 — one turn -/

/-- The tokens that a call puts an end to when it is done: those of a family, or all of an
account. -/
def Service.Call.Revokes (P : Primitives) (now : Instant) (s : State) (entry : Session.Entry) :
    Call → Prop
  | .logout session | .validate session _ _ | .validateBackupCode session _ =>
    entry.family = session.family
  | .refresh token => ∃ found,
    Session.find? P .refresh now token s.sessions = some found ∧ entry.family = found.family
  | .activate session _ | .deactivate session _ | .changePassword session _ _
  | .deleteAccount session _ => entry.owner = session.owner
  | .recoverPassword email _ _ =>
    ∃ account, s.ledger.findByEmail? email = some (entry.owner, account)
  | .health | .register _ _ | .login _ _ | .overview _ | .setup _ _ | .image _ _
  | .generateBackupCodes _ _ | .purge => False

namespace Turn

variable (D : Deployment) (t : Turn) (s : State)

/-- The key of a token of the pair that the turn may hand out. -/
def key (kind : Session.Kind) : Key := Session.digest D.primitives (t.draws.tokens.text kind)

/-- The row is that of a token of the pair that the turn hands out. -/
structure Enters (row : Key × Session.Entry) : Prop where
  key : row.1 = t.key D row.2.kind
  family : row.2.family = t.draws.tokens.family
  expires : t.now.after? (D.sessionLifetimes.of row.2.kind) = some row.2.expires

/-- The turn puts an end to the token of an entry. -/
def Revokes (entry : Session.Entry) : Prop :=
  ∃ call, t.call? D s = some call ∧ call.Revokes D.primitives t.now s entry ∧ t.succeeds D s

/-- The turn revokes the pair of a family. -/
def RevokesPair (family : Uuid) : Prop :=
  ∃ row ∈ s.sessions, row.2.family = family ∧ t.Revokes D s row.2

/-- The token of a kind that the turn handed out has expired by some time. -/
def Outlived (kind : Session.Kind) (now : Instant) : Prop :=
  ∃ expires, t.now.after? (D.sessionLifetimes.of kind) = some expires ∧ expires ≤ now

/-- The turn takes a refresh token in payment. -/
def Redeems (token : String) : Prop :=
  t.call? D s = some (.refresh token) ∧
    (Session.find? D.primitives .refresh t.now token s.sessions).isSome = true

/-- Nothing is to be had in the turn for the token under a key: a request that presents it is made
for nobody, and no pair is handed out for it. -/
structure Denies (key : Key) : Prop where
  bearer : ∀ r token, t.act = .request r → r.token? = some token →
    Session.digest D.primitives token = key → Http.bearer? (t.occasion D) (t.facing s) r = none
  refresh : ∀ token, t.call? D s = some (.refresh token) →
    Session.digest D.primitives token = key →
      t.outcome D s = some (.error (.refused .unauthorized)) ∧ t.next D s = t.facing s

variable {D t s}

theorem key_mem_minted (kind : Session.Kind) : t.key D kind ∈ t.minted D := by
  cases kind with
  | access => exact List.mem_cons_self
  | refresh => exact List.mem_cons_of_mem _ List.mem_cons_self

/-- What a turn revokes depends on the account and the family of a token only. -/
theorem Revokes.congr {entry other : Session.Entry} (h : t.Revokes D s entry)
    (howner : other.owner = entry.owner) (hfamily : other.family = entry.family) :
    t.Revokes D s other := by
  obtain ⟨call, hcall, hrevokes, hdone⟩ := h
  refine ⟨call, hcall, ?_, hdone⟩
  cases call with
  | logout | validate | validateBackupCode => exact hfamily.trans hrevokes
  | refresh token =>
    obtain ⟨found, hfound, hsame⟩ := hrevokes
    exact ⟨found, hfound, hfamily.trans hsame⟩
  | activate | deactivate | changePassword | deleteAccount => exact howner.trans hrevokes
  | recoverPassword email recoveryKey new =>
    obtain ⟨account, hfound⟩ := hrevokes
    exact ⟨account, howner ▸ hfound⟩
  | _ => exact hrevokes

/-- A call that puts no end to a token does not revoke it, whether it is done or not. -/
theorem not_revokes {call : Call} {entry : Session.Entry} (hcall : t.call? D s = some call)
    (h : ¬ call.Revokes D.primitives t.now s entry) : ¬ t.Revokes D s entry := by
  rintro ⟨other, hother, hrevokes, -⟩
  rw [hcall] at hother
  cases hother
  exact h hrevokes

/-- A turn in which a pair is asked for does what the registry makes of it. -/
theorem ends_of_refresh {token : String} (hcall : t.call? D s = some (.refresh token)) :
    t.outcome D s = some ((Session.refresh D.primitives D.sessionLifetimes t.now t.draws.tokens
        token s.sessions).1.map .tokens) ∧
      t.next D s = { t.facing s with sessions := (Session.refresh D.primitives D.sessionLifetimes
        t.now t.draws.tokens token s.sessions).2 } := by
  obtain ⟨r, hout, hends⟩ := t.ends_of_call hcall
  obtain ⟨q, hq, rfl⟩ := Op.ends_map.1 hends
  obtain ⟨rfl, hnext⟩ := Op.ends_onSessions.1 hq
  exact ⟨hout, hnext⟩

/-- A token of which every row has expired is worth nothing, and neither is one without a row. So
tokens that were revoked and tokens that ran out need not be told apart. -/
theorem Denies.of_expired {key : Key}
    (h : ∀ entry, (key, entry) ∈ s.sessions → entry.expires ≤ t.now) : t.Denies D s key where
  bearer r token hact htoken hkey := by
    have hnone : Session.find? D.primitives .access t.now token s.sessions = none :=
      Session.find?_eq_none_of_expired (hkey ▸ h)
    show r.token?.bind (fun token =>
      (Session.find? D.primitives .access t.now token s.sessions).map _) = none
    rw [htoken, Option.bind_some, hnone]
    rfl
  refresh token hcall hkey := by
    have hnone : Session.find? D.primitives .refresh t.now token s.sessions = none :=
      Session.find?_eq_none_of_expired (hkey ▸ h)
    obtain ⟨hout, hnext⟩ := ends_of_refresh hcall
    rw [Session.refresh_of_none hnone] at hout hnext
    exact ⟨hout, hnext⟩

end Turn

/-- What a turn does to the registry: it leaves some rows, none of which it revokes, and may enter
a pair beside them. -/
inductive Registered (D : Deployment) (t : Turn) (s : State) : Prop where
  | left (hrows : ∀ row ∈ (t.next D s).sessions, row ∈ s.sessions ∧ ¬ t.Revokes D s row.2)
  | entered {owner : Uuid} {claim : Claim} {registry : Session.Registry}
      (hrows : ∀ row ∈ registry, row ∈ s.sessions ∧ ¬ t.Revokes D s row.2)
      (hnext : (t.next D s).sessions = (Service.issued (t.occasion D) owner claim registry).2)

namespace Registered

variable {D : Deployment} {t : Turn} {s : State} {call : Call}

theorem of_refused {failure : Failure} (hfail : t.outcome D s = some (.error failure))
    (hsame : (t.next D s).sessions = s.sessions) : Registered D t s := by
  refine .left fun row hrow => ⟨hsame ▸ hrow, ?_⟩
  rintro ⟨-, -, -, hdone⟩
  exact Turn.not_succeeds hfail hsame hdone

theorem of_left (hcall : t.call? D s = some call)
    (hrows : ∀ row ∈ (t.next D s).sessions,
      row ∈ s.sessions ∧ ¬ call.Revokes D.primitives t.now s row.2) : Registered D t s :=
  .left fun row hrow => ⟨(hrows row hrow).1, Turn.not_revokes hcall (hrows row hrow).2⟩

theorem of_same (hcall : t.call? D s = some call)
    (hnone : ∀ entry, ¬ call.Revokes D.primitives t.now s entry)
    (hsame : (t.next D s).sessions = s.sessions) : Registered D t s :=
  of_left hcall fun row hrow => ⟨hsame ▸ hrow, hnone row.2⟩

/-- A call that enters a pair into what it leaves of the rows. -/
theorem of_entered {owner : Uuid} {claim : Claim} {registry : Session.Registry}
    (hcall : t.call? D s = some call)
    (hnext : (t.next D s).sessions = (Service.issued (t.occasion D) owner claim registry).2)
    (hrows : ∀ row ∈ registry, row ∈ s.sessions ∧ ¬ call.Revokes D.primitives t.now s row.2) :
    Registered D t s :=
  .entered (fun row hrow => ⟨(hrows row hrow).1, Turn.not_revokes hcall (hrows row hrow).2⟩) hnext

end Registered

theorem Session.mem_revokeFamily {family : Uuid} {registry : Session.Registry}
    {row : Key × Session.Entry} :
    row ∈ Session.revokeFamily family registry ↔ row ∈ registry ∧ row.2.family ≠ family := by
  rw [Session.revokeFamily, Table.keep, List.mem_filter, decide_eq_true_iff]

section Calls

variable {D : Deployment} {t : Turn} {s : State} {session : Session}

/-- A refresh puts an end to the family of the token it finds, and enters a pair. Whether the pair
can be dated is of no concern to the family. -/
theorem registered_refresh {token : String} (hcall : t.call? D s = some (.refresh token)) :
    Registered D t s := by
  have hsessions := congrArg State.sessions (Turn.ends_of_refresh hcall).2
  cases hfound : Session.find? D.primitives .refresh t.now token s.sessions with
  | none =>
    rw [Session.refresh_of_none hfound] at hsessions
    refine .of_left hcall fun row hrow => ⟨by rwa [hsessions] at hrow, ?_⟩
    rintro ⟨found, hother, -⟩
    cases hfound.symm.trans hother
  | some found =>
    rw [Session.refresh_of_found hfound] at hsessions
    refine .of_entered hcall hsessions fun row hrow => ?_
    obtain ⟨hbefore, hne⟩ := Session.mem_revokeFamily.1 hrow
    refine ⟨hbefore, ?_⟩
    rintro ⟨other, hother, hsame⟩
    cases hfound.symm.trans hother
    exact hne hsame

/-- An activation ends all sessions of the account. If the code is wrong, it ends none. -/
theorem registered_activate {code : String} {q : Except Failure Service.Activation}
    (hcall : t.call? D s = some (.activate session code))
    (hout : t.outcome D s = some (q.map .activation))
    (hends : (Service.activate (t.occasion D) session code).Ends (t.facing s) q (t.next D s)) :
    Registered D t s := by
  cases Service.activate_outcome hends with
  | refused _ hfaded => exact .of_refused hout hfaded.sessions
  | mistaken _ _ hb | unwritten _ _ hb => exact .of_refused hout hb.sessions_eq
  | late _ _ hquiet => exact .of_refused hout hquiet.sessions
  | done _ _ _ hb => exact .of_entered hcall hb.sessions_eq fun _ => Session.mem_revokeOwner

/-- A verification ends the family of its session. A wrong code ends none, though it is counted. -/
theorem registered_validate {password code : String} {q : Except Failure Session.Tokens}
    (hcall : t.call? D s = some (.validate session password code))
    (hout : t.outcome D s = some (q.map .tokens))
    (hends : (Service.validate (t.occasion D) session password code).Ends (t.facing s) q
      (t.next D s)) : Registered D t s := by
  cases Service.validate_outcome hends with
  | refused _ hquiet | lost _ hquiet => exact .of_refused hout hquiet.sessions
  | mistaken _ _ _ hb => exact .of_refused hout hb.sessions_eq
  | done _ _ _ hb => exact .of_entered hcall hb.sessions_eq fun _ => Session.mem_revokeFamily.1

/-- A recovery ends all sessions of the account that it finds by its address, and enters none. -/
theorem registered_recoverPassword {email recoveryKey new : String} {q : Except Failure String}
    (hcall : t.call? D s = some (.recoverPassword email recoveryKey new))
    (hout : t.outcome D s = some (q.map .recoveryKey))
    (hends : (Service.recoverPassword (t.occasion D) email recoveryKey new).Ends (t.facing s) q
      (t.next D s)) : Registered D t s := by
  cases Service.recoverPassword_outcome hends with
  | refused hquiet => exact .of_refused hout hquiet.sessions
  | done _ hfound _ _ _ hb =>
    refine .of_left hcall fun row hrow => ?_
    rw [hb.sessions_eq] at hrow
    obtain ⟨hbefore, hne⟩ := Session.mem_revokeOwner hrow
    refine ⟨hbefore, ?_⟩
    -- An address is that of one account.
    rintro ⟨account, hother⟩
    have hsame := hother.symm.trans hfound
    cases hsame
    exact hne rfl

end Calls

/-- **The step.** A turn leaves rows that it does not revoke, and may enter a pair. Every call goes
one of these two ways. -/
theorem registered (D : Deployment) (t : Turn) (s : State) : Registered D t s := by
  rcases t.next_cases D s with ⟨hnone, -, hnext⟩ | ⟨call, r, hcall, hout, hends⟩
  · refine .left fun row hrow => ⟨by rwa [hnext] at hrow, ?_⟩
    rintro ⟨call, hcall, -⟩
    cases hnone.symm.trans hcall
  -- A call enters the pair that it hands out, revokes the family of its session or all tokens of
  -- its account, or leaves the tokens.
  cases call with
  | health =>
    obtain ⟨q, hq, rfl⟩ := Op.ends_map.1 hends
    exact .of_same hcall (fun _ => id) (Service.health_ends hq).sessions
  | register email password =>
    obtain ⟨q, hq, rfl⟩ := Op.ends_map.1 hends
    cases Service.register_outcome hq with
    | refused hquiet => exact .of_refused hout hquiet.sessions
    | done _ _ _ hb => exact .of_same hcall (fun _ => id) hb.sessions_eq
  | login email password =>
    obtain ⟨q, hq, rfl⟩ := Op.ends_map.1 hends
    cases Service.login_outcome hq with
    | refused hquiet => exact .of_refused hout hquiet.sessions
    | done _ _ _ hb => exact .of_entered hcall hb.sessions_eq fun _ hrow => ⟨hrow, id⟩
  | refresh token =>
    exact registered_refresh hcall
  | logout session =>
    obtain ⟨q, hq, rfl⟩ := Op.ends_map.1 hends
    have hnext : (t.next D s).sessions = Session.revokeFamily session.family s.sessions :=
      congrArg State.sessions (Op.ends_changeSessions.1 hq).2
    exact .of_left hcall fun row hrow => Session.mem_revokeFamily.1 (hnext ▸ hrow)
  | deleteAccount session password =>
    obtain ⟨q, hq, rfl⟩ := Op.ends_map.1 hends
    cases Service.deleteAccount_outcome hq with
    | refused hquiet => exact .of_refused hout hquiet.sessions
    | done _ _ _ _ hb =>
      exact .of_left hcall fun row hrow => Session.mem_revokeOwner (hb.sessions_eq ▸ hrow)
  | overview session =>
    obtain ⟨q, hq, rfl⟩ := Op.ends_map.1 hends
    exact .of_same hcall (fun _ => id) (Service.overview_ends hq).sessions
  | setup session password =>
    obtain ⟨q, hq, rfl⟩ := Op.ends_map.1 hends
    cases Service.setup_outcome hq with
    | refused hquiet => exact .of_refused hout hquiet.sessions
    | done _ _ _ _ _ _ _ hb => exact .of_same hcall (fun _ => id) hb.sessions_eq
  | image session name =>
    obtain ⟨q, hq, rfl⟩ := Op.ends_map.1 hends
    exact .of_same hcall (fun _ => id) (Service.pendingImage_ends hq).sessions
  | activate session code =>
    obtain ⟨q, hq, rfl⟩ := Op.ends_map.1 hends
    exact registered_activate hcall hout hq
  | validate session password code =>
    obtain ⟨q, hq, rfl⟩ := Op.ends_map.1 hends
    exact registered_validate hcall hout hq
  | validateBackupCode session code =>
    obtain ⟨q, hq, rfl⟩ := Op.ends_map.1 hends
    cases Service.validateBackupCode_outcome hq with
    | refused hquiet => exact .of_refused hout hquiet.sessions
    | done _ _ _ _ hb => exact .of_entered hcall hb.sessions_eq fun _ => Session.mem_revokeFamily.1
  | generateBackupCodes session password =>
    obtain ⟨q, hq, rfl⟩ := Op.ends_map.1 hends
    cases Service.generateBackupCodes_outcome hq with
    | refused hquiet => exact .of_refused hout hquiet.sessions
    | done _ _ _ _ hb => exact .of_same hcall (fun _ => id) hb.sessions_eq
  | deactivate session password =>
    obtain ⟨q, hq, rfl⟩ := Op.ends_map.1 hends
    cases Service.deactivate_outcome hq with
    | refused hquiet => exact .of_refused hout hquiet.sessions
    | done _ _ _ _ hb => exact .of_entered hcall hb.sessions_eq fun _ => Session.mem_revokeOwner
  | changePassword session current new =>
    obtain ⟨q, hq, rfl⟩ := Op.ends_map.1 hends
    cases Service.changePassword_outcome hq with
    | refused hquiet => exact .of_refused hout hquiet.sessions
    | done _ _ _ _ _ hb => exact .of_entered hcall hb.sessions_eq fun _ => Session.mem_revokeOwner
  | recoverPassword email recoveryKey new =>
    obtain ⟨q, hq, rfl⟩ := Op.ends_map.1 hends
    exact registered_recoverPassword hcall hout hq
  | purge =>
    obtain ⟨q, hq, rfl⟩ := Op.ends_map.1 hends
    exact .of_left hcall fun row hrow => ⟨(Service.purge_ends hq).2.1 row hrow, id⟩

end SecondFactor
