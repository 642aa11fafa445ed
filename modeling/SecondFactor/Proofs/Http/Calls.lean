import SecondFactor.Http.Server
import SecondFactor.Proofs.Results
import SecondFactor.Proofs.Service.Runs

/-!
# Requests as calls

A request does nothing but the one call that it leads to, and a call that is done for somebody
comes with the session of the token that the request presented. What holds of every call therefore
holds of every request.

## The architecture

* **`call?`** — the call that a request leads to in a state.
* **`respond_state`** — the state after a request is the state after that call.
* **`session_of_call?`** — the session of the call is that of the presented token.
-/

namespace SecondFactor

/-- The session for which a call is made. -/
def Service.Call.session? : Service.Call → Option Session
  | .logout session | .deleteAccount session _ | .overview session | .setup session _
  | .image session _ | .activate session _ | .validate session _ _ | .validateBackupCode session _
  | .generateBackupCodes session _ | .deactivate session _ | .changePassword session _ _ =>
    some session
  | .health | .register _ _ | .login _ _ | .refresh _ | .recoverPassword _ _ _ | .purge => none

namespace Http

open Service (Call Reply)

variable (o : Occasion) (s : State) (r : Request)

/-- The session of the token that a request presents. -/
def bearer? : Option Session :=
  r.token?.bind fun token => Session.authenticate? o.deployment.primitives o.now token s.sessions

/-- The call that an endpoint makes of a request, if its session and its form are in order. -/
def Demand.call? : Demand → Option Call
  | .anyone call => call.toOption
  | .member call => (bearer? o s r).bind fun session => (call session).toOption

/-- The call that a request leads to in a state. -/
def call? : Option Call :=
  (Endpoint.ofTarget? r.target).bind fun endpoint =>
    if endpoint.verb.methods.contains r.method then
      (endpoint.demand r o.deployment.policy.digits).call? o s r
    else none

/-- The state after a call, if one is made. -/
def stateAfter (call : Option Call) : State :=
  call.elim s fun call => ((Service.perform o call).exec s).2

variable {o s r}

/-- Whatever is answered, the state is that after the call, or the state before if there is none. -/
theorem carryOut_state (call : Except Refusal Call) :
    ((carryOut o call).exec s).2 = stateAfter o s call.toOption := by
  cases call with
  | error refusal => rfl
  | ok call =>
    obtain ⟨q, hq, -⟩ := Op.ends_map.1 (Op.ends_exec (replyResponse <$> Service.perform o call) s)
    exact (Op.ends_iff.1 hq).2

/-- A call of a member starts with a look for its session, which changes nothing. -/
theorem satisfy_member (call : Session → Except Refusal Call) :
    (satisfy o r (.member call)).exec s = match bearer? o s r with
      | some session => (carryOut o (call session)).exec s
      | none => (.error (.refused .unauthorized), s) := by
  have hsatisfy : satisfy o r (.member call) = Op.require .unauthorized r.token? >>= fun token =>
      Service.sessionOf o token >>= fun session => carryOut o (call session) := rfl
  rw [hsatisfy, Op.exec_bind]
  unfold bearer?
  cases r.token? with
  | none => rfl
  | some token =>
    show ((Service.sessionOf o token) >>= _).exec s = _
    have hsession : (Service.sessionOf o token).exec s = (Op.require .unauthorized
        (Session.authenticate? o.deployment.primitives o.now token s.sessions)).exec s := rfl
    rw [Op.exec_bind, hsession, Option.bind_some]
    cases Session.authenticate? o.deployment.primitives o.now token s.sessions <;> rfl

theorem satisfy_state (demand : Demand) :
    ((satisfy o r demand).exec s).2 = stateAfter o s (demand.call? o s r) := by
  cases demand with
  | anyone call => exact carryOut_state call
  | member call =>
    rw [satisfy_member]
    unfold Demand.call?
    cases bearer? o s r with
    | none => rfl
    | some session => exact carryOut_state (call session)

/-- **A request does what its call does**, and nothing if it leads to none. So a statement about
states needs to look at calls only. -/
theorem respond_state (o : Occasion) (s : State) (r : Request) :
    ((respond o r).run s).2 = stateAfter o s (call? o s r) := by
  unfold call? respond
  cases Endpoint.ofTarget? r.target with
  | none => rfl
  | some endpoint =>
    rw [Option.bind_some]
    by_cases hmethod : endpoint.verb.methods.contains r.method = true
    · have hstate := satisfy_state (o := o) (s := s) (r := r)
        (endpoint.demand r o.deployment.policy.digits)
      simp only [hmethod, if_true]
      exact hstate
    · simp only [hmethod]
      rfl

/-! ## Sessions of calls -/

/-- A call that anyone may make is made for nobody, and any other for the session that it gets. One
case for each endpoint, and the only walk through them that is needed. -/
theorem session_of_demand (endpoint : Endpoint) (r : Request) (digits : Nat) :
    match endpoint.demand r digits with
    | .anyone call => ∀ c, call = .ok c → c.session? = none
    | .member call => ∀ session c, call session = .ok c → c.session? = some session := by
  -- The endpoints differ in how many things they read and check first. Each of these may fail, and
  -- then there is no call to speak of.
  cases endpoint with
  | health =>
    intro c h
    cases h
    rfl
  | register | login =>
    intro c h
    obtain ⟨_, -, h⟩ := bind_eq_ok.1 h
    obtain ⟨_, -, h⟩ := bind_eq_ok.1 h
    cases h
    rfl
  | refreshToken =>
    intro c h
    obtain ⟨_, -, h⟩ := bind_eq_ok.1 h
    obtain ⟨_, -, h⟩ := bind_eq_ok.1 h
    cases h
    rfl
  | logout | status =>
    intro session c h
    cases h
    rfl
  | deleteAccount | setup | backupCodes | deactivate =>
    intro session c h
    obtain ⟨_, -, h⟩ := map_eq_ok.1 h
    cases h
    rfl
  | image segment =>
    intro session c h
    dsimp only at h
    split at h
    · cases h
    · cases h
      rfl
  | activate | validateBackupCode =>
    intro session c h
    obtain ⟨_, -, h⟩ := bind_eq_ok.1 h
    obtain ⟨_, -, h⟩ := bind_eq_ok.1 h
    cases h
    rfl
  | validate | changePassword =>
    intro session c h
    obtain ⟨_, -, h⟩ := bind_eq_ok.1 h
    obtain ⟨_, -, h⟩ := bind_eq_ok.1 h
    obtain ⟨_, -, h⟩ := bind_eq_ok.1 h
    cases h
    rfl
  | recoverPassword =>
    intro c h
    obtain ⟨_, -, h⟩ := bind_eq_ok.1 h
    obtain ⟨_, -, h⟩ := bind_eq_ok.1 h
    obtain ⟨_, -, h⟩ := bind_eq_ok.1 h
    cases h
    rfl

/-- **The session of a call is that of the token that the request presented.** No endpoint makes a
call in the name of somebody else. -/
theorem session_of_call? {call : Call} {session : Session} (h : call? o s r = some call)
    (hsession : call.session? = some session) : bearer? o s r = some session := by
  obtain ⟨endpoint, -, h⟩ := Option.bind_eq_some_iff.1 h
  have hdemand := session_of_demand endpoint r o.deployment.policy.digits
  split at h
  · cases hd : endpoint.demand r o.deployment.policy.digits with
    -- A call that anyone may make carries no session.
    | anyone c =>
      rw [hd] at h hdemand
      have hc : c = .ok call := by
        cases c with
        | ok c => exact congrArg Except.ok (Option.some.inj h)
        | error refusal => cases h
      rw [hdemand call hc] at hsession
      cases hsession
    | member f =>
      rw [hd] at h hdemand
      obtain ⟨bearer, hbearer, h⟩ := Option.bind_eq_some_iff.1 h
      have hc : f bearer = .ok call := by
        cases hf : f bearer with
        | ok c =>
          rw [hf] at h
          exact congrArg Except.ok (Option.some.inj h)
        | error refusal =>
          rw [hf] at h
          cases h
      rw [hdemand bearer call hc] at hsession
      rw [hbearer, hsession]
  · cases h

end Http

end SecondFactor
