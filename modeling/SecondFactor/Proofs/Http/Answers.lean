import SecondFactor.Proofs.History
import SecondFactor.Proofs.Service.Steady

/-!
# What a turn is answered

A request is answered by what its call ends with, in the form of its endpoint; or it leads to no
call and is answered by what it looks like, and by whether its token is worth anything. So two
states in which a request has the same session, and its call the same end, give it the same answer.

## The architecture

* **`Http.shown`** — the response to a request whose call ended with a result.
* **`respond_of_call`**, **`respond_congr`** — the response by what the call ends with.
* **`respond_anyone`** — the response of an endpoint that asks for no session.
* **`Turn.answer`** — what a turn is answered; **`Turn.parallel`** — the same, if the same call is
  made and ends in the same way.
-/

namespace SecondFactor

open Service (Call Reply)

namespace Http

variable {o : Occasion} {s t : State} {r : Request}

/-- The form of an answer to a request, which for a question about headers has no content. -/
def finish (r : Request) (response : Option Response) : Option Response :=
  if r.method = "HEAD" then response.map .stripped else response

theorem finish_of_post (h : r.method = "POST") (response : Option Response) :
    finish r response = response :=
  if_neg (by rw [h]; decide)

/-- The response to a request whose call ended with a result. -/
def shown (o : Occasion) (r : Request) (result : Except Failure Reply) : Option Response :=
  finish r (settle o (result.map replyResponse))

/-- What an operation on the responses ends with for a demand. -/
def Demand.result (o : Occasion) (s : State) (r : Request) (demand : Demand) :
    Except Failure Response :=
  ((satisfy o r demand).exec s).1

/-- The way of a request in one equation: the path is looked up, then the method, and then the
endpoint says what it asks for. -/
theorem respond_eq (o : Occasion) (s : State) (r : Request) : ((respond o r).run s).1 =
    match Endpoint.ofTarget? r.target with
    | none => some .unknownPath
    | some endpoint =>
      if endpoint.verb.methods.contains r.method then
        finish r (settle o ((endpoint.demand r o.deployment.policy.digits).result o s r))
      else some (.wrongMethod (String.intercalate "," endpoint.verb.methods)) := by
  unfold respond
  cases Endpoint.ofTarget? r.target with
  | none => rfl
  | some endpoint =>
    dsimp only
    by_cases hmethod : endpoint.verb.methods.contains r.method = true
    · simp only [hmethod, if_true]
      rfl
    · simp only [hmethod]
      rfl

/-- A call that is carried out ends in a reply; a form that is turned away ends in its refusal,
without a call. -/
theorem carryOut_result (call : Except Refusal Call) : ((carryOut o call).exec s).1 =
    match call with
    | .ok c => ((Service.perform o c).exec s).1.map replyResponse
    | .error refusal => .ok (refusal.response o.draws.reference) := by
  cases call with
  | error refusal => rfl
  | ok c =>
    obtain ⟨q, hq, hr⟩ := Op.ends_map.1 (Op.ends_exec (replyResponse <$> Service.perform o c) s)
    rw [(Op.ends_iff.1 hq).1] at hr
    exact hr

/-- An endpoint that asks for no session looks at nothing before its call is made. -/
theorem result_anyone (call : Except Refusal Call) : (Demand.anyone call).result o s r =
    match call with
    | .ok c => ((Service.perform o c).exec s).1.map replyResponse
    | .error refusal => .ok (refusal.response o.draws.reference) :=
  carryOut_result call

/-- An endpoint that asks for a session looks at that first. Without one, the form is not read. -/
theorem result_member (call : Session → Except Refusal Call) : (Demand.member call).result o s r =
    match bearer? o s r with
    | none => .error (.refused .unauthorized)
    | some session => match call session with
      | .ok c => ((Service.perform o c).exec s).1.map replyResponse
      | .error refusal => .ok (refusal.response o.draws.reference) := by
  unfold Demand.result
  rw [satisfy_member]
  cases bearer? o s r with
  | none => rfl
  | some session => exact carryOut_result (call session)

/-- **A request is answered by what its call ends with.** Everything that is shown of a call can be
carried over to the request that made it. -/
theorem respond_of_call {c : Call} (h : call? o s r = some c) :
    ((respond o r).run s).1 = shown o r ((Service.perform o c).exec s).1 := by
  obtain ⟨endpoint, htarget, h⟩ := Option.bind_eq_some_iff.1 h
  rw [respond_eq, htarget]
  dsimp only
  split at h
  · rename_i hmethod
    rw [if_pos hmethod]
    unfold shown
    congr 2
    -- Either the endpoint makes the call for anyone, or for the session that the request presented.
    cases hdemand : endpoint.demand r o.deployment.policy.digits with
    | anyone call =>
      rw [hdemand] at h
      cases call with
      | error refusal => cases h
      | ok d =>
        cases h
        exact result_anyone (.ok c)
    | member call =>
      rw [hdemand] at h
      obtain ⟨session, hsession, h⟩ := Option.bind_eq_some_iff.1 h
      rw [result_member, hsession]
      dsimp only
      cases hcall : call session with
      | error refusal =>
        rw [hcall] at h
        cases h
      | ok d =>
        rw [hcall] at h
        cases h
        rfl
  · cases h

/-- The session decides which call is made. -/
theorem call?_congr (hbearer : bearer? o s r = bearer? o t r) : call? o s r = call? o t r := by
  unfold call? Demand.call?
  rw [hbearer]

/-- **Two states answer a request in the same way**, if it has the same session in both and its call
the same end. -/
theorem respond_congr (hbearer : bearer? o s r = bearer? o t r)
    (hcall : ∀ c, call? o s r = some c →
      ((Service.perform o c).exec s).1 = ((Service.perform o c).exec t).1) :
    ((respond o r).run s).1 = ((respond o r).run t).1 := by
  have hsame := call?_congr hbearer
  cases h : call? o s r with
  | some c => rw [respond_of_call h, respond_of_call (hsame ▸ h), hcall c h]
  | none =>
    -- No call is made. The path, the method, the session or the form is at fault, and none of these
    -- is different in the other state.
    rw [respond_eq, respond_eq]
    cases htarget : Endpoint.ofTarget? r.target with
    | none => rfl
    | some endpoint =>
      dsimp only
      split
      · rename_i hmethod
        unfold call? at h
        rw [htarget, Option.bind_some, if_pos hmethod] at h
        congr 2
        cases hdemand : endpoint.demand r o.deployment.policy.digits with
        | anyone call =>
          rw [hdemand] at h
          cases call with
          | error refusal => rfl
          | ok d => cases h
        | member call =>
          rw [hdemand] at h
          rw [result_member, result_member, ← hbearer]
          cases hsession : bearer? o s r with
          | none => rfl
          | some session =>
            dsimp only
            unfold Demand.call? at h
            dsimp only at h
            rw [hsession, Option.bind_some] at h
            cases hcall : call session with
            | error refusal => rfl
            | ok d =>
              rw [hcall] at h
              cases h
      · rfl

/-- The response to a request that asks for a call, or is refused one. -/
def respondTo (o : Occasion) (s : State) (r : Request) : Except Refusal Call → Option Response
  | .ok c => shown o r ((Service.perform o c).exec s).1
  | .error refusal => finish r (some (refusal.response o.draws.reference))

/-- The response of an endpoint that asks for no session. -/
theorem respond_anyone {endpoint : Endpoint} (htarget : Endpoint.ofTarget? r.target = some endpoint)
    (hmethod : endpoint.verb.methods.contains r.method = true) {call : Except Refusal Call}
    (hdemand : endpoint.demand r o.deployment.policy.digits = .anyone call) :
    ((respond o r).run s).1 = respondTo o s r call := by
  rw [respond_eq, htarget]
  dsimp only
  rw [if_pos hmethod, hdemand, result_anyone]
  cases call with
  | error refusal => rfl
  | ok c => rfl

end Http

/-! ## Answers to turns -/

/-- What is given back in a turn. -/
inductive Answer where
  | response (response : Option Http.Response)
  | reply (result : Except Failure Reply)

namespace Turn

variable (D : Deployment) (t : Turn) (s : State)

/-- What a turn is answered. -/
def answer : Answer :=
  match t.act with
  | .request r => .response ((Http.respond (t.occasion D) r).run (t.facing s)).1
  | .call c => .reply ((Service.perform (t.occasion D) c).exec (t.facing s)).1

variable {D t s}

/-- A request that leads to no call is answered by its session, if it has the same in both. -/
theorem answer_of_none {s' : State} {r : Http.Request} (hact : t.act = .request r)
    (hnone : t.call? D s = none) (hbearer : Http.bearer? (t.occasion D) (t.facing s) r =
      Http.bearer? (t.occasion D) (t.facing s') r) : t.answer D s = t.answer D s' := by
  unfold call? at hnone
  unfold answer
  rw [hact] at hnone ⊢
  refine congrArg Answer.response (Http.respond_congr hbearer fun c hcall => ?_)
  cases hnone.symm.trans hcall

/-- **A turn in which the same call is made**, and ends in the same way, is answered in the same
way. -/
theorem parallel {s' : State} {c : Call} {R : State → State → Prop} (hcall : t.call? D s = some c)
    (hcall' : t.call? D s' = some c)
    (h : (Service.perform (t.occasion D) c).Parallel R (t.facing s) (t.facing s')) :
    t.answer D s = t.answer D s' ∧ t.outcome D s = t.outcome D s' ∧
      R (t.next D s) (t.next D s') := by
  obtain ⟨hresult, hstates⟩ := h
  refine ⟨?_, ?_, ?_⟩
  · unfold answer
    unfold call? at hcall hcall'
    cases hact : t.act with
    | request r =>
      rw [hact] at hcall hcall'
      dsimp only
      rw [Http.respond_of_call hcall, Http.respond_of_call hcall', hresult]
    | call d =>
      rw [hact] at hcall
      cases hcall
      exact congrArg Answer.reply hresult
  · unfold outcome
    rw [hcall, hcall']
    exact congrArg some hresult
  · obtain ⟨r, -, hends⟩ := t.ends_of_call hcall
    obtain ⟨r', -, hends'⟩ := t.ends_of_call hcall'
    rw [(Op.ends_iff.1 hends).2, (Op.ends_iff.1 hends').2]
    exact hstates

end Turn

end SecondFactor
