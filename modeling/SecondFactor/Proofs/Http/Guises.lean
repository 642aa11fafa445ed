import SecondFactor.Proofs.Http.Answers
import SecondFactor.Proofs.Service.Guises

/-!
# Answers in two guises

A request presents a token, and in two guises of the service that token may be worth a session that
says *off* in one and nothing in the other. What else a request says is read in the same way. So the
same request leads to the same call, but for what the session says, and is given the same response,
but for a claim that is shown in it.

## The architecture

* **`Http.Response.PassesFor`**, **`Answer.PassesFor`** — the same response or answer, except that
  *off* may be shown in the place of nothing.
* **`Http.demand_withClaim`** — what a request asks for does not depend on what its session says.
* **`Guise.paired_satisfy`**, **`Guise.paired_respond`** — a request is given the same response.
* **`Guise.turn`** — so is a turn, and it leaves the states in their guises; **`Guise.run`** — and
  a run of turns.
-/

namespace SecondFactor

open Service (Call Reply)

/-! ## §1 — responses -/

namespace Http

/-- The same member of an object, or the claim of a session that is shown as *off* in one object and
as nothing in the other. -/
inductive MemberPassesFor : String × Json.Value → String × Json.Value → Prop where
  | same (member : String × Json.Value) : MemberPassesFor member member
  | claim {name : String} (hname : name = "two_factor" ∨ name = "session") :
      MemberPassesFor (name, .text Claim.off.text) (name, .text Claim.empty.text)

/-- The same response, or two objects that differ in the claims that are shown. -/
inductive Response.PassesFor : Response → Response → Prop where
  | same (response : Response) : PassesFor response response
  | object {o o' : Json.Object} (h : List.Forall₂ MemberPassesFor o o') :
      PassesFor (.ok o) (.ok o')

/-- A member of an answer that shows what a session says may differ in the two guises. Only two
members do so. -/
theorem memberPassesFor_claim {name : String} {claim claim' : Claim}
    (hname : name = "two_factor" ∨ name = "session") (h : claim.PassesFor claim') :
    MemberPassesFor (name, .text claim.text) (name, .text claim'.text) := by
  rcases h with rfl | ⟨rfl, rfl⟩
  · exact .same _
  · exact .claim hname

theorem forall₂_tokenMembers {tokens tokens' : Session.Tokens} (h : tokens.PassFor tokens') :
    List.Forall₂ MemberPassesFor (tokenMembers tokens) (tokenMembers tokens') := by
  obtain ⟨claim, rfl, hclaim⟩ := h
  exact .cons (.same _) <| .cons (.same _) <| .cons (.same _) <| .cons (.same _) <|
    .cons (memberPassesFor_claim (.inl rfl) hclaim) .nil

/-- Only two kinds of reply show a claim, the tokens and the overview. All others are the same in
both guises. -/
theorem replyResponse_passesFor {reply reply' : Reply} (h : reply.PassesFor reply') :
    (replyResponse reply).PassesFor (replyResponse reply') := by
  cases h with
  | same => exact .same _
  | @login tokens tokens' h =>
    have hon : (tokens'.claim == .on) = (tokens.claim == .on) := by
      obtain ⟨claim, rfl, heq | ⟨hoff, hempty⟩⟩ := h
      · rw [heq]
      · rw [hoff, hempty]
        rfl
    refine .object (List.rel_append (forall₂_tokenMembers h) (.cons ?_ .nil))
    rw [hon]
    exact .same _
  | tokens h => exact .object (forall₂_tokenMembers h)
  | overview h =>
    obtain ⟨claim, rfl, hclaim⟩ := h
    exact .object <| .cons (.same _) <| .cons (memberPassesFor_claim (.inr rfl) hclaim) <|
      .cons (.same _) .nil

/-- A failure is answered the same in both guises, and a response as the reply is. -/
theorem settle_passesFor {o : Occasion} {result result' : Except Failure Response}
    (h : Matched Response.PassesFor result result') :
    Option.Rel Response.PassesFor (settle o result) (settle o result') := by
  cases h with
  | ok h => exact .some h
  | error failure => cases failure with
    | refused cause => exact .some (.same _)
    | crash => exact .none

theorem finish_passesFor {r : Request} {response response' : Option Response}
    (h : Option.Rel Response.PassesFor response response') :
    Option.Rel Response.PassesFor (finish r response) (finish r response') := by
  unfold finish
  split
  · -- Without their contents, two objects are the same.
    rcases h with (_ | _) | _
    · exact .some (.same _)
    · exact .some (.same _)
    · exact .none
  · exact h

/-! ## §2 — requests -/

theorem map_chain {ε α β γ : Type} (x : Except ε α) (f : α → Except ε β) (g : β → γ) :
    (x >>= f).map g = x >>= fun a => (f a).map g := by
  cases x <;> rfl

/-- **What a request asks for** does not depend on what its session says. One case for each
endpoint. -/
theorem demand_withClaim (endpoint : Endpoint) (r : Request) (digits : Nat) :
    match endpoint.demand r digits with
    | .anyone _ => True
    | .member call => ∀ session claim,
        call { session with claim } = (call session).map (Call.withClaim claim) := by
  cases endpoint with
  | health | register | login | refreshToken | recoverPassword => trivial
  | logout | status => exact fun session claim => rfl
  | deleteAccount | setup | backupCodes | deactivate =>
    intro session claim
    dsimp only [Endpoint.demand]
    cases readPassword r <;> rfl
  | image segment =>
    intro session claim
    dsimp only
    cases Percent.decode? segment <;> rfl
  | activate | validateBackupCode | validate | changePassword =>
    intro session claim
    dsimp only [Endpoint.demand]
    simp only [map_chain]
    rfl

end Http

/-! ## §3 — requests in two guises -/

namespace Guise

open Op Http

variable {G : Guise} {o : Occasion} {s t : State}

theorem bearer_sessions (h : G.Rel s t) (r : Request) :
    Option.Rel G.Sessions (bearer? o s r) (bearer? o t r) := by
  unfold bearer?
  cases r.token? with
  | none => exact .none
  | some token => exact Registries.authenticate? h.sessions o.deployment.primitives o.now token

theorem paired_carryOut (hG : G.Lawful) {c c' : Call} (hc : G.Calls c c') (h : G.Rel s t) :
    Paired Response.PassesFor (carryOut o (.ok c)) (carryOut o (.ok c')) G.Rel s t :=
  (perform_paired hG hc h).map replyResponse_passesFor

theorem paired_refused {refusal : Refusal} (h : G.Rel s t) :
    Paired Response.PassesFor (carryOut o (.error refusal)) (carryOut o (.error refusal)) G.Rel
      s t :=
  ⟨.ok (.same _), h⟩

theorem calls_refl (c : Call) : G.Calls c c := by
  refine ⟨(c.session?.map (·.claim)).getD .empty, ?_, fun session hsession => ?_⟩
  · cases c <;> rfl
  · rw [hsession]
    exact .refl _ _

/-- **An endpoint gives way in both guises or in neither.** It reads the account of a session and
never what the session says; that is for the call to judge. -/
theorem paired_satisfy (hG : G.Lawful) (endpoint : Endpoint) (r : Request) (digits : Nat)
    (h : G.Rel s t) :
    Paired Response.PassesFor (satisfy o r (endpoint.demand r digits))
      (satisfy o r (endpoint.demand r digits)) G.Rel s t := by
  have hsession := session_of_demand endpoint r digits
  have hclaim := demand_withClaim endpoint r digits
  cases hdemand : endpoint.demand r digits with
  | anyone call =>
    cases call with
    | error refusal => exact paired_refused h
    | ok c => exact paired_carryOut hG (calls_refl c) h
  | member call =>
    rw [hdemand] at hsession hclaim
    unfold Paired
    rw [satisfy_member, satisfy_member]
    have hbearer := bearer_sessions (o := o) h r
    -- The request has a session in both guises, which may say different things, or in neither.
    revert hbearer
    generalize bearer? o s r = bearer
    generalize bearer? o t r = bearer'
    rintro (@⟨session, _, claim, rfl, hclaims⟩ | _)
    · dsimp only
      rw [hclaim session claim]
      cases hcall : call session with
      | error refusal => exact paired_refused h
      | ok c =>
        refine paired_carryOut hG ⟨claim, rfl, fun session' hsession' => ?_⟩ h
        cases (hsession session c hcall).symm.trans hsession'
        exact hclaims
    · exact ⟨.error _, h⟩

/-- **A request is given the same response in both guises**, but for a claim that is shown. A
request that leads to no call has the same fault in both. -/
theorem paired_respond (hG : G.Lawful) (r : Request) (h : G.Rel s t) :
    Option.Rel Response.PassesFor ((respond o r).run s).1 ((respond o r).run t).1 ∧
      G.Rel ((respond o r).run s).2 ((respond o r).run t).2 := by
  unfold respond
  cases Endpoint.ofTarget? r.target with
  | none => exact ⟨.some (.same _), h⟩
  | some endpoint =>
    dsimp only
    by_cases hmethod : endpoint.verb.methods.contains r.method = true
    · simp only [hmethod, if_true]
      obtain ⟨hresult, hstates⟩ := paired_satisfy hG endpoint r o.deployment.policy.digits h
      exact ⟨finish_passesFor (settle_passesFor hresult), hstates⟩
    · simp only [hmethod]
      exact ⟨.some (.same _), h⟩

end Guise

/-! ## §4 — turns and runs in two guises -/

/-- The same answer, but for a claim that is shown. -/
inductive Answer.PassesFor : Answer → Answer → Prop where
  | response {response response' : Option Http.Response}
      (h : Option.Rel Http.Response.PassesFor response response') :
      PassesFor (.response response) (.response response')
  | reply {result result' : Except Failure Reply} (h : Matched Reply.PassesFor result result') :
      PassesFor (.reply result) (.reply result')

namespace State

variable (D : Deployment)

/-- The state after a run of turns. -/
def after (s : State) (ts : List Turn) : State := ts.foldl (fun s t => t.next D s) s

theorem after_append (s : State) (ts ts' : List Turn) :
    s.after D (ts ++ ts') = (s.after D ts).after D ts' :=
  List.foldl_append

/-- What the turns of a run are answered. -/
def answers (s : State) : List Turn → List Answer
  | [] => []
  | t :: ts => t.answer D s :: (t.next D s).answers ts

end State

namespace Guise

variable {G : Guise} {D : Deployment} {s s' : State}

/-- **A turn is answered in the same way in both guises**, but for a claim that is shown, and leaves
the states in their guises. -/
theorem turn (hG : G.Lawful) (t : Turn) (h : G.Rel s s') :
    (t.answer D s).PassesFor (t.answer D s') ∧ G.Rel (t.next D s) (t.next D s') := by
  have hfacing : G.Rel (t.facing s) (t.facing s') := ⟨rfl, h.ledger, h.staging, h.sessions⟩
  unfold Turn.answer Turn.next
  cases t.act with
  | request r =>
    obtain ⟨hresponse, hstates⟩ := paired_respond hG r hfacing
    exact ⟨.response hresponse, hstates⟩
  | call c =>
    obtain ⟨hresult, hstates⟩ := perform_paired hG (calls_refl c) hfacing
    exact ⟨.reply hresult, hstates⟩

/-- **So is a run.** Induction on its turns. The answers are compared one by one, and the states at
the end are in their guises still. -/
theorem run (hG : G.Lawful) (ts : List Turn) (h : G.Rel s s') :
    List.Forall₂ Answer.PassesFor (s.answers D ts) (s'.answers D ts) ∧
      G.Rel (s.after D ts) (s'.after D ts) := by
  induction ts generalizing s s' with
  | nil => exact ⟨.nil, h⟩
  | cons t ts ih =>
    obtain ⟨hanswer, hnext⟩ := turn (D := D) hG t h
    obtain ⟨hanswers, hafter⟩ := ih hnext
    exact ⟨.cons hanswer hanswers, hafter⟩

end Guise

end SecondFactor
