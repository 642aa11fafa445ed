import SecondFactor.Proofs.Addresses
import SecondFactor.Proofs.Otp.Verdict
import SecondFactor.Proofs.Rotation

/-!
# Codes that are looked at twice

A request that verifies a session has its code looked at before the service sees it, for its
length and its digits. The service then asks for the digits of the secret that was enrolled, the
request for those of the deployment. As long as all secrets were made under the deployment's own
policy there is no difference; a secret of another length is one whose owner the service would
verify and the request turns away.

## The architecture

* **`Http.checkCode_eq`** — what is wrong with a text of digits can only be how many there are.
* **`digits_of_accepted`** — a code that a check accepts has the digits of the secret, six or more.
* **`held_of_verified`** — a verification that succeeds opened the main copy of the record that is
  there, and its check accepted the code.
* **`Turn.directly`** — the call of a request, made without the request;
  **`Turn.Posts.answer_of_session`** — a request for a call by its session.
* **`request_verified_iff`** — when a request is answered as the service answers its call.
-/

namespace SecondFactor

open Service (Call Reply)

/-! ## §1 — codes that are accepted -/

/-- A text of digits lacks nothing but digits, or has too many. -/
theorem Http.checkCode_eq {digits : Nat} {code : String}
    (hnumeric : Otp.Secret.isNumeric (Text.trim code) = true)
    (hnonempty : (Text.trim code).utf8ByteSize ≠ 0) :
    Http.checkCode digits code = if (Text.trim code).utf8ByteSize = digits then .ok ()
      else .error (.validation (.codeDigits digits)) := by
  have hpresent : (Text.trim code).isEmpty = false := by
    rw [String.isEmpty_eq_utf8ByteSize_beq_zero]
    exact beq_false_of_ne hnonempty
  have hdigits : (Text.trim code).toList.all Text.isDigit = true := hnumeric
  unfold Http.checkCode
  dsimp only
  rw [hpresent, if_neg Bool.false_ne_true, hdigits]
  simp only [and_true]

namespace Otp.Secret

variable {P : Primitives} {s : Secret} {c : Check} {key : Bytes} {code : String}
  {maxAttempts now : Nat}

/-- A secret with a key that can be used has six to eight digits. The check tests this before it
looks at the code. -/
theorem digits_of_usableKey (h : s.usableKey = .ok key) : 6 ≤ s.digits ∧ s.digits ≤ 8 := by
  obtain ⟨_, -, h⟩ := bind_eq_ok.1 h
  split at h
  · rename_i husable
    exact ⟨husable.1, husable.2.1⟩
  · cases h

/-- **A code that is accepted** is a number with the digits of the secret, and not empty. A form can
therefore only be wrong about how many digits it asks for. -/
theorem digits_of_accepted (h : s.check P maxAttempts code now = .ok c) (hyes : c.verified = true) :
    code.utf8ByteSize = s.digits ∧ isNumeric code = true ∧ code.utf8ByteSize ≠ 0 := by
  obtain ⟨n, hn⟩ := Option.isSome_iff_exists.1 hyes
  obtain ⟨key, hkey⟩ := usableKey_of_accepted h hn
  obtain ⟨hlength, hseen, -⟩ := (accepted_iff (check_cases h).1 hkey).1 ⟨c, h, hn⟩
  have hsix := (digits_of_usableKey hkey).1
  exact ⟨hlength, hseen.2, by omega⟩

end Otp.Secret

/-! ## §2 — verifications that succeed -/

section Verifications

variable {o : Occasion} {s s' : State} {session : Session} {password code : String}
  {tokens : Session.Tokens}

/-- **What a verification was made with**: the secret in the main copy of the record that is there,
also where an earlier record was shown, and a code that it accepts. -/
theorem held_of_verified
    (h : (Service.validate o session password code).Ends s (.ok tokens) s') :
    ∃ held, s.mainSecret? o.deployment session.owner password = some held ∧
      ∃ now check, held.check o.deployment.primitives o.deployment.policy.maxAttempts
        (Text.trim code) now = .ok check ∧ check.verified = true := by
  generalize hr : (.ok tokens : Except Failure Session.Tokens) = r at h
  cases Service.validate_outcome h with
  | refused _ _ | lost _ _ | mistaken _ _ _ _ => cases hr
  | done hcheck hyes hl _ =>
    obtain ⟨held, now, hopen, -, hchecked⟩ := ((Service.checkMain_ends hcheck).2 _ rfl).checked
    -- The copy that was opened is still the one that is kept, or it had not been replaced.
    obtain ⟨row, hrow, hhas, -⟩ := Ledger.updateMain?_eq hl
    have hmain := (FactorRecord.hasMain_iff.1 hhas).2
    exact ⟨held, State.mainSecret?_eq_some hrow hmain hopen, now, _, hchecked, hyes⟩

end Verifications

/-! ## §3 — requests by a session -/

section Requests

variable {D : Deployment} {s : State} {t : Turn} {r : Http.Request} {endpoint : Http.Endpoint}
  {session : Session} {password code : String}

/-- The turn in which a call is made at the same time, with the same random values and the same
mishaps, but without a request. -/
def Turn.directly (t : Turn) (c : Call) : Turn := { t with act := .call c }

/-- The response of an endpoint that asks for a session, to a request that has one. -/
theorem Http.respond_session {o : Occasion}
    (htarget : Http.Endpoint.ofTarget? r.target = some endpoint)
    (hmethod : endpoint.verb.methods.contains r.method = true)
    (hbearer : Http.bearer? o s r = some session) {call : Session → Except Http.Refusal Call}
    (hdemand : endpoint.demand r o.deployment.policy.digits = .member call) :
    ((Http.respond o r).run s).1 = Http.respondTo o s r (call session) := by
  rw [Http.respond_eq, htarget]
  dsimp only
  rw [if_pos hmethod, hdemand, Http.result_member, hbearer]
  dsimp only
  cases call session with
  | error refusal => rfl
  | ok c => rfl

/-- What is answered to a posted request, and what it does, when its session may ask. The form
decides whether it gets as far as its call. -/
theorem Turn.Posts.answer_of_session (hposts : t.Posts endpoint r) (hverb : endpoint.verb = .post)
    (hbearer : Http.bearer? (t.occasion D) (t.facing s) r = some session)
    {call : Session → Except Http.Refusal Call}
    (hdemand : endpoint.demand r D.policy.digits = .member call) :
    t.answer D s = .response (Http.respondTo (t.occasion D) (t.facing s) r (call session)) ∧
      t.next D s = Http.stateAfter (t.occasion D) (t.facing s) (call session).toOption := by
  have hmethod := hposts.allowed hverb
  have hcall : Http.call? (t.occasion D) (t.facing s) r = (call session).toOption := by
    unfold Http.call?
    rw [hposts.target, Option.bind_some, if_pos hmethod]
    refine (congrArg (Http.Demand.call? _ _ _) hdemand).trans ?_
    unfold Http.Demand.call?
    dsimp only
    rw [hbearer, Option.bind_some]
  unfold Turn.answer Turn.next
  rw [hposts.act]
  dsimp only
  rw [Http.respond_session (o := t.occasion D) hposts.target hmethod hbearer hdemand,
    Http.respond_state, hcall]
  exact ⟨rfl, rfl⟩

/-- What a verification asks for: a password that is long enough, and a code that has as many digits
as the policy now says. -/
theorem Http.demand_of_codeForm
    (hform : Http.readForm₂ r "password" "code" = .ok (password, code))
    (hpassword : Http.checkPassword password = .ok ()) (digits : Nat) :
    Http.Endpoint.validate.demand r digits = .member fun session =>
      (fun _ => Call.validate session password code) <$>
        Http.checking (Http.checkCode digits code) := by
  have hread : Http.reading (Http.readForm₂ r "password" "code") = .ok (password, code) := by
    rw [hform]
    rfl
  have hchecked : Http.checking (Http.checkPassword password) = .ok () := by
    rw [hpassword]
    rfl
  dsimp only [Http.Endpoint.demand, bind, Except.bind]
  rw [hread]
  dsimp only
  rw [hchecked]
  dsimp only
  cases Http.checking (Http.checkCode digits code) <;> rfl

/-- The length is all that is checked of a password. -/
theorem Http.checkPassword_of_length (h : Http.passwordLength ≤ password.utf8ByteSize) :
    Http.checkPassword password = .ok () := by
  have hlong : 8 ≤ password.utf8ByteSize := h
  have hpresent : password.isEmpty = false := by
    rw [String.isEmpty_eq_utf8ByteSize_beq_zero]
    exact beq_false_of_ne (by omega)
  unfold Http.checkPassword
  rw [hpresent, if_neg Bool.false_ne_true, if_neg (Nat.not_lt.2 h)]

end Requests

/-- **A code that the service would verify** is verified by a request if and only if the secret of
the account has as many digits as the deployment asks for now, and then the request does what the
service does. Otherwise the request is refused for the digits of its code, and nothing is done. The
state is any state, so the secret may have been made under another policy. -/
theorem request_verified_iff {D : Deployment} {s : State} {t : Turn} {r : Http.Request}
    {session : Session} {password code : String} {tokens : Session.Tokens}
    (hposts : t.Posts .validate r)
    (hbearer : Http.bearer? (t.occasion D) (t.facing s) r = some session)
    (hform : Http.readForm₂ r "password" "code" = .ok (password, code))
    (hlength : Http.passwordLength ≤ password.utf8ByteSize)
    (hdirect : (t.directly (.validate session password code)).answer D s =
      .reply (.ok (.tokens tokens))) :
    ∃ held, s.mainSecret? D session.owner password = some held ∧
      (t.answer D s = .response (some (Http.replyResponse (.tokens tokens))) ↔
        held.digits = D.policy.digits) ∧
      (held.digits = D.policy.digits →
        t.next D s = (t.directly (.validate session password code)).next D s) ∧
      (held.digits ≠ D.policy.digits →
        t.answer D s = .response (some (.ofCause t.draws.reference
          (.validation (.codeDigits D.policy.digits)))) ∧
        t.next D s = t.facing s) := by
  have hresult : ((Service.perform (t.occasion D) (.validate session password code)).exec
      (t.facing s)).1 = .ok (.tokens tokens) := by
    injection hdirect
  obtain ⟨q, hq, hreply⟩ := Op.ends_map.1 (Op.ends_exec
    (Service.perform (t.occasion D) (.validate session password code)) (t.facing s))
  rw [hresult] at hreply
  obtain ⟨made, rfl, hmade⟩ := map_eq_ok.1 hreply.symm
  cases hmade
  obtain ⟨held, hheld, now, check, hcheck, hyes⟩ := held_of_verified hq
  obtain ⟨hdigits, hnumeric, hnonempty⟩ := Otp.Secret.digits_of_accepted hcheck hyes
  obtain ⟨hanswer, hnext⟩ := hposts.answer_of_session rfl hbearer
    (Http.demand_of_codeForm hform (Http.checkPassword_of_length hlength) D.policy.digits)
  rw [Http.checkCode_eq hnumeric hnonempty, hdigits] at hanswer hnext
  refine ⟨held, hheld, ?_⟩
  by_cases hsame : held.digits = D.policy.digits
  · rw [if_pos hsame] at hanswer hnext
    have hshown : t.answer D s = .response (some (Http.replyResponse (.tokens tokens))) := by
      refine hanswer.trans (congrArg Answer.response ?_)
      refine (Http.finish_of_post hposts.method _).trans ?_
      rw [hresult]
      rfl
    exact ⟨⟨fun _ => hsame, fun _ => hshown⟩, fun _ => hnext, fun hne => absurd hsame hne⟩
  · rw [if_neg hsame] at hanswer hnext
    have hrefused : t.answer D s = .response (some (.ofCause t.draws.reference
        (.validation (.codeDigits D.policy.digits)))) :=
      hanswer.trans (congrArg Answer.response (Http.finish_of_post hposts.method _))
    refine ⟨⟨fun hshown => ?_, fun heq => absurd heq hsame⟩, fun heq => absurd heq hsame,
      fun _ => ⟨hrefused, hnext⟩⟩
    -- No refusal is answered with tokens.
    cases hshown.symm.trans hrefused

/-! Somebody enrols under a policy of six digits and logs in again. Then the deployment is given a
policy of seven, and a code of six is presented. -/

/-- The policy now asks for seven digits. -/
def Deployment.lengthened : Deployment :=
  { Deployment.transparent with
    policy := { Otp.Policy.usual with digits := 7, digits_range := by decide } }

/-- The run: the record was made under six digits. -/
def History.returned : History :=
  .turn .enrolling (.posting 5 "/api/login" none
    "\x7b\"email\":\"a@b.c\",\"password\":\"password\"\x7d")

/-- The right code of the record, which has six digits. -/
def Http.Request.presenting : Http.Request where
  method := "POST"
  target := "/api/2fa/validate"
  authorization := some ("Bearer " ++ Session.tokenText (Draws.ofByte 5).tokens.access)
  contentType := some "application/json"
  body := Bytes.ofText "\x7b\"password\":\"password\",\"code\":\"000006\"\x7d"

/-- It is presented in the sixth step. -/
def Turn.presenting : Turn := .inStep 6 (.request .presenting)

/-- The tokens that are made in that turn. -/
def Session.Tokens.presented : Session.Tokens where
  access := Session.tokenText (Draws.ofByte 6).tokens.access
  refresh := Session.tokenText (Draws.ofByte 6).tokens.refresh
  expiresIn := 900
  claim := .verified

/-- The service would accept the code under either policy. The request is turned away under the new
one, because of the digits. -/
theorem request_verified_iff_lengthened :
    ∃ held,
      (Turn.presenting.directly (.validate ⟨.ofByte 1, .on, .ofByte 5⟩ "password" "000006")).answer
        .lengthened (History.returned.state .transparent) = .reply (.ok (.tokens .presented)) ∧
      (History.returned.state .transparent).mainSecret? .lengthened (.ofByte 1) "password" =
        some held ∧
      held.digits = 6 ∧
      Turn.presenting.answer .lengthened (History.returned.state .transparent) =
        .response (some (.ofCause (.ofByte 6) (.validation (.codeDigits 7)))) ∧
      Turn.presenting.answer .transparent (History.returned.state .transparent) =
        .response (some (Http.replyResponse (.tokens .presented))) := by
  -- The service says the same under either policy.
  have hrun : ∀ D ∈ [Deployment.lengthened, .transparent],
      Http.bearer? (Turn.presenting.occasion D)
        (Turn.presenting.facing (History.returned.state .transparent)) .presenting =
          some ⟨.ofByte 1, .on, .ofByte 5⟩ ∧
      ((Service.validate (Turn.presenting.occasion D)
        ⟨.ofByte 1, .on, .ofByte 5⟩ "password" "000006").exec
          (Turn.presenting.facing (History.returned.state .transparent))).1 = .ok .presented ∧
      ((History.returned.state .transparent).mainSecret? D (.ofByte 1) "password").map (·.digits) =
        some 6 := by
    decide +kernel
  have hverified : ∀ D ∈ [Deployment.lengthened, .transparent],
      (Turn.presenting.directly (.validate ⟨.ofByte 1, .on, .ofByte 5⟩ "password" "000006")).answer
        D (History.returned.state .transparent) = .reply (.ok (.tokens .presented)) := by
    intro D hD
    have hends := Op.ends_exec (Service.validate (Turn.presenting.occasion D)
      ⟨.ofByte 1, .on, .ofByte 5⟩ "password" "000006")
        (Turn.presenting.facing (History.returned.state .transparent))
    rw [(hrun D hD).2.1] at hends
    have hperformed : (Service.perform (Turn.presenting.occasion D)
        (.validate ⟨.ofByte 1, .on, .ofByte 5⟩ "password" "000006")).Ends
          (Turn.presenting.facing (History.returned.state .transparent))
          (.ok (.tokens .presented)) _ := Op.ends_map.2 ⟨_, hends, rfl⟩
    exact congrArg Answer.reply (Op.ends_iff.1 hperformed).1.symm
  have hposts : Turn.presenting.Posts .validate .presenting := ⟨rfl, by decide +kernel, rfl⟩
  have hform : Http.readForm₂ .presenting "password" "code" = .ok ("password", "000006") := by
    decide +kernel
  have hnew : Deployment.lengthened ∈ [Deployment.lengthened, .transparent] := List.mem_cons_self
  have hold : Deployment.transparent ∈ [Deployment.lengthened, .transparent] :=
    List.mem_cons_of_mem _ List.mem_cons_self
  obtain ⟨held, hheld, -, -, hrefused⟩ := request_verified_iff hposts (hrun _ hnew).1 hform
    (by decide) (hverified _ hnew)
  obtain ⟨other, hother, hanswered, -⟩ := request_verified_iff hposts (hrun _ hold).1 hform
    (by decide) (hverified _ hold)
  have hsix := (hrun _ hnew).2.2
  have husual := (hrun _ hold).2.2
  rw [hheld] at hsix
  rw [hother] at husual
  obtain hsix : held.digits = 6 := Option.some.inj hsix
  refine ⟨held, hverified _ hnew, hheld, hsix, (hrefused ?_).1,
    hanswered.2 (Option.some.inj husual)⟩
  rw [hsix]
  decide

end SecondFactor
