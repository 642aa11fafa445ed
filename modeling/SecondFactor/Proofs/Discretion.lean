import SecondFactor.Proofs.Accounts
import SecondFactor.Proofs.Http.Answers
import SecondFactor.Proofs.Marks
import SecondFactor.Proofs.Service.Calm

/-!
# What a failure tells

Somebody who knows neither a password nor a recovery key can still try them out. A login or a
recovery that fails is answered by what was asked alone: the same for an address that nobody has,
for a second factor that is off, for a wrong word, and for a copy that cannot be opened. It would be
otherwise if a stored hash could not be read, since that is a defect and told as one; but every hash
that is stored was made by the service.

## The architecture

* **`fingerprint_of_active`** — the fingerprints that a recovery reads were made by the service, as
  were the password hashes.
* **`Service.Call.rebuff`** — why a login or a recovery fails, by the call alone.
* **`login_discreet`**, **`recoverPassword_discreet`** — without a mishap they fail for that reason
  and do nothing, or break off, or are done.
* **`failures_tell_nothing`** — two responses that tell of a failure are the same.
-/

namespace SecondFactor

open Service (Call Reply)

/-! ## §1 — stored fingerprints -/

/-- The fingerprint of copies that are in use was made by the service, as were the password hashes,
so a recovery can read it. -/
theorem fingerprint_of_active {D : Deployment} {h : History} {owner : Uuid} {copies : Copies}
    (hactive : ((h.state D).ledger.records.get? owner).bind FactorRecord.active? = some copies) :
    ∃ salt word, copies.fingerprint = D.primitives.hashWord salt word := by
  obtain ⟨row, hrow, hcopies⟩ := Option.bind_eq_some_iff.1 hactive
  obtain ⟨-, -, -, hfingerprint, -⟩ := FactorRecord.active?_eq_some.1 hcopies
  exact fingerprint_made (((Marking.fingerprint D).current_of_row hrow).trans hfingerprint)

/-! ## §2 — how a login and a recovery end without mishaps -/

/-- Why a login or a recovery fails when it does. -/
def Service.Call.rebuff : Call → Cause
  | .recoverPassword _ recoveryKey _ => match RecoveryKey.normalize recoveryKey with
    | .ok _ => .recoveryKeyInvalid
    | .error cause => cause
  | _ => .authentication .credentials

/-- An operation fails for one reason only, and then does nothing, unless it breaks off. -/
inductive Op.Discreet {α : Type} (x : Op α) (cause : Cause) (s : State) : Prop where
  | refused (h : x.Ends s (.error (.refused cause)) s)
  | crashed {s' : State} (h : x.Ends s (.error .crash) s')
  | done {a : α} {s' : State} (h : x.Ends s (.ok a) s')

theorem Op.Discreet.map {α β : Type} {x : Op α} {f : α → β} {cause : Cause} {s : State}
    (h : x.Discreet cause s) : (f <$> x).Discreet cause s := by
  cases h with
  | refused h => exact .refused (ends_map.2 ⟨_, h, rfl⟩)
  | crashed h => exact .crashed (ends_map.2 ⟨_, h, rfl⟩)
  | done h => exact .done (ends_map.2 ⟨_, h, rfl⟩)

/-- Marking steps as used is not refused. It can only break off, if a number of steps does not
fit. -/
theorem Otp.Secret.crash_of_retire {secret : Otp.Secret} {now : Nat} {failure : Failure}
    (h : secret.retire now = .error failure) : failure = .crash := by
  unfold retire at h
  split at h
  · cases h
    rfl
  · cases h

namespace Service

open Op

variable {o : Occasion} {s : State} {email password recoveryKey new : String}

/-- **A login fails in one way**, whether the address is unknown or the password wrong. If it does
not fail like that, it breaks off or goes through. -/
theorem login_discreet (hP : o.deployment.primitives.ReadableHashing) (hs : s.Calm)
    (hhashed : s.ledger.Hashed o.deployment.primitives) :
    (login o email password).Discreet (.authentication .credentials) s := by
  cases hfound : s.ledger.findByEmail? email with
  | none => exact .refused (login_unknown hs hfound)
  | some found =>
    obtain ⟨owner, account⟩ := found
    have hlook := Database.accountByEmail_calm hs email
    rw [hfound] at hlook
    obtain ⟨salt, word, hhash⟩ := hhashed _ (List.mem_of_find?_eq_some hfound)
    obtain ⟨verdict, hverdict⟩ := hP salt word password
    rw [← hhash] at hverdict
    cases verdict with
    | false =>
      have hauthenticate : (authenticate o email password).Ends s
          (.error (.refused (.authentication .credentials))) s := by
        refine (ends_bind_through hlook).2 ?_
        refine (ends_bind_through (require_some _ (owner, account) s)).2 ?_
        exact (ends_bind_stop (checkPassword_wrong hverdict s)).2 ⟨rfl, rfl⟩
      exact .refused ((ends_bind_stop hauthenticate).2 ⟨rfl, rfl⟩)
    | true =>
      -- The pair is handed out, or lasts beyond the calendar.
      have hissue := ends_exec (issue o owner (Claim.ofStatus
        ((s.ledger.records.get? owner).map FactorRecord.status))) s
      have hlogin := (login_calm hs hfound hverdict).2 hissue
      cases hresult : ((issue o owner (Claim.ofStatus
          ((s.ledger.records.get? owner).map FactorRecord.status))).exec s).1 with
      | ok tokens =>
        rw [hresult] at hlogin
        exact .done hlogin
      | error failure =>
        rw [hresult] at hissue hlogin
        obtain rfl := Session.crash_of_issue (ends_onSessions.1 hissue).1.symm
        exact .crashed hlogin

section Recovering

variable {normal : String} {copies : Copies} (hclock : o.now.sinceEpoch?.isSome = true)

include hclock

/-- Behind the right key, the backup copy cannot be opened, or something breaks off, or it yields a
secret. -/
theorem recoverSecret_cases
    (hverified : RecoveryKey.verify o.deployment.primitives normal copies.fingerprint = .ok true)
    (s : State) :
    (recoverSecret o copies normal).Ends s (.error (.refused .recoveryKeyInvalid)) s ∨
      (recoverSecret o copies normal).Ends s (.error .crash) s ∨
      ∃ held secret now, openCopy o copies.backup normal = .ok held ∧
        o.now.sinceEpoch? = some now ∧ held.retire now = .ok secret := by
  have hverdict : (ofResult (RecoveryKey.verify o.deployment.primitives normal
      copies.fingerprint)).Ends s (.ok true) s := ends_ofResult.2 ⟨hverified.symm, rfl⟩
  unfold recoverSecret
  rw [ends_bind_through hverdict, ends_bind_through (ensure_true _ s),
    ends_bind_through hverdict, ends_bind_through (ensure_true _ s)]
  cases hopen : openCopy o copies.backup normal with
  | error failure => exact .inl (ends_refuse.2 ⟨rfl, rfl⟩)
  | ok held =>
    obtain ⟨now, hnow⟩ := Option.isSome_iff_exists.1 hclock
    cases hretire : held.retire now with
    | ok secret => exact .inr (.inr ⟨held, secret, now, rfl, hnow, hretire⟩)
    | error failure =>
      obtain rfl := Otp.Secret.crash_of_retire hretire
      have hsecond : (currentSecond o).Ends s (.ok now) s := by
        rw [currentSecond, hnow]
        exact require_some _ now s
      exact .inr (.inl ((ends_bind_through hsecond).2 (ends_ofResult.2 ⟨hretire.symm, rfl⟩)))

/-- **A recovery fails in one way**, whatever is wrong with what the account has: nobody has the
address, the second factor is off, the key is wrong, or the copy does not open. -/
theorem recoverPassword_discreet (hP : o.deployment.primitives.ReadableHashing) (hs : s.Calm)
    (hfingerprints : ∀ owner copies,
      (s.ledger.records.get? owner).bind FactorRecord.active? = some copies →
      ∃ salt word, copies.fingerprint = o.deployment.primitives.hashWord salt word) :
    (recoverPassword o email recoveryKey new).Discreet
      (Call.recoverPassword email recoveryKey new).rebuff s := by
  unfold Call.rebuff
  dsimp only
  cases hnormal : RecoveryKey.normalize recoveryKey with
  | error cause => exact .refused ((ends_bind_stop (demand_of_error hnormal s)).2 ⟨rfl, rfl⟩)
  | ok normal =>
    by_cases hwrong : ∀ owner account copies, s.ledger.findByEmail? email = some (owner, account) →
        (s.ledger.records.get? owner).bind FactorRecord.active? = some copies →
        RecoveryKey.verify o.deployment.primitives normal copies.fingerprint = .ok false
    · exact .refused (recoverPassword_mistaken hs hnormal hwrong)
    -- Otherwise the account has copies, and the key is that of the fingerprint.
    push Not at hwrong
    obtain ⟨owner, account, copies, hfound, hactive, hverify⟩ := hwrong
    have hverified : RecoveryKey.verify o.deployment.primitives normal copies.fingerprint =
        .ok true := by
      obtain ⟨salt, word, hhash⟩ := hfingerprints owner copies hactive
      obtain ⟨verdict, hverdict⟩ := hP salt word normal
      unfold RecoveryKey.verify at hverify ⊢
      rw [hhash, hverdict] at hverify ⊢
      cases verdict with
      | true => rfl
      | false => exact absurd rfl hverify
    have hstops : ∀ {failure}, (recoverSecret o copies normal).Ends s (.error failure) s →
        (recoverPassword o email recoveryKey new).Ends s (.error failure) s := by
      intro failure hsecret
      refine (recoverPassword_reaches hs hnormal hfound).2 ?_
      rw [hactive]
      refine (ends_bind_through (require_some _ copies s)).2 ?_
      exact (ends_bind_stop hsecret).2 ⟨rfl, rfl⟩
    rcases recoverSecret_cases hclock hverified s with hrefused | hcrashed |
      ⟨held, secret, now, hopen, hnow, hretire⟩
    · exact .refused (hstops hrefused)
    · exact .crashed (hstops hcrashed)
    · obtain ⟨l, -, hdone⟩ :=
        recoverPassword_calm new hs hnormal hfound hactive hverified hopen hnow hretire
      exact .done hdone

end Recovering

end Service

/-! ## §3 — what is answered -/

namespace Http

open Service (Call Reply)

variable {o : Occasion} {s : State} {r : Request} {endpoint : Endpoint} {digits : Nat}

/-- An endpoint at which a password or a recovery key can be tried out. -/
def Endpoint.IsGate (endpoint : Endpoint) : Prop := endpoint = .login ∨ endpoint = .recoverPassword

/-- The response to a request at a gate that fails. -/
def rebuff (reference : Uuid) : Except Refusal Call → Response
  | .ok c => .ofCause reference c.rebuff
  | .error refusal => refusal.response reference

/-- What is wrong with a form is told without a reference. -/
inductive Refusal.Plain : Refusal → Prop where
  | unread (rejection : Rejection) : Plain (.unread rejection)
  | unfit (complaint : Complaint) : Plain (.unfit (.validation complaint))

/-- A form that cannot be read is turned away by itself, before anything is looked up. -/
theorem plain_of_reading {α : Type} {input : Except Rejection α} {refusal : Refusal}
    (h : reading input = .error refusal) : refusal.Plain := by
  cases input with
  | ok a => cases h
  | error rejection =>
    cases h
    exact .unread rejection

theorem plain_of_checking {verdict : Except Cause Unit} {refusal : Refusal}
    (hverdict : ∀ cause, verdict = .error cause → ∃ complaint, cause = .validation complaint)
    (h : checking verdict = .error refusal) : refusal.Plain := by
  cases verdict with
  | ok a => cases h
  | error cause =>
    obtain ⟨complaint, rfl⟩ := hverdict cause rfl
    cases h
    exact .unfit complaint

/-- The checks complain about the form and about nothing else. One lemma for each check says so, to
be used with `plain_of_checking`. -/
theorem complaint_of_present {complaint : Complaint} {text : String} {cause : Cause}
    (h : checkPresent complaint text = .error cause) : ∃ other, cause = .validation other := by
  unfold checkPresent at h
  split at h
  · cases h
    exact ⟨_, rfl⟩
  · cases h

theorem complaint_of_password {password : String} {cause : Cause}
    (h : checkPassword password = .error cause) : ∃ complaint, cause = .validation complaint := by
  unfold checkPassword at h
  split at h
  · cases h
    exact ⟨_, rfl⟩
  · split at h
    · cases h
      exact ⟨_, rfl⟩
    · cases h

theorem complaint_of_credentials {email password : String} {cause : Cause}
    (h : checkCredentials email password = .error cause) :
    ∃ complaint, cause = .validation complaint := by
  rcases bind_eq_error.1 h with h | ⟨-, -, h⟩
  · exact complaint_of_present h
  · dsimp only at h
    split at h
    · cases h
      exact ⟨_, rfl⟩
    · split at h
      · cases h
        exact ⟨_, rfl⟩
      · cases h

/-- What a request asks of a gate: a login or a recovery, if its form is in order. Both read and
check their forms before they look at anything that is stored. -/
theorem demand_of_gate (hgate : endpoint.IsGate) (r : Request) (digits : Nat) :
    ∃ call, endpoint.demand r digits = .anyone call ∧
      (∀ refusal, call = .error refusal → refusal.Plain) ∧
      ∀ c, call = .ok c → (∃ email password, c = .login email password) ∨
        ∃ email recoveryKey new, c = .recoverPassword email recoveryKey new := by
  -- The two gates read their forms in the same manner, two fields in one and three in the other. A
  -- step that fails yields a plain refusal, and if none fails the call is as stated.
  rcases hgate with rfl | rfl
  · refine ⟨_, rfl, fun refusal h => ?_, fun c h => ?_⟩
    · rcases bind_eq_error.1 h with h | ⟨⟨email, password⟩, -, h⟩
      · exact plain_of_reading h
      rcases bind_eq_error.1 h with h | ⟨-, -, h⟩
      · exact plain_of_checking (fun _ => complaint_of_credentials) h
      · cases h
    · obtain ⟨⟨email, password⟩, -, h⟩ := bind_eq_ok.1 h
      obtain ⟨-, -, h⟩ := bind_eq_ok.1 h
      cases h
      exact .inl ⟨_, _, rfl⟩
  · refine ⟨_, rfl, fun refusal h => ?_, fun c h => ?_⟩
    · rcases bind_eq_error.1 h with h | ⟨⟨email, key, new⟩, -, h⟩
      · exact plain_of_reading h
      rcases bind_eq_error.1 h with h | ⟨-, -, h⟩
      · exact plain_of_checking (fun _ => complaint_of_present) h
      rcases bind_eq_error.1 h with h | ⟨-, -, h⟩
      · exact plain_of_checking (fun _ => complaint_of_password) h
      · cases h
    · obtain ⟨⟨email, key, new⟩, -, h⟩ := bind_eq_ok.1 h
      obtain ⟨-, -, h⟩ := bind_eq_ok.1 h
      obtain ⟨-, -, h⟩ := bind_eq_ok.1 h
      cases h
      exact .inr ⟨_, _, _, rfl⟩

/-- The response to a failure is by the request alone. In particular it carries no reference, which
would differ from turn to turn. -/
theorem rebuff_congr {call : Except Refusal Call}
    (hplain : ∀ refusal, call = .error refusal → refusal.Plain) (reference other : Uuid) :
    rebuff reference call = rebuff other call := by
  cases call with
  | error refusal =>
    cases hplain refusal rfl with
    | unread rejection => rfl
    | unfit complaint => rfl
  | ok c =>
    -- Only an internal error shows a reference, and what a call is rebuffed with is none.
    have hcause : c.rebuff.isReferenced = false := by
      unfold Call.rebuff
      split
      · split
        · rfl
        · rename_i hnormal
          unfold RecoveryKey.normalize at hnormal
          dsimp only at hnormal
          split at hnormal
          · cases hnormal
          · cases hnormal
            rfl
      · rfl
    unfold rebuff Response.ofCause
    dsimp only
    rw [hcause]
    rfl

end Http

/-! ## §4 — failures that cannot be told apart -/

/-- The turn is answered by a response that tells of a failure. -/
def Turn.Fails (D : Deployment) (t : Turn) (s : State) : Prop :=
  ∃ response, t.answer D s = .response (some response) ∧ 400 ≤ response.status

instance (D : Deployment) (t : Turn) (s : State) : Decidable (t.Fails D s) :=
  match h : t.answer D s with
  | .response (some response) => decidable_of_iff (400 ≤ response.status)
      ⟨fun hstatus => ⟨response, h, hstatus⟩, fun ⟨_, h', hstatus⟩ => by
        cases h.symm.trans h'
        exact hstatus⟩
  | .response none => .isFalse fun ⟨_, h', _⟩ => nomatch h.symm.trans h'
  | .reply _ => .isFalse fun ⟨_, h', _⟩ => nomatch h.symm.trans h'

/-- No mishap lies ahead of the turn, and the clock does not stand before 1970. -/
structure Turn.Faultless (t : Turn) : Prop where
  calm : t.mishaps = {}
  clock : t.now.sinceEpoch?.isSome = true

section Gates

variable {D : Deployment} {h : History} {t : Turn}

/-- A call at a gate fails for one reason only, and is not answered like a failure when it is
done. -/
theorem discreet_of_gate (hP : D.primitives.ReadableHashing) (ht : t.Faultless) {c : Call}
    (hc : (∃ email password, c = .login email password) ∨
      ∃ email recoveryKey new, c = .recoverPassword email recoveryKey new) :
    (Service.perform (t.occasion D) c).Discreet c.rebuff (t.facing (h.state D)) ∧
      ∀ reply s', (Service.perform (t.occasion D) c).Ends (t.facing (h.state D)) (.ok reply) s' →
        (Http.replyResponse reply).status = 200 := by
  have hs : (t.facing (h.state D)).Calm := ht.calm
  rcases hc with ⟨email, password, rfl⟩ | ⟨email, recoveryKey, new, rfl⟩
  · refine ⟨(Service.login_discreet (o := t.occasion D) hP hs (hashed h)).map, ?_⟩
    intro reply s' hends
    obtain ⟨q, -, hreply⟩ := Op.ends_map.1 hends
    obtain ⟨tokens, -, rfl⟩ := map_eq_ok.1 hreply.symm
    rfl
  · refine ⟨(Service.recoverPassword_discreet (o := t.occasion D) ht.clock hP hs
      fun owner copies => fingerprint_of_active).map, ?_⟩
    intro reply s' hends
    obtain ⟨q, -, hreply⟩ := Op.ends_map.1 hends
    obtain ⟨shown, -, rfl⟩ := map_eq_ok.1 hreply.symm
    rfl

variable {r : Http.Request} {endpoint : Http.Endpoint}

/-- What is done at a gate. -/
theorem next_of_gate (hact : t.act = .request r)
    (htarget : Http.Endpoint.ofTarget? r.target = some endpoint)
    (hmethod : endpoint.verb.methods.contains r.method = true) {call : Except Http.Refusal Call}
    (hdemand : endpoint.demand r D.policy.digits = .anyone call) (s : State) :
    t.answer D s = .response (Http.respondTo (t.occasion D) (t.facing s) r call) ∧
      t.next D s = Http.stateAfter (t.occasion D) (t.facing s) call.toOption := by
  have hcall : Http.call? (t.occasion D) (t.facing s) r = call.toOption := by
    unfold Http.call?
    rw [htarget, Option.bind_some, if_pos hmethod]
    exact congrArg (Http.Demand.call? _ _ _) hdemand
  unfold Turn.answer Turn.next
  rw [hact]
  dsimp only
  rw [Http.respond_anyone (o := t.occasion D) htarget hmethod hdemand, Http.respond_state, hcall]
  exact ⟨rfl, rfl⟩

/-- **A failure at a gate** is answered by the request alone, and does nothing. Two runs are then
compared by comparing each with its request, and never with each other. -/
theorem rebuffed (hP : D.primitives.ReadableHashing) (ht : t.Faultless) (hact : t.act = .request r)
    (htarget : Http.Endpoint.ofTarget? r.target = some endpoint) (hgate : endpoint.IsGate)
    (hmethod : r.method = "POST") {call : Except Http.Refusal Call}
    (hdemand : endpoint.demand r D.policy.digits = .anyone call)
    (hfails : t.Fails D (h.state D)) :
    t.answer D (h.state D) = .response (some (Http.rebuff t.draws.reference call)) ∧
      t.next D (h.state D) = t.facing (h.state D) := by
  have hpost : endpoint.verb.methods.contains r.method = true := by
    rw [hmethod]
    rcases hgate with rfl | rfl <;> rfl
  have hfinish := Http.finish_of_post hmethod
  obtain ⟨hanswer, hnext⟩ := next_of_gate (D := D) hact htarget hpost hdemand (h.state D)
  obtain ⟨response, hresponse, hstatus⟩ := hfails
  cases call with
  -- The form is not in order: nothing was looked up.
  | error refusal => exact ⟨hanswer.trans (congrArg Answer.response (hfinish _)), hnext⟩
  | ok c =>
    obtain ⟨other, hother, -, hcalls⟩ := Http.demand_of_gate hgate r D.policy.digits
    cases hdemand.symm.trans hother
    obtain ⟨hdiscreet, hdone⟩ := discreet_of_gate (h := h) hP ht (hcalls c rfl)
    have hshown : Http.respondTo (t.occasion D) (t.facing (h.state D)) r (.ok c) =
        Http.settle (t.occasion D) (((Service.perform (t.occasion D) c).exec
          (t.facing (h.state D))).1.map Http.replyResponse) := hfinish _
    rw [hshown] at hanswer
    -- The call is refused as foreseen. It can neither break off, since there was a response, nor go
    -- through, since that was a failure.
    cases hdiscreet with
    | refused hends =>
      rw [← (Op.ends_iff.1 hends).1] at hanswer
      exact ⟨hanswer, hnext.trans (Op.ends_iff.1 hends).2.symm⟩
    | crashed hends =>
      rw [← (Op.ends_iff.1 hends).1] at hanswer
      cases hanswer.symm.trans hresponse
    | done hends =>
      rw [← (Op.ends_iff.1 hends).1] at hanswer
      cases hanswer.symm.trans hresponse
      exact absurd (hdone _ _ hends ▸ hstatus) (by decide)

end Gates

/-- **Failures tell nothing.** Whatever happened before, mishaps included, and whoever has an
account: where the same login or the same recovery fails in two runs, without a mishap in it, the
two responses are the same, whatever the time and the random values, and nothing is done in either
run. -/
theorem failures_tell_nothing {D : Deployment} (hP : D.primitives.ReadableHashing)
    {h h' : History} {t t' : Turn} {r : Http.Request} {endpoint : Http.Endpoint}
    (htarget : Http.Endpoint.ofTarget? r.target = some endpoint) (hgate : endpoint.IsGate)
    (hmethod : r.method = "POST") (hact : t.act = .request r) (hact' : t'.act = .request r)
    (ht : t.Faultless) (ht' : t'.Faultless)
    (hfails : t.Fails D (h.state D)) (hfails' : t'.Fails D (h'.state D)) :
    t.answer D (h.state D) = t'.answer D (h'.state D) ∧
      t.next D (h.state D) = t.facing (h.state D) ∧
      t'.next D (h'.state D) = t'.facing (h'.state D) := by
  obtain ⟨call, hdemand, hplain, -⟩ := Http.demand_of_gate hgate r D.policy.digits
  obtain ⟨hanswer, hnext⟩ := rebuffed hP ht hact htarget hgate hmethod hdemand hfails
  obtain ⟨hanswer', hnext'⟩ := rebuffed hP ht' hact' htarget hgate hmethod hdemand hfails'
  refine ⟨?_, hnext, hnext'⟩
  rw [hanswer, hanswer', Http.rebuff_congr hplain]

/-! A wrong recovery key for an account with a second factor, and the same request to a service that
has no account. -/

/-- The guess. -/
def Turn.guessing (step : UInt8) : Turn :=
  .posting step "/api/password/recover" none
    ("\x7b\"email\":\"a@b.c\",\"recovery_key\":\"aaaaaaaa aaaaaaaa aaaaaaaa aaaaaaaa\"," ++
      "\"new_password\":\"passw0rd\"\x7d")

/-- Both requests are turned away with the same response, though one is for an account that is there
and has its second factor on. -/
theorem failures_tell_nothing_guessing :
    ((History.enrolling.state .transparent).enabled (.ofByte 1) = true ∧
      (Turn.guessing 5).Fails .transparent (History.enrolling.state .transparent) ∧
      (Turn.guessing 6).Fails .transparent ((History.start .missing).state .transparent)) ∧
    (Turn.guessing 5).answer .transparent (History.enrolling.state .transparent) =
      (Turn.guessing 6).answer .transparent ((History.start .missing).state .transparent) ∧
    (Turn.guessing 5).next .transparent (History.enrolling.state .transparent) =
      (Turn.guessing 5).facing (History.enrolling.state .transparent) := by
  have hruns : (History.enrolling.state .transparent).enabled (.ofByte 1) = true ∧
      (Turn.guessing 5).Fails .transparent (History.enrolling.state .transparent) ∧
      (Turn.guessing 6).Fails .transparent ((History.start .missing).state .transparent) := by
    decide +kernel
  obtain ⟨henabled, hfails, hfails'⟩ := hruns
  have hgate : Http.Endpoint.recoverPassword.IsGate := .inr rfl
  obtain ⟨hanswer, hnext, -⟩ := failures_tell_nothing (D := .transparent)
    Primitives.transparent_readable (by decide +kernel) hgate rfl rfl rfl ⟨rfl, rfl⟩ ⟨rfl, rfl⟩
    hfails hfails'
  exact ⟨⟨henabled, hfails, hfails'⟩, hanswer, hnext⟩

end SecondFactor
