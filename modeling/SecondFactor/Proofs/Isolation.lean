import SecondFactor.Proofs.Revocation
import SecondFactor.Proofs.Shares
import SecondFactor.Proofs.Stores

/-!
# Accounts are kept apart

What is done for one account leaves alone what the stores have of another one, and does not depend
on it. Both are walks through the operations that keep a notion of likeness, of one state with
itself and of two states that differ in what they have of the other account.

## The architecture

* **`Service.Call.IsFor`**, **`Turn.IsFor`** — what is done for an account; **`perform_for`** — a
  call that is made for it, for any notion of likeness.
* **`History.Gave`**, **`family_of_gave`** — a session that was given out belongs to its account.
* **`Turn.IsFor.parallel`**, **`Turn.IsFor.share_eq`** — a turn that is made for an account, in two
  states and in one.
* **`accounts_isolated`** — a turn for one account, and any other account.
-/

namespace SecondFactor

open Service (Call Reply)

/-! ## §1 — what is done for an account -/

/-- A call is made for an account: with a session of it, by its address, or for a new pair of its
tokens. -/
inductive Service.Call.IsFor (o : Occasion) (s : State) (owner : Uuid) : Call → Prop where
  | member {c : Call} {session : Session} (hsession : c.session? = some session)
      (howner : session.owner = owner)
      (hfamily : ∀ row ∈ s.sessions, row.2.family = session.family → row.2.owner = owner) :
      IsFor o s owner c
  | login {email password : String} {account : Account}
      (haccount : s.ledger.findByEmail? email = some (owner, account)) :
      IsFor o s owner (.login email password)
  | recoverPassword {email recoveryKey new : String} {account : Account}
      (haccount : s.ledger.findByEmail? email = some (owner, account)) :
      IsFor o s owner (.recoverPassword email recoveryKey new)
  | refresh {token : String} {entry : Session.Entry}
      (hfound : Session.find? o.deployment.primitives .refresh o.now token s.sessions = some entry)
      (howner : entry.owner = owner)
      (hfamily : ∀ row ∈ s.sessions, row.2.family = entry.family → row.2.owner = owner) :
      IsFor o s owner (.refresh token)

/-- **A call that is made for an account** ends in the same way in two states that are alike, and
leaves them alike; a set-up is no longer ahead when it was made. -/
theorem Service.perform_for {L : Likeness} {o : Occasion} {owner : Uuid} {ahead : List Arrival}
    {s t : State} {c : Call} (hL : L.Lawful) (hown : L.Knows o owner)
    (hfamily : ∀ family, (∀ row ∈ s.sessions, row.2.family = family → row.2.owner = owner) →
      L.Drops family)
    (hfind : ∀ token entry, Session.find? o.deployment.primitives .refresh o.now token s.sessions =
      some entry → entry.owner = owner →
      Session.find? o.deployment.primitives .refresh o.now token t.sessions = some entry)
    (hc : c.IsFor o s owner) (h : L.Rel ((owner, o.draws.image) :: ahead) s t) :
    (perform o c).Parallel (L.Rel ahead) s t := by
  have hrel : L.Rel ahead s t := h.fewer hL .cons_self
  have haddress : ∀ {email account}, s.ledger.findByEmail? email = some (owner, account) →
      ∀ owner' account', s.ledger.findByEmail? email = some (owner', account') →
        L.Knows o owner' := by
    intro email account haccount owner' account' hother
    cases haccount.symm.trans hother
    exact hown
  cases hc with
  | member hsession howner hpair =>
    subst howner
    exact perform_parallel hL hown.toServes (hfamily _ hpair) hsession h
  | login haccount =>
    exact Op.Parallel.map (parallel_login hL (haddress haccount) _ hrel)
  | recoverPassword haccount =>
    exact Op.Parallel.map (parallel_recoverPassword hL
      (fun owner' account' hother => (haddress haccount owner' account' hother).toServes) _ _ hrel)
  | @refresh token entry hfound howner hpair =>
    have hboth := hfound.trans (hfind token entry hfound howner).symm
    refine Op.Parallel.map (parallel_refresh hboth (fun found hother => ?_) hrel)
    cases hfound.symm.trans hother
    exact ⟨howner ▸ hown.toServes, hfamily _ hpair⟩

/-! ### Sessions that were given -/

namespace History

variable {D : Deployment} {h : History} {session : Session}

/-- The session was given in a turn of the run. -/
def Gave (D : Deployment) (h : History) (session : Session) : Prop :=
  h.Any fun past t => ∃ row ∈ (t.next D (past.state D)).sessions,
    Session.mk row.2.owner row.2.claim row.2.family = session

/-- A token in use is that of a session that was given. -/
theorem gave_of_mem {row : Key × Session.Entry} (hrow : row ∈ (h.state D).sessions) :
    h.Gave D ⟨row.2.owner, row.2.claim, row.2.family⟩ := by
  cases h with
  | start gallery => cases hrow
  | turn h t => exact .inr ⟨row, hrow, rfl⟩

/-- **The family of a session that was given is that of its account**, also when the session has
come to its end. Induction on the history: a later turn has another family. -/
theorem family_of_gave (hrun : h.All fun past t => t.Fresh D past) (hgave : h.Gave D session) :
    (h.Any fun _ t => t.draws.tokens.family = session.family) ∧
      ∀ row ∈ (h.state D).sessions, row.2.family = session.family →
        row.2.owner = session.owner := by
  induction h with
  | start gallery => cases hgave
  | turn h t ih =>
    obtain ⟨hbefore, ht⟩ := hrun
    rcases hgave with hgave | ⟨given, hgiven, rfl⟩
    · obtain ⟨hearlier, hrows⟩ := ih hbefore hgave
      refine ⟨.inl hearlier, fun row hrow hfamily => ?_⟩
      rcases row_cases D t (h.state D) hrow with ⟨hrow, -⟩ | henters
      · exact hrows row hrow hfamily
      · refine absurd hearlier (ht.family.not_any fun _ _ hne heq => hne ?_)
        exact heq.trans (hfamily.symm.trans henters.family)
    · have hentered : (h.turn t).Any fun _ u => u.Enters D given := entered_of_mem hgiven
      refine ⟨hentered.mono fun _ _ henters => henters.family.symm, fun row hrow hfamily => ?_⟩
      exact (alike (h := h.turn t) ⟨hbefore, ht⟩ hrow hgiven hfamily).1

end History

/-! ### Turns -/

/-- A turn is for an account, after a run: a request that needs a session comes with one of it, or a
call is made with a session that was given to it, by its address, or for a new pair of its tokens. A
request that needs no session and is refused by its form is for nobody, and so for anybody. -/
inductive Turn.IsFor (D : Deployment) (h : History) (t : Turn) (owner : Uuid) : Prop where
  | request {r : Http.Request} {endpoint : Http.Endpoint}
      {call : Session → Except Http.Refusal Call} {session : Session} (hact : t.act = .request r)
      (htarget : Http.Endpoint.ofTarget? r.target = some endpoint)
      (hdemand : endpoint.demand r D.policy.digits = .member call)
      (hbearer : Http.bearer? (t.occasion D) (t.facing (h.state D)) r = some session)
      (howner : session.owner = owner)
  | call {c : Call} {session : Session} (hact : t.act = .call c)
      (hsession : c.session? = some session) (howner : session.owner = owner)
      (hgave : h.Gave D session)
  | login {email password : String} {account : Account}
      (hcall : t.call? D (h.state D) = some (.login email password))
      (haccount : (h.state D).ledger.findByEmail? email = some (owner, account))
  | recoverPassword {email recoveryKey new : String} {account : Account}
      (hcall : t.call? D (h.state D) = some (.recoverPassword email recoveryKey new))
      (haccount : (h.state D).ledger.findByEmail? email = some (owner, account))
  | refresh {token : String} {entry : Session.Entry}
      (hcall : t.call? D (h.state D) = some (.refresh token))
      (hfound : Session.find? D.primitives .refresh t.now token (h.state D).sessions = some entry)
      (howner : entry.owner = owner)
  | refused {r : Http.Request} {endpoint : Http.Endpoint} {refusal : Http.Refusal}
      (hact : t.act = .request r) (htarget : Http.Endpoint.ofTarget? r.target = some endpoint)
      (hdemand : endpoint.demand r D.policy.digits = .anyone (.error refusal))

namespace Http

variable {o : Occasion} {s : State} {r : Request} {endpoint : Endpoint}

/-- The call of a request that needs a session is made for that session. The tokens of its family
are those of its account, so that what it revokes is its own. -/
theorem session_of_member {call : Session → Except Refusal Call} {c : Call}
    (htarget : Endpoint.ofTarget? r.target = some endpoint)
    (hdemand : endpoint.demand r o.deployment.policy.digits = .member call)
    (hcall : call? o s r = some c) : ∃ session, c.session? = some session ∧
      bearer? o s r = some session := by
  have hfor := session_of_demand endpoint r o.deployment.policy.digits
  unfold call? at hcall
  rw [htarget, Option.bind_some] at hcall
  split at hcall
  · rw [hdemand] at hfor hcall
    obtain ⟨session, hbearer, hc⟩ := Option.bind_eq_some_iff.1 hcall
    cases hmade : call session with
    | ok d =>
      rw [hmade] at hc
      cases hc
      exact ⟨session, hfor session c hmade, hbearer⟩
    | error refusal =>
      rw [hmade] at hc
      cases hc
  · cases hcall

/-- A login, a recovery or a renewal is called for by the form alone, so the same call is made
whatever the stores have. -/
theorem call?_of_nobody {c : Call} (hcall : call? o s r = some c) (hnobody : c.session? = none)
    (t : State) : call? o t r = some c := by
  obtain ⟨endpoint, htarget, hmade⟩ := Option.bind_eq_some_iff.1 hcall
  cases hdemand : endpoint.demand r o.deployment.policy.digits with
  | anyone call =>
    unfold call?
    rw [htarget, Option.bind_some, hdemand]
    rw [hdemand] at hmade
    exact hmade
  | member call =>
    obtain ⟨session, hsession, -⟩ := session_of_member htarget hdemand hcall
    cases hnobody.symm.trans hsession

variable {refusal : Refusal}

theorem call?_of_refused (htarget : Endpoint.ofTarget? r.target = some endpoint)
    (hdemand : endpoint.demand r o.deployment.policy.digits = .anyone (.error refusal)) :
    call? o s r = none := by
  unfold call?
  rw [htarget, Option.bind_some, hdemand]
  split <;> rfl

theorem respond_of_refused (htarget : Endpoint.ofTarget? r.target = some endpoint)
    (hdemand : endpoint.demand r o.deployment.policy.digits = .anyone (.error refusal))
    (s t : State) : ((respond o r).run s).1 = ((respond o r).run t).1 := by
  rw [respond_eq, respond_eq, htarget]
  dsimp only
  rw [hdemand, result_anyone, result_anyone]

end Http

namespace Turn.IsFor

variable {D : Deployment} {h : History} {t : Turn} {owner other : Uuid} {c : Call}

/-- The call of a turn for an account is made for it. What a turn is *for* is said of requests and
texts, what a call is for is said of sessions and rows; this joins the two. -/
theorem isFor_call (hfor : t.IsFor D h owner) (hrun : h.All fun past t => t.Fresh D past)
    (hcall : t.call? D (h.state D) = some c) :
    c.IsFor (t.occasion D) (t.facing (h.state D)) owner := by
  cases hfor with
  -- The session of the request was found in the store, so its tokens are of one family, and the
  -- family is of one account.
  | request hact htarget hdemand hbearer howner =>
    unfold Turn.call? at hcall
    rw [hact] at hcall
    obtain ⟨session, hsession, hsame⟩ :=
      Http.session_of_member (o := t.occasion D) htarget hdemand hcall
    cases hbearer.symm.trans hsame
    obtain ⟨token, -, hauth⟩ := Option.bind_eq_some_iff.1 hbearer
    obtain ⟨entry, hfound, rfl⟩ := Option.map_eq_some_iff.1 hauth
    have hgave := History.gave_of_mem (Session.mem_of_find? hfound)
    exact .member hsession howner fun row hrow hfamily =>
      ((History.family_of_gave hrun hgave).2 row hrow hfamily).trans howner
  | call hact hsession howner hgave =>
    unfold Turn.call? at hcall
    rw [hact] at hcall
    cases hcall
    exact .member hsession howner fun row hrow hfamily =>
      ((History.family_of_gave hrun hgave).2 row hrow hfamily).trans howner
  -- Calls without a session name the account by an address or a token.
  | login hlogin haccount =>
    cases hlogin.symm.trans hcall
    exact .login haccount
  | recoverPassword hrecover haccount =>
    cases hrecover.symm.trans hcall
    exact .recoverPassword haccount
  | refresh hrefresh hfound howner =>
    cases hrefresh.symm.trans hcall
    exact .refresh hfound howner fun row hrow hfamily =>
      (alike hrun hrow (Session.mem_of_find? hfound) hfamily).1.trans howner
  | refused hact htarget hdemand =>
    unfold Turn.call? at hcall
    rw [hact] at hcall
    cases (Http.call?_of_refused (o := t.occasion D) htarget hdemand).symm.trans hcall

/-! ## §2 — accounts are kept apart -/

theorem call?_of_nobody {s : State} (hcall : t.call? D s = some c) (hnobody : c.session? = none)
    (s' : State) : t.call? D s' = some c := by
  unfold Turn.call? at hcall ⊢
  cases hact : t.act with
  | request r =>
    rw [hact] at hcall
    exact Http.call?_of_nobody hcall hnobody _
  | call d =>
    rw [hact] at hcall
    exact hcall

/-- A request that comes with a session of an account comes with it also where tokens of another
account differ. -/
theorem bearer?_eq {s s' : State} {r : Http.Request} {session : Session}
    (hsessions : Session.Veiled (Veil.ofAccount other).token s.sessions s'.sessions)
    (hother : other ≠ session.owner)
    (hbearer : Http.bearer? (t.occasion D) (t.facing s) r = some session) :
    Http.bearer? (t.occasion D) (t.facing s') r = some session := by
  obtain ⟨token, htoken, hauth⟩ := Option.bind_eq_some_iff.1 hbearer
  obtain ⟨entry, hfound, rfl⟩ := Option.map_eq_some_iff.1 hauth
  have hfound' := hsessions.find? hfound (beq_false_of_ne hother.symm)
  unfold Http.bearer?
  rw [htoken]
  exact Option.map_eq_some_iff.2 ⟨entry, hfound', rfl⟩

/-- **What a turn for an account is answered** does not depend on what the stores have of another
one. -/
theorem parallel (hfor : t.IsFor D h owner) (hrun : h.All fun past t => t.Fresh D past)
    (hother : other ≠ owner) {s : State} (halike : (h.state D).AlikeBut other s)
    (htidy : (h.state D).staging.Tidy t.names) (hkeyed : (h.state D).sessions.Keyed)
    (htidy' : s.staging.Tidy t.names) (hkeyed' : s.sessions.Keyed) :
    t.answer D (h.state D) = t.answer D s ∧ t.outcome D (h.state D) = t.outcome D s ∧
      (t.next D (h.state D)).AlikeBut other (t.next D s) := by
  have hsessions := halike.veiled_sessions hkeyed hkeyed'
  -- The same call is made in both states. A session comes with a request in both, as it is of the
  -- account that the turn is for.
  have hboth : t.call? D (h.state D) = t.call? D s ∧
      (t.call? D (h.state D) = none → t.answer D (h.state D) = t.answer D s) := by
    cases hfor with
    | @request r endpoint call session hact htarget hdemand hbearer howner =>
      have hsame := hbearer.trans (bearer?_eq hsessions (howner ▸ hother) hbearer).symm
      refine ⟨?_, fun hnone => Turn.answer_of_none hact hnone hsame⟩
      unfold Turn.call?
      rw [hact]
      exact Http.call?_congr hsame
    | call hact =>
      have hcall : ∀ u, t.call? D u = some _ := fun u => by
        unfold Turn.call?
        rw [hact]
      rw [hcall, hcall]
      exact ⟨rfl, nofun⟩
    | login hcall | recoverPassword hcall | refresh hcall =>
      rw [hcall, call?_of_nobody hcall rfl s]
      exact ⟨rfl, nofun⟩
    | refused hact htarget hdemand =>
      unfold Turn.call? Turn.answer
      rw [hact]
      dsimp only
      rw [Http.call?_of_refused (o := t.occasion D) htarget hdemand,
        Http.call?_of_refused (o := t.occasion D) htarget hdemand]
      exact ⟨rfl, fun _ => congrArg Answer.response
        (Http.respond_of_refused (o := t.occasion D) htarget hdemand _ _)⟩
  obtain ⟨hsame, hanswer⟩ := hboth
  rcases t.next_cases D (h.state D) with ⟨hnone, hout, hnext⟩ | ⟨c, r, hcall, -, -⟩
  · rcases t.next_cases D s with ⟨-, hout', hnext'⟩ | ⟨c, -, hcall, -⟩
    · rw [hout, hout', hnext, hnext']
      exact ⟨hanswer hnone, rfl, halike.accounts, halike.parts, halike.staging, halike.sessions⟩
    · cases (hsame.symm.trans hnone).symm.trans hcall
  · -- What the other account has is behind a veil. A call that is made for this one does not look
    -- behind it.
    have hrel : (Veil.ofAccount other).likeness.Rel [(owner, t.draws.image)] (t.facing (h.state D))
        (t.facing s) :=
      ⟨rfl, ⟨halike.accounts, halike.parts⟩, halike.veiled_staging htidy htidy', hsessions⟩
    have hfind : ∀ token entry, Session.find? D.primitives .refresh t.now token
          (t.facing (h.state D)).sessions = some entry → entry.owner = owner →
        Session.find? D.primitives .refresh t.now token (t.facing s).sessions = some entry :=
      fun token entry hfound howner =>
        hsessions.find? hfound (beq_false_of_ne (howner ▸ hother.symm))
    have hperform := Service.perform_for (Veil.ofAccount_lawful other)
      (Veil.ofAccount_knows (t.occasion D) hother) (fun _ _ => Veil.drops _) hfind
      (hfor.isFor_call hrun hcall) hrel
    obtain ⟨hanswer, hout, hstates⟩ := Turn.parallel hcall (hsame ▸ hcall) hperform
    exact ⟨hanswer, hout, .of_rel hstates⟩

/-- **A turn for an account leaves alone what the stores have of another one**, if no set-up for
that one comes in between. -/
theorem share_eq (hfor : t.IsFor D h owner) (hrun : h.All fun past t => t.Fresh D past)
    (hfresh : t.Fresh D h) (hother : other ≠ owner) (htidy : (h.state D).staging.Tidy t.names)
    (hapart : ∀ arrival ∈ Mishap.arrivals t.mishaps.queue, arrival.1 ≠ other) :
    (t.next D (h.state D)).share other = (h.state D).share other := by
  rcases t.next_cases D (h.state D) with ⟨-, -, hnext⟩ | ⟨c, r, hcall, -, -⟩
  · rw [hnext]
    rfl
  have hrow : ∀ row ∈ ((h.state D).share other).tokens,
      row ∈ (h.state D).sessions ∧ row.2.owner = other := fun row hrow =>
    ⟨(List.mem_filter.1 hrow).1, of_decide_eq_true (List.mem_filter.1 hrow).2⟩
  -- The turn draws tokens of its own, so that it cannot put one in the place of a token that is
  -- there.
  have hkeys : ∀ row ∈ ((h.state D).share other).tokens, row.1 ∉ t.minted D := by
    intro row hmem
    obtain ⟨u, hu, henters⟩ := (entered_of_mem (hrow row hmem).1).holds
    exact hfresh.keys_ne hu henters.mem_minted
  have hknows : (((h.state D).share other).likeness other).Knows (t.occasion D) owner :=
    Share.knows hother fun row hmem =>
      ⟨fun hkey => hkeys row hmem (hkey ▸ t.key_mem_minted .access),
        fun hkey => hkeys row hmem (hkey ▸ t.key_mem_minted .refresh)⟩
  have hdrops : ∀ family, (∀ row ∈ (t.facing (h.state D)).sessions,
      row.2.family = family → row.2.owner = owner) →
      (((h.state D).share other).likeness other).Drops family :=
    fun family hpair => Share.drops fun row hmem hfamily =>
      hother ((hrow row hmem).2.symm.trans (hpair row (hrow row hmem).1 hfamily))
  have hrel : (((h.state D).share other).likeness other).Rel [(owner, t.draws.image)]
      (t.facing (h.state D)) (t.facing (h.state D)) :=
    Share.rel_self rfl htidy (List.forall_mem_cons.2 ⟨hother.symm, hapart⟩)
  -- A likeness that says what the share is holds of the state and itself, and the call keeps it.
  have hperform := Service.perform_for (Share.lawful _ other) hknows hdrops
    (fun _ _ hfound _ => hfound) (hfor.isFor_call hrun hcall) hrel
  exact Share.eq_of_rel rfl (Turn.parallel hcall hcall hperform).2.2

end Turn.IsFor

/-- **Accounts are kept apart.** In a run whose tokens, families and images are new, a turn for one
account leaves alone what the stores have of another one: its account, its second factor and its
codes, what is pending for it with the image, and its tokens, if no set-up for it comes in between.
In any state that differs only in what it has of the other account besides the account itself, the
turn is answered in the same way, its call ends in the same way, and the states differ in nothing
else afterwards. -/
theorem accounts_isolated {D : Deployment} {h : History} {t : Turn} {owner other : Uuid}
    (hrun : (h.turn t).All fun past t => t.Fresh D past) (hnames : (h.turn t).names.Nodup)
    (hfor : t.IsFor D h owner) (hother : other ≠ owner) :
    ((∀ arrival ∈ Mishap.arrivals t.mishaps.queue, arrival.1 ≠ other) →
      (t.next D (h.state D)).share other = (h.state D).share other) ∧
    ∀ s : State, s.staging.Tidy t.names → s.sessions.Keyed → (h.state D).AlikeBut other s →
      t.answer D (h.state D) = t.answer D s ∧ t.outcome D (h.state D) = t.outcome D s ∧
        (t.next D (h.state D)).AlikeBut other (t.next D s) := by
  obtain ⟨htidy, hkeyed⟩ := History.tidy (D := D) hnames
  exact ⟨hfor.share_eq hrun.1 hrun.2 hother htidy, fun s htidy' hkeyed' halike =>
    hfor.parallel hrun.1 hother halike htidy hkeyed htidy' hkeyed'⟩

/-! An account has a second factor, codes and a session, and something is pending for another one,
which is activated. It would have been activated just as well without all that. -/

/-- The activation. -/
def Turn.joining : Turn := .posting 10 "/api/2fa/activate" (some 8) "\x7b\"code\":\"000010\"\x7d"

/-- A second account comes to the service, and the first one keeps its record, its codes and its
session. -/
theorem accounts_isolated_joining :
    (Turn.joining.answers .transparent (History.sharing.state .transparent) ∧
      ((History.sharing.state .transparent).share (.ofByte 1)).part.codes.length = 10 ∧
      ((History.sharing.state .transparent).share (.ofByte 1)).tokens.length = 2) ∧
    (Turn.joining.next .transparent (History.sharing.state .transparent)).share (.ofByte 1) =
      (History.sharing.state .transparent).share (.ofByte 1) ∧
    Turn.joining.answer .transparent (History.sharing.state .transparent) =
      Turn.joining.answer .transparent
        ((History.sharing.state .transparent).without (.ofByte 1)) := by
  have hrun : (History.sharing.turn .joining).All (fun past t => t.Fresh .transparent past) ∧
      (History.sharing.turn .joining).names.Nodup ∧
      Turn.joining.answers .transparent (History.sharing.state .transparent) ∧
      ((History.sharing.state .transparent).share (.ofByte 1)).part.codes.length = 10 ∧
      ((History.sharing.state .transparent).share (.ofByte 1)).tokens.length = 2 ∧
      ((History.sharing.state .transparent).without (.ofByte 1)).staging.Tidy Turn.joining.names ∧
      ((History.sharing.state .transparent).without (.ofByte 1)).sessions.Keyed := by
    decide +kernel
  obtain ⟨hfresh, hnames, hanswers, hcodes, htokens, htidy, hkeyed⟩ := hrun
  have hbearer : ∃ r, Turn.joining.act = .request r ∧
      Http.Endpoint.ofTarget? r.target = some .activate ∧
      Http.bearer? (Turn.joining.occasion .transparent)
        (Turn.joining.facing (History.sharing.state .transparent)) r =
          some ⟨.ofByte 7, .empty, .ofByte 8⟩ :=
    ⟨_, rfl, by decide +kernel, by decide +kernel⟩
  obtain ⟨r, hact, htarget, hbearer⟩ := hbearer
  -- The request comes with a session of the second account, which makes it a turn for that one.
  have hfor : Turn.joining.IsFor .transparent .sharing (.ofByte 7) :=
    .request hact htarget rfl hbearer rfl
  have hother : Uuid.ofByte 1 ≠ .ofByte 7 := by decide +kernel
  obtain ⟨hshare, hsame⟩ := accounts_isolated hfresh hnames hfor hother
  exact ⟨⟨hanswers, hcodes, htokens⟩, hshare nofun,
    (hsame _ htidy hkeyed (State.alikeBut_without _ _)).1⟩

end SecondFactor
