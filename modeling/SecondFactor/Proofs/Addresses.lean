import SecondFactor.Proofs.Discretion
import SecondFactor.Proofs.Http.Guises

/-!
# Which account an address names

Three requests come with an address. A registration and a recovery take it without the blanks
around it; a login takes it as it was typed. So whoever registers with a blank around the address,
and sends the same form to log in, is turned away, whereas a recovery finds the account. The
accounts of every run have addresses without blanks, and no two have the same one: a login succeeds
with the very text of the registration if and only if that text has no blanks around it.

## The architecture

* **`Email.eq_trim_of_parse`**, **`Email.trim_of_parse`** — an address is its text without blanks.
* **`Ledger.Addressed`** — the addresses of a ledger; **`addressed`** — by induction on the run.
* **`Turn.Spares`** — a turn leaves an account alone; **`account_after`** — so does a run of such
  turns.
* **`register_of_status`**, **`grants_of_login`**, **`denies_of_login`** — the requests.
* **`address_names_account`** — what a registered address names from then on.
-/

namespace SecondFactor

open Service (Call Reply)

/-! ## §1 — texts without the blanks around them -/

namespace Text

variable {cs : List Char} {c : Char}

theorem mem_of_mem_trimChars (h : c ∈ trimChars cs) : c ∈ cs := by
  have hinner : c ∈ (cs.dropWhile isBlank).reverse :=
    (List.dropWhile_sublist isBlank).subset (List.mem_reverse.1 h)
  exact (List.dropWhile_sublist isBlank).subset (List.mem_reverse.1 hinner)

theorem dropWhile_isBlank (h : ∀ c ∈ cs, isBlank c = false) : cs.dropWhile isBlank = cs := by
  cases cs with
  | nil => rfl
  | cons c cs => rw [List.dropWhile_cons, h c List.mem_cons_self, if_neg Bool.false_ne_true]

theorem trimChars_of_no_blank (h : ∀ c ∈ cs, isBlank c = false) : trimChars cs = cs := by
  unfold trimChars
  rw [dropWhile_isBlank h, dropWhile_isBlank fun c hc => h c (List.mem_reverse.1 hc),
    List.reverse_reverse]

end Text

namespace Email

variable {text address : String}

/-- What the parser gives back is the text without the blanks around it, and that is an address. -/
theorem spec_parse (h : parse text = .ok address) :
    address = Text.trim text ∧ address.isEmpty = false ∧ IsAddress address.toList := by
  unfold parse at h
  dsimp only at h
  split at h
  · cases h
  · rename_i hempty
    split at h
    · rename_i haddress
      cases h
      exact ⟨rfl, Bool.eq_false_iff.2 hempty, haddress.2⟩
    · cases h

theorem eq_trim_of_parse (h : parse text = .ok address) : address = Text.trim text :=
  (spec_parse h).1

/-- **An address has no blanks around it**, nor anywhere. An address can therefore be looked up as
it is, and one that is trimmed again is the same. -/
theorem trim_of_parse (h : parse text = .ok address) : Text.trim address = address := by
  obtain ⟨-, -, hblanks, -⟩ := spec_parse h
  unfold Text.trim
  rw [Text.trimChars_of_no_blank fun c hc => (hblanks c hc).1, String.ofList_toList]

/-- The text of an address passes the test of a login, and so does the address itself. -/
theorem at_of_parse (h : parse text = .ok address) :
    '@' ∈ text.toList ∧ '@' ∈ address.toList := by
  obtain ⟨htrim, -, -, hat, -⟩ := spec_parse h
  refine ⟨Text.mem_of_mem_trimChars ?_, hat⟩
  rwa [htrim, Text.trim, String.toList_ofList] at hat

end Email

/-! ## §2 — the addresses of a ledger -/

/-- **No two accounts have one address**, and no address has blanks around it. -/
structure Ledger.Addressed (l : Ledger) : Prop where
  different : l.addresses.Nodup
  trimmed : ∀ address ∈ l.addresses, Text.trim address = address

namespace Ledger.Addressed

variable {o : Occasion} {l l' : Ledger} {owner : Uuid}

theorem of_addresses (h : l.Addressed) (haddresses : l'.addresses = l.addresses) :
    l'.Addressed where
  different := haddresses ▸ h.different
  trimmed := haddresses ▸ h.trimmed

theorem of_accounts (h : l.Addressed) (haccounts : l'.accounts = l.accounts) : l'.Addressed :=
  h.of_addresses (congrArg (List.map _) haccounts)

theorem remove (h : l.Addressed) : (l.remove owner).Addressed where
  different := h.different.sublist (l.addresses_erase owner)
  trimmed address haddress := h.trimmed address ((l.addresses_erase owner).subset haddress)

/-- One account is written, and the addresses stay as they should be. -/
theorem written (h : l.Addressed) (hwritten : l.AccountWritten o owner l'.accounts) :
    l'.Addressed := by
  generalize haccounts : l'.accounts = accounts at hwritten
  cases hwritten with
  | @registered email address password hparse hfree =>
    refine of_accounts ⟨nodup_addresses_register h.different hfree, ?_⟩ haccounts
    intro other hother
    rcases List.mem_cons.1 hother with rfl | hrest
    · exact Email.trim_of_parse hparse
    · exact h.trimmed other ((l.addresses_erase owner).subset hrest)
  | rehashed word => exact h.of_addresses (SameAccounts.of_setPasswordHash haccounts).addresses
  | removed => exact h.remove.of_accounts haccounts

theorem findByEmail?_of_blanks (h : l.Addressed) {text : String} (hblanks : Text.trim text ≠ text) :
    l.findByEmail? text = none := by
  refine List.find?_eq_none.2 fun row hrow htext => hblanks ?_
  have hsame : row.2.email = text := by simpa using htext
  exact h.trimmed text (hsame ▸ List.mem_map_of_mem hrow)

end Ledger.Addressed

section Runs

variable {D : Deployment} {s : State} {t : Turn} {owner : Uuid}

/-- **The step.** A turn writes at most one account, and a registration is refused if its address is
there already. -/
theorem Ledger.Addressed.next (h : s.ledger.Addressed) (D : Deployment) (t : Turn) :
    (t.next D s).ledger.Addressed := by
  rcases t.next_cases D s with ⟨-, -, hnext⟩ | ⟨c, r, -, -, hends⟩
  · rw [hnext]
    exact h
  · cases accounts_of_ends hends with
    | kept haccounts => exact h.of_accounts haccounts
    | written _ _ _ hwritten => exact h.written hwritten

/-- **The addresses of every run** are different and have no blanks around them, whatever mishaps
befell it. -/
theorem addressed (h : History) : (h.state D).ledger.Addressed := by
  induction h with
  | start gallery => exact ⟨List.nodup_nil, nofun⟩
  | turn h t ih => exact ih.next D t

/-! ## §3 — accounts that are left alone -/

/-- The turn leaves an account alone: a call that would put it, take it away, or set its password is
refused. -/
def Turn.Spares (D : Deployment) (s : State) (t : Turn) (owner : Uuid) : Prop :=
  ∀ c, t.call? D s = some c → c.writesAccount = true →
    c.subject? (t.occasion D) s.ledger = some owner →
    ∃ cause, t.outcome D s = some (.error (.refused cause))

/-- So does every turn of a run. -/
def State.Spared (D : Deployment) (owner : Uuid) : State → List Turn → Prop
  | _, [] => True
  | s, t :: ts => t.Spares D s owner ∧ (t.next D s).Spared D owner ts

theorem State.spared_singleton (h : t.Spares D s owner) : s.Spared D owner [t] := ⟨h, trivial⟩

/-- **The step.** An account that is left alone stays as it is. -/
theorem Turn.Spares.account (h : t.Spares D s owner) :
    (t.next D s).ledger.accounts.get? owner = s.ledger.accounts.get? owner := by
  rcases t.next_cases D s with ⟨-, -, hnext⟩ | ⟨c, r, hcall, hout, hends⟩
  · rw [hnext]
    rfl
  · cases accounts_of_ends hends with
    | kept haccounts => exact congrArg (Table.get? · owner) haccounts
    | @written other hwrites hsubject hdone hwritten =>
      have hother : owner ≠ other := by
        rintro rfl
        obtain ⟨cause, hrefused⟩ := h c hcall hwrites hsubject
        exact hdone cause (Option.some.inj (hout.symm.trans hrefused))
      generalize haccounts : (t.next D s).ledger.accounts = accounts at hwritten
      cases hwritten with
      | registered password _ _ => exact (Ledger.get?_register ..).trans (if_neg hother)
      | rehashed word => exact (Ledger.get?_setPasswordHash ..).trans (if_neg hother)
      | removed => exact (Ledger.accounts_remove ..).trans (if_neg hother)

/-- **The run.** Induction on its turns. The addresses of the ledger are carried along, because a
login of somebody else must not find the account. -/
theorem account_after {ts : List Turn} (hs : s.ledger.Addressed) (h : s.Spared D owner ts) :
    (s.after D ts).ledger.Addressed ∧
      (s.after D ts).ledger.accounts.get? owner = s.ledger.accounts.get? owner := by
  induction ts generalizing s with
  | nil => exact ⟨hs, rfl⟩
  | cons t ts ih =>
    obtain ⟨haddressed, haccount⟩ := ih (hs.next D t) h.2
    exact ⟨haddressed, haccount.trans h.1.account⟩

/-! ## §4 — requests with an address -/

/-- The turn is a request by `POST` to an endpoint. -/
structure Turn.Posts (t : Turn) (endpoint : Http.Endpoint) (r : Http.Request) : Prop where
  act : t.act = .request r
  target : Http.Endpoint.ofTarget? r.target = some endpoint
  method : r.method = "POST"

/-- The status of the response that the turn is answered by. -/
def Turn.status? (D : Deployment) (t : Turn) (s : State) : Option Nat :=
  match t.answer D s with
  | .response (some response) => some response.status
  | _ => none

/-- A login of the turn is answered with tokens that were made for an account. -/
def Turn.Grants (D : Deployment) (t : Turn) (s : State) (owner : Uuid) : Prop :=
  ∃ tokens claim, t.answer D s = .response (some (Http.replyResponse (.login tokens))) ∧
    Service.issued (t.occasion D) owner claim s.sessions = (.ok tokens, (t.next D s).sessions)

variable {r : Http.Request} {endpoint : Http.Endpoint} {email password : String}

theorem Turn.Posts.allowed (hposts : t.Posts endpoint r) (hverb : endpoint.verb = .post) :
    endpoint.verb.methods.contains r.method = true := by
  rw [hverb, hposts.method]
  rfl

theorem Turn.Posts.answer_of_refusal (hposts : t.Posts endpoint r) (hverb : endpoint.verb = .post)
    {refusal : Http.Refusal}
    (hdemand : endpoint.demand r D.policy.digits = .anyone (.error refusal)) :
    t.answer D s = .response (some (refusal.response t.draws.reference)) := by
  obtain ⟨hanswer, -⟩ :=
    next_of_gate (D := D) hposts.act hposts.target (hposts.allowed hverb) hdemand s
  exact hanswer.trans (congrArg Answer.response (Http.finish_of_post hposts.method _))

/-- The status and the body of the answer are what the outcome of the call says. -/
theorem Turn.Posts.answer_of_ends (hposts : t.Posts endpoint r) (hverb : endpoint.verb = .post)
    {c : Call} (hdemand : endpoint.demand r D.policy.digits = .anyone (.ok c))
    {result : Except Failure Reply} {s' : State}
    (hends : (Service.perform (t.occasion D) c).Ends (t.facing s) result s') :
    t.answer D s = .response (Http.settle (t.occasion D) (result.map Http.replyResponse)) ∧
      t.next D s = s' := by
  obtain ⟨hresult, hstate⟩ := Op.ends_iff.1 hends
  obtain ⟨hanswer, hnext⟩ :=
    next_of_gate (D := D) hposts.act hposts.target (hposts.allowed hverb) hdemand s
  rw [hresult, hstate]
  exact ⟨hanswer.trans (congrArg Answer.response (Http.finish_of_post hposts.method _)), hnext⟩

/-- A registration and a login read the same form, and differ in what they check of it: a
registration asks for a password that is long enough, a login for one that is there. -/
theorem Http.demand_of_form (hform : Http.readForm₂ r "email" "password" = .ok (email, password))
    (digits : Nat) :
    Http.Endpoint.register.demand r digits = .anyone
      ((fun _ => Call.register email password) <$> Http.checking (Http.checkPassword password)) ∧
    Http.Endpoint.login.demand r digits = .anyone
      ((fun _ => Call.login email password) <$>
        Http.checking (Http.checkCredentials email password)) := by
  have hread : Http.reading (Http.readForm₂ r "email" "password") = .ok (email, password) := by
    rw [hform]
    rfl
  constructor
  · dsimp only [Http.Endpoint.demand]
    rw [hread]
    rfl
  · dsimp only [Http.Endpoint.demand, bind, Except.bind]
    rw [hread]
    dsimp only
    cases Http.checking (Http.checkCredentials email password) <;> rfl

/-- **A registration that succeeds** puts the account, under the address without the blanks, with a
hash of the password as it was sent. What follows compares later forms with these two. -/
theorem register_of_status (hposts : t.Posts .register r)
    (hform : Http.readForm₂ r "email" "password" = .ok (email, password))
    (hstatus : t.status? D s = some 201) :
    Http.checkPassword password = .ok () ∧ ∃ account, Email.parse email = .ok account.email ∧
      account.passwordHash = D.primitives.hashWord t.draws.passwordSalt password ∧
      (t.next D s).ledger.accounts.get? t.draws.account = some account := by
  obtain ⟨hdemand, -⟩ := Http.demand_of_form hform D.policy.digits
  cases hpassword : Http.checkPassword password with
  | error cause =>
    rw [hpassword] at hdemand
    obtain ⟨complaint, rfl⟩ := Http.complaint_of_password hpassword
    rw [Turn.status?, hposts.answer_of_refusal rfl hdemand] at hstatus
    cases hstatus
  | ok _ =>
    rw [hpassword] at hdemand
    refine ⟨rfl, ?_⟩
    have hregister := Op.ends_exec (Service.register (t.occasion D) email password) (t.facing s)
    obtain ⟨hshown, hnext⟩ :=
      hposts.answer_of_ends rfl hdemand (Op.ends_map.2 ⟨_, hregister, rfl⟩)
    rw [Turn.status?, hshown] at hstatus
    generalize ((Service.register (t.occasion D) email password).exec (t.facing s)).1 = result
      at hregister hstatus
    generalize ((Service.register (t.occasion D) email password).exec (t.facing s)).2 = s'
      at hregister hnext
    subst hnext
    cases Service.register_outcome hregister with
    | @refused failure _ _ =>
      -- No refusal has the status of what was created.
      cases failure with
      | refused cause => cases cause <;> cases hstatus
      | crash => cases hstatus
    | @done address account _ hparse _ haccount hb =>
      refine ⟨account, ?_, congrArg Account.passwordHash haccount, ?_⟩
      · rw [hparse, haccount]
      · rw [hb.ledger_eq, Ledger.get?_register]
        exact if_pos rfl

/-- **A login** under the address of an account, with its password, is granted, if nothing befalls
it and the tokens can be dated. -/
theorem grants_of_login (hposts : t.Posts .login r)
    (hform : Http.readForm₂ r "email" "password" = .ok (email, password))
    (hcheck : Http.checkCredentials email password = .ok ()) (hcalm : t.mishaps = {})
    (hdatable : t.Datable D) {account : Account}
    (hfound : s.ledger.findByEmail? email = some (owner, account))
    (hpassword : D.primitives.verifyWord account.passwordHash password = .ok true) :
    t.Grants D s owner := by
  have hdemand := (Http.demand_of_form hform D.policy.digits).2
  rw [hcheck] at hdemand
  -- Without mishaps the login gets to where the tokens are handed out.
  have hissue := (Service.login_calm (o := t.occasion D) (s := t.facing s) hcalm hfound
    hpassword).2 (Op.ends_onSessions.2 ⟨rfl, rfl⟩)
  obtain ⟨hanswer, hnext⟩ := hposts.answer_of_ends rfl hdemand (Op.ends_map.2 ⟨_, hissue, rfl⟩)
  obtain ⟨tokens, htokens⟩ : ∃ tokens, (Service.issued (t.occasion D) owner
      (Claim.ofStatus ((s.ledger.records.get? owner).map FactorRecord.status)) s.sessions).1 =
        .ok tokens :=
    Session.issue_of_datable hdatable.1 hdatable.2
  refine ⟨tokens, _, hanswer.trans ?_, Prod.ext htokens ?_⟩
  · exact congrArg (fun result : Except Failure Session.Tokens =>
      Answer.response (Http.settle (t.occasion D)
        ((result.map Reply.login).map Http.replyResponse))) htokens
  · rw [hnext]
    rfl

/-- **A login under a text that names nobody** is turned away, and does nothing. It is answered like
a wrong password, so that this does not tell who has an account. -/
theorem denies_of_login (hposts : t.Posts .login r)
    (hform : Http.readForm₂ r "email" "password" = .ok (email, password))
    (hcheck : Http.checkCredentials email password = .ok ()) (hcalm : t.mishaps = {})
    (hfound : s.ledger.findByEmail? email = none) :
    t.answer D s =
        .response (some (.ofCause t.draws.reference (.authentication .credentials))) ∧
      t.next D s = t.facing s := by
  have hdemand := (Http.demand_of_form hform D.policy.digits).2
  rw [hcheck] at hdemand
  exact hposts.answer_of_ends rfl hdemand (Op.ends_map.2
    ⟨_, Service.login_unknown (o := t.occasion D) (s := t.facing s) hcalm hfound, rfl⟩)

/-! ### Forms that pass -/

/-- A password that is long enough for a registration is long enough for a login. -/
theorem Http.nonempty_of_checkPassword (h : Http.checkPassword password = .ok ()) :
    password.isEmpty = false := by
  unfold Http.checkPassword at h
  split at h
  · cases h
  · rename_i hempty
    exact Bool.eq_false_iff.2 hempty

/-- What a login asks of its form: an address with an *at* in it that is not blank, and a
password. -/
theorem Http.checkCredentials_of (hpresent : (Text.trim email).isEmpty = false)
    (hat : '@' ∈ email.toList) (hpassword : password.isEmpty = false) :
    Http.checkCredentials email password = .ok () := by
  have hchecked : Http.checkPresent .emailMissing email = .ok () := by
    unfold Http.checkPresent
    rw [hpresent]
    rfl
  unfold Http.checkCredentials
  rw [hchecked, hpassword, if_neg (not_not.2 hat)]
  rfl

/-- A form with which one can register can be sent to log in, with the blanks around the address or
without them. -/
theorem Http.checkCredentials_of_parse {address : String} (hparse : Email.parse email = .ok address)
    (hpassword : Http.checkPassword password = .ok ()) :
    Http.checkCredentials email password = .ok () ∧
      Http.checkCredentials address password = .ok () := by
  obtain ⟨htrim, hempty, -⟩ := Email.spec_parse hparse
  obtain ⟨hat, hataddress⟩ := Email.at_of_parse hparse
  have hword := Http.nonempty_of_checkPassword hpassword
  refine ⟨Http.checkCredentials_of ?_ hat hword, Http.checkCredentials_of ?_ hataddress hword⟩
  · rw [← htrim]
    exact hempty
  · rw [Email.trim_of_parse hparse]
    exact hempty

/-- A recovery makes its call with the address without blanks around it. This is what sets it apart
from a login. -/
theorem Turn.Posts.call_recoverPassword (hposts : t.Posts .recoverPassword r) {key new : String}
    (hform : Http.readForm₃ r "email" "recovery_key" "new_password" = .ok (email, key, new))
    (hpresent : (Text.trim email).isEmpty = false) (hnew : Http.checkPassword new = .ok ()) :
    t.call? D s = some (.recoverPassword (Text.trim email) key new) := by
  -- The demand reads the form, then checks the address, then the password; each check passes.
  have hread : Http.reading (Http.readForm₃ r "email" "recovery_key" "new_password") =
      .ok (email, key, new) := by
    rw [hform]
    rfl
  have hemail : Http.checking (Http.checkPresent .emailMissing email) = .ok () := by
    unfold Http.checkPresent
    rw [hpresent]
    rfl
  have hpassword : Http.checking (Http.checkPassword new) = .ok () := congrArg Http.checking hnew
  have hdemand : Http.Endpoint.recoverPassword.demand r D.policy.digits =
      .anyone (.ok (.recoverPassword (Text.trim email) key new)) := by
    dsimp only [Http.Endpoint.demand, bind, Except.bind]
    rw [hread]
    dsimp only
    rw [hemail]
    dsimp only
    rw [hpassword]
    rfl
  unfold Turn.call?
  rw [hposts.act]
  dsimp only
  unfold Http.call?
  rw [hposts.target, Option.bind_some, if_pos (hposts.allowed rfl)]
  exact congrArg (Http.Demand.call? _ _ _) hdemand

/-! ## §5 — what an address names -/

/-- What the text and the password of a registration are good for in a state. -/
structure State.Names (D : Deployment) (s : State) (email password : String) (owner : Uuid) :
    Prop where
  /-- The form of the registration logs in to the account exactly if there are no blanks around the
  address. -/
  typed : ∀ (u : Turn) (r : Http.Request), u.mishaps = {} → u.Datable D → u.Posts .login r →
    Http.readForm₂ r "email" "password" = .ok (email, password) →
    (u.Grants D s owner ↔ Text.trim email = email)
  /-- Otherwise it is turned away as if nobody had the address. -/
  denied : ∀ (u : Turn) (r : Http.Request), u.mishaps = {} → u.Posts .login r →
    Http.readForm₂ r "email" "password" = .ok (email, password) → Text.trim email ≠ email →
    u.answer D s = .response (some (.ofCause u.draws.reference (.authentication .credentials))) ∧
      u.next D s = u.facing s
  /-- Without the blanks it logs in. -/
  trimmed : ∀ (u : Turn) (r : Http.Request), u.mishaps = {} → u.Datable D → u.Posts .login r →
    Http.readForm₂ r "email" "password" = .ok (Text.trim email, password) → u.Grants D s owner
  /-- A recovery is about the account, with the blanks or without them. -/
  recovery : ∀ (u : Turn) (r : Http.Request) (text key new : String),
    u.Posts .recoverPassword r → text = email ∨ text = Text.trim email →
    Http.readForm₃ r "email" "recovery_key" "new_password" = .ok (text, key, new) →
    Http.checkPassword new = .ok () →
    u.call? D s = some (.recoverPassword (Text.trim email) key new) ∧
      ∃ account, s.ledger.findByEmail? (Text.trim email) = some (owner, account)

/-- What an account in the ledger is found under. The parts of the statement below are all of one
state, so that the run before it enters only through what the ledger holds. -/
theorem names_of_account (hP : D.primitives.HashingLaws) (hs : s.ledger.Addressed)
    {account : Account} {salt : Salt} (hparse : Email.parse email = .ok account.email)
    (hcheck : Http.checkPassword password = .ok ())
    (hhash : account.passwordHash = D.primitives.hashWord salt password)
    (haccount : s.ledger.accounts.get? owner = some account) : s.Names D email password owner := by
  have htrim := Email.eq_trim_of_parse hparse
  have hfound := Ledger.findByEmail?_of_nodup hs.different haccount
  rw [htrim] at hfound
  have hpassword : D.primitives.verifyWord account.passwordHash password = .ok true := by
    rw [hhash]
    exact hP.verify_hash salt password
  obtain ⟨htyped, haddress⟩ := Http.checkCredentials_of_parse hparse hcheck
  rw [htrim] at haddress
  -- One part after the other: the login with the text of the registration, which is granted only if
  -- there are no blanks in it; the same login where there are some; the login with the address; and
  -- the recovery.
  refine ⟨fun u r hcalm hdatable hposts hform => ⟨fun hgrants => ?_, fun hsame => ?_⟩,
    fun u r hcalm hposts hform hblanks => ?_, fun u r hcalm hdatable hposts hform => ?_,
    fun u r text key new hposts htext hform hnew => ?_⟩
  · by_contra hblanks
    obtain ⟨tokens, claim, hanswer, -⟩ := hgrants
    obtain ⟨hdenied, -⟩ :=
      denies_of_login hposts hform htyped hcalm (hs.findByEmail?_of_blanks hblanks)
    cases hanswer.symm.trans hdenied
  · rw [hsame] at hfound
    exact grants_of_login hposts hform htyped hcalm hdatable hfound hpassword
  · exact denies_of_login hposts hform htyped hcalm (hs.findByEmail?_of_blanks hblanks)
  · exact grants_of_login hposts hform haddress hcalm hdatable hfound hpassword
  · -- Whichever of the two texts is sent, what is looked up is the same.
    have hsame : Text.trim text = Text.trim email := by
      rcases htext with rfl | rfl
      · rfl
      · rw [← htrim, Email.trim_of_parse hparse]
    have hpresent : (Text.trim text).isEmpty = false := by
      rw [hsame, ← htrim]
      exact (Email.spec_parse hparse).2.1
    exact ⟨hsame ▸ hposts.call_recoverPassword hform hpresent hnew, account, hfound⟩

end Runs

/-- **A registered address names its account**, but not to a login that is sent the blanks around
it. After a registration that succeeded, and after any turns that leave the account alone, whatever
mishaps befell them, the form of the registration logs in if and only if there were no blanks around
the address; without the blanks it logs in in any case, and a recovery finds the account with the
blanks or without them. -/
theorem address_names_account {D : Deployment} (hP : D.primitives.HashingLaws) (h : History)
    {t : Turn} {r : Http.Request} {email password : String} (hposts : t.Posts .register r)
    (hform : Http.readForm₂ r "email" "password" = .ok (email, password))
    (hstatus : t.status? D (h.state D) = some 201)
    {ts : List Turn} (hspared : ((h.turn t).state D).Spared D t.draws.account ts) :
    (((h.turn t).state D).after D ts).Names D email password t.draws.account := by
  obtain ⟨hcheck, account, hparse, hhash, haccount⟩ :=
    register_of_status hposts hform hstatus
  obtain ⟨haddressed, hkept⟩ := account_after (addressed (h.turn t)) hspared
  exact names_of_account hP haddressed hparse hcheck hhash (hkept.trans haccount)

/-! An address with a blank before it and one behind. Somebody else registers in between. -/

/-- A form with an address and a password that is posted. -/
def Turn.sending (step : UInt8) (path email : String) : Turn :=
  .posting step path none
    ("\x7b\"email\":\"" ++ email ++ "\",\"password\":\"password\"\x7d")

/-- The account is found under its address with the blanks taken off. With them the login is turned
away, and a recovery still finds the account. -/
theorem address_names_account_blanks :
    ∃ s : State, s = (((History.start .missing).turn (.sending 1 "/api/register" " a@b.c ")).state
        .transparent).after .transparent [.sending 2 "/api/register" "x@y.z"] ∧
      s.Names .transparent " a@b.c " "password" (.ofByte 1) ∧
      (Turn.sending 3 "/api/login" " a@b.c ").answer .transparent s =
        .response (some (.ofCause (.ofByte 3) (.authentication .credentials))) ∧
      (Turn.sending 3 "/api/login" "a@b.c").Grants .transparent s (.ofByte 1) := by
  have hother : (Turn.sending 2 "/api/register" "x@y.z").call? .transparent
      (((History.start .missing).turn (.sending 1 "/api/register" " a@b.c ")).state .transparent) =
      some (.register "x@y.z" "password") := by
    decide +kernel
  have hspared : (((History.start .missing).turn (.sending 1 "/api/register" " a@b.c ")).state
      .transparent).Spared .transparent (.ofByte 1) [.sending 2 "/api/register" "x@y.z"] := by
    refine State.spared_singleton fun c hcall _ hsubject => ?_
    -- The other registration is about another account.
    obtain rfl := Option.some.inj (hother.symm.trans hcall)
    exact absurd hsubject (by decide +kernel)
  have hnames : ((((History.start .missing).turn (.sending 1 "/api/register" " a@b.c ")).state
      .transparent).after .transparent [.sending 2 "/api/register" "x@y.z"]).Names .transparent
        " a@b.c " "password" (.ofByte 1) :=
    address_names_account (D := .transparent) Primitives.transparent_hashing (.start .missing)
      ⟨rfl, by decide +kernel, rfl⟩ (by decide +kernel) (by decide +kernel) hspared
  refine ⟨_, rfl, hnames, ?_, ?_⟩
  · exact (hnames.denied _ _ rfl ⟨rfl, by decide +kernel, rfl⟩ (by decide +kernel)
      (by decide +kernel)).1
  · exact hnames.trimmed _ _ rfl ⟨by decide +kernel, by decide +kernel⟩
      ⟨rfl, by decide +kernel, rfl⟩ (by decide +kernel)

end SecondFactor
