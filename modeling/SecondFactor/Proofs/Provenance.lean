import SecondFactor.Proofs.Tracing

/-!
# Where verified sessions come from

A token that says that the second factor was checked can be traced back to the check. Between the
check and the token there are only renewals, and no withdrawal of the second factor or of the
account. What needs a checked second factor therefore cannot be had with a password alone.

## The architecture

* **`vouched_of_mem`** — the run, by induction on the history.
* **`verified_sessions_have_provenance`** — tokens that say *verified*, and the calls that need one.
-/

namespace SecondFactor

open Service (Call Reply)

/-! ## §1 — every run -/

/-- **The run.** Every row that says *verified* is vouched for, whether or not its token has
expired. Induction on the history: the step leads each row back to one before the turn. -/
theorem vouched_of_mem {D : Deployment} {h : History} (hfrom : h.All fun _ t => t.FromOutside)
    {key : Key} {entry : Session.Entry} (hrow : (key, entry) ∈ (h.state D).sessions)
    (hverified : entry.claim = .verified) : Vouched D h key entry := by
  induction h generalizing key entry with
  | start gallery => cases hrow
  | turn h t ih =>
    cases traced hfrom.2 hrow hverified with
    | stayed hbefore hkeeps => exact .kept (ih hfrom.1 hbefore hverified) hbefore hkeeps
    | checked hcheck hkey => exact .checked hcheck hkey
    | passed hbefore hclaim howner hrenews hkey hkeeps =>
      exact .renewed (ih hfrom.1 hbefore hclaim) howner hrenews hkey hkeeps

/-- A record that is on is shown as active, if it is complete and no earlier one is shown. This is
what makes the calls ask for a verified session. -/
theorem active_of_enabled {t : Turn} {s : State} {owner : Uuid} (hcomplete : s.ledger.Complete)
    (hfresh : t.mishaps.staleRecord = none) (henabled : s.enabled owner = true) :
    (((t.facing s).shown owner).bind FactorRecord.active?).isSome = true := by
  obtain ⟨row, hrow, henabled⟩ := Ledger.of_any henabled
  obtain ⟨copies, hcopies⟩ := hcomplete owner row hrow henabled
  have hshown : (t.facing s).shown owner = some row := by
    rw [State.shown, show (t.facing s).mishaps.staleRecord = none from hfresh]
    exact hrow
  rw [hshown, Option.bind_some, hcopies]
  rfl

/-- What needs a checked second factor is refused to a session that does not say *verified*. There
are three such calls, and each looks at the claim before it writes. -/
theorem verified_of_privileged {D : Deployment} {t : Turn} {s : State} {call : Call}
    {session : Session} (hcomplete : s.ledger.Complete) (hfresh : t.mishaps.staleRecord = none)
    (hcall : t.call? D s = some call) (hprivileged : call.privileged? = some session)
    (henabled : s.enabled session.owner = true) (hdone : t.succeeds D s) :
    session.claim = .verified := by
  have hactive := active_of_enabled hcomplete hfresh henabled
  rcases t.next_cases D s with ⟨hnone, -, -⟩ | ⟨other, r, hother, hout, hends⟩
  · rw [hnone] at hcall
    cases hcall
  rw [hcall] at hother
  cases hother
  -- Only a call that is privileged is left to look at.
  cases call with
  | deleteAccount _ password =>
    cases hprivileged
    obtain ⟨q, hq, rfl⟩ := Op.ends_map.1 hends
    cases Service.deleteAccount_outcome hq with
    | refused hquiet => exact absurd hdone (Turn.not_succeeds hout hquiet.sessions)
    | done _ _ hclaim _ _ => exact hclaim hactive
  | generateBackupCodes _ password =>
    cases hprivileged
    obtain ⟨q, hq, rfl⟩ := Op.ends_map.1 hends
    cases Service.generateBackupCodes_outcome hq with
    | refused hquiet => exact absurd hdone (Turn.not_succeeds hout hquiet.sessions)
    | done hclaim _ _ _ _ => exact hclaim
  | changePassword _ current new =>
    cases hprivileged
    obtain ⟨q, hq, rfl⟩ := Op.ends_map.1 hends
    cases Service.changePassword_outcome hq with
    | refused hquiet => exact absurd hdone (Turn.not_succeeds hout hquiet.sessions)
    | done _ _ hclaim _ _ _ => exact hclaim hactive
  | _ => cases hprivileged

/-- **Verified sessions come from a check of the second factor.** In every run of requests, a token
that lasts and says *verified* is vouched for. What needs a checked second factor is done, for an
account whose record is enabled, only for a token that says *verified* and is vouched for; never for
one that came from a password alone. -/
theorem verified_sessions_have_provenance {D : Deployment} (hword : D.primitives.HashingLaws)
    {h : History} (hfrom : h.All fun _ t => t.FromOutside) :
    (∀ kind now token entry,
      Session.find? D.primitives kind now token (h.state D).sessions = some entry →
      entry.claim = .verified → Vouched D h (Session.digest D.primitives token) entry) ∧
    ∀ t : Turn, t.FromOutside → t.mishaps.staleRecord = none → ∀ call session,
      t.call? D (h.state D) = some call → call.privileged? = some session →
      (h.state D).enabled session.owner = true → t.succeeds D (h.state D) →
      ∃ r token entry, t.act = .request r ∧ r.token? = some token ∧
        Session.find? D.primitives .access t.now token (h.state D).sessions = some entry ∧
        entry.owner = session.owner ∧ entry.claim = .verified ∧
        Vouched D h (Session.digest D.primitives token) entry := by
  constructor
  · intro kind now token entry hfound hverified
    exact vouched_of_mem hfrom (Session.mem_of_find? hfound) hverified
  · intro t hout hfresh call session hcall hprivileged henabled hdone
    have hclaim := verified_of_privileged (complete_state hword h) hfresh hcall hprivileged henabled
      hdone
    have hsession : call.session? = some session := by
      cases call <;> first | exact hprivileged | cases hprivileged
    obtain ⟨r, token, entry, hact, htoken, hfound, rfl⟩ := token_of_call hout hcall hsession
    exact ⟨r, token, entry, hact, htoken, hfound, rfl, hclaim,
      vouched_of_mem hfrom (Session.mem_of_find? hfound) hclaim⟩

/-! A run in which an account is registered, logs in, and turns its second factor on. -/

/-- A form that is posted to a path in a step, with the access token from an earlier one. -/
def Turn.posting (step : UInt8) (path : String) (login : Option UInt8) (form : String) : Turn :=
  .inStep step <| .request
    { method := "POST"
      target := path
      authorization := login.map fun earlier =>
        "Bearer " ++ Session.tokenText (Draws.ofByte earlier).tokens.access
      contentType := some "application/json"
      body := Bytes.ofText form }

/-- The run. -/
def History.enrolling : History :=
  .turn (.turn (.turn (.turn (.start .missing)
    (.posting 1 "/api/register" none "\x7b\"email\":\"a@b.c\",\"password\":\"password\"\x7d"))
    (.posting 2 "/api/login" none "\x7b\"email\":\"a@b.c\",\"password\":\"password\"\x7d"))
    (.posting 3 "/api/2fa/setup" (some 2) "\x7b\"password\":\"password\"\x7d"))
    (.posting 4 "/api/2fa/activate" (some 2) "\x7b\"code\":\"000004\"\x7d")

/-- A change of the password after it. -/
def Turn.changing : Turn :=
  .posting 5 "/api/password/change" (some 4)
    "\x7b\"current_password\":\"password\",\"new_password\":\"passw0rd\"\x7d"

theorem verified_sessions_have_provenance_enrolling :
    Vouched .transparent .enrolling
      (Session.digest .transparent (Session.tokenText (Draws.ofByte 4).tokens.access))
      ⟨.ofByte 1, .verified, .access, .ofByte 4, .ofUnix 1020 0⟩ ∧
    Turn.changing.answers .transparent (History.enrolling.state .transparent) ∧
    ∃ r token entry, Turn.changing.act = .request r ∧ r.token? = some token ∧
      Session.find? .transparent .access Turn.changing.now token
        (History.enrolling.state .transparent).sessions = some entry ∧
      entry.owner = .ofByte 1 ∧ entry.claim = .verified ∧
      Vouched .transparent .enrolling (Session.digest .transparent token) entry := by
  have hrun : Session.find? .transparent .access Turn.changing.now
        (Session.tokenText (Draws.ofByte 4).tokens.access)
        (History.enrolling.state .transparent).sessions =
          some ⟨.ofByte 1, .verified, .access, .ofByte 4, .ofUnix 1020 0⟩ ∧
      (History.enrolling.state .transparent).enabled (.ofByte 1) = true ∧
      Turn.changing.call? .transparent (History.enrolling.state .transparent) =
        some (.changePassword ⟨.ofByte 1, .verified, .ofByte 4⟩ "password" "passw0rd") ∧
      Turn.changing.answers .transparent (History.enrolling.state .transparent) := by
    decide +kernel
  obtain ⟨hfound, henabled, hcall, hanswers⟩ := hrun
  obtain ⟨htokens, hcalls⟩ := verified_sessions_have_provenance
    (D := .transparent) (h := .enrolling) Primitives.transparent_hashing
    ⟨⟨⟨⟨trivial, .inl ⟨_, rfl⟩⟩, .inl ⟨_, rfl⟩⟩, .inl ⟨_, rfl⟩⟩, .inl ⟨_, rfl⟩⟩
  exact ⟨htokens .access Turn.changing.now _ _ hfound rfl, hanswers,
    hcalls Turn.changing (.inl ⟨_, rfl⟩) rfl _ _ hcall rfl henabled (.inl hanswers)⟩

end SecondFactor
