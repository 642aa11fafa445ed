import SecondFactor.Proofs.Provenance
import SecondFactor.Proofs.Shape
import SecondFactor.Proofs.Subjects

/-!
# The stores fit together in every run

Next to the ledger there are the pending secrets and the tokens in use. As long as requests come one
at a time, each leaves the stores fitting, whatever fails in it: an entry or a token belongs to an
account, and nothing is pending for an account whose second factor is on.

## The architecture

* **`Turn.Undisturbed`** — a turn of a run in which requests come one at a time.
* **`State.Shaped`** — how pending secrets and tokens fit the ledger.
* **`State.Shaped.of_kept`**, **`State.Shaped.of_becomes`** — the frame, and the change of a state.
* **`shaped_of_ends`** — every call keeps the shape; **`shaped`** — so it holds in every run.
* **`stores_shaped`** — the shape, with what follows from it.
-/

namespace SecondFactor

open Service (Call Reply)

/-! ## §1 — the invariant -/

/-- Nothing comes in between: no other set-up, and no stale record. Queries may fail. -/
structure Turn.Undisturbed (t : Turn) : Prop where
  alone : t.mishaps.Plain
  current : t.mishaps.staleRecord = none

/-- **The stores are in shape.** -/
structure State.Shaped (s : State) : Prop where
  ledger : s.ledger.Shaped
  /-- A pending secret belongs to an account. -/
  pending : ∀ owner, s.staging.has owner = true → s.ledger.Known owner
  /-- Nothing is pending beside a record that is on. -/
  unenrolled : ∀ owner, s.staging.has owner = true → s.enabled owner = false
  /-- A token belongs to an account. -/
  sessions : ∀ row ∈ s.sessions, s.ledger.Known row.2.owner

namespace State

variable {s : State} {owner : Uuid}

/-- What is shown is the record itself, unless an earlier one is shown in its place. -/
theorem shown_of_current (h : s.mishaps.staleRecord = none) (owner : Uuid) :
    s.shown owner = s.ledger.records.get? owner := by
  rw [shown, h]
  rfl

theorem enabled_of_shown (h : s.mishaps.staleRecord = none) {copies : Copies}
    (hshown : (s.shown owner).bind FactorRecord.active? = some copies) :
    s.enabled owner = true := by
  rw [shown_of_current h] at hshown
  obtain ⟨row, hrow, hactive⟩ := Option.bind_eq_some_iff.1 hshown
  exact enabled_of_row hrow (FactorRecord.active?_eq_some.1 hactive).1

end State

/-! ## §2 — pending secrets -/

namespace Staging

variable {s s' : Staging} {owner other : Uuid}

theorem has_iff : s.has owner = true ↔ ∃ entry, s.entries.get? owner = some entry :=
  Option.isSome_iff_exists

theorem has_of_kept (hkept : ∀ entry, s'.entries.get? owner = some entry →
    s.entries.get? owner = some entry) (h : s'.has owner = true) : s.has owner = true := by
  obtain ⟨entry, hentry⟩ := has_iff.1 h
  exact has_iff.2 ⟨entry, hkept entry hentry⟩

theorem has_discard (h : (s.discard owner).has other = true) :
    other ≠ owner ∧ s.has other = true := by
  refine ⟨fun heq => ?_, has_of_kept (fun entry => kept_of_discard) h⟩
  rw [has, get?_discard, if_pos heq] at h
  cases h

/-- To look at an entry, or to put it back, makes nothing pending. This is what attempts do with a
pending secret. -/
theorem has_amend {lifetime : Int} {now : Instant} {f : Pending → Pending}
    (h : (s.amend lifetime now owner f).2.has other = true) : s.has other = true := by
  by_cases hother : other = owner
  · rw [hother] at h ⊢
    obtain ⟨entry, hentry⟩ := has_iff.1 h
    unfold amend at hentry
    split at hentry
    · rename_i hlook
      exact has_iff.2 ⟨entry, get?_of_look (by rw [hlook]; exact hentry)⟩
    · rename_i hlook
      exact has_iff.2 ⟨entry, get?_of_look (by rw [hlook]; exact hentry)⟩
    · -- What is changed was there.
      rename_i found _ hlook
      exact has_iff.2 ⟨found, (found_of_look (by rw [hlook])).1⟩
  · exact has_of_kept (fun entry => get?_of_amend_ne hother) h

/-- After a set-up, something is pending for its account, and what was pending for others. -/
theorem has_enter {entry : Pending} {content : Bytes} (hs : s.enter owner entry content = .ok s')
    (h : s'.has other = true) : other = owner ∨ s.has other = true := by
  rw [has, get?_enter hs] at h
  split at h
  · exact .inl ‹_›
  · exact .inr h

end Staging

/-! ## §3 — what a change keeps -/

namespace State.Shaped

variable {s s' : State} {owner : Uuid}

/-- The frame: no more is pending, and there are no more tokens, while the ledger is the same. -/
theorem of_kept (hs : s.Shaped) (hledger : s'.ledger = s.ledger)
    (hpending : ∀ owner, s'.staging.has owner = true → s.staging.has owner = true)
    (hsessions : ∀ row ∈ s'.sessions, row ∈ s.sessions) : s'.Shaped where
  ledger := by
    rw [hledger]
    exact hs.ledger
  pending owner h := by
    rw [hledger]
    exact hs.pending owner (hpending owner h)
  unenrolled owner h := by
    rw [State.enabled, hledger]
    exact hs.unenrolled owner (hpending owner h)
  sessions row hrow := by
    rw [hledger]
    exact hs.sessions row (hsessions row hrow)

theorem of_faded (hs : s.Shaped) (hp : s.mishaps.Plain) (h : Faded s s') : s'.Shaped :=
  hs.of_kept h.ledger (fun owner => Staging.has_of_kept (h.entries hp owner))
    fun row hrow => by rwa [h.sessions] at hrow

theorem of_quiet (hs : s.Shaped) (hp : s.mishaps.Plain) (h : Quiet s s') : s'.Shaped :=
  hs.of_faded hp h.faded

/-- A state that is known by what it became is in shape, if its three stores are and fit each
other. -/
theorem of_becomes {l : Ledger} {g : Staging → Staging}
    {f : Session.Registry → Session.Registry} (hp : s.mishaps.Plain) (h : Becomes s l g f s')
    (hledger : l.Shaped)
    (hpending : ∀ owner, (g s.staging).has owner = true → l.Known owner ∧ l.enabled owner = false)
    (hsessions : ∀ row ∈ f s.sessions, l.Known row.2.owner) : s'.Shaped where
  ledger := by
    rw [h.ledger_eq]
    exact hledger
  pending owner howner := by
    rw [h.staging_eq hp] at howner
    rw [h.ledger_eq]
    exact (hpending owner howner).1
  unenrolled owner howner := by
    rw [h.staging_eq hp] at howner
    rw [State.enabled, h.ledger_eq]
    exact (hpending owner howner).2
  sessions row hrow := by
    rw [h.sessions_eq] at hrow
    rw [h.ledger_eq]
    exact hsessions row hrow

/-- What was pending still fits a ledger with the same accounts, if the record was not turned on.
Whoever turns a record on has to discard what is pending. -/
theorem pending_of (hs : s.Shaped) {l : Ledger} (haccounts : s.ledger.SameAccounts l)
    (henabled : l.enabled owner = s.ledger.enabled owner) (howner : s.staging.has owner = true) :
    l.Known owner ∧ l.enabled owner = false := by
  refine ⟨haccounts.known owner (hs.pending owner howner), ?_⟩
  rw [henabled]
  exact hs.unenrolled owner howner

theorem sessions_of (hs : s.Shaped) {l : Ledger} (haccounts : s.ledger.SameAccounts l)
    {row : Key × Session.Entry} (hrow : row ∈ s.sessions) : l.Known row.2.owner :=
  haccounts.known row.2.owner (hs.sessions row hrow)

end State.Shaped

/-- The tokens of a new pair belong to the account for which it was made. -/
theorem Service.known_of_issued {o : Occasion} {l : Ledger} {owner : Uuid} {claim : Claim}
    {registry : Session.Registry} (howner : l.Known owner)
    (hregistry : ∀ row ∈ registry, l.Known row.2.owner) :
    ∀ row ∈ (issued o owner claim registry).2, l.Known row.2.owner := by
  intro row hrow
  rcases Session.mem_issue hrow with hrow | ⟨heq, -, -⟩
  · exact hregistry row hrow
  · rw [heq]
    exact howner

/-- A stream of draws that yields codes yields ten. The service shows as many, and an account never
has more. -/
theorem BackupCode.length_of_collect {drawn out : List Draw} {stream : List Draw}
    (h : collect drawn stream = some out) : out.length = count := by
  induction stream generalizing drawn with
  | nil =>
    unfold collect at h
    split at h
    · cases h
      assumption
    · cases h
  | cons d stream ih =>
    unfold collect at h
    split at h
    · cases h
      assumption
    · split at h
      · exact ih h
      · exact ih h

theorem BackupCode.Stream.length_codes (s : Stream) : s.codes.length = count := by
  rw [codes, List.length_map]
  exact length_of_collect (Option.some_get s.enough).symm

/-! ## §4 — each call -/

section Calls

variable {o : Occasion} {s s' : State} {session : Session}

/-- A registration adds an account under an address that is free. Nothing else may belong to its
identifier yet, and nothing does. -/
theorem shaped_register (hs : s.Shaped) (hp : s.mishaps.Plain) {email password : String}
    {r : Except Failure (Uuid × Account)} (h : (Service.register o email password).Ends s r s') :
    s'.Shaped := by
  cases Service.register_outcome h with
  | refused hquiet => exact hs.of_quiet hp hquiet
  | @done address account _ _ hfree haccount hb =>
    have hknown : ∀ id, s.ledger.Known id → (s.ledger.register o.draws.account account).Known id :=
      fun id hid => by
        rw [Ledger.Known, Ledger.get?_register]
        split
        · rfl
        · exact hid
    have hshape : (s.ledger.register o.draws.account account).Shaped :=
      hs.ledger.register (by rw [haccount]; exact hfree)
    exact .of_becomes hp hb hshape
      (fun owner howner => ⟨hknown owner (hs.pending owner howner), hs.unenrolled owner howner⟩)
      fun row hrow => hknown row.2.owner (hs.sessions row hrow)

/-- A login enters a pair for the account that it found. -/
theorem shaped_login (hs : s.Shaped) (hp : s.mishaps.Plain) {email password : String}
    {r : Except Failure Session.Tokens} (h : (Service.login o email password).Ends s r s') :
    s'.Shaped := by
  cases Service.login_outcome h with
  | refused hquiet => exact hs.of_quiet hp hquiet
  | done hfound _ _ hb =>
    exact .of_becomes hp hb hs.ledger
      (fun owner howner => ⟨hs.pending owner howner, hs.unenrolled owner howner⟩)
      (Service.known_of_issued (Ledger.known_of_findByEmail? hfound) hs.sessions)

/-- A refresh enters a pair for the account of the token, which is known since the token is
there. -/
theorem shaped_refresh (hs : s.Shaped) {token : String} {r : Except Failure Session.Tokens}
    (h : (Service.refresh o token).Ends s r s') : s'.Shaped := by
  obtain ⟨-, rfl⟩ := Op.ends_onSessions.1 h
  refine ⟨hs.ledger, hs.pending, hs.unenrolled, ?_⟩
  show ∀ row ∈ (Session.refresh _ _ _ _ _ _).2, _
  unfold Session.refresh
  split
  · exact hs.sessions
  · -- The pair belongs to the account of the token that was presented.
    rename_i entry hfound
    have howner := hs.sessions _ (Session.mem_of_find? hfound)
    exact Service.known_of_issued howner fun row hrow =>
      hs.sessions row (List.mem_filter.1 hrow).1

/-- A deletion takes everything along, in all three stores. Whatever order it does this in, nothing
is left at its end that belongs to no account. -/
theorem shaped_deleteAccount (hs : s.Shaped) (hp : s.mishaps.Plain) {password : String}
    {r : Except Failure Unit} (h : (Service.deleteAccount o session password).Ends s r s') :
    s'.Shaped := by
  cases Service.deleteAccount_outcome h with
  | refused hquiet => exact hs.of_quiet hp hquiet
  | done _ _ _ hl hb =>
    rcases hl with rfl | rfl
    · exact .of_becomes hp hb hs.ledger
        (fun owner howner =>
          have hbefore := (Staging.has_discard howner).2
          ⟨hs.pending owner hbefore, hs.unenrolled owner hbefore⟩)
        fun row hrow => hs.sessions row (Session.mem_revokeOwner hrow).1
    · -- What is left belongs to other accounts.
      have hknown : ∀ owner, owner ≠ session.owner → s.ledger.Known owner →
          (s.ledger.remove session.owner).Known owner := fun owner hne howner => by
        rwa [Ledger.Known, Ledger.accounts_remove, if_neg hne]
      refine .of_becomes hp hb hs.ledger.remove (fun owner howner => ?_) fun row hrow => ?_
      · obtain ⟨hne, hbefore⟩ := Staging.has_discard howner
        refine ⟨hknown owner hne (hs.pending owner hbefore), ?_⟩
        rw [Ledger.enabled_remove, if_neg hne]
        exact hs.unenrolled owner hbefore
      · obtain ⟨hbefore, hne⟩ := Session.mem_revokeOwner hrow
        exact hknown row.2.owner hne (hs.sessions row hbefore)

/-- A set-up is refused for a record that is on, as long as the record is shown as it is. -/
theorem shaped_setup (hs : s.Shaped) (hp : s.mishaps.Plain)
    (hcurrent : s.mishaps.staleRecord = none) {password : String} {r : Except Failure ImageRef}
    (h : (Service.setup o session password).Ends s r s') : s'.Shaped := by
  cases Service.setup_outcome h with
  | refused hquiet => exact hs.of_quiet hp hquiet
  | done _ haccount _ hoff _ hbefore hafter hb =>
    refine .of_becomes hp hb hs.ledger (fun owner howner => ?_) hs.sessions
    rw [hbefore hp] at hafter
    rcases Staging.has_enter hafter howner with rfl | hold
    · rw [State.shown_of_current hcurrent] at hoff
      exact ⟨Ledger.known_of_get? haccount, hoff⟩
    · exact ⟨hs.pending owner hold, hs.unenrolled owner hold⟩

/-- An activation turns the record on and discards what was pending, or leaves both. The account is
known, since something was pending for it; so the tokens that are handed out are those of an
account. -/
theorem shaped_activate (hword : ∀ salt word, o.deployment.primitives.hashWord salt word ≠ "")
    (hs : s.Shaped) (hp : s.mishaps.Plain) {code : String} {r : Except Failure Service.Activation}
    (h : (Service.activate o session code).Ends s r s') : s'.Shaped := by
  cases Service.activate_outcome h with
  | refused _ hfaded => exact hs.of_faded hp hfaded
  | mistaken _ _ hb | unwritten _ _ hb =>
    refine hs.of_kept hb.ledger_eq (fun owner howner => ?_) fun row hrow => by
      rwa [hb.sessions_eq] at hrow
    rw [hb.staging_eq hp] at howner
    exact Staging.has_amend howner
  | late _ _ hquiet => exact hs.of_quiet hp hquiet
  | @done entry check _ l _ hcheck _ hl hb =>
    obtain ⟨-, hpending⟩ := (Service.checkPending_ends hcheck).2 _ rfl
    have hthere := hpending.there hp
    have howner := hs.pending session.owner (Staging.has_iff.2 ⟨entry, hthere⟩)
    have hshape : l.Shaped := hs.ledger.enable howner (Otp.Secret.wrap_ne_nil _ _ _ _)
      (Otp.Secret.wrap_ne_nil _ _ _ _) (hword _ _) hl
    have hsame : s.ledger.SameAccounts l := .of_eq (Ledger.enable?_eq hl).2.1
    refine .of_becomes hp hb hshape (fun other hother => ?_) ?_
    · -- The entry that was activated is gone, and no other record was turned on.
      have hne : other ≠ session.owner := by
        rintro rfl
        rw [Staging.has, Staging.get?_discardIf, if_pos] at hother
        · cases hother
        · rw [hthere]
          exact ⟨rfl, beq_self_eq_true entry.id⟩
      refine hs.pending_of hsame ?_
        (Staging.has_of_kept (fun _ => Staging.kept_of_discardIf) hother)
      rw [Ledger.enabled_enable? hl, if_neg hne]
    · exact Service.known_of_issued (hsame.known _ howner) fun row hrow =>
        hs.sessions_of hsame (Session.mem_revokeOwner hrow).1

/-- A verification changes no more than the main copy and the tokens of its family. -/
theorem shaped_validate (hs : s.Shaped) (hp : s.mishaps.Plain) {password code : String}
    {r : Except Failure Session.Tokens}
    (h : (Service.validate o session password code).Ends s r s') : s'.Shaped := by
  cases Service.validate_outcome h with
  | refused _ hquiet | lost _ hquiet => exact hs.of_quiet hp hquiet
  | @mistaken _ _ _ l _ _ _ hl hb =>
    have hsame : s.ledger.SameAccounts l := .of_updateMain hl
    exact .of_becomes hp hb (hs.ledger.updateMain (Otp.Secret.wrap_ne_nil _ _ _ _) hl)
      (fun owner => hs.pending_of hsame (Ledger.enabled_updateMain? hl owner))
      fun row => hs.sessions_of hsame
  | @done _ _ _ l _ hcheck _ hl hb =>
    have hsame : s.ledger.SameAccounts l := .of_updateMain hl
    obtain ⟨account, haccount, -⟩ := ((Service.checkMain_ends hcheck).2 _ rfl).account
    refine .of_becomes hp hb (hs.ledger.updateMain (Otp.Secret.wrap_ne_nil _ _ _ _) hl)
      (fun owner => hs.pending_of hsame (Ledger.enabled_updateMain? hl owner)) ?_
    exact Service.known_of_issued (hsame.known _ (Ledger.known_of_get? haccount)) fun row hrow =>
      hs.sessions_of hsame (List.mem_filter.1 hrow).1

/-- A backup code that is used leaves one row less. -/
theorem shaped_validateBackupCode (hs : s.Shaped) (hp : s.mishaps.Plain)
    (hcurrent : s.mishaps.staleRecord = none) {code : String} {r : Except Failure Session.Tokens}
    (h : (Service.validateBackupCode o session code).Ends s r s') : s'.Shaped := by
  cases Service.validateBackupCode_outcome h with
  | refused hquiet => exact hs.of_quiet hp hquiet
  | @done _ _ l _ _ hshown _ hl hb =>
    obtain ⟨haccounts, hrecords⟩ := Ledger.consumeCode?_eq hl
    have hsame : s.ledger.SameAccounts l := .of_eq haccounts
    have howner := hs.ledger.known (State.enabled_of_shown hcurrent hshown)
    refine .of_becomes hp hb (hs.ledger.consumeCode hl)
      (fun owner => hs.pending_of hsame (Ledger.enabled_of_records hrecords owner)) ?_
    exact Service.known_of_issued (hsame.known _ howner) fun row hrow =>
      hs.sessions_of hsame (List.mem_filter.1 hrow).1

/-- Codes are drawn only for a record that is shown as on. Ten rows take the place of the old
ones. -/
theorem shaped_generateBackupCodes (hs : s.Shaped) (hp : s.mishaps.Plain)
    (hcurrent : s.mishaps.staleRecord = none) {password : String}
    {r : Except Failure (List String)}
    (h : (Service.generateBackupCodes o session password).Ends s r s') : s'.Shaped := by
  cases Service.generateBackupCodes_outcome h with
  | refused hquiet => exact hs.of_quiet hp hquiet
  | done _ _ _ hshown hb =>
    have hten : (o.draws.codes.codes.map (BackupCode.hash o.deployment.primitives o.deployment.kdf
        session.owner)).length ≤ 10 := by
      rw [List.length_map, BackupCode.Stream.length_codes]
      exact Nat.le_refl 10
    have henabled := State.enabled_of_shown hcurrent hshown
    exact .of_becomes hp hb (hs.ledger.replaceCodes henabled hten)
      (fun owner => hs.pending_of (.of_eq rfl) rfl) hs.sessions

/-- A record that is turned off loses its codes, and all sessions of the account end. -/
theorem shaped_deactivate (hs : s.Shaped) (hp : s.mishaps.Plain) {password : String}
    {r : Except Failure Session.Tokens}
    (h : (Service.deactivate o session password).Ends s r s') : s'.Shaped := by
  cases Service.deactivate_outcome h with
  | refused hquiet => exact hs.of_quiet hp hquiet
  | done _ haccount _ _ hb =>
    have howner := Ledger.known_of_get? haccount
    refine .of_becomes hp hb (hs.ledger.disable howner) (fun other hother => ?_) ?_
    · obtain ⟨hne, hbefore⟩ := Staging.has_discard hother
      refine hs.pending_of (.of_eq rfl) ?_ hbefore
      rw [Ledger.enabled_disable, if_neg hne]
    · exact Service.known_of_issued howner fun row hrow =>
        hs.sessions row (Session.mem_revokeOwner hrow).1

/-- A change of the password touches the hash and the main copy. -/
theorem shaped_changePassword (hs : s.Shaped) (hp : s.mishaps.Plain) {current new : String}
    {r : Except Failure Session.Tokens}
    (h : (Service.changePassword o session current new).Ends s r s') : s'.Shaped := by
  cases Service.changePassword_outcome h with
  | refused hquiet => exact hs.of_quiet hp hquiet
  | @done account main l _ haccount _ _ hmain hl hb =>
    have hshape : l.Shaped := by
      refine hs.ledger.changePassword (fun expected rewrapped hsome => ?_) hl
      rw [hsome] at hmain
      obtain ⟨_, secret, -, -, -, rfl⟩ := hmain.of_some
      exact Otp.Secret.wrap_ne_nil _ _ _ _
    have hsame : s.ledger.SameAccounts l := .of_changePassword hl
    refine .of_becomes hp hb hshape (fun other hother => ?_) ?_
    · exact hs.pending_of hsame (Ledger.enabled_changePassword? hl other)
        (Staging.has_discard hother).2
    · exact Service.known_of_issued (hsame.known _ (Ledger.known_of_get? haccount)) fun row hrow =>
        hs.sessions_of hsame (Session.mem_revokeOwner hrow).1

/-- A recovery replaces all copies and the fingerprint, none of which is empty. -/
theorem shaped_recoverPassword
    (hword : ∀ salt word, o.deployment.primitives.hashWord salt word ≠ "") (hs : s.Shaped)
    (hp : s.mishaps.Plain) {email recoveryKey new : String} {r : Except Failure String}
    (h : (Service.recoverPassword o email recoveryKey new).Ends s r s') : s'.Shaped := by
  cases Service.recoverPassword_outcome h with
  | refused hquiet => exact hs.of_quiet hp hquiet
  | @done _ owner _ _ _ l _ _ _ _ _ hl hb =>
    have hshape : l.Shaped := hs.ledger.recover (Otp.Secret.wrap_ne_nil _ _ _ _)
      (Otp.Secret.wrap_ne_nil _ _ _ _) (hword _ _) hl
    have hsame : s.ledger.SameAccounts l := .of_recover hl
    refine .of_becomes hp hb hshape (fun other hother => ?_) fun row hrow =>
      hs.sessions_of hsame (Session.mem_revokeOwner hrow).1
    exact hs.pending_of hsame (Ledger.enabled_recover? hl other) (Staging.has_discard hother).2

end Calls

/-- **The step.** Every call keeps the stores in shape, whatever fails in it. What an operation
writes is one change of the ledger, and for each kind of change the shape is known to be kept. -/
theorem shaped_of_ends {o : Occasion} {s s' : State}
    (hword : ∀ salt word, o.deployment.primitives.hashWord salt word ≠ "") (hs : s.Shaped)
    (hp : s.mishaps.Plain) (hcurrent : s.mishaps.staleRecord = none)
    {call : Call} {r : Except Failure Reply}
    (h : (Service.perform o call).Ends s r s') : s'.Shaped := by
  -- A case for each call. The record that is shown matters to those which write codes or pending
  -- secrets for what they saw.
  cases call with
  | health =>
    obtain ⟨q, hq, -⟩ := Op.ends_map.1 h
    exact hs.of_faded hp (Service.health_ends hq)
  | register email password =>
    obtain ⟨q, hq, -⟩ := Op.ends_map.1 h
    exact shaped_register hs hp hq
  | login email password =>
    obtain ⟨q, hq, -⟩ := Op.ends_map.1 h
    exact shaped_login hs hp hq
  | refresh token =>
    obtain ⟨q, hq, -⟩ := Op.ends_map.1 h
    exact shaped_refresh hs hq
  | logout session =>
    obtain ⟨q, hq, -⟩ := Op.ends_map.1 h
    obtain ⟨-, rfl⟩ := Op.ends_changeSessions.1 hq
    exact hs.of_kept rfl (fun _ => id) fun row hrow => (List.mem_filter.1 hrow).1
  | deleteAccount session password =>
    obtain ⟨q, hq, -⟩ := Op.ends_map.1 h
    exact shaped_deleteAccount hs hp hq
  | overview session =>
    obtain ⟨q, hq, -⟩ := Op.ends_map.1 h
    exact hs.of_faded hp (Service.overview_ends hq)
  | setup session password =>
    obtain ⟨q, hq, -⟩ := Op.ends_map.1 h
    exact shaped_setup hs hp hcurrent hq
  | image session name =>
    obtain ⟨q, hq, -⟩ := Op.ends_map.1 h
    exact hs.of_faded hp (Service.pendingImage_ends hq)
  | activate session code =>
    obtain ⟨q, hq, -⟩ := Op.ends_map.1 h
    exact shaped_activate hword hs hp hq
  | validate session password code =>
    obtain ⟨q, hq, -⟩ := Op.ends_map.1 h
    exact shaped_validate hs hp hq
  | validateBackupCode session code =>
    obtain ⟨q, hq, -⟩ := Op.ends_map.1 h
    exact shaped_validateBackupCode hs hp hcurrent hq
  | generateBackupCodes session password =>
    obtain ⟨q, hq, -⟩ := Op.ends_map.1 h
    exact shaped_generateBackupCodes hs hp hcurrent hq
  | deactivate session password =>
    obtain ⟨q, hq, -⟩ := Op.ends_map.1 h
    exact shaped_deactivate hs hp hq
  | changePassword session current new =>
    obtain ⟨q, hq, -⟩ := Op.ends_map.1 h
    exact shaped_changePassword hs hp hq
  | recoverPassword email recoveryKey new =>
    obtain ⟨q, hq, -⟩ := Op.ends_map.1 h
    exact shaped_recoverPassword hword hs hp hq
  | purge =>
    obtain ⟨q, hq, -⟩ := Op.ends_map.1 h
    obtain ⟨hledger, hsessions, hpending⟩ := Service.purge_ends hq
    exact hs.of_kept hledger (fun owner => Staging.has_of_kept (hpending owner)) hsessions

/-! ## §5 — every run -/

/-- **The run.** The stores are in shape after any number of turns. Induction on the history; the
shape of all three stores is needed for the step of each. -/
theorem shaped {D : Deployment} (hword : ∀ salt word, D.primitives.hashWord salt word ≠ "")
    {h : History} (hrun : h.All fun _ t => t.Undisturbed) : (h.state D).Shaped := by
  induction h with
  | start gallery => exact ⟨.empty, nofun, nofun, nofun⟩
  | turn h t ih =>
    obtain ⟨hbefore, ht⟩ := hrun
    have hfacing : (t.facing (h.state D)).Shaped :=
      (ih hbefore).of_kept rfl (fun _ => id) fun _ => id
    show (t.next D (h.state D)).Shaped
    rcases t.next_cases D (h.state D) with ⟨-, -, hnext⟩ | ⟨call, r, -, -, hends⟩
    · rw [hnext]
      exact hfacing
    · exact shaped_of_ends hword hfacing ht.alone ht.current hends

/-- **The stores fit together in every run.** Whatever fails in the queries of a run in which
requests come one at a time, no two accounts have one address; records, backup codes, pending
secrets and tokens belong to accounts; a record has all its copies or none; an account has backup
codes, at most ten, only beside a record that is on, and a pending secret only without one. So it
makes no difference whether an operation asks for an enabled record or for an active one. -/
theorem stores_shaped {D : Deployment}
    (hword : ∀ salt word, D.primitives.hashWord salt word ≠ "") {h : History}
    (hrun : h.All fun _ t => t.Undisturbed) :
    (h.state D).Shaped ∧
    (∀ row ∈ (h.state D).ledger.codes, (h.state D).ledger.Known row.1) ∧
    ∀ owner, (h.state D).enabled owner =
      (((h.state D).ledger.records.get? owner).bind FactorRecord.active?).isSome := by
  have hshape := shaped hword hrun
  refine ⟨hshape, fun row hrow => hshape.ledger.known (hshape.ledger.codes row hrow), ?_⟩
  intro owner
  rw [State.enabled]
  cases hrow : (h.state D).ledger.records.get? owner with
  | none => rfl
  | some row => exact (hshape.ledger.whole owner row hrow).isSome_active?.symm

/-! A run in which one account has backup codes and something is pending for another. -/

/-- The run. The first time, the codes cannot be written. -/
def History.sharing : History :=
  .turn (.turn (.turn (.turn (.turn .enrolling
    { Turn.posting 5 "/api/2fa/backup-codes" (some 4) "\x7b\"password\":\"password\"\x7d" with
      mishaps := { queue := [⟨.replaceCodes, 0, .fails ⟨none⟩⟩] } })
    (.posting 6 "/api/2fa/backup-codes" (some 4) "\x7b\"password\":\"password\"\x7d"))
    (.posting 7 "/api/register" none "\x7b\"email\":\"c@d.e\",\"password\":\"passw0rd\"\x7d"))
    (.posting 8 "/api/login" none "\x7b\"email\":\"c@d.e\",\"password\":\"passw0rd\"\x7d"))
    (.posting 9 "/api/2fa/setup" (some 8) "\x7b\"password\":\"passw0rd\"\x7d")

theorem stores_shaped_sharing :
    ((History.sharing.state .transparent).enabled (.ofByte 1) = true ∧
      (History.sharing.state .transparent).ledger.countCodes (.ofByte 1) = 10 ∧
      (History.sharing.state .transparent).staging.has (.ofByte 7) = true) ∧
    (History.sharing.state .transparent).Shaped ∧
    (∀ row ∈ (History.sharing.state .transparent).ledger.codes,
      (History.sharing.state .transparent).ledger.Known row.1) ∧
    ∀ owner, (History.sharing.state .transparent).enabled owner =
      (((History.sharing.state .transparent).ledger.records.get? owner).bind
        FactorRecord.active?).isSome := by
  refine ⟨by decide +kernel, stores_shaped (D := .transparent) (h := .sharing)
    Primitives.transparent_hashing.hash_nonempty ?_⟩
  have hposting (step : UInt8) (path : String) (login : Option UInt8) (form : String) :
      (Turn.posting step path login form).Undisturbed := ⟨.of_nil rfl, rfl⟩
  have henrolling : History.enrolling.All fun _ t => t.Undisturbed :=
    ⟨⟨⟨⟨trivial, hposting _ _ _ _⟩, hposting _ _ _ _⟩, hposting _ _ _ _⟩, hposting _ _ _ _⟩
  refine ⟨⟨⟨⟨⟨henrolling, ⟨?_, rfl⟩⟩, hposting _ _ _ _⟩, hposting _ _ _ _⟩, hposting _ _ _ _⟩,
    hposting _ _ _ _⟩
  -- The query that fails is not another set-up.
  intro mishap hmem owner entry content hkind
  rw [List.mem_singleton.1 hmem] at hkind
  cases hkind

end SecondFactor
