import SecondFactor.Proofs.Provenance
import SecondFactor.Proofs.Shape
import SecondFactor.Proofs.Subjects

/-!
# What a call does to the accounts

Four calls write accounts: a registration puts one, closing an account takes it away, and changing
or recovering a password sets a hash. Each writes the one account that it is about, and a call that
is refused writes nothing. All other calls leave the accounts alone. A statement about accounts in a
run needs no more than these cases.

## The architecture

* **`Call.writesAccount`** — the four calls.
* **`Ledger.AccountWritten`** — what is written; **`AccountsAfter`** — the accounts after any call.
* **`accounts_of_ends`** — it is so, by the outcome of each call.
* **`Ledger.Hashed`** — the password hashes of a ledger were made by the service; **`hashed`** — by
  induction on the run.
-/

namespace SecondFactor

open Service (Call Reply)

/-- The calls that put an account, take it away, or set its password. -/
def Service.Call.writesAccount : Call → Bool
  | .register _ _ | .deleteAccount _ _ | .changePassword _ _ _ | .recoverPassword _ _ _ => true
  | .health | .login _ _ | .refresh _ | .logout _ | .overview _ | .setup _ _ | .image _ _
  | .activate _ _ | .validate _ _ _ | .validateBackupCode _ _ | .generateBackupCodes _ _
  | .deactivate _ _ | .purge => false

/-- One account of a ledger is written. -/
inductive Ledger.AccountWritten (o : Occasion) (l : Ledger) (owner : Uuid) :
    Table Uuid Account → Prop where
  | registered {email address : String} (password : String)
      (hparse : Email.parse email = .ok address) (hfree : l.findByEmail? address = none) :
      AccountWritten o l owner (l.register owner ⟨address,
        o.deployment.primitives.hashWord o.draws.passwordSalt password, o.now, o.now⟩).accounts
  | rehashed (word : String) : AccountWritten o l owner
      (l.setPasswordHash owner
        (o.deployment.primitives.hashWord o.draws.passwordSalt word)).accounts
  | removed : AccountWritten o l owner (l.remove owner).accounts

/-- The accounts after a call that ended with a result. -/
inductive AccountsAfter (o : Occasion) (c : Call) (r : Except Failure Reply) (l l' : Ledger) :
    Prop where
  | kept (h : l'.accounts = l.accounts)
  | written {owner : Uuid} (hcall : c.writesAccount = true)
      (hsubject : c.subject? o l = some owner) (hdone : ∀ cause, r ≠ .error (.refused cause))
      (h : l.AccountWritten o owner l'.accounts)

variable {o : Occasion} {s s' : State}

/-- Handing out tokens may break off, but is not refused. -/
theorem Service.not_refused_of_issued {α : Type} {owner : Uuid} {claim : Claim}
    {registry : Session.Registry} (f : Session.Tokens → α) (cause : Cause) :
    f <$> (issued o owner claim registry).1 ≠ .error (.refused cause) := by
  cases hissue : (issued o owner claim registry).1 with
  | ok tokens => exact nofun
  | error failure =>
    rw [Session.crash_of_issue hissue]
    exact nofun

/-- **What a call does to the accounts.** It leaves them, adds one, removes one, or gives one a new
password hash. Statements about accounts along a run go by these four, and look at no call again. -/
theorem accounts_of_ends {c : Call} {r : Except Failure Reply}
    (h : (Service.perform o c).Ends s r s') : AccountsAfter o c r s.ledger s'.ledger := by
  -- Four calls write an account. Of the others, most leave the ledger, and the rest write another
  -- table.
  have hquiet : ∀ {l : Ledger}, l = s.ledger → AccountsAfter o c r s.ledger l :=
    fun hl => .kept (congrArg Ledger.accounts hl)
  cases c with
  | health =>
    obtain ⟨q, hq, -⟩ := Op.ends_map.1 h
    exact hquiet (Service.health_ends hq).ledger
  | register email password =>
    obtain ⟨q, hq, rfl⟩ := Op.ends_map.1 h
    cases Service.register_outcome hq with
    | refused hrefused => exact hquiet hrefused.ledger
    | done hparse hfree haccount hb =>
      subst haccount
      refine .written rfl rfl nofun ?_
      rw [hb.ledger_eq]
      exact .registered password hparse hfree
  | login email password =>
    obtain ⟨q, hq, -⟩ := Op.ends_map.1 h
    cases Service.login_outcome hq with
    | refused hrefused => exact hquiet hrefused.ledger
    | done _ _ _ hb => exact hquiet hb.ledger_eq
  | refresh token =>
    obtain ⟨q, hq, -⟩ := Op.ends_map.1 h
    obtain ⟨-, rfl⟩ := Op.ends_onSessions.1 hq
    exact hquiet rfl
  | logout session =>
    obtain ⟨q, hq, -⟩ := Op.ends_map.1 h
    obtain ⟨-, rfl⟩ := Op.ends_changeSessions.1 hq
    exact hquiet rfl
  | deleteAccount session password =>
    obtain ⟨q, hq, rfl⟩ := Op.ends_map.1 h
    cases Service.deleteAccount_outcome hq with
    | refused hrefused => exact hquiet hrefused.ledger
    | done _ _ _ hl hb =>
      -- The rows may have been gone already.
      rcases hl with rfl | rfl
      · exact hquiet hb.ledger_eq
      · refine .written rfl rfl nofun ?_
        rw [hb.ledger_eq]
        exact .removed
  | overview session =>
    obtain ⟨q, hq, -⟩ := Op.ends_map.1 h
    exact hquiet (Service.overview_ends hq).ledger
  | setup session password =>
    obtain ⟨q, hq, -⟩ := Op.ends_map.1 h
    cases Service.setup_outcome hq with
    | refused hrefused => exact hquiet hrefused.ledger
    | done _ _ _ _ _ _ _ hb => exact hquiet hb.ledger_eq
  | image session name =>
    obtain ⟨q, hq, -⟩ := Op.ends_map.1 h
    exact hquiet (Service.pendingImage_ends hq).ledger
  | activate session code =>
    obtain ⟨q, hq, -⟩ := Op.ends_map.1 h
    cases Service.activate_outcome hq with
    | refused _ hfaded => exact hquiet hfaded.ledger
    | mistaken _ _ hb | unwritten _ _ hb => exact hquiet hb.ledger_eq
    | late _ _ hrefused => exact hquiet hrefused.ledger
    | done _ _ hl hb =>
      refine .kept ?_
      rw [hb.ledger_eq]
      exact (Ledger.enable?_eq hl).2.1
  | validate session password code =>
    obtain ⟨q, hq, -⟩ := Op.ends_map.1 h
    cases Service.validate_outcome hq with
    | refused _ hrefused | lost _ hrefused => exact hquiet hrefused.ledger
    | mistaken _ _ hl hb | done _ _ hl hb =>
      obtain ⟨row, -, -, haccounts, -⟩ := Ledger.updateMain?_eq hl
      refine .kept ?_
      rw [hb.ledger_eq]
      exact haccounts
  | validateBackupCode session code =>
    obtain ⟨q, hq, -⟩ := Op.ends_map.1 h
    cases Service.validateBackupCode_outcome hq with
    | refused hrefused => exact hquiet hrefused.ledger
    | done _ _ _ hl hb =>
      refine .kept ?_
      rw [hb.ledger_eq]
      exact (Ledger.consumeCode?_eq hl).1
  | generateBackupCodes session password =>
    obtain ⟨q, hq, -⟩ := Op.ends_map.1 h
    cases Service.generateBackupCodes_outcome hq with
    | refused hrefused => exact hquiet hrefused.ledger
    | done _ _ _ _ hb =>
      refine .kept ?_
      rw [hb.ledger_eq]
      rfl
  | deactivate session password =>
    obtain ⟨q, hq, -⟩ := Op.ends_map.1 h
    cases Service.deactivate_outcome hq with
    | refused hrefused => exact hquiet hrefused.ledger
    | done _ _ _ _ hb =>
      refine .kept ?_
      rw [hb.ledger_eq]
      rfl
  | changePassword session current new =>
    obtain ⟨q, hq, rfl⟩ := Op.ends_map.1 h
    cases Service.changePassword_outcome hq with
    | refused hrefused => exact hquiet hrefused.ledger
    | @done _ main _ _ _ _ _ _ hl hb =>
      refine .written rfl rfl (Service.not_refused_of_issued Reply.tokens) ?_
      rw [hb.ledger_eq]
      -- With a main copy or without, the password hash is what is written to the account.
      rcases main with _ | ⟨expected, main⟩
      · rw [Ledger.changePassword?_none_eq hl]
        exact .rehashed new
      · obtain ⟨row, -, -, haccounts, -⟩ := Ledger.changePassword?_some_eq hl
        rw [haccounts]
        exact .rehashed new
  | recoverPassword email recoveryKey new =>
    obtain ⟨q, hq, rfl⟩ := Op.ends_map.1 h
    cases Service.recoverPassword_outcome hq with
    | refused hrefused => exact hquiet hrefused.ledger
    | done _ hfound _ _ hl hb =>
      refine .written rfl (congrArg (Option.map Prod.fst) hfound) nofun ?_
      obtain ⟨row, -, -, haccounts, -⟩ := Ledger.recover?_eq hl
      rw [hb.ledger_eq, haccounts]
      exact .rehashed new
  | purge =>
    obtain ⟨q, hq, -⟩ := Op.ends_map.1 h
    exact hquiet (Service.purge_ends hq).1

/-! ## Stored hashes

The first thing that follows from these cases: a password hash is stored by a registration, a change
or a recovery, and each of them has just made it. -/

namespace Ledger

variable {P : Primitives} {l l' : Ledger} {owner : Uuid}

/-- The password hashes of all accounts were made from some words. -/
def Hashed (P : Primitives) (l : Ledger) : Prop :=
  ∀ row ∈ l.accounts, ∃ salt word, row.2.passwordHash = P.hashWord salt word

namespace Hashed

theorem of_accounts (h : l.Hashed P) (haccounts : l'.accounts = l.accounts) : l'.Hashed P := by
  unfold Hashed
  rw [haccounts]
  exact h

theorem register {account : Account} {salt : Salt} {word : String} (h : l.Hashed P)
    (hhash : account.passwordHash = P.hashWord salt word) :
    (l.register owner account).Hashed P := by
  intro row hrow
  rcases List.mem_cons.1 hrow with rfl | hrow
  · exact ⟨salt, word, hhash⟩
  · exact h row (List.mem_filter.1 hrow).1

/-- A new password is stored as its hash. -/
theorem setPasswordHash (h : l.Hashed P) (salt : Salt) (word : String) :
    (l.setPasswordHash owner (P.hashWord salt word)).Hashed P := by
  intro row hrow
  obtain ⟨before, hbefore, rfl⟩ := List.mem_map.1 hrow
  split
  · exact ⟨salt, word, rfl⟩
  · exact h before hbefore

theorem remove (h : l.Hashed P) : (l.remove owner).Hashed P :=
  fun row hrow => h row (List.mem_filter.1 hrow).1

end Hashed

end Ledger

section Runs

variable {D : Deployment}

/-- **The step.** A call leaves password hashes, or puts one that it makes. So a hash that is found
in the ledger can be verified, which is what recoveries and logins rely on. -/
theorem hashed_of_ends {c : Call} {r : Except Failure Reply}
    (hs : s.ledger.Hashed o.deployment.primitives) (h : (Service.perform o c).Ends s r s') :
    s'.ledger.Hashed o.deployment.primitives := by
  cases accounts_of_ends h with
  | kept haccounts => exact hs.of_accounts haccounts
  | written _ _ _ hwritten =>
    generalize haccounts : s'.ledger.accounts = accounts at hwritten
    cases hwritten with
    | registered password _ _ => exact (hs.register rfl).of_accounts haccounts
    | rehashed word => exact (hs.setPasswordHash _ word).of_accounts haccounts
    | removed => exact hs.remove.of_accounts haccounts

/-- **Every stored password hash was made by the service.** Induction on the history, whatever
mishaps befell it. -/
theorem hashed (h : History) : (h.state D).ledger.Hashed D.primitives := by
  induction h with
  | start gallery => exact nofun
  | turn h t ih =>
    show (t.next D (h.state D)).ledger.Hashed D.primitives
    rcases t.next_cases D (h.state D) with ⟨-, -, hnext⟩ | ⟨c, r, -, -, hends⟩
    · rw [hnext]
      exact ih
    · exact hashed_of_ends (s := t.facing (h.state D)) (o := t.occasion D) ih hends

end Runs

end SecondFactor
