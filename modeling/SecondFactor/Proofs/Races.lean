import SecondFactor.Proofs.AttemptCounts
import SecondFactor.Proofs.Replay
import SecondFactor.Proofs.Service.Staleness

/-!
# Races are lost cleanly

A verification and a recovery look at a record, work on what they were shown, and write only if the
main copy or the fingerprint that they worked on is still there. What they were shown may be any
record that the account ever had. If it is behind, the call is refused and nothing is done; if it is
not, the call does what it would have done with the current record. Of several calls that were begun
from one record, one at most gets through, so that no attempt is lost.

## The architecture

* **`Turn.Undone`**, **`Turn.EndsAs`** — the two ways in which a verification with a stale record
  ends.
* **`Turn.ValidatesFrom`**, **`Turn.RecoversFrom`** — a verification and a recovery that get
  through, with the record from which they were begun; each replaces a mark of the record.
* **`validatesFrom_once`**, **`recoversFrom_once`** — so one at most gets through.
* **`races_lose_cleanly`** — every run.
-/

namespace SecondFactor

open Service (Call Reply)

/-! ## §1 — a verification with a stale record -/

namespace Turn

variable (D : Deployment) (t u : Turn) (s : State)

/-- The turn, with a record shown in the place of the current one, or none. -/
def showing (stale : Option FactorRecord) : Turn :=
  { t with mishaps := { t.mishaps with staleRecord := stale } }

/-- The call of the turn is refused, and neither the ledger nor the tokens are changed. -/
structure Undone : Prop where
  refused : ∃ failure, t.outcome D s = some (.error failure)
  ledger : (t.next D s).ledger = s.ledger
  sessions : (t.next D s).sessions = s.sessions

/-- Two turns are answered in the same way, and leave the same. -/
structure EndsAs : Prop where
  outcome : t.outcome D s = u.outcome D s
  ledger : (t.next D s).ledger = (u.next D s).ledger
  staging : (t.next D s).staging = (u.next D s).staging
  sessions : (t.next D s).sessions = (u.next D s).sessions

/-- What is shown of a record makes no difference to the call: the request is read before any
query. -/
theorem call?_showing (stale : Option FactorRecord) :
    (t.showing stale).call? D s = t.call? D s := by
  rcases t with ⟨now, draws, mishaps, r | c⟩
  · rfl
  · rfl

end Turn

/-- The main copy of a record is that of the record that is on. -/
def State.HoldsMain (s : State) (owner : Uuid) (row : FactorRecord) : Prop :=
  ∃ main current, row.main = some main ∧ s.ledger.records.get? owner = some current ∧
    current.hasMain main = true

variable {D : Deployment} {h : History} {t : Turn} {s : State} {owner : Uuid} {row : FactorRecord}

theorem State.shown_of_stale (hstale : t.mishaps.staleRecord = some row) :
    (t.facing s).shown owner = some row := by
  show t.mishaps.staleRecord.or _ = _
  rw [hstale, Option.some_or]

/-- A record that has a main copy has the other copies too, so a call to which it is shown goes
on. -/
theorem FactorRecord.Whole.active_of_main {main : Bytes} (hwhole : row.Whole)
    (hmain : row.main = some main) : ∃ copies, row.active? = some copies ∧ copies.main = main := by
  have hon : row.enabled = true := by
    cases henabled : row.enabled with
    | true => rfl
    | false => cases (hwhole.off henabled).1.symm.trans hmain
  obtain ⟨copies, hactive⟩ := hwhole.active hon
  obtain ⟨-, hcopy, -⟩ := FactorRecord.active?_eq_some.1 hactive
  exact ⟨copies, hactive, Option.some.inj (hcopy.symm.trans hmain)⟩

theorem State.holdsMain_of_enabled (hwhole : row.Whole)
    (hrow : s.ledger.records.get? owner = some row) (hon : row.enabled = true) :
    s.HoldsMain owner row := by
  obtain ⟨copies, hmain, -⟩ := hwhole.on hon
  exact ⟨copies.main, row, hmain, hrow, FactorRecord.hasMain_iff.2 ⟨hon, hmain⟩⟩

/-- What the stale record and the record that is there have in common is the main copy. -/
theorem State.HoldsMain.main_eq (hholds : s.HoldsMain owner row) :
    (s.ledger.records.get? owner).bind (·.main) = row.main := by
  obtain ⟨main, current, hmain, hcurrent, hhas⟩ := hholds
  rw [hcurrent, hmain]
  exact (FactorRecord.hasMain_iff.1 hhas).2

section Verifying

variable {session : Session} {password code : String}

/-- A verification begun from a record is refused, or finds its main copy and replaces it. There is
no third way: the comparison and the write are one step. -/
theorem validate_cases (hcall : t.call? D s = some (.validate session password code))
    (hshown : (t.facing s).shown session.owner = some row) :
    t.Undone D s ∨ s.HoldsMain session.owner row ∧
      ∃ current secret key, (t.next D s).ledger.records.get? session.owner = some current ∧
        current.main = some (Otp.Secret.wrap D.primitives secret key t.draws.mainNonce) := by
  obtain ⟨r, hout, hends⟩ := Turn.ends_of_call hcall
  obtain ⟨q, hq, rfl⟩ := Op.ends_map.1 hends
  cases Service.validate_outcome hq with
  | refused _ hquiet | lost _ hquiet => exact .inl ⟨⟨_, hout⟩, hquiet.ledger, hquiet.sessions⟩
  | mistaken hcheck _ hl hb | done hcheck _ hl hb =>
    have hactive := ((Service.checkMain_ends hcheck).2 _ rfl).shown
    rw [hshown, Option.bind_some] at hactive
    obtain ⟨-, hmain, -⟩ := FactorRecord.active?_eq_some.1 hactive
    obtain ⟨current, hcurrent, hhas, -, hrecords⟩ := Ledger.updateMain?_eq hl
    have hafter := hrecords session.owner
    rw [if_pos rfl, ← hb.ledger_eq] at hafter
    exact .inr ⟨⟨_, current, hmain, hcurrent, hhas⟩, _, _, _, hafter, rfl⟩

/-- **A verification that was overtaken** is refused and does nothing. Its guard asks for the copy
that it had read, and that copy is gone for good. -/
theorem validate_undone (hcall : t.call? D s = some (.validate session password code))
    (hstale : t.mishaps.staleRecord = some row) (hbehind : ¬ s.HoldsMain session.owner row) :
    t.Undone D s := by
  rcases validate_cases hcall (State.shown_of_stale hstale) with hundone | ⟨hholds, -⟩
  · exact hundone
  · exact absurd hholds hbehind

/-- **A verification with a stale record that has the current main copy** ends as one with the
current record. What else may differ between the two records is of no use to it. -/
theorem validate_endsAs (hcall : t.call? D s = some (.validate session password code))
    (hstale : t.mishaps.staleRecord = some row) (hrow : row.Whole)
    (hledger : ∀ current, s.ledger.records.get? session.owner = some current → current.Whole)
    (hholds : s.HoldsMain session.owner row) : t.EndsAs D (t.showing none) s := by
  obtain ⟨main, current, hmain, hcurrent, hhas⟩ := hholds
  obtain ⟨-, hsame⟩ := FactorRecord.hasMain_iff.1 hhas
  obtain ⟨copies, hactive, hcopy⟩ := hrow.active_of_main hmain
  obtain ⟨copies', hactive', hcopy'⟩ := (hledger current hcurrent).active_of_main hsame
  -- To the verification, the two records are the same.
  obtain ⟨hresult, hstate⟩ := Service.validate_indifferent (t.occasion D) session password code
    (s := t.facing s) hactive hcurrent hactive' (hcopy.trans hcopy'.symm)
  have hcall' : (t.showing none).call? D s = some (.validate session password code) :=
    (t.call?_showing D s none).trans hcall
  have hfacing : t.facing s = (t.facing s).withStale (some row) := by
    rw [← hstale]
    rfl
  -- What is left is to read both turns as runs of that operation.
  obtain ⟨r, hout, hends⟩ := Turn.ends_of_call hcall
  obtain ⟨r', hout', hends'⟩ := Turn.ends_of_call hcall'
  obtain ⟨q, hq, rfl⟩ := Op.ends_map.1 hends
  obtain ⟨q', hq', rfl⟩ := Op.ends_map.1 hends'
  rw [hfacing] at hq
  have hq' : (Service.validate (t.occasion D) session password code).Ends
      ((t.facing s).withStale none) q' ((t.showing none).next D s) := hq'
  rw [hq, hq'] at hresult hstate
  have hanswer : q = q' := hresult
  have hafter := congrArg State.ledger hstate
  have hstaging := congrArg State.staging hstate
  have hsessions := congrArg State.sessions hstate
  exact ⟨by rw [hout, hout', hanswer], hafter, hstaging, hsessions⟩

end Verifying

/-! ## §2 — calls that get through

A verification that gets through replaces the nonce of the main copy, and a recovery the
fingerprint. Each finds there what the record has from which it was begun. -/

/-- A verification for the account, begun from a record, is answered or changes the ledger. -/
structure Turn.ValidatesFrom (D : Deployment) (past : History) (t : Turn) (owner : Uuid)
    (row : FactorRecord) : Prop where
  called : ∃ session password code,
    t.call? D (past.state D) = some (.validate session password code) ∧ session.owner = owner
  shown : (t.facing (past.state D)).shown owner = some row
  effect : t.answers D (past.state D) ∨ (t.next D (past.state D)).ledger ≠ (past.state D).ledger

/-- A recovery of the account, begun from a record, is answered. -/
structure Turn.RecoversFrom (D : Deployment) (past : History) (t : Turn) (owner : Uuid)
    (row : FactorRecord) (recoveryKey new : String) : Prop where
  called : ∃ email account,
    t.call? D (past.state D) = some (.recoverPassword email recoveryKey new) ∧
    (past.state D).ledger.findByEmail? email = some (owner, account)
  shown : (t.facing (past.state D)).shown owner = some row
  answered : t.answers D (past.state D)

/-- What a recovery begun from a record has found, and what it leaves: the password hash and the
copies of this one call. -/
structure Turn.Recovers (D : Deployment) (t : Turn) (s : State) (owner : Uuid) (row : FactorRecord)
    (recoveryKey new : String) (current : FactorRecord) (copies : Copies) (normal : String)
    (secret : Otp.Secret) : Prop where
  active : row.active? = some copies
  there : s.ledger.records.get? owner = some current
  fingerprint : current.hasFingerprint copies.fingerprint = true
  normalized : RecoveryKey.normalize recoveryKey = .ok normal
  opened : Service.Outcome.Recovered (t.occasion D) copies normal secret
  account : ∃ account, (t.next D s).ledger.accounts.get? owner = some account ∧
    account.passwordHash = D.primitives.hashWord t.draws.passwordSalt new
  record : (t.next D s).ledger.records.get? owner = some (current.withCopies
    (Service.sealCopies (t.occasion D) secret (D.kdf.derive D.primitives new)
      (RecoveryKey.generate t.draws.recoveryKey)))

/-- A verification that gets through has replaced the nonce of the main copy it was begun from. An
answer is only given after the write, so both effects come to the same. -/
theorem Turn.ValidatesFrom.replaced (hv : t.ValidatesFrom D h owner row) :
    ∃ main, row.main = some main ∧
      (Marking.nonce D).Replaced h t owner (main.take Envelope.nonceLength) := by
  obtain ⟨session, password, code, hcall, rfl⟩ := hv.called
  rcases validate_cases hcall hv.shown with hundone |
    ⟨⟨main, before, hmain, hbefore, hhas⟩, after, secret, key, hafter, hwritten⟩
  · -- What is refused gets through in no way.
    obtain ⟨failure, hrefused⟩ := hundone.refused
    rcases hv.effect with ⟨reply, hreply⟩ | hchanged
    · cases hrefused.symm.trans hreply
    · exact absurd hundone.ledger hchanged
  · refine ⟨main, hmain, ?_, ?_⟩
    · rw [Marking.current_of_row _ hbefore]
      exact congrArg (Option.map _) (FactorRecord.hasMain_iff.1 hhas).2
    · rw [Marking.current_of_row _ hafter]
      exact FactorRecord.nonce?_of_wrap hwritten

/-- A recovery that gets through has found the fingerprint of the record from which it was begun,
and has left what is said: the new password hash, and the copies of the secret that it recovered. -/
theorem Turn.RecoversFrom.done {recoveryKey new : String}
    (hr : t.RecoversFrom D h owner row recoveryKey new) :
    ∃ current copies normal secret,
      t.Recovers D (h.state D) owner row recoveryKey new current copies normal secret := by
  obtain ⟨email, account, hcall, hby⟩ := hr.called
  obtain ⟨reply, hreply⟩ := hr.answered
  obtain ⟨r, hout, hends⟩ := Turn.ends_of_call hcall
  obtain ⟨q, hq, rfl⟩ := Op.ends_map.1 hends
  cases Service.recoverPassword_outcome hq with
  | refused _ => cases hout.symm.trans hreply
  -- The account that was found by its address is the one in question.
  | @done normal _ _ copies secret l _ hnormal hfound hshown hsecret hl hb =>
    cases hfound.symm.trans hby
    rw [hr.shown, Option.bind_some] at hshown
    obtain ⟨current, hcurrent, hhas, haccounts, hrecords⟩ := Ledger.recover?_eq hl
    have hledger : (t.next D (h.state D)).ledger = l := hb.ledger_eq
    refine ⟨current, copies, normal, secret, hshown, hcurrent, hhas, hnormal, hsecret, ?_, ?_⟩
    · obtain ⟨holder, hholder⟩ := Option.isSome_iff_exists.1 (Ledger.known_of_findByEmail? hby)
      have hafter : (t.next D (h.state D)).ledger.accounts.get? owner = some { holder with
          passwordHash := D.primitives.hashWord t.draws.passwordSalt new } := by
        rw [hledger, haccounts, Ledger.get?_setPasswordHash, if_pos rfl]
        exact congrArg (Option.map _) hholder
      exact ⟨_, hafter, rfl⟩
    · rw [hledger, hrecords, if_pos rfl]
      rfl

/-- Such a recovery has replaced the fingerprint, as every recovery draws a new key. -/
theorem Turn.Recovers.replaced {recoveryKey new normal : String} {current : FactorRecord}
    {copies : Copies} {secret : Otp.Secret}
    (hr : t.Recovers D (h.state D) owner row recoveryKey new current copies normal secret) :
    (Marking.fingerprint D).Replaced h t owner copies.fingerprint where
  found := by
    rw [Marking.current_of_row _ hr.there]
    exact (FactorRecord.hasFingerprint_iff.1 hr.fingerprint).2
  put := by
    rw [Marking.current_of_row _ hr.record]
    rfl

/-! ## §3 — every run -/

/-- Every record that an account ever had was whole: it had all copies or none. -/
theorem whole_of_had (hword : ∀ salt word, D.primitives.hashWord salt word ≠ "")
    (hhad : h.Had D owner row) : row.Whole := by
  induction h with
  | start gallery => cases hhad
  | turn h t ih =>
    rcases hhad with hbefore | hrow
    · exact ih hbefore
    · exact whole_state hword (h.turn t) owner row hrow

/-- Of the verifications begun from records with one main copy, one at most gets through. The first
replaces the nonce of the copy, and no nonce comes again. -/
theorem validatesFrom_once (hrun : h.All fun past t => t.Unrepeated D past)
    (hv : t.ValidatesFrom D h owner row) {row' : FactorRecord} (hsame : row'.main = row.main) :
    ¬ h.Any fun past earlier => earlier.ValidatesFrom D past owner row' := by
  intro hearlier
  obtain ⟨main, hmain, hreplaced⟩ := hv.replaced
  have hbefore : h.Any fun past earlier =>
      (Marking.nonce D).Replaced past earlier owner (main.take Envelope.nonceLength) := by
    refine hearlier.mono fun past earlier hfrom => ?_
    obtain ⟨main', hmain', hreplaced'⟩ := hfrom.replaced
    obtain rfl := Option.some.inj (hmain'.symm.trans (hsame.trans hmain))
    exact hreplaced'
  have hfresh := hrun.imp fun _ _ ht => ht.fresh_nonce
  exact ((Marking.nonce D).not_back hfresh hbefore).2 hreplaced.found

/-- Of the recoveries begun from records with one fingerprint, one at most gets through, for the
same reason: the first replaces the fingerprint, and no fingerprint comes again. -/
theorem recoversFrom_once (hrun : h.All fun past t => t.Unrepeated D past)
    {recoveryKey new : String} (hr : t.RecoversFrom D h owner row recoveryKey new)
    {row' : FactorRecord} (hsame : row'.fingerprint = row.fingerprint) :
    ¬ h.Any fun past earlier => ∃ recoveryKey' new',
      earlier.RecoversFrom D past owner row' recoveryKey' new' := by
  intro hearlier
  obtain ⟨current, copies, normal, secret, hdone⟩ := hr.done
  have hfingerprint := (FactorRecord.active?_eq_some.1 hdone.active).2.2.2.1
  -- An earlier recovery from such a record has replaced the same fingerprint.
  have hbefore : h.Any fun past earlier =>
      (Marking.fingerprint D).Replaced past earlier owner copies.fingerprint := by
    refine hearlier.mono fun past earlier hfrom => ?_
    obtain ⟨recoveryKey', new', hfrom⟩ := hfrom
    obtain ⟨current', copies', normal', secret', hdone'⟩ := hfrom.done
    have hfingerprint' := (FactorRecord.active?_eq_some.1 hdone'.active).2.2.2.1
    rw [Option.some.inj (hfingerprint.symm.trans (hsame.symm.trans hfingerprint'))]
    exact hdone'.replaced
  have hfresh := hrun.imp fun _ _ ht => ht.fresh_fingerprint
  exact ((Marking.fingerprint D).not_back hfresh hbefore).2 hdone.replaced.found

/-- **Races are lost cleanly.** In every run in which no nonce and no fingerprint comes again, for
every account, and for every record that it ever had:

* a verification to which the record is shown does what it would have done with the current record,
  if the main copy is that of the record that is on; otherwise it is refused and does nothing;
* a recovery that was begun from it gets through only if the fingerprint is that of the record that
  is on, whose backup copy is then the same; the password hash and the copies are those of the call;
* of the verifications begun from it one at most gets through, and of the recoveries;
* as long as the second factor is neither recovered nor given up, the main copy counts every attempt
  that is written, if decryption gives only what was encrypted. -/
theorem races_lose_cleanly (hP : D.primitives.SealingLaws)
    (hword : ∀ salt word, D.primitives.hashWord salt word ≠ "") (hstorable : D.policy.Storable)
    (hrun : h.All fun past t => t.Unrepeated D past) (owner : Uuid) :
    (∀ (t : Turn) (row : FactorRecord) (session : Session) (password code : String),
      t.call? D (h.state D) = some (.validate session password code) → session.owner = owner →
      t.mishaps.staleRecord = some row → h.Had D owner row →
      ((h.state D).HoldsMain owner row → t.EndsAs D (t.showing none) (h.state D)) ∧
      (¬ (h.state D).HoldsMain owner row → t.Undone D (h.state D))) ∧
    (∀ (t : Turn) (row : FactorRecord) (recoveryKey new : String),
      t.RecoversFrom D h owner row recoveryKey new → h.Had D owner row →
      ∃ current copies normal secret,
        t.Recovers D (h.state D) owner row recoveryKey new current copies normal secret ∧
        current.backup = some copies.backup) ∧
    (∀ (t : Turn) (row row' : FactorRecord),
      (t.ValidatesFrom D h owner row → row'.main = row.main →
        ¬ h.Any fun past earlier => earlier.ValidatesFrom D past owner row') ∧
      ∀ recoveryKey new, t.RecoversFrom D h owner row recoveryKey new →
        row'.fingerprint = row.fingerprint →
        ¬ h.Any fun past earlier => ∃ recoveryKey' new',
          earlier.RecoversFrom D past owner row' recoveryKey' new') ∧
    (D.primitives.Authentic → ∀ (n k : Nat) (later : History),
      (h.state D).Counts D owner n → h.Continues D owner k later →
      (later.All fun past t => t.Unrepeated D past) →
      (later.state D).Counts D owner (min (n + k) (Otp.wordBound - 1))) ∧
    (D.primitives.Authentic → (h.All fun _ t => t.mishaps.Plain) →
      (h.state D).enabled owner = true → ∃ n, (h.state D).Counts D owner n) := by
  refine ⟨?_, ?_, ?_, ?_, fun hA => counts_of_enabled hP hA hstorable hrun⟩
  · rintro t row session password code hcall rfl hstale hhad
    exact ⟨validate_endsAs hcall hstale (whole_of_had hword hhad)
      (whole_state hword h session.owner), validate_undone hcall hstale⟩
  · intro t row recoveryKey new hr hhad
    obtain ⟨current, copies, normal, secret, hdone⟩ := hr.done
    obtain ⟨-, -, hcopy, hfingerprint, -⟩ := FactorRecord.active?_eq_some.1 hdone.active
    have hsame := (FactorRecord.hasFingerprint_iff.1 hdone.fingerprint).2
    -- One fingerprint was written once, together with one backup copy.
    have hbackup := same_backup hrun (had_of_record hdone.there) hhad hsame hfingerprint
    exact ⟨current, copies, normal, secret, hdone, hbackup.trans hcopy⟩
  · intro t row row'
    exact ⟨fun hv => validatesFrom_once hrun hv, fun _ _ hr => recoversFrom_once hrun hr⟩
  · intro hA n k later
    exact counts_run hP hA

/-! A run in which a code is used. Then a verification is shown the record from before and another
one the current record, and the password is recovered from the record from before. -/

/-- The record before the code is used. -/
def History.shownBefore : Option FactorRecord :=
  (History.proceeding.state .transparent).ledger.records.get? (.ofByte 1)

/-- The run up to where the code is used. -/
def History.racing : History :=
  .turn .proceeding (.inStep 5 (.call (.validate ⟨.ofByte 1, .on, .ofByte 0⟩ "password" "000005")))

/-- A verification with the next code. -/
def Turn.racing (stale : Option FactorRecord) : Turn :=
  .inStep 6 (.call (.validate ⟨.ofByte 1, .on, .ofByte 0⟩ "password" "000006")) stale

/-- The recovery key in its shown form. -/
def RecoveryKey.handedOut : String := format (generate (Draws.ofByte 4).recoveryKey)

/-- A recovery, from the record before the code is used. -/
def Turn.regaining : Turn :=
  .inStep 7 (.call (.recoverPassword "a@b.c" RecoveryKey.handedOut "passw0rd")) History.shownBefore

theorem races_lose_cleanly_racing :
    (∃ before, History.shownBefore = some before ∧
      (Turn.racing (some before)).Undone .transparent (History.racing.state .transparent) ∧
      ∃ current copies normal secret,
        Turn.regaining.Recovers .transparent (History.racing.state .transparent) (.ofByte 1) before
          RecoveryKey.handedOut "passw0rd" current copies normal secret ∧
        current.backup = some copies.backup) ∧
    (∃ current,
      (History.racing.state .transparent).ledger.records.get? (.ofByte 1) = some current ∧
      (Turn.racing (some current)).answers .transparent (History.racing.state .transparent) ∧
      (Turn.racing (some current)).EndsAs .transparent (.racing none)
        (History.racing.state .transparent) ∧
      ¬ History.racing.Any fun past earlier =>
        earlier.ValidatesFrom .transparent past (.ofByte 1) current) ∧
    ∃ n, (History.proceeding.state .transparent).Counts .transparent (.ofByte 1) n ∧
      (History.racing.state .transparent).Counts .transparent (.ofByte 1)
        (min (n + 1) (Otp.wordBound - 1)) := by
  have hlaws : Deployment.transparent.primitives.SealingLaws := Primitives.transparent_sealing
  have hauthentic : Deployment.transparent.primitives.Authentic := Primitives.transparent_authentic
  have hword : ∀ salt word, Deployment.transparent.primitives.hashWord salt word ≠ "" :=
    Primitives.transparent_hashing.hash_nonempty
  have hstorable : Deployment.transparent.policy.Storable := ⟨by decide, by decide⟩
  have hproceeding : History.proceeding.All fun past t => t.Unrepeated .transparent past :=
    ⟨⟨⟨⟨trivial,
      ⟨by decide, by decide +kernel, by decide +kernel⟩⟩,
      ⟨by decide, by decide +kernel, by decide +kernel⟩⟩,
      ⟨by decide, by decide +kernel, by decide +kernel⟩⟩,
      ⟨by decide, by decide +kernel, by decide +kernel⟩⟩
  have hracing : History.racing.All fun past t => t.Unrepeated .transparent past :=
    ⟨hproceeding, ⟨by decide, by decide +kernel, by decide +kernel⟩⟩
  have hfacts : History.shownBefore.any (·.enabled) = true ∧
      ((History.racing.state .transparent).ledger.records.get? (.ofByte 1)).any (·.enabled) = true ∧
      ((History.racing.state .transparent).ledger.records.get? (.ofByte 1)).bind (·.main) ≠
        History.shownBefore.bind (·.main) ∧
      ((History.racing.state .transparent).ledger.findByEmail? "a@b.c").map Prod.fst =
        some (.ofByte 1) ∧
      Turn.regaining.answers .transparent (History.racing.state .transparent) ∧
      (Turn.racing ((History.racing.state .transparent).ledger.records.get? (.ofByte 1))).answers
        .transparent (History.racing.state .transparent) := by
    decide +kernel
  -- What the service does on this input was computed. The rest puts it into the terms of the
  -- statement: which record was shown, whether it is behind, and who recovers from it.
  obtain ⟨hshown, hon, hwritten, hfound, hregains, hanswers⟩ := hfacts
  obtain ⟨before, hthere, hwas⟩ := Ledger.of_any hshown
  have hbefore : History.shownBefore = some before := hthere
  obtain ⟨current, hcurrent, henabled⟩ := Ledger.of_any hon
  obtain ⟨⟨_, account⟩, hfound, rfl⟩ := Option.map_eq_some_iff.1 hfound
  have hhad : History.racing.Had .transparent (.ofByte 1) before := .inl (.inr hbefore)
  have hbehind : ¬ (History.racing.state .transparent).HoldsMain (.ofByte 1) before := by
    intro hholds
    refine hwritten ?_
    rw [hholds.main_eq, hbefore, Option.bind_some]
  have hholds : (History.racing.state .transparent).HoldsMain (.ofByte 1) current :=
    State.holdsMain_of_enabled (whole_state hword .racing _ current hcurrent) hcurrent henabled
  have hregaining : Turn.regaining.RecoversFrom .transparent .racing (.ofByte 1) before
      RecoveryKey.handedOut "passw0rd" :=
    ⟨⟨"a@b.c", account, rfl, hfound⟩, State.shown_of_stale hbefore, hregains⟩
  rw [hcurrent] at hanswers
  -- The verification that wins, and the one that lost to it before.
  have hvalidates : (Turn.racing (some current)).ValidatesFrom .transparent .racing (.ofByte 1)
      current :=
    ⟨⟨_, _, _, rfl, rfl⟩, State.shown_of_stale rfl, .inl hanswers⟩
  have hattempt : History.proceeding.Continues .transparent (.ofByte 1) 1 .racing :=
    .attempt .here ⟨⟨_, _, _, rfl, rfl⟩, hwritten⟩
  obtain ⟨hvalidations, hrecoveries, honce, -, -⟩ :=
    races_lose_cleanly (h := .racing) hlaws hword hstorable hracing (.ofByte 1)
  obtain ⟨-, -, -, hcounts, hcounted⟩ :=
    races_lose_cleanly (h := .proceeding) hlaws hword hstorable hproceeding (.ofByte 1)
  have hbehinds := hvalidations (.racing (some before)) before _ _ _ rfl rfl rfl hhad
  have holds := hvalidations (.racing (some current)) current _ _ _ rfl rfl rfl
    (had_of_record hcurrent)
  obtain ⟨n, hn⟩ := hcounted hauthentic
    ⟨⟨⟨⟨trivial, .of_nil rfl⟩, .of_nil rfl⟩, .of_nil rfl⟩, .of_nil rfl⟩
    (State.enabled_of_row hbefore hwas)
  exact ⟨⟨before, hbefore, hbehinds.2 hbehind, hrecoveries .regaining before _ _ hregaining hhad⟩,
    ⟨current, hcurrent, hanswers, holds.1 hholds,
      (honce (.racing (some current)) current current).1 hvalidates rfl⟩,
    n, hn, hcounts hauthentic n 1 .racing hn hattempt hracing⟩

end SecondFactor
