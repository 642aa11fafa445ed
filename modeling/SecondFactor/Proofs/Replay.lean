import SecondFactor.Proofs.Holdings

/-!
# No step is honoured twice

What has been accepted is remembered in the secret itself, and the secret moves: into two copies,
from one main copy into the next, and after a recovery from the backup copy, which has seen nothing
since it was sealed, into new copies. Wherever the secret of an enrollment can next be taken from,
it covers every step that the enrollment has used up: a check remembers the step that it accepts,
the comparison before a write makes sure that it is added to what is there, and a recovery retires
the whole window.

## The architecture

* **`Guarded`** — the invariant of one enrollment; **`guarded_turn`** — every course keeps it.
* **`guarded`** — the run, by induction on the history.
* **`not_used_again`**, **`not_accepted_of_burnt`** — what it forbids.
* **`steps_honoured_once`** — all of it, for every run.
-/

namespace SecondFactor

open Service (Call Reply)

variable {D : Deployment} {h : History} {t : Turn} {j j' : Lineage} {n : Nat} {owner : Uuid}

/-! ## §1 — the invariant

The pending secret and the main copy of the record cover what the enrollment has used up, each when
it is theirs. Earlier records are behind what was honoured since, but not behind what was burnt: as
long as an enrollment is pending, it has no record. -/

/-- What an enrollment has used up is covered wherever its secret can next be taken from. -/
structure Guarded (D : Deployment) (h : History) (j : Lineage) : Prop where
  reached : ∀ n, h.Used D j n →
    n ≤ h.seconds / D.policy.step + D.policy.skew ∧ n < Otp.wordBound
  pending : ∀ entry, (h.state D).staging.entries.get? j.owner = some entry →
    h.pendingOrigin D j.owner = some j → ∀ n, h.Used D j n → entry.secret.Covers n h.seconds
  main : ∀ row copy, (h.state D).ledger.records.get? j.owner = some row →
    h.recordOrigin D j.owner = some j → row.main = some copy →
    ∀ n, h.Used D j n → Holds D (Otp.Secret.Covers · n h.seconds) copy
  burnt : ∀ row copy, h.HadFor D j.owner row j → row.main = some copy →
    ∀ n, h.Burnt D j n → Holds D (Otp.Secret.Covers · n h.seconds) copy
  apart : h.pendingOrigin D j.owner = some j → ∀ row, ¬ h.HadFor D j.owner row j

/-- What covers a step covers it at any later time as well. So the invariant may be read at the time
of the next turn, which is the only time at which anything is checked. -/
theorem Holds.later {copy : Bytes} {now now' : Nat}
    (hh : Holds D (Otp.Secret.Covers · n now) copy) (hle : now ≤ now') :
    Holds D (Otp.Secret.Covers · n now') copy :=
  fun key found hopen => (hh key found hopen).later hle

/-- After a check, the secret covers what it covered before, and the step that was used up. This is
how a pending secret and a main copy go on: each is written back as the check leaves it. -/
theorem Turn.Timely.covers_check (ht : t.Timely D h) {secret : Otp.Secret} {check : Otp.Check}
    (hcheck : t.Checks D secret check)
    (hcovered : h.Used D j n → secret.Covers n h.seconds)
    (huse : t.Uses D h j n → check.accepted = some n) (hn : (h.turn t).Used D j n) :
    check.secret.Covers n t.seconds := by
  obtain ⟨code, hcheck⟩ := hcheck
  rcases hn with hbefore | hnow
  · exact Otp.Secret.covers_check hcheck ((hcovered hbefore).later ht.seconds_le)
  · exact (Otp.Secret.accepted_spec hcheck (huse hnow)).2.2

/-- A step that is accepted lies at most the skew ahead of the clock, and is a stored number. The
bound is in terms of the policy, since every secret that is checked counts steps by it. -/
theorem reached_of_accepted {secret : Otp.Secret} {check : Otp.Check}
    (hcheck : t.Checks D secret check) (hs : secret.Regular D.policy)
    (haccepted : check.accepted = some n) :
    n ≤ t.seconds / D.policy.step + D.policy.skew ∧ n < Otp.wordBound := by
  obtain ⟨code, hcheck⟩ := hcheck
  obtain ⟨hhigh, hbound, -⟩ := Otp.Secret.accepted_spec hcheck haccepted
  rw [hs.step, hs.skew] at hhigh
  exact ⟨hhigh, hbound⟩

/-- The record of an enrollment is its record from before the turn, or was its pending secret. In
the second case nothing is pending any more, so the secret is never in both places at once. -/
theorem recordOrigin_cases (ht : t.Timely D h)
    (horigin : (h.turn t).recordOrigin D j.owner = some j) :
    h.recordOrigin D j.owner = some j ∨ h.pendingOrigin D j.owner = some j ∧
      (t.next D (h.state D)).staging.entries.get? j.owner = none := by
  have hafter : (t.next D (h.state D)).enabled j.owner = true := enabled_of_recordOrigin horigin
  obtain ⟨row, hrow, hon⟩ := Ledger.of_any hafter
  have hbefore : ∀ before, (h.state D).ledger.records.get? j.owner = some before →
      before.enabled = true → h.recordOrigin D j.owner = some j := fun before hthere hon' =>
    (recordOrigin_before hthere hon' hrow hon).symm.trans horigin
  cases course ht.alone j.owner with
  | kept _ hrecord _ _ => exact .inl (hbefore row (hrecord row hrow hon) hon)
  | setUp _ hrecord _ _ _ | restaged _ _ _ hrecord _ _ =>
    exact .inl (hbefore row (hrecord.symm.trans hrow) hon)
  -- The record was turned on in this turn, and takes over the enrollment of the pending secret.
  | enabled _ _ _ hoff _ _ _ _ hgone =>
    rw [History.recordOrigin_started hafter hoff] at horigin
    exact .inr ⟨horigin, hgone⟩
  | rechecked hthere hon' _ _ _ _ _ _ _ _ | resealed _ hthere hon' _ _ _ _ _ _
  | recovered _ _ _ hthere hon' _ _ _ _ _ _ _ _ _ _ _ => exact .inl (hbefore _ hthere hon')

/-- An enrollment that is only now begun has used up nothing. An enrollment carries the number of
its turn, and what is used up belongs to one with an earlier number. -/
theorem not_used_of_new (hnew : j.turn = h.length) : ¬ h.Used D j n := by
  have hbefore : ∀ past : History, past.Used D j n → j.turn < past.length := by
    intro past hused
    induction past with
    | start gallery => cases hused
    | turn past t ih =>
      rcases hused with hused | huses
      · exact Nat.lt_succ_of_lt (ih hused)
      · exact Nat.lt_succ_of_lt huses.accepts.subject.2
  intro hused
  have hlt := hbefore h hused
  omega

/-- Only what is pending can be burnt, since a step is burnt by an activation that fails. -/
theorem Turn.Burns.pending (hb : t.Burns D h j n) : h.pendingOrigin D j.owner = some j := by
  obtain ⟨ha, ⟨session, code, hcall⟩, -⟩ := hb
  rcases ha with ⟨-, -, -, horigin⟩ | ⟨hcall', -, -, -, -⟩
  · rw [(History.of_pendingOrigin horigin).1]
    exact horigin
  · cases hcall.symm.trans hcall'

namespace Guarded

variable (hg : Guarded D h j)
include hg

/-- The highest step that was used up keeps within the skew of the clock, as the clock does not go
back and a check accepts no step beyond it. -/
theorem reached_turn (ht : t.Timely D h) (hr : Regular D h) (n : Nat)
    (hn : (h.turn t).Used D j n) :
    n ≤ t.seconds / D.policy.step + D.policy.skew ∧ n < Otp.wordBound := by
  rcases hn with hbefore | hnow
  · obtain ⟨hhigh, hbound⟩ := hg.reached n hbefore
    have hdiv : h.seconds / D.policy.step ≤ t.seconds / D.policy.step :=
      Nat.div_le_div_right ht.seconds_le
    exact ⟨by omega, hbound⟩
  · cases course ht.alone j.owner with
    | kept hidle _ _ _ | setUp hidle _ _ _ _ | resealed hidle _ _ _ _ _ _ _ _
    | recovered _ _ hidle _ _ _ _ _ _ _ _ _ _ _ _ _ => exact absurd hnow (hidle j n rfl)
    -- A step that is used up now was accepted by a check of a regular secret.
    | restaged hthere hcheck huses _ _ _ | enabled hthere hcheck huses _ _ _ _ _ _ =>
      exact reached_of_accepted hcheck (hr.pending _ _ hthere) (huses j n rfl hnow).1
    | rechecked hthere hon hcopy hopen hcheck huses _ _ _ _ =>
      have hheld := hr.rows _ _ (had_of_record hthere) hon _ (.inl hcopy) _ _ hopen
      exact reached_of_accepted hcheck hheld (huses j n rfl hnow).1

/-- As long as an enrollment is pending, a record that is there belongs to another one. -/
theorem recordOrigin_ne (hpending : h.pendingOrigin D j.owner = some j) {row : FactorRecord}
    (hrow : (h.state D).ledger.records.get? j.owner = some row) :
    h.recordOrigin D j.owner ≠ some j :=
  fun horigin => hg.apart hpending row (hadFor_of_record hrow horigin)

/-- The pending secret covers what was used up. A set-up puts a secret in its place that belongs to
a new enrollment, an activation that fails puts back the one that it checked, and all else leaves it
or drops it. -/
theorem pending_turn (ht : t.Timely D h) (entry : Pending)
    (hentry : (t.next D (h.state D)).staging.entries.get? j.owner = some entry)
    (horigin : (h.turn t).pendingOrigin D j.owner = some j) (n : Nat)
    (hn : (h.turn t).Used D j n) : entry.secret.Covers n t.seconds := by
  have hbefore : t.setsUp D (h.state D) j.owner = false → h.pendingOrigin D j.owner = some j :=
    fun hset => (History.pendingOrigin_kept hentry hset).symm.trans horigin
  -- Where nothing was used up, the entry is the one that was there.
  have hkept : (h.state D).staging.entries.get? j.owner = some entry →
      t.setsUp D (h.state D) j.owner = false → ¬ t.Uses D h j n →
      entry.secret.Covers n t.seconds := fun hthere hset hidle =>
    (hg.pending entry hthere (hbefore hset) n (hn.resolve_right hidle)).later ht.seconds_le
  cases course ht.alone j.owner with
  | kept hidle _ hpending hset | resealed hidle _ _ _ _ _ _ hpending hset
  | recovered _ _ hidle _ _ _ _ _ _ _ _ _ _ _ hpending hset =>
    exact hkept (hpending entry hentry) hset (hidle j n rfl)
  | setUp hidle _ _ hset _ =>
    -- A new enrollment has used nothing up.
    rw [History.pendingOrigin_started hentry hset] at horigin
    have hturn : j.turn = h.length := congrArg Lineage.turn (Option.some.inj horigin).symm
    have hused : h.Used D j n := hn.resolve_right (hidle j n rfl)
    exact absurd hused (not_used_of_new hturn)
  | restaged hthere hcheck huses _ hnew hset =>
    obtain rfl := Option.some.inj (hnew.symm.trans hentry)
    exact ht.covers_check hcheck (hg.pending _ hthere (hbefore hset) n)
      (fun hu => (huses j n rfl hu).1) hn
  | enabled _ _ _ _ _ _ _ _ hgone => cases hgone.symm.trans hentry
  | rechecked _ _ _ _ _ huses _ _ hpending hset =>
    -- The record is not that of the pending enrollment.
    refine hkept (hpending entry hentry) hset fun hu => ?_
    obtain ⟨-, row, -, hhad⟩ := huses j n rfl hu
    exact hg.apart (hbefore hset) row hhad

/-- The main copy covers what was used up, whatever key opens it. A verification adds the step that
it accepts to the copy that it replaces, and a recovery retires the window of a copy that may know
of no step at all; that is enough because no step was used up beyond the window. -/
theorem main_turn (hA : D.primitives.Authentic) (ht : t.Timely D h) (hr : Regular D h)
    (row : FactorRecord) (copy : Bytes)
    (hrow : (t.next D (h.state D)).ledger.records.get? j.owner = some row)
    (horigin : (h.turn t).recordOrigin D j.owner = some j) (hcopy : row.main = some copy) (n : Nat)
    (hn : (h.turn t).Used D j n) : Holds D (Otp.Secret.Covers · n t.seconds) copy := by
  have hon : row.enabled = true := on_of_recordOrigin horigin hrow
  have hbefore : ∀ before, (h.state D).ledger.records.get? j.owner = some before →
      before.enabled = true → h.recordOrigin D j.owner = some j := fun before hthere hon' =>
    (recordOrigin_before hthere hon' hrow hon).symm.trans horigin
  have hkept : (h.state D).ledger.records.get? j.owner = some row → ¬ t.Uses D h j n →
      Holds D (Otp.Secret.Covers · n t.seconds) copy := fun hthere hidle =>
    (hg.main row copy hthere (hbefore row hthere hon) hcopy n (hn.resolve_right hidle)).later
      ht.seconds_le
  -- What is sealed in the turn is all that has to be looked at.
  have hsealed : ∀ {secret : Otp.Secret} {key : Key},
      row.main = some (secret.wrap D.primitives key t.draws.mainNonce) →
      secret.Regular D.policy → secret.Covers n t.seconds →
      Holds D (Otp.Secret.Covers · n t.seconds) copy := by
    intro secret key hmain hsecret hcovers
    obtain rfl := Option.some.inj (hmain.symm.trans hcopy)
    exact holds_wrap hA hsecret.bounded hcovers _ _
  cases course ht.alone j.owner with
  | kept hidle hrecord _ _ => exact hkept (hrecord row hrow hon) (hidle j n rfl)
  | setUp hidle hrecord _ _ _ => exact hkept (hrecord.symm.trans hrow) (hidle j n rfl)
  | restaged _ _ huses hrecord _ _ =>
    have hthere := hrecord.symm.trans hrow
    refine hkept hthere fun hu => ?_
    exact hg.recordOrigin_ne (huses j n rfl hu).2 hthere (hbefore row hthere hon)
  | enabled hthere hcheck huses hoff hnew _ hmain _ _ =>
    -- The copies of the pending secret.
    obtain rfl := Option.some.inj (hnew.symm.trans hrow)
    rw [History.recordOrigin_started (State.enabled_of_row hrow hon) hoff] at horigin
    refine hsealed hmain (ht.regular_check hcheck (hr.pending _ _ hthere)) ?_
    exact ht.covers_check hcheck (hg.pending _ hthere horigin n) (fun hu => (huses j n rfl hu).1) hn
  | rechecked hthere hon' hcopy' hopen hcheck huses hnew hafter _ _ =>
    -- The main copy that was opened is the one that was there.
    obtain rfl := Option.some.inj (hnew.symm.trans hrow)
    have hheld := hr.rows _ _ (had_of_record hthere) hon' _ (.inl hcopy') _ _ hopen
    refine hsealed (by rw [hafter]) (ht.regular_check hcheck hheld) ?_
    refine ht.covers_check hcheck (fun hused => ?_) (fun hu => (huses j n rfl hu).1) hn
    exact hg.main _ _ hthere (hbefore _ hthere hon') hcopy' n hused _ _ hopen
  | resealed hidle hthere hon' hcopy' hopen hnew hafter _ _ =>
    obtain rfl := Option.some.inj (hnew.symm.trans hrow)
    have hheld := hr.rows _ _ (had_of_record hthere) hon' _ (.inl hcopy') _ _ hopen
    have hused := hn.resolve_right (hidle j n rfl)
    refine hsealed (by rw [hafter]) hheld ?_
    exact (hg.main _ _ hthere (hbefore _ hthere hon') hcopy' n hused _ _ hopen).later ht.seconds_le
  | recovered hcall hsubject hidle _ _ hshown hactive hbackup hopen hretire hnew _ hmain _ _ _ =>
    -- The backup copy may not know the step, but the step is not beyond the window.
    obtain rfl := Option.some.inj (hnew.symm.trans hrow)
    have hheld := hr.rows _ _ (had_of_shown ht hcall hsubject hshown) hactive _ (.inr hbackup) _ _
      hopen
    have hsecret := hheld.of_core (Otp.Secret.bounded_retire hretire hheld.bounded)
      (Otp.Secret.core_retire hretire)
    obtain ⟨hhigh, hbound⟩ := hg.reached_turn ht hr n hn
    rw [← hheld.step, ← hheld.skew] at hhigh
    exact hsealed hmain hsecret (Otp.Secret.covers_retire hretire hhigh hbound)

/-- A pending enrollment has no record yet, nor had one earlier. A step that is used up for it can
thus have been used only by activations that failed. -/
theorem apart_turn (ht : t.Timely D h)
    (hpending : (h.turn t).pendingOrigin D j.owner = some j) (row : FactorRecord) :
    ¬ (h.turn t).HadFor D j.owner row j := by
  obtain ⟨entry, hentry, -⟩ := Option.bind_eq_some_iff.1 hpending
  have hthere : (t.next D (h.state D)).staging.entries.get? j.owner = some entry := hentry
  cases hset : t.setsUp D (h.state D) j.owner with
  | true =>
    -- A new enrollment has no record.
    rw [History.pendingOrigin_started hentry hset] at hpending
    have hturn : j.turn = h.length := congrArg Lineage.turn (Option.some.inj hpending).symm
    rintro (hbefore | ⟨-, horigin⟩)
    · have hlt := (History.of_hadFor hbefore).2
      omega
    · rcases recordOrigin_cases ht horigin with hold | ⟨hold, -⟩
      · have hlt := (History.of_recordOrigin hold).2
        omega
      · have hlt := (History.of_pendingOrigin hold).2
        omega
  | false =>
    rw [History.pendingOrigin_kept hentry hset] at hpending
    rintro (hbefore | ⟨-, horigin⟩)
    · exact hg.apart hpending row hbefore
    · rcases recordOrigin_cases ht horigin with hold | ⟨-, hgone⟩
      · obtain ⟨old, hrow, -⟩ := Ledger.of_any (enabled_of_recordOrigin hold)
        exact hg.recordOrigin_ne hpending hrow hold
      · cases hgone.symm.trans hthere

/-- What was burnt is covered by every record that the enrollment ever had. A step is burnt before
there is a record, and the first one is made of the pending secret. -/
theorem burnt_turn (hA : D.primitives.Authentic) (ht : t.Timely D h) (hr : Regular D h)
    (row : FactorRecord) (copy : Bytes) (hhad : (h.turn t).HadFor D j.owner row j)
    (hcopy : row.main = some copy) (n : Nat) (hn : (h.turn t).Burnt D j n) :
    Holds D (Otp.Secret.Covers · n t.seconds) copy := by
  rcases hhad with hbefore | ⟨hrow, horigin⟩
  · rcases hn with hburnt | hburns
    · exact (hg.burnt row copy hbefore hcopy n hburnt).later ht.seconds_le
    · exact absurd hbefore (hg.apart hburns.pending row)
  · exact hg.main_turn hA ht hr row copy hrow horigin hcopy n (used_of_burnt hn)

end Guarded

/-- **The step.** Every turn keeps every enrollment guarded: the steps that were accepted for it are
covered in whatever copy a later turn may open. -/
theorem guarded_turn (hA : D.primitives.Authentic) (ht : t.Timely D h) (hr : Regular D h)
    (hg : Guarded D h j) : Guarded D (h.turn t) j where
  reached := hg.reached_turn ht hr
  pending := hg.pending_turn ht
  main := hg.main_turn hA ht hr
  burnt := hg.burnt_turn hA ht hr
  apart := hg.apart_turn ht

/-- **The run.** Every enrollment is guarded. Induction on the history, for all enrollments at once,
since a turn may end one and begin another. -/
theorem guarded (hA : D.primitives.Authentic) (hstorable : D.policy.Storable)
    (hrun : h.All fun past t => t.Timely D past) (j : Lineage) : Guarded D h j := by
  induction h with
  | start gallery => exact ⟨nofun, nofun, nofun, nofun, nofun⟩
  | turn h t ih => exact guarded_turn hA hrun.2 (regular hA hstorable hrun.1) (ih hrun.1)

/-! ## §2 — every run -/

/-- A step that has been covered is not accepted by a check in a later turn. All that the invariant
is for comes down to this. -/
theorem Turn.Timely.not_accepted (ht : t.Timely D h) {secret : Otp.Secret} {check : Otp.Check}
    (hcheck : t.Checks D secret check) (hcovered : secret.Covers n h.seconds) :
    check.accepted ≠ some n := by
  obtain ⟨code, hcheck⟩ := hcheck
  exact (hcovered.later ht.seconds_le).not_accepted hcheck

/-- **A step is used up once.** What a call checks is found in the record that it was shown, and it
is written only if that is still the main copy, which covers what was used up. -/
theorem not_used_again (hA : D.primitives.Authentic) (hstorable : D.policy.Storable)
    (hrun : h.All fun past t => t.Timely D past) (ht : t.Timely D h) (hu : t.Uses D h j n) :
    ¬ h.Used D j n := by
  intro hused
  have hg := guarded hA hstorable hrun j
  cases course ht.alone j.owner with
  | kept hidle _ _ _ | setUp hidle _ _ _ _ | resealed hidle _ _ _ _ _ _ _ _
  | recovered _ _ hidle _ _ _ _ _ _ _ _ _ _ _ _ _ => exact hidle j n rfl hu
  | restaged hthere hcheck huses _ _ _ | enabled hthere hcheck huses _ _ _ _ _ _ =>
    obtain ⟨haccepted, horigin⟩ := huses j n rfl hu
    exact ht.not_accepted hcheck (hg.pending _ hthere horigin n hused) haccepted
  | @rechecked before _ copy _ _ _ hthere hon hcopy hopen hcheck huses _ _ _ _ =>
    obtain ⟨haccepted, row, hmain, hhad⟩ := huses j n rfl hu
    -- The record that was shown and the one that is there belong to one enrollment.
    obtain ⟨k, hk⟩ := (attributed hrun j.owner).2 before hthere hon
    obtain rfl : j = k := same_enrollment hrun hhad hmain (hadFor_of_record hthere hk) hcopy
    exact ht.not_accepted hcheck (hg.main _ _ hthere hk hcopy n hused _ _ hopen) haccepted

/-- **A burnt step is not accepted again**, not even for an earlier record. Nothing has to be
written for this: it is enough that the record which is shown belonged to the enrollment. -/
theorem not_accepted_of_burnt (hA : D.primitives.Authentic) (hstorable : D.policy.Storable)
    (hrun : h.All fun past t => t.Timely D past) (ht : t.Timely D h) (ha : t.Accepts D h j n) :
    ¬ h.Burnt D j n := by
  intro hburnt
  have hg := guarded hA hstorable hrun j
  rcases ha with ⟨hcall, hends, haccepted, horigin⟩ | ⟨hcall, hends, haccepted, hshown, hhad⟩
  · -- An activation looks at the pending secret, which covers all that was used up.
    obtain ⟨howner, -⟩ := History.of_pendingOrigin horigin
    rw [← howner] at horigin
    have hchecked := ((Service.checkPending_ends hends).2 _ rfl).2
    obtain ⟨seconds, hnow, hcheck⟩ := hchecked.checked
    obtain rfl := Instant.seconds_of_sinceEpoch? hnow
    have hthere := hchecked.there ht.alone
    rw [← howner] at hthere
    exact ht.not_accepted ⟨_, hcheck⟩ (hg.pending _ hthere horigin n (used_of_burnt hburnt))
      haccepted
  · -- A verification opens the main copy of some record that the enrollment had.
    obtain ⟨howner, -⟩ := History.of_hadFor hhad
    rw [← howner] at hhad
    have hchecked := (Service.checkMain_ends hends).2 _ rfl
    obtain ⟨held, seconds, hopen, hnow, hcheck⟩ := hchecked.checked
    obtain rfl := Instant.seconds_of_sinceEpoch? hnow
    have hactive := hchecked.shown
    rw [hshown, Option.bind_some] at hactive
    obtain ⟨-, hmain, -⟩ := FactorRecord.active?_eq_some.1 hactive
    exact ht.not_accepted ⟨_, hcheck⟩ (hg.burnt _ _ hhad hmain n hburnt _ _ hopen) haccepted

/-- The two calls that check a one-time code. -/
def Service.Call.checksCode : Call → Bool
  | .activate _ _ | .validate _ _ _ => true
  | _ => false

/-- A call that checks a code is answered only if a step of an enrollment is accepted. So there is
an enrollment to blame for every answer, and `not_used_again` says something about all of them. -/
theorem honours_of_answers (hrun : h.All fun past t => t.Timely D past) (ht : t.Timely D h)
    {call : Call} (hcall : t.call? D (h.state D) = some call) (hchecks : call.checksCode = true)
    (hanswers : t.answers D (h.state D)) : ∃ j n, t.Honours D h j n := by
  obtain ⟨reply, hreply⟩ := hanswers
  have hno : ∀ failure, t.outcome D (h.state D) ≠ some (.error failure) := by
    intro failure hfails
    cases hreply.symm.trans hfails
  rcases t.next_cases D (h.state D) with ⟨hnone, -, -⟩ | ⟨call', r, hcall', hout, hends⟩
  · cases hnone.symm.trans hcall
  obtain rfl := Option.some.inj (hcall.symm.trans hcall')
  cases call with
  -- What is checked is pending, and so belongs to an enrollment.
  | activate session code =>
    obtain ⟨q, hq, rfl⟩ := Op.ends_map.1 hends
    cases Service.activate_outcome hq with
    | refused _ _ | mistaken _ _ _ | unwritten _ _ _ | late _ _ _ => exact absurd hout (hno _)
    | done hcheck hyes _ _ =>
      obtain ⟨n, haccepted⟩ := Option.isSome_iff_exists.1 hyes
      have hchecked := ((Service.checkPending_ends hcheck).2 _ rfl).2
      obtain ⟨j, horigin⟩ := (attributed hrun session.owner).1 _ (hchecked.there ht.alone)
      exact ⟨j, n, .pending hcall hcheck haccepted horigin, reply, hreply⟩
  -- What is checked is in a record that was on, and so belonged to one.
  | validate session password code =>
    obtain ⟨q, hq, rfl⟩ := Op.ends_map.1 hends
    cases Service.validate_outcome hq with
    | refused _ _ | lost _ _ | mistaken _ _ _ _ => exact absurd hout (hno _)
    | done hcheck hyes _ _ =>
      obtain ⟨n, haccepted⟩ := Option.isSome_iff_exists.1 hyes
      have hchecked := (Service.checkMain_ends hcheck).2 _ rfl
      obtain ⟨row, hshown, hactive⟩ := Option.bind_eq_some_iff.1 hchecked.shown
      have hon := (FactorRecord.active?_eq_some.1 hactive).1
      obtain ⟨j, hhad⟩ := hadFor_of_had hrun (had_of_shown ht hcall rfl hshown) hon
      exact ⟨j, n, .main hcall hcheck haccepted hshown hhad, reply, hreply⟩
  | _ => cases hchecks

/-- **No step is honoured twice.** In every run whose clock does not go back, with whatever fails of
the database and whatever earlier records are shown, an activation or a verification is answered
only for a step of an enrollment, and never for one for which an earlier call was answered. A step
that an activation accepted which then failed, such as by an error of the database, is not accepted
again. -/
theorem steps_honoured_once (hA : D.primitives.Authentic) (hstorable : D.policy.Storable)
    (hrun : h.All fun past t => t.Timely D past) (ht : t.Timely D h) :
    (∀ call, t.call? D (h.state D) = some call → call.checksCode = true →
      t.answers D (h.state D) → ∃ j n, t.Honours D h j n) ∧
    ∀ j n,
      (t.Honours D h j n → ¬ h.Any fun past earlier => earlier.Honours D past j n) ∧
      (t.Accepts D h j n → ¬ h.Any fun past earlier => earlier.Burns D past j n) := by
  refine ⟨fun call hcall hchecks => honours_of_answers hrun ht hcall hchecks, fun j n => ⟨?_, ?_⟩⟩
  · intro hhonours hearlier
    exact not_used_again hA hstorable hrun ht (.inl hhonours) (hearlier.mono fun _ _ => .inl)
  · exact not_accepted_of_burnt hA hstorable hrun ht

/-! A run in which the database fails while a second factor is turned on, an earlier record is shown
to a verification, and the password is recovered. -/

/-- The run up to where a secret is pending. -/
def History.beginning : History :=
  .turn (.turn (.start .missing)
    (.inStep 1 (.call (.register "a@b.c" "password"))))
    (.inStep 2 (.call (.setup ⟨.ofByte 1, .empty, .ofByte 0⟩ "password")))

/-- An activation, in which the database fails. -/
def Turn.failing : Turn :=
  { Turn.inStep 3 (.call (.activate ⟨.ofByte 1, .empty, .ofByte 0⟩ "000003")) with
    mishaps := { enableFails := true } }

/-- The same code once more. -/
def Turn.retrying : Turn :=
  .inStep 4 (.call (.activate ⟨.ofByte 1, .empty, .ofByte 0⟩ "000003"))

/-- The run up to where the second factor is on. -/
def History.proceeding : History :=
  .turn (.turn .beginning .failing)
    (.inStep 4 (.call (.activate ⟨.ofByte 1, .empty, .ofByte 0⟩ "000004")))

/-- The run up to where the password is recovered. In between, a code is used, and is tried again
where the record from before is shown. -/
def History.recovering : History :=
  .turn (.turn (.turn .proceeding
    (.inStep 5 (.call (.validate ⟨.ofByte 1, .on, .ofByte 0⟩ "password" "000005"))))
    (.inStep 6 (.call (.validate ⟨.ofByte 1, .on, .ofByte 0⟩ "password" "000005"))
      ((History.proceeding.state .transparent).ledger.records.get? (.ofByte 1))))
    (.inStep 7 (.call (.recoverPassword "a@b.c"
      (RecoveryKey.format (RecoveryKey.generate (Draws.ofByte 4).recoveryKey)) "passw0rd")))

/-- A code of a step that the recovery has not retired. -/
def Turn.resuming : Turn :=
  .inStep 8 (.call (.validate ⟨.ofByte 1, .on, .ofByte 0⟩ "passw0rd" "000009"))

theorem steps_honoured_once_recovering :
    (∃ j n, Turn.resuming.Honours .transparent .recovering j n ∧
      ¬ History.recovering.Any fun past earlier => earlier.Honours .transparent past j n) ∧
    ∃ j, Turn.failing.Burns .transparent .beginning j 3 ∧
      ¬ Turn.retrying.Accepts .transparent (.turn .beginning .failing) j 3 := by
  have hlaws : Deployment.transparent.primitives.Authentic := Primitives.transparent_authentic
  have hstorable : Deployment.transparent.policy.Storable := ⟨by decide, by decide⟩
  have hfailing : (History.turn .beginning .failing).All fun past t =>
      t.Timely .transparent past :=
    ⟨⟨⟨trivial,
      .of_current rfl rfl (by decide +kernel) (by decide) (by decide +kernel)⟩,
      .of_current rfl rfl (by decide +kernel) (by decide) (by decide +kernel)⟩,
      .of_current rfl rfl (by decide +kernel) (by decide) (by decide +kernel)⟩
  have hretrying : Turn.retrying.Timely .transparent (.turn .beginning .failing) :=
    .of_current rfl rfl (by decide +kernel) (by decide) (by decide +kernel)
  have hrecovering : History.recovering.All fun past t => t.Timely .transparent past := by
    refine ⟨⟨⟨⟨hfailing,
      .of_current rfl rfl (by decide +kernel) (by decide) (by decide +kernel)⟩,
      .of_current rfl rfl (by decide +kernel) (by decide) (by decide +kernel)⟩,
      ⟨.of_nil rfl, ?_, by decide +kernel, by decide, by decide +kernel⟩⟩,
      .of_current rfl rfl (by decide +kernel) (by decide) (by decide +kernel)⟩
    -- The record that is shown is the one from two turns before.
    intro row hrow call owner hcall hsubject
    cases hcall
    cases hsubject
    exact .inl (.inr hrow)
  have hresuming : Turn.resuming.Timely .transparent .recovering :=
    .of_current rfl rfl (by decide +kernel) (by decide) (by decide +kernel)
  constructor
  · have hanswers : Turn.resuming.answers .transparent (History.recovering.state .transparent) := by
      decide +kernel
    obtain ⟨hhonoured, honce⟩ := steps_honoured_once hlaws hstorable hrecovering hresuming
    obtain ⟨j, n, hhonours⟩ := hhonoured _ rfl rfl hanswers
    exact ⟨j, n, hhonours, (honce j n).1 hhonours⟩
  · have hfacts : (History.beginning.pendingOrigin .transparent (.ofByte 1)).isSome = true ∧
        (((Service.checkPending (Turn.failing.occasion .transparent)
          ⟨.ofByte 1, .empty, .ofByte 0⟩ "000003").exec
            (Turn.failing.facing (History.beginning.state .transparent))).1.toOption.any
              fun found => found.2.accepted == some 3) = true ∧
        Turn.failing.failure? .transparent (History.beginning.state .transparent) =
          some (.refused .database) := by
      decide +kernel
    obtain ⟨hpending, hcheck, hfails⟩ := hfacts
    obtain ⟨j, hj⟩ := Option.isSome_iff_exists.1 hpending
    have haccepts : Turn.failing.Accepts .transparent .beginning j 3 := by
      generalize hends : (Service.checkPending (Turn.failing.occasion .transparent)
        ⟨.ofByte 1, .empty, .ofByte 0⟩ "000003").exec
          (Turn.failing.facing (History.beginning.state .transparent)) = found at hcheck
      rcases found with ⟨failure | ⟨entry, check⟩, s⟩
      · cases hcheck
      · exact .pending rfl hends (beq_iff_eq.1 hcheck) hj
    have hburns : Turn.failing.Burns .transparent .beginning j 3 :=
      ⟨haccepts, ⟨_, _, rfl⟩, _, hfails, nofun⟩
    obtain ⟨-, honce⟩ := steps_honoured_once hlaws hstorable hfailing hretrying
    exact ⟨j, hburns, fun haccepts => (honce j 3).2 haccepts (.inr hburns)⟩

end SecondFactor
