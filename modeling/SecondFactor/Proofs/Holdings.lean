import SecondFactor.Proofs.Course

/-!
# What copies hold along a run

The secret of an enrollment moves: from the pending entry into two copies, from one main copy into
the next, and after a recovery from the backup copy into new copies. What can be said of every
secret on this way is said of whatever a copy opens to, under any key, since it is not known who
will open it. Decryption gives only what was encrypted here.

A main copy begins with its nonce, and a nonce is drawn once. So of a copy that is found anywhere it
is known for which enrollment it was sealed.

## The architecture

* **`Turn.Timely`** — a turn of a run whose clock does not go back. Queries may fail, and the record
  that is shown may be an earlier one of the account.
* **`attributed`**, **`hadFor_of_had`** — whatever is pending or on belongs to an enrollment.
* **`Holds`** — whatever key opens a copy, it opens to a secret as said.
* **`Regular`** and **`regular`** — every secret that can be opened has the step and the skew of the
  policy.
* **`mark_unique`**, **`same_enrollment`** — by its nonce, a main copy tells for which enrollment it
  was sealed.
-/

namespace SecondFactor

open Service (Call Reply)

/-! ## §1 — the runs -/

namespace History

variable (D : Deployment) (j : Lineage) (n : Nat)

/-- The time of the last turn, in seconds since 1970. Before the first turn it does not matter,
since nothing was used up yet. -/
def seconds : History → Nat
  | start _ => 0
  | turn _ t => t.seconds

/-- The step was used up at some time. -/
def Used (h : History) : Prop := h.Any fun past t => t.Uses D past j n

/-- The step was accepted at some time by an activation that failed then. -/
def Burnt (h : History) : Prop := h.Any fun past t => t.Burns D past j n

end History

/-- A turn of a run whose clock does not go back and does not leave the calendar, and whose nonces
are fresh. No other set-up comes in between, but queries may fail; the record that is shown may be
an earlier one of the account that the call is about. -/
structure Turn.Timely (D : Deployment) (past : History) (t : Turn) : Prop where
  alone : t.mishaps.Plain
  stale : ∀ row, t.mishaps.staleRecord = some row → ∀ call owner,
    t.call? D (past.state D) = some call →
    call.subject? (t.occasion D) (past.state D).ledger = some owner → past.Had D owner row
  clock : past.All fun _ earlier => earlier.now ≤ t.now
  last : t.now ≤ .last
  fresh : past.All fun _ earlier => earlier.draws.mainNonce ≠ t.draws.mainNonce

variable {D : Deployment} {h : History} {t : Turn} {j j' : Lineage} {n : Nat} {owner : Uuid}

/-- What was burnt is used up like what was honoured. The two are told apart only where a record
comes in: nothing burnt ever had one. -/
theorem used_of_burnt (hb : h.Burnt D j n) : h.Used D j n := hb.mono fun _ _ => .inr

namespace Turn.Timely

/-- A turn without mishaps in the queue, in which no earlier record is shown. Given runs are timely
in this way. -/
theorem of_current (hqueue : t.mishaps.queue = []) (hcurrent : t.mishaps.staleRecord = none)
    (hclock : h.All fun _ earlier => earlier.now ≤ t.now) (hlast : t.now ≤ .last)
    (hfresh : h.All fun _ earlier => earlier.draws.mainNonce ≠ t.draws.mainNonce) :
    t.Timely D h := by
  refine ⟨.of_nil hqueue, fun row hrow => ?_, hclock, hlast, hfresh⟩
  rw [hcurrent] at hrow
  cases hrow

variable (ht : t.Timely D h)
include ht

theorem seconds_le : h.seconds ≤ t.seconds := by
  cases h with
  | start gallery => exact Nat.zero_le _
  | turn h u => exact Instant.seconds_mono ht.clock.2

theorem seconds_lt : t.seconds < Otp.wordBound := Instant.seconds_lt ht.last

end Turn.Timely

/-! ## §2 — records that were there -/

theorem had_of_record {row : FactorRecord}
    (hrow : (h.state D).ledger.records.get? owner = some row) : h.Had D owner row := by
  cases h with
  | start gallery => cases hrow
  | turn h t => exact .inr hrow

theorem hadFor_of_record {row : FactorRecord}
    (hrow : (h.state D).ledger.records.get? owner = some row)
    (horigin : h.recordOrigin D owner = some j) : h.HadFor D owner row j := by
  cases h with
  | start gallery => cases horigin
  | turn h t => exact .inr ⟨hrow, horigin⟩

/-- Whatever a call is shown is a record that the account had, be it the current one or an earlier
one that comes late. -/
theorem had_of_shown (ht : t.Timely D h) {call : Call} (hcall : t.call? D (h.state D) = some call)
    (hsubject : call.subject? (t.occasion D) (h.state D).ledger = some owner) {row : FactorRecord}
    (hshown : (t.facing (h.state D)).shown owner = some row) : h.Had D owner row := by
  unfold State.shown at hshown
  cases hstale : (t.facing (h.state D)).mishaps.staleRecord with
  | none =>
    rw [hstale, Option.none_or] at hshown
    exact had_of_record hshown
  | some stale =>
    rw [hstale, Option.some_or] at hshown
    cases hshown
    exact ht.stale _ hstale call owner hcall hsubject

/-- A record belongs to an enrollment only while it is on. -/
theorem enabled_of_recordOrigin (horigin : h.recordOrigin D owner = some j) :
    (h.state D).enabled owner = true := by
  cases h with
  | start gallery => cases horigin
  | turn h t =>
    rw [History.recordOrigin] at horigin
    split at horigin
    · assumption
    · cases horigin

theorem on_of_recordOrigin {row : FactorRecord} (horigin : h.recordOrigin D owner = some j)
    (hrow : (h.state D).ledger.records.get? owner = some row) : row.enabled = true := by
  have hon := enabled_of_recordOrigin horigin
  rw [State.enabled, hrow] at hon
  exact hon

/-- A record that is on, and was on before the turn, still belongs to the same enrollment. This is
how every course but that of an activation is followed. -/
theorem recordOrigin_before {before after : FactorRecord}
    (hthere : (h.state D).ledger.records.get? owner = some before) (hon : before.enabled = true)
    (hrow : (t.next D (h.state D)).ledger.records.get? owner = some after)
    (hon' : after.enabled = true) :
    (h.turn t).recordOrigin D owner = h.recordOrigin D owner :=
  History.recordOrigin_kept (State.enabled_of_row hrow hon') (State.enabled_of_row hthere hon)

/-- Whatever is pending or on belongs to an enrollment. So the invariant of one enrollment, proved
for all of them, says something about every secret. -/
theorem attributed (hrun : h.All fun past t => t.Timely D past) (owner : Uuid) :
    (∀ entry, (h.state D).staging.entries.get? owner = some entry →
      ∃ j, h.pendingOrigin D owner = some j) ∧
    ∀ row, (h.state D).ledger.records.get? owner = some row → row.enabled = true →
      ∃ j, h.recordOrigin D owner = some j := by
  induction h with
  | start gallery => exact ⟨nofun, nofun⟩
  | turn h t ih =>
    obtain ⟨hpending, hrecord⟩ := ih hrun.1
    -- An entry that was not just set up was there before, and a record that was on before goes on.
    have hentries : ∀ entry, (t.next D (h.state D)).staging.entries.get? owner = some entry →
        t.setsUp D (h.state D) owner = false →
        (∃ entry, (h.state D).staging.entries.get? owner = some entry) →
        ∃ j, (h.turn t).pendingOrigin D owner = some j := by
      intro entry hentry hset hthere
      obtain ⟨entry', hentry'⟩ := hthere
      obtain ⟨j, hj⟩ := hpending entry' hentry'
      exact ⟨j, (History.pendingOrigin_kept hentry hset).trans hj⟩
    have hrows : ∀ before after : FactorRecord,
        (h.state D).ledger.records.get? owner = some before → before.enabled = true →
        (t.next D (h.state D)).ledger.records.get? owner = some after → after.enabled = true →
        ∃ j, (h.turn t).recordOrigin D owner = some j := by
      intro before after hthere hon hrow hon'
      obtain ⟨j, hj⟩ := hrecord before hthere hon
      exact ⟨j, (recordOrigin_before hthere hon hrow hon').trans hj⟩
    cases course hrun.2.alone owner with
    | kept _ hrecord' hpending' hset =>
      exact ⟨fun entry hentry => hentries entry hentry hset ⟨entry, hpending' entry hentry⟩,
        fun row hrow hon => hrows row row (hrecord' row hrow hon) hon hrow hon⟩
    | setUp _ hrecord' _ hset _ =>
      exact ⟨fun entry hentry => ⟨_, History.pendingOrigin_started hentry hset⟩,
        fun row hrow hon => hrows row row (hrecord'.symm.trans hrow) hon hrow hon⟩
    | restaged hthere _ _ hrecord' _ hset =>
      exact ⟨fun entry hentry => hentries entry hentry hset ⟨_, hthere⟩,
        fun row hrow hon => hrows row row (hrecord'.symm.trans hrow) hon hrow hon⟩
    | enabled hthere _ _ hoff _ _ _ _ hgone =>
      refine ⟨fun entry hentry => ?_, fun row hrow hon => ?_⟩
      · cases hgone.symm.trans hentry
      · obtain ⟨j, hj⟩ := hpending _ hthere
        exact ⟨j, (History.recordOrigin_started (State.enabled_of_row hrow hon) hoff).trans hj⟩
    | rechecked hthere hon _ _ _ _ _ _ hpending' hset
    | resealed _ hthere hon _ _ _ _ hpending' hset
    | recovered _ _ _ hthere hon _ _ _ _ _ _ _ _ _ hpending' hset =>
      exact ⟨fun entry hentry => hentries entry hentry hset ⟨entry, hpending' entry hentry⟩,
        fun row hrow hon' => hrows _ row hthere hon hrow hon'⟩

/-- A record that was on at some time belonged to an enrollment then, and it still does when it is
shown late. -/
theorem hadFor_of_had (hrun : h.All fun past t => t.Timely D past) {row : FactorRecord}
    (hhad : h.Had D owner row) (hon : row.enabled = true) : ∃ j, h.HadFor D owner row j := by
  induction h with
  | start gallery => cases hhad
  | turn h t ih =>
    rcases hhad with hbefore | hnow
    · obtain ⟨j, hj⟩ := ih hrun.1 hbefore
      exact ⟨j, .inl hj⟩
    · obtain ⟨j, hj⟩ := (attributed hrun owner).2 row hnow hon
      exact ⟨j, .inr ⟨hnow, hj⟩⟩

/-! ## §3 — what copies can open to -/

/-- Whatever key opens a copy, it opens to a secret as said. -/
def Holds (D : Deployment) (p : Otp.Secret → Prop) (copy : Bytes) : Prop :=
  ∀ key found, Otp.Secret.unwrap D.primitives copy key = .ok found → p found

/-- What is sealed holds what was sealed in it, under whatever key it is opened. Only here is it
used that decryption gives nothing else. -/
theorem holds_wrap (hA : D.primitives.Authentic) {p : Otp.Secret → Prop} {secret : Otp.Secret}
    (hbounded : secret.Bounded) (hsecret : p secret) (key : Key) (nonce : Nonce) :
    Holds D p (secret.wrap D.primitives key nonce) := by
  intro other found hopen
  rw [Otp.Secret.eq_of_unwrap_wrap hA hbounded hopen]
  exact hsecret

/-- A secret that counts steps by a policy. -/
structure Otp.Secret.Regular (p : Otp.Policy) (s : Otp.Secret) : Prop where
  bounded : s.Bounded
  step : s.step = p.step
  skew : s.skew = p.skew

theorem Otp.Secret.Regular.of_core {p : Otp.Policy} {s s' : Otp.Secret} (hs : s.Regular p)
    (hbounded : s'.Bounded) (hcore : s'.core = s.core) : s'.Regular p := by
  obtain ⟨-, -, -, -, -, hstep, hskew⟩ := Otp.Secret.core_eq_iff.1 hcore
  exact ⟨hbounded, hstep.trans hs.step, hskew.trans hs.skew⟩

theorem Turn.Timely.regular_check (ht : t.Timely D h) {secret : Otp.Secret} {check : Otp.Check}
    (hcheck : t.Checks D secret check) (hs : secret.Regular D.policy) :
    check.secret.Regular D.policy := by
  obtain ⟨code, hcheck⟩ := hcheck
  exact hs.of_core (Otp.Secret.bounded_check hcheck hs.bounded ht.seconds_lt)
    (Otp.Secret.core_check hcheck)

/-- Every secret that is pending, or in a record that was on at some time, is regular. -/
structure Regular (D : Deployment) (h : History) : Prop where
  pending : ∀ owner entry, (h.state D).staging.entries.get? owner = some entry →
    entry.secret.Regular D.policy
  rows : ∀ owner row, h.Had D owner row → row.enabled = true →
    ∀ copy, row.main = some copy ∨ row.backup = some copy →
      Holds D (Otp.Secret.Regular D.policy) copy

/-- Both copies of a record are regular if each of them is. -/
theorem regular_copies {row : FactorRecord} {main backup : Bytes}
    (hmain : row.main = some main) (hbackup : row.backup = some backup)
    (hm : Holds D (Otp.Secret.Regular D.policy) main)
    (hb : Holds D (Otp.Secret.Regular D.policy) backup) (copy : Bytes)
    (hcopy : row.main = some copy ∨ row.backup = some copy) :
    Holds D (Otp.Secret.Regular D.policy) copy := by
  rcases hcopy with hcopy | hcopy
  · obtain rfl := Option.some.inj (hmain.symm.trans hcopy)
    exact hm
  · obtain rfl := Option.some.inj (hbackup.symm.trans hcopy)
    exact hb

/-- **The step.** A new secret takes step and skew from the policy, and all that is sealed
afterwards has the core of something that was opened. -/
theorem regular_turn (hA : D.primitives.Authentic) (hstorable : D.policy.Storable)
    (ht : t.Timely D h) (hr : Regular D h) : Regular D (h.turn t) := by
  constructor
  · intro owner entry hentry
    cases course ht.alone owner with
    | kept _ _ hpending _ | rechecked _ _ _ _ _ _ _ _ hpending _
    | resealed _ _ _ _ _ _ _ hpending _ | recovered _ _ _ _ _ _ _ _ _ _ _ _ _ _ hpending _ =>
      exact hr.pending owner entry (hpending entry hentry)
    | setUp _ _ hnew _ hsecret =>
      obtain rfl := Option.some.inj (hnew.symm.trans hentry)
      rw [hsecret]
      exact ⟨hstorable.bounded_newSecret _ _, rfl, rfl⟩
    | restaged hthere hcheck _ _ hnew _ =>
      obtain rfl := Option.some.inj (hnew.symm.trans hentry)
      exact ht.regular_check hcheck (hr.pending owner _ hthere)
    | enabled _ _ _ _ _ _ _ _ hgone => cases hgone.symm.trans hentry
  · rintro owner row (hbefore | hrow) hon
    · exact hr.rows owner row hbefore hon
    cases course ht.alone owner with
    | kept _ hrecord _ _ => exact hr.rows owner row (had_of_record (hrecord row hrow hon)) hon
    | setUp _ hrecord _ _ _ | restaged _ _ _ hrecord _ _ =>
      exact hr.rows owner row (had_of_record (hrecord.symm.trans hrow)) hon
    | enabled hthere hcheck _ _ hnew _ hmain hbackup _ =>
      obtain rfl := Option.some.inj (hnew.symm.trans hrow)
      have hsecret := ht.regular_check hcheck (hr.pending owner _ hthere)
      exact regular_copies hmain hbackup (holds_wrap hA hsecret.bounded hsecret _ _)
        (holds_wrap hA hsecret.bounded hsecret _ _)
    | rechecked hthere hon' hcopy hopen hcheck _ hnew hafter _ _ =>
      obtain rfl := Option.some.inj (hnew.symm.trans hrow)
      have hrows := hr.rows owner _ (had_of_record hthere) hon'
      have hsecret := ht.regular_check hcheck (hrows _ (.inl hcopy) _ _ hopen)
      rintro copy (hmain | hbackup)
      · rw [hafter] at hmain
        cases hmain
        exact holds_wrap hA hsecret.bounded hsecret _ _
      · rw [hafter] at hbackup
        exact hrows copy (.inr hbackup)
    | resealed _ hthere hon' hcopy hopen hnew hafter _ _ =>
      obtain rfl := Option.some.inj (hnew.symm.trans hrow)
      have hrows := hr.rows owner _ (had_of_record hthere) hon'
      have hsecret := hrows _ (.inl hcopy) _ _ hopen
      rintro copy (hmain | hbackup)
      · rw [hafter] at hmain
        cases hmain
        exact holds_wrap hA hsecret.bounded hsecret _ _
      · rw [hafter] at hbackup
        exact hrows copy (.inr hbackup)
    | recovered hcall hsubject _ _ _ hshown hactive hcopy hopen hretire hnew _ hmain hbackup _ _ =>
      obtain rfl := Option.some.inj (hnew.symm.trans hrow)
      -- The backup copy may be that of an earlier record.
      have hheld := hr.rows owner _ (had_of_shown ht hcall hsubject hshown) hactive _ (.inr hcopy) _
        _ hopen
      have hsecret := hheld.of_core (Otp.Secret.bounded_retire hretire hheld.bounded)
        (Otp.Secret.core_retire hretire)
      exact regular_copies hmain hbackup (holds_wrap hA hsecret.bounded hsecret _ _)
        (holds_wrap hA hsecret.bounded hsecret _ _)

/-- **The run.** Every secret that can be opened counts steps by the policy. Induction on the
history. -/
theorem regular (hA : D.primitives.Authentic) (hstorable : D.policy.Storable)
    (hrun : h.All fun past t => t.Timely D past) : Regular D h := by
  induction h with
  | start gallery => exact ⟨nofun, nofun⟩
  | turn h t ih => exact regular_turn hA hstorable hrun.2 (ih hrun.1)

/-! ## §4 — for whom a copy was sealed

A main copy begins with its nonce, and a nonce is drawn once. -/

/-- A nonce was drawn in a turn after which the record of the account belonged to an enrollment. -/
def History.Marked (D : Deployment) (owner : Uuid) (nonce : Nonce) (j : Lineage) (h : History) :
    Prop :=
  h.Any fun past t => t.draws.mainNonce = nonce ∧ (past.turn t).recordOrigin D owner = some j

/-- **A nonce marks one enrollment.** It was drawn in one turn, and the record of an account belongs
to one enrollment after a turn. -/
theorem mark_unique (hrun : h.All fun past t => t.Timely D past) {nonce : Nonce}
    (hm : h.Marked D owner nonce j) (hm' : h.Marked D owner nonce j') : j = j' := by
  induction h with
  | start gallery => cases hm
  | turn h t ih =>
    have hfresh : t.draws.mainNonce = nonce → ∀ k, ¬ h.Marked D owner nonce k := by
      rintro rfl k
      exact hrun.2.fresh.not_any fun _ _ hne hmark => hne hmark.1
    -- Two marks by one nonce are made in one turn.
    rcases hm with hbefore | ⟨hnonce, horigin⟩
    · rcases hm' with hbefore' | ⟨hnonce, -⟩
      · exact ih hrun.1 hbefore hbefore'
      · exact absurd hbefore (hfresh hnonce j)
    · rcases hm' with hbefore' | ⟨-, horigin'⟩
      · exact absurd hbefore' (hfresh hnonce j')
      · exact Option.some.inj (horigin.symm.trans horigin')

/-- The main copy of a record carries the mark of the enrollment of the record: it was sealed in a
turn of that enrollment, and has been left as it is since. -/
theorem marked (hrun : h.All fun past t => t.Timely D past) {row : FactorRecord} {copy : Bytes}
    (hhad : h.HadFor D owner row j) (hcopy : row.main = some copy) :
    ∃ nonce : Nonce, copy.take Envelope.nonceLength = nonce.toList ∧ h.Marked D owner nonce j := by
  induction h with
  | start gallery => cases hhad
  | turn h t ih =>
    have hkept : h.HadFor D owner row j → ∃ nonce : Nonce,
        copy.take Envelope.nonceLength = nonce.toList ∧ (h.turn t).Marked D owner nonce j := by
      intro hbefore
      obtain ⟨nonce, htake, hmark⟩ := ih hrun.1 hbefore
      exact ⟨nonce, htake, .inl hmark⟩
    rcases hhad with hbefore | ⟨hrow, horigin⟩
    · exact hkept hbefore
    have hon : row.enabled = true := on_of_recordOrigin horigin hrow
    -- The record was there before the turn, or its main copy was sealed in it.
    have hsame : (h.state D).ledger.records.get? owner = some row → h.HadFor D owner row j :=
      fun hthere => hadFor_of_record hthere
        ((recordOrigin_before hthere hon hrow hon).symm.trans horigin)
    have hnew : ∀ (secret : Otp.Secret) (key : Key),
        row.main = some (secret.wrap D.primitives key t.draws.mainNonce) → ∃ nonce : Nonce,
          copy.take Envelope.nonceLength = nonce.toList ∧ (h.turn t).Marked D owner nonce j := by
      intro secret key hmain
      obtain rfl := Option.some.inj (hmain.symm.trans hcopy)
      exact ⟨t.draws.mainNonce, (Otp.Secret.parts_wrap _ _ _ _).1, .inr ⟨rfl, horigin⟩⟩
    cases course hrun.2.alone owner with
    | kept _ hrecord _ _ => exact hkept (hsame (hrecord row hrow hon))
    | setUp _ hrecord _ _ _ | restaged _ _ _ hrecord _ _ =>
      exact hkept (hsame (hrecord.symm.trans hrow))
    | enabled _ _ _ _ hafter _ hmain _ _ | recovered _ _ _ _ _ _ _ _ _ _ hafter _ hmain _ _ _ =>
      obtain rfl := Option.some.inj (hafter.symm.trans hrow)
      exact hnew _ _ hmain
    | rechecked _ _ _ _ _ _ hthere hafter _ _ | resealed _ _ _ _ _ hthere hafter _ _ =>
      obtain rfl := Option.some.inj (hthere.symm.trans hrow)
      exact hnew _ _ (by rw [hafter])

/-- **Records with one main copy belong to one enrollment.** A comparison of copies is all that
stands between a late write and the record, so it has to tell enrollments apart. -/
theorem same_enrollment (hrun : h.All fun past t => t.Timely D past) {row row' : FactorRecord}
    {copy : Bytes} (hhad : h.HadFor D owner row j) (hcopy : row.main = some copy)
    (hhad' : h.HadFor D owner row' j') (hcopy' : row'.main = some copy) : j = j' := by
  obtain ⟨nonce, htake, hmark⟩ := marked hrun hhad hcopy
  obtain ⟨nonce', htake', hmark'⟩ := marked hrun hhad' hcopy'
  have hnonce : nonce = nonce' := Vector.toList_inj.1 (htake.symm.trans htake')
  rw [← hnonce] at hmark'
  exact mark_unique hrun hmark hmark'

end SecondFactor
