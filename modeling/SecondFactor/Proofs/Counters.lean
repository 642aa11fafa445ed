import SecondFactor.Proofs.Races

/-!
# How far attempts are counted

A verification counts its attempt in the main copy. The backup copy has the number from when the
second factor was turned on, and nothing is counted there afterwards. A recovery makes both copies
of the backup copy, so it takes the number back to that, and the attempts in between are forgotten.
Nothing else does: as long as the second factor is on, every other turn counts one attempt more or
leaves the number.

## The architecture

* **`Turn.Faithful`** — a turn in which whatever is shown of a record was there at some time.
* **`State.BackupCounts`** — the number of attempts in the backup copy; **`counts_regained`** — a
  recovery puts it into the main copy.
* **`Turn.Tallies`**, **`tallies`** — what any other turn does with the two numbers.
* **`History.Enrolled`** — a second factor that is on, with the attempts since it was turned on or
  last recovered; **`counts_enrolled`** — the run.
* **`counter_falls_iff_recovered`** — when the number falls.
-/

namespace SecondFactor

open Service (Call Reply)

variable {D : Deployment} {h : History} {t : Turn} {s : State} {owner : Uuid} {row : FactorRecord}
  {b n k : Nat}

/-! ## §1 — the backup copy -/

/-- A turn of a run in which no nonce and no fingerprint comes again. Queries may fail, and a call
may be shown an earlier record of the account that it is about, as if it had been overtaken. -/
structure Turn.Faithful (D : Deployment) (past : History) (t : Turn) : Prop
    extends t.Unrepeated D past where
  alone : t.mishaps.Plain
  stale : ∀ row, t.mishaps.staleRecord = some row → ∀ call owner,
    t.call? D (past.state D) = some call →
    call.subject? (t.occasion D) (past.state D).ledger = some owner → past.Had D owner row

/-- The backup copy of the record that is on counts so many attempts, whatever key opens it. -/
def State.BackupCounts (D : Deployment) (s : State) (owner : Uuid) (n : Nat) : Prop :=
  ∃ row copy, s.ledger.records.get? owner = some row ∧ row.enabled = true ∧
    row.backup = some copy ∧ Holds D (fun secret => secret.counter = n) copy

namespace State.BackupCounts

theorem of_row (hA : D.primitives.Authentic) {secret : Otp.Secret} {key : Key} {nonce : Nonce}
    (hrow : s.ledger.records.get? owner = some row) (hon : row.enabled = true)
    (hbackup : row.backup = some (secret.wrap D.primitives key nonce)) (hbounded : secret.Bounded)
    (hcounter : secret.counter = n) : s.BackupCounts D owner n :=
  ⟨row, _, hrow, hon, hbackup, holds_wrap hA hbounded hcounter key nonce⟩

/-- A record that is on and has the backup copy of the one from before. -/
theorem of_backup {s' : State} {row' : FactorRecord} (hb : s.BackupCounts D owner n)
    (hrow : s.ledger.records.get? owner = some row)
    (hrow' : s'.ledger.records.get? owner = some row') (hon : row'.enabled = true)
    (hbackup : row'.backup = row.backup) : s'.BackupCounts D owner n := by
  obtain ⟨there, copy, hthere, -, hcopy, hholds⟩ := hb
  obtain rfl := Option.some.inj (hthere.symm.trans hrow)
  exact ⟨row', copy, hrow', hon, hbackup.trans hcopy, hholds⟩

theorem of_same {s' : State} (hb : s.BackupCounts D owner n)
    (hsame : s'.ledger.records.get? owner = s.ledger.records.get? owner) :
    s'.BackupCounts D owner n := by
  obtain ⟨row, copy, hrow, hcopy⟩ := hb
  exact ⟨row, copy, hsame.trans hrow, hcopy⟩

theorem enabled (hb : s.BackupCounts D owner n) : s.enabled owner = true := by
  obtain ⟨row, -, hrow, hon, -⟩ := hb
  exact State.enabled_of_row hrow hon

end State.BackupCounts

/-! ## §2 — the main copy

What a recovery makes of it comes from the backup copy; any other turn makes it of the copy that it
replaces. -/

theorem State.Counts.unique (hc : s.Counts D owner n) (hc' : s.Counts D owner k) : n = k := by
  obtain ⟨row, copy, hrow, -, hcopy, ⟨key, secret, hopen⟩, hholds⟩ := hc
  exact (hholds key secret hopen).symm.trans (hc'.counter hrow hcopy hopen)

/-- The number is the one that is read with any password that opens the copy. -/
theorem State.Counts.of_mainSecret {word : String} (hc : s.Counts D owner n)
    (hmain : (s.mainSecret? D owner word).map (·.counter) = some k) : n = k := by
  obtain ⟨secret, hsecret, rfl⟩ := Option.map_eq_some_iff.1 hmain
  obtain ⟨copy, hcopy, hopen⟩ := Option.bind_eq_some_iff.1 hsecret
  obtain ⟨row, hrow, hcopy⟩ := Option.bind_eq_some_iff.1 hcopy
  cases hunwrap : Otp.Secret.unwrap D.primitives copy (D.kdf.derive D.primitives word) with
  | error failure =>
    rw [hunwrap] at hopen
    cases hopen
  | ok found =>
    rw [hunwrap] at hopen
    cases hopen
    exact (hc.counter hrow hcopy hunwrap).symm

/-- A recovery of the account has gone through. -/
structure Turn.Regains (D : Deployment) (past : History) (t : Turn) (owner : Uuid) : Prop where
  called : ∃ email recoveryKey new account,
    t.call? D (past.state D) = some (.recoverPassword email recoveryKey new) ∧
    (past.state D).ledger.findByEmail? email = some (owner, account)
  answered : t.answers D (past.state D)

/-- A recovery was begun from the record that it was shown, whichever that was. -/
theorem Turn.Regains.recoversFrom (hr : t.Regains D h owner) :
    ∃ row recoveryKey new, t.RecoversFrom D h owner row recoveryKey new ∧
      ∃ call, t.call? D (h.state D) = some call ∧
        call.subject? (t.occasion D) (h.state D).ledger = some owner := by
  obtain ⟨email, recoveryKey, new, account, hcall, hby⟩ := hr.called
  obtain ⟨reply, hreply⟩ := hr.answered
  obtain ⟨r, hout, hends⟩ := Turn.ends_of_call hcall
  obtain ⟨q, hq, rfl⟩ := Op.ends_map.1 hends
  cases Service.recoverPassword_outcome hq with
  | refused _ => cases hout.symm.trans hreply
  | done _ hfound hshown =>
    cases hfound.symm.trans hby
    obtain ⟨row, hrow, -⟩ := Option.bind_eq_some_iff.1 hshown
    exact ⟨row, recoveryKey, new, ⟨⟨email, account, hcall, hby⟩, hrow, hr.answered⟩,
      _, hcall, congrArg (Option.map Prod.fst) hby⟩

/-- What is there stays, if a recovery of the account does not go through: it writes nothing before
it is sure to be answered. -/
theorem kept_of_not_regains (hno : ¬ t.Regains D h owner) {email recoveryKey new : String}
    {account : Account}
    (hcall : t.call? D (h.state D) = some (.recoverPassword email recoveryKey new))
    (hfound : (h.state D).ledger.findByEmail? email = some (owner, account)) :
    (t.next D (h.state D)).ledger = (h.state D).ledger := by
  obtain ⟨r, hout, hends⟩ := Turn.ends_of_call hcall
  obtain ⟨q, hq, rfl⟩ := Op.ends_map.1 hends
  cases Service.recoverPassword_outcome hq with
  | refused hquiet => exact hquiet.ledger
  | done => exact absurd ⟨⟨email, recoveryKey, new, account, hcall, hfound⟩, ⟨_, hout⟩⟩ hno

/-- A recovery takes the backup copy that is there, whatever record it was shown. It writes only if
the fingerprint is still the same, and one fingerprint comes with one backup copy. -/
theorem backup_of_shown (hrun : h.All fun past t => t.Unrepeated D past) (ht : t.Faithful D h)
    {call : Call} (hcall : t.call? D (h.state D) = some call)
    (hsubject : call.subject? (t.occasion D) (h.state D).ledger = some owner) {copies : Copies}
    {current : FactorRecord} (hcurrent : (h.state D).ledger.records.get? owner = some current)
    (hfingerprint : current.hasFingerprint copies.fingerprint = true)
    (hshown : (t.facing (h.state D)).shown owner = some row) (hactive : row.active? = some copies) :
    current.backup = some copies.backup := by
  obtain ⟨-, -, hcopy, hmark, -⟩ := FactorRecord.active?_eq_some.1 hactive
  have hsame := (FactorRecord.hasFingerprint_iff.1 hfingerprint).2
  have hhad : h.Had D owner row := by
    cases hstale : t.mishaps.staleRecord with
    | none =>
      have hthere : t.mishaps.staleRecord.or ((h.state D).ledger.records.get? owner) = some row :=
        hshown
      rw [hstale, Option.none_or] at hthere
      exact had_of_record hthere
    | some stale =>
      obtain rfl := Option.some.inj ((State.shown_of_stale hstale).symm.trans hshown)
      exact ht.stale _ hstale call owner hcall hsubject
  rw [same_backup hrun (had_of_record hcurrent) hhad hsame hmark, hcopy]

/-- What a recovery takes out of the backup copy has the number from there; to retire a window is no
attempt. -/
theorem recovered_counter {o : Occasion} {copies : Copies} {normal : String} {secret : Otp.Secret}
    (ho : o.deployment = D) (hb : s.BackupCounts D owner b)
    (hrow : s.ledger.records.get? owner = some row) (hcopy : row.backup = some copies.backup)
    (hsecret : Service.Outcome.Recovered o copies normal secret) :
    secret.Bounded ∧ secret.counter = b := by
  obtain ⟨held, now, hopen, -, hretire⟩ := hsecret.opened
  obtain ⟨there, copy, hthere, -, hbackup, hholds⟩ := hb
  obtain rfl := Option.some.inj (hthere.symm.trans hrow)
  obtain rfl := Option.some.inj (hbackup.symm.trans hcopy)
  subst ho
  exact ⟨Otp.Secret.bounded_retire hretire (Otp.Secret.bounded_of_unwrap hopen),
    (Otp.Secret.counts_retire hretire).1.trans (hholds _ held hopen)⟩

/-- **A recovery takes the count back** to that of the backup copy, and both copies have it then.
The attempts in between are forgotten. -/
theorem counts_regained (hP : D.primitives.SealingLaws) (hA : D.primitives.Authentic)
    (hrun : h.All fun past t => t.Unrepeated D past) (ht : t.Faithful D h)
    (hb : (h.state D).BackupCounts D owner b) (hr : t.Regains D h owner) :
    (t.next D (h.state D)).Counts D owner b ∧ (t.next D (h.state D)).BackupCounts D owner b := by
  obtain ⟨row, recoveryKey, new, hfrom, call, hcall, hsubject⟩ := hr.recoversFrom
  obtain ⟨current, copies, normal, secret, hdone⟩ := hfrom.done
  have hcopy := backup_of_shown hrun ht hcall hsubject hdone.there hdone.fingerprint hfrom.shown
    hdone.active
  obtain ⟨hbounded, hcounter⟩ := recovered_counter rfl hb hdone.there hcopy hdone.opened
  have hon : current.enabled = true := (FactorRecord.hasFingerprint_iff.1 hdone.fingerprint).1
  exact ⟨.of_wrap hP hA hdone.record hon rfl hbounded hcounter,
    .of_row hA hdone.record hon rfl hbounded hcounter⟩

/-- A turn leaves the number of the backup copy, and counts the attempt that is written, if one
is. -/
structure Turn.Tallies (D : Deployment) (past : History) (t : Turn) (owner : Uuid) (n b : Nat) :
    Prop where
  backup : (t.next D (past.state D)).BackupCounts D owner b
  attempt : t.Persists D past owner →
    (t.next D (past.state D)).Counts D owner (min (n + 1) (Otp.wordBound - 1))
  other : ¬ t.Persists D past owner → (t.next D (past.state D)).Counts D owner n

theorem Turn.Tallies.of_same (hc : (h.state D).Counts D owner n)
    (hb : (h.state D).BackupCounts D owner b)
    (hsame : (t.next D (h.state D)).ledger.records.get? owner =
      (h.state D).ledger.records.get? owner) : t.Tallies D h owner n b where
  backup := hb.of_same hsame
  attempt hp := absurd (by rw [hsame]) hp.written
  other _ := hc.of_same hsame

/-- The main copy is written anew, and the backup copy is left. So a verification counts in the one
and not in the other. -/
theorem Turn.Tallies.of_backup (hP : D.primitives.SealingLaws) (hA : D.primitives.Authentic)
    (ht : t.Unrepeated D h)
    (hkeeps : t.Keeps D h owner) (hc : (h.state D).Counts D owner n)
    (hb : (h.state D).BackupCounts D owner b) {row' : FactorRecord}
    (hrow : (h.state D).ledger.records.get? owner = some row)
    (hrow' : (t.next D (h.state D)).ledger.records.get? owner = some row')
    (hon : row'.enabled = true) (hbackup : row'.backup = row.backup) : t.Tallies D h owner n b := by
  refine ⟨hb.of_backup hrow hrow' hon hbackup, fun hyes => ?_, fun hno => ?_⟩
  · rcases counts_turn hP hA ht hkeeps hc with ⟨-, hcounts⟩ | ⟨hno, -⟩
    · exact hcounts
    · exact absurd hyes hno
  · rcases counts_turn hP hA ht hkeeps hc with ⟨hyes, -⟩ | ⟨-, hcounts⟩
    · exact absurd hyes hno
    · exact hcounts

/-- **A turn without a recovery goes on counting**, as long as the second factor stays on. Only a
verification moves the number, and no call but a recovery moves that of the backup copy. -/
theorem tallies (hP : D.primitives.SealingLaws) (hA : D.primitives.Authentic)
    (ht : t.Unrepeated D h)
    (hon : (t.next D (h.state D)).enabled owner = true) (hno : ¬ t.Regains D h owner)
    (hc : (h.state D).Counts D owner n) (hb : (h.state D).BackupCounts D owner b) :
    t.Tallies D h owner n b := by
  rcases t.rewrites D (h.state D) owner with hsame | ⟨call, hcall, hrewrites⟩
  · exact .of_same hc hb hsame
  have hkeeps : (¬ call.givesUp (h.state D).ledger owner) → t.Keeps D h owner := by
    intro hgives call' hcall'
    cases hcall.symm.trans hcall'
    exact hgives
  generalize hafter : (t.next D (h.state D)).ledger.records.get? owner = after at hrewrites
  cases hrewrites with
  | kept => exact .of_same hc hb hafter
  | enabled _ hoff =>
    have hbefore : (t.facing (h.state D)).enabled owner = true := hc.enabled
    cases hoff.symm.trans hbefore
  -- The main copy is written, and the backup copy is that of the row that was found.
  | rechecked _ hrow hmain | resealed _ hrow hmain =>
    exact .of_backup hP hA ht (hkeeps id) hc hb hrow hafter (FactorRecord.hasMain_iff.1 hmain).1 rfl
  | recovered hfound =>
    exact .of_same hc hb (by rw [kept_of_not_regains hno hcall hfound])
  | disabled | removed =>
    unfold State.enabled at hon
    rw [hafter] at hon
    cases hon

/-! ## §3 — enrollments -/

/-- The second factor of an account is on. When it was turned on, so many attempts had been counted,
and so many more were written since then or since the last recovery. -/
inductive History.Enrolled (D : Deployment) (owner : Uuid) (b : Nat) : History → Nat → Prop where
  | begun {past : History} {t : Turn} (hoff : (past.state D).enabled owner = false)
      (hcounts : (t.next D (past.state D)).Counts D owner b) : Enrolled D owner b (past.turn t) 0
  | recovery {past : History} {t : Turn} {k : Nat} (hpast : past.Enrolled D owner b k)
      (hyes : t.Regains D past owner) : Enrolled D owner b (past.turn t) 0
  | attempt {past : History} {t : Turn} {k : Nat} (hpast : past.Enrolled D owner b k)
      (hyes : t.Persists D past owner) : Enrolled D owner b (past.turn t) (k + 1)
  | other {past : History} {t : Turn} {k : Nat} (hpast : past.Enrolled D owner b k)
      (hon : (t.next D (past.state D)).enabled owner = true) (hno : ¬ t.Persists D past owner)
      (hno' : ¬ t.Regains D past owner) : Enrolled D owner b (past.turn t) k

/-- Both copies are made of one secret when the second factor is turned on, so they start from one
number. -/
theorem backupCounts_begun (hP : D.primitives.SealingLaws) (hA : D.primitives.Authentic)
    (hstorable : D.policy.Storable)
    (hrun : (h.turn t).All fun past t => t.Faithful D past)
    (hoff : (h.state D).enabled owner = false)
    (hc : (t.next D (h.state D)).Counts D owner b) :
    (t.next D (h.state D)).BackupCounts D owner b := by
  have hsame : (t.next D (h.state D)).ledger.records.get? owner ≠
      (h.state D).ledger.records.get? owner := by
    intro hsame
    have hon := hc.enabled
    rw [State.enabled, hsame] at hon
    cases hoff.symm.trans hon
  have hwas : ∀ {row : FactorRecord}, (h.state D).ledger.records.get? owner = some row →
      row.enabled = true → False := by
    intro row hrow hon
    cases hoff.symm.trans (State.enabled_of_row hrow hon)
  rcases t.rewrites D (h.state D) owner with hkept | ⟨call, hcall, hrewrites⟩
  · exact absurd hkept hsame
  generalize hafter : (t.next D (h.state D)).ledger.records.get? owner = after at hrewrites
  cases hrewrites with
  | kept => exact absurd hafter hsame
  -- One secret is sealed twice, and the main copy was seen to count the number.
  | enabled _ _ hcheck =>
    have hbounded := bounded_activated hstorable (hrun.imp fun _ _ ht => ht.toUnrepeated)
      (hrun.imp fun _ _ ht => ht.alone) hcheck
    exact .of_row hA hafter rfl rfl hbounded
      (State.Counts.unique (.of_wrap hP hA hafter rfl rfl hbounded rfl) hc)
  -- All else is done to a record that is on already, or leaves none on.
  | rechecked _ hrow hmain | resealed _ hrow hmain =>
    exact (hwas hrow (FactorRecord.hasMain_iff.1 hmain).1).elim
  | recovered _ hrow hmark =>
    exact (hwas hrow (FactorRecord.hasFingerprint_iff.1 hmark).1).elim
  | disabled | removed =>
    have hon := hc.enabled
    unfold State.enabled at hon
    rw [hafter] at hon
    cases hon

theorem Turn.Persists.not_regains (hp : t.Persists D h owner) : ¬ t.Regains D h owner := by
  intro hr
  obtain ⟨_, _, _, hcall, -⟩ := hp.called
  obtain ⟨_, _, _, _, hcall', -⟩ := hr.called
  cases hcall.symm.trans hcall'

/-- **The run.** The main copy counts what the backup copy counts and the attempts since, up to the
greatest stored number. Induction on how the second factor came to be on. -/
theorem counts_enrolled (hP : D.primitives.SealingLaws) (hA : D.primitives.Authentic)
    (hstorable : D.policy.Storable)
    (hrun : h.All fun past t => t.Faithful D past) (he : h.Enrolled D owner b k) :
    (h.state D).Counts D owner (min (b + k) (Otp.wordBound - 1)) ∧
      (h.state D).BackupCounts D owner b := by
  induction he with
  | begun hoff hcounts =>
    have hb : b ≤ Otp.wordBound - 1 := Nat.le_sub_one_of_lt hcounts.lt
    rw [Nat.add_zero, Nat.min_eq_left hb]
    exact ⟨hcounts, backupCounts_begun hP hA hstorable hrun hoff hcounts⟩
  -- The number starts again from that of the backup copy.
  | recovery _ hyes ih =>
    obtain ⟨-, hbackup⟩ := ih hrun.1
    obtain ⟨hcounts, hbackup'⟩ := counts_regained hP hA (hrun.1.imp fun _ _ ht => ht.toUnrepeated)
      hrun.2 hbackup hyes
    have hb : b ≤ Otp.wordBound - 1 := Nat.le_sub_one_of_lt hcounts.lt
    rw [Nat.add_zero, Nat.min_eq_left hb]
    exact ⟨hcounts, hbackup'⟩
  -- Once the greatest number is reached, the sum stays there.
  | @attempt past t k _ hyes ih =>
    obtain ⟨hcounts, hbackup⟩ := ih hrun.1
    have hon : (t.next D (past.state D)).enabled owner = true :=
      (counts_turn hP hA hrun.2.toUnrepeated hyes.keeps hcounts).elim (·.2.enabled) (·.2.enabled)
    have htallies := tallies hP hA hrun.2.toUnrepeated hon hyes.not_regains hcounts hbackup
    have hsum : min (min (b + k) (Otp.wordBound - 1) + 1) (Otp.wordBound - 1) =
        min (b + (k + 1)) (Otp.wordBound - 1) := by omega
    exact ⟨hsum ▸ htallies.attempt hyes, htallies.backup⟩
  | other _ hon hno hno' ih =>
    obtain ⟨hcounts, hbackup⟩ := ih hrun.1
    have htallies := tallies hP hA hrun.2.toUnrepeated hon hno' hcounts hbackup
    exact ⟨htallies.other hno, htallies.backup⟩

/-- **An account whose second factor is on has an enrollment**, so the run says something about
every such account. Induction on the history. -/
theorem enrolled_of_enabled (hP : D.primitives.SealingLaws) (hA : D.primitives.Authentic)
    (hstorable : D.policy.Storable)
    (hrun : h.All fun past t => t.Faithful D past) (hon : (h.state D).enabled owner = true) :
    ∃ b k, h.Enrolled D owner b k := by
  induction h with
  | start gallery => cases hon
  | turn h t ih =>
    cases hbefore : (h.state D).enabled owner with
    | false =>
      obtain ⟨b, hcounts⟩ := counts_of_enabled (h := h.turn t) hP hA hstorable
        (hrun.imp fun _ _ ht => ht.toUnrepeated) (hrun.imp fun _ _ ht => ht.alone) hon
      exact ⟨b, 0, .begun hbefore hcounts⟩
    | true =>
      obtain ⟨b, k, he⟩ := ih hrun.1 hbefore
      -- The second factor stays on. What was done is a recovery, an attempt that was written, or
      -- neither.
      by_cases hregains : t.Regains D h owner
      · exact ⟨b, 0, .recovery he hregains⟩
      · by_cases hpersists : t.Persists D h owner
        · exact ⟨b, k + 1, .attempt he hpersists⟩
        · exact ⟨b, k, .other he hon hpersists hregains⟩

/-- **The number of attempts falls with a recovery, and only then.** In every run in which no nonce
and no fingerprint comes again and every record that is shown was there at some time, a second
factor that is on was turned on at some time, with a number of attempts. The main copy has this
number and that of the attempts that were written since, or since the last recovery. A turn after
which the second factor is still on leaves a main copy with less than that if and only if a recovery
goes through in it and some attempt had been counted; the number is then that from when the second
factor was turned on. -/
theorem counter_falls_iff_recovered (hP : D.primitives.SealingLaws) (hA : D.primitives.Authentic)
    (hstorable : D.policy.Storable)
    (hrun : h.All fun past t => t.Faithful D past) (owner : Uuid) :
    ((h.state D).enabled owner = true → ∃ b k, h.Enrolled D owner b k) ∧
    ∀ b k, h.Enrolled D owner b k →
      (h.state D).Counts D owner (min (b + k) (Otp.wordBound - 1)) ∧
      ∀ t : Turn, t.Faithful D h → (t.next D (h.state D)).enabled owner = true →
        ∃ n, (t.next D (h.state D)).Counts D owner n ∧ (t.Regains D h owner → n = b) ∧
          (n < min (b + k) (Otp.wordBound - 1) ↔
            t.Regains D h owner ∧ b < min (b + k) (Otp.wordBound - 1)) := by
  refine ⟨enrolled_of_enabled hP hA hstorable hrun, fun b k he => ?_⟩
  obtain ⟨hcounts, hbackup⟩ := counts_enrolled hP hA hstorable hrun he
  refine ⟨hcounts, fun t ht hon => ?_⟩
  by_cases hregains : t.Regains D h owner
  · obtain ⟨hback, -⟩ := counts_regained hP hA (hrun.imp fun _ _ ht => ht.toUnrepeated) ht hbackup
      hregains
    exact ⟨b, hback, fun _ => rfl, fun hlt => ⟨hregains, hlt⟩, fun hlt => hlt.2⟩
  · have htallies := tallies hP hA ht.toUnrepeated hon hregains hcounts hbackup
    by_cases hpersists : t.Persists D h owner
    · exact ⟨_, htallies.attempt hpersists, fun hr => absurd hr hregains,
        fun hlt => by omega, fun hr => absurd hr.1 hregains⟩
    · exact ⟨_, htallies.other hpersists, fun hr => absurd hr hregains,
        fun hlt => absurd hlt (Nat.lt_irrefl _), fun hr => absurd hr.1 hregains⟩

/-! A second factor is turned on with the second code that is tried, and a code is used. The
password is then recovered from the record from before, and the code is no longer counted. -/

theorem counter_falls_iff_recovered_regaining :
    History.racing.Enrolled .transparent (.ofByte 1) 2 1 ∧
    Turn.regaining.Regains .transparent .racing (.ofByte 1) ∧
    (History.racing.state .transparent).Counts .transparent (.ofByte 1) 3 ∧
    (Turn.regaining.next .transparent (History.racing.state .transparent)).Counts .transparent
      (.ofByte 1) 2 := by
  have hlaws : Deployment.transparent.primitives.SealingLaws := Primitives.transparent_sealing
  have hauthentic : Deployment.transparent.primitives.Authentic := Primitives.transparent_authentic
  have hstorable : Deployment.transparent.policy.Storable := ⟨by decide, by decide⟩
  have hbeginning : (History.turn .beginning .failing).All fun past t =>
      t.Faithful .transparent past :=
    ⟨⟨⟨trivial,
      ⟨⟨by decide, by decide +kernel, by decide +kernel⟩, .of_nil rfl, nofun⟩⟩,
      ⟨⟨by decide, by decide +kernel, by decide +kernel⟩, .of_nil rfl, nofun⟩⟩,
      ⟨⟨by decide, by decide +kernel, by decide +kernel⟩, .of_nil rfl, nofun⟩⟩
  have hproceeding : History.proceeding.All fun past t => t.Faithful .transparent past :=
    ⟨hbeginning, ⟨⟨by decide, by decide +kernel, by decide +kernel⟩, .of_nil rfl, nofun⟩⟩
  have hracing : History.racing.All fun past t => t.Faithful .transparent past :=
    ⟨hproceeding, ⟨⟨by decide, by decide +kernel, by decide +kernel⟩, .of_nil rfl, nofun⟩⟩
  have hfacts : ((History.turn .beginning .failing).state .transparent).enabled (.ofByte 1) =
        false ∧
      (History.proceeding.state .transparent).enabled (.ofByte 1) = true ∧
      ((History.proceeding.state .transparent).mainSecret? .transparent (.ofByte 1)
        "password").map (·.counter) = some 2 ∧
      ((History.racing.state .transparent).ledger.records.get? (.ofByte 1)).bind (·.main) ≠
        History.shownBefore.bind (·.main) ∧
      ((History.racing.state .transparent).ledger.findByEmail? "a@b.c").map Prod.fst =
        some (.ofByte 1) ∧
      Turn.regaining.answers .transparent (History.racing.state .transparent) ∧
      (Turn.regaining.next .transparent (History.racing.state .transparent)).enabled
        (.ofByte 1) = true := by
    decide +kernel
  obtain ⟨hoff, hon, hcounter, hwritten, hby, hanswers, hstays⟩ := hfacts
  obtain ⟨⟨holder, account⟩, hfound, hholder⟩ := Option.map_eq_some_iff.1 hby
  obtain ⟨b, hcounts⟩ := counts_of_enabled hlaws hauthentic hstorable
    (hproceeding.imp fun _ _ ht => ht.toUnrepeated) (hproceeding.imp fun _ _ ht => ht.alone) hon
  obtain rfl := hcounts.of_mainSecret hcounter
  have henrolled : History.racing.Enrolled .transparent (.ofByte 1) 2 1 :=
    .attempt (.begun hoff hcounts) ⟨⟨_, _, _, rfl, rfl⟩, hwritten⟩
  have hregains : Turn.regaining.Regains .transparent .racing (.ofByte 1) :=
    ⟨⟨_, _, _, account, rfl, hholder ▸ hfound⟩, hanswers⟩
  have hregaining : Turn.regaining.Faithful .transparent .racing := by
    refine ⟨⟨by decide, by decide +kernel, by decide +kernel⟩, .of_nil rfl, ?_⟩
    -- The record that is shown is the one from before the code was used.
    intro row hrow call owner hcall hsubject
    cases hcall
    obtain rfl := Option.some.inj (hby.symm.trans hsubject)
    exact .inl (.inr hrow)
  obtain ⟨-, hlaw⟩ := counter_falls_iff_recovered hlaws hauthentic hstorable hracing (.ofByte 1)
  obtain ⟨hbefore, hturn⟩ := hlaw 2 1 henrolled
  obtain ⟨n, hafter, hback, -⟩ := hturn .regaining hregaining hstays
  obtain rfl := hback hregains
  exact ⟨henrolled, hregains, hbefore, hafter⟩

end SecondFactor
