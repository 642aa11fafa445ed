import SecondFactor.Proofs.Records
import SecondFactor.Proofs.Holdings

/-!
# Marks that do not come back

A write to the ledger that depends on what was read compares one value: the main copy, or the
fingerprint. That is enough only if such a value does not come back when it was once replaced. Each
of the two carries something that was drawn in the turn that wrote it, and every turn keeps it,
drops it, or writes one of its own.

## The architecture

* **`Turn.Unrepeated`** — a turn of a run in which what is drawn does not come again.
* **`Marking`** — a mark of records, and the stamp that a turn puts in its place;
  **`Marking.nonce`** and **`Marking.fingerprint`** are the two.
* **`Marking.stamped`** — a mark comes from an earlier turn; **`Marking.not_back`** — a mark that
  was replaced does not come back.
* **`same_backup`** — records with one fingerprint have one backup copy.
-/

namespace SecondFactor

open Service (Call)

/-! ## §1 — the runs -/

/-- The fingerprint of the recovery key that a turn draws. -/
def Turn.fingerprint (D : Deployment) (t : Turn) : String :=
  RecoveryKey.fingerprint D.primitives t.draws.fingerprintSalt
    (RecoveryKey.generate t.draws.recoveryKey)

/-- A turn of a run in which no nonce and no fingerprint comes again, and whose clock is within the
calendar. Queries may fail, other set-ups may come in between, and any record may be shown. -/
structure Turn.Unrepeated (D : Deployment) (past : History) (t : Turn) : Prop where
  last : t.now ≤ .last
  nonce : past.All fun _ earlier => earlier.draws.mainNonce ≠ t.draws.mainNonce
  fingerprint : past.All fun _ earlier => earlier.fingerprint D ≠ t.fingerprint D

namespace History

/-- The turn is one of the run. -/
def Holds (h : History) (u : Turn) : Prop := h.Any fun _ t => t = u

variable {h : History}

/-- What happened in a turn of a history happened in one that can be named. -/
theorem Any.holds {q : Turn → Prop} (hany : h.Any fun _ t => q t) : ∃ u, h.Holds u ∧ q u := by
  induction h with
  | start gallery => cases hany
  | turn h t ih =>
    rcases hany with hbefore | hlast
    · obtain ⟨u, hu, hq⟩ := ih hbefore
      exact ⟨u, .inl hu, hq⟩
    · exact ⟨t, .inr rfl, hlast⟩

theorem All.of_holds {q : Turn → Prop} {u : Turn} (hall : h.All fun _ t => q t)
    (hu : h.Holds u) : q u := by
  induction h with
  | start gallery => cases hu
  | turn h t ih =>
    rcases hu with hbefore | rfl
    · exact ih hall.1 hbefore
    · exact hall.2

end History

/-! ## §2 — marks -/

/-- A mark of records. A turn keeps the mark of the record of an account, drops it, or puts its own
stamp in its place. -/
structure Marking (D : Deployment) (β : Type) where
  mark : FactorRecord → Option β
  stamp : Turn → β
  moves : ∀ (t : Turn) (s : State) (owner : Uuid),
    ((t.next D s).ledger.records.get? owner).bind mark = (s.ledger.records.get? owner).bind mark ∨
      ((t.next D s).ledger.records.get? owner).bind mark = none ∨
        ((t.next D s).ledger.records.get? owner).bind mark = some (stamp t)

namespace Marking

variable {D : Deployment} {β : Type} (m : Marking D β) {h : History} {owner : Uuid} {b : β}

/-- The mark of the record of an account. -/
def current (s : State) (owner : Uuid) : Option β := (s.ledger.records.get? owner).bind m.mark

theorem current_of_row {s : State} {row : FactorRecord}
    (hrow : s.ledger.records.get? owner = some row) : m.current s owner = m.mark row := by
  rw [current, hrow, Option.bind_some]

/-- **A mark is the stamp of an earlier turn**, since nothing else is written. Induction on the
history. -/
theorem stamped (hb : m.current (h.state D) owner = some b) : h.Any fun _ t => m.stamp t = b := by
  induction h with
  | start gallery => cases hb
  | turn h t ih =>
    rcases m.moves t (h.state D) owner with hkept | hdropped | hput
    · exact .inl (ih (hkept.symm.trans hb))
    · cases hdropped.symm.trans hb
    · exact .inr (Option.some.inj (hput.symm.trans hb))

/-- So is the mark of any record that the account had. -/
theorem stamped_of_had {row : FactorRecord} (hhad : h.Had D owner row)
    (hb : m.mark row = some b) : h.Any fun _ t => m.stamp t = b := by
  induction h with
  | start gallery => cases hhad
  | turn h t ih =>
    rcases hhad with hbefore | hrow
    · exact .inl (ih hbefore)
    · exact m.stamped ((m.current_of_row hrow).trans hb)

/-- No turn has the stamp of an earlier one. -/
def Fresh (past : History) (t : Turn) : Prop :=
  past.All fun _ earlier => m.stamp earlier ≠ m.stamp t

variable {m} in
theorem Fresh.not_stamped {t : Turn} (ht : m.Fresh h t) : ¬ h.Any fun _ earlier =>
    m.stamp earlier = m.stamp t :=
  ht.not_any fun _ _ hne => hne

/-- A turn finds a mark and puts its own stamp in its place. -/
structure Replaced (past : History) (t : Turn) (owner : Uuid) (b : β) : Prop where
  found : m.current (past.state D) owner = some b
  put : m.current (t.next D (past.state D)) owner = some (m.stamp t)

/-- **A mark that was replaced does not come back.** It is the stamp of an earlier turn than the
one that replaced it, and later turns have other stamps. Induction on the history. -/
theorem not_back (hfresh : h.All m.Fresh)
    (hreplaced : h.Any fun past t => m.Replaced past t owner b) :
    (h.Any fun _ t => m.stamp t = b) ∧ m.current (h.state D) owner ≠ some b := by
  induction h with
  | start gallery => cases hreplaced
  | turn h t ih =>
    have hother : (h.Any fun _ earlier => m.stamp earlier = b) → m.stamp t ≠ b := by
      rintro hearlier rfl
      exact hfresh.2.not_stamped hearlier
    rcases hreplaced with hbefore | ⟨hfound, hput⟩
    · obtain ⟨hearlier, hne⟩ := ih hfresh.1 hbefore
      refine ⟨.inl hearlier, fun hb => ?_⟩
      rcases m.moves t (h.state D) owner with hkept | hdropped | hput
      · exact hne (hkept.symm.trans hb)
      · cases hdropped.symm.trans hb
      · exact hother hearlier (Option.some.inj (hput.symm.trans hb))
    · have hearlier := m.stamped hfound
      refine ⟨.inl hearlier, fun hb => ?_⟩
      exact hother hearlier (Option.some.inj (hput.symm.trans hb))

end Marking

/-! ## §3 — the nonce of the main copy -/

/-- What the main copy of a record begins with. -/
def FactorRecord.nonce? (r : FactorRecord) : Option Bytes :=
  r.main.map (·.take Envelope.nonceLength)

section Rewriting

variable {o : Occasion} {s : State} {owner : Uuid} {call : Call} {after : Option FactorRecord}

/-- An envelope begins with its nonce, so the nonce can be read off without a key. -/
theorem FactorRecord.nonce?_of_wrap {row : FactorRecord} {P : Primitives} {secret : Otp.Secret}
    {key : Key} {nonce : Nonce} (hmain : row.main = some (secret.wrap P key nonce)) :
    row.nonce? = some nonce.toList := by
  rw [nonce?, hmain, Option.map_some, (Otp.Secret.parts_wrap P secret key nonce).1]

/-- A call leaves the nonce of the main copy, drops the copy, or seals one with its own nonce. -/
theorem Rewrites.nonce (h : Rewrites o s owner call after) :
    after.bind FactorRecord.nonce? = (s.ledger.records.get? owner).bind FactorRecord.nonce? ∨
      after.bind FactorRecord.nonce? = none ∨
        after.bind FactorRecord.nonce? = some o.draws.mainNonce.toList := by
  cases h with
  | kept => exact .inl rfl
  | enabled | rechecked | resealed | recovered =>
    exact .inr (.inr (FactorRecord.nonce?_of_wrap rfl))
  | disabled | removed => exact .inr (.inl rfl)

/-- **A fingerprint comes with its backup copy.** What has the fingerprint after a call has that of
the call, or had it before the call with the same backup copy. -/
theorem Rewrites.fingerprint (h : Rewrites o s owner call after) {row : FactorRecord}
    (hafter : after = some row) {fingerprint : String} (hrow : row.fingerprint = some fingerprint) :
    (∃ before, s.ledger.records.get? owner = some before ∧
      before.fingerprint = row.fingerprint ∧ before.backup = row.backup) ∨
    fingerprint = RecoveryKey.fingerprint o.deployment.primitives o.draws.fingerprintSalt
      (RecoveryKey.generate o.draws.recoveryKey) := by
  cases h with
  | kept => exact .inl ⟨row, hafter, rfl, rfl⟩
  | enabled | recovered =>
    cases hafter
    exact .inr (Option.some.inj hrow).symm
  | rechecked _ hthere | resealed _ hthere =>
    cases hafter
    exact .inl ⟨_, hthere, rfl, rfl⟩
  | disabled =>
    cases hafter
    cases hrow
  | removed => cases hafter

end Rewriting

/-- The nonce of the main copy is a mark. -/
def Marking.nonce (D : Deployment) : Marking D Bytes where
  mark := FactorRecord.nonce?
  stamp t := t.draws.mainNonce.toList
  moves t s owner := by
    rcases t.rewrites D s owner with hsame | ⟨call, -, hrewrites⟩
    · exact .inl (congrArg (Option.bind · FactorRecord.nonce?) hsame)
    · exact hrewrites.nonce

/-! ## §4 — the fingerprint and the backup copy -/

/-- After a turn a fingerprint is the one from before with its backup copy, or that of the turn. -/
theorem fingerprint_of_turn (D : Deployment) {t : Turn} {s : State} {owner : Uuid}
    {row : FactorRecord} (hrow : (t.next D s).ledger.records.get? owner = some row)
    {fingerprint : String} (hfingerprint : row.fingerprint = some fingerprint) :
    (∃ before, s.ledger.records.get? owner = some before ∧
      before.fingerprint = row.fingerprint ∧ before.backup = row.backup) ∨
    fingerprint = t.fingerprint D := by
  rcases t.rewrites D s owner with hsame | ⟨call, -, hrewrites⟩
  · exact .inl ⟨row, hsame.symm.trans hrow, rfl, rfl⟩
  · exact hrewrites.fingerprint hrow hfingerprint

/-- The fingerprint is a mark. -/
def Marking.fingerprint (D : Deployment) : Marking D String where
  mark := FactorRecord.fingerprint
  stamp := Turn.fingerprint D
  moves t s owner := by
    cases hrow : (t.next D s).ledger.records.get? owner with
    | none => exact .inr (.inl rfl)
    | some row =>
      rw [Option.bind_some]
      cases hfingerprint : row.fingerprint with
      | none => exact .inr (.inl rfl)
      | some fingerprint =>
        rcases fingerprint_of_turn D hrow hfingerprint with ⟨before, hthere, hsame, -⟩ | hown
        · rw [hthere, Option.bind_some, hsame, hfingerprint]
          exact .inl rfl
        · exact .inr (.inr (congrArg some hown))

section Runs

variable {D : Deployment} {h : History} {t : Turn} {owner : Uuid}

/-- A fingerprint that is stored was made by the turn whose stamp it is, whatever mishaps there
were. -/
theorem fingerprint_made {fingerprint : String}
    (h : (Marking.fingerprint D).current (h.state D) owner = some fingerprint) :
    ∃ salt word, fingerprint = D.primitives.hashWord salt word := by
  obtain ⟨u, -, hstamp⟩ := ((Marking.fingerprint D).stamped h).holds
  exact ⟨_, _, hstamp.symm⟩

theorem Turn.Unrepeated.fresh_nonce (ht : t.Unrepeated D h) : (Marking.nonce D).Fresh h t :=
  ht.nonce.imp fun _ _ hne heq => hne (Vector.toList_inj.1 heq)

theorem Turn.Unrepeated.fresh_fingerprint (ht : t.Unrepeated D h) :
    (Marking.fingerprint D).Fresh h t :=
  ht.fingerprint

/-- **Records with one fingerprint have one backup copy**, whenever the account had them. A
recovery that was begun from an earlier record may therefore use what it was shown. Induction on
the history. -/
theorem same_backup (hrun : h.All fun past t => t.Unrepeated D past) {row row' : FactorRecord}
    {fingerprint : String} (hhad : h.Had D owner row) (hhad' : h.Had D owner row')
    (hrow : row.fingerprint = some fingerprint) (hrow' : row'.fingerprint = some fingerprint) :
    row.backup = row'.backup := by
  induction h generalizing row row' with
  | start gallery => cases hhad
  | turn h t ih =>
    -- A record that is there now has its fingerprint from before, if any record had it before.
    have hback : ∀ now before : FactorRecord,
        (t.next D (h.state D)).ledger.records.get? owner = some now → h.Had D owner before →
        now.fingerprint = some fingerprint → before.fingerprint = some fingerprint →
        ∃ same, h.Had D owner same ∧ same.fingerprint = some fingerprint ∧
          same.backup = now.backup := by
      intro now before hnow hbefore hf hf'
      rcases fingerprint_of_turn D hnow hf with ⟨same, hthere, hsame, hbackup⟩ | hown
      · exact ⟨same, had_of_record hthere, hsame.trans hf, hbackup⟩
      · have hstamped := (Marking.fingerprint D).stamped_of_had hbefore hf'
        rw [hown] at hstamped
        exact absurd hstamped hrun.2.fresh_fingerprint.not_stamped
    rcases hhad with hbefore | hnow
    · rcases hhad' with hbefore' | hnow'
      · exact ih hrun.1 hbefore hbefore' hrow hrow'
      · obtain ⟨same, hsame, hf, hbackup⟩ := hback row' row hnow' hbefore hrow' hrow
        exact (ih hrun.1 hbefore hsame hrow hf).trans hbackup
    · rcases hhad' with hbefore' | hnow'
      · obtain ⟨same, hsame, hf, hbackup⟩ := hback row row' hnow hbefore' hrow hrow'
        exact hbackup.symm.trans (ih hrun.1 hsame hbefore' hf hrow')
      · rw [Option.some.inj (hnow.symm.trans hnow')]

end Runs

end SecondFactor
