import SecondFactor.Proofs.LastKey
import SecondFactor.Proofs.Service.Calm
import SecondFactor.Proofs.Stores

/-!
# The last recovery key works

The record of an account takes the key that was shown last, and its backup copy opens under it. So a
recovery with that key is done if nothing fails, and what comes of it is again an account that can
be logged in to, with a second factor whose secret is the same. Every other key is refused.

## The architecture

* **`recovered_of_unlocks`** — a recovery with a key that the record takes is done, and what comes
  of it; **`login_answered`** — the new password is good for a login.
* **`barred`** — the record takes no key that was shown before the last one.
* **`last_recovery_key_works`** — what every run comes to: **`Turn.Restores`** or
  **`Turn.RefusesKey`**.
-/

namespace SecondFactor

open Service (Call Reply)

/-! ## §1 — a recovery that is done -/

section Recovering

variable {D : Deployment} {h : History} {t : Turn} {s : State} {owner : Uuid} {account : Account}
  {key typed new : String} {row : FactorRecord} {origin : Lineage}

/-- A turn without mishaps in which the password of an account is recovered is done. The new key
is shown, the new password is in place, and the main copy opens under it to a secret of the
enrollment. -/
theorem recovered_of_unlocks (hD : D.Lawful) (hshape : (h.state D).Shaped)
    (hu : Unlocks D h owner key row origin)
    (haccount : (h.state D).ledger.accounts.get? owner = some account) (hcalm : t.mishaps = {})
    {now : Nat} (hnow : t.now.sinceEpoch? = some now)
    (hnormal : RecoveryKey.normalize typed = .ok key)
    (hcall : t.call? D (h.state D) = some (.recoverPassword account.email typed new)) :
    t.outcome D (h.state D) = some (.ok (.recoveryKey (RecoveryKey.format t.recoveryKey))) ∧
      (t.next D (h.state D)).ledger.accounts.get? owner = some { account with
        passwordHash := D.primitives.hashWord t.draws.passwordSalt new } ∧
      ∃ main, (t.next D (h.state D)).mainSecret? D owner new = some main ∧
        h.Preserves D owner origin main.core := by
  have hs : (t.facing (h.state D)).Calm := hcalm
  obtain ⟨copies, hactive⟩ := (hshape.ledger.whole owner row hu.there).active hu.on
  obtain ⟨-, -, hbackup, hfingerprint, -⟩ := FactorRecord.active?_eq_some.1 hactive
  obtain ⟨salt, hsalt⟩ := hu.fingerprint
  obtain ⟨copy, core, hcopy, hpreserves, hsealed, hstep⟩ := hu.backup
  obtain rfl := Option.some.inj (hbackup.symm.trans hcopy)
  obtain ⟨held, hopen, hbounded, hcore⟩ := hsealed.opens hD.sealing
  have hverified : RecoveryKey.verify D.primitives key copies.fingerprint = .ok true := by
    rw [Option.some.inj (hfingerprint.symm.trans hsalt)]
    exact congrArg (Except.mapError _) (hD.hashing.verify_hash salt key)
  -- A clock reading is all that retiring needs, since steps have a length.
  obtain ⟨secret, hretire⟩ : ∃ secret, held.retire now = .ok secret := by
    have hpos : held.step ≠ 0 := by
      rw [← hcore] at hstep
      exact Nat.ne_of_gt hstep
    exact ⟨_, if_neg hpos⟩
  have hshown : ((t.facing (h.state D)).ledger.records.get? owner).bind FactorRecord.active? =
      some copies := by
    rw [show (t.facing (h.state D)).ledger = (h.state D).ledger from rfl, hu.there]
    exact hactive
  obtain ⟨l, hl, hdone⟩ := Service.recoverPassword_calm (o := t.occasion D) _ hs hnormal
    (hshape.ledger.findByEmail?_of_get? haccount) hshown hverified hopen hnow hretire
  obtain ⟨r, hout, hends⟩ := t.ends_of_call hcall
  obtain ⟨q, hq, rfl⟩ := Op.ends_map.1 hends
  obtain ⟨rfl, hnext⟩ := Prod.ext_iff.1 (hq.symm.trans hdone)
  obtain ⟨before, hrow, -, haccounts, hrecords⟩ := Ledger.recover?_eq hl
  have hledger : (t.next D (h.state D)).ledger = l := congrArg State.ledger hnext
  have hsecret : h.Preserves D owner origin secret.core := by
    rw [Otp.Secret.core_retire hretire, hcore]
    exact hpreserves
  refine ⟨hout, ?_, secret, ?_, hsecret⟩
  · rw [hledger, haccounts, Ledger.get?_setPasswordHash, if_pos rfl]
    exact congrArg _ haccount
  · have hopened : Otp.Secret.unwrap D.primitives (secret.wrap D.primitives
        (D.kdf.derive D.primitives new) t.draws.mainNonce) (D.kdf.derive D.primitives new) =
          .ok secret :=
      Otp.Secret.unwrap_wrap hD.sealing (Otp.Secret.bounded_retire hretire hbounded)
    rw [State.mainSecret?, hledger, hrecords, if_pos rfl, Option.bind_some]
    exact congrArg Except.toOption hopened

/-- **An account logs in with its password** in a turn without mishaps. The claim of the session is
read from the record, and any record will do. -/
theorem login_answered (hshape : s.Shaped) (haccount : s.ledger.accounts.get? owner = some account)
    {word : String}
    (hword : D.primitives.verifyWord account.passwordHash word = .ok true) (hcalm : t.mishaps = {})
    (hdatable : t.Datable D) (hcall : t.call? D s = some (.login account.email word)) :
    t.answers D s := by
  have hs : (t.facing s).Calm := hcalm
  obtain ⟨r, hout, hends⟩ := t.ends_of_call hcall
  obtain ⟨q, hq, rfl⟩ := Op.ends_map.1 hends
  have hissue := (Service.login_calm (o := t.occasion D) hs
    (hshape.ledger.findByEmail?_of_get? haccount) hword).1 hq
  have hresult := (Op.ends_onSessions.1 hissue).1
  obtain ⟨tokens, hissued⟩ := Session.issue_of_datable hdatable.1 hdatable.2
  exact ⟨.login tokens, hout.trans (congrArg (fun q => some (q.map Reply.login))
    (hresult.trans hissued))⟩

end Recovering

/-! ## §2 — keys that were replaced -/

/-- The record of an account takes other keys only. -/
def Barred (D : Deployment) (h : History) (owner : Uuid) (key : String) : Prop :=
  ∀ row fingerprint, (h.state D).ledger.records.get? owner = some row →
    row.fingerprint = some fingerprint → ∃ salt other, other ≠ key ∧
      fingerprint = RecoveryKey.fingerprint D.primitives salt other

/-- The recovery key that is drawn in a turn was not drawn before. -/
def Turn.DrawsNewKey (past : History) (t : Turn) : Prop :=
  past.All fun _ earlier => earlier.recoveryKey ≠ t.recoveryKey

instance (past : History) (t : Turn) : Decidable (t.DrawsNewKey past) :=
  inferInstanceAs (Decidable (past.All fun _ earlier => earlier.recoveryKey ≠ t.recoveryKey))

section Replacing

variable {D : Deployment} {h : History} {t : Turn} {owner : Uuid} {key shown : String}

/-- A key that is barred stays barred, as long as it is not drawn again. -/
theorem Barred.turn (hb : Barred D h owner key) (hnew : t.recoveryKey ≠ key) :
    Barred D (h.turn t) owner key := by
  intro row fingerprint hrow hfingerprint
  rcases fingerprint_of_turn D hrow hfingerprint with ⟨before, hthere, hsame, -⟩ | hown
  · exact hb before fingerprint hthere (hsame.trans hfingerprint)
  · exact ⟨_, t.recoveryKey, hnew, hown⟩

/-- A record that is off has no fingerprint, so no key fits it. -/
theorem barred_of_off (hword : ∀ salt word, D.primitives.hashWord salt word ≠ "")
    (hoff : (h.state D).enabled owner = false) : Barred D h owner key := by
  intro row fingerprint hrow hfingerprint
  have hdisabled : row.enabled = false := by
    rw [State.enabled, hrow] at hoff
    exact hoff
  obtain ⟨-, -, hnone⟩ := (whole_state hword h owner row hrow).off hdisabled
  cases hnone.symm.trans hfingerprint

/-- A record that takes one key takes no other. -/
theorem barred_of_unlocks {other : String} {row : FactorRecord} {origin : Lineage}
    (hu : Unlocks D h owner other row origin) (hne : other ≠ key) : Barred D h owner key := by
  intro found fingerprint hfound hfingerprint
  obtain rfl := Option.some.inj (hu.there.symm.trans hfound)
  obtain ⟨salt, hsalt⟩ := hu.fingerprint
  exact ⟨salt, other, hne, Option.some.inj (hfingerprint.symm.trans hsalt)⟩

/-- **The run.** The record takes no key that was shown before the last one. Such a key was the last
one until a turn showed another or found the record off, and later turns draw other keys. Induction
on the history. -/
theorem barred (hD : D.Lawful) (hrun : h.All fun past t => t.Orderly D (past.state D))
    (hnew : h.All Turn.DrawsNewKey) (hshowed : h.Showed D owner shown)
    (hlast : h.lastKey D owner ≠ some shown) : ∃ u, h.Holds u ∧
      shown = RecoveryKey.format u.recoveryKey ∧ Barred D h owner u.recoveryKey := by
  induction h with
  | start gallery => cases hshowed
  | turn h t ih =>
    have hother : ∀ u, h.Holds u → t.recoveryKey ≠ u.recoveryKey := fun u hu hsame =>
      hnew.2.of_holds hu hsame.symm
    rcases hshowed with hbefore | hreturned
    rotate_left
    · exact absurd (lastKey_of_returned hreturned) hlast
    -- Until this turn the key may have been the last one.
    by_cases hwas : h.lastKey D owner = some shown
    · obtain ⟨u, row, origin, hu, hformat, hunlocks⟩ := unlocked hD hrun.1 hwas
      refine ⟨u, .inl hu, hformat, ?_⟩
      have hoff (hreturns : t.returnsKey? D (h.state D) owner = none) :
          Barred D (h.turn t) owner u.recoveryKey := by
        refine barred_of_off hD.hashing.hash_nonempty ?_
        rw [lastKey_of_kept hreturns, Turn.staysOn, hunlocks.enabled, Bool.true_and] at hlast
        cases hon : (t.next D (h.state D)).enabled owner with
        | false => exact hon
        | true =>
          rw [hon, if_pos rfl] at hlast
          exact absurd hwas hlast
      have hcourse : t.KeyCourse D h owner := keyCourse hD hrun.2 (coherent hD hrun.1)
      cases hcourse with
      | issued _ hissued => exact barred_of_unlocks hissued (hother u hu)
      | kept hreturns _ => exact hoff hreturns
      | broken hreturns _ _ => exact hoff hreturns
    · -- Or it was barred before.
      obtain ⟨u, hu, hformat, hb⟩ := ih hrun.1 hnew.1 hbefore hwas
      exact ⟨u, .inl hu, hformat, hb.turn (hother u hu)⟩

/-- The turn refuses a recovery key and changes nothing. -/
def Turn.RefusesKey (D : Deployment) (t : Turn) (s : State) : Prop :=
  t.outcome D s = some (.error (.refused .recoveryKeyInvalid)) ∧ t.next D s = t.facing s

/-- A turn without mishaps refuses a recovery key that does not fit the copies of the account. It is
told that the key is wrong, and nothing is written. -/
theorem refusesKey_of_mistaken (hshape : (h.state D).Shaped) {account : Account}
    (haccount : (h.state D).ledger.accounts.get? owner = some account)
    (hwrong : ∀ row copies, (h.state D).ledger.records.get? owner = some row →
      row.active? = some copies →
      RecoveryKey.verify D.primitives key copies.fingerprint = .ok false)
    (hcalm : t.mishaps = {}) {typed new : String} (hnormal : RecoveryKey.normalize typed = .ok key)
    (hcall : t.call? D (h.state D) = some (.recoverPassword account.email typed new)) :
    t.RefusesKey D (h.state D) := by
  have hs : (t.facing (h.state D)).Calm := hcalm
  have hmistaken : (Service.recoverPassword (t.occasion D) account.email typed new).Ends
      (t.facing (h.state D)) (.error (.refused .recoveryKeyInvalid)) (t.facing (h.state D)) := by
    refine Service.recoverPassword_mistaken hs hnormal fun other found copies hfound hactive => ?_
    cases (hshape.ledger.findByEmail?_of_get? haccount).symm.trans hfound
    obtain ⟨row, hrow, hcopies⟩ := Option.bind_eq_some_iff.1 hactive
    exact hwrong row copies hrow hcopies
  obtain ⟨r, hout, hends⟩ := t.ends_of_call hcall
  obtain ⟨q, hq, rfl⟩ := Op.ends_map.1 hends
  obtain ⟨rfl, hnext⟩ := Prod.ext_iff.1 (hq.symm.trans hmistaken)
  exact ⟨hout, hnext⟩

/-- With exact hashing, a key that is barred is not accepted for the fingerprint that is there. -/
theorem Barred.mistaken (hb : Barred D h owner key) (hexact : D.primitives.ExactHashing)
    {row : FactorRecord} {copies : Copies}
    (hrow : (h.state D).ledger.records.get? owner = some row)
    (hactive : row.active? = some copies) :
    RecoveryKey.verify D.primitives key copies.fingerprint = .ok false := by
  obtain ⟨-, -, -, hfingerprint, -⟩ := FactorRecord.active?_eq_some.1 hactive
  obtain ⟨salt, other, hne, hsalt⟩ := hb row _ hrow hfingerprint
  rw [hsalt]
  exact congrArg (Except.mapError _) (hexact salt other key hne)

end Replacing

/-! ## §3 — the whole -/

/-- In the turn the password of an account is recovered. The key that is drawn is shown, which is
another one if it was not drawn before. The new password opens the main copy, which holds the secret
that was there before, unless a copy of the enrollment was misread on the way; and one can log in
with it. -/
structure Turn.Restores (D : Deployment) (h : History) (t : Turn) (owner : Uuid)
    (email new : String) (held : Otp.Secret) : Prop where
  shown : t.outcome D (h.state D) =
    some (.ok (.recoveryKey (RecoveryKey.format t.recoveryKey)))
  last : (h.turn t).lastKey D owner = some (RecoveryKey.format t.recoveryKey)
  another : t.DrawsNewKey h → h.lastKey D owner ≠ some (RecoveryKey.format t.recoveryKey)
  opens : ∃ main origin, (t.next D (h.state D)).mainSecret? D owner new = some main ∧
    h.recordOrigin D owner = some origin ∧
    (main.core = held.core ∨ h.Misread D owner origin)
  login : ∀ u : Turn, u.mishaps = {} → u.Datable D →
    u.call? D (t.next D (h.state D)) = some (.login email new) →
    u.answers D (t.next D (h.state D))

/-- **The recovery key that was shown last works, and only that one.** In a run in which requests
come one at a time, a key was shown for every record that is on, unless its activation broke off.
As long as the record stays on, every spelling of the key that was shown last recovers the password,
whatever came in between. While the record is off, every key is refused and changes nothing. If a
hash is accepted for its own word only, every other key than the last one is refused, and if no
recovery key is drawn twice, so is every key that was shown before. No copy is misread then, nor if
encryption is authentic. -/
theorem last_recovery_key_works {D : Deployment} (hD : D.Lawful) {h : History}
    (hrun : h.All fun past t => t.Orderly D (past.state D)) (owner : Uuid) :
    ((h.state D).enabled owner = true → (∃ shown, h.lastKey D owner = some shown) ∨
      h.Any fun past t => t.BreaksOff D (past.state D) owner) ∧
    (∀ shown, h.lastKey D owner = some shown → ∃ account word held,
      (h.state D).ledger.accounts.get? owner = some account ∧
      D.primitives.verifyWord account.passwordHash word = .ok true ∧
      (h.state D).mainSecret? D owner word = some held ∧
      ∀ (t : Turn) (typed new : String), t.mishaps = {} → t.now.sinceEpoch?.isSome = true →
        Spells shown typed →
        t.call? D (h.state D) = some (.recoverPassword account.email typed new) →
        t.Restores D h owner account.email new held) ∧
    (D.primitives.ExactHashing ∨ D.primitives.Authentic → ∀ origin, ¬ h.Misread D owner origin) ∧
    ∀ account, (h.state D).ledger.accounts.get? owner = some account →
      ∀ (t : Turn) (typed key new : String), t.mishaps = {} →
        RecoveryKey.normalize typed = .ok key →
        t.call? D (h.state D) = some (.recoverPassword account.email typed new) →
        ((h.state D).enabled owner = false → t.RefusesKey D (h.state D)) ∧
        (D.primitives.ExactHashing →
          (∀ shown, h.lastKey D owner = some shown → RecoveryKey.normalize shown ≠ .ok key →
            t.RefusesKey D (h.state D)) ∧
          (h.All Turn.DrawsNewKey → ∀ shown, h.Showed D owner shown →
            h.lastKey D owner ≠ some shown → Spells shown typed → t.RefusesKey D (h.state D))) := by
  have hundisturbed : h.All fun _ t => t.Undisturbed :=
    hrun.imp fun _ _ ht => ⟨ht.alone, ht.current⟩
  have hshape : (h.state D).Shaped := shaped hD.hashing.hash_nonempty hundisturbed
  refine ⟨lastKey_of_enabled hD hrun, fun shown hlast => ?_, fun hideal _ => not_misread hideal,
    fun account haccount => ?_⟩
  · obtain ⟨u, row, origin, hu, rfl, hunlocks⟩ := unlocked hD hrun hlast
    -- The word that is accepted opens the main copy, which has the same enrollment.
    obtain ⟨account, same, haccount, hsame, hwrapped⟩ :=
      (coherent hD hrun owner).record row hunlocks.there hunlocks.on
    obtain rfl := Option.some.inj (hunlocks.lineage.symm.trans hsame)
    obtain ⟨word, copy, core, hword, hmain, hpreserves, hsealed⟩ := hwrapped.main
    obtain ⟨held, hopen, -, rfl⟩ := hsealed.opens hD.sealing
    refine ⟨account, word, held, haccount, hword, ?_, ?_⟩
    · rw [State.mainSecret?, hunlocks.there, Option.bind_some, hmain]
      exact congrArg Except.toOption hopen
    intro t typed new hcalm hnow hspells hcall
    obtain ⟨now, hnow⟩ := Option.isSome_iff_exists.1 hnow
    obtain ⟨hout, hrecovered, main, hnext, hkept⟩ := recovered_of_unlocks hD hshape hunlocks
      haccount hcalm hnow (RecoveryKey.normalize_of_shown hspells) hcall
    have ht : t.Undisturbed := ⟨.of_nil (by rw [hcalm]), by rw [hcalm]⟩
    have hshape' : (t.next D (h.state D)).Shaped :=
      shaped (h := h.turn t) hD.hashing.hash_nonempty ⟨hundisturbed, ht⟩
    refine ⟨hout, lastKey_of_returned ?_, ?_, ⟨main, origin, hnext, hunlocks.lineage,
      hkept.same hpreserves⟩, ?_⟩
    · have hfound := hshape.ledger.findByEmail?_of_get? haccount
      rw [Turn.returnsKey?_recover hcall hout hfound, if_pos rfl]
    · intro hnew hsame
      rw [hlast, Option.some.injEq] at hsame
      exact hnew.of_holds hu (RecoveryKey.eq_of_format hsame)
    · intro u hcalm hdatable hlogin
      refine login_answered hshape' hrecovered ?_ hcalm hdatable hlogin
      exact hD.hashing.verify_hash t.draws.passwordSalt new
  · intro t typed key new hcalm hnormal hcall
    have hrefuses (hwrong : ∀ row copies, (h.state D).ledger.records.get? owner = some row →
        row.active? = some copies →
        RecoveryKey.verify D.primitives key copies.fingerprint = .ok false) :
        t.RefusesKey D (h.state D) :=
      refusesKey_of_mistaken hshape haccount hwrong hcalm hnormal hcall
    refine ⟨fun hoff => hrefuses fun row copies hrow hactive => ?_, fun hexact => ⟨?_, ?_⟩⟩
    · have hon := State.enabled_of_row hrow (FactorRecord.active?_eq_some.1 hactive).1
      cases hon.symm.trans hoff
    · intro shown hlast hother
      obtain ⟨u, row, origin, -, rfl, hunlocks⟩ := unlocked hD hrun hlast
      have hne : u.recoveryKey ≠ key := by
        rintro rfl
        exact hother (RecoveryKey.normalize_of_shown (Respelled.refl _))
      exact hrefuses fun row copies => (barred_of_unlocks hunlocks hne).mistaken hexact
    · intro hnew shown hshowed hlast hspells
      obtain ⟨u, -, rfl, hb⟩ := barred hD hrun hnew hshowed hlast
      obtain rfl : u.recoveryKey = key := Except.ok.inj
        ((RecoveryKey.normalize_of_shown hspells).symm.trans hnormal)
      exact hrefuses fun row copies => hb.mistaken hexact

/-- A recovery key that is typed in. -/
def Turn.redeemingKey (step : UInt8) (typed : String) : Turn :=
  .posting step "/api/password/recover" none <|
    "\x7b\"email\":\"a@b.c\",\"recovery_key\":\"" ++ typed ++
      "\",\"new_password\":\"passw0rd\"\x7d"

/-- An enrollment whose recovery key was used. It was typed in lower case and in other groups. -/
def History.regained : History :=
  .turn .enrolling (.redeemingKey 5 "aqcaibae aqcaibae aqcaibae aqcaibae")

/-- The key that came of that recovery is good for the next one, and the first key is not. -/
theorem last_recovery_key_works_regained :
    (∃ held, (Turn.redeemingKey 6 "aucqkbif-aucqkbif-aucqkbif-aucqkbif").Restores .transparent
      .regained (.ofByte 1) "a@b.c" "passw0rd" held) ∧
    (Turn.redeemingKey 6 "AQCA-IBAE-AQCA-IBAE-AQCA-IBAE-AQCA-IBAE").RefusesKey .transparent
      (History.regained.state .transparent) := by
  have hlawful : Deployment.transparent.Lawful :=
    ⟨Primitives.transparent_sealing, Primitives.transparent_hashing, ⟨by decide, by decide⟩⟩
  have hrun : History.regained.All fun past t =>
      t.Orderly .transparent (past.state .transparent) :=
    ⟨⟨⟨⟨⟨trivial,
      ⟨.of_nil rfl, rfl, by decide, fun _ _ _ => by decide +kernel⟩⟩,
      ⟨.of_nil rfl, rfl, by decide, fun _ _ _ => by decide +kernel⟩⟩,
      ⟨.of_nil rfl, rfl, by decide, fun _ _ _ => by decide +kernel⟩⟩,
      ⟨.of_nil rfl, rfl, by decide, fun _ _ _ => by decide +kernel⟩⟩,
      ⟨.of_nil rfl, rfl, by decide, fun _ _ _ => by decide +kernel⟩⟩
  have hfacts : History.regained.lastKey .transparent (.ofByte 1) =
        some "AUCQ-KBIF-AUCQ-KBIF-AUCQ-KBIF-AUCQ-KBIF" ∧
      History.regained.Showed .transparent (.ofByte 1) "AQCA-IBAE-AQCA-IBAE-AQCA-IBAE-AQCA-IBAE" ∧
      History.regained.All Turn.DrawsNewKey ∧
      ((History.regained.state .transparent).ledger.accounts.get? (.ofByte 1)).map (·.email) =
        some "a@b.c" := by
    decide +kernel
  obtain ⟨hlast, hshowed, hnew, hemail⟩ := hfacts
  obtain ⟨-, hworks, -, hrefuses⟩ := last_recovery_key_works hlawful hrun (.ofByte 1)
  obtain ⟨account, -, held, haccount, -, -, hrestores⟩ := hworks _ hlast
  have hemail : account.email = "a@b.c" := by
    rw [haccount] at hemail
    exact Option.some.inj hemail
  rw [hemail] at hrestores
  -- The last key is typed in small letters and in other groups than it was shown in. The first one
  -- is typed as it was shown.
  refine ⟨⟨held, ?_⟩, ?_⟩
  · exact hrestores _ "aucqkbif-aucqkbif-aucqkbif-aucqkbif" "passw0rd" rfl (by decide)
      (by decide) (by decide +kernel)
  · obtain ⟨-, hexact⟩ := hrefuses account haccount
      (.redeemingKey 6 "AQCA-IBAE-AQCA-IBAE-AQCA-IBAE-AQCA-IBAE")
      "AQCA-IBAE-AQCA-IBAE-AQCA-IBAE-AQCA-IBAE" "AQCAIBAEAQCAIBAEAQCAIBAEAQCAIBAE" "passw0rd"
      rfl (by decide) (by rw [hemail]; decide +kernel)
    obtain ⟨-, hearlier⟩ := hexact Primitives.transparent_exact
    refine hearlier hnew _ hshowed ?_ (.refl _)
    rw [hlast]
    decide

end SecondFactor
