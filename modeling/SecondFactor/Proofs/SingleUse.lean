import SecondFactor.Proofs.CodeBooks

/-!
# Backup codes are used once

The books say which rows there are at any time. What that means for who shows, enters and counts
codes is told here call by call, and then as a whole.

## The architecture

* **`shown_of_renewal`**, **`code_of_spelling`** — a set that is shown, and a code of it typed in.
* **`left_of_accepted`**, **`accepted_of_left`** — the codes that are accepted are those that are
  left.
* **`count_of_overview`** — how many are counted; **`codeSet_of_resets`** — when the set is gone.
* **`backup_codes_single_use`** — all of it, for every run.
-/

namespace SecondFactor

open Service (Call Reply)

/-! ## §1 — codes that are shown, entered and counted -/

section Runs

variable {D : Deployment} {h : History} {t : Turn} {owner : Uuid} {code : String}

/-- The codes of an answered replacement are shown, and they are the new set. Nothing else ever
shows them. -/
theorem shown_of_renewal {session : Session} {password : String} {reply : Reply}
    (hcall : t.call? D (h.state D) = some (.generateBackupCodes session password))
    (howner : session.owner = owner) (hout : t.outcome D (h.state D) = some (.ok reply)) :
    ∃ shown, reply = .codes shown ∧ shown.length = BackupCode.count ∧
      ((h.turn t).codeSet D owner).map BackupCode.display? = shown.map some ∧
      (h.turn t).spentCodes D owner = [] := by
  obtain ⟨hset, hspent⟩ := History.codeSet_renewed (Turn.renewsCodes_eq_true hcall hout howner)
  obtain ⟨r, hresult, hends⟩ := t.ends_of_call hcall
  obtain ⟨q, hq, rfl⟩ := Op.ends_map.1 hends
  rw [hout, Option.some.injEq] at hresult
  obtain ⟨shown, rfl, rfl⟩ := map_eq_ok.1 hresult.symm
  rcases Service.generateBackupCodes_ends hq with ⟨_, hfail, -⟩ | ⟨-, _, _, -, -, -, -, hshow⟩
  · cases hfail
  obtain ⟨other, hother, hdisplay⟩ := t.draws.codes.displayed
  obtain rfl := Except.ok.inj (hshow other hother)
  refine ⟨shown, rfl, ?_, ?_, hspent⟩
  · have hlength := congrArg List.length hdisplay
    rw [List.length_map, List.length_map] at hlength
    exact hlength.symm.trans t.draws.codes.length_codes
  · rw [hset]
    exact hdisplay

/-- The codes of a set were drawn. Induction on the history. -/
theorem History.draw_of_mem_codeSet (hcode : code ∈ h.codeSet D owner) :
    ∃ d : BackupCode.Draw, code = d.text := by
  induction h with
  | start gallery => cases hcode
  | turn h t ih =>
    rw [History.codeSet] at hcode
    split at hcode
    · exact BackupCode.Stream.draw_of_mem hcode
    · split at hcode
      · exact ih hcode
      · cases hcode

/-- A code of the set that is entered, in whatever spelling, is that code. -/
theorem code_of_spelling {typed shown : String} (hcode : code ∈ h.codeSet D owner)
    (hshown : BackupCode.display? code = some shown) (htyped : Spells shown typed) :
    BackupCode.normalize typed = .ok code := by
  obtain ⟨d, rfl⟩ := History.draw_of_mem_codeSet hcode
  exact BackupCode.normalize_of_shown hshown htyped

/-- **A code that is accepted is one that is left**, and its row is all that goes. The count is over
the whole ledger, so that no code of anybody else goes with it. -/
theorem left_of_accepted (hb : Booked D owner h) (ht : t.Undisturbed)
    (hhash : (h.turn t).Collisionless D owner) {session : Session} {typed : String}
    (hcall : t.call? D (h.state D) = some (.validateBackupCode session typed))
    (howner : session.owner = owner) (hpassed : t.refused D (h.state D) = false) :
    ∃ code, BackupCode.normalize typed = .ok code ∧ code ∈ h.codesLeft D owner ∧
      (h.turn t).codeSet D owner = h.codeSet D owner ∧
      (h.turn t).spentCodes D owner = code :: h.spentCodes D owner ∧
      (h.state D).ledger.codes.count (codeRow D owner code) = 1 ∧
      ∀ row, (t.next D (h.state D)).ledger.codes.count row =
        if row = codeRow D owner code then 0 else (h.state D).ledger.codes.count row := by
  obtain ⟨code, hcode⟩ : ∃ code, BackupCode.normalize typed = .ok code := by
    rcases verdict_of_validateBackupCode hcall with
      ⟨hrefused, -⟩ | ⟨-, -, _, code, -, hcode, -⟩
    · cases hpassed.symm.trans hrefused
    · exact ⟨code, hcode⟩
  have hspends : t.spends? D (h.state D) owner = some code := by
    rw [Turn.spends?, hpassed, Turn.entered?_eq hcall howner, hcode]
    rfl
  -- Of the four courses only one spends a code; the others contradict that this was accepted.
  have hcourse : t.CodeCourse D (h.state D) owner := codeCourse ht.current
  cases hcourse with
  | kept _ hnone _ | dropped _ hnone _ _ => cases hnone.symm.trans hspends
  | renewed hrenews _ =>
    have hnot : t.renewsCodes D (h.state D) owner = false :=
      Turn.renewsCodes_eq_false hcall fun _ _ hsame => by cases hsame
    cases hnot.symm.trans hrenews
  | @spent found hrenews hfound hon hrow hcodes =>
    obtain rfl := Option.some.inj (hfound.symm.trans hspends)
    obtain ⟨hleft, -⟩ := hb.spent hhash hrenews hspends hon hrow hcodes
    obtain ⟨hset, hspent⟩ := History.codeSet_kept hrenews hon
    rw [hspends] at hspent
    -- There is one row of the code, since the rows of the account are different and the row names
    -- the account.
    have hone : (h.state D).ledger.codes.count (codeRow D owner found) = 1 := by
      rw [← List.count_filter (p := fun row => decide (row.1 = owner)) (decide_eq_true rfl)]
      exact List.count_eq_one_of_mem (hb.nodup_rows hhash.before)
        (List.mem_filter.2 ⟨hrow, decide_eq_true rfl⟩)
    refine ⟨found, hcode, hleft, hset, hspent, hone, fun row => ?_⟩
    rw [hcodes]
    split
    · rename_i heq
      rw [heq, List.count_erase_self, hone]
    · rename_i hother
      exact List.count_erase_of_ne hother

/-- **A code that is left is accepted**, when no mishap lies ahead. The call is answered as well, if
the tokens can be dated. -/
theorem accepted_of_left (hb : Booked D owner h) (hshape : (h.state D).Shaped)
    (hcalm : t.mishaps = {}) {session : Session} {typed : String}
    (hcall : t.call? D (h.state D) = some (.validateBackupCode session typed))
    (howner : session.owner = owner) (hclaim : session.claim = .on)
    (hcode : BackupCode.normalize typed = .ok code) (hleft : code ∈ h.codesLeft D owner) :
    t.refused D (h.state D) = false ∧ (t.Datable D → t.answers D (h.state D)) := by
  subst howner
  have hrow := hb.row_of_left hleft
  have hon := hshape.ledger.codes _ hrow
  -- A code lies beside a record that is on, which is whole and belongs to an account that is there.
  -- So the call finds all that it looks for.
  obtain ⟨row, hrecord, henabled⟩ := Ledger.of_any hon
  obtain ⟨copies, hcopies⟩ := (hshape.ledger.whole _ row hrecord).active henabled
  have hactive : ((t.facing (h.state D)).ledger.records.get? session.owner).bind
      FactorRecord.active? = some copies := by
    rw [show (t.facing (h.state D)).ledger = (h.state D).ledger from rfl,
      show session.owner = (codeRow D session.owner code).1 from rfl, hrecord]
    exact hcopies
  obtain ⟨account, haccount⟩ := Option.isSome_iff_exists.1 (hshape.ledger.known hon)
  obtain ⟨l, hl⟩ : ∃ l, (h.state D).ledger.consumeCode? session.owner
      (BackupCode.hash D.primitives D.kdf session.owner code) = some l :=
    ⟨_, if_pos hrow⟩
  obtain ⟨r, hout, hends⟩ := t.ends_of_call hcall
  obtain ⟨q, hq, rfl⟩ := Op.ends_map.1 hends
  have hs : (t.facing (h.state D)).Calm := hcalm
  have hreissue := (Service.validateBackupCode_calm (o := t.occasion D) hs hclaim haccount hactive
    hcode hl).1 hq
  have hresult := (Op.ends_onSessions.1 hreissue).1
  cases q with
  | ok tokens => exact ⟨Turn.refused_of_ok hout, fun _ => ⟨_, hout⟩⟩
  -- All that can still go wrong is the tokens, if the clock runs out of the calendar.
  | error failure =>
    obtain rfl := Session.crash_of_issue hresult.symm
    refine ⟨Bool.eq_false_iff.2 fun h => (Turn.refused_of_error hout).1 h rfl, fun hdatable => ?_⟩
    obtain ⟨tokens, hissued⟩ := Session.issue_of_datable hdatable.1 hdatable.2
    cases hissued.symm.trans hresult.symm

/-- An overview counts the codes of a record that is on. -/
theorem Service.codesLeft_of_overview {o : Occasion} {session : Session} {s s' : State}
    {v : Service.Overview} (hends : (Service.overview o session).Ends s (.ok v) s') :
    v.codesLeft = if (s.shown session.owner).any (·.enabled) then
      s.ledger.countCodes session.owner else 0 := by
  rcases Op.ends_bind_of hends Database.record_ends with ⟨shown, u, hu, rfl, h1⟩ | ⟨⟨_, h⟩, -⟩
  rotate_left
  · cases h
  split at h1
  · rename_i hon
    rw [if_pos hon]
    rcases Op.ends_bind_of h1 Database.countCodes_ends with ⟨n, _, -, rfl, h2⟩ | ⟨⟨_, h⟩, -⟩
    · obtain ⟨h, -⟩ := Op.ends_pure.1 h2
      cases h
      rw [hu.ledger]
    · cases h
  · -- For a record that is off nothing is counted, whatever is pending.
    rename_i hoff
    rw [if_neg hoff]
    rcases Op.ends_bind.1 h1 with ⟨found, _, -, h2⟩ | ⟨_, -, h⟩
    · split at h2
      · obtain ⟨h, -⟩ := Op.ends_pure.1 h2
        cases h
        rfl
      · obtain ⟨h, -⟩ := Op.ends_pure.1 h2
        cases h
        rfl
    · cases h

/-- **What an overview counts is what is left.** The rows are those of the codes that are left, one
for each. -/
theorem count_of_overview (hb : Booked D owner h) (hshape : (h.state D).Shaped)
    (ht : t.Undisturbed) {session : Session} {v : Service.Overview}
    (hcall : t.call? D (h.state D) = some (.overview session)) (howner : session.owner = owner)
    (hout : t.outcome D (h.state D) = some (.ok (.overview v))) :
    v.codesLeft + (h.spentCodes D owner).length = (h.codeSet D owner).length := by
  subst howner
  obtain ⟨r, hresult, hends⟩ := t.ends_of_call hcall
  obtain ⟨q, hq, rfl⟩ := Op.ends_map.1 hends
  rw [hout, Option.some.injEq] at hresult
  obtain ⟨found, rfl, heq⟩ := map_eq_ok.1 hresult.symm
  cases heq
  have hcount : v.codesLeft = (h.codesLeft D session.owner).length := by
    rw [Service.codesLeft_of_overview hq, State.shown_of_current ht.current]
    split
    · show (h.state D).ledger.countCodes session.owner = _
      rw [← Ledger.length_codesOf, hb.rows, List.length_map]
    · rename_i hoff
      have hnone := hshape.ledger.codesOf_eq_nil (Bool.eq_false_iff.2 hoff)
      rw [hb.rows, List.map_eq_nil_iff] at hnone
      rw [hnone]
      rfl
  -- What was used is the rest of the set.
  have hused : ((h.codeSet D session.owner).filter fun code =>
      code ∈ h.spentCodes D session.owner).Perm (h.spentCodes D session.owner) := by
    rw [List.perm_ext_iff_of_nodup (hb.different.filter _) hb.once]
    intro code
    rw [List.mem_filter, decide_eq_true_iff]
    exact ⟨And.right, fun hspent => ⟨hb.ours code hspent, hspent⟩⟩
  have htotal := List.length_eq_length_filter_add (l := h.codeSet D session.owner) fun code =>
    decide (code ∈ h.spentCodes D session.owner)
  have hleft : h.codesLeft D session.owner = (h.codeSet D session.owner).filter fun code =>
      !decide (code ∈ h.spentCodes D session.owner) := by
    simp only [History.codesLeft, decide_not]
  rw [hused.length_eq, ← hleft] at htotal
  rw [hcount, htotal, Nat.add_comm]

/-- The second factor of an account is turned off, or on. -/
def Turn.Resets (D : Deployment) (t : Turn) (s : State) (owner : Uuid) : Prop :=
  ∃ session : Session, session.owner = owner ∧ t.answers D s ∧
    ((∃ password, t.call? D s = some (.deactivate session password)) ∨
      ∃ code, t.call? D s = some (.activate session code))

/-- Turning the second factor off leaves no set of codes, and neither does turning it on. An earlier
set can therefore not come back. -/
theorem codeSet_of_resets (hresets : t.Resets D (h.state D) owner) :
    (h.turn t).codeSet D owner = [] := by
  obtain ⟨session, rfl, ⟨reply, hout⟩, ⟨password, hcall⟩ | ⟨code, hcall⟩⟩ := hresets
  · refine (History.codeSet_dropped (Turn.renewsCodes_eq_false hcall nofun) ?_).1
    obtain ⟨r, hresult, hends⟩ := t.ends_of_call hcall
    obtain ⟨q, hq, rfl⟩ := Op.ends_map.1 hends
    have hoff : (t.next D (h.state D)).ledger.enabled session.owner = false := by
      cases Service.deactivate_outcome hq with
      | refused _ => cases hout.symm.trans hresult
      | done _ _ _ _ hb => rw [hb.ledger_eq, Ledger.enabled_disable, if_pos rfl]
    -- It is off behind a deactivation.
    exact Bool.and_eq_false_iff.2 (.inr hoff)
  · refine (History.codeSet_dropped (Turn.renewsCodes_eq_false hcall nofun) ?_).1
    obtain ⟨r, hresult, hends⟩ := t.ends_of_call hcall
    obtain ⟨q, hq, rfl⟩ := Op.ends_map.1 hends
    have hoff : (h.state D).enabled session.owner = false := by
      cases Service.activate_outcome hq with
      | refused _ _ | mistaken _ _ _ | unwritten _ _ _ | late _ _ _ =>
        cases hout.symm.trans hresult
      | done _ _ hl _ => exact (Ledger.enable?_eq hl).1
    -- And it was off before an activation.
    exact Bool.and_eq_false_iff.2 (.inl hoff)

/-- A set lasts no longer than the record is on. -/
theorem enabled_of_mem_codeSet (hb : Booked D owner h) (hshape : (h.state D).Shaped)
    (hcode : code ∈ h.codeSet D owner) : (h.state D).enabled owner = true := by
  cases h with
  | start gallery => cases hcode
  | turn h t =>
    cases hrenews : t.renewsCodes D (h.state D) owner with
    | true =>
      -- All of a new set is left.
      have hspent := (History.codeSet_renewed hrenews).2
      have hleft : code ∈ (h.turn t).codesLeft D owner := by
        refine History.mem_codesLeft.2 ⟨hcode, ?_⟩
        rw [hspent]
        exact List.not_mem_nil
      exact hshape.ledger.codes _ (hb.row_of_left hleft)
    | false =>
      cases hon : t.staysOn D (h.state D) owner with
      | true => exact (Bool.and_eq_true_iff.1 hon).2
      | false =>
        rw [(History.codeSet_dropped hrenews hon).1] at hcode
        cases hcode

end Runs

/-! ## §2 — used once, and replaced as a set -/

/-- **Backup codes are used once and replaced as a set.** In every run in which requests come one at
a time, whatever fails in the queries:

* a replacement that is answered shows ten codes, and they are the set of the account from then on,
  none of them used;
* every spelling of a shown code gives the code;
* a verification that is not refused was by a code of the set that was not used before; the code is
  used from then on, and of all rows of the ledger its one row goes;
* a code of the set that was not used is accepted when nothing fails, and the call is answered if
  the tokens can be dated;
* an overview counts the codes that were not used;
* the codes of a set are ten and different;
* when the second factor is turned off or on, or the account is gone, so is the set. -/
theorem backup_codes_single_use {D : Deployment}
    (hword : ∀ salt word, D.primitives.hashWord salt word ≠ "") {h : History} {t : Turn}
    {owner : Uuid} (hrun : h.All fun _ t => t.Undisturbed) (ht : t.Undisturbed)
    (hhash : (h.turn t).Collisionless D owner) :
    (∀ session password reply,
      t.call? D (h.state D) = some (.generateBackupCodes session password) →
      session.owner = owner → t.outcome D (h.state D) = some (.ok reply) →
      ∃ shown, reply = .codes shown ∧ shown.length = 10 ∧
        ((h.turn t).codeSet D owner).map BackupCode.display? = shown.map some ∧
        (h.turn t).spentCodes D owner = []) ∧
    (∀ code shown typed, code ∈ h.codeSet D owner → BackupCode.display? code = some shown →
      Spells shown typed → BackupCode.normalize typed = .ok code) ∧
    (∀ session typed, t.call? D (h.state D) = some (.validateBackupCode session typed) →
      session.owner = owner → t.refused D (h.state D) = false →
      ∃ code, BackupCode.normalize typed = .ok code ∧
        code ∈ h.codeSet D owner ∧ code ∉ h.spentCodes D owner ∧
        (h.turn t).codeSet D owner = h.codeSet D owner ∧
        (h.turn t).spentCodes D owner = code :: h.spentCodes D owner ∧
        (h.state D).ledger.codes.count (codeRow D owner code) = 1 ∧
        ∀ row, (t.next D (h.state D)).ledger.codes.count row =
          if row = codeRow D owner code then 0 else (h.state D).ledger.codes.count row) ∧
    (∀ session typed code, t.call? D (h.state D) = some (.validateBackupCode session typed) →
      session.owner = owner → session.claim = .on → t.mishaps = {} →
      BackupCode.normalize typed = .ok code →
      code ∈ h.codeSet D owner → code ∉ h.spentCodes D owner →
      t.refused D (h.state D) = false ∧ (t.Datable D → t.answers D (h.state D))) ∧
    (∀ session v, t.call? D (h.state D) = some (.overview session) → session.owner = owner →
      t.outcome D (h.state D) = some (.ok (.overview v)) →
      v.codesLeft + (h.spentCodes D owner).length = (h.codeSet D owner).length) ∧
    ((h.codeSet D owner = [] ∨ (h.codeSet D owner).length = 10) ∧ (h.codeSet D owner).Nodup) ∧
    (t.Resets D (h.state D) owner ∨ ¬ ((h.turn t).state D).ledger.Known owner →
      (h.turn t).codeSet D owner = []) := by
  have hb := booked hword hrun hhash.before
  have hshape := shaped hword hrun
  refine ⟨?_, ?_, ?_, ?_, ?_, ⟨hb.ten, hb.different⟩, ?_⟩
  · intro session password reply hcall howner hout
    exact shown_of_renewal hcall howner hout
  · intro code shown typed hcode hshown htyped
    exact code_of_spelling hcode hshown htyped
  · intro session typed hcall howner hpassed
    obtain ⟨code, hcode, hleft, hrest⟩ := left_of_accepted hb ht hhash hcall howner hpassed
    obtain ⟨hin, hnew⟩ := History.mem_codesLeft.1 hleft
    exact ⟨code, hcode, hin, hnew, hrest⟩
  · intro session typed code hcall howner hclaim hcalm hcode hin hnew
    exact accepted_of_left hb hshape hcalm hcall howner hclaim hcode
      (History.mem_codesLeft.2 ⟨hin, hnew⟩)
  · intro session v hcall howner hout
    exact count_of_overview hb hshape ht hcall howner hout
  · rintro (hresets | hgone)
    · exact codeSet_of_resets hresets
    · refine List.eq_nil_iff_forall_not_mem.2 fun code hcode => ?_
      -- An account that is gone has no record that is on, and so no set.
      have hrun' : (h.turn t).All fun _ t => t.Undisturbed := ⟨hrun, ht⟩
      have hshape' := shaped hword hrun'
      exact hgone (hshape'.ledger.known
        (enabled_of_mem_codeSet (booked hword hrun' hhash) hshape' hcode))

/-! A run in which an account gets a set of codes and uses the first. Then the second is entered. -/

/-- Primitives that hide nothing, under which texts with different ends have different digests. -/
def Primitives.trailing : Primitives :=
  { Primitives.transparent with
    digest := fun b => Vector.ofFn fun i => b.reverse.getD i.val 0 }

/-- A service on them. -/
def Deployment.trailing : Deployment := { Deployment.transparent with primitives := .trailing }

/-- The run. -/
def History.spending : History :=
  .turn (.turn (.turn (.turn .enrolling
    (.posting 5 "/api/2fa/backup-codes" (some 4) "\x7b\"password\":\"password\"\x7d"))
    (.posting 6 "/api/login" none "\x7b\"email\":\"a@b.c\",\"password\":\"password\"\x7d"))
    (.posting 7 "/api/2fa/validate-backup-code" (some 6) "\x7b\"code\":\"aaaa-aaaa\"\x7d"))
    (.posting 8 "/api/login" none "\x7b\"email\":\"a@b.c\",\"password\":\"password\"\x7d")

/-- The code that is entered after it. -/
def Turn.spending : Turn :=
  .posting 9 "/api/2fa/validate-backup-code" (some 8) "\x7b\"code\":\" bb-bb BBbb\"\x7d"

/-- The first code is on the books as used. The second is typed in small letters with blanks and a
dash, is accepted, and leaves no row. -/
theorem backup_codes_single_use_spending :
    History.spending.spentCodes .trailing (.ofByte 1) = ["AAAAAAAA"] ∧
    BackupCode.normalize " bb-bb BBbb" = .ok "BBBBBBBB" ∧
    Turn.spending.answers .trailing (History.spending.state .trailing) ∧
    (History.spending.turn .spending).spentCodes .trailing (.ofByte 1) = ["BBBBBBBB", "AAAAAAAA"] ∧
    (Turn.spending.next .trailing (History.spending.state .trailing)).ledger.codes.count
      (codeRow .trailing (.ofByte 1) "BBBBBBBB") = 0 := by
  have hposting (step : UInt8) (path : String) (login : Option UInt8) (form : String) :
      (Turn.posting step path login form).Undisturbed := ⟨.of_nil rfl, rfl⟩
  have hrun : History.spending.All fun _ t => t.Undisturbed :=
    ⟨⟨⟨⟨⟨⟨⟨⟨trivial, hposting _ _ _ _⟩, hposting _ _ _ _⟩, hposting _ _ _ _⟩, hposting _ _ _ _⟩,
      hposting _ _ _ _⟩, hposting _ _ _ _⟩, hposting _ _ _ _⟩, hposting _ _ _ _⟩
  have hfacts : (History.spending.turn .spending).codeTexts .trailing (.ofByte 1) =
        "BBBBBBBB" :: "AAAAAAAA" :: BackupCode.Stream.ascending.codes ∧
      Turn.spending.call? .trailing (History.spending.state .trailing) =
        some (.validateBackupCode ⟨.ofByte 1, .on, .ofByte 8⟩ " bb-bb BBbb") ∧
      "BBBBBBBB" ∈ History.spending.codeSet .trailing (.ofByte 1) ∧
      History.spending.spentCodes .trailing (.ofByte 1) = ["AAAAAAAA"] := by
    decide +kernel
  obtain ⟨htexts, hcall, hin, hspent⟩ := hfacts
  -- The twelve texts of the run are looked at two by two.
  have hhash : (History.spending.turn .spending).Collisionless .trailing (.ofByte 1) := by
    unfold History.Collisionless
    rw [htexts]
    decide +kernel
  have hcode : BackupCode.normalize " bb-bb BBbb" = .ok "BBBBBBBB" := by decide +kernel
  have hnew : "BBBBBBBB" ∉ History.spending.spentCodes .trailing (.ofByte 1) := by
    rw [hspent]
    decide
  obtain ⟨-, -, haccepted, hfirst, -⟩ := backup_codes_single_use (D := .trailing)
    (t := .spending) Primitives.transparent_hashing.hash_nonempty hrun (hposting _ _ _ _) hhash
  obtain ⟨hpassed, hanswers⟩ := hfirst _ _ _ hcall rfl rfl rfl hcode hin hnew
  obtain ⟨code, hother, -, -, -, hspent', -, hrows⟩ := haccepted _ _ hcall rfl hpassed
  obtain rfl := Except.ok.inj (hcode.symm.trans hother)
  refine ⟨hspent, hcode, hanswers ⟨rfl, rfl⟩, ?_, ?_⟩
  · rw [hspent', hspent]
  · rw [hrows, if_pos rfl]

end SecondFactor
