import SecondFactor.Proofs.Coherence
import SecondFactor.Proofs.Results

/-!
# The copies open under what the user knows

Every call keeps what fits together fitting, for the account that it is about and for all others.
So after any run of requests that come one at a time the password that is accepted opens the main
copy, the recovery key that is accepted opens the backup copy, and both hold the secret that the
set-up made.

The laws that this takes for granted are few, and they do leave something open: a service whose
primitives keep them, and no more, loses an enrollment in four calls. The last section is that run.

## The architecture

* **`coherent_turn`** — every turn keeps the invariant, call by call.
* **`coherent`** — the run, by induction on the history.
* **`copies_open`** — what the invariant says about the copies and the pending secrets.
* **`Primitives.careless`**, **`enrollment_lost_careless`** — why `copies_open` names an event.
-/

namespace SecondFactor

open Service (Call Reply)

variable {D : Deployment} {h : History} {t : Turn}

/-! ## §1 — every call, and every run -/

/-- **The step.** Every turn keeps every account coherent. Only the account that the call is about
can be touched, and for that one each call has its lemma. -/
theorem coherent_turn (hD : D.Lawful) (ht : t.Orderly D (h.state D))
    (hc : ∀ owner, Coherent D h owner) (owner : Uuid) : Coherent D (h.turn t) owner := by
  rcases t.next_cases D (h.state D) with ⟨hnone, -, hnext⟩ | ⟨call, r, hcall, hout, hends⟩
  · refine (hc owner).kept ?_ (Turn.setsUp_of_none hnone)
    rw [hnext]
    exact .of_quiet (.refl _) ht.alone
  by_cases hsubject : call.subject? (t.occasion D) (h.state D).ledger = some owner
  rotate_left
  · -- Another account, or none.
    refine (hc owner).kept (untouched hends ht.alone hsubject) (Turn.setsUp_eq_false hcall ?_)
    rintro session password rfl howner
    exact hsubject (congrArg some howner)
  cases call with
  | register email password =>
    obtain ⟨q, hq, rfl⟩ := Op.ends_map.1 hends
    cases hsubject
    exact coherent_register ht (hc _) hcall hout hq
  | deleteAccount session password =>
    obtain ⟨q, hq, rfl⟩ := Op.ends_map.1 hends
    cases hsubject
    exact coherent_deleteAccount ht (hc _) hout hq
  | setup session password =>
    obtain ⟨q, hq, rfl⟩ := Op.ends_map.1 hends
    cases hsubject
    exact coherent_setup hD ht (hc _) hcall hout hq
  | activate session code =>
    obtain ⟨q, hq, rfl⟩ := Op.ends_map.1 hends
    cases hsubject
    exact coherent_activate hD ht (hc _) hcall hout hq
  | validate session password code =>
    obtain ⟨q, hq, rfl⟩ := Op.ends_map.1 hends
    cases hsubject
    exact coherent_validate hD ht (hc _) hcall hout hq
  | deactivate session password =>
    obtain ⟨q, hq, rfl⟩ := Op.ends_map.1 hends
    cases hsubject
    exact coherent_deactivate ht (hc _) hout hq
  | changePassword session current new =>
    obtain ⟨q, hq, rfl⟩ := Op.ends_map.1 hends
    cases hsubject
    exact coherent_changePassword hD ht (hc _) hcall hout hq
  | recoverPassword email recoveryKey new =>
    obtain ⟨q, hq, rfl⟩ := Op.ends_map.1 hends
    obtain ⟨⟨_, holder⟩, hby, rfl⟩ := Option.map_eq_some_iff.1 hsubject
    exact coherent_recoverPassword hD ht (hc _) hby hcall hout hq
  | logout session =>
    obtain ⟨q, hq, rfl⟩ := Op.ends_map.1 hends
    obtain ⟨-, hnext⟩ := Op.ends_changeSessions.1 hq
    refine (hc owner).kept ?_ (Turn.setsUp_eq_false hcall nofun)
    rw [hnext]
    exact ⟨rfl, rfl, fun _ => id⟩
  | overview session =>
    obtain ⟨q, hq, rfl⟩ := Op.ends_map.1 hends
    exact (hc owner).kept (.of_faded (Service.overview_ends hq) ht.alone)
      (Turn.setsUp_eq_false hcall nofun)
  | image session name =>
    obtain ⟨q, hq, rfl⟩ := Op.ends_map.1 hends
    exact (hc owner).kept (.of_faded (Service.pendingImage_ends hq) ht.alone)
      (Turn.setsUp_eq_false hcall nofun)
  | validateBackupCode session code =>
    obtain ⟨q, hq, rfl⟩ := Op.ends_map.1 hends
    have hset : t.setsUp D (h.state D) owner = false := Turn.setsUp_eq_false hcall nofun
    cases Service.validateBackupCode_outcome hq with
    | refused hquiet => exact (hc owner).kept (.of_quiet hquiet ht.alone) hset
    | done _ _ _ hl hb =>
      obtain ⟨haccounts, hrecords⟩ := Ledger.consumeCode?_eq hl
      exact (hc owner).kept (.of_becomes hb ht.alone (by rw [haccounts]) (by rw [hrecords])
        fun _ => id) hset
  | generateBackupCodes session password =>
    obtain ⟨q, hq, rfl⟩ := Op.ends_map.1 hends
    have hset : t.setsUp D (h.state D) owner = false := Turn.setsUp_eq_false hcall nofun
    cases Service.generateBackupCodes_outcome hq with
    | refused hquiet => exact (hc owner).kept (.of_quiet hquiet ht.alone) hset
    | done _ _ _ _ hb =>
      exact (hc owner).kept (.of_becomes hb ht.alone rfl rfl fun _ => id) hset
  | health | login _ _ | refresh _ | purge => cases hsubject

/-- **The run.** Every account is coherent. Induction on the history. -/
theorem coherent (hD : D.Lawful) (hrun : h.All fun past t => t.Orderly D (past.state D))
    (owner : Uuid) : Coherent D h owner := by
  induction h generalizing owner with
  | start gallery => exact ⟨nofun, nofun⟩
  | turn h t ih => exact coherent_turn hD hrun.2 (ih hrun.1) owner

/-! ## §2 — what the copies hold -/

/-- Somebody else's secret. -/
def Otp.Secret.foreign : Otp.Secret := Policy.usual.newSecret "d@e.f" (.replicate 20 7)

/-- Primitives that keep the laws and no more. Every word is accepted for every hash, and under
another key than its own an envelope decrypts to somebody else's secret. -/
def Primitives.careless : Primitives :=
  { transparent with
    decrypt? := fun key _ cipher =>
      if cipher.take key.length = key then some (cipher.drop key.length)
      else some Otp.Secret.foreign.bytes
    verifyWord := fun _ _ => .ok true }

/-- The service on them. -/
def Deployment.careless : Deployment := { transparent with primitives := .careless }

/-- All the laws that `copies_open` asks for hold of this service. -/
theorem Deployment.lawful_careless : careless.Lawful where
  sealing := by
    refine ⟨fun key nonce plain => ?_, Primitives.transparent_sealing.tagged⟩
    show (if (key.toList ++ plain).take key.toList.length = key.toList then
      some ((key.toList ++ plain).drop key.toList.length) else _) = some plain
    rw [List.take_left, List.drop_left, if_pos rfl]
  hashing := ⟨fun _ _ => rfl, Primitives.transparent_hashing.hash_nonempty⟩
  storable := ⟨by decide, by decide⟩

/-- What opens in an envelope is what was encrypted, or somebody else's secret. So it is known what
a copy opens to under every word at once. -/
theorem Otp.Secret.of_unwrap_careless {held found : Otp.Secret} (hbounded : held.Bounded)
    {key other : Key} {nonce : Nonce}
    (h : unwrap .careless (held.wrap .careless key nonce) other = .ok found) :
    found = held ∨ found = .foreign := by
  obtain ⟨htake, hdrop⟩ := parts_wrap .careless held key nonce
  obtain ⟨-, plain, hplain, hread⟩ := unwrap_eq_ok.1 h
  rw [htake, hdrop] at hplain
  have hlength : other.toList.length = key.toList.length := by
    rw [Vector.length_toList, Vector.length_toList]
  change (if (key.toList ++ held.bytes).take other.toList.length = other.toList then
    some ((key.toList ++ held.bytes).drop other.toList.length) else some foreign.bytes) =
      some plain at hplain
  rw [hlength, List.drop_left] at hplain
  split at hplain
  · obtain rfl := Option.some.inj hplain
    exact .inl (Except.ok.inj (hread.symm.trans (ofBytes_bytes hbounded)))
  · obtain rfl := Option.some.inj hplain
    exact .inr (Except.ok.inj (hread.symm.trans (ofBytes_bytes (by decide))))

/-- A second factor is turned on, and then used with a password that is accepted although it is not
the one that was chosen. -/
def History.misreading : History :=
  .turn (.turn (.turn (.turn (.start .missing)
    (.inStep 1 (.call (.register "a@b.c" "password"))))
    (.inStep 2 (.call (.setup ⟨.ofByte 1, .empty, .ofByte 0⟩ "password"))))
    (.inStep 3 (.call (.activate ⟨.ofByte 1, .empty, .ofByte 0⟩ "000003"))))
    (.inStep 4 (.call (.validate ⟨.ofByte 1, .on, .ofByte 3⟩ "passw0rd" "000004")))

/-- What that call seals, once it has looked at the code. -/
def Otp.Secret.strayed : Otp.Secret :=
  { foreign with counter := 1, usedSteps := [4], attemptStep := 4, attemptsInStep := 1 }

/-- **An enrollment that is lost** although the laws hold and requests come one at a time. The main
copy was misread and sealed again, so that no word opens it to the secret that was set up. -/
theorem enrollment_lost_careless :
    (History.misreading.All fun past t => t.Orderly .careless (past.state .careless)) ∧
    ∀ word held,
      (History.misreading.state .careless).mainSecret? .careless (.ofByte 1) word = some held →
      (History.misreading.recordOrigin .careless (.ofByte 1)).map (·.secret.core) ≠
        some held.core := by
  constructor
  · exact ⟨⟨⟨⟨trivial,
      ⟨.of_nil rfl, rfl, by decide, fun _ _ _ => by decide +kernel⟩⟩,
      ⟨.of_nil rfl, rfl, by decide, fun _ _ _ => by decide +kernel⟩⟩,
      ⟨.of_nil rfl, rfl, by decide, fun _ _ _ => by decide +kernel⟩⟩,
      ⟨.of_nil rfl, rfl, by decide, fun _ _ _ => by decide +kernel⟩⟩
  intro word held hmain
  have hcopy :
      ((History.misreading.state .careless).ledger.records.get? (.ofByte 1)).bind (·.main) =
      some (Otp.Secret.strayed.wrap .careless
        (Deployment.careless.kdf.derive .careless "passw0rd") (.replicate 12 4)) := by
    decide +kernel
  have horigin : (History.misreading.recordOrigin .careless (.ofByte 1)).map (·.secret.core) ≠
      some Otp.Secret.foreign.core := by
    decide +kernel
  rw [State.mainSecret?, hcopy, Option.bind_some] at hmain
  -- Whichever of the two it opens to, it has the core of the other secret.
  rcases Otp.Secret.of_unwrap_careless (by decide) (eq_ok_of_toOption hmain) with rfl | rfl
  · exact horigin
  · exact horigin

end SecondFactor
