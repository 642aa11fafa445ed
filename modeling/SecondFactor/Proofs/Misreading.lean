import SecondFactor.Proofs.Accounts
import SecondFactor.Proofs.Enrollments
import SecondFactor.Proofs.Marks
import SecondFactor.Proofs.RecoveryKey

/-!
# Copies that are misread

A copy is opened with a word that the hash beside it accepts. That is the word under which the copy
was sealed, as far as anybody will ever see; but the hash may accept another word as well, and then
the copy may open under the key of that word, to something that was never sealed. The call goes on
with what it read and seals it again, and from then on the copy belongs to no enrollment.

Hashes and ciphers of fixed lengths cannot exclude this, so what copies hold is stated with the
event named: it holds unless a copy was misread. This takes two words that one hash accepts and a
ciphertext that decrypts under the keys of both, to different texts, in the same turn. It does not
happen if decryption gives only what was encrypted, nor if a hash is accepted for one word only.

## The architecture

* **`Misreads`** — a copy that is misread under a word.
* **`Turn.OpensMain`**, **`Turn.OpensBackup`** — the calls that open a copy and seal again what they
  read; **`Turn.Misreads`** — one of them misreads a copy; **`History.Misread`** — one did.
* **`SealedUnder.opened`** — a copy that opens gives what was sealed, or is misread.
* **`History.Preserves`** — what the copies of an enrollment hold after a history.
* **`not_misread`** — it does not happen with authentic encryption or with exact hashing.
-/

namespace SecondFactor

/-! ## §1 — the event -/

/-- A copy opens under a word, and not to what was sealed in it. The word is accepted, and so is
another one, under which the copy was sealed. -/
def Misreads (D : Deployment) (accepts : String → Prop) (copy : Bytes) (word : String) : Prop :=
  ∃ (first : String) (held : Otp.Secret) (nonce : Nonce), accepts first ∧ accepts word ∧
    first ≠ word ∧ copy = held.wrap D.primitives (D.kdf.derive D.primitives first) nonce ∧
    D.primitives.Misread (D.kdf.derive D.primitives first) (D.kdf.derive D.primitives word) nonce
      held.bytes

namespace Turn

variable (D : Deployment) (t : Turn) (s : State) (owner : Uuid)

/-- The call of the turn opens the main copy of an account with a word, to seal again what it
reads. -/
def OpensMain (word : String) : Prop := ∃ session, session.owner = owner ∧
  ((∃ code, t.call? D s = some (.validate session word code)) ∨
    ∃ new, t.call? D s = some (.changePassword session word new))

/-- The call of the turn opens the backup copy of an account with a word, to seal again what it
reads. -/
def OpensBackup (word : String) : Prop := ∃ email typed new account,
  t.call? D s = some (.recoverPassword email typed new) ∧
    s.ledger.findByEmail? email = some (owner, account) ∧ RecoveryKey.normalize typed = .ok word

/-- The call of the turn misreads a copy of an account. -/
inductive Misreads : Prop where
  | main {word : String} {account : Account} {copy : Bytes} (hopens : t.OpensMain D s owner word)
      (haccount : s.ledger.accounts.get? owner = some account)
      (hcopy : (s.ledger.records.get? owner).bind (·.main) = some copy)
      (hmisreads : SecondFactor.Misreads D
        (fun word => D.primitives.verifyWord account.passwordHash word = .ok true) copy word)
  | backup {word fingerprint : String} {copy : Bytes} (hopens : t.OpensBackup D s owner word)
      (hfingerprint : (s.ledger.records.get? owner).bind (·.fingerprint) = some fingerprint)
      (hcopy : (s.ledger.records.get? owner).bind (·.backup) = some copy)
      (hmisreads : SecondFactor.Misreads D
        (fun word => RecoveryKey.verify D.primitives word fingerprint = .ok true) copy word)

end Turn

/-- A copy of an account was misread at some time in an enrollment. What happened to the copies of
an earlier enrollment does not count, since each starts with copies of its own. -/
def History.Misread (D : Deployment) (owner : Uuid) (origin : Lineage) (h : History) : Prop :=
  h.Any fun past t =>
    past.recordOrigin D owner = some origin ∧ t.Misreads D (past.state D) owner

/-- **A copy that opens** under a word that is accepted gives what was sealed, or is misread. What
it gives can be sealed again in any case. -/
theorem SealedUnder.opened {D : Deployment} (hP : D.primitives.SealingLaws)
    (accepts : String → Prop) {first word : String} {core found : Otp.Secret} {copy : Bytes}
    (h : SealedUnder D first core copy) (hfirst : accepts first) (hword : accepts word)
    (hopen : Otp.Secret.unwrap D.primitives copy (D.kdf.derive D.primitives word) = .ok found) :
    found.Bounded ∧ (found.core = core ∨ Misreads D accepts copy word) := by
  refine ⟨Otp.Secret.bounded_of_unwrap hopen, ?_⟩
  obtain ⟨held, nonce, rfl, hbounded, hcore⟩ := h
  by_cases hsame : found = held
  · exact .inl (hsame ▸ hcore)
  · have hmisread := Otp.Secret.misread_of_unwrap hbounded hopen hsame
    -- One word has one key, under which what was encrypted decrypts to itself.
    have hother : first ≠ word := by
      rintro rfl
      exact hmisread.ne hP rfl
    exact .inr ⟨first, held, nonce, hfirst, hword, hother, rfl, hmisread⟩

/-! ## §2 — what copies hold -/

/-- After a history, the copies of an enrollment hold a secret with this core: that of the secret
which the set-up made, unless a copy of the enrollment was misread. -/
def History.Preserves (D : Deployment) (owner : Uuid) (origin : Lineage) (h : History)
    (core : Otp.Secret) : Prop :=
  core = origin.secret.core ∨ h.Misread D owner origin

section Preserving

variable {D : Deployment} {h : History} {t : Turn} {owner : Uuid} {origin : Lineage}
  {core other : Otp.Secret}

theorem History.Preserves.turn (hc : h.Preserves D owner origin core) :
    (h.turn t).Preserves D owner origin core :=
  hc.imp_right .inl

theorem History.Preserves.same (hc : h.Preserves D owner origin core)
    (ho : h.Preserves D owner origin other) : core = other ∨ h.Misread D owner origin := by
  rcases hc with rfl | hmisread
  · exact ho.imp_left Eq.symm
  · exact .inr hmisread

end Preserving

/-! ## §3 — when no copy is misread -/

section Ideal

variable {D : Deployment} {h : History} {owner : Uuid} {origin : Lineage}

theorem not_misread_of_forall
    (hnone : ∀ (past : History) (t : Turn), ¬ t.Misreads D (past.state D) owner) :
    ¬ h.Misread D owner origin :=
  (History.all_of_forall hnone h).not_any fun _ _ hnot hmisread => hnot hmisread.2

/-- **If decryption gives only what was encrypted**, no copy is misread. This is what is promised of
an authenticated cipher, up to odds that nobody can beat. -/
theorem not_misread_of_authentic (hA : D.primitives.Authentic) :
    ¬ h.Misread D owner origin := by
  refine not_misread_of_forall fun past t hmisreads => ?_
  rcases hmisreads with ⟨-, -, -, ⟨_, _, _, -, -, -, -, hmisread⟩⟩ |
    ⟨-, -, -, ⟨_, _, _, -, -, -, -, hmisread⟩⟩
  · exact hA _ _ _ _ hmisread
  · exact hA _ _ _ _ hmisread

/-- A hash that accepts its own word only accepts no two words, so whoever is let in has the word
under which the copy was sealed. -/
theorem eq_of_accepted {P : Primitives} (hE : P.ExactHashing) {salt : Salt}
    {own first word : String} (hfirst : P.verifyWord (P.hashWord salt own) first = .ok true)
    (hword : P.verifyWord (P.hashWord salt own) word = .ok true) : first = word := by
  have hown : ∀ other, P.verifyWord (P.hashWord salt own) other = .ok true → own = other := by
    intro other hother
    by_contra hne
    cases (hE salt own other hne).symm.trans hother
  exact (hown first hfirst).symm.trans (hown word hword)

/-- **If a hash is accepted for its own word only**, no copy is misread. This says something about
the hashes and the fingerprints that are stored, because all of them were made by the service. -/
theorem not_misread_of_exact (hE : D.primitives.ExactHashing) :
    ¬ h.Misread D owner origin := by
  refine not_misread_of_forall fun past t hmisreads => ?_
  rcases hmisreads with ⟨-, haccount, -, ⟨first, _, _, hfirst, hword, hne, -⟩⟩ |
    ⟨-, hfingerprint, -, ⟨first, _, _, hfirst, hword, hne, -⟩⟩
  · obtain ⟨salt, own, hhash⟩ := hashed past _ (Table.mem_of_get? haccount)
    dsimp only at hhash
    rw [hhash] at hfirst hword
    exact hne (eq_of_accepted hE hfirst hword)
  · obtain ⟨salt, own, rfl⟩ := fingerprint_made hfingerprint
    rw [RecoveryKey.verify_eq_ok] at hfirst hword
    exact hne (eq_of_accepted hE hfirst hword)

/-- Either idealisation is enough: a misreading takes a second word and a cipher that opens to
something else under it. -/
theorem not_misread (hideal : D.primitives.ExactHashing ∨ D.primitives.Authentic) :
    ¬ h.Misread D owner origin :=
  hideal.elim not_misread_of_exact not_misread_of_authentic

end Ideal

end SecondFactor
