import SecondFactor.Proofs.History
import SecondFactor.Proofs.Otp.Bookkeeping
import SecondFactor.Proofs.Subjects

/-!
# Enrollments

An enrollment begins with a set-up, which makes the secret, and goes on as long as that secret is
pending or in the copies of the record that it was activated into. The state does not say to which
enrollment a secret belongs; the history does.

## The architecture

* **`Lineage`** — an enrollment, named by the set-up that it began with.
* **`History.pendingOrigin`** and **`History.recordOrigin`** — the enrollment of the pending secret
  and of the record of an account, and the lemmas by which they move on from turn to turn.
* **`SealedUnder`** — a copy that holds the secret of an enrollment, whatever its bookkeeping.
-/

namespace SecondFactor

open Service (Call Reply)

/-! ## §1 — where a secret comes from -/

/-- An enrollment: the turn of the set-up that it began with, the account, and the secret that was
made. -/
structure Lineage where
  turn : Nat
  owner : Uuid
  secret : Otp.Secret
  deriving DecidableEq

/-- Whether the turn sets up a second factor for an account. -/
def Turn.setsUp (D : Deployment) (t : Turn) (s : State) (owner : Uuid) : Bool :=
  match t.call? D s, t.outcome D s with
  | some (.setup session _), some (.ok _) => session.owner == owner
  | _, _ => false

namespace History

variable (D : Deployment)

/-- The enrollment of the pending secret of an account. A set-up begins one, and it lasts as long as
there is a pending secret. -/
def pendingOrigin : History → Uuid → Option Lineage
  | start _, _ => none
  | turn h t, owner =>
    ((turn h t).state D).staging.entries.get? owner |>.bind fun entry =>
      if t.setsUp D (h.state D) owner then some ⟨h.length, owner, entry.secret⟩
      else h.pendingOrigin owner

/-- The enrollment of the record of an account that is on. It is that of the pending secret when the
record is turned on, and stays as long as the record is on. -/
def recordOrigin : History → Uuid → Option Lineage
  | start _, _ => none
  | turn h t, owner =>
    if ((turn h t).state D).enabled owner then
      if (h.state D).enabled owner then h.recordOrigin owner else h.pendingOrigin D owner
    else none

end History

/-! ## §2 — from turn to turn -/

section Turns

variable {D : Deployment} {h : History} {t : Turn} {s : State} {owner : Uuid}

/-- Only a set-up for the account itself begins an enrollment of it. -/
theorem Turn.setsUp_eq_false {call : Call} (hcall : t.call? D s = some call)
    (hother : ∀ session password, call = .setup session password → session.owner ≠ owner) :
    t.setsUp D s owner = false := by
  unfold setsUp
  rw [hcall]
  split
  · rename_i session password reply heq _
    exact beq_eq_false_iff_ne.2 (hother session password (Option.some.inj heq))
  · rfl

/-- A set-up that is refused begins none. -/
theorem Turn.setsUp_of_error {failure : Failure}
    (hout : t.outcome D s = some (.error failure)) : t.setsUp D s owner = false := by
  unfold setsUp
  rw [hout]
  split
  · rename_i heq
    cases heq
  · rfl

theorem Turn.setsUp_of_none (hcall : t.call? D s = none) : t.setsUp D s owner = false := by
  unfold setsUp
  rw [hcall]

namespace History

/-- As long as nothing new is set up, what is pending belongs to the same enrollment, however often
its secret was put back. -/
theorem pendingOrigin_kept {entry : Pending}
    (hentry : ((h.turn t).state D).staging.entries.get? owner = some entry)
    (hset : t.setsUp D (h.state D) owner = false) :
    (h.turn t).pendingOrigin D owner = h.pendingOrigin D owner := by
  rw [pendingOrigin, hentry, Option.bind_some, hset]
  rfl

/-- What was just set up begins an enrollment, which carries the number of the turn. -/
theorem pendingOrigin_started {entry : Pending}
    (hentry : ((h.turn t).state D).staging.entries.get? owner = some entry)
    (hset : t.setsUp D (h.state D) owner = true) :
    (h.turn t).pendingOrigin D owner = some ⟨h.length, owner, entry.secret⟩ := by
  rw [pendingOrigin, hentry, Option.bind_some, hset]
  rfl

theorem recordOrigin_kept (hafter : ((h.turn t).state D).enabled owner = true)
    (hbefore : (h.state D).enabled owner = true) :
    (h.turn t).recordOrigin D owner = h.recordOrigin D owner := by
  rw [recordOrigin, if_pos hafter, if_pos hbefore]

theorem recordOrigin_started (hafter : ((h.turn t).state D).enabled owner = true)
    (hbefore : (h.state D).enabled owner = false) :
    (h.turn t).recordOrigin D owner = h.pendingOrigin D owner := by
  rw [recordOrigin, if_pos hafter, hbefore]
  rfl

end History

end Turns

/-! ## §3 — sealed copies

What an enrollment keeps is sealed over and over again, under one word or another, and with other
bookkeeping. The core of the secret stays. -/

/-- A copy holds a secret with the given core, sealed under the key of a word. -/
def SealedUnder (D : Deployment) (word : String) (core : Otp.Secret) (copy : Bytes) : Prop :=
  ∃ held nonce, copy = Otp.Secret.wrap D.primitives held (D.kdf.derive D.primitives word) nonce ∧
    held.Bounded ∧ held.core = core

namespace SealedUnder

variable {D : Deployment} {word : String} {core : Otp.Secret} {copy : Bytes}

/-- A copy opens under the word that it was sealed under, to a secret that can be stored and has the
core as said. -/
theorem opens (hP : D.primitives.SealingLaws) (h : SealedUnder D word core copy) :
    ∃ held, Otp.Secret.unwrap D.primitives copy (D.kdf.derive D.primitives word) = .ok held ∧
      held.Bounded ∧ held.core = core := by
  obtain ⟨held, nonce, rfl, hbounded, hcore⟩ := h
  exact ⟨held, Otp.Secret.unwrap_wrap hP hbounded, hbounded, hcore⟩

end SealedUnder

/-! ## §4 — widths

Clock readings lie in the calendar, and the numbers of a policy in the widths of the stored form. -/

namespace Instant

variable {now later : Instant} {seconds : Nat}

theorem seconds_of_sinceEpoch? (h : now.sinceEpoch? = some seconds) :
    seconds = now.unixSeconds.toNat := by
  unfold sinceEpoch? at h
  split at h
  · exact (Option.some.inj h).symm
  · cases h

theorem seconds_mono (h : now ≤ later) : now.unixSeconds.toNat ≤ later.unixSeconds.toNat := by
  have hle : now.nanoseconds ≤ later.nanoseconds := h
  have hdiv : now.unixSeconds ≤ later.unixSeconds := Int.ediv_le_ediv (by decide) hle
  omega

/-- The seconds of the calendar are stored numbers, so a check may write down its step. -/
theorem seconds_lt (h : now ≤ last) : now.unixSeconds.toNat < Otp.wordBound :=
  Nat.lt_of_le_of_lt (seconds_mono h) (by decide)

end Instant

/-- A policy whose numbers can be stored. -/
structure Otp.Policy.Storable (p : Otp.Policy) : Prop where
  step : p.step < wordBound
  skew : p.skew < UInt8.size

theorem Otp.Policy.Storable.bounded_newSecret {p : Otp.Policy} (h : p.Storable) (account : String)
    (entropy : Vector UInt8 20) : (p.newSecret account entropy).Bounded := by
  have hdigits : p.digits < wordBound := Nat.lt_of_le_of_lt p.digits_range.2 (by decide)
  have hpos : 0 < wordBound := by decide
  have hhalf : 0 < UInt32.size := by decide
  exact ⟨hdigits, h.step, h.skew, hpos, nofun, hpos, hhalf⟩

end SecondFactor
