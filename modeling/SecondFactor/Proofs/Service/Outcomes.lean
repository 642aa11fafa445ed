import SecondFactor.Proofs.Service.FactorOutcomes

/-!
# How the calls of the service end

The operations that look on, and the purge, change nothing but what has expired. With the ones on
accounts and on the second factor, every call is covered: a statement about the service is proved by
going through the ways in which its operations end, and none of them has to go through the text of
an operation again.

## The architecture

* **`overview_ends`**, **`pendingImage_ends`**, **`health_ends`** — looking on.
* **`purge_ends`** — the purge.
-/

namespace SecondFactor

namespace Service

open Op

variable {o : Occasion} {s s' : State} {session : Session}

/-! ## Looking on, and upkeep -/

/-- An overview looks, and may at most let an expired entry go. -/
theorem overview_ends {r : Except Failure Overview} (h : (overview o session).Ends s r s') :
    Faded s s' := by
  rcases ends_bind_of h Database.record_ends with ⟨shown, t, ht, -, h1⟩ | ⟨-, ht⟩
  rotate_left
  · exact ht.faded
  -- With a record that is on, codes are counted; otherwise the pending secret is looked at.
  split at h1
  · rcases ends_bind_of h1 Database.countCodes_ends with ⟨n, u, hu, -, h2⟩ | ⟨-, hu⟩
    · obtain ⟨-, rfl⟩ := ends_pure.1 h2
      exact (ht.trans hu.toQuiet).faded
    · exact (ht.trans hu.toQuiet).faded
  · rcases ends_bind.1 h1 with ⟨found, u, hlook, h2⟩ | ⟨failure, hlook, -⟩
    · have hu := (lookAtPending_ends hlook).1.after ht
      split at h2
      · obtain ⟨-, rfl⟩ := ends_pure.1 h2
        exact hu
      · obtain ⟨-, rfl⟩ := ends_pure.1 h2
        exact hu
    · exact (lookAtPending_ends hlook).1.after ht

/-- So does a request for an image. -/
theorem pendingImage_ends {name : String} {r : Except Failure Bytes}
    (h : (pendingImage o session name).Ends s r s') : Faded s s' := by
  rcases ends_bind_of h ends_require with ⟨image, _, rfl, -, h1⟩ | ⟨-, rfl⟩
  rotate_left
  · exact (Quiet.refl s).faded
  rcases ends_bind.1 h1 with ⟨entry, t, hlook, h2⟩ | ⟨failure, hlook, -⟩
  rotate_left
  · exact (lookAtPending_ends hlook).1
  have ht := (lookAtPending_ends hlook).1
  -- What is left to do only reads.
  rcases ends_bind_of h2 ends_ensure with ⟨_, _, rfl, -, h3⟩ | ⟨-, rfl⟩
  rotate_left
  · exact ht
  rcases ends_bind.1 h3 with ⟨_, _, hget, h4⟩ | ⟨failure, hget, -⟩
  rotate_left
  · cases (ends_get.1 hget).1
  obtain ⟨-, rfl⟩ := ends_get.1 hget
  rcases ends_bind_of h4 ends_demand with ⟨content, _, rfl, -, h5⟩ | ⟨-, rfl⟩
  · rw [← (ends_require h5).1]
    exact ht
  · exact ht

/-- Asking for the health of the service makes the folder of images, and changes no entry. -/
theorem health_ends {r : Except Failure Health} (h : health.Ends s r s') : Faded s s' := by
  obtain ⟨-, rfl⟩ := ends_onStaging.1 h
  exact ⟨rfl, rfl, fun _ _ _ he => he⟩

/-- A purge takes away and adds nothing, and leaves the ledger. -/
theorem purge_ends {r : Except Failure Unit} (h : (purge o).Ends s r s') :
    s'.ledger = s.ledger ∧ (∀ row ∈ s'.sessions, row ∈ s.sessions) ∧
      ∀ owner entry, s'.staging.entries.get? owner = some entry →
        s.staging.entries.get? owner = some entry := by
  have hkept : ∀ owner entry,
      (Staging.purge o.deployment.pendingLifetime o.now s.staging).2.entries.get? owner =
          some entry →
        s.staging.entries.get? owner = some entry :=
    fun _ _ => Staging.get?_of_purge
  rcases ends_bind.1 h with ⟨n, t, hpurge, h1⟩ | ⟨failure, hpurge, -⟩
  · obtain ⟨-, rfl⟩ := ends_onStaging.1 hpurge
    obtain ⟨-, rfl⟩ := ends_changeSessions.1 h1
    exact ⟨rfl, fun _ hrow => (List.mem_filter.1 hrow).1, hkept⟩
  · obtain ⟨-, rfl⟩ := ends_onStaging.1 hpurge
    exact ⟨rfl, fun _ => id, hkept⟩

end Service

end SecondFactor
