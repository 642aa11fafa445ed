import SecondFactor.Proofs.Http.Answers
import SecondFactor.Proofs.Veil

/-!
# What has expired is as good as gone

A pending secret or a token that has expired is not found any more, whether or not its row is still
there. So two states that differ at most in what has expired by the time of a turn answer it in the
same way, and differ at most in that afterwards. Only the health of the service tells how many rows
there are.

## The architecture

* **`Staging.hasExpired`**, **`Session.hasExpired`** — the rows that have expired by some time; what
  has expired stays so.
* **`SameAt`** — two states differ at most in what has expired; **`SameAt.at_later`** — then they do
  so at any later time.
* **`Turn.names`** — the names that are drawn for images in a turn.
* **`perform_same`** — any call but that for the health of the service ends in the same way.
* **`SameAt.turn`** — a turn is answered in the same way, apart from the number of pending secrets.
* **`Turn.tidy`** — a turn keeps tables with one row for each key, and images for one entry each.
-/

namespace SecondFactor

open Service (Call Reply)

/-! ## §1 — rows that have expired -/

/-- The row of an entry that has expired by some time. -/
def Staging.hasExpired (lifetime : Int) (now : Instant) (row : Uuid × Pending) : Bool :=
  isExpired? lifetime now row.2 = some true

/-- The entry of a token that has expired by some time. -/
def Session.hasExpired (now : Instant) (entry : Session.Entry) : Bool := entry.expires ≤ now

/-- What has expired stays so. All comparisons at one time can therefore be carried to a later
one. -/
theorem Staging.hasExpired_later {lifetime : Int} {now later : Instant} (hlater : now ≤ later)
    {row : Uuid × Pending} (h : hasExpired lifetime now row = true) :
    hasExpired lifetime later row = true := by
  unfold hasExpired isExpired? at h ⊢
  rw [decide_eq_true_iff] at h ⊢
  obtain ⟨expires, hexpires, hpast⟩ := Option.map_eq_some_iff.1 h
  rw [hexpires, Option.map_some]
  exact congrArg some (decide_eq_true (Int.le_trans (of_decide_eq_true hpast) hlater))

theorem Session.hasExpired_later {now later : Instant} (hlater : now ≤ later)
    {entry : Session.Entry} (h : hasExpired now entry = true) : hasExpired later entry = true :=
  decide_eq_true (Int.le_trans (of_decide_eq_true h) hlater)

/-- The veil over what has expired by some time. -/
def Veil.expired (D : Deployment) (now : Instant) : Veil where
  ledger := Eq
  pending := Staging.hasExpired D.pendingLifetime now
  token := Session.hasExpired now

/-- Two states differ at most in what has expired by some time. No image has one of the names. -/
structure SameAt (D : Deployment) (now : Instant) (names : List ImageRef) (s s' : State) :
    Prop where
  ledger : s.ledger = s'.ledger
  staging : Staging.Veiled (Staging.hasExpired D.pendingLifetime now) names s.staging s'.staging
  sessions : Session.Veiled (Session.hasExpired now) s.sessions s'.sessions

namespace SameAt

variable {D : Deployment} {now later : Instant} {names names' : List ImageRef} {s s' : State}

/-- States that differ in what had expired by some time differ in what has expired by a later
one. -/
theorem at_later (h : SameAt D now names s s') (hlater : now ≤ later) :
    SameAt D later names s s' where
  ledger := h.ledger
  staging :=
    ⟨Staging.drop_of_drop (fun _ => Staging.hasExpired_later hlater) h.staging.same,
      h.staging.left, h.staging.right⟩
  sessions := by
    refine ⟨?_, h.sessions.left, h.sessions.right⟩
    have hkeep : ∀ registry : Session.Registry,
        Session.unveiled (Session.hasExpired later) registry = Session.unveiled
          (Session.hasExpired later) (Session.unveiled (Session.hasExpired now) registry) := by
      intro registry
      unfold Session.unveiled Table.keep
      rw [List.filter_filter]
      refine List.filter_congr fun row _ => ?_
      dsimp only
      cases hnow : Session.hasExpired now row.2 with
      | true => rw [Session.hasExpired_later hlater hnow]; rfl
      | false => exact (Bool.and_true _).symm
    rw [hkeep, h.sessions.same, ← hkeep]

theorem fewer (h : SameAt D now names s s') (hfewer : names'.Subperm names) :
    SameAt D now names' s s' :=
  ⟨h.ledger, h.staging.fewer hfewer, h.sessions⟩

theorem refl (htidy : s.staging.Tidy names) (hkeyed : s.sessions.Keyed) :
    SameAt D now names s s :=
  ⟨rfl, ⟨rfl, htidy, htidy⟩, ⟨rfl, hkeyed, hkeyed⟩⟩

theorem symm (h : SameAt D now names s s') : SameAt D now names s' s :=
  ⟨h.ledger.symm, ⟨h.staging.same.symm, h.staging.right, h.staging.left⟩,
    ⟨h.sessions.same.symm, h.sessions.right, h.sessions.left⟩⟩

theorem trans {s'' : State} (h : SameAt D now names s s') (h' : SameAt D now names s' s'') :
    SameAt D now names s s'' :=
  ⟨h.ledger.trans h'.ledger, ⟨h.staging.same.trans h'.staging.same, h.staging.left,
    h'.staging.right⟩, ⟨h.sessions.same.trans h'.sessions.same, h.sessions.left,
    h'.sessions.right⟩⟩

/-- The same tokens are worth something. -/
theorem find? (h : SameAt D now names s s') (P : Primitives) (kind : Session.Kind)
    (token : String) :
    Session.find? P kind now token s.sessions = Session.find? P kind now token s'.sessions := by
  have hshown : ∀ {registry entry}, Session.find? P kind now token registry = some entry →
      Session.hasExpired now entry = false := by
    intro registry entry hfound
    have hlasts := (Option.filter_eq_some_iff.1 hfound).2
    rw [Bool.and_eq_true, Bool.not_eq_true'] at hlasts
    exact hlasts.2
  ext entry
  exact ⟨fun hfound => h.sessions.find? hfound (hshown hfound),
    fun hfound => h.symm.sessions.find? hfound (hshown hfound)⟩

end SameAt

/-! ## §2 — purges -/

namespace Staging

variable {lifetime : Int} {now : Instant} {s : Staging}

/-- Discarding the entries of several accounts one by one is to drop their rows at once. -/
theorem foldl_discard (hs : s.entries.Keyed) (owners : List Uuid) :
    owners.foldl discard s = s.drop fun row => owners.contains row.1 := by
  induction owners generalizing s with
  | nil => exact (drop_none fun _ _ => rfl).symm
  | cons owner owners ih =>
    rw [List.foldl_cons, discard_eq_drop hs, ih (hs.filter _), drop_drop]
    exact drop_congr fun row _ => by rw [List.contains_cons]

/-- Whether all entries can be looked at. -/
def countable (lifetime : Int) (now : Instant) (s : Staging) : Bool :=
  s.entries.all fun row => (isExpired? lifetime now row.2).isSome

/-- **A purge drops what has expired**, or breaks off and does nothing. It breaks off if there is an
entry whose age leads out of the calendar. -/
theorem purge_eq_drop (hs : s.entries.Keyed) (lifetime : Int) (now : Instant) :
    if s.countable lifetime now then
    ∃ n, s.purge lifetime now = (.ok n, s.drop (hasExpired lifetime now))
    else s.purge lifetime now = (.error .crash, s) := by
  unfold purge countable
  split
  · refine ⟨_, congrArg (Prod.mk _) ?_⟩
    rw [foldl_discard hs]
    refine drop_congr fun row hrow => ?_
    rw [Bool.eq_iff_iff, List.contains_iff_mem]
    unfold expiredOwners hasExpired
    constructor
    · intro howner
      obtain ⟨other, hother, hsame⟩ := List.mem_map.1 howner
      obtain ⟨hother, hexpired⟩ := List.mem_filter.1 hother
      -- The account has one row.
      have hrows := (hs.get?_iff.2 hother).symm.trans (hsame ▸ hs.get?_iff.2 hrow)
      rw [← Option.some.inj hrows]
      exact hexpired
    · exact fun hexpired => List.mem_map.2 ⟨row, List.mem_filter.2 ⟨hrow, hexpired⟩, rfl⟩
  · rfl

/-- A purge keeps the tables tidy, whether it ends or breaks off. -/
theorem Tidy.purge {names : List ImageRef} (h : s.Tidy names) (lifetime : Int) (now : Instant) :
    (s.purge lifetime now).2.Tidy names := by
  have hpurge := purge_eq_drop h.keys lifetime now
  split at hpurge
  · obtain ⟨n, hpurge⟩ := hpurge
    rw [hpurge]
    exact h.drop _
  · rwa [hpurge]

/-- What has expired can be looked at. -/
theorem countable_drop (lifetime : Int) (now : Instant) (s : Staging) :
    (s.drop (hasExpired lifetime now)).countable lifetime now = s.countable lifetime now := by
  rw [Bool.eq_iff_iff]
  unfold countable
  rw [List.all_eq_true, List.all_eq_true]
  refine ⟨fun h row hrow => ?_, fun h row hrow => h row (List.mem_filter.1 hrow).1⟩
  cases hexpired : hasExpired lifetime now row with
  | false => exact h row (List.mem_filter.2 ⟨hrow, by rw [hexpired]; rfl⟩)
  | true => rw [of_decide_eq_true hexpired]; rfl

/-- What has been dropped cannot be dropped again. A second purge at the same time finds nothing. -/
theorem drop_twice (p : Uuid × Pending → Bool) (s : Staging) : (s.drop p).drop p = s.drop p := by
  rw [drop_drop]
  exact drop_congr fun row _ => Bool.or_self _

end Staging

theorem Session.unveiled_twice (h : Session.Entry → Bool) (registry : Session.Registry) :
    Session.unveiled h (Session.unveiled h registry) = Session.unveiled h registry := by
  unfold Session.unveiled Table.keep
  rw [List.filter_filter]
  exact List.filter_congr fun row _ => Bool.and_self _

namespace SameAt

variable {D : Deployment} {now : Instant} {names : List ImageRef} {s s' : State}

/-- A purge of pending secrets makes no difference. -/
theorem purgePending (h : SameAt D now names s s') :
    SameAt D now names
      { s with staging := (s.staging.purge D.pendingLifetime now).2 } s' := by
  have hpurge := Staging.purge_eq_drop h.staging.left.keys D.pendingLifetime now
  refine ⟨h.ledger, ⟨?_, h.staging.left.purge _ _, h.staging.right⟩, h.sessions⟩
  split at hpurge
  · obtain ⟨n, hpurge⟩ := hpurge
    rw [hpurge, Staging.drop_twice, h.staging.same]
  · rw [hpurge, h.staging.same]

theorem purgeSessions (h : SameAt D now names s s') :
    SameAt D now names { s with sessions := Session.purge now s.sessions } s' :=
  ⟨h.ledger, h.staging, (Session.unveiled_twice _ _).trans h.sessions.same,
    h.sessions.left.filter _, h.sessions.right⟩

end SameAt

/-! ## §3 — one turn -/

section Calls

variable {o : Occasion} {ahead : List Arrival} {s t : State}

/-- What has expired can be dropped without a call noticing: the general laws of a veil hold of
it. -/
theorem expired_lawful (D : Deployment) (now : Instant) : (Veil.expired D now).likeness.Lawful :=
  Veil.lawful fun _ l l' h => ⟨by rw [h], h⟩

/-- A look at an entry finds out whether it has expired, and does not show it if it has. -/
theorem expired_knows (o : Occasion) (owner : Uuid) :
    (Veil.expired o.deployment o.now).likeness.Knows o owner :=
  Veil.knows (fun _ l l' h => by cases h; exact ⟨rfl, rfl⟩) (fun _ h => of_decide_eq_true h)
    fun _ _ => rfl

/-- A purge goes over the pending secrets first. If it breaks off there, the tokens stay. -/
theorem exec_purge (o : Occasion) (s : State) : (Service.purge o).exec s =
    match s.staging.purge o.deployment.pendingLifetime o.now with
    | (.ok _, staging) => (.ok (), { s with staging, sessions := Session.purge o.now s.sessions })
    | (.error failure, staging) => (.error failure, { s with staging }) := by
  have hfirst : (Op.onStaging (Staging.purge o.deployment.pendingLifetime o.now)).exec s =
      ((s.staging.purge o.deployment.pendingLifetime o.now).1,
        { s with staging := (s.staging.purge o.deployment.pendingLifetime o.now).2 }) := rfl
  unfold Service.purge
  rw [Op.exec_bind, hfirst]
  rcases s.staging.purge o.deployment.pendingLifetime o.now with ⟨_ | _, _⟩ <;> rfl

/-- Purging drops the same rows in both states, or breaks off in both. An operation that purges is
thus no exception among the calls. -/
theorem parallel_purge (h : (Veil.expired o.deployment o.now).likeness.Rel ahead s t) :
    (Service.purge o).Parallel ((Veil.expired o.deployment o.now).likeness.Rel ahead) s t := by
  have hs := Staging.purge_eq_drop h.staging.left.keys o.deployment.pendingLifetime o.now
  have ht := Staging.purge_eq_drop h.staging.right.keys o.deployment.pendingLifetime o.now
  -- Whether the purge breaks off depends on the entries that are not expired; these are in both
  -- states.
  have hsame : s.staging.countable o.deployment.pendingLifetime o.now =
      t.staging.countable o.deployment.pendingLifetime o.now := by
    rw [← Staging.countable_drop, ← Staging.countable_drop _ _ t.staging]
    exact congrArg (Staging.countable _ _) h.staging.same
  rw [Op.Parallel, exec_purge, exec_purge]
  rw [← hsame] at ht
  split at hs
  · rename_i hcountable
    rw [if_pos hcountable] at ht
    obtain ⟨n, hs⟩ := hs
    obtain ⟨m, ht⟩ := ht
    rw [hs, ht]
    refine ⟨rfl, h.mishaps, h.ledger, ⟨?_, h.staging.left.drop _, h.staging.right.drop _⟩,
      h.sessions.keep fun entry => !decide (entry.expires ≤ o.now)⟩
    show Staging.drop _ _ = Staging.drop _ _
    -- What the purge drops and what the states differ in may be dropped in either order.
    rw [Staging.drop_comm, Staging.drop_comm _ _ t.staging]
    exact congrArg (Staging.drop _) h.staging.same
  · rename_i hcountable
    rw [if_neg hcountable] at ht
    rw [hs, ht]
    exact ⟨rfl, h⟩

/-- **A call ends in the same way** in two states that differ at most in what has expired, unless it
is for the health of the service. -/
theorem perform_same {c : Call} (hc : c ≠ .health)
    (h : ∀ owner, (Veil.expired o.deployment o.now).likeness.Rel ((owner, o.draws.image) :: ahead)
      s t) :
    (Service.perform o c).Parallel ((Veil.expired o.deployment o.now).likeness.Rel ahead) s t := by
  have hL := expired_lawful o.deployment o.now
  have hrel := (h o.draws.account).fewer hL .cons_self
  cases hsession : c.session? with
  | some session =>
    exact Service.perform_parallel hL (expired_knows o session.owner).toServes (Veil.drops _)
      hsession (h session.owner)
  | none =>
    -- Calls without a session. Only a purge, which takes what has expired, needs an argument of its
    -- own.
    cases c with
    | health => exact absurd rfl hc
    | register email password =>
      exact Op.Parallel.map
        (Service.steady_register hL (fun _ => @carries_eq _ _ _) email password s t hrel)
    | login email password =>
      exact Op.Parallel.map (Service.parallel_login hL (fun owner _ _ => expired_knows o owner)
        password hrel)
    | refresh token =>
      have hsame : SameAt o.deployment o.now [] s t :=
        ⟨hrel.ledger, hrel.staging.fewer (List.nil_subperm), hrel.sessions⟩
      exact Op.Parallel.map (Service.parallel_refresh (hsame.find? _ _ token)
        (fun entry _ => ⟨(expired_knows o entry.owner).toServes, Veil.drops _⟩) hrel)
    | recoverPassword email recoveryKey new =>
      exact Op.Parallel.map (Service.parallel_recoverPassword hL
        (fun owner _ _ => (expired_knows o owner).toServes) recoveryKey new hrel)
    | purge => exact Op.Parallel.map (parallel_purge hrel)
    | _ => cases hsession

end Calls

/-! ## §4 — turns -/

/-- The names that are drawn for images in the turn: its own, and those of set-ups that come in
between. -/
def Turn.names (t : Turn) : List ImageRef :=
  t.draws.image :: (Mishap.arrivals t.mishaps.queue).map Prod.snd

namespace SameAt

variable {D : Deployment} {t : Turn} {now : Instant} {names : List ImageRef} {s s' : State}

/-- The states that a turn meets are alike, whoever its own set-up is for. -/
theorem facing (h : SameAt D t.now (t.names ++ names) s s') (owner other : Uuid) :
    (Veil.expired D t.now).likeness.Rel ((owner, t.draws.image) :: names.map (Prod.mk other))
      (t.facing s) (t.facing s') := by
  refine ⟨rfl, h.ledger, h.staging.fewer (List.Perm.subperm ?_), h.sessions⟩
  have hnames : (names.map (Prod.mk other)).map Prod.snd = names := by
    rw [List.map_map]
    exact List.map_id names
  show (t.draws.image :: (names.map (Prod.mk other) ++ _).map Prod.snd).Perm _
  rw [List.map_append, hnames]
  exact List.perm_append_comm.cons _

/-- The comparison that the walk through the calls uses gives back the one that is used along a
run. -/
theorem of_rel {other : Uuid} (h : (Veil.expired D t.now).likeness.Rel
    (names.map (Prod.mk other)) s s') : SameAt D t.now names s s' := by
  refine ⟨h.ledger, h.staging.fewer ?_, h.sessions⟩
  have hnames : (names.map (Prod.mk other)).map Prod.snd = names := by
    rw [List.map_map]
    exact List.map_id names
  rw [List.map_append, hnames]
  exact (List.sublist_append_left _ _).subperm

/-- A request comes with the same session in both states. -/
theorem bearer? (h : SameAt D t.now names s s') (r : Http.Request) :
    Http.bearer? (t.occasion D) (t.facing s) r = Http.bearer? (t.occasion D) (t.facing s') r := by
  have hsession : ∀ token, Session.authenticate? D.primitives t.now token s.sessions =
      Session.authenticate? D.primitives t.now token s'.sessions := by
    intro token
    unfold Session.authenticate?
    rw [h.find?]
  unfold Http.bearer?
  congr 1
  funext token
  exact hsession token

theorem call?_eq (h : SameAt D t.now names s s') : t.call? D s = t.call? D s' := by
  unfold Turn.call?
  cases t.act with
  | request r => exact Http.call?_congr (h.bearer? r)
  | call c => rfl

end SameAt

/-! ### The number of pending secrets -/

/-- The reply without the number of pending secrets. -/
def Service.Reply.uncounted : Reply → Reply
  | .health h => .health { h with pending := 0 }
  | reply => reply

/-- The response without the number of pending secrets. -/
def Http.Response.uncounted (r : Http.Response) : Http.Response :=
  match r.content with
  | .object members =>
    { r with content := .object (members.filter fun m => m.1 ≠ "pending_enrollments") }
  | _ => r

/-- An answer without the number of pending secrets, which is the one thing that tells whether a
purge has been. -/
def Answer.uncounted : Answer → Answer
  | .response r => .response (r.map Http.Response.uncounted)
  | .reply result => .reply (result.map Reply.uncounted)

/-- What a turn is answered, but for the number of pending secrets that the health of the service is
told with. -/
def Turn.told (D : Deployment) (t : Turn) (s : State) : Answer :=
  if t.call? D s = some .health then (t.answer D s).uncounted else t.answer D s

theorem Gallery.ready_sweep (q : ImageRef → Bool) (g : Gallery) :
    (g.sweep q).ready = (g.ready.1, g.ready.2.sweep q) := by
  cases g with
  | blocked | missing | directory => rfl

/-- Two answers about the health of the service agree but for the number. -/
theorem Http.shown_health (o : Occasion) (r : Http.Request) (gallery : Bool) (m n : Nat) :
    (Http.shown o r (.ok (.health ⟨gallery, m⟩))).map Http.Response.uncounted =
      (Http.shown o r (.ok (.health ⟨gallery, n⟩))).map Http.Response.uncounted := by
  unfold Http.shown Http.finish
  split
  · rfl
  · show some (Http.Response.uncounted (Http.healthResponse _)) =
      some (Http.Response.uncounted (Http.healthResponse _))
    unfold Http.healthResponse Http.Response.uncounted
    simp [Http.Content.mediaType?]

namespace SameAt

variable {D : Deployment} {t : Turn} {now : Instant} {names : List ImageRef} {s s' : State}

/-- What is told about the health of the service depends on the gallery alone, once the number of
pending secrets is left out. -/
theorem told_health (hcall : t.call? D s = some .health) (hcall' : t.call? D s' = some .health)
    (hready : s.staging.gallery.ready.1 = s'.staging.gallery.ready.1) :
    t.told D s = t.told D s' := by
  have hexec : ∀ u : State, ((Service.perform (t.occasion D) .health).exec u).1 =
      .ok (.health ⟨u.staging.gallery.ready.1, u.staging.entries.length⟩) := fun _ => rfl
  unfold Turn.told
  rw [if_pos hcall, if_pos hcall']
  unfold Turn.answer Answer.uncounted
  unfold Turn.call? at hcall hcall'
  cases hact : t.act with
  | request r =>
    rw [hact] at hcall hcall'
    dsimp only
    rw [Http.respond_of_call hcall, Http.respond_of_call hcall', hexec, hexec]
    refine congrArg Answer.response ?_
    rw [show (t.facing s).staging.gallery.ready.1 = _ from hready]
    exact Http.shown_health _ _ _ _ _
  | call c =>
    rw [hact] at hcall
    cases hcall
    dsimp only
    rw [hexec, hexec, show (t.facing s).staging.gallery.ready.1 = _ from hready]
    rfl

/-- Asking for the health of the service makes the folder of images and changes nothing else. -/
theorem next_health (hcall : t.call? D s = some .health) : t.next D s =
    { t.facing s with
      staging := { s.staging with gallery := s.staging.gallery.ready.2 } } := by
  obtain ⟨r, -, hends⟩ := t.ends_of_call hcall
  obtain ⟨q, hq, -⟩ := Op.ends_map.1 hends
  exact (Op.ends_onStaging.1 hq).2

/-- Apart from the number, the health of the service is the same in both states. It is the only call
that is answered differently, and the reason why statements on purges leave the number out. -/
theorem health (h : SameAt D t.now names s s') (hcall : t.call? D s = some .health)
    (hcall' : t.call? D s' = some .health) :
    t.told D s = t.told D s' ∧ SameAt D t.now names (t.next D s) (t.next D s') := by
  obtain ⟨p, hp⟩ : ∃ p, p = Staging.hasExpired D.pendingLifetime t.now := ⟨_, rfl⟩
  have hs := Gallery.ready_sweep (s.staging.shows p) s.staging.gallery
  have ht := Gallery.ready_sweep (s'.staging.shows p) s'.staging.gallery
  have hsame : Staging.drop p s.staging = Staging.drop p s'.staging := hp ▸ h.staging.same
  have hgallery : s.staging.gallery.sweep (s.staging.shows p) =
      s'.staging.gallery.sweep (s'.staging.shows p) := congrArg Staging.gallery hsame
  rw [hgallery] at hs
  obtain ⟨hready, hdirectory⟩ := Prod.mk.inj (hs.symm.trans ht)
  refine ⟨told_health hcall hcall' hready, ?_⟩
  rw [next_health hcall, next_health hcall']
  refine ⟨h.ledger, ⟨?_, ⟨h.staging.left.keys, h.staging.left.images⟩,
    ⟨h.staging.right.keys, h.staging.right.images⟩⟩, h.sessions⟩
  rw [← hp]
  exact congrArg₂ Staging.mk (congrArg Staging.entries hsame) hdirectory

/-- **A turn is answered in the same way** in two states that differ at most in what has expired,
and leaves them so. -/
theorem turn (h : SameAt D now (t.names ++ names) s s') (hnow : now ≤ t.now) :
    t.told D s = t.told D s' ∧ SameAt D t.now names (t.next D s) (t.next D s') := by
  have hmet := h.at_later hnow
  have hrel : SameAt D t.now names s s' := hmet.fewer (List.sublist_append_right _ _).subperm
  -- The same call is made in both states, or none. The health of the service is the only call that
  -- counts what has expired, and is answered apart.
  have hsame := hmet.call?_eq
  rcases t.next_cases D s with ⟨hnone, -, hnext⟩ | ⟨c, r, hcall, -, -⟩
  · rcases t.next_cases D s' with ⟨-, -, hnext'⟩ | ⟨c, -, hcall, -⟩
    · refine ⟨?_, by rw [hnext, hnext']; exact ⟨hrel.ledger, hrel.staging, hrel.sessions⟩⟩
      unfold Turn.told
      rw [← hsame, hnone, if_neg nofun, if_neg nofun]
      cases hact : t.act with
      | request r => exact Turn.answer_of_none hact hnone (hmet.bearer? r)
      | call c =>
        unfold Turn.call? at hnone
        rw [hact] at hnone
        cases hnone
    · cases (hsame.symm.trans hnone).symm.trans hcall
  · have hcall' := hsame.symm.trans hcall
    by_cases hc : c = .health
    · subst hc
      exact hrel.health hcall hcall'
    · have hboth := perform_same (o := t.occasion D) hc fun owner =>
        hmet.facing owner t.draws.account
      obtain ⟨hanswer, -, hstates⟩ := Turn.parallel hcall hcall' hboth
      refine ⟨?_, of_rel hstates⟩
      unfold Turn.told
      rw [hcall, hcall', if_neg fun hother => hc (Option.some.inj hother),
        if_neg fun hother => hc (Option.some.inj hother)]
      exact hanswer

end SameAt

/-- **A turn keeps tables with one row for each key**, and images for one entry each. Without this,
dropping a row might drop the image of another one. -/
theorem Turn.tidy {D : Deployment} {t : Turn} {names : List ImageRef} {s : State}
    (htidy : s.staging.Tidy (t.names ++ names)) (hkeyed : s.sessions.Keyed) :
    (t.next D s).staging.Tidy names ∧ (t.next D s).sessions.Keyed := by
  have hmet : SameAt D t.now (t.names ++ names) s s := .refl htidy hkeyed
  have hnext := (hmet.turn (Int.le_refl _)).2
  exact ⟨hnext.staging.left, hnext.sessions.left⟩

namespace History

variable {D : Deployment}

/-- The names that are drawn for images in a run. -/
def names : History → List ImageRef
  | start _ => []
  | turn h t => names h ++ t.names

/-- **The tables of a reachable state have one row for each key**, and images are those of one entry
each, if no two set-ups draw the same name. Induction on the history. -/
theorem tidy {h : History} {ahead : List ImageRef} (hnames : (h.names ++ ahead).Nodup) :
    (h.state D).staging.Tidy ahead ∧ (h.state D).sessions.Keyed := by
  induction h generalizing ahead with
  | start gallery =>
    exact ⟨⟨List.nodup_nil, (List.append_nil ahead).symm ▸ hnames⟩, List.nodup_nil⟩
  | turn h t ih =>
    have hahead : (h.names ++ (t.names ++ ahead)).Nodup := by
      rw [← List.append_assoc]
      exact hnames
    obtain ⟨htidy, hkeyed⟩ := ih hahead
    exact Turn.tidy htidy hkeyed

end History

end SecondFactor
