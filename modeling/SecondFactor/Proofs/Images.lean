import SecondFactor.Proofs.PendingMoves

/-!
# Images and pending secrets

The image of a secret gives the secret away, and it is read by whoever can read the directory. So an
image may lie there only as long as its secret is pending, and while it does, it has to show that
secret. Images are saved in one place and removed in many: by what takes the place of an entry,
looks at an expired one, activates it, or closes the account.

## The architecture

* **`Staging.Mirrored`** — the files are the images of the entries, one for each;
  **`Mirrored.moves`** — and stay so, with one lemma for each kind of move.
* **`mirrored_after`** — by induction on the run.
* **`images_match_entries`** — files and entries correspond.
-/

namespace SecondFactor

open Service (Call Reply)

/-! ## §1 — files and entries -/

namespace Table

variable {κ α : Type} [DecidableEq κ] {t : Table κ α} {k : κ} {v : α}

/-- The row of a key can be moved to the front. Files and entries are compared up to their order,
since a file that is replaced moves and its entry does not. -/
theorem Keyed.perm_erase (h : t.Keyed) (hv : t.get? k = some v) :
    t.Perm ((k, v) :: t.erase k) := by
  induction t with
  | nil => cases hv
  | cons row t ih =>
    obtain ⟨hkey, hrest⟩ := List.nodup_cons.1 h
    rw [get?_cons] at hv
    unfold erase
    by_cases hrow : row.1 = k
    · rw [if_pos hrow] at hv
      cases hv
      subst hrow
      -- The key is that of no other row.
      rw [List.filter_cons_of_neg (by simp), List.filter_eq_self.2 fun other hother => ?_]
      rw [decide_eq_true_iff]
      exact fun hsame => hkey (List.mem_map.2 ⟨other, hother, hsame⟩)
    · rw [if_neg hrow] at hv
      rw [List.filter_cons_of_pos (by simpa using hrow)]
      exact ((ih hrest hv).cons row).trans (.swap _ _ _)

end Table

namespace Gallery

variable {g g' : Gallery} {r : ImageRef} {content : Bytes}

theorem items_sweep (q : ImageRef → Bool) (g : Gallery) : (g.sweep q).items =
    g.items.filter fun file => !(q file.1 && file.2 != .folder) := by
  cases g with
  | blocked | missing => rfl
  | directory items => rfl

/-- A file that is saved takes the place of one of the same name. With a new name it is added to the
others. -/
theorem items_save (h : g.save r content = .ok g') :
    g'.items = (r, .image content) :: g.items.filter fun file => file.1 ≠ r := by
  unfold save at h
  split at h
  · cases h
  · rename_i prepared hprepared
    split at h
    · cases h
    · cases h
      cases g with
      | blocked => cases hprepared
      | missing | directory items =>
        cases hprepared
        rfl

end Gallery

namespace Staging

variable {s t : Staging} {names : List ImageRef} {owner : Uuid} {entry : Pending}

/-- The files that the entries call for: each shows the secret of its entry. -/
def pictures (s : Staging) : List (ImageRef × Except Cause Gallery.Item) :=
  s.entries.map fun row => (row.2.image, row.2.secret.image.map .image)

/-- The files are those that the entries call for, one for each. -/
def Mirrored (s : Staging) : Prop :=
  (s.gallery.items.map fun file => (file.1, Except.ok file.2)).Perm s.pictures

/-- The image of an entry is shown by a row of some kind if its own is of the kind. -/
theorem Tidy.shows_image (h : s.Tidy names) {row : Uuid × Pending} (hrow : row ∈ s.entries)
    (p : Uuid × Pending → Bool) : s.shows p row.2.image = p row := by
  rw [Bool.eq_iff_iff, shows_iff]
  constructor
  · rintro ⟨other, hother, hp, himage⟩
    rwa [← h.eq_of_image hother hrow himage]
  · exact fun hp => ⟨row, hrow, hp, rfl⟩

namespace Mirrored

/-- A file is the image of an entry. -/
theorem file (h : s.Mirrored) {file : ImageRef × Gallery.Item} (hfile : file ∈ s.gallery.items) :
    ∃ row ∈ s.entries, row.2.image = file.1 ∧
      ∃ content, row.2.secret.image = .ok content ∧ file.2 = .image content := by
  have hmem := h.subset (List.mem_map.2 ⟨file, hfile, rfl⟩)
  obtain ⟨row, hrow, hsame⟩ := List.mem_map.1 hmem
  obtain ⟨himage, hcontent⟩ := Prod.mk.inj hsame
  obtain ⟨content, hcontent, hitem⟩ := map_eq_ok.1 hcontent
  exact ⟨row, hrow, himage, content, hcontent, hitem.symm⟩

/-- **Dropping rows drops their files.** No other row has the image of one that goes, so the files
that go are those of the rows that go. -/
theorem drop (h : s.Mirrored) (htidy : s.Tidy names) (p : Uuid × Pending → Bool) :
    (s.drop p).Mirrored := by
  have hfiles : (s.drop p).gallery.items =
      s.gallery.items.filter fun file => !s.shows p file.1 := by
    refine (Gallery.items_sweep _ _).trans (List.filter_congr fun file hfile => ?_)
    -- There are no folders among the files.
    obtain ⟨-, -, -, content, -, hitem⟩ := h.file hfile
    rw [hitem]
    exact congrArg not (Bool.and_true _)
  have hpictures : (s.drop p).pictures = s.pictures.filter fun picture => !s.shows p picture.1 := by
    unfold pictures Staging.drop
    rw [List.filter_map]
    exact congrArg _ (List.filter_congr fun row hrow =>
      congrArg not (htidy.shows_image hrow p).symm)
  unfold Mirrored
  rw [hfiles, hpictures]
  have hfiltered := h.filter fun picture => !s.shows p picture.1
  rwa [List.filter_map] at hfiltered

theorem discard (h : s.Mirrored) (htidy : s.Tidy names) (owner : Uuid) :
    (s.discard owner).Mirrored := by
  rw [discard_eq_drop htidy.keys]
  exact h.drop htidy _

/-- A purge drops the files of the entries that it drops. -/
theorem purge (h : s.Mirrored) (htidy : s.Tidy names) (lifetime : Int) (now : Instant) :
    (s.purge lifetime now).2.Mirrored := by
  have hpurge := purge_eq_drop htidy.keys lifetime now
  split at hpurge
  · obtain ⟨n, hpurge⟩ := hpurge
    rw [hpurge]
    exact h.drop htidy _
  · rwa [hpurge]

/-- Making the folder adds no file. -/
theorem prepare (h : s.Mirrored) : Mirrored { s with gallery := s.gallery.ready.2 } := by
  have hitems : s.gallery.ready.2.items = s.gallery.items := by
    cases s.gallery with
    | blocked | missing | directory items => rfl
  unfold Mirrored
  rw [hitems]
  exact h

/-- A secret that is written back is shown by the same image. -/
theorem rewrite (h : s.Mirrored) (htidy : s.Tidy names)
    (hentry : s.entries.get? owner = some entry) {secret : Otp.Secret}
    (hcore : secret.core = entry.secret.core) :
    Mirrored { s with entries := s.entries.put owner { entry with secret } } := by
  refine (h.trans ((htidy.keys.perm_erase hentry).map _)).trans (.of_eq ?_)
  unfold pictures Table.put
  rw [List.map_cons, List.map_cons]
  dsimp only
  rw [Otp.Secret.image_eq_of_core hcore]

/-- A new image is put with its entry. No other row has the name, so that the file takes the place
of none. -/
theorem push (h : s.Mirrored) (hnew : ∀ row ∈ s.entries, row.2.image ≠ entry.image)
    {content : Bytes} (hcontent : entry.secret.image = .ok content) {g : Gallery}
    (hsave : s.gallery.save entry.image content = .ok g) :
    (Staging.push { s with gallery := g } (owner, entry)).Mirrored := by
  have hfiles : g.items = (entry.image, .image content) :: s.gallery.items := by
    rw [Gallery.items_save hsave, List.filter_eq_self.2 fun file hfile => ?_]
    obtain ⟨row, hrow, himage, -⟩ := h.file hfile
    rw [decide_eq_true_iff, ← himage]
    exact hnew row hrow
  have hpictures : (Staging.push { s with gallery := g } (owner, entry)).pictures =
      (entry.image, .ok (.image content)) :: s.pictures := by
    show (_, _) :: _ = _
    rw [hcontent]
    rfl
  unfold Mirrored
  rw [hpictures]
  show List.Perm (List.map _ g.items) _
  rw [hfiles]
  exact h.cons _

/-- A set-up leaves its own file and takes the file of the entry that it replaces. -/
theorem enter (h : s.Mirrored) (htidy : s.Tidy (entry.image :: names)) {content : Bytes}
    (hcontent : entry.secret.image = .ok content)
    (henter : s.enter owner entry content = .ok t) : t.Mirrored := by
  rw [enter_eq htidy.keys] at henter
  obtain ⟨g, hsave, rfl⟩ := map_eq_ok.1 henter
  -- The image could as well be saved after the old entry was dropped.
  have hdropped : (s.drop fun row => row.1 == owner).gallery.save entry.image content =
      .ok (g.sweep (s.shows fun row => row.1 == owner)) := by
    refine (Gallery.save_sweep (shows_eq_false.2 fun row hrow _ => ?_) _ _).trans ?_
    · exact htidy.image_ne row hrow
    · rw [hsave]
      rfl
  exact (h.drop htidy _).push (fun row hrow => htidy.image_ne row (List.mem_filter.1 hrow).1)
    hcontent hdropped

/-- **Files mirror entries through every move.** A call makes one move or none, so that this is the
step of the run below. -/
theorem moves {o : Occasion} (h : s.Mirrored) (htidy : s.Tidy (o.draws.image :: names))
    (hmoves : Service.Moves o s t) : t.Mirrored := by
  cases hmoves with
  | stays => exact h
  | prepares => exact h.prepare
  | discards owner => exact h.discard htidy owner
  | rewrites hentry hcore => exact h.rewrite htidy hentry hcore
  | enters himage hcontent henter => exact h.enter (himage ▸ htidy) hcontent henter
  | purges => exact h.purge htidy _ _

end Mirrored

end Staging

/-! ## §2 — runs -/

open Event

section Runs

variable {D : Deployment} {t : Turn} {names : List ImageRef} {s : State}

/-- **The step.** A turn moves files and entries together, if nothing befell it that sets files
only. -/
theorem Turn.mirrored (hplain : t.mishaps.Plain) (htidy : s.staging.Tidy (t.names ++ names))
    (h : s.staging.Mirrored) : (t.next D s).staging.Mirrored := by
  rcases t.next_cases D s with ⟨-, -, hnext⟩ | ⟨c, r, -, -, hends⟩
  · rw [hnext]
    exact h
  · exact Staging.Mirrored.moves (o := t.occasion D) h htidy
      (Service.perform_moves (s := t.facing s) hplain hends)

/-- Files mirror entries after a run, if they did before. Induction on the run. -/
theorem mirrored_after {es : List Event} (hplain : ∀ t ∈ turns es, t.mishaps.Plain)
    (htidy : s.staging.Tidy ((turns es).flatMap Turn.names)) (hkeyed : s.sessions.Keyed)
    (h : s.staging.Mirrored) :
    (after D es s).staging.Tidy [] ∧ (after D es s).staging.Mirrored := by
  induction es generalizing s with
  | nil => exact ⟨htidy, h⟩
  | cons e es ih =>
    cases e with
    | turn t =>
      obtain ⟨hfirst, hrest⟩ := List.forall_mem_cons.1 hplain
      obtain ⟨htidy', hkeyed'⟩ := Turn.tidy (D := D) htidy hkeyed
      exact ih hrest htidy' hkeyed' (Turn.mirrored hfirst htidy h)
    | purgePending now => exact ih hplain (htidy.purge _ _) hkeyed (h.purge htidy _ _)
    | purgeSessions now => exact ih hplain htidy (hkeyed.filter _) h

end Runs

namespace Staging

/-- Files and entries correspond. -/
structure Matched (s : Staging) : Prop where
  /-- The image of an entry shows the secret as it is now. -/
  shown : ∀ owner entry, s.entries.get? owner = some entry → ∃ content,
    entry.secret.image = .ok content ∧ s.gallery.item? entry.image = some (.image content)
  /-- There is nothing else in the directory. -/
  named : ∀ r item, s.gallery.item? r = some item →
    ∃ owner entry, s.entries.get? owner = some entry ∧ entry.image = r
  apart : ∀ owner other entry entry', s.entries.get? owner = some entry →
    s.entries.get? other = some entry' → entry.image = entry'.image → owner = other
  count : s.gallery.count = s.entries.length

/-- Files that mirror the entries, one for one, are what the statement below asks for: a file for
each entry, with what it shows, and no others. -/
theorem Mirrored.matched {s : Staging} {names : List ImageRef} (h : s.Mirrored)
    (htidy : s.Tidy names) : s.Matched := by
  have hkeyed : Table.Keyed s.gallery.items := by
    have himages : (s.entries.map fun row => row.2.image).Nodup :=
      htidy.images.sublist (List.sublist_append_right _ _)
    have hnames := h.map Prod.fst
    unfold pictures at hnames
    rw [List.map_map, List.map_map] at hnames
    exact hnames.nodup_iff.2 himages
  refine ⟨fun owner entry hentry => ?_, fun r item hitem => ?_, ?_, ?_⟩
  · have hpicture : (entry.image, entry.secret.image.map Gallery.Item.image) ∈ s.pictures :=
      List.mem_map.2 ⟨_, Table.mem_of_get? hentry, rfl⟩
    obtain ⟨⟨r, item⟩, hfile, hsame⟩ := List.mem_map.1 (h.mem_iff.2 hpicture)
    obtain ⟨rfl, hshown⟩ := Prod.mk.inj hsame
    obtain ⟨content, hcontent, rfl⟩ := map_eq_ok.1 hshown.symm
    exact ⟨content, hcontent, hkeyed.get?_iff.2 hfile⟩
  · obtain ⟨row, hrow, himage, -⟩ := h.file (hkeyed.get?_iff.1 hitem)
    exact ⟨row.1, row.2, htidy.keys.get?_iff.2 hrow, himage⟩
  · intro owner other entry entry' hentry hentry' himage
    exact congrArg Prod.fst
      (htidy.eq_of_image (Table.mem_of_get? hentry) (Table.mem_of_get? hentry') himage)
  · have hlength := h.length_eq
    rwa [List.length_map, pictures, List.length_map] at hlength

end Staging

/-- **Images and pending secrets correspond.** When a service starts without images, its turns come
one at a time and no name is drawn twice, then whatever befalls the database and whenever what has
expired is purged, each pending secret has its image, which shows the secret with which it is
pending, and there are no other files. -/
theorem images_match_entries {D : Deployment} {gallery : Gallery} {es : List Event}
    (hempty : gallery.items = []) (hplain : ∀ t ∈ turns es, t.mishaps.Plain)
    (hnames : ((turns es).flatMap Turn.names).Nodup) :
    (after D es (.initial gallery)).staging.Matched := by
  have htidy : (State.initial gallery).staging.Tidy ((turns es).flatMap Turn.names) :=
    ⟨List.nodup_nil, (List.append_nil _).symm ▸ hnames⟩
  have hstart : (State.initial gallery).staging.Mirrored := by
    show List.Perm (List.map _ gallery.items) []
    rw [hempty]
    exact .nil
  obtain ⟨htidy, h⟩ := mirrored_after (D := D) hplain htidy List.nodup_nil hstart
  exact h.matched htidy

/-! An account is registered, logs in, and sets its second factor up, twice; a wrong code is entered
for the second secret. -/

/-- The run. -/
def Event.fumbling : List Event :=
  [.turn (.posting 1 "/api/register" none "\x7b\"email\":\"a@b.c\",\"password\":\"password\"\x7d"),
    .turn (.posting 2 "/api/login" none "\x7b\"email\":\"a@b.c\",\"password\":\"password\"\x7d"),
    .turn (.posting 3 "/api/2fa/setup" (some 2) "\x7b\"password\":\"password\"\x7d"),
    .turn (.posting 4 "/api/2fa/setup" (some 2) "\x7b\"password\":\"password\"\x7d"),
    .turn (.posting 5 "/api/2fa/activate" (some 2) "\x7b\"code\":\"999999\"\x7d")]

/-- One image is left, and it shows the secret with the attempt counted. -/
theorem images_match_entries_fumbling :
    ∃ entry content, (after .transparent fumbling (.initial .missing)).staging.entries.get?
        (.ofByte 1) = some entry ∧ entry.secret.counter = 1 ∧
      entry.image = (Draws.ofByte 4).image ∧ entry.secret.image = .ok content ∧
      (after .transparent fumbling (.initial .missing)).staging.gallery.item? entry.image =
        some (.image content) ∧
      (after .transparent fumbling (.initial .missing)).staging.gallery.count = 1 := by
  have hrun : ((after .transparent fumbling (.initial .missing)).staging.entries.get?
        (.ofByte 1)).map (fun entry => (entry.secret.counter, entry.image)) =
          some (1, (Draws.ofByte 4).image) ∧
      (after .transparent fumbling (.initial .missing)).staging.entries.length = 1 ∧
      (∀ t ∈ turns fumbling, t.mishaps.queue.isEmpty = true) ∧
      ((turns fumbling).flatMap Turn.names).Nodup := by
    decide +kernel
  obtain ⟨hfound, hlength, hqueues, hnames⟩ := hrun
  have hmatched : (after .transparent fumbling (.initial .missing)).staging.Matched :=
    images_match_entries rfl (fun t ht => .of_nil (List.isEmpty_iff.1 (hqueues t ht))) hnames
  obtain ⟨entry, hentry, hsame⟩ := Option.map_eq_some_iff.1 hfound
  obtain ⟨hcounter, himage⟩ := Prod.mk.inj hsame
  obtain ⟨content, hcontent, hitem⟩ := hmatched.shown _ _ hentry
  exact ⟨entry, content, hentry, hcounter, himage, hcontent, hitem, hmatched.count.trans hlength⟩

end SecondFactor
