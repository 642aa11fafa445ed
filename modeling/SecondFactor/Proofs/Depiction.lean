import SecondFactor.Proofs.Acceptance
import SecondFactor.Proofs.Images
import SecondFactor.Proofs.Stores

/-!
# What images show

An image cannot be replaced while its secret is pending. That is not seen from a call alone, as
another set-up can come in between at any query; so it is shown of each change to the pending
secrets, and a turn makes no others. What stands under the image of an entry is therefore what the
set-up saved that made the entry, and that shows its secret.

## The architecture

* **`Staging.Lasting`** — what every change to the pending secrets keeps; **`Turn.keeps`** — and so
  a turn does.
* **`Staging.Pictured`** — what stands under the images of entries.
* **`Turn.Saves`**, **`History.saved`** — the image of an entry is one that a set-up saved for it,
  by induction on the run; **`History.depicted`** — and shows its secret.
-/

namespace SecondFactor

open Service (Call Reply)

/-! ## §1 — what every step keeps -/

namespace Staging

variable {names : List Arrival} {s t : Staging} {owner : Uuid} {lifetime : Int} {now : Instant}
  {I : List Arrival → Staging → Prop}

/-- A property of the pending secrets, with a view to the set-ups that are still to come, that none
of the changes to them takes away. -/
structure Lasting (I : List Arrival → Staging → Prop) : Prop where
  fewer : ∀ {names names' s}, names'.Subperm names → I names s → I names' s
  enter : ∀ {owner entry content names s t}, I ((owner, entry.image) :: names) s →
    Staging.enter s owner entry content = .ok t → I names t
  discard : ∀ {names s}, I names s → ∀ owner, I names (Staging.discard s owner)
  put : ∀ {owner} {entry entry' : Pending} {names s}, I names s →
    s.entries.get? owner = some entry → entry'.image = entry.image →
      I names { s with entries := s.entries.put owner entry' }
  ready : ∀ {names s}, I names s → I names { s with gallery := s.gallery.ready.2 }

namespace Lasting

variable (hI : Lasting I)

include hI

theorem discardIf (h : I names s) (owner id : Uuid) : I names (s.discardIf owner id) := by
  unfold Staging.discardIf
  split
  · exact hI.discard h owner
  · exact h

/-- A look may discard an entry that has expired. -/
theorem look (h : I names s) (owner : Uuid) : I names (s.look lifetime now owner).2 := by
  unfold Staging.look
  split
  · exact h
  · split
    · exact h
    · exact hI.discard h owner
    · exact h

/-- An amendment looks first, and then puts the entry back, changed in anything but its image. The
image is what the properties of this kind are about. -/
theorem amend {f : Pending → Pending} (himage : ∀ entry, (f entry).image = entry.image)
    (h : I names s) (owner : Uuid) : I names (s.amend lifetime now owner f).2 := by
  have hlook : I names (s.look lifetime now owner).2 := hI.look h owner
  unfold Staging.amend
  cases hfound : (s.look lifetime now owner).1 with
  | error failure =>
    rw [← Prod.eta (s.look lifetime now owner), hfound]
    exact hlook
  | ok found =>
    rw [← Prod.eta (s.look lifetime now owner), hfound]
    cases found with
    | none => exact hlook
    | some entry =>
      obtain ⟨hentry, -, hsame⟩ := found_of_look hfound
      rw [hsame]
      exact hI.put h hentry (himage entry)

theorem purge (h : I names s) : I names (s.purge lifetime now).2 :=
  purge_keeps (fun h => hI.discard h) h lifetime now

end Lasting

/-- The likeness of a state with itself, as long as its pending secrets have a property. -/
def likeness (I : List Arrival → Staging → Prop) : Likeness where
  ledger := Eq
  staging names s t := s = t ∧ I names s
  sessions := Eq

/-- A property of this kind makes two states alike that both have it. So the general theorem on
calls and likeness applies, and no call has to be walked through again. -/
theorem Lasting.lawful (hI : Lasting I) : (likeness I).Lawful where
  address email := by
    rintro l _ rfl
    exact ⟨rfl, rfl⟩
  fewer := by
    rintro names names' s _ hfewer ⟨rfl, h⟩
    exact ⟨rfl, hI.fewer hfewer h⟩
  arrive := by
    rintro owner entry names s _ ⟨rfl, h⟩ content
    cases henter : s.enter owner entry content with
    | error cause => exact .inl ⟨cause, rfl, rfl⟩
    | ok t => exact .inr ⟨t, t, rfl, rfl, rfl, hI.enter h henter⟩

theorem stages {α : Type} {f : Staging → α × Staging}
    (hf : ∀ {names s}, I names s → I names (f s).2) : (likeness I).Stages f := by
  rintro names s _ ⟨rfl, h⟩
  exact ⟨rfl, rfl, hf h⟩

/-- Of such a likeness a call may use anything, as it says nothing about the differences. -/
theorem Lasting.knows (hI : Lasting I) (o : Occasion) (owner : Uuid) :
    (likeness I).Knows o owner where
  transact _ := carries_eq _
  contents h := .of_eq (by rw [h])
  look := stages fun h => hI.look h owner
  restage entry secret := stages fun h => hI.amend (fun _ => by split <;> rfl) h owner
  discard := stages fun h => hI.discard h owner
  discardIf id := stages fun h => hI.discardIf h owner id
  read h _ _ := by rw [h.1]
  issue _ := carries_eq _
  revokeOwner := @carries_eq _ _ _
  record h := by rw [h]

end Staging

/-- The set-up that a call makes. -/
def Service.Call.arrival? (o : Occasion) : Call → Option Arrival
  | .setup session _ => some (session.owner, o.draws.image)
  | _ => none

/-- The set-ups of a turn: its own, and those that come in between. -/
def Turn.arrivals (D : Deployment) (t : Turn) (s : State) : List Arrival :=
  ((t.call? D s).bind (Call.arrival? (t.occasion D))).toList ++ Mishap.arrivals t.mishaps.queue

namespace Service

open Staging Op

variable {I : List Arrival → Staging → Prop} {o : Occasion} {ahead : List Arrival} {s : State}

/-- A call leaves a state like itself. The set-up that a call may make, and those that may come in
between, have to be among the ones that were expected. -/
theorem perform_alone (hI : Lasting I) {c : Call}
    (h : (likeness I).Rel ((c.arrival? o).toList ++ ahead) s s) :
    (perform o c).Parallel ((likeness I).Rel ahead) s s := by
  have hL := hI.lawful
  have hown := hI.knows o
  have hdrops : ∀ family, (likeness I).Drops family := fun _ => @carries_eq _ _ _
  have hrel : (likeness I).Rel ahead s s := h.fewer hL (List.sublist_append_right _ _).subperm
  cases hsession : c.session? with
  | some session =>
    -- A set-up uses up the name that was ahead; any other call of a session leaves it ahead.
    by_cases hsetup : ∃ password, c = .setup session password
    · obtain ⟨password, rfl⟩ := hsetup
      exact perform_parallel hL (hown _).toServes (hdrops _) hsession h
    · exact perform_steady hL (hown _).toServes (hdrops _) hsession (not_exists.1 hsetup) s s hrel
  | none =>
    -- Calls without a session are made for whoever turns out to be meant.
    cases c with
    | health =>
      exact (Likeness.steady_onStaging (stages hI.ready)).map s s hrel
    | register email password =>
      exact (steady_register hL (fun _ => @carries_eq _ _ _) email password).map s s hrel
    | login email password =>
      exact (parallel_login hL (fun owner _ _ => hown owner) password hrel).map
    | refresh token =>
      exact (parallel_refresh rfl (fun entry _ => ⟨(hown _).toServes, hdrops _⟩) hrel).map
    | recoverPassword email recoveryKey new =>
      exact (parallel_recoverPassword hL (fun owner _ _ => (hown owner).toServes) recoveryKey new
        hrel).map
    | purge =>
      have hpurge : (likeness I).Stages (Staging.purge o.deployment.pendingLifetime o.now) :=
        stages fun h => hI.purge h
      exact ((Likeness.steady_onStaging hpurge).bind fun _ =>
        Likeness.steady_changeSessions (@carries_eq _ _ _)).map s s hrel
    | _ => cases hsession

end Service

/-- **What every change to the pending secrets keeps, a turn keeps.** A property has to be checked
for five changes, and then holds along every run. -/
theorem Turn.keeps {D : Deployment} {t : Turn} {s : State} {I : List Arrival → Staging → Prop}
    (hI : Staging.Lasting I) (h : I (t.arrivals D s) s.staging) : I [] (t.next D s).staging := by
  rcases t.next_cases D s with ⟨-, -, hnext⟩ | ⟨c, r, hcall, -, hends⟩
  · rw [hnext]
    exact hI.fewer List.nil_subperm h
  · have harrivals : t.arrivals D s =
        (c.arrival? (t.occasion D)).toList ++ [] ++ Mishap.arrivals t.mishaps.queue := by
      rw [List.append_nil, Turn.arrivals, hcall]
      rfl
    have hstart : (Staging.likeness I).Rel ((c.arrival? (t.occasion D)).toList ++ [])
        (t.facing s) (t.facing s) := ⟨rfl, rfl, ⟨rfl, harrivals ▸ h⟩, rfl⟩
    obtain ⟨-, hnext⟩ := Service.perform_alone hI hstart
    rw [show t.next D s = _ from congrArg Prod.snd hends.symm]
    exact hI.fewer List.nil_subperm hnext.staging.2

/-! ## §2 — what stands under the images of entries -/

namespace Gallery

variable {g : Gallery} {r : ImageRef}

theorem item?_ready (g : Gallery) (r : ImageRef) : g.ready.2.item? r = g.item? r := by
  cases g with
  | blocked | missing | directory items => rfl

/-- What stands under a name as an image can be read there. -/
theorem read_of_item? {png : Bytes} (h : g.item? r = some (.image png)) :
    g.read r = .ok (some png) := by
  cases g with
  | blocked | missing => cases h
  | directory items =>
    have hitem : items.lookup r = some (.image png) := h
    unfold read
    dsimp only
    rw [hitem]

end Gallery

namespace Staging

variable {names : List ImageRef} {s t : Staging} {owner : Uuid} {entry entry' : Pending}
  {R : Uuid → Pending → Option Gallery.Item → Prop}

/-- What stands under the image of an entry is as said of the entry. -/
def Pictured (R : Uuid → Pending → Option Gallery.Item → Prop) (s : Staging) : Prop :=
  ∀ owner entry, s.entries.get? owner = some entry → R owner entry (s.gallery.item? entry.image)

theorem item?_discard (htidy : s.Tidy names) {r : ImageRef}
    (hother : ∀ row ∈ s.entries, row.1 = owner → row.2.image ≠ r) :
    (s.discard owner).gallery.item? r = s.gallery.item? r := by
  rw [discard_eq_drop htidy.keys]
  refine Gallery.item?_sweep (shows_eq_false.2 fun row hrow hkey => hother row hrow ?_) _
  simpa using hkey

namespace Pictured

/-- Discarding an entry deletes its image, and no other entry has that image. -/
theorem discard (htidy : s.Tidy names) (h : s.Pictured R) (owner : Uuid) :
    (s.discard owner).Pictured R := by
  intro other entry hentry
  rw [get?_discard] at hentry
  split at hentry
  · cases hentry
  · rename_i hother
    rw [item?_discard htidy fun row hrow hkey himage => hother ?_]
    · exact h other entry hentry
    · -- An image is that of one entry.
      rw [← hkey, htidy.eq_of_image hrow (Table.mem_of_get? hentry) himage]

/-- An entry is put back with another secret. Its image was there and is still. -/
theorem put (h : s.Pictured R) (hentry : s.entries.get? owner = some entry)
    (himage : entry'.image = entry.image)
    (hR : ∀ shown, R owner entry shown → R owner entry' shown) :
    Pictured R { s with entries := s.entries.put owner entry' } := by
  intro other found hfound
  have hfound : Table.get? (s.entries.put owner entry') other = some found := hfound
  rw [Table.get?_put] at hfound
  split at hfound
  · rename_i hother
    cases hfound
    subst hother
    rw [himage]
    exact hR _ (h other entry hentry)
  · exact h other found hfound

theorem ready (h : s.Pictured R) : Pictured R { s with gallery := s.gallery.ready.2 } := by
  intro owner entry hentry
  show R owner entry (s.gallery.ready.2.item? entry.image)
  rw [Gallery.item?_ready]
  exact h owner entry hentry

/-- A set-up saves an image under a name that no entry has, so the images of other entries are left
alone. -/
theorem enter (htidy : s.Tidy (entry.image :: names)) (h : s.Pictured R) {content : Bytes}
    (hnew : R owner entry (some (.image content)))
    (henter : s.enter owner entry content = .ok t) : t.Pictured R := by
  unfold Staging.enter at henter
  obtain ⟨gallery, hsave, rfl⟩ := map_eq_ok.1 henter
  have hsaved : Pictured R { s with gallery } := by
    intro other found hfound
    have hne : found.image ≠ entry.image := htidy.image_ne _ (Table.mem_of_get? hfound)
    show R other found (gallery.item? found.image)
    rw [Gallery.item?_save hsave, if_neg hne]
    exact h other found hfound
  have htidy' : Tidy (entry.image :: names) { s with gallery } := ⟨htidy.keys, htidy.images⟩
  have hcleared := hsaved.discard htidy' owner
  -- The image of the old entry has another name.
  have hstays : (Staging.discard { s with gallery } owner).gallery.item? entry.image =
      gallery.item? entry.image :=
    item?_discard htidy' fun row hrow _ => htidy'.image_ne row hrow
  intro other found hfound
  have hfound : Table.get? (Table.put (Staging.discard { s with gallery } owner).entries owner
      entry) other = some found := hfound
  rw [Table.get?_put] at hfound
  split at hfound
  · rename_i hother
    cases hfound
    subst hother
    show R other entry ((Staging.discard { s with gallery } other).gallery.item? entry.image)
    rw [hstays, Gallery.item?_save hsave, if_pos rfl]
    exact hnew
  · exact hcleared other found hfound

end Pictured

/-- The images of entries were saved by set-ups that are known, or otherwise as said. -/
structure Sourced (P : Arrival → Prop) (Q : Uuid → ImageRef → Bytes → Prop) (names : List Arrival)
    (s : Staging) : Prop where
  tidy : s.Tidy (names.map Prod.snd)
  known : ∀ arrival ∈ names, P arrival
  pictured : s.Pictured fun owner entry shown => ∃ png, shown = some (.image png) ∧
    (P (owner, entry.image) ∨ Q owner entry.image png)

/-- That every image was saved by somebody for its account is a property of this kind, whatever is
counted as saving. -/
theorem Sourced.lasting (P : Arrival → Prop) (Q : Uuid → ImageRef → Bytes → Prop) :
    Lasting (Sourced P Q) where
  fewer := by
    intro names names' s hfewer h
    have hsubset := hfewer.subset
    obtain ⟨l, hperm, hsublist⟩ := hfewer
    exact ⟨h.tidy.fewer ⟨_, hperm.map Prod.snd, hsublist.map Prod.snd⟩,
      fun arrival harrival => h.known arrival (hsubset harrival), h.pictured⟩
  enter := by
    intro owner entry content names s t h henter
    obtain ⟨hfirst, hrest⟩ := List.forall_mem_cons.1 h.known
    exact ⟨h.tidy.enter henter, hrest,
      h.pictured.enter h.tidy ⟨content, rfl, .inl hfirst⟩ henter⟩
  discard h owner := ⟨h.tidy.discard owner, h.known, h.pictured.discard h.tidy owner⟩
  put := by
    intro owner entry entry' names s h hentry himage
    refine ⟨h.tidy.put hentry himage, h.known, h.pictured.put hentry himage ?_⟩
    rw [himage]
    exact fun _ => id
  ready h := ⟨⟨h.tidy.keys, h.tidy.images⟩, h.known, h.pictured.ready⟩

end Staging

/-! ## §3 — what set-ups save -/

/-- A set-up of the turn saves an image for an account. -/
def Turn.Saves (D : Deployment) (t : Turn) (s : State) (owner : Uuid) (r : ImageRef) (png : Bytes) :
    Prop :=
  (owner, r) ∈ t.arrivals D s ∧ (t.next D s).staging.gallery.item? r = some (.image png)

/-- A turn uses no other names than those that it draws. -/
theorem Turn.arrivals_names (D : Deployment) (t : Turn) (s : State) :
    ((t.arrivals D s).map Prod.snd).Subperm t.names := by
  have hown : (((t.call? D s).bind (Call.arrival? (t.occasion D))).toList.map Prod.snd).Subperm
      [t.draws.image] := by
    cases t.call? D s with
    | none => exact List.nil_subperm
    | some c => cases c with
      | setup session password => exact .refl _
      | _ => exact List.nil_subperm
  unfold Turn.arrivals Turn.names
  rw [List.map_append]
  exact (List.subperm_append_right _).2 hown

namespace History

/-- The image was saved for the account by a set-up. -/
def Saved (D : Deployment) (h : History) (owner : Uuid) (r : ImageRef) (png : Bytes) : Prop :=
  h.Any fun past t => t.Saves D (past.state D) owner r png

variable {D : Deployment} {h : History}

/-- **The image of a pending secret is one that a set-up saved for its account.** This holds
whatever comes in between, as long as names are new; it does not say which of the secrets the image
shows. -/
theorem saved (hnames : h.names.Nodup) : (h.state D).staging.Pictured fun owner entry shown =>
    ∃ png, shown = some (.image png) ∧ h.Saved D owner entry.image png := by
  induction h with
  | start gallery => exact nofun
  | turn h t ih =>
    obtain ⟨htidy, -⟩ := tidy (D := D) hnames
    have hbefore := ih (List.nodup_append.1 hnames).1
    obtain ⟨-, -, hafter⟩ := Turn.keeps (D := D) (t := t) (s := h.state D)
      (Staging.Sourced.lasting (· ∈ t.arrivals D (h.state D)) (h.Saved D))
      ⟨htidy.fewer (t.arrivals_names D _), fun _ => id,
        fun owner entry hentry => (hbefore owner entry hentry).imp fun png hpng =>
          ⟨hpng.1, .inr hpng.2⟩⟩
    intro owner entry hentry
    obtain ⟨png, hitem, hnew | hold⟩ := hafter owner entry hentry
    · exact ⟨png, hitem, .inr ⟨hnew, hitem⟩⟩
    · exact ⟨png, hitem, .inl hold⟩

end History

/-! ### Uninterrupted set-ups -/

namespace Staging

/-- The image of an entry shows its secret. -/
def Depicts (_ : Uuid) (entry : Pending) (shown : Option Gallery.Item) : Prop :=
  ∃ content, entry.secret.image = .ok content ∧ shown = some (.image content)

/-- A step that changes a pending secret without starting a new set-up keeps its picture true: the
picture does not show the counter, and that is all an attempt changes of what is shown. -/
theorem Pictured.moves {names : List ImageRef} {s t : Staging} {o : Occasion}
    (htidy : s.Tidy (o.draws.image :: names)) (h : s.Pictured Depicts)
    (hmoves : Service.Moves o s t) : t.Pictured Depicts := by
  cases hmoves with
  | stays => exact h
  | prepares => exact h.ready
  | discards owner => exact h.discard htidy owner
  | @rewrites owner entry secret hentry hcore =>
    refine h.put hentry rfl fun shown hshown => ?_
    unfold Depicts at hshown ⊢
    rwa [Otp.Secret.image_eq_of_core hcore]
  | enters himage hcontent henter =>
    exact h.enter (himage ▸ htidy) ⟨_, hcontent, rfl⟩ henter
  | purges =>
    refine (purge_keeps (I := fun u => u.Tidy (o.draws.image :: names) ∧ u.Pictured Depicts) ?_
      ⟨htidy, h⟩ _ _).2
    exact fun ⟨hu, hpictured⟩ owner => ⟨hu.discard owner, hpictured.discard hu owner⟩

end Staging

/-- **If no set-up comes in between**, the image of a pending secret shows it. Otherwise a set-up
may overwrite the image of another that is still under way. -/
theorem History.depicted {D : Deployment} {h : History} (hnames : h.names.Nodup)
    (hplain : h.All fun _ t => t.mishaps.Plain) :
    (h.state D).staging.Pictured Staging.Depicts := by
  induction h with
  | start gallery => exact nofun
  | turn h t ih =>
    obtain ⟨hbefore, hlast⟩ := hplain
    obtain ⟨htidy, -⟩ := tidy (D := D) hnames
    have hpictured := ih (List.nodup_append.1 hnames).1 hbefore
    show (t.next D (h.state D)).staging.Pictured _
    rcases t.next_cases D (h.state D) with ⟨-, -, hnext⟩ | ⟨c, r, -, -, hends⟩
    · rw [hnext]
      exact hpictured
    · exact Staging.Pictured.moves (o := t.occasion D) htidy hpictured
        (Service.perform_moves (s := t.facing (h.state D)) hlast hends)

end SecondFactor
