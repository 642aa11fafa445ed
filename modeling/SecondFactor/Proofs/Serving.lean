import SecondFactor.Proofs.Depiction
import SecondFactor.Proofs.ImageNames

/-!
# Images and their owners

The image of a pending secret is served to the account that it is pending for, and to nobody else.
Whatever other name is asked for, the answer is that there is no such image, so that it cannot be
learned whose image a name is, or whether it is one. One thing comes first, though: the pending
secret of the account itself is looked at, and that fails if it would expire beyond the calendar.

## The architecture

* **`exec_pendingImage`** — what a look at an image is answered, by the state.
* **`Service.Served`** — how a name is answered; **`images_served_to_owners`** — in every run.
-/

namespace SecondFactor

open Service (Call Reply)

/-! ## §1 — what a name is answered with -/

namespace Service

variable {D : Deployment} {o : Occasion} {s : State} {session : Session} {name : String}

/-- What the service answers to a look at an image, as one equation. Whoever asks, it is the entry
of their own account that is compared with the name. -/
theorem exec_pendingImage (o : Occasion) (session : Session) (name : String) (s : State) :
    ((pendingImage o session name).exec s).1 =
      match ImageRef.parse? name, s.staging.entries.get? session.owner with
      | some r, some entry => match Staging.isExpired? o.deployment.pendingLifetime o.now entry with
        | none => .error .crash
        | some true => .error (.refused .notFound)
        | some false => if entry.image = r then
            match s.staging.gallery.read r with
            | .error cause => .error (.refused cause)
            | .ok none => .error (.refused .notFound)
            | .ok (some png) => .ok png
          else .error (.refused .notFound)
      | _, _ => .error (.refused .notFound) := by
  have hlook : (lookAtPending o session.owner).exec s =
      ((s.staging.look o.deployment.pendingLifetime o.now session.owner).1,
        { s with
          staging := (s.staging.look o.deployment.pendingLifetime o.now session.owner).2 }) := rfl
  unfold pendingImage
  cases ImageRef.parse? name with
  | none => rfl
  -- The name is that of an image. What follows is decided by the entry of the account, by its age,
  -- and by whether its image is the one that was named.
  | some r =>
    show ((lookAtPending o session.owner >>= _).exec s).1 = _
    rw [Op.exec_bind, hlook]
    unfold Staging.look
    cases s.staging.entries.get? session.owner with
    | none => rfl
    | some entry =>
      dsimp only
      cases Staging.isExpired? o.deployment.pendingLifetime o.now entry with
      | none => rfl
      | some expired => cases expired with
        | true => rfl
        | false =>
          dsimp only
          by_cases himage : entry.image = r
          · have hensure : (some entry).any (·.image == r) = true := by simpa using himage
            rw [if_pos himage]
            simp only [hensure]
            show ((Op.demand (s.staging.gallery.read r) >>= _).exec s).1 = _
            cases s.staging.gallery.read r with
            | error cause => rfl
            | ok found => cases found <;> rfl
          · have hensure : (some entry).any (·.image == r) = false := by simpa using himage
            rw [if_neg himage]
            simp only [hensure]
            rfl

/-- How a name is answered for an account. -/
inductive Served (D : Deployment) (h : History) (now : Instant) (owner : Uuid) (name : String) :
    Except Failure Bytes → Prop where
  /-- It is that of the image of its own pending secret, which has not expired. -/
  | shown {entry : Pending} {png : Bytes} (hname : ImageRef.parse? name = some entry.image)
      (hentry : (h.state D).staging.entries.get? owner = some entry)
      (hlasting : Staging.isExpired? D.pendingLifetime now entry = some false)
      (hsaved : h.Saved D owner entry.image png)
      (hdepicted : (h.All fun _ t => t.mishaps.Plain) → entry.secret.image = .ok png) :
      Served D h now owner name (.ok png)
  /-- It is that of some image, and its own pending secret would expire beyond the calendar. -/
  | beyond {entry : Pending} {r : ImageRef} (hname : ImageRef.parse? name = some r)
      (hentry : (h.state D).staging.entries.get? owner = some entry)
      (hbeyond : Staging.isExpired? D.pendingLifetime now entry = none) :
      Served D h now owner name (.error .crash)
  | hidden (hother : ∀ r entry, ImageRef.parse? name = some r →
        (h.state D).staging.entries.get? owner = some entry →
        ∃ expired, Staging.isExpired? D.pendingLifetime now entry = some expired ∧
          (entry.image = r → expired = true)) :
      Served D h now owner name (.error (.refused .notFound))

/-- **What a look at an image is answered with** is one of the three things that `Served` lists, in
every run in which image names are new. -/
theorem served {h : History} (hnames : h.names.Nodup) (t : Turn) (session : Session)
    (name : String) : Served D h t.now session.owner name
      ((pendingImage (t.occasion D) session name).exec (t.facing (h.state D))).1 := by
  rw [exec_pendingImage]
  split
  · rename_i r entry hname hentry
    split
    · rename_i hbeyond
      exact .beyond hname hentry hbeyond
    · rename_i hexpired
      refine .hidden fun r' entry' _ hentry' => ?_
      cases hentry.symm.trans hentry'
      exact ⟨true, hexpired, fun _ => rfl⟩
    · rename_i hlasting
      split
      · rename_i himage
        subst himage
        -- The image is there, as it was saved.
        obtain ⟨png, hitem, hsaved⟩ := History.saved hnames _ _ hentry
        have hread : (t.facing (h.state D)).staging.gallery.read entry.image = .ok (some png) :=
          Gallery.read_of_item? hitem
        rw [hread]
        refine .shown hname hentry hlasting hsaved fun hplain => ?_
        obtain ⟨content, hcontent, hitem'⟩ := History.depicted hnames hplain _ _ hentry
        cases hitem.symm.trans hitem'
        exact hcontent
      · rename_i himage
        refine .hidden fun r' entry' hname' hentry' => ?_
        cases hname.symm.trans hname'
        cases hentry.symm.trans hentry'
        exact ⟨false, hlasting, fun hsame => absurd hsame himage⟩
  · rename_i hnone
    exact .hidden fun r entry hname hentry => absurd hentry (hnone r entry hname)

namespace Served

variable {h : History} {now : Instant} {owner : Uuid} {result : Except Failure Bytes}
  {entry : Pending}

theorem of_none (hserved : Served D h now owner name result)
    (hnone : (h.state D).staging.entries.get? owner = none) :
    result = .error (.refused .notFound) := by
  cases hserved with
  | shown _ hentry | beyond _ hentry => cases hnone.symm.trans hentry
  | hidden => rfl

/-- **The owner of a pending secret is given its image**, which a set-up of the account saved, as
long as the secret has not expired. -/
theorem of_own (hserved : Served D h now owner name result)
    (hname : ImageRef.parse? name = some entry.image)
    (hentry : (h.state D).staging.entries.get? owner = some entry)
    (hlasting : Staging.isExpired? D.pendingLifetime now entry = some false) :
    ∃ png, result = .ok png ∧ h.Saved D owner entry.image png := by
  cases hserved with
  | @shown found png _ hfound _ hsaved =>
    cases hentry.symm.trans hfound
    exact ⟨png, rfl, hsaved⟩
  | beyond _ hfound hbeyond =>
    cases hentry.symm.trans hfound
    cases hlasting.symm.trans hbeyond
  | hidden hother =>
    obtain ⟨expired, hexpired, htrue⟩ := hother _ _ hname hentry
    cases hlasting.symm.trans hexpired
    cases htrue rfl

/-- If the age of the entry leads out of the calendar, the look breaks off. -/
theorem of_beyond (hserved : Served D h now owner name result) {r : ImageRef}
    (hname : ImageRef.parse? name = some r)
    (hentry : (h.state D).staging.entries.get? owner = some entry)
    (hbeyond : Staging.isExpired? D.pendingLifetime now entry = none) :
    result = .error .crash := by
  cases hserved with
  | shown _ hfound hlasting =>
    cases hentry.symm.trans hfound
    cases hbeyond.symm.trans hlasting
  | beyond => rfl
  | hidden hother =>
    obtain ⟨expired, hexpired, -⟩ := hother _ _ hname hentry
    cases hbeyond.symm.trans hexpired

end Served

end Service

/-- **Images are served to their owners, and to nobody else**, if no name is drawn twice. A name
that is accepted stands for one written name, which is plain and stands for itself, as every name
does that is drawn. At any time in a run, whatever set-ups came in between, an account is shown the
image of its own pending secret, as a set-up for the account saved it, by the names of that image;
by any other name there is no image. A look at a pending secret that would expire beyond the
calendar crashes instead. -/
theorem images_served_to_owners {D : Deployment} {h : History} (hnames : h.names.Nodup) :
    (∀ name r, ImageRef.parse? name = some r →
      ImageRef.Plain r.text ∧ ImageRef.parse? r.text = some r) ∧
    (∀ entropy, ImageRef.parse? (ImageRef.mk (.random entropy)).text =
      some ⟨.random entropy⟩) ∧
    ∀ (t : Turn) (session : Session) (name : String),
      Service.Served D h t.now session.owner name
        ((Service.pendingImage (t.occasion D) session name).exec (t.facing (h.state D))).1 :=
  ⟨fun _ r _ => ⟨r.plain_text, r.parse?_text⟩, fun _ => ImageRef.parse?_text _,
    fun t session name => Service.served hnames t session name⟩

/-! A secret is pending for one account while another one has a second factor. -/

/-- Pending secrets last longer than the calendar. -/
def Deployment.everlasting : Deployment :=
  { Deployment.transparent with pendingLifetime := 253402300800 }

/-- The look at the pending secret's image. -/
def Turn.viewing : Turn :=
  .inStep 10 (.call (.image ⟨.ofByte 7, .empty, .ofByte 8⟩ (Draws.ofByte 9).image.text))

/-- What an account is answered at the time of the look. -/
def Service.viewed (D : Deployment) (owner : Uuid) (r : ImageRef) : Except Failure Bytes :=
  ((pendingImage (Turn.viewing.occasion D) ⟨owner, .empty, .ofByte 8⟩ r.text).exec
    (Turn.viewing.facing (History.sharing.state D))).1

/-- The account sees its image, and the other one does not. If pending secrets last longer than the
calendar, the account is not told that it has no image of the name it asks for. -/
theorem images_served_to_owners_sharing :
    (∃ png, Service.viewed .transparent (.ofByte 7) (Draws.ofByte 9).image = .ok png ∧
      History.sharing.Saved .transparent (.ofByte 7) (Draws.ofByte 9).image png) ∧
    Service.viewed .transparent (.ofByte 1) (Draws.ofByte 9).image = .error (.refused .notFound) ∧
    Service.viewed .everlasting (.ofByte 7) ⟨.ofByte 0⟩ = .error .crash := by
  have hnames : History.sharing.names.Nodup := by decide +kernel
  have hfound : ((History.sharing.state .transparent).staging.entries.get? (.ofByte 7)).map
        (fun entry => (entry.image, Staging.isExpired? Deployment.transparent.pendingLifetime
          Turn.viewing.now entry)) = some ((Draws.ofByte 9).image, some false) ∧
      (History.sharing.state .transparent).staging.entries.get? (.ofByte 1) = none ∧
      ((History.sharing.state .everlasting).staging.entries.get? (.ofByte 7)).map
        (fun entry => Staging.isExpired? Deployment.everlasting.pendingLifetime
          Turn.viewing.now entry) = some none := by
    decide +kernel
  obtain ⟨hown, hother, hbeyond⟩ := hfound
  obtain ⟨entry, hentry, hsame⟩ := Option.map_eq_some_iff.1 hown
  obtain ⟨himage, hlasting⟩ := Prod.mk.inj hsame
  obtain ⟨entry', hentry', hbeyond⟩ := Option.map_eq_some_iff.1 hbeyond
  -- The statement is about every run, so the three looks are cases of it. Only what the store holds
  -- was computed.
  have hserved (D : Deployment) (owner : Uuid) (r : ImageRef) :
      Service.Served D .sharing Turn.viewing.now owner r.text (Service.viewed D owner r) :=
    (images_served_to_owners hnames).2.2 Turn.viewing ⟨owner, .empty, .ofByte 8⟩ r.text
  have hname : ImageRef.parse? (Draws.ofByte 9).image.text = some entry.image := by
    rw [ImageRef.parse?_text, himage]
  refine ⟨?_, (hserved _ _ _).of_none hother,
    (hserved _ _ _).of_beyond (ImageRef.parse?_text _) hentry' hbeyond⟩
  rw [← himage]
  exact (hserved _ _ _).of_own (himage ▸ hname) hentry hlasting

end SecondFactor
