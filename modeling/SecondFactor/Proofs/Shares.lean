import SecondFactor.Proofs.Expiry

/-!
# What the stores have of an account

Two questions about an account that a call is not for: is what the stores have of it left alone, and
does the answer depend on it? Each is a notion of likeness, so that one walk through the operations
answers both. For the first, the two states are one and the same, of which it is said what it has of
the account. For the second, they differ in what they have of it.

## The architecture

* **`State.share`** — what a state has of an account; **`Staging.Keeps`** — the part of it that is
  pending, with a view to the set-ups that are still to come.
* **`Share.likeness`** — a state with itself, as long as it has that of the account.
* **`State.AlikeBut`** — two states differ only in what they have of an account besides the account
  itself; **`Veil.ofAccount`** — the likeness of such states.
-/

namespace SecondFactor

/-! ## §1 — what the stores have of an account -/

namespace Session

variable {owner other : Uuid} {registry : Registry}

/-- The tokens of an account. -/
def tokensOf (owner : Uuid) (registry : Registry) : Registry :=
  registry.keep fun entry => entry.owner = owner

/-- A token that is put for another account takes the place of none of this one. -/
theorem tokensOf_put {key : Key} {entry : Entry} (hother : entry.owner ≠ other)
    (hkey : ∀ row ∈ tokensOf other registry, row.1 ≠ key) :
    tokensOf other (registry.put key entry) = tokensOf other registry := by
  unfold tokensOf Table.keep at hkey ⊢
  unfold Table.put Table.erase
  rw [List.filter_cons_of_neg (by simpa using hother), List.filter_filter]
  refine List.filter_congr fun row hrow => ?_
  by_cases howner : row.2.owner = other
  · have hne := hkey row (List.mem_filter.2 ⟨hrow, decide_eq_true howner⟩)
    simp [howner, hne]
  · simp [howner]

/-- Neither does a new pair for another account, if the keys are new. -/
theorem tokensOf_issue {P : Primitives} {lifetimes : Lifetimes} {now : Instant} {draws : Draws}
    {claim : Claim} (hother : owner ≠ other)
    (hkeys : ∀ row ∈ tokensOf other registry,
      row.1 ≠ digest P (tokenText draws.access) ∧ row.1 ≠ digest P (tokenText draws.refresh)) :
    tokensOf other (issue P lifetimes now draws owner claim registry).2 =
      tokensOf other registry := by
  have haccess : ∀ expires, tokensOf other (registry.put (digest P (tokenText draws.access))
      ⟨owner, claim, .access, draws.family, expires⟩) = tokensOf other registry :=
    fun _ => tokensOf_put hother fun row hrow => (hkeys row hrow).1
  unfold issue
  dsimp only
  split
  · rfl
  · split
    · exact haccess _
    · rw [tokensOf_put hother fun row hrow => ?_, haccess]
      rw [haccess] at hrow
      exact (hkeys row hrow).2

/-- Rows that are kept for another reason than the account are those of the account as well. -/
theorem tokensOf_keep {p : Entry → Bool} (h : ∀ row ∈ tokensOf other registry, p row.2 = true) :
    tokensOf other (registry.keep p) = tokensOf other registry := by
  show (registry.keep p).keep _ = _
  rw [keep_comm]
  exact List.filter_eq_self.2 h

theorem tokensOf_revokeOwner (hother : other ≠ owner) :
    tokensOf other (revokeOwner owner registry) = tokensOf other registry :=
  tokensOf_keep fun row hrow => by
    have howner : row.2.owner = other := of_decide_eq_true (List.mem_filter.1 hrow).2
    exact decide_eq_true (howner ▸ hother)

theorem tokensOf_revokeFamily {family : Uuid}
    (hfamily : ∀ row ∈ tokensOf other registry, row.2.family ≠ family) :
    tokensOf other (revokeFamily family registry) = tokensOf other registry :=
  tokensOf_keep fun row hrow => decide_eq_true (hfamily row hrow)

end Session

/-- What the stores have of an account. -/
structure Share where
  part : Ledger.Part
  pending : Option Pending
  image : Option Gallery.Item
  tokens : Session.Registry
  deriving DecidableEq

/-- What the stores have of an account: its rows, what is pending with its image, and its tokens. -/
def State.share (s : State) (owner : Uuid) : Share where
  part := s.ledger.part owner
  pending := s.staging.entries.get? owner
  image := (s.staging.entries.get? owner).bind fun entry => s.staging.gallery.item? entry.image
  tokens := Session.tokensOf owner s.sessions

namespace Staging

variable {owner other : Uuid} {held : Option Pending} {shown : Option Gallery.Item}
  {ahead ahead' : List Arrival} {s t : Staging} {entry : Pending}

/-- An account has an entry and its image in the staging, and no set-up is still to come for it. -/
structure Keeps (other : Uuid) (held : Option Pending) (shown : Option Gallery.Item)
    (ahead : List Arrival) (s : Staging) : Prop where
  tidy : s.Tidy (ahead.map Prod.snd)
  apart : ∀ arrival ∈ ahead, arrival.1 ≠ other
  entry : s.entries.get? other = held
  image : ∀ entry, held = some entry → s.gallery.item? entry.image = shown

namespace Keeps

/-- There may be fewer set-ups still to come. -/
theorem fewer (h : Keeps other held shown ahead s) (hfewer : ahead'.Subperm ahead) :
    Keeps other held shown ahead' s where
  tidy := by
    obtain ⟨l, hperm, hsublist⟩ := hfewer
    exact h.tidy.fewer ⟨_, hperm.map Prod.snd, hsublist.map Prod.snd⟩
  apart arrival harrival := h.apart arrival (hfewer.subset harrival)
  entry := h.entry
  image := h.image

/-- Discarding the entry of another account leaves this one its entry and its image. -/
theorem discard (hother : other ≠ owner) (h : Keeps other held shown ahead s) :
    Keeps other held shown ahead (s.discard owner) := by
  refine ⟨h.tidy.discard owner, h.apart, ?_, fun entry hentry => ?_⟩
  · unfold Staging.discard
    split
    · exact h.entry
    · exact (Table.get?_erase_of_ne _ hother).trans h.entry
  · rw [discard_eq_drop h.tidy.keys, ← h.image entry hentry]
    refine Gallery.item?_sweep (shows_eq_false.2 fun row hrow hkey himage => hother ?_) _
    -- An image is that of one entry.
    have hmem := Table.mem_of_get? (h.entry.trans hentry)
    rw [h.tidy.eq_of_image hrow hmem himage] at hkey
    simpa using hkey

theorem discardIf (hother : other ≠ owner) (id : Uuid) (h : Keeps other held shown ahead s) :
    Keeps other held shown ahead (s.discardIf owner id) := by
  unfold Staging.discardIf
  split
  · exact h.discard hother
  · exact h

section Expiring

variable {lifetime : Int} {now : Instant}

/-- A look at the entry of another account does so too. -/
theorem look (hother : other ≠ owner) (h : Keeps other held shown ahead s) :
    Keeps other held shown ahead (s.look lifetime now owner).2 := by
  unfold Staging.look
  split
  · exact h
  · split
    · exact h
    · exact h.discard hother
    · exact h

/-- So does an amendment of it. -/
theorem amend (hother : other ≠ owner) {f : Pending → Pending}
    (himage : ∀ entry, (f entry).image = entry.image) (h : Keeps other held shown ahead s) :
    Keeps other held shown ahead (s.amend lifetime now owner f).2 := by
  cases hentry : s.entries.get? owner with
  | none =>
    have hlook : s.look lifetime now owner = (.ok none, s) := by
      unfold Staging.look
      rw [hentry]
    unfold Staging.amend
    rw [hlook]
    exact h
  | some entry =>
    rw [amend_of_entry hentry]
    cases isExpired? lifetime now entry with
    | none => exact h
    | some expired => cases expired with
      | true => exact h.discard hother
      | false =>
        exact ⟨h.tidy.put hentry (himage entry), h.apart,
          (Table.get?_put_of_ne _ _ hother).trans h.entry, h.image⟩

end Expiring

/-- A set-up for another account saves its image under a name of its own. -/
theorem enter (h : Keeps other held shown ((owner, entry.image) :: ahead) s) {content : Bytes}
    (henter : s.enter owner entry content = .ok t) : Keeps other held shown ahead t := by
  have hother : other ≠ owner := (h.apart _ List.mem_cons_self).symm
  have htidy := h.tidy.enter henter
  have hrest := h.fewer .cons_self
  unfold Staging.enter at henter
  obtain ⟨gallery, hsave, rfl⟩ := map_eq_ok.1 henter
  have hsaved : Keeps other held shown ahead { s with gallery } := by
    refine ⟨⟨hrest.tidy.keys, hrest.tidy.images⟩, hrest.apart, h.entry, fun found hfound => ?_⟩
    -- The image that is saved has a name of its own.
    have hne : found.image ≠ entry.image :=
      h.tidy.image_ne _ (Table.mem_of_get? (h.entry.trans hfound))
    rw [← h.image found hfound, Gallery.item?_save hsave, if_neg hne]
  have hcleared := hsaved.discard hother
  exact ⟨htidy, hrest.apart, (Table.get?_put_of_ne _ _ hother).trans hcleared.entry,
    hcleared.image⟩

end Keeps

end Staging

/-! ### The likeness of a state with itself -/

namespace Share

/-- A state with itself, as long as an account has what it had. -/
def likeness (share : Share) (owner : Uuid) : Likeness where
  ledger l l' := l = l' ∧ l.part owner = share.part
  staging ahead s s' := s = s' ∧ s.Keeps owner share.pending share.image ahead
  sessions r r' := r = r' ∧ Session.tokensOf owner r = share.tokens

variable {share : Share} {owner other : Uuid} {o : Occasion}

/-- That the share of an account is a given one is a likeness of a state with itself. The general
theorem then says that every call for another account keeps the share. -/
theorem lawful (share : Share) (other : Uuid) : (share.likeness other).Lawful where
  address email := by
    rintro l l' ⟨rfl, hpart⟩
    exact ⟨rfl, rfl, hpart⟩
  fewer := by
    rintro names names' s t hfewer ⟨hsame, hkeeps⟩
    exact ⟨hsame, hkeeps.fewer hfewer⟩
  arrive := by
    rintro owner entry names s t ⟨rfl, hkeeps⟩ content
    cases henter : s.enter owner entry content with
    | error cause => exact .inl ⟨cause, rfl, rfl⟩
    | ok s' => exact .inr ⟨s', s', rfl, rfl, rfl, hkeeps.enter henter⟩

/-- What is done for an account keeps what another one has, if its new tokens have other keys. -/
theorem knows (hother : other ≠ owner) (hkeys : ∀ row ∈ share.tokens,
      row.1 ≠ Session.digest o.deployment.primitives (Session.tokenText o.draws.tokens.access) ∧
      row.1 ≠ Session.digest o.deployment.primitives (Session.tokenText o.draws.tokens.refresh)) :
    (share.likeness other).Knows o owner where
  -- Each step touches the rows of its own account only. That is known of the ledger by locality,
  -- and of the other parts by the lemmas above.
  transact hf := by
    rintro l l' ⟨rfl, hpart⟩
    exact ⟨rfl, rfl, (hf.within.others hother).trans hpart⟩
  contents := by
    rintro l l' ⟨rfl, -⟩
    rfl
  record := by
    rintro l l' ⟨rfl, -⟩
    rfl
  look names := by
    rintro s s' ⟨rfl, hkeeps⟩
    exact ⟨rfl, rfl, hkeeps.look hother⟩
  restage id secret names := by
    rintro s s' ⟨rfl, hkeeps⟩
    exact ⟨rfl, rfl, hkeeps.amend hother fun entry => by split <;> rfl⟩
  discard names := by
    rintro s s' ⟨rfl, hkeeps⟩
    exact ⟨rfl, rfl, hkeeps.discard hother⟩
  discardIf id names := by
    rintro s s' ⟨rfl, hkeeps⟩
    exact ⟨rfl, rfl, hkeeps.discardIf hother id⟩
  read := by
    rintro names s s' entry ⟨rfl, -⟩ - -
    rfl
  issue claim := by
    rintro registry registry' ⟨rfl, htokens⟩
    exact ⟨rfl, rfl, (Session.tokensOf_issue hother.symm (htokens ▸ hkeys)).trans htokens⟩
  revokeOwner := by
    rintro registry registry' ⟨rfl, htokens⟩
    exact ⟨rfl, rfl, (Session.tokensOf_revokeOwner hother).trans htokens⟩

theorem drops {family : Uuid} (hfamily : ∀ row ∈ share.tokens, row.2.family ≠ family) :
    (share.likeness other).Drops family := by
  rintro registry registry' ⟨rfl, htokens⟩
  exact ⟨rfl, rfl, (Session.tokensOf_revokeFamily (htokens ▸ hfamily)).trans htokens⟩

theorem rel_self {ahead : List Arrival} {s : State} (h : s.share owner = share)
    (htidy : s.staging.Tidy ((ahead ++ Mishap.arrivals s.mishaps.queue).map Prod.snd))
    (hapart : ∀ arrival ∈ ahead ++ Mishap.arrivals s.mishaps.queue, arrival.1 ≠ owner) :
    (share.likeness owner).Rel ahead s s := by
  subst h
  refine ⟨rfl, ⟨rfl, rfl⟩, ⟨rfl, htidy, hapart, rfl, fun entry hentry => ?_⟩, rfl, rfl⟩
  show _ = Option.bind _ _
  rw [show s.staging.entries.get? owner = some entry from hentry, Option.bind_some]

/-- The other direction: a likeness with itself that holds at the end says that the share is the one
that it was. -/
theorem eq_of_rel {ahead : List Arrival} {s s' t : State} (h : s.share owner = share)
    (hrel : (share.likeness owner).Rel ahead s' t) : s'.share owner = share := by
  obtain ⟨-, hkeeps⟩ := hrel.staging
  have himage : ((s'.staging.entries.get? owner).bind fun entry =>
      s'.staging.gallery.item? entry.image) = share.image := by
    rw [hkeeps.entry]
    cases hentry : share.pending with
    | some entry => exact hkeeps.image entry hentry
    | none =>
      subst h
      show _ = Option.bind _ _
      rw [show s.staging.entries.get? owner = none from hentry]
      rfl
  unfold State.share
  rw [himage, hkeeps.entry, hrel.ledger.2, hrel.sessions.2]

end Share

/-! ## §2 — states that differ in what they have of an account -/

/-- Two states differ only in what they have of an account besides the account itself: in its second
factor, its codes, what is pending for it, and its tokens. -/
structure State.AlikeBut (other : Uuid) (s s' : State) : Prop where
  accounts : s.ledger.accounts = s'.ledger.accounts
  parts : ∀ owner, owner ≠ other → s.ledger.part owner = s'.ledger.part owner
  staging : s.staging.discard other = s'.staging.discard other
  sessions : Session.revokeOwner other s.sessions = Session.revokeOwner other s'.sessions

/-- The state without what it has of an account besides the account itself. -/
def State.without (s : State) (other : Uuid) : State :=
  { s with
    ledger := { s.ledger.remove other with accounts := s.ledger.accounts }
    staging := s.staging.discard other
    sessions := Session.revokeOwner other s.sessions }

/-- An entry that was discarded is gone. -/
theorem Staging.discard_discard (s : Staging) (owner : Uuid) :
    (s.discard owner).discard owner = s.discard owner := by
  have hnone : (s.discard owner).entries.get? owner = none := by
    unfold discard
    split
    · assumption
    · exact Table.get?_erase_self _ _
  generalize s.discard owner = t at hnone ⊢
  unfold discard
  rw [hnone]

/-- A state differs from the same one without an account in what it has of that account, and in
nothing else. -/
theorem State.alikeBut_without (s : State) (other : Uuid) : s.AlikeBut other (s.without other) where
  accounts := rfl
  parts owner howner := by
    have hpart : (s.ledger.remove other).part owner = s.ledger.part owner :=
      Ledger.remove_within.others howner
    have hwithout : (s.without other).ledger.part owner = s.ledger.part owner :=
      Ledger.part_eq rfl (congrArg Ledger.Part.record hpart) (congrArg Ledger.Part.codes hpart)
    exact hwithout.symm
  staging := (s.staging.discard_discard other).symm
  sessions := by
    unfold without Session.revokeOwner Table.keep
    rw [List.filter_filter]
    exact List.filter_congr fun row _ => (Bool.and_self _).symm

namespace Veil

/-- The veil over what the stores have of an account besides the account itself. -/
def ofAccount (other : Uuid) : Veil where
  ledger l l' := l.accounts = l'.accounts ∧ ∀ owner, owner ≠ other → l.part owner = l'.part owner
  pending row := row.1 == other
  token entry := entry.owner == other

variable {owner other : Uuid}

theorem ofAccount_lawful (other : Uuid) : (ofAccount other).likeness.Lawful := by
  refine lawful fun email l l' h => ⟨?_, h⟩
  show l.accounts.find? _ = l'.accounts.find? _
  rw [h.1]

/-- An operation for another account does not look behind it. -/
theorem ofAccount_knows (o : Occasion) (hother : other ≠ owner) :
    (ofAccount other).likeness.Knows o owner := by
  refine knows (fun {α f} hwithin l l' h => ?_) (fun entry hentry => ?_) fun _ _ => rfl
  · obtain ⟨haccounts, hparts⟩ := h
    have hown := hparts owner hother.symm
    refine ⟨hwithin.answer hown, hwithin.accounts haccounts hown, fun third hthird => ?_⟩
    by_cases hsame : third = owner
    · rw [hsame]
      exact hwithin.own hown
    · rw [hwithin.others hsame, hwithin.others hsame, hparts third hthird]
  · -- The entry of the account itself is not hidden.
    exact absurd (beq_iff_eq.1 hentry).symm hother

theorem unveiled_ofAccount (registry : Session.Registry) :
    Session.unveiled (ofAccount other).token registry = Session.revokeOwner other registry :=
  List.filter_congr fun _ _ => (decide_not ..).symm

end Veil

namespace State.AlikeBut

variable {other : Uuid} {s s' : State} {names : List ImageRef}

/-- The two forms of the difference agree, for the pending secrets and for the tokens. -/
theorem veiled_staging (h : AlikeBut other s s') (hs : s.staging.Tidy names)
    (hs' : s'.staging.Tidy names) :
    Staging.Veiled (Veil.ofAccount other).pending names s.staging s'.staging := by
  refine ⟨?_, hs, hs'⟩
  have hsame := h.staging
  rwa [Staging.discard_eq_drop hs.keys, Staging.discard_eq_drop hs'.keys] at hsame

theorem veiled_sessions (h : AlikeBut other s s') (hs : s.sessions.Keyed)
    (hs' : s'.sessions.Keyed) :
    Session.Veiled (Veil.ofAccount other).token s.sessions s'.sessions :=
  ⟨by rw [Veil.unveiled_ofAccount, Veil.unveiled_ofAccount, h.sessions], hs, hs'⟩

theorem of_rel {ahead : List Arrival} (h : (Veil.ofAccount other).likeness.Rel ahead s s') :
    AlikeBut other s s' where
  accounts := h.ledger.1
  parts := h.ledger.2
  staging := by
    rw [Staging.discard_eq_drop h.staging.left.keys, Staging.discard_eq_drop h.staging.right.keys]
    exact h.staging.same
  sessions := by rw [← Veil.unveiled_ofAccount, ← Veil.unveiled_ofAccount, h.sessions.same]

end State.AlikeBut

end SecondFactor
