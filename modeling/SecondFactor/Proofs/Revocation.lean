import SecondFactor.Proofs.TokenPairs

/-!
# Revoked tokens stay dead

A token that has lost its row would have to be handed out a second time to be of use again, and what
a turn hands out is new. What is left to say is which rows a turn drops, and that the two tokens of
a pair are dropped together.

## The architecture

* **`Turn.Fresh`** — a turn whose tokens and family are new.
* **`entered_of_mem`**, **`alike`**, **`gone_of_revoked`** — the run: each row was entered by one
  turn, the rows of a family are alike, and a family that was ended has no row again.
* **`dead_of_ended`** — so neither token of a pair that was ended is worth anything.
* **`Http.respond_unauthorized`** — a request that needs a session and has none.
* **`revoked_tokens_stay_dead`** — all of it, for every run.
-/

namespace SecondFactor

open Service (Call Reply)

/-! ## §1 — every run

The keys and the family of a turn tell it from all others, so a row belongs to the turn whose key it
has, and the rows of a family to one turn. -/

/-- A turn of a run whose tokens and family are new. Queries may fail, other set-ups may come in
between, any record may be shown, and the clock may be set. -/
structure Turn.Fresh (D : Deployment) (past : History) (t : Turn) : Prop where
  apart : t.key D .access ≠ t.key D .refresh
  keys : past.All fun _ earlier => ∀ key ∈ t.minted D, key ∉ earlier.minted D
  family : past.All fun _ earlier => earlier.draws.tokens.family ≠ t.draws.tokens.family

instance (D : Deployment) (past : History) (t : Turn) : Decidable (t.Fresh D past) :=
  decidable_of_iff (t.key D .access ≠ t.key D .refresh ∧
      (past.All fun _ earlier => ∀ key ∈ t.minted D, key ∉ earlier.minted D) ∧
      past.All fun _ earlier => earlier.draws.tokens.family ≠ t.draws.tokens.family)
    ⟨fun ⟨hapart, hkeys, hfamily⟩ => ⟨hapart, hkeys, hfamily⟩,
      fun ⟨hapart, hkeys, hfamily⟩ => ⟨hapart, hkeys, hfamily⟩⟩

section Runs

variable {D : Deployment} {h : History} {t u : Turn} {row other : Key × Session.Entry}

/-- A row after a pair was issued was there before, or is one of the pair, with its account and its
claim. -/
theorem enters_of_issued {owner : Uuid} {claim : Claim} {registry : Session.Registry}
    (hrow : row ∈ (Service.issued (t.occasion D) owner claim registry).2) :
    row ∈ registry ∨ (t.Enters D row ∧ row.2.owner = owner ∧ row.2.claim = claim) := by
  rcases Session.row_of_issue hrow with hrow | ⟨kind, expires, hexpires, rfl⟩
  · exact .inl hrow
  · exact .inr ⟨⟨rfl, rfl, hexpires⟩, rfl, rfl⟩

/-- After a turn, a row was there before and is not revoked, or it is entered by the turn. This is
all that the run needs to know of the calls. -/
theorem row_cases (D : Deployment) (t : Turn) (s : State) (hrow : row ∈ (t.next D s).sessions) :
    (row ∈ s.sessions ∧ ¬ t.Revokes D s row.2) ∨ t.Enters D row := by
  cases registered D t s with
  | left hrows => exact .inl (hrows row hrow)
  | entered hrows hnext =>
    rw [hnext] at hrow
    exact (enters_of_issued hrow).imp (hrows row) And.left

/-- **Every row was entered by a turn of the run.** Induction on the history. What a row says can
thus be read off the turn that entered it. -/
theorem entered_of_mem (hrow : row ∈ (h.state D).sessions) : h.Any fun _ t => t.Enters D row := by
  induction h with
  | start gallery => cases hrow
  | turn h t ih =>
    rcases row_cases D t (h.state D) hrow with ⟨hbefore, -⟩ | hnew
    · exact .inl (ih hbefore)
    · exact .inr hnew

namespace Turn.Fresh

variable (ht : t.Fresh D h)
include ht

/-- A turn has another family than the rows that it meets, each of which was entered by an earlier
turn. -/
theorem family_ne (hrow : row ∈ (h.state D).sessions) :
    row.2.family ≠ t.draws.tokens.family := by
  intro hsame
  refine ht.family.not_any (fun _ _ hne hearlier => hne ?_) (entered_of_mem hrow)
  exact hearlier.family.symm.trans hsame

theorem keys_ne (hu : h.Holds u) {key : Key} (hkey : key ∈ u.minted D) : key ∉ t.minted D :=
  fun hmine => ht.keys.of_holds hu key hmine hkey

end Turn.Fresh

theorem Turn.Enters.mem_minted (hrow : t.Enters D row) : row.1 ∈ t.minted D :=
  hrow.key ▸ t.key_mem_minted row.2.kind

/-- **A key or a family is that of one turn.** Two turns that share one would have drawn it twice.
Induction on the history. -/
theorem eq_of_shared (hrun : h.All fun past t => t.Fresh D past) (hu : h.Holds u) (ht : h.Holds t)
    (hshared : (∃ key ∈ u.minted D, key ∈ t.minted D) ∨
      u.draws.tokens.family = t.draws.tokens.family) : u = t := by
  induction h with
  | start gallery => cases hu
  | turn h last ih =>
    obtain ⟨hbefore, hlast⟩ := hrun
    rcases hu with hu | rfl
    · rcases ht with ht | rfl
      · exact ih hbefore hu ht
      · rcases hshared with ⟨key, hkey, hmine⟩ | hfamily
        · exact absurd hmine (hlast.keys_ne hu hkey)
        · exact absurd hfamily (hlast.family.of_holds hu)
    · rcases ht with ht | rfl
      · rcases hshared with ⟨key, hmine, hkey⟩ | hfamily
        · exact absurd hmine (hlast.keys_ne ht hkey)
        · exact absurd hfamily.symm (hlast.family.of_holds ht)
      · rfl

theorem enters_of_key (hrun : h.All fun past t => t.Fresh D past) (hu : h.Holds u)
    (hrow : row ∈ (h.state D).sessions) (hkey : row.1 ∈ u.minted D) : u.Enters D row := by
  obtain ⟨t, ht, henters⟩ := (entered_of_mem hrow).holds
  rw [eq_of_shared hrun hu ht (.inl ⟨row.1, hkey, henters.mem_minted⟩)]
  exact henters

theorem enters_of_family (hrun : h.All fun past t => t.Fresh D past) (hu : h.Holds u)
    (hrow : row ∈ (h.state D).sessions) (hfamily : row.2.family = u.draws.tokens.family) :
    u.Enters D row := by
  obtain ⟨t, ht, henters⟩ := (entered_of_mem hrow).holds
  rw [eq_of_shared hrun hu ht (.inr (hfamily.symm.trans henters.family))]
  exact henters

/-- The key of a row tells the kind of its token, so a token is never both. The two tokens of a pair
are drawn apart, and no draw is made twice. -/
theorem kind_of_key (hrun : h.All fun past t => t.Fresh D past) (hu : h.Holds u)
    (hrow : row ∈ (h.state D).sessions) {kind : Session.Kind} (hkey : row.1 = u.key D kind) :
    row.2.kind = kind := by
  have hown := (enters_of_key hrun hu hrow (hkey ▸ u.key_mem_minted kind)).key
  have hapart : u.key D .access ≠ u.key D .refresh :=
    (hrun.imp (q := fun _ t => t.key D .access ≠ t.key D .refresh)
      fun _ _ ht => ht.apart).of_holds hu
  rw [hkey] at hown
  cases kind with
  | access =>
    cases hkind : row.2.kind with
    | access => rfl
    | refresh => exact absurd (hkind ▸ hown) hapart
  | refresh =>
    cases hkind : row.2.kind with
    | access => exact absurd (hkind ▸ hown).symm hapart
    | refresh => rfl

/-- **The rows of a family are alike.** Induction on the history: a pair has one account and one
claim, and its family is new. -/
theorem alike (hrun : h.All fun past t => t.Fresh D past) (hrow : row ∈ (h.state D).sessions)
    (hother : other ∈ (h.state D).sessions) (hfamily : row.2.family = other.2.family) :
    row.2.owner = other.2.owner ∧ row.2.claim = other.2.claim := by
  induction h with
  | start gallery => cases hrow
  | turn h t ih =>
    obtain ⟨hbefore, ht⟩ := hrun
    change row ∈ (t.next D (h.state D)).sessions at hrow
    change other ∈ (t.next D (h.state D)).sessions at hother
    cases registered D t (h.state D) with
    | left hrows => exact ih hbefore (hrows row hrow).1 (hrows other hother).1
    | entered hrows hnext =>
      rw [hnext] at hrow hother
      rcases enters_of_issued hrow with hrow | ⟨hnew, howner, hclaim⟩
      · have hold := (hrows row hrow).1
        rcases enters_of_issued hother with hother | ⟨hnew, -, -⟩
        · exact ih hbefore hold (hrows other hother).1
        · exact absurd (hfamily.trans hnew.family) (ht.family_ne hold)
      · rcases enters_of_issued hother with hother | ⟨-, howner', hclaim'⟩
        · have hold := (hrows other hother).1
          exact absurd (hfamily.symm.trans hnew.family) (ht.family_ne hold)
        · exact ⟨howner.trans howner'.symm, hclaim.trans hclaim'.symm⟩

/-- **A family that was revoked has no row, now or later.** A turn enters rows of its own family
only, and that is new. Induction on the history. -/
theorem gone_of_revoked (hrun : h.All fun past t => t.Fresh D past) {family : Uuid}
    (hrevoked : h.Any fun past t => t.RevokesPair D (past.state D) family) :
    (h.Any fun _ t => t.draws.tokens.family = family) ∧
      ∀ row ∈ (h.state D).sessions, row.2.family ≠ family := by
  induction h with
  | start gallery => cases hrevoked
  | turn h t ih =>
    obtain ⟨hbefore, ht⟩ := hrun
    -- Whatever the turn enters has another family than what was there before.
    have hnew : (h.Any fun _ u => u.draws.tokens.family = family) →
        ∀ row, t.Enters D row → row.2.family ≠ family := by
      rintro hearlier row henters rfl
      exact ht.family.not_any (fun _ _ hne heq => hne (heq.trans henters.family)) hearlier
    rcases hrevoked with hrevoked | ⟨found, hfound, rfl, hrevokes⟩
    · obtain ⟨hearlier, hgone⟩ := ih hbefore hrevoked
      refine ⟨.inl hearlier, fun row hrow => ?_⟩
      rcases row_cases D t (h.state D) hrow with ⟨hrow, -⟩ | henters
      · exact hgone row hrow
      · exact hnew hearlier row henters
    · have hearlier : h.Any fun _ u => u.draws.tokens.family = found.2.family :=
        (entered_of_mem hfound).mono fun _ _ henters => henters.family.symm
      refine ⟨.inl hearlier, fun row hrow => ?_⟩
      rcases row_cases D t (h.state D) hrow with ⟨hrow, hkept⟩ | henters
      · -- The other token of the pair is revoked as well.
        intro hsame
        exact hkept (hrevokes.congr (alike hbefore hrow hfound hsame).1 hsame)
      · exact hnew hearlier row henters

/-- **Both tokens of a pair are dead** once the pair was revoked, and each once it has expired.
Nothing that happens afterwards brings them back. -/
theorem dead_of_ended (hrun : h.All fun past t => t.Fresh D past) (hu : h.Holds u)
    {kind : Session.Kind} {now : Instant}
    (hended : (h.Any fun past t => t.RevokesPair D (past.state D) u.draws.tokens.family) ∨
      u.Outlived D kind now) (entry : Session.Entry)
    (hrow : (u.key D kind, entry) ∈ (h.state D).sessions) : entry.expires ≤ now := by
  have henters : u.Enters D (u.key D kind, entry) :=
    enters_of_key hrun hu hrow (u.key_mem_minted kind)
  rcases hended with hrevoked | ⟨expires, hlasts, hpast⟩
  · exact absurd henters.family ((gone_of_revoked hrun hrevoked).2 _ hrow)
  · -- The row expires when its token does.
    have hkind : entry.kind = kind := kind_of_key hrun hu hrow rfl
    have hexpires := henters.expires
    rw [hkind, hlasts] at hexpires
    rw [← Option.some.inj hexpires]
    exact hpast

/-- A refresh token that is taken belongs to a pair that is revoked then. So it is taken once, and a
copy of it is worth nothing afterwards. -/
theorem revokes_of_redeems (ht : t.Fresh D h) {token : String}
    (hredeems : t.Redeems D (h.state D) token) :
    ∃ entry, (Session.digest D.primitives token, entry) ∈ (h.state D).sessions ∧
      entry.kind = .refresh ∧ t.Revokes D (h.state D) entry := by
  obtain ⟨hcall, hsome⟩ := hredeems
  obtain ⟨found, hfound⟩ := Option.isSome_iff_exists.1 hsome
  have hrow := Session.mem_of_find? hfound
  refine ⟨found, hrow, Session.kind_of_find? hfound, _, hcall, ⟨found, hfound, rfl⟩, ?_⟩
  obtain ⟨hout, hnext⟩ := Turn.ends_of_refresh hcall
  rw [Session.refresh_of_found hfound] at hout hnext
  obtain ⟨issued, hissued⟩ : ∃ issued, issued = Service.issued (t.occasion D) found.owner
    found.claim (Session.revokeFamily found.family (h.state D).sessions) := ⟨_, rfl⟩
  have hsessions : (t.next D (h.state D)).sessions = issued.2 :=
    (congrArg State.sessions hnext).trans (congrArg Prod.snd hissued.symm)
  replace hout : t.outcome D (h.state D) = some (issued.1.map .tokens) := by
    rw [hissued]
    exact hout
  cases hresult : issued.1 with
  | ok tokens =>
    rw [hresult] at hout
    exact .inl ⟨_, hout⟩
  | error failure =>
    -- The new pair lasts too long, but the row that was presented is gone.
    rw [hresult, Session.crash_of_issue ((congrArg Prod.fst hissued.symm).trans hresult)] at hout
    refine .inr ⟨hout, fun hsame => ?_⟩
    rw [← hsame, hsessions, hissued] at hrow
    rcases enters_of_issued hrow with hleft | ⟨hnew, -, -⟩
    · exact (Session.mem_revokeFamily.1 hleft).2 rfl
    · exact ht.family_ne (Session.mem_of_find? hfound) hnew.family

/-- The pair of a refresh token that was taken at some time was revoked then. Induction on the
history. -/
theorem revoked_of_redeemed (hrun : h.All fun past t => t.Fresh D past) {token : String}
    (hredeemed : h.Any fun past t => t.Redeems D (past.state D) token) :
    ∃ u, h.Holds u ∧ Session.digest D.primitives token = u.key D .refresh ∧
      h.Any fun past t => t.RevokesPair D (past.state D) u.draws.tokens.family := by
  induction h with
  | start gallery => cases hredeemed
  | turn h t ih =>
    obtain ⟨hbefore, ht⟩ := hrun
    rcases hredeemed with hredeemed | hredeems
    · obtain ⟨u, hu, hkey, hrevoked⟩ := ih hbefore hredeemed
      exact ⟨u, .inl hu, hkey, .inl hrevoked⟩
    · obtain ⟨entry, hrow, hkind, hrevokes⟩ := revokes_of_redeems ht hredeems
      obtain ⟨u, hu, henters⟩ := (entered_of_mem hrow).holds
      refine ⟨u, .inl hu, ?_, .inr ⟨_, hrow, henters.family, hrevokes⟩⟩
      have hkey := henters.key
      rwa [hkind] at hkey

/-- The pair that a refresh hands out has the account and the claim of the token presented. -/
theorem passed_of_refresh (ht : t.Fresh D h) {token : String} {reply : Reply}
    (hcall : t.call? D (h.state D) = some (.refresh token))
    (hout : t.outcome D (h.state D) = some (.ok reply)) :
    ∃ entry tokens, Session.find? D.primitives .refresh t.now token (h.state D).sessions =
        some entry ∧ reply = .tokens tokens ∧ tokens.claim = entry.claim ∧
      (∃ row, (t.next D (h.state D)).sessions.get? (Session.digest D.primitives tokens.access) =
        some row ∧ row.kind = .access ∧ row.owner = entry.owner ∧ row.claim = entry.claim) ∧
      ∃ row, (t.next D (h.state D)).sessions.get? (Session.digest D.primitives tokens.refresh) =
        some row ∧ row.kind = .refresh ∧ row.owner = entry.owner ∧ row.claim = entry.claim := by
  obtain ⟨hr, hnext⟩ := Turn.ends_of_refresh hcall
  cases hfound : Session.find? D.primitives .refresh t.now token (h.state D).sessions with
  | none =>
    rw [Session.refresh_of_none hfound] at hr
    cases hout.symm.trans hr
  | some entry =>
    rw [Session.refresh_of_found hfound] at hr hnext
    rw [hout, Option.some.injEq] at hr
    obtain ⟨tokens, htokens, rfl⟩ := map_eq_ok.1 hr.symm
    obtain ⟨hclaim, expires, expires', hrows⟩ := Session.issue_eq_ok htokens
    obtain ⟨haccess, hrefresh⟩ := Session.texts_of_issue htokens
    -- The second token of the pair does not take the place of the first.
    have hne : Session.digest D.primitives tokens.access ≠
        Session.digest D.primitives tokens.refresh := by
      rw [haccess, hrefresh]
      exact ht.apart
    refine ⟨entry, tokens, rfl, rfl, hclaim, ?_, ?_⟩
    · rw [hnext, hrows]
      refine ⟨⟨entry.owner, entry.claim, .access, t.draws.tokens.family, expires⟩, ?_, rfl, rfl,
        rfl⟩
      show Table.get? (Table.put _ _ _) _ = _
      rw [Table.get?_put_of_ne _ _ hne, Table.get?_put_self]
    · rw [hnext, hrows]
      exact ⟨⟨entry.owner, entry.claim, .refresh, t.draws.tokens.family, expires'⟩,
        Table.get?_put_self _ _ _, rfl, rfl, rfl⟩

/-- The rows of the family of a session are those of one pair, to which its token belongs. -/
theorem pair_of_session (hrun : h.All fun past t => t.Fresh D past) {now : Instant} {token : String}
    {session : Session}
    (hauth : Session.authenticate? D.primitives now token (h.state D).sessions = some session) :
    ∃ u, h.Holds u ∧ Session.digest D.primitives token = u.key D .access ∧
      ∀ row ∈ (h.state D).sessions, (row.2.family = session.family ↔ row.1 ∈ u.minted D) ∧
        (row.2.family = session.family →
          row.2.owner = session.owner ∧ row.2.claim = session.claim) := by
  obtain ⟨entry, hfound, rfl⟩ := Option.map_eq_some_iff.1 hauth
  have hrow := Session.mem_of_find? hfound
  obtain ⟨u, hu, henters⟩ := (entered_of_mem hrow).holds
  refine ⟨u, hu, ?_, fun row hother => ⟨⟨fun hsame => ?_, fun hkey => ?_⟩, fun hsame => ?_⟩⟩
  · have hkey := henters.key
    rwa [Session.kind_of_find? hfound] at hkey
  · exact (enters_of_family hrun hu hother (hsame.trans henters.family)).mem_minted
  · exact (enters_of_key hrun hu hother hkey).family.trans henters.family.symm
  · exact alike hrun hother hrow hsame

end Runs

/-! ## §2 — requests without a session -/

/-- **A request that needs a session and has none** is answered so, and does nothing. The form is
not looked at, so that it cannot tell anything either. -/
theorem Http.respond_unauthorized {o : Occasion} {s : State} {r : Request} {endpoint : Endpoint}
    {call : Session → Except Refusal Call} (hendpoint : Endpoint.ofTarget? r.target = some endpoint)
    (hmethod : endpoint.verb.methods.contains r.method = true)
    (hdemand : endpoint.demand r o.deployment.policy.digits = .member call)
    (hbearer : bearer? o s r = none) :
    ∃ response, (respond o r).run s = (some response, s) ∧ response.status = 401 := by
  have hsatisfy : (satisfy o r (.member call)).exec s = (.error (.refused .unauthorized), s) := by
    rw [satisfy_member, hbearer]
  have hrespond : (respond o r).run s = (if r.method = "HEAD"
      then (settle o ((satisfy o r (.member call)).exec s).1).map .stripped
      else settle o ((satisfy o r (.member call)).exec s).1,
      ((satisfy o r (.member call)).exec s).2) := by
    unfold respond
    rw [hendpoint]
    simp only [hmethod, if_true, hdemand]
    rfl
  rw [hrespond, hsatisfy]
  by_cases hhead : r.method = "HEAD"
  · rw [if_pos hhead]
    exact ⟨_, rfl, rfl⟩
  · rw [if_neg hhead]
    exact ⟨_, rfl, rfl⟩

/-! ## §3 — revoked tokens stay dead -/

/-- **Revoked tokens stay dead.** In every run whose tokens and families are new, nothing is to be
had for a token whose pair was revoked, or that has expired, whatever happened since; a refresh
token is taken once; a token is of one kind; and the pair that a refresh hands out is that of the
token presented. The two tokens of a pair are alike, and the family of a session is that of one
pair. A request that needs a session, and presents nothing that is an access token in use, is
answered that it is not let in, and nothing changes. -/
theorem revoked_tokens_stay_dead {D : Deployment} {h : History}
    (hrun : h.All fun past t => t.Fresh D past) :
    (∀ u kind, h.Holds u → ∀ t : Turn,
      (h.Any fun past t => t.RevokesPair D (past.state D) u.draws.tokens.family) ∨
        (∃ now, now ≤ t.now ∧ u.Outlived D kind now) →
      t.Denies D (h.state D) (u.key D kind)) ∧
    (∀ token, (h.Any fun past t => t.Redeems D (past.state D) token) → ∀ t : Turn,
      t.Denies D (h.state D) (Session.digest D.primitives token)) ∧
    (∀ u kind other, h.Holds u → other ≠ kind → ∀ token now,
      Session.digest D.primitives token = u.key D kind →
        Session.find? D.primitives other now token (h.state D).sessions = none) ∧
    (∀ t : Turn, t.Fresh D h → ∀ token reply, t.call? D (h.state D) = some (.refresh token) →
      t.outcome D (h.state D) = some (.ok reply) →
      ∃ entry tokens, Session.find? D.primitives .refresh t.now token (h.state D).sessions =
          some entry ∧ reply = .tokens tokens ∧ tokens.claim = entry.claim ∧
        (∃ row, (t.next D (h.state D)).sessions.get? (Session.digest D.primitives tokens.access) =
          some row ∧ row.kind = .access ∧ row.owner = entry.owner ∧ row.claim = entry.claim) ∧
        ∃ row, (t.next D (h.state D)).sessions.get? (Session.digest D.primitives tokens.refresh) =
          some row ∧ row.kind = .refresh ∧ row.owner = entry.owner ∧ row.claim = entry.claim) ∧
    (∀ row ∈ (h.state D).sessions, ∀ other ∈ (h.state D).sessions,
      row.2.family = other.2.family → row.2.owner = other.2.owner ∧ row.2.claim = other.2.claim) ∧
    (∀ now token session,
      Session.authenticate? D.primitives now token (h.state D).sessions = some session →
      ∃ u, h.Holds u ∧ Session.digest D.primitives token = u.key D .access ∧
        ∀ row ∈ (h.state D).sessions,
          (row ∉ Session.revokeFamily session.family (h.state D).sessions ↔
            row.1 ∈ u.minted D) ∧
          (row ∉ Session.revokeFamily session.family (h.state D).sessions →
            row.2.owner = session.owner ∧ row.2.claim = session.claim)) ∧
    ∀ (o : Occasion) (s : State) (r : Http.Request) (endpoint : Http.Endpoint)
      (call : Session → Except Http.Refusal Call),
      Http.Endpoint.ofTarget? r.target = some endpoint →
      endpoint.verb.methods.contains r.method = true →
      endpoint.demand r o.deployment.policy.digits = .member call →
      (∀ token, r.token? = some token →
        Session.find? o.deployment.primitives .access o.now token s.sessions = none) →
      ∃ response, (Http.respond o r).run s = (some response, s) ∧ response.status = 401 := by
  refine ⟨?_, ?_, ?_, ?_, ?_, ?_, ?_⟩
  · intro u kind hu t hended
    refine .of_expired (dead_of_ended hrun hu (hended.imp_right ?_))
    rintro ⟨now, hnow, expires, hlasts, hpast⟩
    exact ⟨expires, hlasts, Int.le_trans hpast hnow⟩
  · intro token hredeemed t
    obtain ⟨u, hu, hkey, hrevoked⟩ := revoked_of_redeemed hrun hredeemed
    rw [hkey]
    exact .of_expired (dead_of_ended hrun hu (.inl hrevoked))
  · intro u kind other hu hne token now hkey
    cases hfound : Session.find? D.primitives other now token (h.state D).sessions with
    | none => rfl
    | some entry =>
      have hkind := kind_of_key hrun hu (Session.mem_of_find? hfound) hkey
      exact absurd ((Session.kind_of_find? hfound).symm.trans hkind) hne
  · exact fun t ht token reply => passed_of_refresh ht
  · exact fun row hrow other hother => alike hrun hrow hother
  · intro now token session hauth
    obtain ⟨u, hu, hkey, hrows⟩ := pair_of_session hrun hauth
    refine ⟨u, hu, hkey, fun row hrow => ?_⟩
    -- A row is dropped with the family of the session exactly if it is of that family.
    have hdropped : row ∉ Session.revokeFamily session.family (h.state D).sessions ↔
        row.2.family = session.family := by
      rw [Session.mem_revokeFamily, not_and, not_not]
      exact ⟨fun himp => himp hrow, fun hsame _ => hsame⟩
    rw [hdropped]
    exact hrows row hrow
  · intro o s r endpoint call hendpoint hmethod hdemand hnone
    refine Http.respond_unauthorized hendpoint hmethod hdemand ?_
    rw [Http.bearer?, Option.bind_eq_none_iff]
    intro token htoken
    rw [Session.authenticate?, hnone token htoken, Option.map_none]

/-! A run in which the second factor is turned on, which ends the session of the login, and the new
session is renewed. -/

/-- The request for a new pair, by the refresh token of an earlier step. -/
def Turn.refreshing (step earlier : UInt8) : Turn :=
  .posting step "/api/token/refresh" none ("\x7b\"refresh_token\":\"" ++
    Session.tokenText (Draws.ofByte earlier).tokens.refresh ++ "\"\x7d")

/-- The run. -/
def History.refreshing : History := .turn .enrolling (.refreshing 5 4)

/-- The login of the run, and the activation. -/
def Turn.loggingIn : Turn :=
  .posting 2 "/api/login" none "\x7b\"email\":\"a@b.c\",\"password\":\"password\"\x7d"

theorem revoked_tokens_stay_dead_refreshing :
    ((Turn.refreshing 5 4).Redeems .transparent (History.enrolling.state .transparent)
        (Session.tokenText (Draws.ofByte 4).tokens.refresh) ∧
      ∀ t : Turn, t.Denies .transparent (History.refreshing.state .transparent)
        (Session.digest .transparent (Session.tokenText (Draws.ofByte 4).tokens.refresh))) ∧
    (History.refreshing.Any fun past t =>
      t.RevokesPair .transparent (past.state .transparent) (.ofByte 2)) ∧
    ∀ t : Turn, t.Denies .transparent (History.refreshing.state .transparent)
      (Turn.loggingIn.key .transparent .access) := by
  have hrun : History.refreshing.All fun past t => t.Fresh .transparent past := by decide +kernel
  have hredeems : (Turn.refreshing 5 4).call? .transparent (History.enrolling.state .transparent) =
        some (.refresh (Session.tokenText (Draws.ofByte 4).tokens.refresh)) ∧
      (Session.find? .transparent .refresh (Turn.refreshing 5 4).now
        (Session.tokenText (Draws.ofByte 4).tokens.refresh)
        (History.enrolling.state .transparent).sessions).isSome = true := by
    decide +kernel
  obtain ⟨past, t, henrolling, ⟨row, hrow, hfamily, howner⟩, hcall, hanswers⟩ :
      ∃ past t, History.enrolling = .turn past t ∧
        (∃ row ∈ (past.state .transparent).sessions,
          row.2.family = .ofByte 2 ∧ row.2.owner = .ofByte 1) ∧
        t.call? .transparent (past.state .transparent) =
          some (.activate ⟨.ofByte 1, .empty, .ofByte 2⟩ "000004") ∧
        t.answers .transparent (past.state .transparent) :=
    ⟨_, _, rfl, by decide +kernel⟩
  -- The activation ends the session from which it was asked for.
  have hrevoked : History.refreshing.Any fun past t =>
      t.RevokesPair .transparent (past.state .transparent) (.ofByte 2) := by
    refine .inl ?_
    rw [henrolling]
    exact .inr ⟨row, hrow, hfamily, _, hcall, howner, .inl hanswers⟩
  obtain ⟨hdead, honce, -⟩ := revoked_tokens_stay_dead (D := .transparent) hrun
  refine ⟨⟨hredeems, honce _ (.inr hredeems)⟩, hrevoked, fun t => ?_⟩
  exact hdead .loggingIn .access (.inl (.inl (.inl (.inr rfl)))) t (.inl hrevoked)

end SecondFactor
