import NbeAdvisor.EmailLinks

/-!
# What a link is good for

A confirmation that has passed its check rests on one request that minted a link of its kind for the
user, in time, and while the user had the state that the check has read. No other request has
redeemed the link, and it was mailed to nobody but the address of the user. If nobody comes by a
ticket but by a mail, then it was mailed there (`link_rests_on_mail`). As long as every profile edit
saves over the password that it has read, a reset that is saved ends all links for a reset that were
on their way before (`reset_voids_links`). A profile edit saves all the columns of its copy, so one
that has read the user before the reset brings the old password back (`staleEdit_undoes_reset`).

An export of the data of a user with a password goes to an address that was verified: a link for the
verification of that account was redeemed, which was mailed to this address and to no other
(`export_rests_on_verification`).

`Honest` is what each request knows by itself, `Tickets.Desk.Accounted` what the tickets say of two
requests, and `LinksHold` what the copies and the rows of one user have in common.
-/

namespace NbeAdvisor

open Interleave

variable {T : Type*}

/-! ## What a request knows by itself -/

/-- What the request knows belongs together. -/
structure LinkView.Honest (maker : TokenMaker T) (v : LinkView T) : Prop where
  token : ∀ kind u token, v.token = some (kind, u, token) →
    v.copies = [u] ∧ ∃ madeAt, token = maker.makeToken kind u madeAt
  minted : ∀ kind u token ticket, v.minted = some (kind, u, token, ticket) →
    v.token = some (kind, u, token)
  passed : ∀ kind x u, v.passed = some (kind, x, u) → u ∈ v.copies ∧ u.id = x.1 ∧
    (∃ ticket, v.redeemed = some (ticket, x)) ∧ ∃ now, maker.accepts kind u x.2 now = true
  saved : ∀ y, v.saved = some y → v.passed = some y
  exported : ∀ caller u w, v.exported = some (caller, u, w) → u ∈ v.copies ∧ u.id = caller ∧
    (u.emailVerified ∨ ¬u.hasUsablePassword) ∧ ∀ w' ∈ w, w' ∈ v.copies ∧ w'.id = caller

theorem LinkView.honest_empty (maker : TokenMaker T) : ({} : LinkView T).Honest maker :=
  ⟨by simp, by simp, by simp, by simp, by simp⟩

theorem LinkTask.Begins.view {t : LinkTask T} (h : t.Begins) : t.view = {} := by
  cases t with
  | signup body t | verificationRequest caller t | resetRequest email t =>
    obtain rfl : t = .starting := h
    rfl
  | verificationConfirm ticket t | resetConfirm ticket t =>
    obtain rfl : t = .redeeming := h
    rfl
  | bankSignup body a => rfl
  | profilePatch caller body t =>
    obtain rfl : t = .authenticating := h
    rfl
  | accountDelete caller t => rfl
  | dataExport caller t =>
    obtain rfl : t = .authenticating := h
    rfl

section Steps

variable {maker : TokenMaker T} {s s' : LinkStore T} {r : LinkHeard} {t t' : LinkTask T}

theorem LinkTask.Moves.honest (hm : Moves maker s r t s' t') (h : t.view.Honest maker) :
    t'.view.Honest maker := by
  cases hm with
  | quiet hview | sends hminted hview | misses ticket hview | deletes caller hview =>
    rw [hview]
    exact h
  | resets hpassed hview | verifies hpassed hview =>
    rw [hview]
    refine ⟨h.token, h.minted, h.passed, fun y hy => ?_, h.exported⟩
    cases hy
    exact hpassed
  | creates hblank hview =>
    rcases hview with hview | hview <;>
    · rw [hview]
      exact ⟨by simp, by simp, by simp, by simp, by simp⟩
  | reads hblank hu hview =>
    rw [hview]
    exact ⟨by simp, by simp, by simp, by simp, by simp⟩
  | makes hview hview' =>
    rw [hview']
    refine ⟨fun kind u token htoken => ?_, by simp, by simp, by simp, by simp⟩
    cases htoken
    exact ⟨rfl, r.now, rfl⟩
  | mints hview hview' =>
    have htoken := h.token
    rw [hview] at htoken
    rw [hview']
    refine ⟨htoken, fun kind u token ticket hminted => ?_, by simp, by simp, by simp⟩
    cases hminted
    rfl
  | redeems hblank hpresents hx hview =>
    rw [hview]
    exact ⟨by simp, by simp, by simp, by simp, by simp⟩
  | @checks t t' kind ticket x u hview hu hid haccepts hview' =>
    rw [hview']
    refine ⟨by simp, by simp, fun kind x u hpassed => ?_, by simp, by simp⟩
    cases hpassed
    exact ⟨List.mem_cons_self, hid, ⟨ticket, rfl⟩, r.now, haccepts⟩
  | edits hs => exact ⟨h.token, h.minted, h.passed, h.saved, h.exported⟩
  | exports hu hid hallowed =>
    refine ⟨by simp [LinkTask.view], by simp [LinkTask.view], by simp [LinkTask.view],
      by simp [LinkTask.view], fun caller u w hexported => ?_⟩
    cases hexported
    exact ⟨List.mem_cons_self, hid, hallowed, by simp⟩
  | @mails caller u w hw hid =>
    obtain ⟨-, hu, hallowed, -⟩ := h.exported caller u none rfl
    refine ⟨by simp [LinkTask.view], by simp [LinkTask.view], by simp [LinkTask.view],
      by simp [LinkTask.view], fun caller u w hexported => ?_⟩
    cases hexported
    refine ⟨List.mem_cons_self, hu, hallowed, ?_⟩
    rintro w ⟨rfl⟩
    exact ⟨List.mem_cons_of_mem _ List.mem_cons_self, hid⟩

end Steps

/-! ## Tickets -/

/-- The tickets of the links, for the rules on values that are taken once. -/
def linkDesk (T : Type*) : Tickets.Desk String (Uuid × T) (LinkStore T) (LinkTask T) where
  entries := LinkStore.tickets
  minted t := t.view.minted.map fun x => (x.2.2.2, x.2.1.id, x.2.2.1)
  redeemed t := t.view.redeemed

/-- Every user that is in the table or known to a request. -/
def linkCopies (p : Pool (LinkStore T) (LinkTask T)) : List AppUser :=
  p.store.users ++ p.threads.flatMap fun t => t.view.copies

/-- What the generators make for the step is new : the ticket, the password with its salt, and the
primary key. -/
def NewLinks (p : Pool (LinkStore T) (LinkTask T)) : Action (LinkTask T) LinkHeard → Prop
  | .arrive _ => True
  | .run _ r => (∀ t ∈ p.threads, t.view.minted.map (fun x => x.2.2.2) ≠ some r.generated) ∧
    ∀ c ∈ linkCopies p, c.id ≠ r.id ∧ c.password.text ≠ r.generated

instance (p : Pool (LinkStore T) (LinkTask T)) : (a : Action (LinkTask T) LinkHeard) →
    Decidable (NewLinks p a)
  | .arrive _ => .isTrue trivial
  | .run _ _ => inferInstanceAs (Decidable (_ ∧ _))

section Server

variable {maker : TokenMaker T} {p q : Pool (LinkStore T) (LinkTask T)}
  {a : Action (LinkTask T) LinkHeard}

theorem linkServer_next (hn : (linkServer maker).Next p a q) :
    (∃ t : LinkTask T, t.Begins ∧ q = ⟨p.store, p.threads ++ [t]⟩) ∨
    ∃ (i : ℕ) (r : LinkHeard) (t t' : LinkTask T) (s' : LinkStore T), a = .run i r ∧
      p.threads[i]? = some t ∧ LinkTask.Moves maker p.store r t s' t' ∧
      q = ⟨s', p.threads.set i t'⟩ := by
  cases hn with
  | @arrive t ht => exact Or.inl ⟨t, ht, rfl⟩
  | @run i r t t' s' new hi hs =>
    obtain ⟨⟨s', t'⟩, hstep, heq⟩ := Option.map_eq_some_iff.1 hs
    cases heq
    exact Or.inr ⟨i, r, t, t', s', rfl, hi, LinkTask.step_moves hstep, by simp⟩

theorem LinkTask.Moves.uses {r : LinkHeard} {t t' : LinkTask T} {s' : LinkStore T}
    (hm : Moves maker p.store r t s' t')
    (hnew : ∀ u ∈ p.threads, u.view.minted.map (fun x => x.2.2.2) ≠ some r.generated) :
    (linkDesk T).Uses p t s' t' := by
  have hkeep : t'.view.minted = t.view.minted → t'.view.redeemed = t.view.redeemed →
      s'.tickets = p.store.tickets → (linkDesk T).Uses p t s' t' := by
    intro hminted hredeemed htickets
    refine .keeps ?_ (by simp [linkDesk, hminted]) hredeemed
    show s'.tickets ⊆ p.store.tickets
    rw [htickets]
    exact List.Subset.refl _
  cases hm with
  | quiet hview => exact hkeep (by rw [hview]) (by rw [hview]) rfl
  | creates hblank hview hid hpassword hverified hs =>
    rcases hview with hview | hview <;>
    · exact hkeep (by rw [hview, hblank]) (by rw [hview, hblank]) (by rw [insert_eq_some hs])
  | reads hblank hu hview => exact hkeep (by rw [hview, hblank]) (by rw [hview, hblank]) rfl
  | makes hview hview' => exact hkeep (by rw [hview, hview']) (by rw [hview, hview']) rfl
  | @mints t t' kind u token hview hview' =>
    refine .mints r.generated (u.id, token) (r.now + passwordResetTimeout * 10 ^ 6)
      (fun w hw v hv => ?_) (by simp [linkDesk, hview]) (by simp [linkDesk, hview'])
      (by simp [linkDesk, hview, hview']) rfl
    obtain ⟨x, hx, heq⟩ := Option.map_eq_some_iff.1 hv
    exact hnew w hw (by rw [hx, Option.map_some, ← (Prod.mk.inj heq).1])
  | sends hminted hview => exact hkeep (by rw [hview]) (by rw [hview]) rfl
  | misses ticket hview =>
    exact .keeps (List.filter_subset_self _) (by simp [linkDesk, hview])
      (by simp [linkDesk, hview])
  | @redeems t t' ticket x hblank hpresents hx hview =>
    exact .redeems r.now ticket x (by simp [linkDesk, hblank]) (by simp [linkDesk, hview])
      (by simp [linkDesk, hblank, hview]) hx rfl
  | checks hview hu hid haccepts hview' =>
    exact hkeep (by rw [hview, hview']) (by rw [hview, hview']) rfl
  | resets hpassed hview hs | verifies hpassed hview hs =>
    exact hkeep (by rw [hview]) (by rw [hview]) (by rw [update_eq_some hs])
  | edits hs => exact hkeep rfl rfl (by rw [save_eq_some hs])
  | deletes caller hview => exact hkeep (by rw [hview]) (by rw [hview]) rfl
  | exports hu hid hallowed => exact hkeep rfl rfl rfl
  | mails hw hid => exact hkeep rfl rfl rfl

/-! ## Rows and copies of one user -/

/-- The user was verified at the start, or a request has saved that they are. -/
def VerifiedSince (users : List AppUser) (p : Pool (LinkStore T) (LinkTask T)) (id : Uuid) : Prop :=
  (∃ u ∈ users, u.id = id ∧ u.emailVerified) ∨
    ∃ t ∈ p.threads, ∃ x u, t.view.saved = some (.verification, x, u) ∧ u.id = id

/-- What the requests know belongs together, also with the tickets that are kept, and the mails have
gone to the address of the copy for which the link was minted. The rows and copies of one user have
one email, and are verified only after a save. -/
structure LinksHold (maker : TokenMaker T) (users : List AppUser)
    (p : Pool (LinkStore T) (LinkTask T)) : Prop where
  honest : ∀ t ∈ p.threads, t.view.Honest maker
  accounted : (linkDesk T).Accounted p
  addressed : ∀ m ∈ p.store.outbox, ∃ t ∈ p.threads, ∃ kind u token,
    t.view.minted = some (kind, u, token, m.ticket) ∧ m.recipient = u.email
  emails : ∀ c ∈ linkCopies p, ∀ c' ∈ linkCopies p, c.id = c'.id → c.email = c'.email
  verified : ∀ c ∈ linkCopies p, c.emailVerified → VerifiedSince users p c.id

theorem mem_linkCopies_of_view {t : LinkTask T} {c : AppUser} (ht : t ∈ p.threads)
    (hc : c ∈ t.view.copies) : c ∈ linkCopies p :=
  List.mem_append_right _ (List.mem_flatMap.2 ⟨t, ht, hc⟩)

theorem mem_linkCopies_set {ts : List (LinkTask T)} {s' : LinkStore T} {i : ℕ} {t' : LinkTask T}
    {c : AppUser} (h : c ∈ linkCopies ⟨s', ts.set i t'⟩) :
    (c ∈ s'.users ∨ c ∈ t'.view.copies) ∨ ∃ u ∈ ts, c ∈ u.view.copies := by
  rcases List.mem_append.1 h with h | h
  · exact Or.inl (Or.inl h)
  · obtain ⟨u, hu, hc⟩ := List.mem_flatMap.1 h
    rcases List.mem_or_eq_of_mem_set hu with hu | rfl
    · exact Or.inr ⟨u, hu, hc⟩
    · exact Or.inl (Or.inr hc)

/-- A row or a copy after a step is one of before, up to the columns that the step has written, or
the user that it has created. -/
theorem LinkTask.Moves.copies_from {r : LinkHeard} {t t' : LinkTask T} {s' : LinkStore T} {i : ℕ}
    (hm : Moves maker p.store r t s' t') (hi : p.threads[i]? = some t) :
    ∃ new : Option AppUser, ∀ c' ∈ linkCopies ⟨s', p.threads.set i t'⟩,
      (∃ c ∈ linkCopies p, c'.id = c.id ∧ c'.email = c.email ∧
        (c'.emailVerified → c.emailVerified ∨
          ∃ x u, t'.view.saved = some (.verification, x, u) ∧ u.id = c.id)) ∨
      (new = some c' ∧ c'.id = r.id ∧ c'.emailVerified = false) := by
  have ht := List.mem_of_getElem? hi
  obtain ⟨new, hcomes⟩ := hm.comes
  refine ⟨new, fun c' hc' => ?_⟩
  rcases mem_linkCopies_set hc' with hc' | ⟨u, hu, hc'⟩
  · cases hcomes c' hc' with
    | @kept c _ hc hid hemail hpassword hverified =>
      exact Or.inl ⟨c, List.mem_append_left _ hc, hid, hemail, fun h => Or.inl (hverified ▸ h)⟩
    | @copied c _ hc hid hemail hpassword hverified =>
      exact Or.inl ⟨c, mem_linkCopies_of_view ht hc, hid, hemail,
        fun h => Or.inl (hverified ▸ h)⟩
    | created hnew hid hpassword hverified => exact Or.inr ⟨hnew, hid, hverified⟩
    | @reset c _ hc hid hemail hpassword hverified =>
      exact Or.inl ⟨c, List.mem_append_left _ hc, hid, hemail, fun h => Or.inl (hverified ▸ h)⟩
    | @verified c _ u x hc hid hemail hpassword hsaved hu =>
      exact Or.inl ⟨c, List.mem_append_left _ hc, hid, hemail,
        fun _ => Or.inr ⟨x, u, hsaved, hu⟩⟩
  · exact Or.inl ⟨c', mem_linkCopies_of_view hu hc', rfl, rfl, Or.inl⟩

/-- What a request has saved, it had passed the check for, so it saves nothing else. -/
theorem LinkTask.Moves.saved {r : LinkHeard} {s s' : LinkStore T} {t t' : LinkTask T}
    {y : LinkKind × (Uuid × T) × AppUser} (hm : Moves maker s r t s' t')
    (ht : t.view.saved = some y) (hhonest : t.view.Honest maker) : t'.view.saved = some y := by
  have hsame : t'.view.saved = t.view.saved → t'.view.saved = some y := fun h => h.trans ht
  cases hm with
  | quiet hview | sends hminted hview | misses ticket hview | deletes caller hview =>
    exact hsame (by rw [hview])
  | creates hblank | reads hblank | redeems hblank => simp [hblank] at ht
  | makes hview | mints hview | checks hview => simp [hview] at ht
  | resets hpassed hview hs | verifies hpassed hview hs =>
    rw [hview, ← hpassed]
    exact hhonest.saved y ht
  | edits hs | exports hu | mails hw => simp [LinkTask.view] at ht

/-- A link that was minted stays known. -/
theorem LinkTask.Moves.minted {r : LinkHeard} {s s' : LinkStore T} {t t' : LinkTask T}
    {y : LinkKind × AppUser × T × String} (hm : Moves maker s r t s' t')
    (ht : t.view.minted = some y) : t'.view.minted = some y := by
  cases hm with
  | quiet hview | sends hminted hview | misses ticket hview | deletes caller hview
  | resets hpassed hview | verifies hpassed hview =>
    rw [hview]
    exact ht
  | creates hblank | reads hblank | redeems hblank => simp [hblank] at ht
  | makes hview | mints hview | checks hview => simp [hview] at ht
  | edits hs | exports hu | mails hw => simp [LinkTask.view] at ht

/-- A mail that is new has been sent by the request that has minted its link. -/
theorem LinkTask.Moves.outbox {r : LinkHeard} {s s' : LinkStore T} {t t' : LinkTask T}
    (hm : Moves maker s r t s' t') : s'.outbox = s.outbox ∨
      ∃ m : SentLink, s'.outbox = s.outbox ++ [m] ∧ ∃ kind u token,
        t.view.minted = some (kind, u, token, m.ticket) ∧ m.recipient = u.email := by
  cases hm with
  | sends hminted hview => exact Or.inr ⟨_, rfl, _, _, _, hminted, rfl⟩
  | creates hblank hview hid hpassword hverified hs => exact Or.inl (by rw [insert_eq_some hs])
  | resets hpassed hview hs | verifies hpassed hview hs => exact Or.inl (by rw [update_eq_some hs])
  | edits hs => exact Or.inl (by rw [save_eq_some hs])
  | quiet | reads | makes | mints | misses | redeems | checks | deletes | exports | mails =>
    exact Or.inl rfl

theorem LinkTask.Moves.outbox_subset {r : LinkHeard} {s s' : LinkStore T} {t t' : LinkTask T}
    (hm : Moves maker s r t s' t') : s.outbox ⊆ s'.outbox := by
  rcases hm.outbox with hsame | ⟨m, hsends, -⟩
  · rw [hsame]
    exact List.Subset.refl _
  · rw [hsends]
    exact List.subset_append_left _ _

theorem LinksHold.next {users : List AppUser} (h : LinksHold maker users p) (hnew : NewLinks p a)
    (hn : (linkServer maker).Next p a q) : LinksHold maker users q := by
  have haccounted : (linkDesk T).Accounted q := by
    refine h.accounted.next hn (fun t ht => ?_) fun i r t s' t' new ha hi hs => ?_
    · have hview := LinkTask.Begins.view ht
      exact ⟨by simp [linkDesk, hview], by simp [linkDesk, hview]⟩
    · subst ha
      obtain ⟨⟨s', t'⟩, hstep, heq⟩ := Option.map_eq_some_iff.1 hs
      cases heq
      exact ⟨(LinkTask.step_moves hstep).uses hnew.1, by simp⟩
  rcases linkServer_next hn with ⟨t, ht, rfl⟩ | ⟨i, r, t, t', s', rfl, hi, hm, rfl⟩
  · have hview := LinkTask.Begins.view ht
    have hcopies : linkCopies ⟨p.store, p.threads ++ [t]⟩ = linkCopies p := by
      simp [linkCopies, hview]
    refine ⟨fun u hu => ?_, haccounted, fun m hm => ?_, ?_, fun c hc hv => ?_⟩
    · rcases List.mem_append.1 hu with hu | hu
      · exact h.honest u hu
      · obtain rfl := List.mem_singleton.1 hu
        rw [hview]
        exact LinkView.honest_empty maker
    · obtain ⟨u, hu, hrest⟩ := h.addressed m hm
      exact ⟨u, List.mem_append_left _ hu, hrest⟩
    · rw [hcopies]
      exact h.emails
    · rw [hcopies] at hc
      exact (h.verified c hc hv).imp_right
        fun ⟨u, hu, hrest⟩ => ⟨u, List.mem_append_left _ hu, hrest⟩
  · have ht := List.mem_of_getElem? hi
    have hlt := (List.getElem?_eq_some_iff.1 hi).1
    have ht' : t' ∈ p.threads.set i t' := List.mem_set hlt t'
    obtain ⟨new, hfrom⟩ := hm.copies_from hi
    have hsince : ∀ {id}, VerifiedSince users p id →
        VerifiedSince users ⟨s', p.threads.set i t'⟩ id := by
      refine fun hv => hv.imp_right ?_
      rintro ⟨w, hw, x, u, hsaved, hu⟩
      obtain ⟨j, hj⟩ := List.mem_iff_getElem?.1 hw
      by_cases hji : j = i
      · subst hji
        obtain rfl : w = t := Option.some.inj (hj.symm.trans hi)
        exact ⟨t', ht', x, u, hm.saved hsaved (h.honest w ht), hu⟩
      · exact ⟨w, List.mem_of_getElem? (by rwa [List.getElem?_set_ne (Ne.symm hji)]), x, u, hsaved,
          hu⟩
    refine ⟨fun u hu => ?_, haccounted, fun m hmail => ?_, fun c hc c' hc' hid => ?_,
      fun c hc hv => ?_⟩
    · rcases List.mem_or_eq_of_mem_set hu with hu | rfl
      · exact h.honest u hu
      · exact hm.honest (h.honest t ht)
    · obtain ⟨u, hu, kind, w, token, hminted, hrecipient⟩ : ∃ u ∈ p.threads, ∃ kind w token,
          u.view.minted = some (kind, w, token, m.ticket) ∧ m.recipient = w.email := by
        rcases hm.outbox with hsame | ⟨m', hsends, hlink⟩
        · exact h.addressed m (hsame ▸ hmail)
        · rw [hsends, List.mem_append, List.mem_singleton] at hmail
          rcases hmail with hmail | rfl
          · exact h.addressed m hmail
          · exact ⟨t, ht, hlink⟩
      obtain ⟨j, hj⟩ := List.mem_iff_getElem?.1 hu
      by_cases hji : j = i
      · subst hji
        obtain rfl : u = t := Option.some.inj (hj.symm.trans hi)
        exact ⟨t', ht', kind, w, token, hm.minted hminted, hrecipient⟩
      · exact ⟨u, List.mem_of_getElem? (by rwa [List.getElem?_set_ne (Ne.symm hji)]), kind, w,
          token, hminted, hrecipient⟩
    · rcases hfrom c hc with ⟨b, hb, hbid, hbemail, -⟩ | ⟨hnone, hcid, -⟩ <;>
        rcases hfrom c' hc' with ⟨b', hb', hbid', hbemail', -⟩ | ⟨hnone', hcid', -⟩
      · rw [hbemail, hbemail']
        exact h.emails b hb b' hb' (by rw [← hbid, ← hbid', hid])
      · exact absurd (by rw [← hbid, hid, hcid']) (hnew.2 b hb).1
      · exact absurd (by rw [← hbid', ← hid, hcid]) (hnew.2 b' hb').1
      · rw [Option.some.inj (hnone.symm.trans hnone')]
    · rcases hfrom c hc with ⟨b, hb, hbid, -, hverified⟩ | ⟨-, -, hunverified⟩
      · rcases hverified hv with hb' | ⟨x, u, hsaved, hu⟩
        · exact hbid ▸ hsince (h.verified b hb hb')
        · exact Or.inr ⟨t', ht', x, u, hsaved, hu.trans hbid.symm⟩
      · rw [hunverified] at hv
        cases hv

theorem linksHold_run {users : List AppUser} (hids : (users.map AppUser.id).Nodup)
    (h : (linkServer maker).Run NewLinks ⟨{ users }, []⟩ p) : LinksHold maker users p := by
  refine h.invariant (fun p q a hp hok hn => hp.next hok hn)
    ⟨by simp, Tickets.Desk.accounted_nil rfl, by simp, fun c hc c' hc' hid => ?_,
      fun c hc hv => ?_⟩
  · have hmem : ∀ {c}, c ∈ linkCopies ⟨({ users } : LinkStore T), []⟩ → c ∈ users := by
      intro c hc
      simpa [linkCopies] using hc
    rw [Keyed.eq_of_pk hids (hmem hc) (hmem hc') hid]
  · exact Or.inl ⟨c, by simpa [linkCopies] using hc, rfl, hv⟩

/-! ## The link behind a check -/

/-- The columns that the hash value of a generator reads, next to the primary key. -/
def LinkKind.SameState : LinkKind → AppUser → AppUser → Prop
  | .verification, u, w => u.emailVerified = w.emailVerified
  | .reset, u, w => u.password = w.password

/-- The texts of the primary key and of the flag are told apart, as the first has a fixed length
and those of the two flags differ at once. -/
theorem EmailVerificationTokenGenerator.hashValue_eq {u w : AppUser} {ts : ℤ}
    (h : hashValue u ts = hashValue w ts) :
    u.id = w.id ∧ u.emailVerified = w.emailVerified ∧ u.email = w.email := by
  unfold hashValue at h
  simp only [String.append_assoc] at h
  obtain ⟨hid, hrest⟩ := append_text_inj (u.id.length_text.trans w.id.length_text.symm) h
  have hverified : u.emailVerified = w.emailVerified := by
    have hhead := congrArg (fun s => s.toList.head?) hrest
    cases hu : u.emailVerified <;> cases hw : w.emailVerified <;>
      simp [hu, hw, boolText] at hhead ⊢
  refine ⟨Uuid.ext hid, hverified, ?_⟩
  rw [hverified, String.append_right_inj, String.append_right_inj] at hrest
  exact hrest

namespace TokenMaker

variable {kind kind' : LinkKind} {c u : AppUser} {token : T} {madeAt now : Instant}

/-- A token that passes the check of a generator was made by it, of a copy with the same state, and
not too long ago. -/
theorem Documented.of_accepts (hdoc : maker.Documented)
    (h : maker.accepts kind u (maker.makeToken kind' c madeAt) now = true) :
    kind' = kind ∧ c.id = u.id ∧ kind.SameState c u ∧
      numSeconds now ≤ numSeconds madeAt + passwordResetTimeout := by
  obtain ⟨ts, htoken, hnow⟩ := hdoc.checkToken_iff.1 h
  obtain ⟨hsalt, hvalue, rfl⟩ := hdoc.sign_injective htoken
  cases kind' <;> cases kind
  · obtain ⟨hid, hverified, -⟩ := EmailVerificationTokenGenerator.hashValue_eq hvalue
    exact ⟨rfl, hid, hverified, hnow⟩
  · exact absurd hsalt.symm hdoc.keySalt_ne
  · exact absurd hsalt hdoc.keySalt_ne
  · obtain ⟨hid, hpassword⟩ := hdoc.resetHashValue_eq hvalue
    exact ⟨rfl, hid, hpassword, hnow⟩

end TokenMaker

/-! ## A generator, and a user -/

/-- A generator whose tokens show what they are made of. -/
def plainMaker : TokenMaker (String × String × ℤ) where
  sign k v ts := (k, v, ts)
  checkToken k value token now :=
    token = (k, value token.2.2, token.2.2) ∧ now ≤ token.2.2 + passwordResetTimeout
  resetKeySalt := "django.contrib.auth.tokens.PasswordResetTokenGenerator"
  resetHashValue u _ := u.id.text ++ match u.password with
    | .salted text => "$" ++ text
    | .unusable text => "!" ++ text

theorem plainMaker_documented : plainMaker.Documented where
  sign_injective h := by
    obtain ⟨hk, hrest⟩ := Prod.mk.inj h
    obtain ⟨hv, hts⟩ := Prod.mk.inj hrest
    exact ⟨hk, hv, hts⟩
  checkToken_iff {k value token now} := by
    rw [plainMaker, decide_eq_true_iff]
    constructor
    · rintro ⟨htoken, hnow⟩
      exact ⟨token.2.2, htoken, hnow⟩
    · rintro ⟨ts, rfl, hnow⟩
      exact ⟨rfl, hnow⟩
  keySalt_ne := by decide
  resetHashValue_eq {u w ts} h := by
    obtain ⟨hid, hpassword⟩ := append_text_inj (u.id.length_text.trans w.id.length_text.symm) h
    refine ⟨Uuid.ext hid, ?_⟩
    cases hu : u.password <;> cases hw : w.password <;> simp only [hu, hw] at hpassword
    · rw [(String.append_right_inj _).1 hpassword]
    · simpa using congrArg (fun s => s.toList.head?) hpassword
    · simpa using congrArg (fun s => s.toList.head?) hpassword
    · rw [(String.append_right_inj _).1 hpassword]

/-- The steps of request `i` in a row. -/
def stepsOf (i : ℕ) (rs : List LinkHeard) :
    List (Action (LinkTask (String × String × ℤ)) LinkHeard) :=
  rs.map (.run i)

/-! ## What a check rests on -/

/-- Request `i`, which has passed the check for `user`, rests on one request that minted the link of
this kind for the user, in the state that the check has read and in time. Nobody else has minted the
ticket or redeemed it, and every mail with it went to the address of the user. -/
structure RestsOnLink (maker : TokenMaker T) (kind : LinkKind) (p : Pool (LinkStore T) (LinkTask T))
    (i : ℕ) (x : Uuid × T) (user : AppUser) (ticket : String) : Prop where
  redeems : ∀ (k : ℕ) (u : LinkTask T) (y : Uuid × T), p.threads[k]? = some u →
    u.view.redeemed = some (ticket, y) → k = i
  minted : ∃ (j : ℕ) (t : LinkTask T) (c : AppUser), p.threads[j]? = some t ∧
    t.view.minted = some (kind, c, x.2, ticket) ∧ c.id = user.id ∧ c.email = user.email ∧
    kind.SameState c user ∧
    (∃ madeAt checkedAt, x.2 = maker.makeToken kind c madeAt ∧
      maker.accepts kind user x.2 checkedAt = true ∧
      numSeconds checkedAt ≤ numSeconds madeAt + passwordResetTimeout) ∧
    ∀ (k : ℕ) (u : LinkTask T) kind' c' token, p.threads[k]? = some u →
      u.view.minted = some (kind', c', token, ticket) → k = j
  addressed : ∀ m ∈ p.store.outbox, m.ticket = ticket → m.recipient = user.email

theorem LinksHold.rests_on_link (hdoc : maker.Documented) {users : List AppUser}
    (hold : LinksHold maker users p) {i : ℕ} {t : LinkTask T} {kind : LinkKind} {x : Uuid × T}
    {user : AppUser} (hi : p.threads[i]? = some t)
    (hpassed : t.view.passed = some (kind, x, user)) :
    ∃ ticket, t.view.redeemed = some (ticket, x) ∧ RestsOnLink maker kind p i x user ticket := by
  have ht := List.mem_of_getElem? hi
  obtain ⟨hcopy, hid, ⟨ticket, hredeemed⟩, now, haccepts⟩ :=
    (hold.honest t ht).passed kind x user hpassed
  obtain ⟨u, hu, hdesk⟩ := hold.accounted.redeemed t ht ticket x hredeemed
  obtain ⟨⟨kind', c, token, ticket'⟩, hminted, heq⟩ := Option.map_eq_some_iff.1 hdesk
  obtain ⟨rfl, rfl⟩ := Prod.mk.inj heq
  have htoken := (hold.honest u hu).minted _ _ _ _ hminted
  obtain ⟨hc, madeAt, rfl⟩ := (hold.honest u hu).token _ _ _ htoken
  obtain ⟨rfl, hcid, hstate, hnow⟩ := hdoc.of_accepts haccepts
  obtain ⟨j, hj⟩ := List.mem_iff_getElem?.1 hu
  have hemail : c.email = user.email :=
    hold.emails c (mem_linkCopies_of_view hu (hc ▸ List.mem_cons_self)) user
      (mem_linkCopies_of_view ht hcopy) hcid
  have honce : ∀ (k : ℕ) (w : LinkTask T) kind₂ c₂ token₂, p.threads[k]? = some w →
      w.view.minted = some (kind₂, c₂, token₂, ticket') → k = j := fun k w kind₂ c₂ token₂ hk hw =>
    hold.accounted.mintedOnce ticket' k j w u hk hj ⟨(c₂.id, token₂), by simp [linkDesk, hw]⟩
      ⟨_, hdesk⟩
  refine ⟨ticket', hredeemed, fun k w y hk hw => ?_,
    ⟨j, u, c, hj, hminted, hcid, hemail, hstate, ⟨madeAt, now, rfl, haccepts, hnow⟩, honce⟩,
    fun m hm hticket => ?_⟩
  · exact hold.accounted.redeemedOnce ticket' k i w t hk hi ⟨y, hw⟩ ⟨_, hredeemed⟩
  · obtain ⟨w, hw, kind₂, c₂, token₂, hminted₂, hrecipient⟩ := hold.addressed m hm
    obtain ⟨k, hk⟩ := List.mem_iff_getElem?.1 hw
    obtain rfl := honce k w kind₂ c₂ token₂ hk (hticket ▸ hminted₂)
    obtain rfl : u = w := Option.some.inj (hj.symm.trans hk)
    have hlink := Prod.mk.inj (Option.some.inj (hminted.symm.trans hminted₂))
    have hsame : c = c₂ := (Prod.mk.inj hlink.2).1
    rw [hrecipient, ← hsame]
    exact hemail

/-- A ticket that is kept is taken only by one who has it from a mail. -/
def FromMails (p : Pool (LinkStore T) (LinkTask T)) : Action (LinkTask T) LinkHeard → Prop
  | .arrive _ => True
  | .run i r => ∀ t ∈ p.threads[i]?, ∀ ticket ∈ t.presents,
    (p.store.redeemLinkTicket r.now ticket).1.isSome →
      ∃ m ∈ p.store.outbox, m.ticket = ticket ∧ m.accepted

instance (p : Pool (LinkStore T) (LinkTask T)) : (a : Action (LinkTask T) LinkHeard) →
    Decidable (FromMails p a)
  | .arrive _ => .isTrue trivial
  | .run i r => inferInstanceAs (Decidable (∀ t ∈ p.threads[i]?, ∀ ticket ∈ t.presents,
      (p.store.redeemLinkTicket r.now ticket).1.isSome →
        ∃ m ∈ p.store.outbox, m.ticket = ticket ∧ m.accepted))

/-- A ticket that was redeemed was redeemed before, or is taken now. -/
theorem LinkTask.Moves.redeemed {r : LinkHeard} {s s' : LinkStore T} {t t' : LinkTask T}
    (hm : Moves maker s r t s' t') {ticket : String} {x : Uuid × T}
    (h : t'.view.redeemed = some (ticket, x)) : t.view.redeemed = some (ticket, x) ∨
      (t.presents = some ticket ∧ (s.redeemLinkTicket r.now ticket).1 = some x) := by
  cases hm with
  | quiet hview | sends hminted hview | misses ticket hview | deletes caller hview
  | resets hpassed hview | verifies hpassed hview =>
    rw [hview] at h
    exact Or.inl h
  | creates hblank hview => rcases hview with hview | hview <;> simp [hview] at h
  | reads hblank hu hview => simp [hview] at h
  | makes hview hview' | mints hview hview' => simp [hview'] at h
  | redeems hblank hpresents hx hview =>
    rw [hview] at h
    cases h
    exact Or.inr ⟨hpresents, hx⟩
  | checks hview hu hid haccepts hview' =>
    rw [hview'] at h
    exact Or.inl (by rw [hview]; exact h)
  | edits hs | exports hu | mails hw => simp [LinkTask.view] at h

/-- What was redeemed came by a mail that the mail service had accepted. -/
theorem mailed_of_redeemed {users : List AppUser}
    (h : (linkServer maker).Run FromMails ⟨{ users }, []⟩ p) {t : LinkTask T} (ht : t ∈ p.threads)
    {ticket : String} {x : Uuid × T} (hredeemed : t.view.redeemed = some (ticket, x)) :
    ∃ m ∈ p.store.outbox, m.ticket = ticket ∧ m.accepted := by
  refine h.invariant (I := fun p => ∀ t ∈ p.threads, ∀ ticket x,
    t.view.redeemed = some (ticket, x) → ∃ m ∈ p.store.outbox, m.ticket = ticket ∧ m.accepted)
    (fun p q a hp hok hn t ht ticket x hredeemed => ?_) (by simp) t ht ticket x hredeemed
  rcases linkServer_next hn with ⟨u, hu, rfl⟩ | ⟨i, r, u, u', s', rfl, hi, hm, rfl⟩
  · rcases List.mem_append.1 ht with ht | ht
    · exact hp t ht ticket x hredeemed
    · simp [List.mem_singleton.1 ht, LinkTask.Begins.view hu] at hredeemed
  · obtain ⟨m, hmail, hrest⟩ : ∃ m ∈ p.store.outbox, m.ticket = ticket ∧ m.accepted := by
      rcases List.mem_or_eq_of_mem_set ht with ht | rfl
      · exact hp t ht ticket x hredeemed
      · rcases hm.redeemed hredeemed with hbefore | ⟨hpresents, hx⟩
        · exact hp u (List.mem_of_getElem? hi) ticket x hbefore
        · exact hok u hi ticket hpresents (by simp [hx])
    exact ⟨m, hm.outbox_subset hmail, hrest⟩

/-- A mail with the ticket has gone to the address, and the mail service has accepted it. -/
def MailedTo (p : Pool (LinkStore T) (LinkTask T)) (address ticket : String) : Prop :=
  ∃ m ∈ p.store.outbox, m.ticket = ticket ∧ m.recipient = address ∧ m.accepted

theorem RestsOnLink.mailed {users : List AppUser} {i : ℕ} {t : LinkTask T} {kind : LinkKind}
    {x : Uuid × T} {user : AppUser} {ticket : String}
    (h : RestsOnLink maker kind p i x user ticket) (hi : p.threads[i]? = some t)
    (hredeemed : t.view.redeemed = some (ticket, x))
    (hrun : (linkServer maker).Run FromMails ⟨{ users }, []⟩ p) : MailedTo p user.email ticket := by
  obtain ⟨m, hm, hticket, haccepted⟩ := mailed_of_redeemed hrun (List.mem_of_getElem? hi) hredeemed
  exact ⟨m, hm, hticket, h.addressed m hm hticket, haccepted⟩

/-- Request `0` is for a reset, and its task mails a link. -/
def resetMailed : List (Action (LinkTask (String × String × ℤ)) LinkHeard) :=
  .arrive (.resetRequest "mona@example.com" .starting) ::
    stepsOf 0 [{}, {}, { generated := "ticket-1" }, {}, {}]

/-- Request `1` redeems it and passes the check. -/
def resetChecked : List (Action (LinkTask (String × String × ℤ)) LinkHeard) :=
  resetMailed ++ .arrive (.resetConfirm "ticket-1" .redeeming) :: stepsOf 1 [{}, {}]

/-- The whole data of a user with a password goes only to an address that was verified : the user
was verified at the start, or a link for their verification was redeemed that was mailed to no other
address. If tickets are taken from mails only, it was mailed there. -/
theorem export_rests_on_verification (hdoc : maker.Documented) {users : List AppUser}
    (hids : (users.map AppUser.id).Nodup)
    (h : (linkServer maker).Run NewLinks ⟨{ users }, []⟩ p) {caller : Uuid}
    {user recipient : AppUser} (ht : .dataExport caller (.mailed user recipient) ∈ p.threads)
    (hpassword : user.hasUsablePassword) : recipient.id = caller ∧
      ((∃ u ∈ users, u.id = caller ∧ u.emailVerified) ∨
        ∃ (i : ℕ) (t : LinkTask T) (x : Uuid × T) (w : AppUser) (ticket : String),
          p.threads[i]? = some t ∧ t.view.saved = some (.verification, x, w) ∧ w.id = caller ∧
          w.email = recipient.email ∧ t.view.redeemed = some (ticket, x) ∧
          RestsOnLink maker .verification p i x w ticket ∧
          ((linkServer maker).Run FromMails ⟨{ users }, []⟩ p →
            MailedTo p recipient.email ticket)) := by
  have hold := linksHold_run hids h
  obtain ⟨hu, huid, hallowed, hrecipient⟩ :=
    (hold.honest _ ht).exported caller user (some recipient) rfl
  obtain ⟨hr, hrid⟩ := hrecipient recipient rfl
  refine ⟨hrid, ?_⟩
  have hverified := hallowed.resolve_right (by simp [hpassword])
  rcases hold.verified user (mem_linkCopies_of_view ht hu) hverified with
    ⟨u, hmem, hid, hv⟩ | ⟨t, htmem, x, w, hsaved, hid⟩
  · exact Or.inl ⟨u, hmem, hid.trans huid, hv⟩
  · have hpassed := (hold.honest t htmem).saved _ hsaved
    obtain ⟨i, hi⟩ := List.mem_iff_getElem?.1 htmem
    obtain ⟨ticket, hredeemed, hrests⟩ := hold.rests_on_link hdoc hi hpassed
    obtain ⟨hw, -⟩ := (hold.honest t htmem).passed _ _ _ hpassed
    have hemail : w.email = recipient.email := hold.emails w (mem_linkCopies_of_view htmem hw)
      recipient (mem_linkCopies_of_view ht hr) (by rw [hid, huid, hrid])
    exact Or.inr ⟨i, t, x, w, ticket, hi, hsaved, hid.trans huid, hemail, hredeemed, hrests,
      fun hrun => hemail ▸ hrests.mailed hi hredeemed hrun⟩

/-- A link for the verification is mailed and redeemed, and then the data is exported. -/
def exportVerified : List (Action (LinkTask (String × String × ℤ)) LinkHeard) :=
  .arrive (.verificationRequest signedUp.id .starting) ::
    stepsOf 0 [{}, {}, { generated := "ticket-1" }, {}] ++
  .arrive (.verificationConfirm "ticket-1" .redeeming) :: stepsOf 1 [{}, {}, {}] ++
  .arrive (.dataExport signedUp.id .authenticating) :: stepsOf 2 [{}, {}]

theorem export_rests_on_verification_mail : ∃ p w ticket,
    (linkServer plainMaker).exec exportVerified ⟨{ users := [signedUp] }, []⟩ = some p ∧
      w.email = signedUp.email ∧ MailedTo p signedUp.email ticket ∧
      ∃ i x, RestsOnLink plainMaker .verification p i x w ticket := by
  obtain ⟨p, hp, hmeets, hmails, hmailed⟩ :
      ∃ p ∈ (linkServer plainMaker).exec exportVerified ⟨{ users := [signedUp] }, []⟩,
        (linkServer plainMaker).Meets NewLinks exportVerified ⟨{ users := [signedUp] }, []⟩ ∧
        (linkServer plainMaker).Meets FromMails exportVerified ⟨{ users := [signedUp] }, []⟩ ∧
        .dataExport signedUp.id (.mailed { signedUp with emailVerified := true }
          { signedUp with emailVerified := true }) ∈ p.threads := by
    decide +kernel
  obtain ⟨-, hold | ⟨i, t, x, w, ticket, -, -, -, hemail, -, hrests, hlink⟩⟩ :=
    export_rests_on_verification plainMaker_documented (by decide) (.of_exec_meets hmeets hp)
      hmailed rfl
  · simp [signedUp] at hold
  · exact ⟨p, w, ticket, hp, hemail, hlink (.of_exec_meets hmails hp), i, x, hrests⟩

/-! ## A reset ends the links before it -/

/-- The copy that the request saves with all its columns next. -/
def LinkTask.savesAll : LinkTask T → Option AppUser
  | profilePatch _ _ (.saving u) => some u
  | _ => none

/-- A profile edit saves over the password that it has read. -/
def CurrentEdits (p : Pool (LinkStore T) (LinkTask T)) : Action (LinkTask T) LinkHeard → Prop
  | .arrive _ => True
  | .run i _ => ∀ t ∈ p.threads[i]?, ∀ u ∈ t.savesAll,
    ∃ v ∈ p.store.users, v.id = u.id ∧ v.password = u.password

instance (p : Pool (LinkStore T) (LinkTask T)) : (a : Action (LinkTask T) LinkHeard) →
    Decidable (CurrentEdits p a)
  | .arrive _ => .isTrue trivial
  | .run i _ => inferInstanceAs (Decidable (∀ t ∈ p.threads[i]?, ∀ u ∈ t.savesAll, _))

/-- What is generated is new, and no profile edit brings an old password back. -/
def LinksUndisturbed (p : Pool (LinkStore T) (LinkTask T)) (a : Action (LinkTask T) LinkHeard) :
    Prop :=
  NewLinks p a ∧ CurrentEdits p a

instance (p : Pool (LinkStore T) (LinkTask T)) (a : Action (LinkTask T) LinkHeard) :
    Decidable (LinksUndisturbed p a) :=
  inferInstanceAs (Decidable (_ ∧ _))

/-- No row of the user has the password of the copy, which is still known to a request. -/
structure Outdated (c : AppUser) (p : Pool (LinkStore T) (LinkTask T)) : Prop where
  known : ∃ t ∈ p.threads, c ∈ t.view.copies
  rows : ∀ v ∈ p.store.users, v.id = c.id → v.password ≠ c.password

theorem LinkTask.Moves.rows {s s' : LinkStore T} {r : LinkHeard} {t t' : LinkTask T}
    (hm : Moves maker s r t s' t') {v' : AppUser} (hv' : v' ∈ s'.users) :
    (∃ v ∈ s.users, v'.id = v.id ∧ v'.password = v.password) ∨ v'.password.text = r.generated ∨
      ∃ u ∈ t.savesAll, v'.id = u.id ∧ v'.password = u.password := by
  have hkept : v' ∈ s.users → ∃ v ∈ s.users, v'.id = v.id ∧ v'.password = v.password :=
    fun h => ⟨v', h, rfl, rfl⟩
  cases hm with
  | quiet | reads | makes | mints | sends | misses | redeems | checks | exports | mails =>
    exact Or.inl (hkept hv')
  | creates hblank hview hid hpassword hverified hs =>
    rw [insert_eq_some hs, List.mem_append, List.mem_singleton] at hv'
    rcases hv' with hv' | rfl
    · exact Or.inl (hkept hv')
    · exact Or.inr (Or.inl hpassword)
  | resets hpassed hview hs =>
    rcases mem_update hs hv' with ⟨hv', -⟩ | ⟨v, hv, -, rfl⟩
    · exact Or.inl (hkept hv')
    · exact Or.inr (Or.inl rfl)
  | verifies hpassed hview hs =>
    rcases mem_update hs hv' with ⟨hv', -⟩ | ⟨v, hv, -, rfl⟩
    · exact Or.inl (hkept hv')
    · exact Or.inl ⟨v, hv, rfl, rfl⟩
  | @edits caller body s' u hs =>
    rcases mem_save hs hv' with hv' | rfl
    · exact Or.inl (hkept hv')
    · exact Or.inr (Or.inr ⟨u, rfl, rfl, rfl⟩)
  | deletes caller hview => exact Or.inl (hkept (List.mem_of_mem_filter hv'))

/-- A check that is passed was passed before, or is passed now by a row of the table. -/
theorem LinkTask.Moves.passed {s s' : LinkStore T} {r : LinkHeard} {t t' : LinkTask T}
    (hm : Moves maker s r t s' t') {kind : LinkKind} {x : Uuid × T} {u : AppUser}
    (h : t'.view.passed = some (kind, x, u)) : t.view.passed = some (kind, x, u) ∨
      (u ∈ s.users ∧ maker.accepts kind u x.2 r.now = true) := by
  cases hm with
  | quiet hview | sends hminted hview | misses ticket hview | resets hpassed hview
  | verifies hpassed hview | deletes caller hview =>
    rw [hview] at h
    exact Or.inl h
  | creates hblank hview => rcases hview with hview | hview <;> simp [hview] at h
  | reads hblank hu hview => simp [hview] at h
  | makes hview hview' | mints hview hview' => simp [hview'] at h
  | redeems hblank hpresents hx hview => simp [hview] at h
  | checks hview hu hid haccepts hview' =>
    rw [hview'] at h
    cases h
    exact Or.inr ⟨hu, haccepts⟩
  | edits hs | exports hu | mails hw => cases h

theorem Outdated.next {c : AppUser} (h : Outdated c p) (hnew : NewLinks p a)
    (hcurrent : CurrentEdits p a) (hn : (linkServer maker).Next p a q) : Outdated c q := by
  obtain ⟨u, hu, hc⟩ := h.known
  rcases linkServer_next hn with ⟨t, ht, rfl⟩ | ⟨i, r, t, t', s', rfl, hi, hm, rfl⟩
  · exact ⟨⟨u, List.mem_append_left _ hu, hc⟩, h.rows⟩
  · refine ⟨?_, fun v' hv' hid => ?_⟩
    · obtain ⟨j, hj⟩ := List.mem_iff_getElem?.1 hu
      by_cases hji : j = i
      · subst hji
        obtain rfl : u = t := Option.some.inj (hj.symm.trans hi)
        exact ⟨t', List.mem_set (List.getElem?_eq_some_iff.1 hi).1 t', hm.copies hc⟩
      · exact ⟨u, List.mem_of_getElem? (by rwa [List.getElem?_set_ne (Ne.symm hji)]), hc⟩
    · rcases hm.rows hv' with ⟨v, hv, hvid, hpassword⟩ | hgenerated | ⟨w, hw, hwid, hpassword⟩
      · rw [hpassword]
        exact h.rows v hv (hvid ▸ hid)
      · intro heq
        exact (hnew.2 c (mem_linkCopies_of_view hu hc)).2 (heq ▸ hgenerated)
      · obtain ⟨v, hv, hvid, hvpassword⟩ := hcurrent t hi w hw
        rw [hpassword, ← hvpassword]
        exact h.rows v hv (by rw [hvid, ← hwid, hid])

/-- From a state in which a copy is outdated, no reset passes its check with a token made of it. -/
theorem Outdated.no_reset {c : AppUser} (hdoc : maker.Documented) (h : Outdated c p)
    (hrun : (linkServer maker).Run LinksUndisturbed p q) {k : ℕ}
    {w : LinkTask T} {y : Uuid × T} {v : AppUser} {madeAt : Instant} (hk : q.threads[k]? = some w)
    (hpassed : w.view.passed = some (.reset, y, v))
    (hmade : y.2 = maker.makeToken .reset c madeAt) :
    ∃ w', p.threads[k]? = some w' ∧ w'.view.passed = some (.reset, y, v) := by
  have hout := hrun.invariant
    (I := fun q => Outdated c q ∧ ∀ (k : ℕ) (w : LinkTask T), q.threads[k]? = some w →
      w.view.passed = some (.reset, y, v) →
      ∃ w', p.threads[k]? = some w' ∧ w'.view.passed = some (.reset, y, v)) ?_
    ⟨h, fun k w hk hw => ⟨w, hk, hw⟩⟩
  · exact hout.2 k w hk hpassed
  · intro p₁ q a hp hok hn
    refine ⟨hp.1.next hok.1 hok.2 hn, fun k w hk hw => ?_⟩
    rcases linkServer_next hn with ⟨t, ht, rfl⟩ | ⟨i, r, t, t', s', rfl, hi, hm, rfl⟩
    · rcases getElem?_snoc hk with hk | ⟨-, rfl⟩
      · exact hp.2 k w hk hw
      · simp [LinkTask.Begins.view ht] at hw
    · by_cases hki : k = i
      · subst hki
        rw [List.getElem?_set_self (List.getElem?_eq_some_iff.1 hi).1, Option.some.injEq] at hk
        subst hk
        rcases hm.passed hw with hbefore | ⟨hv, haccepts⟩
        · exact hp.2 k t hi hbefore
        · rw [hmade] at haccepts
          obtain ⟨-, hid, hpassword, -⟩ := hdoc.of_accepts haccepts
          exact absurd hpassword.symm (hp.1.rows v hv hid.symm)
      · rw [List.getElem?_set_ne (Ne.symm hki)] at hk
        exact hp.2 k w hk hw

/-- The save of a reset outdates every copy of the user that is known before it. Nothing but the
save turns `saving` into `saved`. -/
theorem outdated_of_reset {p' : Pool (LinkStore T) (LinkTask T)} {i : ℕ} {r : LinkHeard}
    {ticket : String} {x : Uuid × T} {user c : AppUser} {u : LinkTask T}
    (hi : p.threads[i]? = some (.resetConfirm ticket (.saving x user)))
    (hnew : NewLinks p (.run i r)) (hn : (linkServer maker).Next p (.run i r) p')
    (hi' : p'.threads[i]? = some (.resetConfirm ticket (.saved x user))) (hu : u ∈ p.threads)
    (hc : c ∈ u.view.copies) (hid : c.id = user.id) : Outdated c p' := by
  have hcopy := mem_linkCopies_of_view hu hc
  rcases linkServer_next hn with ⟨t, ht, rfl⟩ | ⟨_, _, t, t', s', ha, hi₂, hm, rfl⟩
  · rw [List.getElem?_append_left (List.getElem?_eq_some_iff.1 hi).1, hi] at hi'
    cases hi'
  · cases ha
    obtain rfl : _ = t := Option.some.inj (hi.symm.trans hi₂)
    have hlt := (List.getElem?_eq_some_iff.1 hi).1
    rw [List.getElem?_set_self hlt, Option.some.injEq] at hi'
    subst hi'
    refine ⟨?_, fun v' hv' hvid heq => ?_⟩
    · obtain ⟨j, hj⟩ := List.mem_iff_getElem?.1 hu
      by_cases hji : j = i
      · subst hji
        obtain rfl : u = _ := Option.some.inj (hj.symm.trans hi)
        exact ⟨_, List.mem_set hlt _, hm.copies hc⟩
      · exact ⟨u, List.mem_of_getElem? (by rwa [List.getElem?_set_ne (Ne.symm hji)]), hc⟩
    · have hsave : p.store.update user.id
          (fun w => { w with password := .salted r.generated }) = some s' := by
        cases hm with
        | quiet hview | sends hminted hview | misses ticket hview | deletes caller hview =>
          cases congrArg LinkView.saved hview
        | creates hblank | reads hblank | redeems hblank => cases congrArg LinkView.passed hblank
        | makes hview | mints hview => cases congrArg LinkView.passed hview
        | checks hview => cases congrArg LinkView.passed hview
        | resets hpassed hview hs =>
          cases hpassed
          exact hs
        | verifies hpassed => cases hpassed
      rcases LinkTask.mem_update hsave hv' with ⟨-, hne⟩ | ⟨v, hv, -, rfl⟩
      · exact hne (hvid.trans hid)
      · exact (hnew.2 c hcopy).2 (by rw [← heq]; rfl)

theorem copies_of_run {ok : Pool (LinkStore T) (LinkTask T) → Action (LinkTask T) LinkHeard → Prop}
    (h : (linkServer maker).Run ok p q) {j : ℕ} {u : LinkTask T} (hj : p.threads[j]? = some u) :
    ∃ t, q.threads[j]? = some t ∧ u.view.copies ⊆ t.view.copies := by
  refine h.invariant
    (I := fun q => ∃ t : LinkTask T, q.threads[j]? = some t ∧ u.view.copies ⊆ t.view.copies)
    (fun p q a hp hok hn => ?_) ⟨u, hj, List.Subset.refl _⟩
  obtain ⟨t, ht, hsub⟩ := hp
  rcases linkServer_next hn with ⟨t₂, -, rfl⟩ | ⟨i, r, t₂, t', s', rfl, hi, hm, rfl⟩
  · exact ⟨t, by rwa [List.getElem?_append_left (List.getElem?_eq_some_iff.1 ht).1], hsub⟩
  · by_cases hji : j = i
    · subst hji
      obtain rfl : t = t₂ := Option.some.inj (ht.symm.trans hi)
      exact ⟨t', List.getElem?_set_self (List.getElem?_eq_some_iff.1 hi).1,
        List.Subset.trans hsub hm.copies⟩
    · exact ⟨t, by rwa [List.getElem?_set_ne (Ne.symm hji)], hsub⟩

/-- A reset that passes its check after another one of the same user was saved rests on a request
that has read the user after that, as a request has one copy of the user only, and a copy from
before the save is outdated. -/
theorem reset_voids_links (hdoc : maker.Documented) {users : List AppUser}
    (hids : (users.map AppUser.id).Nodup) {p' : Pool (LinkStore T) (LinkTask T)}
    (hbefore : (linkServer maker).Run NewLinks ⟨{ users }, []⟩ p) {i : ℕ} {r : LinkHeard}
    {ticket : String} {x : Uuid × T} {user : AppUser}
    (hi : p.threads[i]? = some (.resetConfirm ticket (.saving x user)))
    (hnew : NewLinks p (.run i r)) (hn : (linkServer maker).Next p (.run i r) p')
    (hi' : p'.threads[i]? = some (.resetConfirm ticket (.saved x user)))
    (hafter : (linkServer maker).Run LinksUndisturbed p' q) {k : ℕ}
    {w : LinkTask T} {y : Uuid × T} {v : AppUser} (hk : q.threads[k]? = some w)
    (hpassed : w.view.passed = some (.reset, y, v)) (hv : v.id = user.id)
    (hlate : ∀ w', p'.threads[k]? = some w' → w'.view.passed = none) :
    ∃ (j : ℕ) (t : LinkTask T) (c : AppUser) (ticket' : String), q.threads[j]? = some t ∧
      t.view.minted = some (.reset, c, y.2, ticket') ∧ w.view.redeemed = some (ticket', y) ∧
      ∀ u, p.threads[j]? = some u → u.view.copies = [] := by
  have hhold := hafter.invariant (fun p q a hp hok hn => hp.next hok.1 hn)
    ((linksHold_run hids hbefore).next hnew hn)
  obtain ⟨ticket', hredeemed, hrests⟩ := hhold.rests_on_link hdoc hk hpassed
  obtain ⟨j, t, c, hj, hminted, hcid, -, -, ⟨madeAt, -, hmade, -⟩, -⟩ := hrests.minted
  refine ⟨j, t, c, ticket', hj, hminted, hredeemed, fun u hu => ?_⟩
  by_contra hcopies
  have hone : t.view.copies = [c] := ((hhold.honest t (List.mem_of_getElem? hj)).token _ _ _
    ((hhold.honest t (List.mem_of_getElem? hj)).minted _ _ _ _ hminted)).1
  have hc : c ∈ u.view.copies := by
    obtain ⟨t₁, ht₁, hsub₁⟩ := copies_of_run (.tail (.refl p) hnew hn) hu
    obtain ⟨t₂, ht₂, hsub₂⟩ := copies_of_run hafter ht₁
    obtain rfl : t₂ = t := Option.some.inj (ht₂.symm.trans hj)
    obtain ⟨d, hd⟩ := List.exists_mem_of_ne_nil _ hcopies
    obtain rfl : d = c := by simpa [hone] using hsub₂ (hsub₁ hd)
    exact hd
  have hout := outdated_of_reset hi hnew hn hi' (List.mem_of_getElem? hu) hc (hcid.trans hv)
  obtain ⟨w', hw', hpassed'⟩ := hout.no_reset hdoc hafter hk hpassed hmade
  rw [hlate w' hw'] at hpassed'
  cases hpassed'

/-- After the save of the first reset, another one is requested and passes its check. -/
def resetAgain : List (Action (LinkTask (String × String × ℤ)) LinkHeard) :=
  .arrive (.resetRequest "mona@example.com" .starting) ::
    stepsOf 2 [{}, {}, { generated := "ticket-2" }, {}, {}] ++
  .arrive (.resetConfirm "ticket-2" .redeeming) :: stepsOf 3 [{}, {}]

/-- What request `1` has redeemed. -/
def firstLink : Uuid × String × String × ℤ := (signedUp.id, plainMaker.makeToken .reset signedUp 0)

set_option synthInstance.maxSize 1000 in
theorem reset_voids_links_again : ∃ p p' q,
    (linkServer plainMaker).exec resetChecked ⟨{ users := [signedUp] }, []⟩ = some p ∧
      (linkServer plainMaker).exec [.run 1 { generated := "second" }] p = some p' ∧
      (linkServer plainMaker).exec resetAgain p' = some q ∧
      ∃ (j : ℕ) (t : LinkTask (String × String × ℤ)), q.threads[j]? = some t ∧
        t.view.minted.isSome ∧ ∀ u, p.threads[j]? = some u → u.view.copies = [] := by
  obtain ⟨p, hp, ⟨hmeets, hnew, hsaving⟩, p', hp', ⟨hmeets', hsaved, hlate⟩, q, hq, w, hw, y, hy,
      hkind⟩ :
      ∃ p ∈ (linkServer plainMaker).exec resetChecked ⟨{ users := [signedUp] }, []⟩,
        ((linkServer plainMaker).Meets NewLinks resetChecked ⟨{ users := [signedUp] }, []⟩ ∧
          NewLinks p (.run 1 { generated := "second" }) ∧
          p.threads[1]? = some (.resetConfirm "ticket-1" (.saving firstLink signedUp))) ∧
        ∃ p' ∈ (linkServer plainMaker).exec [.run 1 { generated := "second" }] p,
          ((linkServer plainMaker).Meets LinksUndisturbed resetAgain p' ∧
            p'.threads[1]? = some (.resetConfirm "ticket-1" (.saved firstLink signedUp)) ∧
            p'.threads[3]? = none) ∧
          ∃ q ∈ (linkServer plainMaker).exec resetAgain p', ∃ w ∈ q.threads[3]?,
            ∃ y ∈ w.view.passed, y.1 = .reset ∧ y.2.2.id = signedUp.id := by
    decide +kernel
  obtain ⟨kind, y, v⟩ := y
  obtain ⟨rfl, hv⟩ : kind = .reset ∧ v.id = signedUp.id := hkind
  obtain ⟨j, t, c, ticket, hj, hminted, -, hlater⟩ := reset_voids_links plainMaker_documented
    (by decide) (.of_exec_meets hmeets hp) hsaving hnew (System.next_of_exec hp') hsaved
    (.of_exec_meets hmeets' hq) hw hy hv (by simp [hlate])
  exact ⟨p, p', q, hp, hp', hq, j, t, hj, by simp [hminted], hlater⟩

/-- A profile edit reads the user, a reset is requested and saved, and the edit saves its copy. -/
def staleEdit : List (Action (LinkTask (String × String × ℤ)) LinkHeard) :=
  resetMailed ++ .arrive (.resetConfirm "ticket-1" .redeeming) ::
    .arrive (.profilePatch signedUp.id { name := some "Mona A." } .authenticating) ::
    stepsOf 2 [{}] ++ stepsOf 1 [{}, {}, { generated := "second" }] ++ stepsOf 2 [{}]

/-- The reset has been answered with success, and the old password is back. -/
theorem staleEdit_undoes_reset : ∃ q,
    (linkServer plainMaker).Run NewLinks ⟨{ users := [signedUp] }, []⟩ q ∧
      (∃ t ∈ q.threads, t.view.saved.isSome) ∧
      q.store.users = [{ signedUp with name := "Mona A." }] := by
  obtain ⟨q, hq, hmeets, hrest⟩ :
      ∃ q ∈ (linkServer plainMaker).exec staleEdit ⟨{ users := [signedUp] }, []⟩,
        (linkServer plainMaker).Meets NewLinks staleEdit ⟨{ users := [signedUp] }, []⟩ ∧
        (∃ t ∈ q.threads, t.view.saved.isSome) ∧
        q.store.users = [{ signedUp with name := "Mona A." }] := by
    decide +kernel
  exact ⟨q, .of_exec_meets hmeets hq, hrest⟩

end Server

end NbeAdvisor
