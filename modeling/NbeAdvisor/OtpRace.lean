import NbeAdvisor.OtpThreads

/-!
# Logins at the bank at once

Two `/login/verify` may both pass the comparison with the OTP before either takes the challenge
away, and then both make a code. And a restart of the login for another customer may write the
customer's fields before the OTP that goes with them, or between a comparison with the OTP before it
and the reads of the fields for the code. The code is then for the other customer
(`twoCodes_ofOneChallenge`), or has the mail address of one and the `customer_id` of the other.

Each challenge gives one code at most, and every code has the four fields of the customer whose OTP
was matched, in a run in which no request passes the comparison after another one for the same
challenge or while the fields are not those that the OTP was generated for, and in which no restart
changes a field that a request that has passed has yet to read (`logins_keep_codes`).
-/

namespace NbeAdvisor

open Interleave

/-- A comparison that goes well is the first one for its challenge, and finds the data of the
customer whom the OTP was generated for; a restart does not change a field that a request that has
passed has yet to read. -/
def LoginTask.Undisturbed (p : Pool LoginServer LoginTask) : LoginTask → Prop
  | verify id otp (.checking .matches) =>
    ∀ c ∈ p.store.object id, c.otp = some (strip otp) →
      (∀ t ∈ p.threads, t.passed ≠ some id) ∧ ∀ k ∈ p.store.otpFor id, c.IsOf k
  | start id _ (.writing f k _) =>
    ∀ g ∈ f.codeField, ∀ c ∈ p.store.object id, g.ofChallenge c ≠ g.ofIdentity k →
      ∀ t ∈ p.threads, ¬t.WillRead id g
  | _ => True

/-- The request that takes a step is undisturbed. -/
def Undisturbed (p : Pool LoginServer LoginTask) : Action LoginTask Heard → Prop
  | .arrive _ => True
  | .run i _ => ∀ t ∈ p.threads[i]?, t.Undisturbed p

/-! ## The invariants -/

/-- The code has the four fields of the customer. -/
def AuthorizationCode.IsFor (x : AuthorizationCode) (k : BankIdentity) : Prop :=
  x.customerId = some k.customerId ∧ x.email = some k.email ∧ x.phone = some k.phone ∧
    x.name = k.name

/-- Codes are for the customer whose OTP was matched. -/
structure LoginServer.Sound (s : LoginServer) : Prop where
  codes : s.authCodes = s.issued.map Issue.code
  sent : ∀ id, ∀ c ∈ s.object id, c.otp ≠ none → s.otpFor id ≠ none
  own : ∀ x ∈ s.issued, ∃ k, x.matchedFor = some k ∧ x.code.IsFor k

/-- A request that has passed has read, or will read, the fields of the customer whose OTP it
matched. -/
def LoginTask.Own (s : LoginServer) : LoginTask → Prop
  | verify id _ (.reading f d) => ∃ k, d.matchedFor = some k ∧
    ∀ g : CodeField, (g ∈ f.rest → ∀ c ∈ s.object id, g.ofChallenge c = g.ofIdentity k) ∧
      (g ∉ f.rest → g.ofDraft d = g.ofIdentity k)
  | verify _ _ (.creating d) => ∃ k, d.matchedFor = some k ∧
    ∀ g : CodeField, g.ofDraft d = g.ofIdentity k
  | _ => True

/-- The codes are of the identities that they were made for, and every request knows its own. -/
abbrev CodesOwn : Pool LoginServer LoginTask → Prop :=
  Everywhere LoginServer.Sound fun _ s t => t.Own s

section Own

variable {s s' : LoginServer} {t t' : LoginTask} {id : ChallengeId}

theorem LoginServer.Same.object (h : s.Same s') : s'.object id = s.object id := by
  unfold LoginServer.object
  rw [h.objects]

theorem LoginServer.Same.sound (h : s.Same s') (hs : s.Sound) : s'.Sound where
  codes := by rw [h.authCodes, h.issued, hs.codes]
  sent id c hc := by
    rw [h.object] at hc
    unfold otpFor
    rw [h.sent]
    exact hs.sent id c hc
  own := by
    rw [h.issued]
    exact hs.own

theorem LoginTask.Own.of_passed (h : t.passed = none) : t.Own s := by
  unfold Own
  split
  · cases h
  · cases h
  · trivial

/-- What a request relies on are the fields of its challenge that it has not read yet. -/
theorem LoginTask.Own.mono (h : t.Own s) (hc : ∀ id g, t.WillRead id g →
    ∀ c ∈ s'.object id, ∃ d ∈ s.object id, g.ofChallenge c = g.ofChallenge d) : t.Own s' := by
  unfold Own at h ⊢
  split at h
  · obtain ⟨k, hk, hall⟩ := h
    refine ⟨k, hk, fun g => ⟨fun hg c hc' => ?_, (hall g).2⟩⟩
    obtain ⟨d, hd, hcd⟩ := hc _ g ⟨rfl, hg⟩ c hc'
    rw [hcd, (hall g).1 hg d hd]
  · exact h
  · trivial

theorem LoginServer.Sound.write {now : Instant} {k : BankIdentity} {otp : String} {f : OtpField}
    (hs : s.Sound) : (s.write id now k otp f).Sound where
  codes := hs.codes
  sent j c hc := by
    rw [object_write] at hc
    obtain ⟨d, hd, rfl⟩ := Option.map_eq_some_iff.1 hc
    rw [otpFor_write]
    intro hotp
    by_cases hwrites : f = .otp ∧ id = j
    · rw [if_pos hwrites]
      exact nofun
    · rw [if_neg hwrites]
      refine hs.sent j d hd ?_
      split at hotp
      · next hid =>
        have hf : f ≠ .otp := fun h => hwrites ⟨h, hid ▸ object_id hd⟩
        cases f <;> first | exact hotp | exact absurd rfl hf
      · exact hotp
  own := hs.own

theorem LoginServer.Sound.issue (hs : s.Sound) {x : Issue} {k : BankIdentity}
    (hx : x.matchedFor = some k) (hown : x.code.IsFor k) : (s.issue x).Sound where
  codes := by
    simp [LoginServer.issue, OauthStore.createAuthorizationCode, hs.codes]
  sent := hs.sent
  own y hy := by
    rcases List.mem_append.1 hy with hy | hy
    · exact hs.own y hy
    · rw [List.mem_singleton.1 hy]
      exact ⟨k, hx, hown⟩

/-- A request reads its next field. -/
theorem LoginTask.Own.read {otp : String} {f g : CodeField} {c : Challenge} {d : Draft}
    (h : (verify id otp (.reading f d)).Own s) (hc : s.object id = some c)
    (hnext : f.next = some g) : (verify id otp (.reading g (f.read c d))).Own s := by
  obtain ⟨k, hk, hall⟩ := h
  refine ⟨k, by rw [CodeField.matchedFor_read, hk], fun e => ⟨fun he => ?_, fun he => ?_⟩⟩
  · exact (hall e).1 ((CodeField.mem_rest_of_next hnext).1 he).1
  · rw [CodeField.ofDraft_read]
    split
    · next hef =>
      subst hef
      exact (hall e).1 (by cases e <;> decide) c hc
    · next hef => exact (hall e).2 fun hmem => he ((CodeField.mem_rest_of_next hnext).2 ⟨hmem, hef⟩)

/-- It has read its last field. -/
theorem LoginTask.Own.hasRead {otp : String} {c : Challenge} {d : Draft}
    (h : (verify id otp (.reading .name d)).Own s) (hc : s.object id = some c) :
    (verify id otp (.creating (CodeField.name.read c d))).Own s := by
  obtain ⟨k, hk, hall⟩ := h
  refine ⟨k, hk, fun g => ?_⟩
  rw [CodeField.ofDraft_read]
  split
  · next hg =>
    subst hg
    exact (hall .name).1 (by decide) c hc
  · next hg => exact (hall g).2 (by simpa [CodeField.rest] using hg)

theorem CodesOwn.next {p q : Pool LoginServer LoginTask} {a : Action LoginTask Heard}
    (hp : CodesOwn p) (hok : Undisturbed p a) (hn : loginServer.Next p a q) : CodesOwn q := by
  refine Everywhere.next hp hn (fun t ha hbegins => ?_) fun i r t s' t' new ha hi hs => ?_
  · cases t with
    | start id customerBankId t => trivial
    | verify id otp t =>
      obtain rfl : t = .getting := hbegins
      trivial
  subst ha
  obtain ⟨⟨s', t'⟩, hstep, heq⟩ := Option.map_eq_some_iff.1 hs
  cases heq
  have hok : t.Undisturbed p := hok t hi
  have ht := hp.threads i t hi
  suffices h : s'.Sound ∧ t'.Own s' ∧ ∀ id g, (∃ u ∈ p.threads, u.WillRead id g) →
      ∀ c ∈ s'.object id, ∃ d ∈ p.store.object id, g.ofChallenge c = g.ofChallenge d from
    ⟨h.1, h.2.1, fun j u _ hu => (List.not_mem_nil hu).elim, fun j u _ hj =>
      (hp.threads j u hj).mono fun id g hid => h.2.2 id g ⟨u, List.mem_of_getElem? hj, hid⟩⟩
  have hsame : ∀ {s' : LoginServer}, p.store.Same s' → ∀ id (g : CodeField), (∃ u ∈ p.threads,
      u.WillRead id g) → ∀ c ∈ s'.object id, ∃ d ∈ p.store.object id,
        g.ofChallenge c = g.ofChallenge d := fun hs id g _ c hc => ⟨c, hs.object ▸ hc, rfl⟩
  cases LoginTask.step_moves hstep with
  | quiet hquiet _ hafter => exact ⟨hquiet.sound hp.store, .of_passed hafter, hsame hquiet⟩
  | @wrote id customerBankId otp f k t' =>
    refine ⟨hp.store.write, trivial, fun j g hreads c hc => ?_⟩
    rw [LoginServer.object_write] at hc
    obtain ⟨d, hd, rfl⟩ := Option.map_eq_some_iff.1 hc
    refine ⟨d, hd, ?_⟩
    split
    · next hid =>
      rw [OtpField.ofChallenge_write]
      split
      · next hf =>
        obtain ⟨u, hu, hreads⟩ := hreads
        obtain rfl : d.id = j := LoginServer.object_id hd
        subst hid
        by_contra hne
        exact hok g hf d hd (fun h => hne h.symm) u hu hreads
      · rfl
    · rfl
  | @matched id otp c hc hmatch =>
    obtain ⟨-, hcustomer⟩ := hok c hc hmatch
    obtain ⟨k, hk⟩ := Option.ne_none_iff_exists'.1 (hp.store.sent id c hc (by simp [hmatch]))
    refine ⟨hp.store, ⟨k, hk, fun g => ⟨fun _ d hd => ?_, fun hg => ?_⟩⟩, hsame (.refl _)⟩
    · rw [← Option.mem_unique hc hd]
      exact (hcustomer k hk).field g
    · exact absurd g.mem_rest hg
  | read hc hnext => exact ⟨hp.store, ht.read hc hnext, hsame (.refl _)⟩
  | hasRead hc => exact ⟨hp.store, ht.hasRead hc, hsame (.refl _)⟩
  | @made id otp c d hc =>
    obtain ⟨k, hk, hall⟩ := ht
    refine ⟨hp.store.issue hk ?_, trivial, fun j _ _ c hc => ⟨c, hc, rfl⟩⟩
    exact ⟨hall .customerId, hall .email, hall .phone, hall .name⟩
  | @popped id otp code c hc =>
    have hpop := p.store.same_pop id
    exact ⟨hpop.sound hp.store, trivial, hsame hpop⟩

end Own

/-- One request at most has passed for each challenge, and a code is of one that has. -/
structure OneCode (p : Pool LoginServer LoginTask) : Prop where
  winner : ∀ id, AtMostOne (fun t => t.passed = some id) p.threads
  maker : ∀ x ∈ p.store.issued, ∃ (j : ℕ) (t : LoginTask), p.threads[j]? = some t ∧
    t.made = some x.id
  once : (p.store.issued.map Issue.id).Nodup

theorem LoginTask.passed_of_made {t : LoginTask} {id : ChallengeId} (h : t.made = some id) :
    t.passed = some id := by
  unfold made at h
  split at h
  · exact h
  · exact h
  · cases h

/-- What a step does to who has passed and who has made a code. -/
theorem LoginTask.Moves.codes {s s' : LoginServer} {r : Heard} {t t' : LoginTask}
    (h : Moves s r t s' t') :
    (s'.issued = s.issued ∧ (∀ id, t.made = some id → t'.made = some id) ∧
      ∀ id, t'.passed = some id → t.passed = some id ∨
        ∃ otp, t = verify id otp (.checking .matches) ∧ ∃ c ∈ s.object id, c.otp = some (strip otp)) ∨
    ∃ x, s'.issued = s.issued ++ [x] ∧ t.made = none ∧ t.passed = some x.id ∧
      t'.passed = some x.id ∧ t'.made = some x.id := by
  cases h with
  | @quiet t t' s' hsame hbefore hafter =>
    refine Or.inl ⟨hsame.issued, fun id hid => ?_, fun id hid => ?_⟩
    · rw [passed_of_made hid] at hbefore
      cases hbefore
    · rw [hid] at hafter
      cases hafter
  | wrote t' => exact Or.inl ⟨rfl, fun _ h => h, fun _ h => Or.inl h⟩
  | @matched id otp c hc hmatch =>
    refine Or.inl ⟨rfl, nofun, fun j hj => Or.inr ?_⟩
    obtain rfl := Option.some.inj hj
    exact ⟨otp, rfl, c, hc, hmatch⟩
  | read hc hnext => exact Or.inl ⟨rfl, nofun, fun _ h => Or.inl h⟩
  | hasRead hc => exact Or.inl ⟨rfl, nofun, fun _ h => Or.inl h⟩
  | made hc => exact Or.inr ⟨_, rfl, rfl, rfl, rfl, rfl⟩
  | popped hc => exact Or.inl ⟨rfl, fun _ h => h, fun _ h => Or.inl h⟩

section OneCode

variable {p q : Pool LoginServer LoginTask} {i : ℕ} {s' : LoginServer} {t t' : LoginTask}

theorem OneCode.arrive (hp : OneCode p) (ht : t.Begins) : OneCode ⟨p.store, p.threads ++ [t]⟩ := by
  have hpassed : t.passed = none := by
    cases t with
    | start id customerBankId t => rfl
    | verify id otp t =>
      obtain rfl : t = .getting := ht
      rfl
  refine ⟨fun id => (hp.winner id).snoc (by simp [hpassed]), fun x hx => ?_, hp.once⟩
  obtain ⟨j, u, hj, hu⟩ := hp.maker x hx
  exact ⟨j, u, by rwa [List.getElem?_append_left (List.getElem?_eq_some_iff.1 hj).1], hu⟩

/-- A step that makes no code, of a request that is the first to pass if it passes now. -/
theorem OneCode.keep (hp : OneCode p) (hi : p.threads[i]? = some t)
    (hissued : s'.issued = p.store.issued) (hmade : ∀ id, t.made = some id → t'.made = some id)
    (hpassed : ∀ id, t'.passed = some id → t.passed = some id ∨ ∀ u ∈ p.threads, u.passed ≠ some id) :
    OneCode ⟨s', p.threads.set i t' ++ []⟩ := by
  have hlt := (List.getElem?_eq_some_iff.1 hi).1
  refine ⟨fun id => ?_, fun x hx => ?_, hissued ▸ hp.once⟩
  · by_cases hid : t'.passed = some id
    · rcases hpassed id hid with ht | hfirst
      · exact (hp.winner id).keep hi (fun _ => ht) (by simp)
      · exact AtMostOne.take hi (fun j u _ hj => hfirst u (List.mem_of_getElem? hj)) (by simp)
    · exact (hp.winner id).keep hi (fun h => absurd h hid) (by simp)
  · obtain ⟨j, u, hj, hu⟩ := hp.maker x (hissued ▸ hx)
    by_cases hji : j = i
    · subst hji
      obtain rfl := Option.some.inj (hi.symm.trans hj)
      exact ⟨j, t', getElem?_set_append_self hlt, hmade _ hu⟩
    · exact ⟨j, u, getElem?_set_append_ne hji hj, hu⟩

/-- A request that has passed makes its code. -/
theorem OneCode.issue (hp : OneCode p) (hi : p.threads[i]? = some t) {x : Issue}
    (hissued : s'.issued = p.store.issued ++ [x]) (hunmade : t.made = none)
    (hbefore : t.passed = some x.id) (hafter : t'.passed = some x.id) (hmade : t'.made = some x.id) :
    OneCode ⟨s', p.threads.set i t' ++ []⟩ := by
  have hlt := (List.getElem?_eq_some_iff.1 hi).1
  have hother : ∀ (j : ℕ) (u : LoginTask) (id : ChallengeId), p.threads[j]? = some u →
      u.made = some id → j ≠ i := by
    rintro j u id hj hu rfl
    obtain rfl := Option.some.inj (hi.symm.trans hj)
    rw [hunmade] at hu
    cases hu
  refine ⟨fun id => ?_, fun y hy => ?_, ?_⟩
  · refine (hp.winner id).keep hi (fun h => ?_) (by simp)
    rw [hbefore, ← hafter, h]
  · rw [hissued] at hy
    rcases List.mem_append.1 hy with hy | hy
    · obtain ⟨j, u, hj, hu⟩ := hp.maker y hy
      exact ⟨j, u, getElem?_set_append_ne (hother j u _ hj hu) hj, hu⟩
    · rw [List.mem_singleton.1 hy]
      exact ⟨i, t', getElem?_set_append_self hlt, hmade⟩
  · rw [hissued]
    refine Keyed.nodup_map_snoc hp.once fun y hy hsame => ?_
    obtain ⟨j, u, hj, hu⟩ := hp.maker y hy
    exact hother j u _ hj hu
      (hp.winner x.id j i u t hj hi (hsame ▸ LoginTask.passed_of_made hu) hbefore)

theorem OneCode.next {a : Action LoginTask Heard} (hp : OneCode p) (hok : Undisturbed p a)
    (hn : loginServer.Next p a q) : OneCode q := by
  cases hn with
  | arrive ht => exact hp.arrive ht
  | @run i r t t' s' new hi hs =>
    obtain ⟨⟨s', t'⟩, hstep, heq⟩ := Option.map_eq_some_iff.1 hs
    cases heq
    have hok : t.Undisturbed p := hok t hi
    rcases (LoginTask.step_moves hstep).codes with
      ⟨hissued, hmade, hpassed⟩ | ⟨x, hissued, hunmade, hbefore, hafter, hmade⟩
    · refine hp.keep hi hissued hmade fun id hid => (hpassed id hid).imp_right ?_
      rintro ⟨otp, rfl, c, hc, hmatch⟩
      exact (hok c hc hmatch).1
    · exact hp.issue hi hissued hunmade hbefore hafter hmade

end OneCode

/-- No login has been started, and no code made. -/
structure LoginServer.Unused (s : LoginServer) : Prop where
  otps : ∀ c ∈ s.objects, c.otp = none
  authCodes : s.authCodes = []
  issued : s.issued = []

/-- Each challenge gives one code at most, and a code carries the customer, with all four fields,
whom the matched OTP was generated for. -/
structure LoginServer.KeepsCodes (s : LoginServer) : Prop where
  all : s.authCodes = s.issued.map Issue.code
  once : (s.issued.map Issue.id).Nodup
  own : ∀ x ∈ s.issued, ∃ k, x.matchedFor = some k ∧ x.code.IsFor k

/-- Any number of requests to start and to verify logins, in any interleaving without the two
disturbances. -/
theorem logins_keep_codes {p q : Pool LoginServer LoginTask} (hstore : p.store.Unused)
    (hstart : ∀ t ∈ p.threads, t.Begins) (hrun : loginServer.Run Undisturbed p q) :
    q.store.KeepsCodes := by
  have hbegins : ∀ t ∈ p.threads, (∃ id k, t = .start id k .getting) ∨
      ∃ id otp, t = .verify id otp .getting := by
    intro t ht
    have h := hstart t ht
    cases t with
    | start id k t => exact Or.inl ⟨id, k, by rw [show t = .getting from h]⟩
    | verify id otp t => exact Or.inr ⟨id, otp, by rw [show t = .getting from h]⟩
  have hown : CodesOwn p := by
    refine ⟨⟨by rw [hstore.authCodes, hstore.issued]; rfl, fun id c hc hotp => ?_, ?_⟩, ?_⟩
    · exact absurd (hstore.otps c (List.mem_of_find?_eq_some hc)) hotp
    · simp [hstore.issued]
    · intro i t hi
      rcases hbegins t (List.mem_of_getElem? hi) with ⟨id, k, rfl⟩ | ⟨id, otp, rfl⟩ <;> trivial
  have hone : OneCode p := by
    refine ⟨fun id i j t u hi _ ht => ?_, by simp [hstore.issued], by simp [hstore.issued]⟩
    rcases hbegins t (List.mem_of_getElem? hi) with ⟨id, k, rfl⟩ | ⟨id, otp, rfl⟩ <;> cases ht
  have hq : CodesOwn q := hrun.invariant (fun _ _ _ h hok hn => h.next hok hn) hown
  have hq' : OneCode q := hrun.invariant (fun _ _ _ h hok hn => h.next hok hn) hone
  exact ⟨hq.store.codes, hq'.once, hq.store.own⟩

/-! ## Two customers -/

instance (p : Pool LoginServer LoginTask) : (t : LoginTask) → Decidable (t.Undisturbed p)
  | .verify id otp (.checking .matches) => inferInstanceAs (Decidable
      (∀ c ∈ p.store.object id, c.otp = some (strip otp) →
        (∀ t ∈ p.threads, t.passed ≠ some id) ∧ ∀ k ∈ p.store.otpFor id, c.IsOf k))
  | .start id _ (.writing f k _) => inferInstanceAs (Decidable
      (∀ g ∈ f.codeField, ∀ c ∈ p.store.object id, g.ofChallenge c ≠ g.ofIdentity k →
        ∀ t ∈ p.threads, ¬t.WillRead id g))
  | .verify _ _ .getting | .verify _ _ (.checking .otpSet) | .verify _ _ (.checking .customerSet)
  | .verify _ _ (.checking .phoneSet) | .verify _ _ (.checking .expirySet)
  | .verify _ _ (.checking .notExpired) | .verify _ _ (.reading _ _) | .verify _ _ (.creating _)
  | .verify _ _ (.popping _) | .verify _ _ (.answered _) | .start _ _ .getting | .start _ _ .asking
  | .start _ _ (.setting _) | .start _ _ .mailing | .start _ _ (.answered _) => .isTrue trivial

instance (p : Pool LoginServer LoginTask) : (a : Action LoginTask Heard) → Decidable (Undisturbed p a)
  | .arrive _ => .isTrue trivial
  | .run i _ => inferInstanceAs (Decidable (∀ t ∈ p.threads[i]?, t.Undisturbed p))

/-- One challenge, two verifications with the OTP of the first login, and a start for each of two
customers. -/
def twoCustomers : Pool LoginServer LoginTask where
  store :=
    { objects := [{ id := 0, clientId := "nbe", redirectUri := "http://app/cb", expiresAt := 100 }]
      challenges := [0] }
  threads :=
    [.start 0 "mona" .getting, .verify 0 "111111" .getting, .verify 0 "111111" .getting,
      .start 0 "omar" .getting]

/-- What the directory says of a customer. -/
def customerRecord (customerId : String) : DirectoryReply :=
  .record (some customerId) (some "c@example.org") (some "0100") none

/-- A start up to its mail. -/
def startSteps (i : ℕ) (customerId otp : String) : List (Action LoginTask Heard) :=
  [.run i {}, .run i { reply := customerRecord customerId }, .run i { generated := otp }] ++
    List.replicate 6 (.run i {}) ++ [.run i {}]

theorem twoCustomers_unused : twoCustomers.store.Unused := ⟨by decide, rfl, rfl⟩

/-- The first start, a verification with its OTP, and a start that comes too late. -/
def oneAfterTheOther : List (Action LoginTask Heard) :=
  startSteps 0 "cust-1" "111111" ++ List.replicate 11 (.run 1 {}) ++
    [.run 1 { generated := "code-1" }, .run 1 {}, .run 3 {}]

theorem logins_keep_codes_one : ∃ q : Pool LoginServer LoginTask,
    q.store.issued.map (fun x => (x.id, x.code.customerId)) = [(0, some "cust-1")] ∧
      q.store.KeepsCodes := by
  obtain ⟨q, hq, hissued⟩ : ∃ q ∈ loginServer.exec oneAfterTheOther twoCustomers,
      q.store.issued.map (fun x => (x.id, x.code.customerId)) = [(0, some "cust-1")] := by
    decide +kernel
  exact ⟨q, hissued, logins_keep_codes twoCustomers_unused (by decide)
    (.of_exec_meets (by decide +kernel) hq)⟩

/-- Both verifications pass with the OTP that was sent to the first customer, and one makes its
code. After the second start the other makes a code, too. -/
def restartInBetween : List (Action LoginTask Heard) :=
  startSteps 0 "cust-1" "111111" ++ List.replicate 7 (.run 1 {}) ++ List.replicate 7 (.run 2 {}) ++
    List.replicate 4 (.run 1 {}) ++ [.run 1 { generated := "code-1" }] ++
    startSteps 3 "cust-2" "222222" ++ List.replicate 4 (.run 2 {}) ++
    [.run 2 { generated := "code-2" }]

/-- One challenge gives two codes, and with the OTP of one customer the other one is let in. -/
theorem twoCodes_ofOneChallenge : ∃ q : Pool LoginServer LoginTask,
    twoCustomers.store.Unused ∧ (∀ t ∈ twoCustomers.threads, t.Begins) ∧
      loginServer.Run (fun _ _ => True) twoCustomers q ∧
      ¬(q.store.issued.map Issue.id).Nodup ∧ ∃ x ∈ q.store.issued,
        x.matchedFor.map (·.customerId) = some "cust-1" ∧ x.code.customerId = some "cust-2" := by
  obtain ⟨q, hq, htwo, hother⟩ : ∃ q ∈ loginServer.exec restartInBetween twoCustomers,
      ¬(q.store.issued.map Issue.id).Nodup ∧ ∃ x ∈ q.store.issued,
        x.matchedFor.map (·.customerId) = some "cust-1" ∧ x.code.customerId = some "cust-2" := by
    decide +kernel
  exact ⟨q, twoCustomers_unused, by decide, .of_exec hq, htwo, hother⟩

end NbeAdvisor
