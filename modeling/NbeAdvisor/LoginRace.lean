import NbeAdvisor.BankTables
import NbeAdvisor.LinkOutcome

/-!
# Bank logins at once

Any number of bank-login callbacks, in any interleaving, with token responses that name a
customer. Two callbacks of one customer may both look him up before either has created him.
The second insert then waits for the first transaction, finds its row and is rolled back
with the user that it came with, and the callback recovers by a second lookup. An insert
that fails because somebody else has the email finds no connection there, and the callback
ends with a conflict.

So every customer has one connection and one user, and all sessions for him are for that user. A
connection that comes after some moment of the run belongs to a user that comes after it, and every
user that is new belongs to a callback that has created the connection too (`bankLogins_oneUser`).
-/

namespace NbeAdvisor

open Interleave

/-- A bank login comes in. -/
def BankTask.StartsLogin : BankTask → Prop
  | login (.redeeming _) => True
  | _ => False

instance : DecidablePred BankTask.StartsLogin
  | .login (.redeeming _) => .isTrue trivial
  | .login (.exchanging _ _) | .login (.lookingUp _) | .login (.savingPhone _ _ _)
  | .login (.savingTokens _ _ _) | .login (.refreshing _ _ _) | .login (.checkingEmail _)
  | .login (.fetching _) | .login (.creatingUser _ _) | .login (.creatingConnection _ _ _)
  | .login (.committing _ _ _ _) | .login (.recovering _) | .login (.applying _ _ _ _ _)
  | .login (.backfilling _ _ _ _) | .login (.answered _ _ _) => .isFalse id
  | .initiate _ | .callback _ _ | .webhook _ _ | .ingest _ | .ingested => .isFalse id

/-- Only bank logins come in, and every response that is accepted names a customer. -/
def NamedLogins (_ : Pool BankStore BankTask) : Action BankTask BankReply → Prop
  | .arrive t => t.StartsLogin
  | .run _ (.token r) => ∀ token ∈ (exchangeCodeForToken r).toOption, token.externalCustomerId ≠ none
  | _ => True

instance (p : Pool BankStore BankTask) : DecidablePred (NamedLogins p)
  | .arrive t => inferInstanceAs (Decidable t.StartsLogin)
  | .run _ (.token r) => inferInstanceAs (Decidable
      (∀ token ∈ (exchangeCodeForToken r).toOption, token.externalCustomerId ≠ none))
  | .run _ .done | .run _ (.minted _) | .run _ (.redeemed _) | .run _ (.accounts _)
  | .run _ (.transactions _) | .run _ (.enqueued _) => .isTrue trivial

/-- The row that `c₀` was, with its user and customer. -/
def BankConnection.Continues (c c₀ : BankConnection) : Prop := c.tag = c₀.tag ∧ c.user = c₀.user

theorem BankConnection.Continues.trans {c d e : BankConnection} (h : c.Continues d)
    (h' : d.Continues e) : c.Continues e :=
  ⟨h.1.trans h'.1, h.2.trans h'.2⟩

namespace BankStore

/-- A connection of the user carries the customer. -/
def Serves (s : BankStore) (k : BankCustomer) (user : UserId) : Prop :=
  ∃ c ∈ s.connections, c.user = user ∧ c.providerSlug = k.providerSlug ∧
    c.externalCustomerId = k.token.customer

/-- The connections stay, with their users and customers. -/
def KeepsCustomers (s s' : BankStore) : Prop :=
  ∀ c ∈ s.connections, ∃ c' ∈ s'.connections, c'.Continues c

variable {s s' : BankStore} {k : BankCustomer} {user : UserId}

/-- What leaves the connections keeps the customers. -/
theorem KeepsCustomers.of_connections (h : s'.connections = s.connections) : s.KeepsCustomers s' :=
  fun c hc => ⟨c, h ▸ hc, rfl, rfl⟩

/-- A user who serves a customer goes on to. -/
theorem Serves.mono (h : s.Serves k user) (hk : s.KeepsCustomers s') : s'.Serves k user := by
  obtain ⟨c, hc, hu, hslug, hcust⟩ := h
  obtain ⟨c', hc', htag, huser⟩ := hk c hc
  simp only [BankConnection.tag, Prod.mk.injEq] at htag
  exact ⟨c', hc', huser.trans hu, htag.2.1.trans hslug, htag.2.2.trans hcust⟩

end BankStore

section Logins

variable {sp : Spelling} {tax : Taxonomy} {i : ℕ} {s₀ s s' : BankStore}

/-- What a login knows of the customer it serves. -/
def BankLogin.Serving (s : BankStore) : BankLogin → Prop
  | lookingUp k | checkingEmail k | fetching k | creatingUser k _ | recovering k
  | creatingConnection k _ _ => k.token.externalCustomerId ≠ none
  | committing k _ user c => k.token.externalCustomerId ≠ none ∧ c.user = user.id ∧
      c.providerSlug = k.providerSlug ∧ c.externalCustomerId = k.token.customer
  | savingPhone k _ user | savingTokens k _ user | refreshing k _ user =>
    k.token.externalCustomerId ≠ none ∧ s.Serves k user.id
  | applying k _ user _ _ | backfilling k _ user _ | answered (some k) _ (.ok user) =>
    k.token.externalCustomerId ≠ none ∧ s.Serves k user
  | redeeming _ | exchanging _ _ | answered _ _ _ => True

/-- What a login relies on stays. -/
theorem BankLogin.Serving.mono {t : BankLogin} (h : t.Serving s) (hk : s.KeepsCustomers s') :
    t.Serving s' := by
  cases t with
  | savingPhone k c user | savingTokens k c user | refreshing k c user => exact ⟨h.1, h.2.mono hk⟩
  | applying k new user c l | backfilling k new user b => exact ⟨h.1, h.2.mono hk⟩
  | answered k new r =>
    cases k with
    | none => trivial
    | some k =>
      cases r with
      | error e => trivial
      | ok user => exact ⟨h.1, h.2.mono hk⟩
  | _ => exact h

/-- No statement of a bank login changes a customer. -/
theorem BankLogin.Moves.keepsCustomers {t t' : BankLogin} {r : BankReply} {tasks : List IngestTask}
    (h : Moves sp i s t r s' t' tasks) : s.KeepsCustomers s' := by
  cases h with
  | @tokensSaved k c₁ user hfits =>
    intro c hc
    obtain ⟨u, hu, rfl | ⟨-, rfl⟩⟩ :=
      BankStore.exists_mem_saveConnection (k := c₁.id) (f := .refresh k.token) hc
    · exact ⟨u, hu, rfl, rfl⟩
    · exact ⟨_, hu, rfl, rfl⟩
  | committed => exact fun c hc => ⟨c, List.mem_append_left _ hc, rfl, rfl⟩
  | applied happly =>
    obtain ⟨accounts, ledger, -, rfl⟩ := BankStore.applyAccounts_eq_ok happly
    exact .of_connections rfl
  | _ => exact .of_connections rfl

/-- Who is found serves the customer. -/
theorem BankStore.Provisioned.serves_of_resolve (hs : s.Provisioned) {k : BankCustomer}
    {c : BankConnection} {user : User}
    (h : s.resolve k.providerSlug k.token.externalCustomerId = some (c, user)) :
    s.Serves k user.id := by
  obtain ⟨hc, hslug, hcust, -, hid⟩ := resolve_eq_some h
  exact ⟨c, hc, hid.symm, hslug, hs.customer_eq hc hcust⟩

/-- A login goes on to serve its customer. -/
theorem BankLogin.Moves.serving {t t' : BankLogin} {r : BankReply} {tasks : List IngestTask}
    (h : Moves sp i s t r s' t' tasks) (hs : s.Provisioned) {p : Pool BankStore BankTask}
    (hok : NamedLogins p (.run i r)) (ht : t.Serving s) : t'.Serving s' := by
  have hk := h.keepsCustomers
  cases h with
  | refused r k e => cases k <;> trivial
  | redeemed hslug => trivial
  | exchanged htoken => exact hok _ (by rw [htoken]; rfl)
  | foundNoPhone hres hphone | found hres hphone => exact ⟨ht, hs.serves_of_resolve hres⟩
  | tokensSaved hfits => exact ⟨ht.1, ht.2.mono hk⟩
  | connectionRefused e | applyFailed e | stopped e hb => trivial
  | connectionCreated hc => exact ⟨ht, hc ▸ rfl, hc ▸ rfl, hc ▸ rfl⟩
  | committed =>
    exact ⟨ht.1, _, List.mem_append_right _ (List.mem_singleton.2 rfl), ht.2⟩
  | recovered hres => exact ⟨ht, hs.serves_of_resolve hres⟩
  | applied happly => exact ⟨ht.1, ht.2.mono hk⟩
  | unknown | phoneSaved | fetchSkipped | refetched | emailFree | fetched | userExists | userCreated
  | connectionExists | backfilled | backfills => exact ht

/-- A step commits the user and the connection of a first login, or adds neither. -/
theorem BankLogin.Moves.commits {t t' : BankLogin} {r : BankReply} {tasks : List IngestTask}
    (h : Moves sp i s t r s' t' tasks) :
    (t'.newConnection = t.newConnection ∧ s'.users.map (·.id) = s.users.map (·.id) ∧
      ∀ c' ∈ s'.connections, ∃ c ∈ s.connections, c'.Continues c) ∨
    ∃ k l user c, t = committing k l user c ∧ t'.newConnection = some c ∧
      s'.users = s.users ++ [user] ∧ s'.connections = s.connections ++ [c] := by
  have hsame : ∀ c' ∈ s.connections, ∃ c ∈ s.connections, c'.Continues c := fun c hc =>
    ⟨c, hc, rfl, rfl⟩
  cases h with
  | refused r k e hend htx hnew => exact Or.inl ⟨hnew.symm, rfl, hsame⟩
  | phoneSaved hphone => exact Or.inl ⟨rfl, Keyed.map_modify fun _ => rfl, hsame⟩
  | tokensSaved hfits =>
    refine Or.inl ⟨rfl, rfl, fun c' hc' => ?_⟩
    rcases Keyed.mem_modify.1 hc' with ⟨hc', -⟩ | ⟨c, hc, -, rfl⟩
    · exact hsame c' hc'
    · exact ⟨c, hc, rfl, rfl⟩
  | committed => exact Or.inr ⟨_, _, _, _, rfl, rfl, rfl, rfl⟩
  | applied happly =>
    obtain ⟨accounts, ledger, -, rfl⟩ := BankStore.applyAccounts_eq_ok happly
    exact Or.inl ⟨rfl, rfl, hsame⟩
  | _ => exact Or.inl ⟨rfl, rfl, hsame⟩

/-! ## The whole pool -/

/-- What has become of the tables since `s₀`. -/
structure BankStore.Since (s₀ s : BankStore) : Prop where
  provisioned : s.Provisioned
  users : ∀ id ∈ s₀.users.map (·.id), id ∈ s.users.map (·.id)
  connections : ∀ c ∈ s.connections,
    (∃ c₀ ∈ s₀.connections, c.Continues c₀) ∨ c.user ∉ s₀.users.map (·.id)

theorem BankStore.Since.refl (hs : s.Provisioned) : s.Since s :=
  ⟨hs, fun _ h => h, fun c hc => Or.inl ⟨c, hc, rfl, rfl⟩⟩

/-- It leaves the connections of those who were there. -/
theorem BankLogin.Moves.since {t t' : BankLogin} {r : BankReply} {tasks : List IngestTask}
    (h : Moves sp i s t r s' t' tasks) (hs : s₀.Since s) (hh : s.Holding i (.login t))
    (ht : t.Serving s) : s₀.Since s' := by
  refine ⟨h.provisioned hs.provisioned hh, fun id hid => ?_, fun c' hc' => ?_⟩
  · rcases h.commits with ⟨-, hids, -⟩ | ⟨k, l, user, c, -, -, hu, -⟩
    · exact hids ▸ hs.users id hid
    · rw [hu, List.map_append]
      exact List.mem_append_left _ (hs.users id hid)
  · rcases h.commits with ⟨-, -, hconn⟩ | ⟨k, l, user, c, rfl, -, -, hconn⟩
    · obtain ⟨c, hc, hcont⟩ := hconn c' hc'
      rcases hs.connections c hc with ⟨c₀, hc₀, h₀⟩ | hnew
      · exact Or.inl ⟨c₀, hc₀, hcont.trans h₀⟩
      · exact Or.inr (hcont.2 ▸ hnew)
    · rw [hconn] at hc'
      rcases List.mem_append.1 hc' with hc' | hc'
      · exact hs.connections c' hc'
      · rw [List.mem_singleton.1 hc', ht.2.1]
        exact Or.inr fun hmem => hs.provisioned.newUsers _ (hh.mem rfl) (hs.users _ hmem)

/-- A login knows the customer it serves, and its new connection is there. -/
def BankTask.Serving (s : BankStore) : BankTask → Prop
  | login t => t.Serving s ∧ ∀ c ∈ t.newConnection, ∃ d ∈ s.connections, d.Continues c
  | ingest _ | ingested => True
  | _ => False

/-- What any thread relies on stays. -/
theorem BankTask.Serving.mono {t : BankTask} (h : t.Serving s) (hk : s.KeepsCustomers s') :
    t.Serving s' := by
  cases t with
  | login t =>
    refine ⟨h.1.mono hk, fun c hc => ?_⟩
    obtain ⟨d, hd, hdc⟩ := h.2 c hc
    obtain ⟨d', hd', hdd⟩ := hk d hd
    exact ⟨d', hd', hdd.trans hdc⟩
  | ingest task | ingested => trivial
  | initiate t | callback req t | webhook body t => exact h.elim

/-- A user who was not there at the start belongs to a login that has created his connection. -/
def NewUsersOwned (s₀ : BankStore) (p : Pool BankStore BankTask) : Prop :=
  ∀ id ∈ p.store.users.map (·.id), id ∈ s₀.users.map (·.id) ∨
    ∃ (j : ℕ) (t : BankLogin) (c : BankConnection), p.threads[j]? = some (.login t) ∧
      t.newConnection = some c ∧ c.user = id

/-- The invariant of the store and of the threads. -/
abbrev LoginsServed (s₀ : BankStore) : Pool BankStore BankTask → Prop :=
  Everywhere s₀.Since fun _ s t => t.Serving s

/-- A step keeps the invariant. -/
theorem LoginsServed.next {p q : Pool BankStore BankTask} {a : Action BankTask BankReply}
    (hp : LoginsServed s₀ p) (hok : NamedLogins p a) (htag : Tagged p)
    (hn : (bankSystem sp tax).Next p a q) : LoginsServed s₀ q := by
  refine Everywhere.next hp hn (fun t ha _ => ?_) fun i r t s' t' new ha hi hs => ?_
  · subst ha
    have ht : t.StartsLogin := hok
    unfold BankTask.StartsLogin at ht
    split at ht
    · exact ⟨trivial, fun c hc => by cases hc⟩
    · exact ht.elim
  subst ha
  have hm := BankTask.step_moves hs
  have ht := hp.threads i t hi
  suffices h : s₀.Since s' ∧ t'.Serving s' ∧ p.store.KeepsCustomers s' from
    ⟨h.1, h.2.1, fun j u _ hu => by
      obtain ⟨task, rfl⟩ := hm.new hu
      trivial, fun j u _ hj => (hp.threads j u hj).mono h.2.2⟩
  cases hm with
  | @logsIn t t' r s' tasks hm =>
    have hk := hm.keepsCustomers
    refine ⟨hm.since hp.store (htag.holding i _ hi) ht.1,
      ⟨hm.serving hp.store.provisioned hok ht.1, fun c hc => ?_⟩, hk⟩
    rcases hm.commits with ⟨hnew, -, -⟩ | ⟨k, l, user, c', -, hnew, -, hconn⟩
    · obtain ⟨d, hd, hdc⟩ := ht.2 c (hnew ▸ hc)
      obtain ⟨d', hd', hdd⟩ := hk d hd
      exact ⟨d', hd', hdd.trans hdc⟩
    · obtain rfl : c' = c := Option.some.inj (hnew.symm.trans hc)
      exact ⟨c', hconn ▸ List.mem_append_right _ (List.mem_singleton.2 rfl), rfl, rfl⟩
  | ingests task =>
    exact ⟨⟨hp.store.provisioned.of_tags rfl rfl rfl, hp.store.users, hp.store.connections⟩, trivial,
      .of_connections rfl⟩
  | initiates hm | callsBack hm | pushes hm => exact ht.elim

/-- A step keeps every new user with the login that made him. -/
theorem NewUsersOwned.next {p q : Pool BankStore BankTask} {a : Action BankTask BankReply}
    (h : NewUsersOwned s₀ p) (hp : LoginsServed s₀ p) (hn : (bankSystem sp tax).Next p a q) :
    NewUsersOwned s₀ q := by
  cases hn with
  | arrive ht =>
    intro id hid
    rcases h id hid with h | ⟨j, u, c, hj, hu⟩
    · exact Or.inl h
    · refine Or.inr ⟨j, u, c, ?_, hu⟩
      rwa [List.getElem?_append_left (List.getElem?_eq_some_iff.1 hj).1]
  | @run i r t t' s' new hi hs =>
    have hlt := (List.getElem?_eq_some_iff.1 hi).1
    have ht := hp.threads i t hi
    cases BankTask.step_moves hs with
    | @logsIn t t' r s' tasks hm =>
      have hold : ∀ id ∈ p.store.users.map (·.id), (t'.newConnection = t.newConnection ∨
          t.newConnection = none) → id ∈ s₀.users.map (·.id) ∨
          ∃ (j : ℕ) (u : BankLogin) (c : BankConnection),
            (p.threads.set i (.login t') ++ tasks.map BankTask.ingest)[j]? = some (.login u) ∧
              u.newConnection = some c ∧ c.user = id := by
        intro id hid hnew
        rcases h id hid with h | ⟨j, u, c, hj, hu, hc⟩
        · exact Or.inl h
        · by_cases hji : j = i
          · subst hji
            obtain rfl : t = u := by simpa [hi] using hj
            refine Or.inr ⟨j, t', c, getElem?_set_append_self hlt, ?_, hc⟩
            rcases hnew with hnew | hnone
            · exact hnew.trans hu
            · rw [hnone] at hu
              cases hu
          · exact Or.inr ⟨j, u, c, getElem?_set_append_ne hji hj, hu, hc⟩
      intro id hid
      rcases hm.commits with ⟨hnew, hids, -⟩ | ⟨k, l, user, c, rfl, hnew, husers, -⟩
      · exact hold id (hids ▸ hid) (Or.inl hnew)
      · rw [husers, List.map_append, List.mem_append] at hid
        rcases hid with hid | hid
        · exact hold id hid (Or.inr rfl)
        · refine Or.inr ⟨i, t', c, getElem?_set_append_self hlt, hnew, ?_⟩
          exact ht.1.2.1.trans (List.mem_singleton.1 hid).symm
    | ingests task =>
      intro id hid
      rcases h id hid with h | ⟨j, u, c, hj, hu⟩
      · exact Or.inl h
      · refine Or.inr ⟨j, u, c, getElem?_set_append_ne ?_ hj, hu⟩
        rintro rfl
        simp [hi] at hj
    | initiates hm | callsBack hm | pushes hm => exact ht.elim

end Logins

/-- A customer has one connection at most. -/
theorem BankStore.Provisioned.length_carries {s : BankStore} (hs : s.Provisioned)
    (providerSlug customer : String) :
    (s.connections.filter fun c => c.Carries providerSlug customer).length ≤ 1 := by
  refine Keyed.length_filter_le_one hs.connectionIds fun c hc d hd hcc hdc => ?_
  have hcc := of_decide_eq_true hcc
  have hdc := of_decide_eq_true hdc
  refine hs.customers c hc d hd ⟨hcc.1.trans hdc.1.symm, ?_, ?_⟩
  · simp [hcc.2]
  · rw [hcc.2, hdc.2]

/-- A login that has ended has no transaction open. -/
theorem BankLogin.Ended.provision_eq_none {t : BankLogin} (h : t.Ended) : t.provision = none := by
  cases t with
  | answered k new r => rfl
  | _ => exact h.elim

/-- The user whom the session of a login is for. -/
def BankTask.session : BankTask → Option UserId
  | login (.answered _ _ (.ok user)) => some user
  | _ => none

/-- Bank logins in any interleaving, with responses that name a customer. Each customer has
at most one connection, and each user one row. A session for a customer is for the user of
his connection. A connection is one of those in `m`, whatever moment of the run that is, or its
user was not there in `m` : no login has attached it to a user whom it found. And a new user
belongs to a login that has created a connection for him : a login that has not leaves
no user behind, and nothing is left uncommitted once all have ended. -/
theorem bankLogins_oneUser {sp : Spelling} {tax : Taxonomy} {p m q : Pool BankStore BankTask}
    (hstore : p.store.Provisioned) (hquiet : p.store.uncommitted = [])
    (hstart : ∀ t ∈ p.threads, t.StartsLogin) (hm : (bankSystem sp tax).Run NamedLogins p m)
    (hmq : (bankSystem sp tax).Run NamedLogins m q) :
    (∀ providerSlug customer,
      (q.store.connections.filter fun c => c.Carries providerSlug customer).length ≤ 1) ∧
    (q.store.users.map (·.id)).Nodup ∧
    (∀ (i : ℕ) (k : BankCustomer) (new : Option BankConnection) (user : UserId),
      q.threads[i]? = some (.login (.answered k new (.ok user))) → q.store.Serves k user) ∧
    (∀ c ∈ q.store.connections, (∃ c₀ ∈ m.store.connections, c.Continues c₀) ∨
      c.user ∉ m.store.users.map (·.id)) ∧
    (∀ user ∈ q.store.users, user.id ∈ p.store.users.map (·.id) ∨
      ∃ (i : ℕ) (t : BankLogin) (c : BankConnection), q.threads[i]? = some (.login t) ∧
        t.newConnection = some c ∧ c.user = user.id ∧ ∃ d ∈ q.store.connections, d.Continues c) ∧
    ((∀ t, .login t ∈ q.threads → t.Ended) → q.store.uncommitted = []) := by
  have hrun := hm.trans hmq
  have hstarts : ∀ t ∈ p.threads, ∃ code, t = .login (.redeeming code) := by
    intro t ht
    have := hstart t ht
    unfold BankTask.StartsLogin at this
    split at this
    · exact ⟨_, rfl⟩
    · exact this.elim
  have htagged : Tagged p := .start hquiet fun t ht => by
    obtain ⟨code, rfl⟩ := hstarts t ht
    trivial
  have htagged_m : Tagged m := hm.invariant (fun _ _ _ h _ hn => h.next hn) htagged
  have hrun₁ := hrun.strengthen (J := Tagged) (fun _ _ _ h _ hn => h.next hn) htagged
  have hm₁ := hm.strengthen (J := Tagged) (fun _ _ _ h _ hn => h.next hn) htagged
  have hmq₁ := hmq.strengthen (J := Tagged) (fun _ _ _ h _ hn => h.next hn) htagged_m
  have hserved : LoginsServed p.store p := by
    refine ⟨.refl hstore, fun i t hi => ?_⟩
    obtain ⟨code, rfl⟩ := hstarts t (List.mem_of_getElem? hi)
    exact ⟨trivial, fun c hc => by cases hc⟩
  have hrun₂ := hrun₁.strengthen (J := LoginsServed p.store)
    (fun _ _ _ h hok hn => h.next hok.1 hok.2 hn) hserved
  have howned : NewUsersOwned p.store q := hrun₂.invariant (I := NewUsersOwned p.store)
    (fun _ _ _ h hok hn => h.next hok.2 hn) fun id hid => Or.inl hid
  have hq : LoginsServed p.store q := hrun₁.invariant
    (fun _ _ _ h hok hn => h.next hok.1 hok.2 hn) hserved
  have hserved_m : LoginsServed p.store m := hm₁.invariant
    (fun _ _ _ h hok hn => h.next hok.1 hok.2 hn) hserved
  have hsince : LoginsServed m.store q := hmq₁.invariant
    (fun _ _ _ h hok hn => h.next hok.1 hok.2 hn)
    ⟨.refl hserved_m.store.provisioned, hserved_m.threads⟩
  have htag : Tagged q := hrun.invariant (fun _ _ _ h _ hn => h.next hn) htagged
  refine ⟨hq.store.provisioned.length_carries, hq.store.provisioned.userIds,
    fun i k new user hi => ?_, hsince.store.connections, fun user hu => ?_,
    fun hend => htag.uncommitted_eq_nil fun t ht => ?_⟩
  · exact (hq.threads i _ hi).1.2
  · rcases howned user.id (List.mem_map_of_mem hu) with hold | ⟨i, t, c, hi, hnew, hc⟩
    · exact Or.inl hold
    · exact Or.inr ⟨i, t, c, hi, hnew, hc, (hq.threads i _ hi).2 c hnew⟩
  · cases t with
    | login t => exact (hend t ht).provision_eq_none
    | _ => rfl

/-- The customer logs in twice, the second time with another email, while a customer of another bank
logs in with the first email. All callbacks find nobody, and the first two insert a user. The second
is rolled back when the first has committed. -/
def loginTwice : List (Action BankTask BankReply) :=
  [.run 2 (.redeemed (some "mock_bank")), .run 2 (.token (.ok (tokenFor "cust-2" "token-3"))),
    .run 2 .done, .run 2 .done, .run 2 (.accounts (.ok [])),
    .run 0 (.redeemed (some "mock_bank")), .run 1 (.redeemed (some "mock_bank")),
    .run 0 (.token (.ok (tokenFor "cust-1" "token-1"))),
    .run 1 (.token (.ok { tokenFor "cust-1" "token-2" with email := some "mona@example.org" })),
    .run 0 .done, .run 1 .done, .run 0 .done, .run 1 .done, .run 0 (.accounts (.ok [])),
    .run 1 (.accounts (.ok [])), .run 0 .done, .run 1 .done, .run 0 .done, .run 0 .done,
    .run 1 .done, .run 1 .done, .run 0 .done, .run 0 .done]

/-- The logins of `loginTwice`. -/
def threeLogins : Pool BankStore BankTask :=
  ⟨{}, [.login (.redeeming "code-1"), .login (.redeeming "code-2"), .login (.redeeming "code-3")]⟩

/-- The other customer then finds that the email is taken by a user whom the first one has made. -/
theorem bankLogins_oneUser_twice : ∃ m q : Pool BankStore BankTask,
    m.store.users.map (·.id) = [1] ∧
      q.threads.map BankTask.session = [some 1, some 1, none] ∧
      (∀ c ∈ q.store.connections, (∃ c₀ ∈ m.store.connections, c.Continues c₀) ∨
        c.user ∉ m.store.users.map (·.id)) ∧
      ∀ user ∈ q.store.users, ∃ (i : ℕ) (t : BankLogin) (c : BankConnection),
        q.threads[i]? = some (.login t) ∧ t.newConnection = some c ∧ c.user = user.id := by
  obtain ⟨m, hm, q, hq, hmeets, husers, hsessions⟩ :
      ∃ m ∈ (bankSystem ⟨id, id⟩ noTaxonomy).exec loginTwice threeLogins,
      ∃ q ∈ (bankSystem ⟨id, id⟩ noTaxonomy).exec [.run 2 .done, .run 2 .done] m,
        (bankSystem ⟨id, id⟩ noTaxonomy).Meets NamedLogins [.run 2 .done, .run 2 .done] m ∧
        m.store.users.map (·.id) = [1] ∧
        q.threads.map BankTask.session = [some 1, some 1, none] := by
    decide +kernel
  obtain ⟨-, -, -, hnew, howned, -⟩ := bankLogins_oneUser (p := threeLogins)
    (by constructor <;> simp [threeLogins]) rfl (by simp [threeLogins, BankTask.StartsLogin])
    (.of_exec_meets (by decide +kernel) hm) (.of_exec_meets hmeets hq)
  refine ⟨m, q, husers, hsessions, hnew, fun user hu => ?_⟩
  rcases howned user hu with hold | ⟨i, t, c, hi, hnew, hc, -⟩
  · cases hold
  · exact ⟨i, t, c, hi, hnew, hc⟩

end NbeAdvisor
