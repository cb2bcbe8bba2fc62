import NbeAdvisor.LinkOutcome

/-!
# Whom a bank login signs in

The callback of a bank login alone, on any database, with any token response that the
exchange accepts. It looks the customer up by `external_customer_id`, which may be null on
both sides : a response without one selects the connections that have none, which are those
of users who have not finished to link the bank. The session then is for another person's
account (`nullCustomer_signsIn`).

A response with a customer id signs in the owner of the connection that carries it, or a
user that the callback has created, and so does one without if no connection lacks an id
(`bankLogin_session_iff`).
-/

namespace NbeAdvisor

open Interleave

/-- The callback with nobody else. -/
def BankLogin.alone (sp : Spelling) (i : ℕ) (s : BankStore) (t : BankLogin) (r : BankReply) :
    Option (BankStore × BankLogin) :=
  (t.step sp i s r).map fun x => (x.1, x.2.1)

/-- The session is for a user whose connection carries the customer id of the response, or
for a user who was not there at the start. -/
def SessionOwned (s₀ s : BankStore) (k : BankCustomer) (user : UserId) : Prop :=
  (∃ customer, k.token.externalCustomerId = some customer ∧
      ∃ c ∈ s.connections, c.user = user ∧ c.Carries k.providerSlug customer) ∨
    (user ∉ s₀.users.map (·.id) ∧ user ∈ s.users.map (·.id))

/-- What a repeated login writes fits its columns. -/
def Resumable (k : BankCustomer) (c : BankConnection) (user : User) : Prop :=
  (given user.phone = none → TextTakes 50 k.token.phone) ∧ (c.refresh k.token).Fits

instance (k : BankCustomer) (c : BankConnection) (user : User) : Decidable (Resumable k c user) := by
  unfold Resumable
  infer_instance

/-- No connection without a customer id is found, or none that the callback could go on
with. -/
def NullFindsNobody (s₀ : BankStore) (k : BankCustomer) : Prop :=
  k.token.externalCustomerId = none → ∀ c user, s₀.resolve k.providerSlug none = some (c, user) →
    ¬Resumable k c user

section Session

variable {sp : Spelling} {i : ℕ} {s₀ s s' : BankStore} {k : BankCustomer} {user : UserId}

/-- The rows that decide whom the callback signs in are as they were. -/
structure BankStore.Unchanged (s₀ s : BankStore) : Prop where
  users : s.users = s₀.users
  connections : s.connections = s₀.connections

/-- The lookup finds what it would have found. -/
theorem BankStore.Unchanged.resolve (h : s₀.Unchanged s) (providerSlug : String)
    (customer : Option String) : s.resolve providerSlug customer = s₀.resolve providerSlug customer := by
  unfold BankStore.resolve
  rw [h.users, h.connections]

/-- What the callback has found so far. -/
def BankLogin.Finds (s₀ s : BankStore) : BankLogin → Prop
  | redeeming _ | exchanging _ _ | lookingUp _ => s₀.Unchanged s
  | savingPhone k c user =>
    s₀.Unchanged s ∧ s₀.resolve k.providerSlug k.token.externalCustomerId = some (c, user)
  | savingTokens k c user => s.connections = s₀.connections ∧
      s₀.resolve k.providerSlug k.token.externalCustomerId = some (c, user) ∧
      (given user.phone = none → TextTakes 50 k.token.phone)
  | checkingEmail k | fetching k | creatingUser k _ | recovering k =>
    s₀.Unchanged s ∧ s₀.resolve k.providerSlug k.token.externalCustomerId = none
  | creatingConnection k _ user | committing k _ user _ => s₀.Unchanged s ∧
      s₀.resolve k.providerSlug k.token.externalCustomerId = none ∧
      user.id ∉ s₀.users.map (·.id)
  | refreshing k _ user => NullFindsNobody s₀ k → SessionOwned s₀ s k user.id
  | applying k _ user _ _ | backfilling k _ user _ | answered (some k) _ (.ok user) =>
    NullFindsNobody s₀ k → SessionOwned s₀ s k user
  | answered _ _ _ => True

/-- The connection that the callback found, once its tokens are saved. -/
theorem sessionOwned_refreshed {c : BankConnection} {user : User}
    (hconn : s.connections = s₀.connections)
    (hres : s₀.resolve k.providerSlug k.token.externalCustomerId = some (c, user))
    (hresume : Resumable k c user) (hnobody : NullFindsNobody s₀ k) :
    SessionOwned s₀ (s.saveConnection c.id (.refresh k.token)) k user.id := by
  obtain ⟨hc, hslug, hcustomer, -, hid⟩ := BankStore.resolve_eq_some hres
  cases hk : k.token.externalCustomerId with
  | none =>
    rw [hk] at hres
    exact (hnobody hk c user hres hresume).elim
  | some customer =>
    rw [hk] at hcustomer
    refine Or.inl ⟨customer, hk, c.refresh k.token, ?_, hid.symm, hslug, hcustomer⟩
    exact Keyed.mem_modify.2 (Or.inr ⟨c, hconn ▸ hc, rfl, rfl⟩)

/-- A step keeps what the login has found. -/
theorem BankLogin.step_finds {t t' : BankLogin} {r : BankReply} {tasks : List IngestTask}
    (h : t.Finds s₀ s) (hs : t.step sp i s r = some (s', t', tasks)) : t'.Finds s₀ s' := by
  cases step_moves hs with
  | refused r k e => cases k <;> trivial
  | redeemed hslug => exact h
  | exchanged htoken => exact h
  | foundNoPhone hres hphone => exact ⟨h, h.resolve _ _ ▸ hres⟩
  | found hres hphone =>
    exact ⟨h.connections, h.resolve _ _ ▸ hres, fun hnone => (hphone hnone).elim⟩
  | unknown hres => exact ⟨h, h.resolve _ _ ▸ hres⟩
  | phoneSaved hphone => exact ⟨h.1.connections, h.2, fun _ => hphone⟩
  | tokensSaved hfits =>
    obtain ⟨hconn, hres, hphone⟩ := h
    exact fun hnobody => sessionOwned_refreshed hconn hres ⟨hphone, hfits⟩ hnobody
  | fetchSkipped e => exact h
  | refetched l => exact h
  | emailFree hfree => exact h
  | fetched l => exact h
  | userExists hexists => exact h
  | userCreated huser hwait hfree =>
    refine ⟨⟨h.1.users, h.1.connections⟩, h.2, ?_⟩
    subst huser
    rw [← h.1.users]
    exact s.freshUserId_notMem
  | connectionRefused e => trivial
  | connectionExists hclash => exact ⟨⟨h.1.users, h.1.connections⟩, h.2.1⟩
  | connectionCreated hc hfits hwait hclash => exact ⟨⟨h.1.users, h.1.connections⟩, h.2⟩
  | committed =>
    refine fun _ => Or.inr ⟨h.2.2, ?_⟩
    simp
  | recovered hres =>
    rw [h.1.resolve, h.2] at hres
    cases hres
  | applied happly =>
    obtain ⟨accounts, ledger, -, rfl⟩ := BankStore.applyAccounts_eq_ok happly
    exact h
  | applyFailed e => trivial
  | backfilled => exact h
  | backfills hb => exact h
  | stopped e hb => trivial

/-- A callback without a customer id goes through for the owner of a connection that has
none. -/
theorem BankLogin.alone_resumes {data : TokenData} {c : BankConnection} {user : User}
    (code : String) (hslug : k.providerSlug ∈ registry)
    (haccepted : exchangeCodeForToken (.ok data) = .ok k.token)
    (hnull : k.token.externalCustomerId = none)
    (hres : s₀.resolve k.providerSlug none = some (c, user)) (hresume : Resumable k c user) :
    ∃ rs s, Alone (alone sp i) (fun _ _ _ => True) (s₀, .redeeming code) rs
      (s, .answered k none (.ok user.id)) := by
  have hlast : ∀ s, ∃ s', Alone (alone sp i) (fun _ _ _ => True) (s, savingTokens k c user)
      [.done, .accounts (.error "timeout")] (s', answered k none (.ok user.id)) := by
    intro s
    have hsave : alone sp i s (savingTokens k c user) .done =
        some (s.saveConnection c.id (.refresh k.token), refreshing k (c.refresh k.token) user) := by
      simp only [alone, step, if_neg (not_not.2 hresume.2)]
      rfl
    exact ⟨_, .cons trivial hsave (.cons trivial rfl (.nil _))⟩
  have hfound : ∃ rs s, Alone (alone sp i) (fun _ _ _ => True) (s₀, lookingUp k) rs
      (s, savingTokens k c user) := by
    by_cases hphone : given user.phone = none
    · refine ⟨[.done, .done], s₀.savePhone user.id k.token.phone,
        .cons trivial (?_ : _ = some (s₀, savingPhone k c user)) (.cons trivial ?_ (.nil _))⟩
      · simp [alone, step, hnull, hres, hphone]
      · simp only [alone, step, if_neg (not_not.2 (hresume.1 hphone))]
        rfl
    · refine ⟨[.done], s₀, .cons trivial ?_ (.nil _)⟩
      simp [alone, step, hnull, hres, hphone]
  obtain ⟨rs, s, hrun⟩ := hfound
  obtain ⟨s', htail⟩ := hlast s
  have hhead : Alone (alone sp i) (fun _ _ _ => True) (s₀, .redeeming code)
      [.redeemed (some k.providerSlug), .token (.ok data)] (s₀, lookingUp k) := by
    refine .cons trivial (?_ : _ = some (s₀, exchanging k.providerSlug code))
      (.cons trivial ?_ (.nil _))
    · simp [alone, step, hslug]
    · simp only [alone, step, haccepted]
      rfl
  exact ⟨_, s', hhead.trans (hrun.trans htail)⟩

/-- From any database, and with any token response that the exchange accepts, the callback
signs in only the owner of the connection that carries the customer id of the response, or
a user that it has created, exactly if the response has a customer id or no connection
without one is found that the callback could go on with. -/
theorem bankLogin_session_iff (sp : Spelling) (i : ℕ) (s₀ : BankStore) (code : String)
    {k : BankCustomer} {data : TokenData} (hslug : k.providerSlug ∈ registry)
    (haccepted : exchangeCodeForToken (.ok data) = .ok k.token) :
    (∀ rs s new user, Alone (BankLogin.alone sp i) (fun _ _ _ => True) (s₀, .redeeming code) rs
        (s, .answered k new (.ok user)) → SessionOwned s₀ s k user) ↔ NullFindsNobody s₀ k := by
  constructor
  · rintro h hnull c user hres hresume
    obtain ⟨rs, s, hrun⟩ := BankLogin.alone_resumes code hslug haccepted hnull hres hresume
    rcases h rs s none user.id hrun with ⟨customer, hcustomer, -⟩ | ⟨hnew, -⟩
    · rw [hnull] at hcustomer
      cases hcustomer
    · exact hnew (List.mem_map_of_mem (BankStore.resolve_eq_some hres).2.2.2.1)
  · intro hnobody rs s new user hrun
    have h := hrun.invariant (I := fun s t => t.Finds s₀ s) (fun s t r s' t' ht _ hs => ?_)
      ⟨rfl, rfl⟩
    · exact h hnobody
    · obtain ⟨⟨s₁, t₁, tasks⟩, hstep, heq⟩ := Option.map_eq_some_iff.1 hs
      cases heq
      exact BankLogin.step_finds ht hstep

end Session

/-- Mona at the bank. -/
def bankCustomer : BankCustomer where
  providerSlug := "mock_bank"
  token :=
    { accessToken := "token-1", externalCustomerId := some "cust-1", email := "mona@example.com"
      phone := "+201000000001" }

/-- One user has only started to link the bank, and another one has linked it. -/
def twoUsersStore : BankStore where
  users := [⟨1, "karim@example.com", "Karim", none⟩, ⟨2, "sara@example.com", "Sara", none⟩]
  connections := [{ id := 1, user := 1, providerSlug := "mock_bank", oauthState := some "state-1" },
    { id := 2, user := 2, providerSlug := "mock_bank", status := .linked
      externalCustomerId := some "cust-2", accessToken := some "token-2" }]

/-- What the bank and the database answer to Mona's first login. -/
def firstLogin : List BankReply :=
  [.redeemed (some "mock_bank"), .token (.ok (tokenFor "cust-1" "token-1")), .done, .done,
    .accounts (.ok [currentAccount (some "1000200030001234")]), .done, .done, .done, .done,
    .transactions (.error "timeout"), .done]

/-- A first login, beside the customers of two other users. -/
theorem bankLogin_session_customer : ∃ s new,
    Alone (BankLogin.alone ⟨id, id⟩ 0) (fun _ _ _ => True) (twoUsersStore, .redeeming "code-1")
        firstLogin (s, .answered bankCustomer new (.ok 3)) ∧
      SessionOwned twoUsersStore s bankCustomer 3 := by
  have hexec : ∃ x ∈ drive (BankLogin.alone ⟨id, id⟩ 0) firstLogin
      (twoUsersStore, .redeeming "code-1"),
      x.2 = .answered bankCustomer x.2.newConnection (.ok 3) := by
    decide
  obtain ⟨⟨s, t⟩, hdrive, ht⟩ := hexec
  rw [show t = _ from ht] at hdrive
  have hrun : Alone (BankLogin.alone ⟨id, id⟩ 0) (fun _ _ _ => True)
      (twoUsersStore, .redeeming "code-1") _
      (s, .answered bankCustomer t.newConnection (.ok 3)) :=
    .of_drive (fun _ _ _ _ => trivial) hdrive
  exact ⟨s, _, hrun, (@bankLogin_session_iff ⟨id, id⟩ 0 twoUsersStore "code-1" bankCustomer
    (tokenFor "cust-1" "token-1") (by decide) rfl).2 (fun hnull => by cases hnull) _ _ _ _ hrun⟩

/-- A `/token` response without a customer id, and the customer as the callback knows him. -/
def namelessToken : TokenData :=
  { accessToken := some "token-2", email := some "karim@example.com", phone := some "+201000000002" }

/-- A customer for whom the bank has no name. -/
def namelessCustomer : BankCustomer where
  providerSlug := "mock_bank"
  token := { accessToken := "token-2", email := "karim@example.com", phone := "+201000000002" }

/-- He is signed in as the user who has only started to link the bank. -/
theorem nullCustomer_signsIn :
    ¬∀ (sp : Spelling) (i : ℕ) (s₀ : BankStore) (code : String) (k : BankCustomer)
      (data : TokenData), k.providerSlug ∈ registry →
      exchangeCodeForToken (.ok data) = .ok k.token →
      ∀ rs s new user, Alone (BankLogin.alone sp i) (fun _ _ _ => True) (s₀, .redeeming code) rs
        (s, .answered k new (.ok user)) → SessionOwned s₀ s k user := by
  intro h
  have hexec : ∃ x ∈ drive (BankLogin.alone ⟨id, id⟩ 0)
      [.redeemed (some "mock_bank"), .token (.ok namelessToken), .done, .done,
        .accounts (.ok []), .done, .done] (pendingStore, .redeeming "code-2"),
      x.2 = .answered namelessCustomer none (.ok 1) := by
    decide
  obtain ⟨⟨s, t⟩, hdrive, rfl⟩ := hexec
  rcases h ⟨id, id⟩ 0 pendingStore "code-2" namelessCustomer namelessToken (by decide) rfl _ s none 1
      (.of_drive (fun _ _ _ _ => trivial) hdrive) with ⟨customer, hcustomer, -⟩ | ⟨hnew, -⟩
  · cases hcustomer
  · exact hnew (by decide)

end NbeAdvisor
