import NbeAdvisor.LoginSession

/-!
# A repeated bank login

The callback alone, for a user whose connection carries the customer id of the token response.
It saves the phone and the tokens, and then refreshes the accounts as a best effort. Only a
`BankConnectorError` of the fetch is caught : the errors of the database and of the broker are
let through, after the tokens have been saved.

So every run of it ends with a session for the user exactly if the columns take what the response
is written to, and, unless the fetch fails, the database takes the accounts that the bank lists and
the broker every backfill task (`repeatLogin_session_iff`). An account without a number locks
the user out (`nullAccountNumber_locksOut`).
-/

namespace NbeAdvisor

open Interleave

/-- What the callback hears : a state of the bank `providerSlug`, the token response `data`, and
the outcome `fetched` of the fetch. The broker may refuse a task only if not `brokerTakes`. -/
def BankLogin.Hears (providerSlug : String) (data : TokenData)
    (fetched : Except String (List ProviderAccount)) (brokerTakes : Prop) : BankReply → Prop
  | .redeemed r => r = some providerSlug
  | .token r => r = .ok data
  | .accounts r => r = fetched
  | .enqueued taken => brokerTakes → taken = true
  | _ => True

/-- The callback answers with a session for the user. -/
def BankLogin.SignsIn (k : BankCustomer) (user : User) (t : BankLogin) : Prop :=
  t = .answered k none (.ok user.id)

/-- The refresh raises nothing that the callback does not catch. -/
def Refreshable (sp : Spelling) (c : BankConnection) (accounts : List AccountRow)
    (fetched : Except String (List ProviderAccount)) (brokerTakes : Prop) : Prop :=
  ∀ l, fetched = .ok l → Landable c (remaining sp c l accounts) l ∧ (l ≠ [] → brokerTakes)

/-- The connection is the one of its customer, and has its user. The tables meet their
constraints. -/
structure BankStore.Knows (s : BankStore) (k : BankCustomer) (c : BankConnection) (user : User) :
    Prop where
  userIds : (s.users.map (·.id)).Nodup
  connectionIds : (s.connections.map (·.id)).Nodup
  connectionMem : c ∈ s.connections
  userMem : user ∈ s.users
  owner : user.id = c.user
  slug : c.providerSlug = k.providerSlug
  customer : c.externalCustomerId ≠ none ∧ c.externalCustomerId = k.token.externalCustomerId
  /-- `unique_bank_customer_identity`. -/
  unique : ∀ d ∈ s.connections, d.SameCustomer c → d.id = c.id
  accounts : AccountsSound s.accounts

section Repeat

variable {sp : Spelling} {i : ℕ} {s₀ s s' : BankStore} {k : BankCustomer} {c : BankConnection}
  {user : User} {code : String} {data : TokenData}
  {fetched : Except String (List ProviderAccount)} {brokerTakes : Prop}

/-- The lookup finds the connection. -/
theorem BankStore.Knows.resolve (h : s.Knows k c user) :
    s.resolve k.providerSlug k.token.externalCustomerId = some (c, user) := by
  have hfind : s.users.find? (fun u => u.id = c.user) = some user :=
    Keyed.find?_of_pk h.userIds h.userMem (decide_eq_true h.owner) fun u _ hu =>
      (of_decide_eq_true hu).trans h.owner.symm
  obtain ⟨found, hfound⟩ : ∃ x, s.resolve k.providerSlug k.token.externalCustomerId = some x := by
    refine Option.isSome_iff_exists.1 ?_
    rw [BankStore.resolve, List.isSome_head?]
    refine List.ne_nil_of_mem (a := (c, user)) (List.mem_filterMap.2 ⟨c, h.connectionMem, ?_⟩)
    rw [if_pos ⟨h.slug, h.customer.2⟩, hfind]
    rfl
  obtain ⟨d, u⟩ := found
  obtain ⟨hd, hslug, hcustomer, hu, hid⟩ := BankStore.resolve_eq_some hfound
  have hsame : d.SameCustomer c := ⟨hslug.trans h.slug.symm,
    by rw [hcustomer, ← h.customer.2]; exact h.customer.1, hcustomer.trans h.customer.2.symm⟩
  obtain rfl := Keyed.eq_of_pk h.connectionIds hd h.connectionMem (h.unique d hd hsame)
  obtain rfl := Keyed.eq_of_pk h.userIds hu h.userMem (hid.trans h.owner.symm)
  exact hfound

/-- Where the callback is. -/
def BankLogin.Resumes (s₀ : BankStore) (k : BankCustomer) (c : BankConnection) (user : User)
    (fetched : Except String (List ProviderAccount)) (brokerTakes : Prop) (s : BankStore) :
    BankLogin → Prop
  | redeeming _ => s₀.Unchanged s ∧ s.accounts = s₀.accounts
  | exchanging providerSlug _ =>
    s₀.Unchanged s ∧ s.accounts = s₀.accounts ∧ providerSlug = k.providerSlug
  | lookingUp k' => s₀.Unchanged s ∧ s.accounts = s₀.accounts ∧ k' = k
  | savingPhone k' c' user' =>
    s.accounts = s₀.accounts ∧ k' = k ∧ c' = c ∧ user' = user ∧ given user.phone = none
  | savingTokens k' c' user' => s.accounts = s₀.accounts ∧ k' = k ∧ c' = c ∧ user' = user
  | refreshing k' c' user' =>
    s.accounts = s₀.accounts ∧ k' = k ∧ c' = c.refresh k.token ∧ user' = user
  | applying k' new id c' l => s.accounts = s₀.accounts ∧ k' = k ∧ new = none ∧ id = user.id ∧
      c' = c.refresh k.token ∧ fetched = .ok l
  | backfilling k' new id b =>
    k' = k ∧ new = none ∧ id = user.id ∧ (b = .fetching [] ∨ brokerTakes)
  | answered k' new r => k' = some k ∧ new = none ∧ r = .ok user.id
  | _ => False

/-- The steps left, if `n` accounts are fetched. -/
def BankLogin.fuel (n : ℕ) : BankLogin → ℕ
  | redeeming _ => 2 * n + 9
  | exchanging _ _ => 2 * n + 8
  | lookingUp _ => 2 * n + 7
  | savingPhone _ _ _ => 2 * n + 6
  | savingTokens _ _ _ => 2 * n + 5
  | refreshing _ _ _ => 2 * n + 4
  | applying _ _ _ _ _ => 2 * n + 3
  | backfilling _ _ _ b => b.fuel + 1
  | _ => 0

/-! The steps of the callback, where nothing goes wrong. -/

/-- The state is redeemed. -/
theorem BankLogin.alone_redeeming (hslug : k.providerSlug ∈ registry) :
    alone sp i s (redeeming code) (.redeemed (some k.providerSlug)) =
      some (s, exchanging k.providerSlug code) := by
  simp [alone, step, hslug]

/-- The token response is accepted. -/
theorem BankLogin.alone_exchanging (haccepted : exchangeCodeForToken (.ok data) = .ok k.token) :
    alone sp i s (exchanging k.providerSlug code) (.token (.ok data)) = some (s, lookingUp k) := by
  simp only [alone, step, haccepted]
  rfl

/-- The user is found. -/
theorem BankLogin.alone_lookingUp (hs : s₀.Knows k c user) (hu : s₀.Unchanged s)
    (htext : ∀ id ∈ k.token.externalCustomerId, TextStorable id) :
    alone sp i s (lookingUp k) .done = some (s,
      if given user.phone = none then savingPhone k c user else savingTokens k c user) := by
  have hres := (hu.resolve _ _).trans hs.resolve
  simp only [alone, step, if_neg (not_not.2 htext), hres]
  split
  · rfl
  · rfl

/-- The phone is saved. -/
theorem BankLogin.alone_savingPhone (h : TextTakes 50 k.token.phone) :
    alone sp i s (savingPhone k c user) .done =
      some (s.savePhone user.id k.token.phone, savingTokens k c user) := by
  simp only [alone, step, if_neg (not_not.2 h)]
  rfl

/-- The tokens are saved. -/
theorem BankLogin.alone_savingTokens (h : (c.refresh k.token).Fits) :
    alone sp i s (savingTokens k c user) .done =
      some (s.saveConnection c.id (.refresh k.token), refreshing k (c.refresh k.token) user) := by
  simp only [alone, step, if_neg (not_not.2 h)]
  rfl

/-- The tokens of a connection have no part in what its accounts meet. -/
theorem landable_refresh (token : TokenResponse) {l : List ProviderAccount}
    {accounts : List AccountRow} :
    Landable (c.refresh token) (remaining sp (c.refresh token) l accounts) l ↔
      Landable c (remaining sp c l accounts) l :=
  ⟨fun h => ⟨h.storable, h.free, h.once⟩, fun h => ⟨h.storable, h.free, h.once⟩⟩

/-- The accounts land, if the database takes them all. -/
theorem BankLogin.alone_applying {l : List ProviderAccount} (i : ℕ) (new : Option BankConnection)
    (id : UserId) (hs : s₀.Knows k c user) (ha : s.accounts = s₀.accounts)
    (hl : Landable c (remaining sp c l s₀.accounts) l) :
    ∃ s' created, alone sp i s (applying k new id (c.refresh k.token) l) .done =
      some (s', backfilling k new id (.fetching created)) ∧ created.length = l.length := by
  obtain ⟨⟨s', created⟩, happly⟩ :=
    (BankStore.applyAccounts_isOk sp (c.refresh k.token) l (ha ▸ hs.accounts)).2
      ((landable_refresh _).2 (ha ▸ hl))
  obtain ⟨accounts, ledger, h, -⟩ := BankStore.applyAccounts_eq_ok happly
  refine ⟨s', created, ?_, updateOrCreateAccounts_length h⟩
  simp only [alone, step, happly]
  rfl

/-- What a step of the backfill comes to. -/
theorem BankLogin.alone_backfilling {new : Option BankConnection} {id : UserId} {b : Backfill}
    {r : BankReply} {t : BankLogin}
    (h : alone sp i s (backfilling k new id b) r = some (s', t)) :
    (b = .fetching [] ∧ t = answered k new (.ok id)) ∨
      (∃ b', t = backfilling k new id b' ∧ b'.fuel < b.fuel ∧ b ≠ .fetching []) ∨
      (r = .enqueued false ∧ t = answered k new (.error .serverError) ∧ b ≠ .fetching []) := by
  cases b with
  | fetching rest =>
    cases rest with
    | nil =>
      cases r with
      | done =>
        cases h
        exact Or.inl ⟨rfl, rfl⟩
      | _ => simp [alone, step, Backfill.step] at h
    | cons a rest =>
      cases r with
      | transactions r =>
        have hb : ∃ b' tasks, Backfill.step (.fetching (a :: rest)) (.transactions r) =
            some (some b', tasks) := by
          cases r with
          | error e => exact ⟨_, _, rfl⟩
          | ok ts =>
            simp only [Backfill.step]
            split
            · exact ⟨_, _, rfl⟩
            · exact ⟨_, _, rfl⟩
        obtain ⟨b', tasks, hb⟩ := hb
        simp only [alone, step, hb] at h
        cases h
        exact Or.inr (Or.inl ⟨b', rfl, Backfill.step_fuel hb, by simp⟩)
      | _ => simp [alone, step, Backfill.step] at h
  | enqueueing id' ts rest =>
    cases r with
    | enqueued taken =>
      cases taken with
      | false =>
        cases h
        exact Or.inr (Or.inr ⟨rfl, rfl, by simp⟩)
      | true =>
        cases h
        exact Or.inr (Or.inl ⟨_, rfl, by simp [Backfill.fuel], by simp⟩)
    | _ => simp [alone, step, Backfill.step] at h

/-- The customer id of a row can be looked up. -/
theorem BankStore.Knows.textStorable (hs : s₀.Knows k c user) (hresume : Resumable k c user) :
    ∀ id ∈ k.token.externalCustomerId, TextStorable id := by
  intro id hid
  exact (hresume.2.1 id (hs.customer.2.trans hid)).2

section Resumes

variable (hs : s₀.Knows k c user) (hslug : k.providerSlug ∈ registry)
  (haccepted : exchangeCodeForToken (.ok data) = .ok k.token) (hresume : Resumable k c user)
  (hrefresh : Refreshable sp c s₀.accounts fetched brokerTakes)
include hs hslug haccepted hresume hrefresh

/-- A step leads on, and closer to the end. -/
theorem BankLogin.alone_resumes_step {n : ℕ} (hn : ∀ l, fetched = .ok l → l.length = n)
    {t t' : BankLogin} {r : BankReply} (ht : t.Resumes s₀ k c user fetched brokerTakes s)
    (hr : Hears k.providerSlug data fetched brokerTakes r)
    (hstep : alone sp i s t r = some (s', t')) :
    t'.Resumes s₀ k c user fetched brokerTakes s' ∧ t'.fuel n < t.fuel n := by
  cases t with
  | redeeming code =>
    cases r with
    | redeemed r =>
      obtain rfl : r = some k.providerSlug := hr
      rw [alone_redeeming hslug] at hstep
      cases hstep
      exact ⟨⟨ht.1, ht.2, rfl⟩, by simp [fuel]⟩
    | _ => simp [alone, step] at hstep
  | exchanging providerSlug code =>
    obtain ⟨hu, ha, rfl⟩ := ht
    cases r with
    | token r =>
      obtain rfl : r = .ok data := hr
      rw [alone_exchanging haccepted] at hstep
      cases hstep
      exact ⟨⟨hu, ha, rfl⟩, by simp [fuel]⟩
    | _ => simp [alone, step] at hstep
  | lookingUp k' =>
    obtain ⟨hu, ha, rfl⟩ := ht
    cases r with
    | done =>
      rw [alone_lookingUp hs hu (hs.textStorable hresume)] at hstep
      split at hstep
      · next hphone =>
        cases hstep
        exact ⟨⟨ha, rfl, rfl, rfl, hphone⟩, by simp [fuel]⟩
      · cases hstep
        exact ⟨⟨ha, rfl, rfl, rfl⟩, by simp [fuel]⟩
    | _ => simp [alone, step] at hstep
  | savingPhone k' c' user' =>
    obtain ⟨ha, rfl, rfl, rfl, hphone⟩ := ht
    cases r with
    | done =>
      rw [alone_savingPhone (hresume.1 hphone)] at hstep
      cases hstep
      exact ⟨⟨ha, rfl, rfl, rfl⟩, by simp [fuel]⟩
    | _ => simp [alone, step] at hstep
  | savingTokens k' c' user' =>
    obtain ⟨ha, rfl, rfl, rfl⟩ := ht
    cases r with
    | done =>
      rw [alone_savingTokens hresume.2] at hstep
      cases hstep
      exact ⟨⟨ha, rfl, rfl, rfl⟩, by simp [fuel]⟩
    | _ => simp [alone, step] at hstep
  | refreshing k' c' user' =>
    obtain ⟨ha, rfl, rfl, rfl⟩ := ht
    cases r with
    | accounts r =>
      obtain rfl : r = fetched := hr
      cases r with
      | error e =>
        cases hstep
        exact ⟨⟨rfl, rfl, rfl⟩, by simp [fuel]⟩
      | ok l =>
        cases hstep
        exact ⟨⟨ha, rfl, rfl, rfl, rfl, rfl⟩, by simp [fuel]⟩
    | _ => simp [alone, step] at hstep
  | applying k' new id c' l =>
    obtain ⟨ha, rfl, rfl, rfl, rfl, hl⟩ := ht
    cases r with
    | done =>
      obtain ⟨s₁, created, heq, hlen⟩ :=
        alone_applying i none user.id hs ha (hrefresh l hl).1
      rw [heq] at hstep
      cases hstep
      refine ⟨⟨rfl, rfl, rfl, ?_⟩, ?_⟩
      · by_cases hnil : l = []
        · rw [hnil, List.length_nil, List.length_eq_zero_iff] at hlen
          exact Or.inl (by rw [hlen])
        · exact Or.inr ((hrefresh l hl).2 hnil)
      · have hn := hn l hl
        simp only [fuel, Backfill.fuel]
        omega
    | _ => simp [alone, step] at hstep
  | backfilling k' new id b =>
    obtain ⟨rfl, rfl, rfl, hb⟩ := ht
    rcases alone_backfilling hstep with ⟨-, rfl⟩ | ⟨b', rfl, hlt, hne⟩ | ⟨rfl, rfl, hne⟩
    · exact ⟨⟨rfl, rfl, rfl⟩, by simp [fuel]⟩
    · exact ⟨⟨rfl, rfl, rfl, Or.inr (hb.resolve_left hne)⟩, by simpa [fuel] using hlt⟩
    · cases hr (hb.resolve_left hne)
  | answered k' new r' => simp [alone, step] at hstep
  | _ => exact ht.elim

/-- Short of the end there is a step. -/
theorem BankLogin.resumes_exists_step {t : BankLogin}
    (ht : t.Resumes s₀ k c user fetched brokerTakes s) (hend : ¬t.SignsIn k user) :
    ∃ r x, Hears k.providerSlug data fetched brokerTakes r ∧ alone sp i s t r = some x := by
  cases t with
  | redeeming code => exact ⟨.redeemed (some k.providerSlug), _, rfl, alone_redeeming hslug⟩
  | exchanging providerSlug code =>
    obtain ⟨-, -, rfl⟩ := ht
    exact ⟨.token (.ok data), _, rfl, alone_exchanging haccepted⟩
  | lookingUp k' =>
    obtain ⟨hu, -, rfl⟩ := ht
    exact ⟨.done, _, trivial,
      alone_lookingUp hs hu (hs.textStorable hresume)⟩
  | savingPhone k' c' user' =>
    obtain ⟨-, rfl, rfl, rfl, hphone⟩ := ht
    exact ⟨.done, _, trivial, alone_savingPhone (hresume.1 hphone)⟩
  | savingTokens k' c' user' =>
    obtain ⟨-, rfl, rfl, rfl⟩ := ht
    exact ⟨.done, _, trivial, alone_savingTokens hresume.2⟩
  | refreshing k' c' user' =>
    cases hf : fetched with
    | error e => exact ⟨.accounts (.error e), _, rfl, rfl⟩
    | ok l => exact ⟨.accounts (.ok l), _, rfl, rfl⟩
  | applying k' new id c' l =>
    obtain ⟨ha, rfl, rfl, rfl, rfl, hl⟩ := ht
    obtain ⟨s₁, created, heq, -⟩ :=
      alone_applying i none user.id hs ha (hrefresh l hl).1
    exact ⟨.done, _, trivial, heq⟩
  | backfilling k' new id b =>
    cases b with
    | fetching rest =>
      cases rest with
      | nil => exact ⟨.done, _, trivial, rfl⟩
      | cons a rest => exact ⟨.transactions (.error "timeout"), _, trivial, rfl⟩
    | enqueueing id ts rest => exact ⟨.enqueued true, _, fun _ => rfl, rfl⟩
  | answered k' new r =>
    obtain ⟨rfl, rfl, rfl⟩ := ht
    exact (hend rfl).elim
  | _ => exact ht.elim

end Resumes

/-! ## Where it goes wrong -/

/-- A run of the callback gets there. -/
def BankLogin.Reaches (sp : Spelling) (i : ℕ) (s₀ : BankStore) (code : String) (k : BankCustomer)
    (data : TokenData) (fetched : Except String (List ProviderAccount)) (brokerTakes : Prop)
    (s : BankStore) (t : BankLogin) : Prop :=
  ∃ rs, Alone (alone sp i) (fun _ _ r => Hears k.providerSlug data fetched brokerTakes r)
    (s₀, redeeming code) rs (s, t)

/-- A login that has come so far comes further. -/
theorem BankLogin.Reaches.snoc {t t' : BankLogin} (r : BankReply)
    (h : Reaches sp i s₀ code k data fetched brokerTakes s t)
    (hr : Hears k.providerSlug data fetched brokerTakes r)
    (hstep : alone sp i s t r = some (s', t')) :
    Reaches sp i s₀ code k data fetched brokerTakes s' t' := by
  obtain ⟨rs, hrun⟩ := h
  exact ⟨rs ++ [r], hrun.trans (.cons hr hstep (.nil _))⟩

/-- Up to the lookup. -/
theorem BankLogin.reaches_lookup (hslug : k.providerSlug ∈ registry)
    (haccepted : exchangeCodeForToken (.ok data) = .ok k.token) :
    Reaches sp i s₀ code k data fetched brokerTakes s₀ (lookingUp k) :=
  ⟨[.redeemed (some k.providerSlug), .token (.ok data)],
    .cons rfl (alone_redeeming hslug) (.cons rfl (alone_exchanging haccepted) (.nil _))⟩

/-- Every run of the callback ends with the session. -/
def RepeatSettles (sp : Spelling) (i : ℕ) (s₀ : BankStore) (code : String) (k : BankCustomer)
    (user : User) (data : TokenData) (fetched : Except String (List ProviderAccount))
    (brokerTakes : Prop) : Prop :=
  Settles (BankLogin.alone sp i)
    (fun _ _ r => BankLogin.Hears k.providerSlug data fetched brokerTakes r)
    (BankLogin.SignsIn k user) (fun _ => True) (s₀, .redeeming code)

/-- Then none has an error for an answer. -/
theorem RepeatSettles.not_error (h : RepeatSettles sp i s₀ code k user data fetched brokerTakes)
    {e : ApiError} (hrun : BankLogin.Reaches sp i s₀ code k data fetched brokerTakes s
      (.answered k none (.error e))) : False := by
  have hnot : ¬BankLogin.SignsIn k user (.answered k none (.error e)) := fun heq => by cases heq
  obtain ⟨rs, hrun⟩ := hrun
  obtain ⟨r, x, -, hstep⟩ := h.goesOn _ _ _ hrun hnot
  simp [BankLogin.alone, BankLogin.step] at hstep

/-- The callback gets as far as the refresh only if the columns take what it writes. -/
theorem RepeatSettles.resumable (h : RepeatSettles sp i s₀ code k user data fetched brokerTakes)
    (hs : s₀.Knows k c user) (hslug : k.providerSlug ∈ registry)
    (haccepted : exchangeCodeForToken (.ok data) = .ok k.token) :
    Resumable k c user ∧ ∃ s, s.accounts = s₀.accounts ∧
      BankLogin.Reaches sp i s₀ code k data fetched brokerTakes s
        (.refreshing k (c.refresh k.token) user) := by
  have hlookup := @BankLogin.reaches_lookup sp i s₀ k code data fetched brokerTakes hslug haccepted
  have htext : ∀ id ∈ k.token.externalCustomerId, TextStorable id := by
    by_contra hno
    have hstep : BankLogin.alone sp i s₀ (.lookingUp k) .done =
        some (s₀, .answered k none (.error .serverError)) := by
      simp only [BankLogin.alone, BankLogin.step, if_pos hno]
      rfl
    exact h.not_error (hlookup.snoc .done trivial hstep)
  have hfound := hlookup.snoc .done trivial (BankLogin.alone_lookingUp hs ⟨rfl, rfl⟩ htext)
  have hphone : (given user.phone = none → TextTakes 50 k.token.phone) ∧
      ∃ s, s.accounts = s₀.accounts ∧
        BankLogin.Reaches sp i s₀ code k data fetched brokerTakes s (.savingTokens k c user) := by
    by_cases hnone : given user.phone = none
    · rw [if_pos hnone] at hfound
      by_cases hfits : TextTakes 50 k.token.phone
      · exact ⟨fun _ => hfits, s₀.savePhone user.id k.token.phone, rfl,
          hfound.snoc .done trivial (BankLogin.alone_savingPhone hfits)⟩
      · have hstep : BankLogin.alone sp i s₀ (.savingPhone k c user) .done =
            some (s₀, .answered k none (.error (.database .dataError))) := by
          simp only [BankLogin.alone, BankLogin.step, hfits, not_false_eq_true, if_true]
          rfl
        exact (h.not_error (hfound.snoc .done trivial hstep)).elim
    · rw [if_neg hnone] at hfound
      exact ⟨fun hphone => (hnone hphone).elim, _, rfl, hfound⟩
  obtain ⟨hphone, s, ha, hsaving⟩ := hphone
  by_cases hfits : (c.refresh k.token).Fits
  · exact ⟨⟨hphone, hfits⟩, s.saveConnection c.id (.refresh k.token), ha,
      hsaving.snoc .done trivial (BankLogin.alone_savingTokens hfits)⟩
  · have hstep : BankLogin.alone sp i s (.savingTokens k c user) .done =
        some (s, .answered k none (.error (.database .dataError))) := by
      simp only [BankLogin.alone, BankLogin.step, hfits, not_false_eq_true, if_true]
      rfl
    exact (h.not_error (hsaving.snoc .done trivial hstep)).elim

/-- It ends well only if nothing raises that it does not catch. -/
theorem RepeatSettles.refreshable (h : RepeatSettles sp i s₀ code k user data fetched brokerTakes)
    (hs : s₀.Knows k c user) (hslug : k.providerSlug ∈ registry)
    (haccepted : exchangeCodeForToken (.ok data) = .ok k.token) :
    Refreshable sp c s₀.accounts fetched brokerTakes := by
  rintro l rfl
  obtain ⟨-, s, ha, hrefreshing⟩ := h.resumable hs hslug haccepted
  have happlying : BankLogin.Reaches sp i s₀ code k data (.ok l) brokerTakes s
      (.applying k none user.id (c.refresh k.token) l) :=
    hrefreshing.snoc (.accounts (.ok l)) rfl rfl
  have hlandable : Landable c (remaining sp c l s₀.accounts) l := by
    by_contra hno
    cases happly : s.applyAccounts sp (c.refresh k.token) l with
    | ok x =>
      have hl := (BankStore.applyAccounts_isOk sp _ l (ha ▸ hs.accounts)).1 ⟨x, happly⟩
      exact hno (ha ▸ (landable_refresh _).1 hl)
    | error e =>
      have hstep : BankLogin.alone sp i s (.applying k none user.id (c.refresh k.token) l) .done =
          some (s, .answered k none (.error (.database e))) := by
        simp only [BankLogin.alone, BankLogin.step, happly]
        rfl
      exact h.not_error (happlying.snoc .done trivial hstep)
  refine ⟨hlandable, fun hne => ?_⟩
  by_contra hrefuses
  obtain ⟨s', created, heq, hlen⟩ :=
    BankLogin.alone_applying i none user.id hs ha hlandable
  cases created with
  | nil => exact hne (List.length_eq_zero_iff.1 hlen.symm)
  | cons a rest =>
    have hfetching := happlying.snoc .done trivial heq
    have henqueueing : BankLogin.Reaches sp i s₀ code k data (.ok l) brokerTakes s'
        (.backfilling k none user.id (.enqueueing a.id [coffee "txn-1"] rest)) :=
      hfetching.snoc (.transactions (.ok [coffee "txn-1"])) trivial rfl
    have hstopped : BankLogin.Reaches sp i s₀ code k data (.ok l) brokerTakes s'
        (.answered k none (.error .serverError)) :=
      henqueueing.snoc (.enqueued false) (fun htakes => (hrefuses htakes).elim) rfl
    exact h.not_error hstopped

/-- A repeated login of the customer of a connection, with a token response that the exchange
accepts. It always ends with a session for the connection's user exactly if what the response is
written to takes it, and the refresh raises nothing but a `BankConnectorError`. -/
theorem repeatLogin_session_iff (sp : Spelling) (i : ℕ) (code : String) (hs : s₀.Knows k c user)
    (hslug : k.providerSlug ∈ registry)
    (haccepted : exchangeCodeForToken (.ok data) = .ok k.token) :
    RepeatSettles sp i s₀ code k user data fetched brokerTakes ↔
      Resumable k c user ∧ Refreshable sp c s₀.accounts fetched brokerTakes := by
  constructor
  · intro h
    exact ⟨(h.resumable hs hslug haccepted).1, h.refreshable hs hslug haccepted⟩
  · rintro ⟨hresume, hrefresh⟩
    obtain ⟨n, hn⟩ := exists_length_of_ok fetched
    refine Settles.of_invariant (m := fun _ t => t.fuel n)
      (I := fun s t => t.Resumes s₀ k c user fetched brokerTakes s) ?_ ?_ ?_ ?_ ⟨⟨rfl, rfl⟩, rfl⟩
    · intro s t r s' t' ht hr hstep
      exact (BankLogin.alone_resumes_step hs hslug haccepted hresume hrefresh hn ht hr hstep).1
    · intro s t r s' t' ht hr hstep
      exact (BankLogin.alone_resumes_step hs hslug haccepted hresume hrefresh hn ht hr hstep).2
    · intro s t ht hend
      exact BankLogin.resumes_exists_step hs hslug haccepted hresume hrefresh ht hend
    · exact fun _ _ _ _ => trivial

end Repeat

/-- Mona has linked the bank. -/
def monaConnection : BankConnection :=
  { id := 1, user := 1, providerSlug := "mock_bank", status := .linked
    externalCustomerId := some "cust-1" }

/-- A user who has signed up by a bank login. -/
def mona : User := ⟨1, "mona@example.com", "Mona", some "+201000000001"⟩

/-- Her connection, and no accounts yet. -/
def monaStore : BankStore where
  users := [mona]
  connections := [monaConnection]

theorem monaStore_knows : monaStore.Knows bankCustomer monaConnection mona where
  userIds := by decide
  connectionIds := by decide
  connectionMem := by decide
  userMem := by decide
  owner := rfl
  slug := rfl
  customer := ⟨by decide, rfl⟩
  unique := by simp [monaStore]
  accounts := .nil

/-- She comes back, and the bank lists two accounts. -/
theorem repeatLogin_session_mona : RepeatSettles ⟨id, id⟩ 0 monaStore "code-1" bankCustomer mona
    (tokenFor "cust-1" "token-1") (.ok [currentAccount (some "1000200030001234"),
      { currentAccount (some "1000200030001235") with externalAccountId := "acc-2" }]) True := by
  refine (repeatLogin_session_iff ⟨id, id⟩ 0 "code-1" monaStore_knows (by decide) rfl).2
    ⟨by decide, fun l hl => ?_⟩
  cases hl
  exact ⟨by decide, fun _ => trivial⟩

/-- And once when it lists an account without a number. -/
theorem nullAccountNumber_locksOut :
    ¬∀ (sp : Spelling) (i : ℕ) (s₀ : BankStore) (code : String) (k : BankCustomer)
      (c : BankConnection) (user : User) (data : TokenData)
      (fetched : Except String (List ProviderAccount)), s₀.Knows k c user → c.status = .linked →
      k.providerSlug ∈ registry → exchangeCodeForToken (.ok data) = .ok k.token →
      RepeatSettles sp i s₀ code k user data fetched True := by
  intro h
  have hsettles := h ⟨id, id⟩ 0 monaStore "code-1" bankCustomer monaConnection mona
    (tokenFor "cust-1" "token-1") (.ok [currentAccount none]) monaStore_knows rfl (by decide) rfl
  have hexec : ∃ x ∈ drive (BankLogin.alone ⟨id, id⟩ 0)
      [.redeemed (some "mock_bank"), .token (.ok (tokenFor "cust-1" "token-1")), .done, .done,
        .accounts (.ok [currentAccount none]), .done] (monaStore, .redeeming "code-1"),
      x.2 = .answered bankCustomer none (.error (.database .integrityError)) := by
    decide
  obtain ⟨⟨s, t⟩, hdrive, rfl⟩ := hexec
  refine hsettles.not_error ⟨_, .of_drive (fun r hr s t => ?_) hdrive⟩
  simp only [List.mem_cons, List.not_mem_nil, or_false] at hr
  rcases hr with rfl | rfl | rfl | rfl | rfl | rfl <;> first | rfl | trivial

end NbeAdvisor
