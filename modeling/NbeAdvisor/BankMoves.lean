import NbeAdvisor.BankTasks

/-!
# What a step of a bank request can do

One inductive for each kind of request, with a constructor for each thing that a step can
do, its guards and its effect on the store. What the runs of the requests keep is proved
by cases on these. An answer that tells the client of an error and leaves the store alone
is one case (`refused`).
-/

namespace NbeAdvisor

namespace BankStore

variable {sp : Spelling} {s s' : BankStore} {c : BankConnection} {l : List ProviderAccount}
  {created : List AccountRow}

/-- Landing accounts changes the accounts, and the ledger with them. -/
theorem applyAccounts_eq_ok (h : s.applyAccounts sp c l = .ok (s', created)) :
    ∃ (accounts : List AccountRow) (ledger : Ledger),
      applySyncedAccounts sp c l s.accounts = .ok (accounts, created) ∧
        s' = { s with accounts, ledger } := by
  unfold applyAccounts at h
  split at h
  · cases h
  next happly =>
  cases h
  exact ⟨_, _, happly, rfl⟩

/-- The rows of the superseded accounts are gone. -/
theorem applyAccounts_ledger (h : s.applyAccounts sp c l = .ok (s', created)) : s'.ledger =
    s.ledger.filter fun t => t.account ∉ (superseded sp c l s.accounts).map (·.id) := by
  unfold applyAccounts at h
  split at h
  · cases h
  · cases h
    rfl

/-- The block goes through exactly if what was listed can land. -/
theorem applyAccounts_isOk (sp : Spelling) (c : BankConnection) (l : List ProviderAccount)
    (hs : AccountsSound s.accounts) : (∃ x, s.applyAccounts sp c l = .ok x) ↔
      Landable c (remaining sp c l s.accounts) l := by
  rw [← applySyncedAccounts_isOk sp c l hs]
  unfold applyAccounts
  cases applySyncedAccounts sp c l s.accounts with
  | error e => simp
  | ok x => simp

/-- A link that goes through found no other row that clashes with it. -/
theorem linkConnection_eq_ok {token : TokenResponse}
    (h : s.linkConnection c token = some (.ok s')) :
    (c.link token).Fits ∧ ¬s.Awaits (c.link token) ∧
      (∀ d ∈ s.connections, d.id ≠ c.id → ¬(c.link token).Clashes d) ∧
      s' = s.saveConnection c.id (.link token) := by
  unfold linkConnection at h
  split at h
  · cases h
  next hfits =>
  split at h
  · cases h
  next hawaits =>
  split at h
  · cases h
  next hclash =>
  cases h
  exact ⟨not_not.1 hfits, hawaits, fun d hd hne hcl => hclash ⟨d, hd, hne, hcl⟩, rfl⟩

/-- What the lookup of a customer has found. -/
theorem resolve_eq_some {providerSlug : String} {customer : Option String} {user : User}
    (h : s.resolve providerSlug customer = some (c, user)) :
    c ∈ s.connections ∧ c.providerSlug = providerSlug ∧ c.externalCustomerId = customer ∧
      user ∈ s.users ∧ user.id = c.user := by
  obtain ⟨d, hd, hmatch⟩ := List.mem_filterMap.1 (List.mem_of_head? h)
  split at hmatch
  · next hc =>
    obtain ⟨u, hu, heq⟩ := Option.map_eq_some_iff.1 hmatch
    cases heq
    exact ⟨hd, hc.1, hc.2, List.mem_of_find?_eq_some hu, by simpa using List.find?_some hu⟩
  · cases hmatch

/-- What the lookup of an account has found. -/
theorem route_eq_some {providerSlug externalAccountId : String} {a : AccountRow}
    (h : s.route providerSlug externalAccountId = some a) :
    a ∈ s.accounts ∧ a.linkType = .synced ∧ ∃ c ∈ s.connections, a.Holds c.id externalAccountId ∧
      c.providerSlug = providerSlug ∧ c.status = .linked := by
  unfold route at h
  have hfound := List.find?_some h
  obtain ⟨hext, hl, c, hc, hconn, hslug⟩ := of_decide_eq_true hfound
  exact ⟨List.mem_of_find?_eq_some h, hl, c, hc, ⟨hconn, hext⟩, hslug⟩

/-- A save keeps the primary keys. -/
theorem saveConnection_ids {k : ConnectionId} {f : BankConnection → BankConnection}
    (hf : ∀ c, (f c).id = c.id) :
    (s.saveConnection k f).connections.map (·.id) = s.connections.map (·.id) := by
  rw [saveConnection, Keyed.map_modify hf]

/-- After a save every connection is what it was or what was saved. -/
theorem exists_mem_saveConnection {k : ConnectionId} {f : BankConnection → BankConnection}
    (hc : c ∈ s.connections) :
    ∃ u ∈ (s.saveConnection k f).connections, u = c ∨ (c.id = k ∧ u = f c) :=
  Keyed.exists_mem_modify hc

/-- No connection has the fresh id. -/
theorem ne_freshConnectionId (hc : c ∈ s.connections) : c.id ≠ s.freshConnectionId := by
  intro h
  have hmem : s.freshConnectionId ∈ s.connections.map (·.id) := h ▸ List.mem_map_of_mem hc
  exact Keyed.freshKey_notMem _ (List.mem_append_left _ hmem)

/-- Nor has one that is not committed. -/
theorem ne_freshConnectionId_uncommitted {x : ℕ × Provision} (hx : x ∈ s.uncommitted)
    (hc : c ∈ x.2.connection) : c.id ≠ s.freshConnectionId := by
  intro h
  have hmem : s.freshConnectionId ∈ s.uncommitted.filterMap fun x => x.2.connection.map (·.id) :=
    List.mem_filterMap.2 ⟨x, hx, by rw [hc, Option.map_some, h]⟩
  exact Keyed.freshKey_notMem _ (List.mem_append_right _ hmem)

theorem freshUserId_notMem (s : BankStore) : s.freshUserId ∉ s.users.map (·.id) := fun h =>
  Keyed.freshKey_notMem _ (List.mem_append_left _ h)

/-- No user that is not committed has the fresh id. -/
theorem ne_freshUserId {x : ℕ × Provision} (hx : x ∈ s.uncommitted) :
    x.2.user.id ≠ s.freshUserId := by
  intro h
  have hmem : s.freshUserId ∈ s.uncommitted.map (·.2.user.id) := h ▸ List.mem_map_of_mem hx
  exact Keyed.freshKey_notMem _ (List.mem_append_right _ hmem)

end BankStore

section Link

variable {sp : Spelling} {s s' : BankStore}

/-- What a statement of the initiate can do. -/
inductive Initiate.Moves (s : BankStore) : Initiate → BankReply → BankStore → Initiate → Prop
  | refused {t : Initiate} (r : BankReply) (e : ApiError) : ¬t.Ended →
      Moves s t r s (answered (.error e))
  | checked {user : UserId} {providerSlug : String} :
      (∀ c, (s.connections.find? fun c => c.user = user ∧ c.providerSlug = providerSlug) = some c →
        c.status ≠ .linked) →
      Moves s (checking user providerSlug) .done s (saving user providerSlug)
  | absent {user : UserId} {providerSlug : String} (state : String) :
      (∀ c ∈ s.connections, ¬(c.user = user ∧ c.providerSlug = providerSlug)) →
      Moves s (saving user providerSlug) (.minted state) s (creating user providerSlug state)
  | saved {user : UserId} {providerSlug : String} (state : String) {c : BankConnection} :
      (s.connections.filter fun c => c.user = user ∧ c.providerSlug = providerSlug) = [c] →
      Moves s (saving user providerSlug) (.minted state) (s.saveConnection c.id (.restart state))
        (answered (.ok c.id))
  | created {user : UserId} {providerSlug state : String} {c : BankConnection} :
      c = { id := s.freshConnectionId, user, providerSlug, oauthState := some state } →
      Moves s (creating user providerSlug state) .done { s with connections := s.connections ++ [c] }
        (answered (.ok c.id))

/-- Every statement of an initiate is one of its moves. -/
theorem Initiate.step_moves {t t' : Initiate} {r : BankReply} (h : t.step s r = some (s', t')) :
    Initiate.Moves s t r s' t' := by
  unfold Initiate.step at h
  split at h
  · split at h
    · cases h
      exact .refused _ _ id
    split at h
    · next c hc =>
      split at h
      · cases h
        exact .refused _ _ id
      · next hl =>
        cases h
        exact .checked fun d hd => (Option.some.inj (hc.symm.trans hd)) ▸ hl
    · next hc =>
      cases h
      exact .checked fun d hd => absurd (hc.symm.trans hd) (by simp)
  · split at h
    · next hnil =>
      cases h
      exact .absent _ fun c hc hcu => by
        have := List.filter_eq_nil_iff.1 hnil c hc
        simp [hcu] at this
    · next hone =>
      cases h
      exact .saved _ hone
    · cases h
      exact .refused _ _ id
  · cases h
    exact .created rfl
  · cases h

/-- What a statement of a link callback can do. -/
inductive LinkCallback.Moves (sp : Spelling) (req : CallbackRequest) (s : BankStore) :
    LinkCallback → BankReply → BankStore → LinkCallback → List IngestTask → Prop
  | refused {t : LinkCallback} (r : BankReply) (e : ApiError) : ¬t.Ended →
      Moves sp req s t r s (answered (.error e)) []
  | loaded {c : BankConnection} {code state : String} :
      (s.connections.find? fun c => c.id = req.connectionId ∧ c.user = req.user) = some c →
      req.body = some (code, state) → given c.oauthState = some state → c.providerSlug ∈ registry →
      Moves sp req s loading .done s (exchanging c code) []
  | rejected {c : BankConnection} {code e : String} {r : Except String TokenData} :
      exchangeCodeForToken r = .error e →
      Moves sp req s (exchanging c code) (.token r) s (failing c e) []
  | exchanged {c : BankConnection} {code : String} {r : Except String TokenData}
      {token : TokenResponse} : exchangeCodeForToken r = .ok token →
      Moves sp req s (exchanging c code) (.token r)
        { s with exchanged := s.exchanged ++ [(code, token)] } (fetching c token) []
  | unreachable {c : BankConnection} {token : TokenResponse} (e : String) :
      Moves sp req s (fetching c token) (.accounts (.error e)) s (failing c e) []
  | fetched {c : BankConnection} {token : TokenResponse} (l : List ProviderAccount) :
      Moves sp req s (fetching c token) (.accounts (.ok l)) s (linking c token l) []
  | failed {c : BankConnection} {reason : String} (e : ApiError) : TextStorable reason →
      Moves sp req s (failing c reason) .done (s.saveConnection c.id (.markFailed reason))
        (answered (.error e)) []
  | linked {c : BankConnection} {token : TokenResponse} {l : List ProviderAccount}
      {s' : BankStore} : s.linkConnection c token = some (.ok s') →
      Moves sp req s (linking c token l) .done s' (applying (c.link token) l) []
  | applied {c : BankConnection} {l : List ProviderAccount} {s' : BankStore}
      {created : List AccountRow} : s.applyAccounts sp c l = .ok (s', created) →
      Moves sp req s (applying c l) .done s' (backfilling created (.fetching created)) []
  | backfilled {created : List AccountRow} :
      Moves sp req s (backfilling created (.fetching [])) .done s (answered (.ok created)) []
  | backfills {created : List AccountRow} {b b' : Backfill} {r : BankReply}
      {tasks : List IngestTask} : b.step r = some (some b', tasks) →
      Moves sp req s (backfilling created b) r s (backfilling created b') tasks
  | stopped {created : List AccountRow} {b : Backfill} {r : BankReply} {tasks : List IngestTask}
      (e : ApiError) : b.step r = some (none, tasks) →
      Moves sp req s (backfilling created b) r s (answered (.error e)) tasks

/-- Every statement of a link callback is one of its moves. -/
theorem LinkCallback.step_moves {req : CallbackRequest} {t t' : LinkCallback} {r : BankReply}
    {tasks : List IngestTask} (h : t.step sp req s r = some (s', t', tasks)) :
    LinkCallback.Moves sp req s t r s' t' tasks := by
  unfold LinkCallback.step at h
  split at h
  · split at h
    · cases h
      exact .refused _ _ id
    next c hc =>
    split at h
    · cases h
      exact .refused _ _ id
    next code state hbody =>
    split at h
    · cases h
      exact .refused _ _ id
    next hstate =>
    split at h
    · cases h
      exact .refused _ _ id
    next hslug =>
    cases h
    exact .loaded hc hbody (not_not.1 hstate) (not_not.1 hslug)
  · split at h
    · next he =>
      cases h
      exact .rejected he
    · next hok =>
      cases h
      exact .exchanged hok
  · cases h
    exact .unreachable _
  · cases h
    exact .fetched _
  · split at h
    · cases h
      exact .refused _ _ id
    · next hreason =>
      cases h
      exact .failed _ (not_not.1 hreason)
  · split at h
    · cases h
    · cases h
      exact .refused _ _ id
    · next hlink =>
      cases h
      exact .linked hlink
  · split at h
    · cases h
      exact .refused _ _ id
    · next happly =>
      cases h
      exact .applied happly
  · cases h
    exact .backfilled
  · split at h
    · cases h
    · next hb =>
      cases h
      exact .stopped _ hb
    · next hb =>
      cases h
      exact .backfills hb
  · cases h

end Link

section Login

variable {sp : Spelling} {i : ℕ} {s s' : BankStore}

/-- What a statement of a bank login can do. All that does not concern the rows is left out. -/
inductive BankLogin.Moves (sp : Spelling) (i : ℕ) (s : BankStore) :
    BankLogin → BankReply → BankStore → BankLogin → List IngestTask → Prop
  | refused {t : BankLogin} (r : BankReply) (k : Option BankCustomer) (e : ApiError) :
      ¬t.Ended → ¬t.InTransaction → t.newConnection = none →
      Moves sp i s t r s (answered k none (.error e)) []
  | redeemed {code providerSlug : String} : providerSlug ∈ registry →
      Moves sp i s (redeeming code) (.redeemed (some providerSlug)) s (exchanging providerSlug code) []
  | exchanged {providerSlug code : String} {r : Except String TokenData} {token : TokenResponse} :
      exchangeCodeForToken r = .ok token →
      Moves sp i s (exchanging providerSlug code) (.token r) s (lookingUp ⟨providerSlug, token⟩) []
  | foundNoPhone {k : BankCustomer} {c : BankConnection} {user : User} :
      s.resolve k.providerSlug k.token.externalCustomerId = some (c, user) →
      given user.phone = none → Moves sp i s (lookingUp k) .done s (savingPhone k c user) []
  | found {k : BankCustomer} {c : BankConnection} {user : User} :
      s.resolve k.providerSlug k.token.externalCustomerId = some (c, user) →
      given user.phone ≠ none → Moves sp i s (lookingUp k) .done s (savingTokens k c user) []
  | unknown {k : BankCustomer} :
      s.resolve k.providerSlug k.token.externalCustomerId = none →
      Moves sp i s (lookingUp k) .done s (checkingEmail k) []
  | phoneSaved {k : BankCustomer} {c : BankConnection} {user : User} :
      TextTakes 50 k.token.phone →
      Moves sp i s (savingPhone k c user) .done (s.savePhone user.id k.token.phone)
        (savingTokens k c user) []
  | tokensSaved {k : BankCustomer} {c : BankConnection} {user : User} :
      (c.refresh k.token).Fits →
      Moves sp i s (savingTokens k c user) .done (s.saveConnection c.id (.refresh k.token))
        (refreshing k (c.refresh k.token) user) []
  | fetchSkipped {k : BankCustomer} {c : BankConnection} {user : User} (e : String) :
      Moves sp i s (refreshing k c user) (.accounts (.error e)) s (answered k none (.ok user.id)) []
  | refetched {k : BankCustomer} {c : BankConnection} {user : User} (l : List ProviderAccount) :
      Moves sp i s (refreshing k c user) (.accounts (.ok l)) s (applying k none user.id c l) []
  | emailFree {k : BankCustomer} : (∀ u ∈ s.users, u.email ≠ k.token.email) →
      Moves sp i s (checkingEmail k) .done s (fetching k) []
  | fetched {k : BankCustomer} (l : List ProviderAccount) :
      Moves sp i s (fetching k) (.accounts (.ok l)) s (creatingUser k l) []
  | userExists {k : BankCustomer} {l : List ProviderAccount} :
      (∃ u ∈ s.users, u.email = (k.user sp s.freshUserId).email) →
      Moves sp i s (creatingUser k l) .done s (recovering k) []
  | userCreated {k : BankCustomer} {l : List ProviderAccount} {user : User} :
      user = k.user sp s.freshUserId → (∀ x ∈ s.uncommitted, x.2.user.email ≠ user.email) →
      (∀ u ∈ s.users, u.email ≠ user.email) →
      Moves sp i s (creatingUser k l) .done
        { s with uncommitted := s.uncommitted ++ [(i, ⟨user, none⟩)] } (creatingConnection k l user) []
  | connectionRefused {k : BankCustomer} {l : List ProviderAccount} {user : User} (e : ApiError) :
      Moves sp i s (creatingConnection k l user) .done (s.rollback i) (answered k none (.error e)) []
  | connectionExists {k : BankCustomer} {l : List ProviderAccount} {user : User} :
      (∃ d ∈ s.connections, (k.connection user.id s.freshConnectionId).Clashes d) →
      Moves sp i s (creatingConnection k l user) .done (s.rollback i) (recovering k) []
  | connectionCreated {k : BankCustomer} {l : List ProviderAccount} {user : User}
      {c : BankConnection} : c = k.connection user.id s.freshConnectionId → c.Fits →
      ¬s.Awaits c → (∀ d ∈ s.connections, ¬c.Clashes d) →
      Moves sp i s (creatingConnection k l user) .done
        { s with uncommitted := (s.rollback i).uncommitted ++ [(i, ⟨user, c⟩)] }
        (committing k l user c) []
  | committed {k : BankCustomer} {l : List ProviderAccount} {user : User} {c : BankConnection} :
      Moves sp i s (committing k l user c) .done
        { s.rollback i with users := s.users ++ [user], connections := s.connections ++ [c] }
        (applying k c user.id c l) []
  | recovered {k : BankCustomer} {c : BankConnection} {user : User} :
      s.resolve k.providerSlug k.token.externalCustomerId = some (c, user) →
      Moves sp i s (recovering k) .done s (answered k none (.ok user.id)) []
  | applied {k : BankCustomer} {new : Option BankConnection} {user : UserId} {c : BankConnection}
      {l : List ProviderAccount} {s' : BankStore} {created : List AccountRow} :
      s.applyAccounts sp c l = .ok (s', created) →
      Moves sp i s (applying k new user c l) .done s' (backfilling k new user (.fetching created)) []
  | applyFailed {k : BankCustomer} {new : Option BankConnection} {user : UserId}
      {c : BankConnection} {l : List ProviderAccount} (e : ApiError) :
      Moves sp i s (applying k new user c l) .done s (answered k new (.error e)) []
  | backfilled {k : BankCustomer} {new : Option BankConnection} {user : UserId} :
      Moves sp i s (backfilling k new user (.fetching [])) .done s (answered k new (.ok user)) []
  | backfills {k : BankCustomer} {new : Option BankConnection} {user : UserId} {b b' : Backfill}
      {r : BankReply} {tasks : List IngestTask} : b.step r = some (some b', tasks) →
      Moves sp i s (backfilling k new user b) r s (backfilling k new user b') tasks
  | stopped {k : BankCustomer} {new : Option BankConnection} {user : UserId} {b : Backfill}
      {r : BankReply} {tasks : List IngestTask} (e : ApiError) : b.step r = some (none, tasks) →
      Moves sp i s (backfilling k new user b) r s (answered k new (.error e)) tasks

/-- Every statement of a bank login is one of its moves. -/
theorem BankLogin.step_moves {t t' : BankLogin} {r : BankReply} {tasks : List IngestTask}
    (h : t.step sp i s r = some (s', t', tasks)) : BankLogin.Moves sp i s t r s' t' tasks := by
  unfold BankLogin.step at h
  split at h
  · cases h
    exact .refused _ _ _ id id rfl
  · split at h
    · cases h
      exact .refused _ _ _ id id rfl
    · next hslug =>
      cases h
      exact .redeemed (not_not.1 hslug)
  · split at h
    · cases h
      exact .refused _ _ _ id id rfl
    · next htoken =>
      cases h
      exact .exchanged htoken
  · split at h
    · cases h
      exact .refused _ _ _ id id rfl
    split at h
    · next c user hres =>
      split at h
      · next hphone =>
        cases h
        exact .foundNoPhone hres hphone
      · next hphone =>
        cases h
        exact .found hres hphone
    · next hres =>
      cases h
      exact .unknown hres
  · split at h
    · cases h
      exact .refused _ _ _ id id rfl
    · next hphone =>
      cases h
      exact .phoneSaved (not_not.1 hphone)
  · split at h
    · cases h
      exact .refused _ _ _ id id rfl
    · next hfits =>
      cases h
      exact .tokensSaved (not_not.1 hfits)
  · cases h
    exact .fetchSkipped _
  · cases h
    exact .refetched _
  · split at h
    · cases h
      exact .refused _ _ _ id id rfl
    split at h
    · cases h
      exact .refused _ _ _ id id rfl
    · next hfree =>
      cases h
      exact .emailFree fun u hu he => hfree ⟨u, hu, he⟩
  · cases h
    exact .refused _ _ _ id id rfl
  · cases h
    exact .fetched _
  · dsimp only at h
    split at h
    · cases h
      exact .refused _ _ _ id id rfl
    split at h
    · cases h
    next hwait =>
    split at h
    · next hexists =>
      cases h
      exact .userExists hexists
    · next hfree =>
      cases h
      exact .userCreated rfl (fun x hx he => hwait ⟨x, hx, he⟩) fun u hu he => hfree ⟨u, hu, he⟩
  · dsimp only at h
    split at h
    · cases h
      exact .connectionRefused _
    next hfits =>
    split at h
    · cases h
    next hwait =>
    split at h
    · next hclash =>
      cases h
      exact .connectionExists hclash
    · next hclash =>
      cases h
      exact .connectionCreated rfl (not_not.1 hfits) hwait fun d hd hcl => hclash ⟨d, hd, hcl⟩
  · cases h
    exact .committed
  · split at h
    · cases h
      exact .refused _ _ _ id id rfl
    · next hres =>
      cases h
      exact .recovered hres
  · split at h
    · cases h
      exact .applyFailed _
    · next happly =>
      cases h
      exact .applied happly
  · cases h
    exact .backfilled
  · split at h
    · cases h
    · next hb =>
      cases h
      exact .stopped _ hb
    · next hb =>
      cases h
      exact .backfills hb
  · cases h

end Login

section Webhook

variable {sp : Spelling} {tax : Taxonomy} {i : ℕ} {s s' : BankStore}

/-- What a statement of the webhook can do. -/
inductive SyncWebhook.Moves (sp : Spelling) (body : SyncWebhookBody) (s : BankStore) :
    SyncWebhook → BankReply → BankStore → SyncWebhook → List IngestTask → Prop
  | refused {t : SyncWebhook} (r : BankReply) (e : ApiError) : ¬t.Ended →
      Moves sp body s t r s (answered (.error e)) []
  | routed {a : AccountRow} : s.route body.providerSlug body.externalAccountId = some a →
      Moves sp body s routing .done s (enqueueing a.id) []
  | unrouted : s.route body.providerSlug body.externalAccountId = none →
      Moves sp body s routing .done s findingConnection []
  | found {c : BankConnection} : c ∈ s.connections →
      c.Carries body.providerSlug body.externalCustomerId → c.status = .linked →
      Moves sp body s findingConnection .done s (fetching c) []
  | fetched {c : BankConnection} (l : List ProviderAccount) :
      Moves sp body s (fetching c) (.accounts (.ok l)) s (applying c l) []
  | applied {c : BankConnection} {l : List ProviderAccount} {s' : BankStore}
      {created : List AccountRow} : s.applyAccounts sp c l = .ok (s', created) →
      Moves sp body s (applying c l) .done s' (backfilling c (.fetching created)) []
  | backfilled {c : BankConnection} :
      Moves sp body s (backfilling c (.fetching [])) .done s (rerouting c) []
  | backfills {c : BankConnection} {b b' : Backfill} {r : BankReply} {tasks : List IngestTask} :
      b.step r = some (some b', tasks) →
      Moves sp body s (backfilling c b) r s (backfilling c b') tasks
  | stopped {c : BankConnection} {b : Backfill} {r : BankReply} {tasks : List IngestTask}
      (e : ApiError) : b.step r = some (none, tasks) →
      Moves sp body s (backfilling c b) r s (answered (.error e)) tasks
  | rerouted {c : BankConnection} {a : AccountRow} : a ∈ s.accounts →
      a.Holds c.id body.externalAccountId →
      Moves sp body s (rerouting c) .done s (enqueueing a.id) []
  | enqueued {account : AccountId} :
      Moves sp body s (enqueueing account) (.enqueued true) s (answered (.ok ()))
        [⟨account, body.transactions, some (body.providerSlug, body.externalAccountId)⟩]

/-- Every statement of the webhook is one of its moves. -/
theorem SyncWebhook.step_moves {body : SyncWebhookBody} {t t' : SyncWebhook} {r : BankReply}
    {tasks : List IngestTask} (h : t.step sp body s r = some (s', t', tasks)) :
    SyncWebhook.Moves sp body s t r s' t' tasks := by
  unfold SyncWebhook.step at h
  split at h
  · split at h
    · next hroute =>
      cases h
      exact .routed hroute
    · next hroute =>
      cases h
      exact .unrouted hroute
  · split at h
    · cases h
      exact .refused _ _ id
    · next c hone =>
      split at h
      · cases h
        exact .refused _ _ id
      · cases h
        have hc := List.mem_filter.1 (hone ▸ List.mem_singleton.2 rfl :
          c ∈ s.connections.filter fun c =>
            c.Carries body.providerSlug body.externalCustomerId ∧ c.status = .linked)
        exact .found hc.1 (of_decide_eq_true hc.2).1 (of_decide_eq_true hc.2).2
    · cases h
      exact .refused _ _ id
  · cases h
    exact .refused _ _ id
  · cases h
    exact .fetched _
  · split at h
    · cases h
      exact .refused _ _ id
    · next happly =>
      cases h
      exact .applied happly
  · cases h
    exact .backfilled
  · split at h
    · cases h
    · next hb =>
      cases h
      exact .stopped _ hb
    · next hb =>
      cases h
      exact .backfills hb
  · split at h
    · cases h
      exact .refused _ _ id
    · next ha =>
      cases h
      exact .rerouted (List.mem_of_find?_eq_some ha) (by simpa using List.find?_some ha)
  · cases h
    exact .enqueued
  · cases h
    exact .refused _ _ id
  · cases h

/-- A step of any request or task. -/
inductive BankTask.Moves (sp : Spelling) (tax : Taxonomy) (i : ℕ) (s : BankStore) :
    BankTask → BankReply → BankStore → BankTask → List BankTask → Prop
  | initiates {t t' : Initiate} {r : BankReply} {s' : BankStore} : Initiate.Moves s t r s' t' →
      Moves sp tax i s (initiate t) r s' (initiate t') []
  | callsBack {req : CallbackRequest} {t t' : LinkCallback} {r : BankReply} {s' : BankStore}
      {tasks : List IngestTask} : LinkCallback.Moves sp req s t r s' t' tasks →
      Moves sp tax i s (callback req t) r s' (callback req t') (tasks.map ingest)
  | logsIn {t t' : BankLogin} {r : BankReply} {s' : BankStore} {tasks : List IngestTask} :
      BankLogin.Moves sp i s t r s' t' tasks →
      Moves sp tax i s (login t) r s' (login t') (tasks.map ingest)
  | pushes {body : SyncWebhookBody} {t t' : SyncWebhook} {r : BankReply} {s' : BankStore}
      {tasks : List IngestTask} : SyncWebhook.Moves sp body s t r s' t' tasks →
      Moves sp tax i s (webhook body t) r s' (webhook body t') (tasks.map ingest)
  | ingests (task : IngestTask) : Moves sp tax i s (ingest task) .done (task.run tax s) ingested []

/-- Every step of a request is one of its moves. -/
theorem BankTask.step_moves {t t' : BankTask} {r : BankReply} {new : List BankTask}
    (h : t.step sp tax i s r = some (s', t', new)) : BankTask.Moves sp tax i s t r s' t' new := by
  cases t with
  | initiate t =>
    obtain ⟨x, hx, heq⟩ := Option.map_eq_some_iff.1 h
    cases heq
    exact .initiates (Initiate.step_moves hx)
  | callback req t =>
    obtain ⟨x, hx, heq⟩ := Option.map_eq_some_iff.1 h
    cases heq
    exact .callsBack (LinkCallback.step_moves hx)
  | login t =>
    obtain ⟨x, hx, heq⟩ := Option.map_eq_some_iff.1 h
    cases heq
    exact .logsIn (BankLogin.step_moves hx)
  | webhook body t =>
    obtain ⟨x, hx, heq⟩ := Option.map_eq_some_iff.1 h
    cases heq
    exact .pushes (SyncWebhook.step_moves hx)
  | ingest task =>
    cases r with
    | done =>
      cases h
      exact .ingests task
    | _ => cases h
  | ingested => cases h

end Webhook

end NbeAdvisor
