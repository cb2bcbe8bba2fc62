import NbeAdvisor.BankTables
import NbeAdvisor.LinkOutcome

/-!
# Where a bank's pushes go

Initiates, link callbacks, bank logins and webhooks of any users, in any interleaving. The
bank keeps its books straight : an external account belongs to one customer (`owner`), an
access token to the customer whom its response names (`holder`), and the accounts that a
token lists are its customer's (`Truthful`).

`unique_external_account_per_connection` keeps one row for an external account under one
connection. That no other linked connection has one too rests on the connection's customer,
and a callback may replace the customer of a connection that was linked before, with the
accounts of the former one still attached (`relink_twoRows`).

If no callback does (`KeepsCustomer`), then an account row always belongs to the connection
that carries the owner of its external account. So at most one row under a linked
connection stands for it, and every batch of a webhook ends up in the ledger of the user
whose connection carries the owner (`batches_reachOwner`).
-/

namespace NbeAdvisor

open Interleave

/-! ## What the bank answers -/

/-- The provider that a thread exchanges a code with. -/
def BankTask.exchangesAt : BankTask → Option String
  | callback _ (.exchanging c _) => some c.providerSlug
  | login (.exchanging providerSlug _) => some providerSlug
  | _ => none

/-- The provider and the access token with which a thread fetches accounts. -/
def BankTask.fetchesWith : BankTask → Option (String × String)
  | callback _ (.fetching c token) => some (c.providerSlug, token.accessToken)
  | login (.fetching k) => some (k.providerSlug, k.token.accessToken)
  | login (.refreshing _ c _) | webhook _ (.fetching c) =>
    c.accessToken.map fun accessToken => (c.providerSlug, accessToken)
  | _ => none

/-- A token response names the holder of its token, and a token lists accounts of its
holder. -/
def BankTask.Told (owner holder : String → String → String) (t : BankTask) : BankReply → Prop
  | .token r => ∀ providerSlug ∈ t.exchangesAt, ∀ token ∈ (exchangeCodeForToken r).toOption,
      token.customer = some (holder providerSlug token.accessToken)
  | .accounts (.ok l) => ∀ x ∈ t.fetchesWith, ∀ a ∈ l,
      owner x.1 a.cut.externalAccountId = holder x.1 x.2
  | _ => True

instance (owner holder : String → String → String) (t : BankTask) :
    DecidablePred (t.Told owner holder) := fun r => by
  unfold BankTask.Told
  split <;> infer_instance

/-- What the bank answers a thread is true. -/
def Truthful (owner holder : String → String → String) (p : Pool BankStore BankTask) :
    Action BankTask BankReply → Prop
  | .run i r => ∀ t ∈ p.threads[i]?, t.Told owner holder r
  | .arrive _ => True

instance (owner holder : String → String → String) (p : Pool BankStore BankTask) :
    DecidablePred (Truthful owner holder p)
  | .run i r => inferInstanceAs (Decidable (∀ t ∈ p.threads[i]?, t.Told owner holder r))
  | .arrive _ => .isTrue trivial

/-- The rows that the next statement of a thread gives another customer than they have. -/
def BankTask.replaces (s : BankStore) : BankTask → List BankConnection
  | callback _ (.linking c token _) => s.connections.filter fun d => d.id = c.id ∧
      d.externalCustomerId ≠ none ∧ d.externalCustomerId ≠ token.customer
  | _ => []

/-- No callback replaces the customer of a connection. -/
def KeepsCustomer (p : Pool BankStore BankTask) : Action BankTask BankReply → Prop
  | .run i _ => ∀ t ∈ p.threads[i]?, t.replaces p.store = []
  | .arrive _ => True

instance (p : Pool BankStore BankTask) : DecidablePred (KeepsCustomer p)
  | .run i _ => inferInstanceAs (Decidable (∀ t ∈ p.threads[i]?, t.replaces p.store = []))
  | .arrive _ => .isTrue trivial

/-! ## What the rows keep -/

/-- The row that `c` was, with its user, and its customer if it had one. -/
def BankConnection.Keeps (d c : BankConnection) : Prop :=
  d.id = c.id ∧ d.user = c.user ∧ d.providerSlug = c.providerSlug ∧
    ∀ customer, c.externalCustomerId = some customer → d.externalCustomerId = some customer

theorem BankConnection.Keeps.rfl {c : BankConnection} : c.Keeps c :=
  ⟨Eq.refl _, Eq.refl _, Eq.refl _, fun _ h => h⟩

theorem BankConnection.Keeps.trans {c d e : BankConnection} (h : c.Keeps d) (h' : d.Keeps e) :
    c.Keeps e :=
  ⟨h.1.trans h'.1, h.2.1.trans h'.2.1, h.2.2.1.trans h'.2.2.1, fun x hx => h.2.2.2 x (h'.2.2.2 x hx)⟩

namespace BankStore

variable {sp : Spelling} {s s' : BankStore}

/-- What the other threads rely on : connections stay with their customers, and synced
accounts where they are. -/
structure Retains (s s' : BankStore) : Prop where
  connections : ∀ c ∈ s.connections, ∃ c' ∈ s'.connections, c'.Keeps c
  accounts : ∀ a ∈ s.accounts, a.linkType = .synced → ∃ a' ∈ s'.accounts, a'.Continues a

/-- Nothing is lost where nothing is done. -/
theorem Retains.refl (s : BankStore) : s.Retains s where
  connections c hc := ⟨c, hc, .rfl⟩
  accounts a ha hl := ⟨a, ha, rfl, rfl, rfl, hl⟩

/-- Only the connections change. -/
theorem Retains.of_connections (hc : ∀ c ∈ s.connections, ∃ c' ∈ s'.connections, c'.Keeps c)
    (ha : s'.accounts = s.accounts) : s.Retains s' :=
  ⟨hc, ha ▸ (refl s).accounts⟩

/-- A save that keeps the rows. -/
theorem Retains.save {k : ConnectionId} {f : BankConnection → BankConnection}
    (hf : ∀ c ∈ s.connections, c.id = k → (f c).Keeps c) : s.Retains (s.saveConnection k f) := by
  refine .of_connections (fun c hc => ?_) rfl
  obtain ⟨u, hu, rfl | ⟨hk, rfl⟩⟩ := exists_mem_saveConnection (k := k) (f := f) hc
  · exact ⟨u, hu, .rfl⟩
  · exact ⟨_, hu, hf c hc hk⟩

/-- A new connection. -/
theorem Retains.snoc (s : BankStore) (c : BankConnection) :
    s.Retains { s with connections := s.connections ++ [c] } :=
  .of_connections (fun d hd => ⟨d, List.mem_append_left _ hd, .rfl⟩) rfl

/-- Accounts that land. -/
theorem Retains.apply {c : BankConnection} {l : List ProviderAccount} {created : List AccountRow}
    (h : s.applyAccounts sp c l = .ok (s', created)) : s.Retains s' := by
  obtain ⟨accounts, ledger, happly, rfl⟩ := applyAccounts_eq_ok h
  exact ⟨(refl s).connections, fun a ha hl => applySyncedAccounts_keeps happly ha hl⟩

/-- The row of the copy is there, and has the customer of the copy, if any. -/
def Has (s : BankStore) (c : BankConnection) : Prop := ∃ d ∈ s.connections, d.Keeps c

/-- A connection stays. -/
theorem Has.mono {c : BankConnection} (h : s.Has c) (hk : s.Retains s') : s'.Has c := by
  obtain ⟨d, hd, hdc⟩ := h
  obtain ⟨d', hd', hdd⟩ := hk.connections d hd
  exact ⟨d', hd', hdd.trans hdc⟩

/-- The user has a connection that carries the customer. -/
def Represents (s : BankStore) (user : UserId) (providerSlug customer : String) : Prop :=
  ∃ c ∈ s.connections, c.user = user ∧ c.Carries providerSlug customer

/-- Who represents a customer goes on to. -/
theorem Represents.mono {user : UserId} {providerSlug customer : String}
    (h : s.Represents user providerSlug customer) (hk : s.Retains s') :
    s'.Represents user providerSlug customer := by
  obtain ⟨c, hc, hu, hslug, hcust⟩ := h
  obtain ⟨c', hc', -, hu', hslug', hcust'⟩ := hk.connections c hc
  exact ⟨c', hc', hu'.trans hu, hslug'.trans hslug, hcust' _ hcust⟩

/-- The account is the one that stands for `externalAccountId` at the provider. -/
def Targets (s : BankStore) (providerSlug externalAccountId : String) (account : AccountId) : Prop :=
  ∃ a ∈ s.accounts, a.id = account ∧ a.linkType = .synced ∧ ∃ c ∈ s.connections,
    a.Holds c.id externalAccountId ∧ c.providerSlug = providerSlug

/-- An account stays where it is. -/
theorem Targets.mono {providerSlug externalAccountId : String} {account : AccountId}
    (h : s.Targets providerSlug externalAccountId account) (hk : s.Retains s') :
    s'.Targets providerSlug externalAccountId account := by
  obtain ⟨a, ha, hid, hl, c, hc, hholds, hslug⟩ := h
  obtain ⟨a', ha', hida, hconn, hext, hl'⟩ := hk.accounts a ha hl
  obtain ⟨c', hc', hidc, -, hslug', -⟩ := hk.connections c hc
  refine ⟨a', ha', hida.trans hid, hl', c', hc', ⟨?_, hext.trans hholds.2⟩, hslug'.trans hslug⟩
  rw [hconn, hidc]
  exact hholds.1

end BankStore

/-! ## The invariant -/

section Routed

variable {sp : Spelling} {tax : Taxonomy} {owner holder : String → String → String} {i : ℕ}
  {s s' : BankStore}

/-- The customer of the connection holds its access token. -/
def BankConnection.Named (holder : String → String → String) (c : BankConnection) : Prop :=
  ∀ accessToken, c.accessToken = some accessToken →
    c.externalCustomerId = some (holder c.providerSlug accessToken)

/-- The accounts are those of the connection's customer. -/
def BankConnection.Owns (owner : String → String → String) (c : BankConnection)
    (l : List ProviderAccount) : Prop :=
  ∀ p ∈ l, c.externalCustomerId = some (owner c.providerSlug p.cut.externalAccountId)

/-- An account belongs to the connection that carries the owner of its external account, and
what a batch has added to that connection's user. -/
structure BankStore.Routed (owner holder : String → String → String) (s : BankStore) : Prop where
  sound : AccountsSound s.accounts
  provisioned : s.Provisioned
  held : ∀ a ∈ s.accounts, ∀ id e, a.Holds id e → a.linkType = .synced ∧
    ∃ c ∈ s.connections, c.id = id ∧ c.user = a.user ∧
      c.externalCustomerId = some (owner c.providerSlug e)
  named : ∀ c ∈ s.connections, c.Named holder
  token : ∀ c ∈ s.connections, c.status = .linked → c.accessToken ≠ none
  ingested : ∀ x ∈ s.ingested, ∀ t ∈ x.rows,
    s.Represents t.user x.providerSlug (owner x.providerSlug x.externalAccountId)

namespace BankStore.Routed

/-- A step that leaves the accounts and the ledger alone. -/
theorem of_retains (h : s.Routed owner holder) (hk : s.Retains s')
    (hprov : s'.Provisioned) (ha : s'.accounts = s.accounts) (hing : s'.ingested = s.ingested)
    (hconn : ∀ c ∈ s'.connections, c ∈ s.connections ∨
      (c.Named holder ∧ (c.status = .linked → c.accessToken ≠ none))) : s'.Routed owner holder where
  sound := ha ▸ h.sound
  provisioned := hprov
  held a ham id e hholds := by
    rw [ha] at ham
    obtain ⟨hl, c, hc, hid, hu, hcust⟩ := h.held a ham id e hholds
    obtain ⟨c', hc', hid', hu', hslug', hcust'⟩ := hk.connections c hc
    refine ⟨hl, c', hc', hid'.trans hid, hu'.trans hu, ?_⟩
    rw [hslug']
    exact hcust' _ hcust
  named c hc := (hconn c hc).elim (h.named c) And.left
  token c hc := (hconn c hc).elim (h.token c) And.right
  ingested x hx t ht := by
    rw [hing] at hx
    exact (h.ingested x hx t ht).mono hk

/-- Accounts of a connection's customer are landed under it. -/
theorem apply (h : s.Routed owner holder) {c : BankConnection} {l : List ProviderAccount}
    {created : List AccountRow} (hc : s.Has c) (howns : c.Owns owner l)
    (happly : s.applyAccounts sp c l = .ok (s', created)) : s'.Routed owner holder := by
  obtain ⟨accounts, ledger, hrows, rfl⟩ := applyAccounts_eq_ok happly
  refine ⟨h.sound.apply hrows, h.provisioned.of_tags rfl rfl rfl, fun a ha id e hholds => ?_, h.named,
    h.token, h.ingested⟩
  rcases applySyncedAccounts_only h.sound hrows ha with hold | ⟨p, hp, hlands⟩
  · exact h.held a hold id e hholds
  · obtain ⟨d, hd, hid, hu, hslug, hcust⟩ := hc
    obtain ⟨⟨hcid, hext⟩, huser, hl, -⟩ := hlands
    obtain rfl : c.id = id := Option.some.inj (hcid.symm.trans hholds.1)
    obtain rfl : p.cut.externalAccountId = e := Option.some.inj (hext.symm.trans hholds.2)
    refine ⟨hl, d, hd, hid, hu.trans huser.symm, ?_⟩
    rw [hslug]
    exact hcust _ (howns p hp)

/-- A batch that was sent for the account of its task. -/
theorem ingest (h : s.Routed owner holder) {task : IngestTask}
    (htask : ∀ x ∈ task.origin, s.Targets x.1 x.2 task.bankAccountId) :
    (task.run tax s).Routed owner holder := by
  have hkeep : s.Retains (task.run tax s) := ⟨(Retains.refl s).connections, (Retains.refl s).accounts⟩
  refine ⟨h.sound, h.provisioned.of_tags rfl rfl rfl, h.held, h.named, h.token, fun x hx t ht => ?_⟩
  obtain ⟨new, hnew, hof⟩ := ingestSyncedTransactions_appends tax
    (s.accounts.map (·.toBankAccount)) s.ledger task.bankAccountId task.transactions
  unfold IngestTask.run at hx
  dsimp only at hx
  split at hx
  · exact (h.ingested x hx t ht).mono hkeep
  next providerSlug e horigin =>
  rcases List.mem_append.1 hx with hx | hx
  · exact (h.ingested x hx t ht).mono hkeep
  rw [List.mem_singleton.1 hx] at ht ⊢
  rw [hnew, List.drop_left] at ht
  obtain ⟨b, hb, hbid, htu, -⟩ := hof t ht
  obtain ⟨b, hbm, rfl⟩ := List.mem_map.1 hb
  obtain ⟨a, ha, haid, -, c, hc, hholds, rfl⟩ := htask (providerSlug, e) horigin
  obtain rfl : b = a := Keyed.eq_of_pk h.sound.ids hbm ha (hbid.trans haid.symm)
  obtain ⟨-, d, hd, hdid, hdu, hcust⟩ := h.held b hbm _ _ hholds
  obtain rfl : d = c := Keyed.eq_of_pk h.provisioned.connectionIds hd hc hdid
  exact ⟨d, hd, hdu.trans htu.symm, rfl, hcust⟩

end BankStore.Routed

/-! ## What the threads know -/

/-- The response names the holder of its token. -/
def TokenResponse.Names (holder : String → String → String) (providerSlug : String)
    (token : TokenResponse) : Prop :=
  token.customer = some (holder providerSlug token.accessToken)

/-- The accounts are those of the token's holder. -/
def TokenResponse.Lists (owner holder : String → String → String) (providerSlug : String)
    (token : TokenResponse) (l : List ProviderAccount) : Prop :=
  ∀ p ∈ l, owner providerSlug p.cut.externalAccountId = holder providerSlug token.accessToken

/-- What a callback relies on : the token is of its holder, and the accounts are the holder's. -/
def LinkCallback.Routed (owner holder : String → String → String) (s : BankStore) :
    LinkCallback → Prop
  | loading | backfilling _ _ | answered _ => True
  | exchanging c _ | failing c _ => s.Has c
  | fetching c token => s.Has c ∧ token.Names holder c.providerSlug
  | linking c token l => s.Has c ∧ token.Names holder c.providerSlug ∧
      token.Lists owner holder c.providerSlug l
  | applying c l => s.Has c ∧ c.Owns owner l

/-- What a bank login relies on. -/
def BankLogin.Routed (owner holder : String → String → String) (s : BankStore) : BankLogin → Prop
  | redeeming _ | exchanging _ _ | backfilling _ _ _ _ | answered _ _ _ => True
  | lookingUp k | checkingEmail k | fetching k | recovering k => k.token.Names holder k.providerSlug
  | savingPhone k c _ | savingTokens k c _ => k.token.Names holder k.providerSlug ∧ s.Has c ∧
      c.providerSlug = k.providerSlug ∧ c.externalCustomerId = k.token.customer
  | refreshing _ c _ => s.Has c ∧ c.Named holder ∧ c.accessToken ≠ none
  | creatingUser k l | creatingConnection k l _ => k.token.Names holder k.providerSlug ∧
      k.token.Lists owner holder k.providerSlug l
  | committing k l user c => k.token.Names holder k.providerSlug ∧
      k.token.Lists owner holder k.providerSlug l ∧ c = k.connection user.id c.id
  | applying _ _ _ c l => s.Has c ∧ c.Owns owner l

/-- What a push relies on. -/
def SyncWebhook.Routed (owner holder : String → String → String) (s : BankStore)
    (body : SyncWebhookBody) : SyncWebhook → Prop
  | routing | findingConnection | answered _ => True
  | fetching c => s.Has c ∧ c.providerSlug = body.providerSlug ∧ c.Named holder ∧ c.accessToken ≠ none
  | applying c l => s.Has c ∧ c.providerSlug = body.providerSlug ∧ c.Owns owner l
  | backfilling c _ | rerouting c => s.Has c ∧ c.providerSlug = body.providerSlug
  | enqueueing account => s.Targets body.providerSlug body.externalAccountId account

/-- The task goes to an account of the owner. -/
def IngestTask.Routed (s : BankStore) (task : IngestTask) : Prop :=
  ∀ x ∈ task.origin, s.Targets x.1 x.2 task.bankAccountId

/-- What a request relies on, by its kind. -/
def BankTask.Routed (owner holder : String → String → String) (s : BankStore) : BankTask → Prop
  | initiate _ | ingested => True
  | callback _ t => t.Routed owner holder s
  | login t => t.Routed owner holder s
  | webhook body t => t.Routed owner holder s body
  | ingest task => task.Routed s

/-- What a callback relies on stays. -/
theorem LinkCallback.Routed.mono {t : LinkCallback} (h : t.Routed owner holder s)
    (hk : s.Retains s') : t.Routed owner holder s' := by
  cases t with
  | exchanging c code | failing c reason => exact BankStore.Has.mono h hk
  | fetching c token | linking c token l | applying c l => exact ⟨h.1.mono hk, h.2⟩
  | loading | backfilling created b | answered r => trivial

/-- What a login relies on stays. -/
theorem BankLogin.Routed.mono {t : BankLogin} (h : t.Routed owner holder s) (hk : s.Retains s') :
    t.Routed owner holder s' := by
  cases t with
  | savingPhone k c user | savingTokens k c user => exact ⟨h.1, h.2.1.mono hk, h.2.2⟩
  | refreshing k c user | applying k new user c l => exact ⟨h.1.mono hk, h.2⟩
  | _ => exact h

/-- What a push relies on stays. -/
theorem SyncWebhook.Routed.mono {body : SyncWebhookBody} {t : SyncWebhook}
    (h : t.Routed owner holder s body) (hk : s.Retains s') : t.Routed owner holder s' body := by
  cases t with
  | fetching c | applying c l | backfilling c b | rerouting c => exact ⟨h.1.mono hk, h.2⟩
  | enqueueing account => exact BankStore.Targets.mono h hk
  | routing | findingConnection | answered r => trivial

/-- What any request relies on stays. -/
theorem BankTask.Routed.mono {t : BankTask} (h : t.Routed owner holder s) (hk : s.Retains s') :
    t.Routed owner holder s' := by
  cases t with
  | callback req t => exact LinkCallback.Routed.mono h hk
  | login t => exact BankLogin.Routed.mono h hk
  | webhook body t => exact SyncWebhook.Routed.mono h hk
  | ingest task => exact fun x hx => (h x hx).mono hk
  | initiate t | ingested => trivial

/-- A backfill queues batches of no webhook. -/
theorem Backfill.step_origin {b : Backfill} {b' : Option Backfill} {r : BankReply}
    {tasks : List IngestTask} (h : b.step r = some (b', tasks)) : ∀ task ∈ tasks, task.origin = none := by
  unfold Backfill.step at h
  split at h
  · cases h
    simp
  · split at h
    · cases h
      simp
    · cases h
      simp
  · cases h
    simp
  · cases h
    simp
  · cases h

/-- Tasks of no push go anywhere. -/
theorem IngestTask.routed_of_origin {tasks : List IngestTask}
    (h : ∀ task ∈ tasks, task.origin = none) : ∀ task ∈ tasks, task.Routed s := by
  intro task htask x hx
  rw [h task htask] at hx
  cases hx

/-! ## A step of each request -/

/-- A statement of an initiate. -/
theorem Initiate.Moves.follows {t t' : Initiate} {r : BankReply} (h : Moves s t r s' t')
    (hs : s.Routed owner holder) : s.Retains s' ∧ s'.Routed owner holder := by
  have hprov := h.provisioned hs.provisioned
  cases h with
  | refused | checked | absent => exact ⟨.refl s, hs⟩
  | @saved user providerSlug state c hone =>
    have hk : s.Retains (s.saveConnection c.id (.restart state)) := .save fun d _ _ => .rfl
    refine ⟨hk, hs.of_retains hk hprov rfl rfl fun d hd => ?_⟩
    rcases Keyed.mem_modify.1 hd with ⟨hd, -⟩ | ⟨d₀, hd₀, -, rfl⟩
    · exact Or.inl hd
    · exact Or.inr ⟨hs.named d₀ hd₀, nofun⟩
  | @created user providerSlug state c hc =>
    refine ⟨.snoc s c, hs.of_retains (.snoc s c) hprov rfl rfl fun d hd => ?_⟩
    rcases List.mem_append.1 hd with hd | hd
    · exact Or.inl hd
    · rw [List.mem_singleton.1 hd, hc]
      exact Or.inr ⟨nofun, nofun⟩

/-- What a step of a request keeps, with the facts about the tasks that it queues. -/
structure BankStore.Follows (owner holder : String → String → String) (s s' : BankStore)
    (tasks : List IngestTask) : Prop where
  retains : s.Retains s'
  routed : s'.Routed owner holder
  tasks : ∀ task ∈ tasks, task.Routed s'

/-- A statement that changes no row. -/
theorem BankStore.Routed.follows (hs : s.Routed owner holder) : s.Follows owner holder s [] :=
  ⟨.refl s, hs, by simp⟩

/-- A step of a backfill. -/
theorem BankStore.Routed.follows_backfill (hs : s.Routed owner holder) {b : Backfill}
    {b' : Option Backfill} {r : BankReply} {tasks : List IngestTask}
    (hb : b.step r = some (b', tasks)) : s.Follows owner holder s tasks :=
  ⟨.refl s, hs, IngestTask.routed_of_origin (Backfill.step_origin hb)⟩

/-- Accounts that land under the connection of their owner. -/
theorem BankStore.Routed.follows_apply (hs : s.Routed owner holder) {c : BankConnection}
    {l : List ProviderAccount} {created : List AccountRow} (hc : s.Has c) (howns : c.Owns owner l)
    (happly : s.applyAccounts sp c l = .ok (s', created)) : s.Follows owner holder s' [] :=
  ⟨.apply happly, hs.apply hc howns happly, by simp⟩

/-- A statement of a callback that replaces no customer. -/
theorem LinkCallback.Moves.follows {req : CallbackRequest} {t t' : LinkCallback} {r : BankReply}
    {tasks : List IngestTask} (h : Moves sp req s t r s' t' tasks) (hs : s.Routed owner holder)
    (ht : t.Routed owner holder s) (htold : (BankTask.callback req t).Told owner holder r)
    (hkeeps : (BankTask.callback req t).replaces s = []) :
    s.Follows owner holder s' tasks ∧ t'.Routed owner holder s' := by
  cases h with
  | refused r e hne => exact ⟨hs.follows, trivial⟩
  | loaded hc hbody hstate hslug =>
    exact ⟨hs.follows, _, List.mem_of_find?_eq_some hc, .rfl⟩
  | rejected he => exact ⟨hs.follows, ht⟩
  | @exchanged c code r token htoken =>
    refine ⟨⟨⟨(BankStore.Retains.refl s).connections, (BankStore.Retains.refl s).accounts⟩, ?_, by simp⟩,
      ht, htold _ rfl token (by rw [htoken]; rfl)⟩
    exact ⟨hs.sound, hs.provisioned.of_tags rfl rfl rfl, hs.held, hs.named, hs.token, hs.ingested⟩
  | unreachable e => exact ⟨hs.follows, ht.1⟩
  | fetched l => exact ⟨hs.follows, ht.1, ht.2, htold _ rfl⟩
  | @failed c reason e hreason =>
    have hk : s.Retains (s.saveConnection c.id (.markFailed reason)) := .save fun d _ _ => .rfl
    refine ⟨⟨hk, hs.of_retains hk (hs.provisioned.save fun _ => rfl) rfl rfl fun d hd => ?_, by simp⟩,
      trivial⟩
    rcases Keyed.mem_modify.1 hd with ⟨hd, -⟩ | ⟨d₀, hd₀, -, rfl⟩
    · exact Or.inl hd
    · exact Or.inr ⟨hs.named d₀ hd₀, nofun⟩
  | @linked c token l s' hlink =>
    obtain ⟨hfits, hawaits, hclash, rfl⟩ := BankStore.linkConnection_eq_ok hlink
    obtain ⟨⟨d, hd, hid, hu, hslug, -⟩, hnames, hlists⟩ := ht
    have hrow : ∀ e ∈ s.connections, e.id = c.id → e = d := fun e he hec =>
      Keyed.eq_of_pk hs.provisioned.connectionIds he hd (hec.trans hid.symm)
    have hcust : ∀ x, d.externalCustomerId = some x → token.customer = some x := by
      intro x hx
      have hnot := List.filter_eq_nil_iff.1 hkeeps d hd
      by_contra hne
      refine hnot (decide_eq_true ⟨hid, by simp [hx], fun h => hne (h ▸ hx)⟩)
    have hk : s.Retains (s.saveConnection c.id (.link token)) := .save fun e he hec => by
      obtain rfl := hrow e he hec
      exact ⟨rfl, rfl, rfl, hcust⟩
    have hprov : (s.saveConnection c.id (.link token)).Provisioned :=
      hs.provisioned.link hfits (fun e he hec => by rw [hrow e he hec]; exact hslug) hawaits hclash
    refine ⟨⟨hk, hs.of_retains hk hprov rfl rfl fun e he => ?_, by simp⟩, ?_, fun p hp => ?_⟩
    · rcases Keyed.mem_modify.1 he with ⟨he, -⟩ | ⟨e₀, he₀, hec, rfl⟩
      · exact Or.inl he
      · obtain rfl := hrow e₀ he₀ hec
        refine Or.inr ⟨fun a ha => ?_, fun _ => by simp [BankConnection.link]⟩
        obtain rfl := Option.some.inj ha
        exact hnames.trans (by rw [← hslug]; rfl)
    · exact ⟨d.link token, Keyed.mem_modify.2 (Or.inr ⟨d, hd, hid, rfl⟩), hid, hu, hslug, fun _ h => h⟩
    · exact hnames.trans (congrArg some (hlists p hp).symm)
  | applied happly => exact ⟨hs.follows_apply ht.1 ht.2 happly, trivial⟩
  | backfilled => exact ⟨hs.follows, trivial⟩
  | backfills hb => exact ⟨hs.follows_backfill hb, trivial⟩
  | stopped e hb => exact ⟨hs.follows_backfill hb, trivial⟩

/-- A statement of a bank login. -/
theorem BankLogin.Moves.follows {t t' : BankLogin} {r : BankReply} {tasks : List IngestTask}
    (h : Moves sp i s t r s' t' tasks) (hs : s.Routed owner holder)
    (hh : s.Holding i (.login t)) (ht : t.Routed owner holder s)
    (htold : (BankTask.login t).Told owner holder r) :
    s.Follows owner holder s' tasks ∧ t'.Routed owner holder s' := by
  have hprov := h.provisioned hs.provisioned hh
  have hidle : ∀ s' : BankStore, s'.Provisioned → s'.connections = s.connections →
      s'.accounts = s.accounts → s'.ingested = s.ingested → s.Follows owner holder s' [] := by
    intro s' hprov hc ha hing
    have hk : s.Retains s' := .of_connections (fun c hcm => ⟨c, hc ▸ hcm, .rfl⟩) ha
    exact ⟨hk, hs.of_retains hk hprov ha hing fun c hcm => Or.inl (hc ▸ hcm), by simp⟩
  have hfound : ∀ {k : BankCustomer} {c : BankConnection} {user : User},
      s.resolve k.providerSlug k.token.externalCustomerId = some (c, user) → s.Has c ∧
        c.providerSlug = k.providerSlug ∧ c.externalCustomerId = k.token.customer := by
    intro k c user hres
    obtain ⟨hc, hslug, hcust, -, -⟩ := BankStore.resolve_eq_some hres
    exact ⟨⟨c, hc, .rfl⟩, hslug, hs.provisioned.customer_eq hc hcust⟩
  cases h with
  | refused r k e hend htx hnew => exact ⟨hs.follows, trivial⟩
  | redeemed hslug => exact ⟨hs.follows, trivial⟩
  | @exchanged providerSlug code r token htoken =>
    exact ⟨hs.follows, htold _ rfl token (by rw [htoken]; rfl)⟩
  | foundNoPhone hres hphone | found hres hphone => exact ⟨hs.follows, ht, hfound hres⟩
  | unknown hres => exact ⟨hs.follows, ht⟩
  | phoneSaved hphone =>
    have hf := hidle _ hprov rfl rfl rfl
    exact ⟨hf, ht.1, ht.2.1.mono hf.retains, ht.2.2⟩
  | @tokensSaved k c user hfits =>
    obtain ⟨hnames, ⟨d, hd, hid, hu, hslug, hcust⟩, hcslug, hccust⟩ := ht
    have hrow : ∀ e ∈ s.connections, e.id = c.id → e = d := fun e he hec =>
      Keyed.eq_of_pk hs.provisioned.connectionIds he hd (hec.trans hid.symm)
    have hk : s.Retains (s.saveConnection c.id (.refresh k.token)) := .save fun d _ _ => .rfl
    have hd' : s.Has c := ⟨d, hd, hid, hu, hslug, hcust⟩
    have hnamed : ∀ e : BankConnection, e.providerSlug = k.providerSlug →
        e.externalCustomerId = k.token.customer → (e.refresh k.token).Named holder := by
      intro e heslug hecust a ha
      obtain rfl := Option.some.inj ha
      exact hecust.trans (hnames.trans (by rw [← heslug]; rfl))
    refine ⟨⟨hk, hs.of_retains hk hprov rfl rfl fun e he => ?_, by simp⟩, hd'.mono hk,
      hnamed c hcslug hccust, by simp [BankConnection.refresh]⟩
    rcases Keyed.mem_modify.1 he with ⟨he, -⟩ | ⟨e₀, he₀, hec, rfl⟩
    · exact Or.inl he
    · obtain rfl := hrow e₀ he₀ hec
      refine Or.inr ⟨hnamed e₀ (hslug.trans hcslug) ?_, fun _ => by simp [BankConnection.refresh]⟩
      rw [hnames]
      exact hcust _ (hccust.trans hnames)
  | fetchSkipped e => exact ⟨hs.follows, trivial⟩
  | @refetched k c user l =>
    obtain ⟨hhas, hnamed, htok⟩ := ht
    obtain ⟨a, ha⟩ := Option.ne_none_iff_exists'.1 htok
    refine ⟨hs.follows, hhas, fun p hp => (hnamed a ha).trans ?_⟩
    exact congrArg some (htold (c.providerSlug, a) (by simp [BankTask.fetchesWith, ha]) p hp).symm
  | emailFree hfree => exact ⟨hs.follows, ht⟩
  | @fetched k l => exact ⟨hs.follows, ht, htold (k.providerSlug, k.token.accessToken) rfl⟩
  | userExists hexists => exact ⟨hs.follows, ht.1⟩
  | userCreated huser hwait hfree => exact ⟨hidle _ hprov rfl rfl rfl, ht⟩
  | connectionRefused e => exact ⟨hidle _ hprov rfl rfl rfl, trivial⟩
  | connectionExists hclash => exact ⟨hidle _ hprov rfl rfl rfl, ht.1⟩
  | connectionCreated hc hfits hawaits hclash =>
    exact ⟨hidle _ hprov rfl rfl rfl, ht.1, ht.2, by rw [hc]; rfl⟩
  | @committed k l user c =>
    obtain ⟨hnames, hlists, hc⟩ := ht
    have hk : s.Retains { s.rollback i with
        users := s.users ++ [user], connections := s.connections ++ [c] } :=
      .of_connections (fun d hd => ⟨d, List.mem_append_left _ hd, .rfl⟩) rfl
    have hslug : c.providerSlug = k.providerSlug := by rw [hc]; rfl
    have hcust : c.externalCustomerId = k.token.customer := by rw [hc]; rfl
    have htok : c.accessToken = some k.token.accessToken := by rw [hc]; rfl
    refine ⟨⟨hk, hs.of_retains hk hprov rfl rfl fun d hd => ?_, by simp⟩,
      ⟨c, List.mem_append_right _ (List.mem_singleton.2 rfl), .rfl⟩, fun p hp => ?_⟩
    · rcases List.mem_append.1 hd with hd | hd
      · exact Or.inl hd
      · rw [List.mem_singleton.1 hd]
        refine Or.inr ⟨fun a ha => ?_, fun _ => by simp [htok]⟩
        obtain rfl := Option.some.inj (htok.symm.trans ha)
        rw [hcust, hslug]
        exact hnames
    · rw [hcust, hslug, hlists p hp]
      exact hnames
  | recovered hres => exact ⟨hs.follows, trivial⟩
  | applied happly => exact ⟨hs.follows_apply ht.1 ht.2 happly, trivial⟩
  | applyFailed e => exact ⟨hs.follows, trivial⟩
  | backfilled => exact ⟨hs.follows, trivial⟩
  | backfills hb => exact ⟨hs.follows_backfill hb, trivial⟩
  | stopped e hb => exact ⟨hs.follows_backfill hb, trivial⟩

/-- A statement of the webhook. -/
theorem SyncWebhook.Moves.follows {body : SyncWebhookBody} {t t' : SyncWebhook} {r : BankReply}
    {tasks : List IngestTask} (h : Moves sp body s t r s' t' tasks) (hs : s.Routed owner holder)
    (ht : t.Routed owner holder s body) (htold : (BankTask.webhook body t).Told owner holder r) :
    s.Follows owner holder s' tasks ∧ t'.Routed owner holder s' body := by
  cases h with
  | refused r e hend => exact ⟨hs.follows, trivial⟩
  | @routed a hroute =>
    obtain ⟨ha, hl, c, hc, hholds, hslug, -⟩ := BankStore.route_eq_some hroute
    exact ⟨hs.follows, a, ha, rfl, hl, c, hc, hholds, hslug⟩
  | unrouted hnone => exact ⟨hs.follows, trivial⟩
  | @found c hc hcarries hlinked =>
    exact ⟨hs.follows, ⟨c, hc, .rfl⟩, hcarries.1, hs.named c hc, hs.token c hc hlinked⟩
  | @fetched c l =>
    obtain ⟨hhas, hslug, hnamed, htok⟩ := ht
    obtain ⟨a, ha⟩ := Option.ne_none_iff_exists'.1 htok
    refine ⟨hs.follows, hhas, hslug, fun p hp => (hnamed a ha).trans ?_⟩
    exact congrArg some (htold (c.providerSlug, a) (by simp [BankTask.fetchesWith, ha]) p hp).symm
  | applied happly =>
    have hf := hs.follows_apply ht.1 ht.2.2 happly
    exact ⟨hf, ht.1.mono hf.retains, ht.2.1⟩
  | backfilled => exact ⟨hs.follows, ht⟩
  | backfills hb => exact ⟨hs.follows_backfill hb, ht⟩
  | stopped e hb => exact ⟨hs.follows_backfill hb, trivial⟩
  | @rerouted c a ha hholds =>
    obtain ⟨⟨d, hd, hid, -, hslug, -⟩, hcslug⟩ := ht
    refine ⟨hs.follows, a, ha, rfl, (hs.held a ha _ _ hholds).1, d, hd, ?_, hslug.trans hcslug⟩
    rw [hid]
    exact hholds
  | enqueued =>
    refine ⟨⟨.refl s, hs, fun task htask x hx => ?_⟩, trivial⟩
    rw [List.mem_singleton.1 htask] at hx ⊢
    obtain rfl := Option.some.inj hx
    exact ht

/-- The invariant of the store and of the threads. -/
abbrev BatchesRouted (owner holder : String → String → String) : Pool BankStore BankTask → Prop :=
  Everywhere (BankStore.Routed owner holder) fun _ s t => t.Routed owner holder s

/-- Who comes in relies on nothing. -/
theorem BankTask.Starts.routed {t : BankTask} (h : t.Starts) : t.Routed owner holder s := by
  unfold BankTask.Starts at h
  split at h
  · trivial
  · trivial
  · trivial
  · trivial
  · exact h.elim

/-- A step keeps the invariant. -/
theorem BatchesRouted.next {p q : Pool BankStore BankTask} {a : Action BankTask BankReply}
    (hp : BatchesRouted owner holder p) (htrue : Truthful owner holder p a) (hkeeps : KeepsCustomer p a)
    (htag : Tagged p) (hn : (bankSystem sp tax).Next p a q) : BatchesRouted owner holder q := by
  refine Everywhere.next hp hn (fun t _ ht => ht.routed) fun i r t s' t' new ha hi hs => ?_
  subst ha
  have ht := hp.threads i t hi
  have htold := htrue t hi
  have hrequest : ∀ tasks, new = tasks.map BankTask.ingest →
      p.store.Follows owner holder s' tasks → t'.Routed owner holder s' →
      s'.Routed owner holder ∧ t'.Routed owner holder s' ∧
        (∀ j u, p.threads.length ≤ j → u ∈ new → u.Routed owner holder s') ∧
        ∀ j u, j ≠ i → p.threads[j]? = some u → u.Routed owner holder s' := by
    rintro tasks rfl hf ht'
    refine ⟨hf.routed, ht', fun j u _ hu => ?_, fun j u _ hj => (hp.threads j u hj).mono hf.retains⟩
    obtain ⟨task, htask, rfl⟩ := List.mem_map.1 hu
    exact hf.tasks task htask
  cases BankTask.step_moves hs with
  | initiates hm =>
    obtain ⟨hk, hs'⟩ := hm.follows hp.store
    exact hrequest [] rfl ⟨hk, hs', by simp⟩ trivial
  | callsBack hm =>
    obtain ⟨hf, ht'⟩ := hm.follows hp.store ht htold (hkeeps _ hi)
    exact hrequest _ rfl hf ht'
  | logsIn hm =>
    obtain ⟨hf, ht'⟩ := hm.follows hp.store (htag.holding i _ hi) ht htold
    exact hrequest _ rfl hf ht'
  | pushes hm =>
    obtain ⟨hf, ht'⟩ := hm.follows hp.store ht htold
    exact hrequest _ rfl hf ht'
  | ingests task =>
    have hk : p.store.Retains (task.run tax p.store) :=
      ⟨(BankStore.Retains.refl p.store).connections, (BankStore.Retains.refl p.store).accounts⟩
    exact hrequest [] rfl ⟨hk, hp.store.ingest ht, by simp⟩ trivial

end Routed

/-! ## Where the batches end up -/

/-- The account rows under a linked connection that stand for an external account. -/
def BankStore.linkedRows (s : BankStore) (providerSlug externalAccountId : String) :
    List AccountRow :=
  s.accounts.filter fun a => a.externalAccountId = some externalAccountId ∧
    ∃ c ∈ s.connections, a.connection = some c.id ∧ c.providerSlug = providerSlug ∧
      c.status = .linked

/-- One row at most stands for an external account, and what its batches have added is in
the ledger of the user whose connection carries its owner. -/
def BankStore.BatchesReachOwner (owner : String → String → String) (s : BankStore) : Prop :=
  (∀ providerSlug e, (s.linkedRows providerSlug e).length ≤ 1) ∧
    ∀ x ∈ s.ingested, ∀ t ∈ x.rows,
      s.Represents t.user x.providerSlug (owner x.providerSlug x.externalAccountId)

/-- A database in which nobody has linked a bank yet. -/
structure BankStore.Unlinked (s : BankStore) : Prop where
  connections : s.connections = []
  uncommitted : s.uncommitted = []
  ingested : s.ingested = []
  users : (s.users.map (·.id)).Nodup
  accounts : AccountsSound s.accounts
  manual : ∀ a ∈ s.accounts, a.connection = none

/-- From a database in which nobody has linked a bank, in every interleaving of requests in
which no callback replaces the customer of a connection, every batch reaches the owner of
its account. -/
theorem batches_reachOwner {sp : Spelling} {tax : Taxonomy} {owner holder : String → String → String}
    {p q : Pool BankStore BankTask} (hstore : p.store.Unlinked) (hstart : ∀ t ∈ p.threads, t.Starts)
    (hrun : (bankSystem sp tax).Run (fun p a => Truthful owner holder p a ∧ KeepsCustomer p a) p q) :
    q.store.BatchesReachOwner owner := by
  have hrouted : p.store.Routed owner holder := by
    have hprov : p.store.Provisioned := by
      constructor <;> simp [hstore.connections, hstore.uncommitted, hstore.users]
    refine ⟨hstore.accounts, hprov, fun a ha id e hae => ?_, by simp [hstore.connections],
      by simp [hstore.connections], by simp [hstore.ingested]⟩
    cases (hstore.manual a ha).symm.trans hae.1
  have hrun' := hrun.strengthen (J := Tagged) (fun _ _ _ h _ hn => h.next hn)
    (.start hstore.uncommitted hstart)
  have hq : BatchesRouted owner holder q := hrun'.invariant
    (fun _ _ _ h hok hn => h.next hok.1.1 hok.1.2 hok.2 hn)
    ⟨hrouted, fun i t hi => (hstart t (List.mem_of_getElem? hi)).routed⟩
  refine ⟨fun providerSlug e => ?_, hq.store.ingested⟩
  refine Keyed.length_filter_le_one hq.store.sound.ids fun a ha b hb hla hlb => ?_
  obtain ⟨hae, c, hc, hac, hcslug, -⟩ := of_decide_eq_true hla
  obtain ⟨hbe, d, hd, hbd, hdslug, -⟩ := of_decide_eq_true hlb
  have hcust : ∀ a ∈ q.store.accounts, ∀ c ∈ q.store.connections, a.Holds c.id e →
      c.providerSlug = providerSlug → c.externalCustomerId = some (owner providerSlug e) := by
    rintro a ha c hc hholds rfl
    obtain ⟨-, c', hc', hid, -, hcust⟩ := hq.store.held a ha _ _ hholds
    obtain rfl := Keyed.eq_of_pk hq.store.provisioned.connectionIds hc' hc hid
    exact hcust
  have hcc := hcust a ha c hc ⟨hac, hae⟩ hcslug
  have hdc := hcust b hb d hd ⟨hbd, hbe⟩ hdslug
  have hid : c.id = d.id := hq.store.provisioned.customers c hc d hd
    ⟨hcslug.trans hdslug.symm, by simp [hcc], hcc.trans hdc.symm⟩
  exact hq.store.sound.slots a ha b hb c.id e ⟨hac, hae⟩ ⟨hid ▸ hbd, hbe⟩

/-- A user who starts to link the bank. -/
def monaStarts : Pool BankStore BankTask :=
  ⟨{ users := [⟨1, "mona@example.org", "Mona", none⟩] }, [.initiate (.checking 1 "mock_bank")]⟩

/-- Nobody has linked a bank. -/
theorem monaStarts_unlinked : monaStarts.store.Unlinked where
  connections := rfl
  uncommitted := rfl
  ingested := rfl
  users := by simp [monaStarts]
  accounts := .nil
  manual := by simp [monaStarts]

/-- Nobody is beyond the first point. -/
theorem monaStarts_starts : ∀ t ∈ monaStarts.threads, t.Starts := by
  simp [monaStarts, BankTask.Starts]

/-- She does, and comes back from the bank. -/
def linkMona : List (Action BankTask BankReply) :=
  [.run 0 .done, .run 0 (.minted "state-1"), .run 0 .done,
    .arrive (.callback ⟨1, 1, some ("code-1", "state-1")⟩ .loading), .run 1 .done,
    .run 1 (.token (.ok (tokenFor "cust-1" "token-1")))]

/-- The account is linked, and the bank pushes a purchase. -/
def pushCoffee : List (Action BankTask BankReply) :=
  [.run 1 (.accounts (.ok [currentAccount (some "1000200030001234")])), .run 1 .done, .run 1 .done,
    .arrive (.webhook ⟨"mock_bank", "acc-1", "cust-1", [coffee "txn-1"]⟩ .routing), .run 2 .done,
    .run 2 (.enqueued true), .run 3 .done]

/-- Mona links her bank, and a purchase is pushed. -/
theorem batches_reachOwner_coffee : ∃ q : Pool BankStore BankTask,
    (q.store.ingested.map fun x => x.rows.map (·.user)) = [[1]] ∧
      q.store.BatchesReachOwner fun _ _ => "cust-1" := by
  have hexec : ∃ q ∈ (bankSystem ⟨id, id⟩ noTaxonomy).exec (linkMona ++ pushCoffee) monaStarts,
      (q.store.ingested.map fun x => x.rows.map (·.user)) = [[1]] := by
    decide
  obtain ⟨q, hq, hrows⟩ := hexec
  have hrun : (bankSystem ⟨id, id⟩ noTaxonomy).Run
      (fun p a => Truthful (fun _ _ => "cust-1") (fun _ _ => "cust-1") p a ∧ KeepsCustomer p a)
      monaStarts q := .of_exec_meets (by decide) hq
  exact ⟨q, hrows, batches_reachOwner monaStarts_unlinked monaStarts_starts hrun⟩

/-- The user links the bank once more from a second tab, as another of its customers. The
first customer's account stays under the connection, and the first customer signs in. -/
def relinkMona : List (Action BankTask BankReply) :=
  [.arrive (.callback ⟨1, 1, some ("code-2", "state-1")⟩ .loading), .run 2 .done,
    .run 1 (.accounts (.ok [currentAccount (some "1000200030001234")])), .run 1 .done, .run 1 .done,
    .run 2 (.token (.ok (tokenFor "cust-2" "token-2"))), .run 2 (.accounts (.ok [])), .run 2 .done,
    .arrive (.login (.redeeming "code-3")), .run 3 (.redeemed (some "mock_bank")),
    .run 3 (.token (.ok (tokenFor "cust-1" "token-1"))), .run 3 .done, .run 3 .done,
    .run 3 (.accounts (.ok [currentAccount (some "1000200030001234")])), .run 3 .done, .run 3 .done,
    .run 3 .done, .run 3 .done]

/-- Both callbacks go through, and the bank's account is in two ledgers. -/
theorem relink_twoRows :
    ¬∀ (sp : Spelling) (tax : Taxonomy) (owner holder : String → String → String)
      (p q : Pool BankStore BankTask), p.store.Unlinked → (∀ t ∈ p.threads, t.Starts) →
      (bankSystem sp tax).Run (Truthful owner holder) p q → q.store.BatchesReachOwner owner := by
  intro h
  have hexec : ∃ q ∈ (bankSystem ⟨id, id⟩ noTaxonomy).exec (linkMona ++ relinkMona) monaStarts,
      (q.store.linkedRows "mock_bank" "acc-1").length = 2 := by
    decide
  obtain ⟨q, hq, htwo⟩ := hexec
  have hrun : (bankSystem ⟨id, id⟩ noTaxonomy).Run (Truthful (fun _ _ => "cust-1")
      fun _ token => if token = "token-2" then "cust-2" else "cust-1")
      monaStarts q := .of_exec_meets (by decide) hq
  have hone := (h _ _ _ _ _ q monaStarts_unlinked monaStarts_starts hrun).1
    "mock_bank" "acc-1"
  omega

end NbeAdvisor
