import NbeAdvisor.BankRows
import NbeAdvisor.LedgerViews
import NbeAdvisor.Interleave

/-!
# Linking a bank, signing in with it, and its pushes

The requests that read and write bank connections, one database statement or one call to
the bank at a time : starting a link and its callback, the callback of a bank login, the
sync webhook, and the ingest task that these enqueue. A point of a request holds what the
view has read so far, so that what it saves later may be out of date.

The transaction in which a first bank login creates its user and connection is spread over
several steps. Its rows are `uncommitted` until the commit. Nobody reads them, and a row
that a unique constraint keeps from being beside one of them waits. The transaction of
`apply_synced_accounts` is one step : it locks the rows that it writes, and what it writes
depends on no other row of a connection.
-/

namespace NbeAdvisor

/-! ## The store -/

/-- The rows of the transaction of a first bank login. -/
structure Provision where
  user : User
  connection : Option BankConnection := none
  deriving DecidableEq

/-- The rows that a webhook's batch has added to the ledger. -/
structure Ingest where
  providerSlug : String
  externalAccountId : String
  rows : List Transaction
  deriving DecidableEq

/-- The tables, with what is in flight beside them. -/
structure BankStore where
  users : List User := []
  connections : List BankConnection := []
  accounts : List AccountRow := []
  ledger : Ledger := []
  /-- The rows of open transactions, each with the number of its thread. -/
  uncommitted : List (ℕ × Provision) := []
  /-- The codes that link callbacks have exchanged, with the responses. -/
  exchanged : List (String × TokenResponse) := []
  /-- What the batches of webhooks have added. -/
  ingested : List Ingest := []
  deriving DecidableEq

/-- What a thread hears. An error of the bank is the text of a `BankConnectorError`. -/
inductive BankReply where
  /-- A statement of the database is done. -/
  | done
  /-- `secrets.token_urlsafe`. -/
  | minted (state : String)
  /-- `redeem_state`. -/
  | redeemed (providerSlug : Option String)
  | token (r : Except String TokenData)
  | accounts (r : Except String (List ProviderAccount))
  | transactions (r : Except String (List SyncedTransaction))
  /-- `.delay` returns, or raises. -/
  | enqueued (taken : Bool)
  deriving DecidableEq

/-- The customer of a token response, as the column keeps the id. -/
def TokenResponse.customer (token : TokenResponse) : Option String :=
  token.externalCustomerId.map (cutBlanks 255)

namespace BankConnection

/-- What an initiate saves. -/
def restart (state : String) (c : BankConnection) : BankConnection :=
  { c with status := .pendingOtp, oauthState := some state, errorReason := none }

/-- What `_mark_failed` saves. -/
def markFailed (reason : String) (c : BankConnection) : BankConnection :=
  { c with status := .failed, errorReason := some reason, oauthState := none }

/-- What a link callback saves after the exchange and the fetch, as the columns keep it. -/
def link (token : TokenResponse) (c : BankConnection) : BankConnection :=
  { c with
    accessToken := some token.accessToken
    refreshToken := token.refreshToken
    externalCustomerId := token.customer
    status := .linked
    oauthState := none }

/-- What a repeated bank login saves. -/
def refresh (token : TokenResponse) (c : BankConnection) : BankConnection :=
  { c with accessToken := some token.accessToken, refreshToken := token.refreshToken }

end BankConnection

namespace BankStore

/-- `save(update_fields=..)` of the connection `id`. -/
def saveConnection (s : BankStore) (id : ConnectionId) (f : BankConnection → BankConnection) :
    BankStore :=
  { s with connections := Keyed.modify (·.id) id f s.connections }

/-- `save(update_fields=["phone"])` of the user `id`. -/
def savePhone (s : BankStore) (id : UserId) (phone : String) : BankStore :=
  let saved := some (cutBlanks 50 phone)
  { s with users := Keyed.modify (·.id) id (fun u => { u with phone := saved }) s.users }

/-- The thread's transaction is rolled back. -/
def rollback (i : ℕ) (s : BankStore) : BankStore :=
  { s with uncommitted := s.uncommitted.filter fun x => x.1 ≠ i }

/-- A transaction is open that may yet commit a row that clashes with `c`. -/
def Awaits (s : BankStore) (c : BankConnection) : Prop :=
  ∃ x ∈ s.uncommitted, ∃ d ∈ x.2.connection, c.Clashes d

instance (s : BankStore) (c : BankConnection) : Decidable (s.Awaits c) := by
  unfold Awaits
  infer_instance

/-- An id that no connection has, nor one that is not committed. -/
def freshConnectionId (s : BankStore) : ConnectionId :=
  Keyed.freshKey (s.connections.map (·.id) ++
    s.uncommitted.filterMap fun x => x.2.connection.map (·.id))

/-- An id that no user has, nor one that is not committed. -/
def freshUserId (s : BankStore) : UserId :=
  Keyed.freshKey (s.users.map (·.id) ++ s.uncommitted.map (·.2.user.id))

/-- The first connection under a customer id with its user. A customer id of `None` selects
the rows where it is null. -/
def resolve (s : BankStore) (providerSlug : String) (customer : Option String) :
    Option (BankConnection × User) :=
  (s.connections.filterMap fun c =>
    if c.providerSlug = providerSlug ∧ c.externalCustomerId = customer then
      (s.users.find? fun u => u.id = c.user).map fun u => (c, u)
    else none).head?

/-- The save of a link : waits for an open transaction, or meets the constraints. -/
def linkConnection (s : BankStore) (c : BankConnection) (token : TokenResponse) :
    Option (Except DbError BankStore) :=
  if ¬(c.link token).Fits then some (.error .dataError)
  else if s.Awaits (c.link token) then none
  else if ∃ d ∈ s.connections, d.id ≠ c.id ∧ (c.link token).Clashes d then
    some (.error .integrityError)
  else some (.ok (s.saveConnection c.id (.link token)))

/-- `apply_synced_accounts` up to its commit. The transactions of the manual accounts that
it deletes are deleted with them. -/
def applyAccounts (sp : Spelling) (s : BankStore) (c : BankConnection) (l : List ProviderAccount) :
    Except DbError (BankStore × List AccountRow) :=
  match applySyncedAccounts sp c l s.accounts with
  | .error e => .error e
  | .ok (accounts, created) =>
    .ok ({ s with
      accounts
      ledger := s.ledger.filter fun t => t.account ∉ (superseded sp c l s.accounts).map (·.id) },
      created)

end BankStore

/-! ## Ingest tasks -/

/-- A queued `ingest_synced_transactions`. One that a webhook has queued names what the
batch was sent for. -/
structure IngestTask where
  bankAccountId : AccountId
  transactions : List SyncedTransaction
  origin : Option (String × String) := none
  deriving DecidableEq

/-- A run of the task. -/
def IngestTask.run (tax : Taxonomy) (task : IngestTask) (s : BankStore) : BankStore :=
  let ledger := (ingestSyncedTransactions tax (s.accounts.map (·.toBankAccount)) s.ledger
    task.bankAccountId task.transactions).1
  { s with
    ledger
    ingested := match task.origin with
      | none => s.ingested
      | some (providerSlug, externalAccountId) =>
        s.ingested ++ [⟨providerSlug, externalAccountId, ledger.drop s.ledger.length⟩] }

/-- The backfill at the end of `apply_synced_accounts`. -/
inductive Backfill where
  | fetching (rest : List AccountRow)
  | enqueueing (id : AccountId) (transactions : List SyncedTransaction) (rest : List AccountRow)
  deriving DecidableEq

/-- One turn : the backfill afterwards, or none if `.delay` raises, and the task queued. -/
def Backfill.step : Backfill → BankReply → Option (Option Backfill × List IngestTask)
  | fetching (_ :: rest), .transactions (.error _) => some (some (fetching rest), [])
  | fetching (a :: rest), .transactions (.ok ts) =>
    if ts = [] then some (some (fetching rest), [])
    else some (some (enqueueing a.id ts rest), [])
  | enqueueing id ts rest, .enqueued true => some (some (fetching rest), [⟨id, ts, none⟩])
  | enqueueing _ _ _, .enqueued false => some (none, [])
  | _, _ => none

/-! ## Starting a link -/

/-- `BankConnectionListCreateView.post`, for a user and a provider slug. -/
inductive Initiate where
  | checking (user : UserId) (providerSlug : String)
  /-- The `get` of `update_or_create`, which locks the row, and the save. -/
  | saving (user : UserId) (providerSlug : String)
  /-- The `create` of `update_or_create`. -/
  | creating (user : UserId) (providerSlug : String) (state : String)
  | answered (r : Except ApiError ConnectionId)
  deriving DecidableEq

/-- The request has been answered. -/
def Initiate.Ended : Initiate → Prop
  | answered _ => True
  | _ => False

/-- One statement of the initiate. -/
def Initiate.step (s : BankStore) : Initiate → BankReply → Option (BankStore × Initiate)
  | checking user providerSlug, .done =>
    if providerSlug ∉ registry then some (s, answered (.error .notFound))
    else
      match s.connections.find? fun c => c.user = user ∧ c.providerSlug = providerSlug with
      | some c =>
        if c.status = .linked then
          some (s, answered (.error (.businessRule ⟨"This bank is already linked.",
            "bank_already_linked", some ("connection_id", [toString c.id])⟩)))
        else some (s, saving user providerSlug)
      | none => some (s, saving user providerSlug)
  | saving user providerSlug, .minted state =>
    match s.connections.filter fun c => c.user = user ∧ c.providerSlug = providerSlug with
    | [] => some (s, creating user providerSlug state)
    | [c] => some (s.saveConnection c.id (.restart state), answered (.ok c.id))
    | _ => some (s, answered (.error .serverError))
  | creating user providerSlug state, .done =>
    let c : BankConnection :=
      { id := s.freshConnectionId, user, providerSlug, oauthState := some state }
    some ({ s with connections := s.connections ++ [c] }, answered (.ok c.id))
  | _, _ => none

/-! ## The callback of a link -/

/-- The user, the connection of the path, and the code and state of the body, unless the
serializer rejects it. -/
structure CallbackRequest where
  user : UserId
  connectionId : ConnectionId
  body : Option (String × String)
  deriving DecidableEq

/-- `BankConnectionCallbackView.post`, with its copy of the connection. -/
inductive LinkCallback where
  | loading
  | exchanging (c : BankConnection) (code : String)
  | fetching (c : BankConnection) (token : TokenResponse)
  | failing (c : BankConnection) (reason : String)
  | linking (c : BankConnection) (token : TokenResponse) (accounts : List ProviderAccount)
  | applying (c : BankConnection) (accounts : List ProviderAccount)
  | backfilling (created : List AccountRow) (b : Backfill)
  | answered (r : Except ApiError (List AccountRow))
  deriving DecidableEq

/-- The request has been answered. -/
def LinkCallback.Ended : LinkCallback → Prop
  | answered _ => True
  | _ => False

/-- One statement or call of a link callback, with the tasks that it queues. -/
def LinkCallback.step (sp : Spelling) (req : CallbackRequest) (s : BankStore) :
    LinkCallback → BankReply → Option (BankStore × LinkCallback × List IngestTask)
  | loading, .done =>
    match s.connections.find? fun c => c.id = req.connectionId ∧ c.user = req.user with
    | none => some (s, answered (.error .notFound), [])
    | some c =>
      match req.body with
      | none => some (s, answered (.error .validation), [])
      | some (code, state) =>
        if given c.oauthState ≠ some state then
          some (s, answered (.error (.businessRule
            ⟨"OAuth state mismatch.", "invalid_oauth_state", none⟩)), [])
        else if c.providerSlug ∉ registry then some (s, answered (.error .serverError), [])
        else some (s, exchanging c code, [])
  | exchanging c code, .token r =>
    match exchangeCodeForToken r with
    | .error e => some (s, failing c e, [])
    | .ok token => some ({ s with exchanged := s.exchanged ++ [(code, token)] }, fetching c token, [])
  | fetching c _, .accounts (.error e) => some (s, failing c e, [])
  | fetching c token, .accounts (.ok l) => some (s, linking c token l, [])
  | failing c reason, .done =>
    if ¬TextStorable reason then some (s, answered (.error (.database .dataError)), [])
    else
      some (s.saveConnection c.id (.markFailed reason), answered (.error (.businessRule
        ⟨"Failed to complete the bank connection.", "bank_connection_failed", none⟩)), [])
  | linking c token l, .done =>
    match s.linkConnection c token with
    | none => none
    | some (.error e) => some (s, answered (.error (.database e)), [])
    | some (.ok s) => some (s, applying (c.link token) l, [])
  | applying c l, .done =>
    match s.applyAccounts sp c l with
    | .error e => some (s, answered (.error (.database e)), [])
    | .ok (s, created) => some (s, backfilling created (.fetching created), [])
  | backfilling created (.fetching []), .done => some (s, answered (.ok created), [])
  | backfilling created b, r =>
    match b.step r with
    | none => none
    | some (none, tasks) => some (s, answered (.error .serverError), tasks)
    | some (some b, tasks) => some (s, backfilling created b, tasks)
  | _, _ => none

/-! ## The callback of a bank login -/

/-- The bank customer that a callback signs in. -/
structure BankCustomer where
  providerSlug : String
  token : TokenResponse
  deriving DecidableEq

namespace BankCustomer

/-- The user of a first login, as the columns keep him. -/
def user (sp : Spelling) (k : BankCustomer) (id : UserId) : User :=
  { id
    email := cutBlanks 255 (sp.normalizeEmail k.token.email)
    name := cutBlanks 255 ((given k.token.name).getD "Bank Customer")
    phone := some (cutBlanks 50 k.token.phone) }

/-- The connection of a first login, as the columns keep it. -/
def connection (k : BankCustomer) (user : UserId) (id : ConnectionId) : BankConnection :=
  { id, user
    providerSlug := k.providerSlug
    status := .linked
    externalCustomerId := k.token.customer
    accessToken := some k.token.accessToken
    refreshToken := k.token.refreshToken }

end BankCustomer

/-- The columns take what a first login writes. -/
def User.Fits (u : User) : Prop :=
  TextFits 255 u.email ∧ TextFits 255 u.name ∧
    ∀ s ∈ u.phone, TextFits 50 s

instance (u : User) : Decidable u.Fits := by
  unfold User.Fits
  infer_instance

/-- The answer to a bank login whose email another user has. -/
def emailConflict : ApiError :=
  .businessRule
    ⟨"An app account already uses this bank email. Sign in with that account instead.",
      "bank_login_email_conflict", none⟩

/-- The answer to a bank login for which the bank lists no accounts. -/
def loginFailed : ApiError :=
  .businessRule ⟨"Failed to complete the bank login.", "bank_login_failed", none⟩

/-- `BankLoginCallbackView.post`. A session is the user that it is for. -/
inductive BankLogin where
  | redeeming (code : String)
  | exchanging (providerSlug code : String)
  | lookingUp (k : BankCustomer)
  /-- The statements of a repeated login. -/
  | savingPhone (k : BankCustomer) (c : BankConnection) (user : User)
  | savingTokens (k : BankCustomer) (c : BankConnection) (user : User)
  | refreshing (k : BankCustomer) (c : BankConnection) (user : User)
  /-- The statements of a first login. -/
  | checkingEmail (k : BankCustomer)
  | fetching (k : BankCustomer)
  | creatingUser (k : BankCustomer) (accounts : List ProviderAccount)
  | creatingConnection (k : BankCustomer) (accounts : List ProviderAccount) (user : User)
  | committing (k : BankCustomer) (accounts : List ProviderAccount) (user : User)
    (c : BankConnection)
  | recovering (k : BankCustomer)
  /-- Both end with the accounts. -/
  | applying (k : BankCustomer) (newConnection : Option BankConnection) (user : UserId)
    (c : BankConnection) (accounts : List ProviderAccount)
  | backfilling (k : BankCustomer) (newConnection : Option BankConnection) (user : UserId)
    (b : Backfill)
  | answered (k : Option BankCustomer) (newConnection : Option BankConnection)
    (r : Except ApiError UserId)
  deriving DecidableEq

/-- The request has been answered. -/
def BankLogin.Ended : BankLogin → Prop
  | answered _ _ _ => True
  | _ => False

/-- The transaction of a first login is open. -/
def BankLogin.InTransaction : BankLogin → Prop
  | creatingConnection _ _ _ | committing _ _ _ _ => True
  | _ => False

/-- The connection that the callback has created. -/
def BankLogin.newConnection : BankLogin → Option BankConnection
  | applying _ new _ _ _ | backfilling _ new _ _ | answered _ new _ => new
  | _ => none

/-- A statement of thread `i`. An insert of an email waits for another transaction that has inserted
it and not ended. -/
def BankLogin.step (sp : Spelling) (i : ℕ) (s : BankStore) :
    BankLogin → BankReply → Option (BankStore × BankLogin × List IngestTask)
  | redeeming _, .redeemed none => some (s, answered none none (.error (.businessRule
      ⟨"OAuth state mismatch.", "invalid_oauth_state", none⟩)), [])
  | redeeming code, .redeemed (some providerSlug) =>
    if providerSlug ∉ registry then some (s, answered none none (.error .serverError), [])
    else some (s, exchanging providerSlug code, [])
  | exchanging providerSlug _, .token r =>
    match exchangeCodeForToken r with
    | .error _ => some (s, answered none none (.error loginFailed), [])
    | .ok token => some (s, lookingUp ⟨providerSlug, token⟩, [])
  | lookingUp k, .done =>
    if ¬∀ id ∈ k.token.externalCustomerId, TextStorable id then
      some (s, answered k none (.error .serverError), [])
    else
      match s.resolve k.providerSlug k.token.externalCustomerId with
      | some (c, user) =>
        if given user.phone = none then some (s, savingPhone k c user, [])
        else some (s, savingTokens k c user, [])
      | none => some (s, checkingEmail k, [])
  | savingPhone k c user, .done =>
    if ¬TextTakes 50 k.token.phone then
      some (s, answered k none (.error (.database .dataError)), [])
    else some (s.savePhone user.id k.token.phone, savingTokens k c user, [])
  | savingTokens k c user, .done =>
    if ¬(c.refresh k.token).Fits then some (s, answered k none (.error (.database .dataError)), [])
    else
      some (s.saveConnection c.id (.refresh k.token), refreshing k (c.refresh k.token) user, [])
  | refreshing k _ user, .accounts (.error _) => some (s, answered k none (.ok user.id), [])
  | refreshing k c user, .accounts (.ok l) => some (s, applying k none user.id c l, [])
  | checkingEmail k, .done =>
    if ¬TextStorable k.token.email then some (s, answered k none (.error .serverError), [])
    else if ∃ u ∈ s.users, u.email = k.token.email then
      some (s, answered k none (.error emailConflict), [])
    else some (s, fetching k, [])
  | fetching k, .accounts (.error _) => some (s, answered k none (.error loginFailed), [])
  | fetching k, .accounts (.ok l) => some (s, creatingUser k l, [])
  | creatingUser k l, .done =>
    let user := k.user sp s.freshUserId
    if ¬user.Fits then some (s, answered k none (.error (.database .dataError)), [])
    else if ∃ x ∈ s.uncommitted, x.2.user.email = user.email then none
    else if ∃ u ∈ s.users, u.email = user.email then some (s, recovering k, [])
    else
      some ({ s with uncommitted := s.uncommitted ++ [(i, ⟨user, none⟩)] },
        creatingConnection k l user, [])
  | creatingConnection k l user, .done =>
    let c := k.connection user.id s.freshConnectionId
    if ¬c.Fits then some (s.rollback i, answered k none (.error (.database .dataError)), [])
    else if s.Awaits c then none
    else if ∃ d ∈ s.connections, c.Clashes d then some (s.rollback i, recovering k, [])
    else
      some ({ s with uncommitted := (s.rollback i).uncommitted ++ [(i, ⟨user, c⟩)] },
        committing k l user c, [])
  | committing k l user c, .done =>
    some ({ s.rollback i with users := s.users ++ [user], connections := s.connections ++ [c] },
      applying k c user.id c l, [])
  | recovering k, .done =>
    match s.resolve k.providerSlug k.token.externalCustomerId with
    | none => some (s, answered k none (.error emailConflict), [])
    | some (_, user) => some (s, answered k none (.ok user.id), [])
  | applying k new user c l, .done =>
    match s.applyAccounts sp c l with
    | .error e => some (s, answered k new (.error (.database e)), [])
    | .ok (s, created) => some (s, backfilling k new user (.fetching created), [])
  | backfilling k new user (.fetching []), .done => some (s, answered k new (.ok user), [])
  | backfilling k new user b, r =>
    match b.step r with
    | none => none
    | some (none, tasks) => some (s, answered k new (.error .serverError), tasks)
    | some (some b, tasks) => some (s, backfilling k new user b, tasks)
  | _, _ => none

/-! ## The sync webhook -/

/-- The validated body of `POST /webhooks/bank-sync`. -/
structure SyncWebhookBody where
  providerSlug : String
  externalAccountId : String
  externalCustomerId : String
  transactions : List SyncedTransaction
  deriving DecidableEq

/-- `BankSyncWebhookView.post`. -/
inductive SyncWebhook where
  | routing
  | findingConnection
  | fetching (c : BankConnection)
  | applying (c : BankConnection) (accounts : List ProviderAccount)
  | backfilling (c : BankConnection) (b : Backfill)
  | rerouting (c : BankConnection)
  | enqueueing (account : AccountId)
  | answered (r : Except ApiError Unit)
  deriving DecidableEq

/-- The request has been answered. -/
def SyncWebhook.Ended : SyncWebhook → Prop
  | answered _ => True
  | _ => False

/-- The account that the batch goes to : a synced one under a linked connection. -/
def BankStore.route (s : BankStore) (providerSlug externalAccountId : String) :
    Option AccountRow :=
  s.accounts.find? fun a => a.externalAccountId = some externalAccountId ∧ a.linkType = .synced ∧
    ∃ c ∈ s.connections, a.connection = some c.id ∧ c.providerSlug = providerSlug ∧
      c.status = .linked

/-- One statement of the webhook, with the tasks that it queues. -/
def SyncWebhook.step (sp : Spelling) (body : SyncWebhookBody) (s : BankStore) :
    SyncWebhook → BankReply → Option (BankStore × SyncWebhook × List IngestTask)
  | routing, .done =>
    match s.route body.providerSlug body.externalAccountId with
    | some a => some (s, enqueueing a.id, [])
    | none => some (s, findingConnection, [])
  | findingConnection, .done =>
    match s.connections.filter fun c =>
        c.Carries body.providerSlug body.externalCustomerId ∧ c.status = .linked with
    | [] => some (s, answered (.error .notFound), [])
    | [c] =>
      if c.providerSlug ∉ registry then some (s, answered (.error .serverError), [])
      else some (s, fetching c, [])
    | _ => some (s, answered (.error .serverError), [])
  | fetching _, .accounts (.error _) => some (s, answered (.error .notFound), [])
  | fetching c, .accounts (.ok l) => some (s, applying c l, [])
  | applying c l, .done =>
    match s.applyAccounts sp c l with
    | .error e => some (s, answered (.error (.database e)), [])
    | .ok (s, created) => some (s, backfilling c (.fetching created), [])
  | backfilling c (.fetching []), .done => some (s, rerouting c, [])
  | backfilling c b, r =>
    match b.step r with
    | none => none
    | some (none, tasks) => some (s, answered (.error .serverError), tasks)
    | some (some b, tasks) => some (s, backfilling c b, tasks)
  | rerouting c, .done =>
    match s.accounts.find? fun a => a.Holds c.id body.externalAccountId with
    | none => some (s, answered (.error .notFound), [])
    | some a => some (s, enqueueing a.id, [])
  | enqueueing account, .enqueued true =>
    some (s, answered (.ok ()),
      [⟨account, body.transactions, some (body.providerSlug, body.externalAccountId)⟩])
  | enqueueing _, .enqueued false => some (s, answered (.error .serverError), [])
  | _, _ => none

/-! ## All of them -/

/-- A request at its next step, or a run of a queued task. -/
inductive BankTask where
  | initiate (t : Initiate)
  | callback (req : CallbackRequest) (t : LinkCallback)
  | login (t : BankLogin)
  | webhook (body : SyncWebhookBody) (t : SyncWebhook)
  | ingest (task : IngestTask)
  | ingested
  deriving DecidableEq

namespace BankTask

/-- A request that has just come in. -/
def Starts : BankTask → Prop
  | initiate (.checking _ _) | callback _ .loading | login (.redeeming _) | webhook _ .routing => True
  | _ => False

instance : DecidablePred Starts := fun t => by
  unfold Starts
  split <;> infer_instance

/-- One statement or call of a request, with the tasks that it queues. -/
def step (sp : Spelling) (tax : Taxonomy) (i : ℕ) (s : BankStore) :
    BankTask → BankReply → Option (BankStore × BankTask × List BankTask)
  | initiate t, r => (t.step s r).map fun x => (x.1, initiate x.2, [])
  | callback req t, r =>
    (t.step sp req s r).map fun x => (x.1, callback req x.2.1, x.2.2.map ingest)
  | login t, r => (t.step sp i s r).map fun x => (x.1, login x.2.1, x.2.2.map ingest)
  | webhook body t, r =>
    (t.step sp body s r).map fun x => (x.1, webhook body x.2.1, x.2.2.map ingest)
  | ingest task, .done => some (task.run tax s, ingested, [])
  | _, _ => none

end BankTask

/-- Any number of requests, which come in at any time. -/
def bankSystem (sp : Spelling) (tax : Taxonomy) : Interleave.System BankStore BankTask BankReply where
  step i s t r := t.step sp tax i s r
  arrives t := t.Starts

instance (sp : Spelling) (tax : Taxonomy) : DecidablePred (bankSystem sp tax).arrives :=
  fun t => inferInstanceAs (Decidable t.Starts)

end NbeAdvisor
