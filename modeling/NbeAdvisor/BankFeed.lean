import NbeAdvisor.BankMoves
import NbeAdvisor.SyncRace
import NbeAdvisor.Uuids

/-!
# The feed from the bank

The mock bank keeps its own ledger, and what is in it reaches the backend in two ways. A simulated
transaction is pushed to the webhook once, and the push may get lost, or its answer. A fetch of an
account lists all that the bank has on it by then. The webhook makes one for an account that it does
not know yet, when it has landed the accounts of the connection, and so does a repeated bank login
for all accounts of its connection. Both ways start the ingest task with what they carry, any number
of them at once, each statement by statement as in `SyncRace`. The connections stay as they are.

The webhook validates what it gets, and so trims its texts. A fetch passes them on as they are.
-/

namespace NbeAdvisor

open Interleave

/-! ## Dates in ISO format -/

namespace Date

/-- The last `w` decimal digits of a number. -/
def digits : ℕ → ℕ → List Char
  | 0, _ => []
  | w + 1, n => digits w (n / 10) ++ [Char.ofNat (48 + n % 10)]

/-- `isoformat`. -/
def isoformat (d : Date) : String :=
  String.ofList (digits 4 d.year ++ '-' :: (digits 2 d.month ++ '-' :: digits 2 d.day))

theorem number_digits (w n : ℕ) : number (digits w n) = some (n % 10 ^ w) := by
  induction w generalizing n with
  | zero => simp [digits, number, Nat.mod_one]
  | succ w ih =>
    have hdigit : ∀ k < 10, '0' ≤ Char.ofNat (48 + k) ∧ Char.ofNat (48 + k) ≤ '9' ∧
        (Char.ofNat (48 + k)).toNat - 48 = k := by decide
    obtain ⟨hlow, hhigh, hvalue⟩ := hdigit (n % 10) (Nat.mod_lt _ (by omega))
    have hnumber : number (digits w (n / 10)) = some (n / 10 % 10 ^ w) := ih (n / 10)
    rw [number] at hnumber
    rw [digits, number, List.foldl_append, hnumber, List.foldl_cons, List.foldl_nil,
      Option.bind_some, if_pos ⟨hlow, hhigh⟩, hvalue, Nat.pow_succ', Nat.mod_mul]
    exact congrArg some (by omega)

theorem fromisoformat_of_hyphens {y1 y2 y3 y4 m1 m2 d1 d2 : Char} (h : m1 ≠ 'W') :
    fromisoformat (String.ofList [y1, y2, y3, y4, '-', m1, m2, '-', d1, d2]) =
      ofDigits [y1, y2, y3, y4] [m1, m2] [d1, d2] := by
  rw [fromisoformat, String.toList_ofList]
  split
  case h_7 hno _ _ _ _ => exact (hno y1 y2 y3 y4 m1 m2 d1 d2 rfl).elim
  all_goals simp_all

theorem fromisoformat_isoformat (d : Date) : fromisoformat d.isoformat = some d := by
  have hm := d.month_le
  have hd := d.day_le
  have hdigit : ∀ k < 10, Char.ofNat (48 + k) ≠ 'W' := by decide
  have hw : Char.ofNat (48 + d.month / 10 % 10) ≠ 'W' := hdigit _ (Nat.mod_lt _ (by omega))
  have hyear := number_digits 4 d.year
  have hmonth := number_digits 2 d.month
  have hday := number_digits 2 d.day
  rw [Nat.mod_eq_of_lt (by have := d.year_valid; omega)] at hyear
  rw [Nat.mod_eq_of_lt (by omega)] at hmonth hday
  have hform : fromisoformat d.isoformat = ofDigits (digits 4 d.year) (digits 2 d.month)
      (digits 2 d.day) := fromisoformat_of_hyphens hw
  rw [hform, ofDigits, hyear, hmonth, hday]
  simp [ofYmd, d.year_valid, d.day_valid]

theorem length_isoformat (d : Date) : d.isoformat.toList.length = 10 := by
  simp [isoformat, digits]

end Date

/-! ## The bank -/

/-- `MockAccount`. -/
structure MockAccount where
  id : Uuid
  customer : Uuid
  bankName : String := "Mock National Bank"
  accountType : Option String := none
  accountNumber : Option String := none
  currency : String := "EGP"
  currency_storable : TextStorable currency
  deriving DecidableEq

/-- A row of the bank's ledger. Amounts are in hundredths. -/
structure MockTransaction where
  id : Uuid
  account : Uuid
  transactionDate : Instant
  merchant : Option String
  amount : ℤ
  transactionType : Option String
  balance : Option ℤ := none
  deriving DecidableEq

/-- The columns of the bank take the values. -/
structure MockTransaction.Fits (b : MockTransaction) : Prop where
  merchant : ∀ s ∈ b.merchant, TextStorable s
  transactionType : ∀ s ∈ b.transactionType, TextStorable s
  amount : AmountFits b.amount
  balance : ∀ x ∈ b.balance, AmountFits x

instance decidableMockTransactionFits (b : MockTransaction) : Decidable b.Fits :=
  decidable_of_iff ((∀ s ∈ b.merchant, TextStorable s) ∧ (∀ s ∈ b.transactionType, TextStorable s) ∧
    AmountFits b.amount ∧ ∀ x ∈ b.balance, AmountFits x)
    ⟨fun ⟨h₁, h₂, h₃, h₄⟩ => ⟨h₁, h₂, h₃, h₄⟩, fun h => ⟨h.1, h.2, h.3, h.4⟩⟩

/-- What both sides run on. -/
structure FeedHost where
  /-- The calendar of the bank's time zone. -/
  dateOf : Instant → Date
  tax : Taxonomy
  spelling : Spelling
  /-- The subject of an access token, if the bank accepts it. -/
  customerOf : String → Option Uuid
  /-- `uuid.UUID`. -/
  uuid : String → Option Uuid
  uuid_text : ∀ u : Uuid, uuid u.text = some u
  /-- The order in which the bank's database returns accounts. -/
  listed : List MockAccount → List MockAccount
  listed_perm : ∀ l, (listed l).Perm l

/-- The tables of the bank and of the backend. -/
structure FeedStore where
  accounts : List MockAccount := []
  transactions : List MockTransaction := []
  backend : BankStore := {}
  deriving DecidableEq

/-- What a step gets from `uuid4`, the clock, `random`, the network, and the broker. -/
structure FeedHeard where
  id : Uuid := default
  now : Instant := 0
  choice : ℕ := 0
  amount : ℤ := 0
  credit : Bool := false
  /-- A push arrives. -/
  delivered : Bool := false
  /-- The answer to a push does not come in time. -/
  timedOut : Bool := false
  /-- A fetch is answered, or fails for this reason. -/
  fetched : Bool := false
  reason : String := ""
  /-- The broker takes a task. -/
  taken : Bool := false

/-- `_serialize_account`. -/
def MockAccount.serialize (a : MockAccount) : ProviderAccount where
  externalAccountId := a.id.text
  bankName := a.bankName
  accountType := a.accountType
  accountNumber := a.accountNumber
  currency := a.currency

section Bank

variable (host : FeedHost) (s : FeedStore)

/-- `_serialize_transaction`. -/
def FeedHost.serialize (b : MockTransaction) (currency : String) : SyncedTransaction where
  externalTransactionId := some b.id.text
  transactionDate := .text (host.dateOf b.transactionDate).isoformat
  merchantRaw := b.merchant
  amount := b.amount
  transactionType := b.transactionType
  currency := some currency
  balance := b.balance

/-- `list_accounts`, for a token of the customer. -/
def FeedHost.listAccounts (customer : Uuid) : List ProviderAccount :=
  (host.listed (s.accounts.filter fun a => a.customer = customer)).map MockAccount.serialize

/-- `list_transactions` for a token of the customer, `none` for a 404. -/
def FeedHost.listTransactions (accountId : String) (customer : Uuid) :
    Option (List SyncedTransaction) :=
  ((host.uuid accountId).bind fun id =>
    s.accounts.find? fun a => a.id = id ∧ a.customer = customer).map fun a =>
    ((s.transactions.filter fun b => b.account = a.id).mergeSort fun b c =>
      b.transactionDate ≤ c.transactionDate).map fun b => host.serialize b a.currency

variable (r : FeedHeard) (c : BankConnection)

/-- The customer for whom a fetch over the connection is answered. -/
def FeedHost.answersFor : Option Uuid :=
  if r.fetched then c.accessToken.bind host.customerOf else none

/-- `fetch_accounts`. -/
def FeedHost.fetchAccounts : Except String (List ProviderAccount) :=
  match host.answersFor r c with
  | none => .error r.reason
  | some customer => .ok (host.listAccounts s customer)

/-- `fetch_transactions`. -/
def FeedHost.fetchTransactions (accountId : String) : Except String (List SyncedTransaction) :=
  match (host.answersFor r c).bind (host.listTransactions s accountId) with
  | none => .error r.reason
  | some batch => .ok batch

/-- What the backfill of `apply_synced_accounts` hears. -/
def FeedHost.hearsBackfill : Backfill → BankReply
  | .fetching [] => .done
  | .fetching (a :: _) =>
    .transactions (host.fetchTransactions s r c (a.externalAccountId.getD "None"))
  | .enqueueing _ _ _ => .enqueued r.taken

end Bank

/-! ## The webhook -/

/-- A `CharField` that takes a blank, with what it returns. -/
def blankCharField (s : String) : Option String :=
  if TextStorable (strip s) then some (strip s) else none

/-- A field that takes a null. -/
def nullable {α : Type*} (field : α → Option α) : Option α → Option (Option α)
  | none => some none
  | some a => (field a).map some

/-- A `CharField` that takes no blank. -/
def nonblankCharField (s : String) : Option String :=
  if strip s = "" then none else blankCharField s

/-- A `DateField`, of a text in ISO format. -/
def dateField : DateArg → Option Date
  | .day d => some d
  | .text s => Date.fromisoformat s

/-- `BankSyncTransactionSerializer`, with its validated data. -/
def SyncedTransaction.validate (t : SyncedTransaction) : Option SyncedTransaction := do
  let externalTransactionId ← nullable nonblankCharField t.externalTransactionId
  let transactionDate ← dateField t.transactionDate
  let merchantRaw ← nullable blankCharField t.merchantRaw
  let transactionType ← nullable blankCharField t.transactionType
  let currency ← nullable blankCharField t.currency
  if AmountFits t.amount ∧ ∀ x ∈ t.balance, AmountFits x then
    some { externalTransactionId, transactionDate := .day transactionDate, merchantRaw
           amount := t.amount, transactionType, currency, balance := t.balance }
  else none

/-- What `BankSyncWebhookSerializer` makes of the payload of a push, if it takes it. The texts of
UUIDs pass as they are. -/
def FeedHost.payload (host : FeedHost) (b : MockTransaction) (a : MockAccount) :
    Option SyncWebhookBody :=
  (host.serialize b a.currency).validate.map fun t =>
    ⟨"mock_bank", a.id.text, a.customer.text, [t]⟩

/-- What `BankSyncWebhookView.post` hears at its next step. -/
def FeedHost.hears (host : FeedHost) (s : FeedStore) (r : FeedHeard) : SyncWebhook → BankReply
  | .fetching c => .accounts (host.fetchAccounts s r c)
  | .backfilling c b => host.hearsBackfill s r c b
  | .enqueueing _ => .enqueued r.taken
  | _ => .done

/-- The status of its response. -/
def webhookStatus : Except ApiError Unit → ℕ
  | .ok () => 202
  | .error .notFound => 404
  | .error .validation | .error (.businessRule _) => 422
  | .error (.database _) | .error .serverError => 500

/-! ## The requests -/

/-- The body of `POST /simulate/transaction`. -/
structure SimulateTransactionRequest where
  accountId : Option String := none
  amount : Option ℤ := none
  merchant : Option String := none
  transactionType : Option String := none
  transactionDate : Option Instant := none
  deriving DecidableEq

/-- What `_deliver_webhook` reports. -/
structure WebhookDelivery where
  success : Bool
  statusCode : Option ℕ
  deriving DecidableEq

/-- The report on an answer with this status. -/
def WebhookDelivery.of (status : ℕ) : WebhookDelivery :=
  ⟨200 ≤ status ∧ status < 300, some status⟩

/-- The report on a push that was not answered. -/
def WebhookDelivery.none : WebhookDelivery := ⟨false, .none⟩

/-- `simulate_transaction`, with the webhook's request that it makes. -/
inductive SimulateTransaction where
  | recording
  | delivering (b : MockTransaction) (a : MockAccount)
  /-- The webhook is at `w`. What it answers is heard, or no longer waited for. -/
  | pushed (b : MockTransaction) (heard : Option WebhookDelivery) (body : SyncWebhookBody)
    (w : SyncWebhook)
  | answered (b : MockTransaction) (delivery : WebhookDelivery)
  | refused (status : ℕ)
  deriving DecidableEq

/-- A repeated bank login, from the fetch of its accounts on. -/
inductive RefreshAccounts where
  | loading (id : ConnectionId)
  | fetching (c : BankConnection)
  | applying (c : BankConnection) (l : List ProviderAccount)
  | backfilling (c : BankConnection) (b : Backfill)
  | ended
  deriving DecidableEq

/-- A run of `ingest_synced_transactions`. -/
inductive IngestPoint where
  /-- The task fetches its account. -/
  | loading
  | running (account : BankAccount) (run : IngestRun)
  /-- There is no such account. -/
  | dropped
  deriving DecidableEq

/-- What goes on at the bank and at the backend : requests, and the ingests that they queue. -/
inductive FeedTask where
  /-- An account is opened at the bank. -/
  | opening (a : MockAccount)
  | opened
  | simulate (body : SimulateTransactionRequest) (t : SimulateTransaction)
  | refresh (t : RefreshAccounts)
  | ingest (task : IngestTask) (t : IngestPoint)
  deriving DecidableEq

/-- `_EXPENSE_MERCHANTS`. -/
def expenseMerchants : List String :=
  ["Carrefour", "Talabat", "Uber", "Vodafone", "Amazon.eg", "Cairo Metro"]

/-- `_INCOME_MERCHANTS`. -/
def incomeMerchants : List String :=
  ["ACME Corp Payroll", "Nile Software Payroll", "Cairo Consulting Salary",
    "Freelance Client Payment", "Upwork Freelance Payout", "Bank Transfer", "Family Transfer"]

section Steps

variable (host : FeedHost) (s : FeedStore) (r : FeedHeard)

/-- The account of a request, which is any account if it names none. -/
def SimulateTransactionRequest.account (body : SimulateTransactionRequest) : Option MockAccount :=
  match given body.accountId with
  | some id => (host.uuid id).bind fun id => s.accounts.find? fun a => a.id = id
  | none => s.accounts[r.choice % s.accounts.length]?

/-- The row that `simulate_transaction` inserts. -/
def SimulateTransactionRequest.row (body : SimulateTransactionRequest) (a : MockAccount) :
    MockTransaction :=
  let transactionType := (given body.transactionType).getD (if r.credit then "credit" else "debit")
  let pool := if transactionType = "credit" then incomeMerchants else expenseMerchants
  { id := r.id, account := a.id
    transactionDate := body.transactionDate.getD r.now
    merchant := some ((given body.merchant).getD (pool.getD (r.choice % pool.length) ""))
    amount := body.amount.getD r.amount
    transactionType := some transactionType }

/-- The tasks that a step of the backend queues. -/
def queued (tasks : List IngestTask) : List FeedTask := tasks.map (FeedTask.ingest · .loading)

/-- The state, and the tasks that start. -/
def SimulateTransaction.step (body : SimulateTransactionRequest) :
    SimulateTransaction → Option (FeedStore × SimulateTransaction × List FeedTask)
  | recording =>
    match body.account host s r with
    | none => some (s, refused 404, [])
    | some a =>
      if (body.row r a).Fits then
        some ({ s with transactions := s.transactions ++ [body.row r a] },
          delivering (body.row r a) a, [])
      else some (s, refused 500, [])
  | delivering b a =>
    if ¬r.delivered then some (s, answered b .none, [])
    else
      match host.payload b a with
      | none => some (s, answered b (if r.timedOut then .none else .of 422), [])
      | some body => some (s, pushed b none body .routing, [])
  | pushed b heard body w =>
    match heard, w with
    | none, .answered x =>
      let heard : WebhookDelivery := if r.timedOut then .none else .of (webhookStatus x)
      some (s, pushed b (some heard) body w, [])
    | some _, .answered _ => none
    | heard, w =>
      if heard = none ∧ r.timedOut then some (s, pushed b (some WebhookDelivery.none) body w, [])
      else
        (w.step host.spelling body s.backend (host.hears s r w)).map fun (backend, w, tasks) =>
          ({ s with backend }, pushed b heard body w, queued tasks)
  | answered _ _ | refused _ => none

/-- One statement or call. -/
def RefreshAccounts.step : RefreshAccounts → Option (FeedStore × RefreshAccounts × List FeedTask)
  | loading id =>
    match s.backend.connections.find? fun c => c.id = id with
    | none => some (s, ended, [])
    | some c => some (s, fetching c, [])
  | fetching c =>
    match host.fetchAccounts s r c with
    | .error _ => some (s, ended, [])
    | .ok l => some (s, applying c l, [])
  | applying c l =>
    match s.backend.applyAccounts host.spelling c l with
    | .error _ => some (s, ended, [])
    | .ok (backend, created) => some ({ s with backend }, backfilling c (.fetching created), [])
  | backfilling _ (.fetching []) => some (s, ended, [])
  | backfilling c b =>
    match b.step (host.hearsBackfill s r c b) with
    | none => none
    | some (none, tasks) => some (s, ended, queued tasks)
    | some (some b, tasks) => some (s, backfilling c b, queued tasks)
  | ended => none

/-- One statement. -/
def IngestPoint.step (task : IngestTask) : IngestPoint → Option (FeedStore × IngestPoint)
  | loading =>
    match s.backend.accounts.find? fun a => a.id = task.bankAccountId with
    | none => some (s, dropped)
    | some a => some (s, running a.toBankAccount (.start task.transactions))
  | running account run =>
    (run.step host.tax account s.backend.ledger).map fun (ledger, run) =>
      ({ s with backend := { s.backend with ledger } }, running account run)
  | dropped => none

/-- One statement or call, with the tasks that it queues. -/
def FeedTask.step : FeedTask → Option (FeedStore × FeedTask × List FeedTask)
  | opening a =>
    if a.id ∈ s.accounts.map (·.id) then some (s, opened, [])
    else some ({ s with accounts := s.accounts ++ [a] }, opened, [])
  | simulate body t =>
    (t.step host s r body).map fun (s, t, tasks) => (s, simulate body t, tasks)
  | refresh t => (t.step host s r).map fun (s, t, tasks) => (s, refresh t, tasks)
  | ingest task t => (t.step host s task).map fun (s, t) => (s, ingest task t, [])
  | opened => none

end Steps

/-- What comes in from outside. -/
def FeedTask.Begins : FeedTask → Prop
  | opening _ | simulate _ .recording | refresh (.loading _) => True
  | _ => False

instance : DecidablePred FeedTask.Begins := fun t => by
  unfold FeedTask.Begins
  split <;> infer_instance

/-- Any number of requests, in any interleaving. -/
def feedSystem (host : FeedHost) : System FeedStore FeedTask FeedHeard where
  step _ s t r := t.step host s r
  arrives := FeedTask.Begins

instance (host : FeedHost) : DecidablePred (feedSystem host).arrives :=
  inferInstanceAs (DecidablePred FeedTask.Begins)

/-! ## What a step does -/

section Inversion

variable {host : FeedHost} {s s' : FeedStore} {r : FeedHeard} {tasks : List FeedTask}

/-- What a step of `simulate_transaction` does. -/
inductive SimulateTransaction.Moves (host : FeedHost) (s : FeedStore) (r : FeedHeard) :
    SimulateTransaction → FeedStore → SimulateTransaction → List FeedTask → Prop where
  | refuses {status : ℕ} : Moves host s r recording s (refused status) []
  | records {b : MockTransaction} {a : MockAccount} : b.account = a.id → b.Fits →
      Moves host s r recording { s with transactions := s.transactions ++ [b] } (delivering b a) []
  | fails {b : MockTransaction} {a : MockAccount} {d : WebhookDelivery} :
      Moves host s r (delivering b a) s (answered b d) []
  | pushes {b : MockTransaction} {a : MockAccount} {body : SyncWebhookBody} :
      host.payload b a = some body →
      Moves host s r (delivering b a) s (pushed b none body .routing) []
  | hears {b : MockTransaction} {body : SyncWebhookBody} {x : Except ApiError Unit}
      {d : WebhookDelivery} : (d.success = true → x = .ok ()) →
      Moves host s r (pushed b none body (.answered x)) s (pushed b (some d) body (.answered x)) []
  | gives {b : MockTransaction} {body : SyncWebhookBody} {w : SyncWebhook} {d : WebhookDelivery} :
      d.success = false → Moves host s r (pushed b none body w) s (pushed b (some d) body w) []
  | handles {b : MockTransaction} {heard : Option WebhookDelivery} {body : SyncWebhookBody}
      {w w' : SyncWebhook} {backend : BankStore} {tasks : List IngestTask} :
      w.step host.spelling body s.backend (host.hears s r w) = some (backend, w', tasks) →
      Moves host s r (pushed b heard body w) { s with backend } (pushed b heard body w')
        (queued tasks)

/-- Only a push that was accepted is reported as delivered. -/
theorem WebhookDelivery.of_success {x : Except ApiError Unit}
    (h : (WebhookDelivery.of (webhookStatus x)).success = true) : x = .ok () := by
  cases x with
  | ok u => rfl
  | error e => cases e <;> exact absurd h (by simp [WebhookDelivery.of, webhookStatus])

theorem SimulateTransaction.step_moves {body : SimulateTransactionRequest}
    {t t' : SimulateTransaction} (h : t.step host s r body = some (s', t', tasks)) :
    Moves host s r t s' t' tasks := by
  unfold SimulateTransaction.step at h
  split at h
  · split at h
    · cases h
      exact .refuses
    · split at h
      · next hfits =>
        cases h
        exact .records rfl hfits
      · cases h
        exact .refuses
  · split at h
    · cases h
      exact .fails
    · split at h
      · cases h
        exact .fails
      · next hpayload =>
        cases h
        exact .pushes hpayload
  · split at h
    · cases h
      refine .hears fun hsuccess => ?_
      split at hsuccess
      · cases hsuccess
      · exact WebhookDelivery.of_success hsuccess
    · cases h
    · split at h
      · next hwaits =>
        cases h
        obtain ⟨rfl, -⟩ := hwaits
        exact .gives rfl
      · obtain ⟨⟨backend, w', tasks⟩, hstep, heq⟩ := Option.map_eq_some_iff.1 h
        cases heq
        exact .handles hstep
  · cases h
  · cases h

/-- What a step of a repeated login does. -/
inductive RefreshAccounts.Moves (host : FeedHost) (s : FeedStore) (r : FeedHeard) :
    RefreshAccounts → FeedStore → RefreshAccounts → List FeedTask → Prop where
  | ends {t : RefreshAccounts} : Moves host s r t s ended []
  | loads {id : ConnectionId} {c : BankConnection} : c ∈ s.backend.connections →
      Moves host s r (loading id) s (fetching c) []
  | fetches {c : BankConnection} {l : List ProviderAccount} : host.fetchAccounts s r c = .ok l →
      Moves host s r (fetching c) s (applying c l) []
  | applies {c : BankConnection} {l : List ProviderAccount} {backend : BankStore}
      {created : List AccountRow} :
      s.backend.applyAccounts host.spelling c l = .ok (backend, created) →
      Moves host s r (applying c l) { s with backend } (backfilling c (.fetching created)) []
  | backfills {c : BankConnection} {b b' : Backfill} {tasks : List IngestTask} :
      b.step (host.hearsBackfill s r c b) = some (some b', tasks) →
      Moves host s r (backfilling c b) s (backfilling c b') (queued tasks)
  | stops {c : BankConnection} {b : Backfill} {tasks : List IngestTask} :
      b.step (host.hearsBackfill s r c b) = some (none, tasks) →
      Moves host s r (backfilling c b) s ended (queued tasks)

theorem RefreshAccounts.step_moves {t t' : RefreshAccounts}
    (h : t.step host s r = some (s', t', tasks)) : Moves host s r t s' t' tasks := by
  unfold RefreshAccounts.step at h
  split at h
  · split at h
    · cases h
      exact .ends
    · next hc =>
      cases h
      exact .loads (List.mem_of_find?_eq_some hc)
  · split at h
    · cases h
      exact .ends
    · next hfetch =>
      cases h
      exact .fetches hfetch
  · split at h
    · cases h
      exact .ends
    · next happly =>
      cases h
      exact .applies happly
  · cases h
    exact .ends
  · split at h
    · cases h
    · next hb =>
      cases h
      exact .stops hb
    · next hb =>
      cases h
      exact .backfills hb
  · cases h

/-- What a step of an ingest does. -/
inductive IngestPoint.Moves (host : FeedHost) (s : FeedStore) (task : IngestTask) :
    IngestPoint → FeedStore → IngestPoint → Prop where
  | drops : (∀ a ∈ s.backend.accounts, a.id ≠ task.bankAccountId) →
      Moves host s task loading s dropped
  | loads {a : AccountRow} : a ∈ s.backend.accounts → a.id = task.bankAccountId →
      Moves host s task loading s (running a.toBankAccount (.start task.transactions))
  | ingests {account : BankAccount} {run run' : IngestRun} {ledger : Ledger} :
      run.step host.tax account s.backend.ledger = some (ledger, run') →
      Moves host s task (running account run)
        { s with backend := { s.backend with ledger } } (running account run')

theorem IngestPoint.step_moves {task : IngestTask} {t t' : IngestPoint}
    (h : t.step host s task = some (s', t')) : Moves host s task t s' t' := by
  unfold IngestPoint.step at h
  split at h
  · split at h
    · next hnone =>
      cases h
      exact .drops (by simpa using hnone)
    · next ha =>
      cases h
      exact .loads (List.mem_of_find?_eq_some ha) (by simpa using List.find?_some ha)
  · obtain ⟨⟨ledger, run'⟩, hstep, heq⟩ := Option.map_eq_some_iff.1 h
    cases heq
    exact .ingests hstep
  · cases h

/-- What a step of any of them does. -/
inductive FeedTask.Moves (host : FeedHost) (s : FeedStore) (r : FeedHeard) :
    FeedTask → FeedStore → FeedTask → List FeedTask → Prop where
  | opens {a : MockAccount} {accounts : List MockAccount} :
      Moves host s r (opening a) { s with accounts } opened []
  | simulates {body : SimulateTransactionRequest} {t t' : SimulateTransaction} {s' : FeedStore}
      {tasks : List FeedTask} : SimulateTransaction.Moves host s r t s' t' tasks →
      Moves host s r (simulate body t) s' (simulate body t') tasks
  | refreshes {t t' : RefreshAccounts} {s' : FeedStore} {tasks : List FeedTask} :
      RefreshAccounts.Moves host s r t s' t' tasks →
      Moves host s r (refresh t) s' (refresh t') tasks
  | ingests {task : IngestTask} {t t' : IngestPoint} {s' : FeedStore} :
      IngestPoint.Moves host s task t s' t' →
      Moves host s r (ingest task t) s' (ingest task t') []

theorem FeedTask.step_moves {t t' : FeedTask} (h : t.step host s r = some (s', t', tasks)) :
    Moves host s r t s' t' tasks := by
  cases t with
  | opening a =>
    simp only [FeedTask.step] at h
    split at h <;> cases h
    · exact .opens
    · exact .opens
  | opened => cases h
  | simulate body t =>
    obtain ⟨⟨s', t', tasks⟩, hstep, heq⟩ := Option.map_eq_some_iff.1 h
    cases heq
    exact .simulates (SimulateTransaction.step_moves hstep)
  | refresh t =>
    obtain ⟨⟨s', t', tasks⟩, hstep, heq⟩ := Option.map_eq_some_iff.1 h
    cases heq
    exact .refreshes (RefreshAccounts.step_moves hstep)
  | ingest task t =>
    obtain ⟨⟨s', t'⟩, hstep, heq⟩ := Option.map_eq_some_iff.1 h
    cases heq
    exact .ingests (IngestPoint.step_moves hstep)

end Inversion

end NbeAdvisor
