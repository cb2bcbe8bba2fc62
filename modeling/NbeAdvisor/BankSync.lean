import NbeAdvisor.Ledger
import Mathlib.Algebra.BigOperators.Group.List.Basic

/-!
# Ingesting synced transactions

`ingest_synced_transactions`, up to and including the event that tells the browser : one
loop that parses the date of a bank transaction, skips it if the ledger has its content
key, and creates a row otherwise. A row that cannot be parsed or stored ends the task, and
the rows created before it stay. The analysis that follows the event writes no ledger row.

On transactions that can be parsed and stored (`SyncedTransaction.Valid`) the loop is
`absorbAll` of the ledger table (`ingestSyncedTransactions_ledger`). What the ledger holds
after a batch is therefore a matter of its content keys. It does not depend on order,
repetition or batching (`ingest_batches`). The bank's own identifier plays no part : two
transactions of one content key share a row (`ingest_contentKeys`, `sameContent_sharesRow`).
-/

namespace NbeAdvisor

/-- `transaction_date` as it reaches the task : a `date`, or the text of one. -/
inductive DateArg where
  | day (d : Date)
  | text (s : String)
  deriving DecidableEq

/-- The date, read off the first ten characters of a text. -/
def DateArg.date : DateArg → Option Date
  | day d => some d
  | text s => Date.fromisoformat (String.ofList (s.toList.take 10))

/-- One entry of the task's `transactions`. Amounts are in hundredths : the webhook's
serializer and the bank's own column take two decimals. -/
structure SyncedTransaction where
  externalTransactionId : Option String := none
  transactionDate : DateArg
  merchantRaw : Option String := none
  amount : ℤ
  transactionType : Option String := none
  currency : Option String := none
  balance : Option ℤ := none
  deriving DecidableEq

/-- The payload of a `transaction_synced` event, with the user it goes to. -/
structure TransactionSyncedEvent where
  user : UserId
  accountId : AccountId
  count : ℕ
  transactionIds : List TransactionId
  deriving DecidableEq

namespace BankAccount

/-- `txn.get("currency") or account.currency`. -/
def currencyOr (a : BankAccount) : Option String → String
  | none | some "" => a.currency
  | some c => c

end BankAccount

namespace SyncedTransaction

/-- The row that the loop would create, if the date parses. -/
def draft (tax : Taxonomy) (a : BankAccount) (t : SyncedTransaction) : Option TransactionDraft :=
  t.transactionDate.date.map fun transactionDate =>
    { user := a.user, account := a.id, source := .synced
      currency := a.currencyOr t.currency
      transactionDate
      merchantRaw := t.merchantRaw
      category := tax.resolveCategory
        (tax.guessCategoryFromMerchant t.merchantRaw t.transactionType) t.transactionType
      amount := t.amount
      transactionType := t.transactionType
      balance := t.balance }

/-- A valid bank transaction : its date is an ISO date, and the columns take its values. -/
def Valid (tax : Taxonomy) (a : BankAccount) (t : SyncedTransaction) : Prop :=
  ∃ d, t.draft tax a = some d ∧ d.Fits

/-- The content key under which the ledger knows it. -/
def key (a : BankAccount) (t : SyncedTransaction) : Option TransactionKey :=
  t.transactionDate.date.map fun transactionDate =>
    ⟨a.user, a.id, transactionDate, t.amount, t.merchantRaw, t.transactionType⟩

end SyncedTransaction

/-! ## The task -/

/-- Why the loop ends early. -/
inductive IngestError where
  | valueError
  | db (e : DbError)
  deriving DecidableEq

/-- The ledger, and the rows that this run has created. -/
structure IngestState where
  ledger : Ledger
  created : List Transaction := []

/-- One turn of the loop. -/
def ingestRow (tax : Taxonomy) (a : BankAccount) (s : IngestState) (t : SyncedTransaction) :
    Except IngestError IngestState :=
  match t.draft tax a with
  | none => .error .valueError
  | some d =>
    if s.ledger.isDuplicate d.key then .ok s
    else
      match s.ledger.create d with
      | .ok row => .ok ⟨s.ledger ++ [row], s.created ++ [row]⟩
      | .error e => .error (.db e)

/-- The loop. What was created before an error stays. -/
def ingestRows (tax : Taxonomy) (a : BankAccount) :
    IngestState → List SyncedTransaction → IngestState × Option IngestError
  | s, [] => (s, none)
  | s, t :: ts =>
    match ingestRow tax a s t with
    | .ok s' => ingestRows tax a s' ts
    | .error e => (s, some e)

/-- `ingest_synced_transactions` : the ledger afterwards and the events published. -/
def ingestSyncedTransactions (tax : Taxonomy) (accounts : List BankAccount) (L : Ledger)
    (bankAccountId : AccountId) (transactions : List SyncedTransaction) :
    Ledger × List TransactionSyncedEvent :=
  match accounts.find? fun a => a.id = bankAccountId with
  | none => (L, [])
  | some a =>
    match ingestRows tax a ⟨L, []⟩ transactions with
    | (s, some _) => (s.ledger, [])
    | (s, none) => (s.ledger, [⟨a.user, a.id, s.created.length, s.created.map Transaction.id⟩])

section Appends

variable {tax : Taxonomy} {a : BankAccount}

/-- A step of the loop appends a row of the account, or none. -/
theorem ingestRow_appends {s s' : IngestState} {t : SyncedTransaction}
    (h : ingestRow tax a s t = .ok s') :
    ∃ new, s'.ledger = s.ledger ++ new ∧ ∀ u ∈ new, u.user = a.user ∧ u.account = a.id := by
  unfold ingestRow at h
  split at h
  · cases h
  next d hd =>
  split at h
  · cases h
    exact ⟨[], by simp, by simp⟩
  split at h
  · next row hrow =>
    cases h
    obtain ⟨-, -, rfl⟩ := Ledger.create_eq_ok.1 hrow
    obtain ⟨date, -, rfl⟩ := Option.map_eq_some_iff.1 hd
    exact ⟨_, rfl, by simp⟩
  · cases h

/-- The loop appends rows of the account. -/
theorem ingestRows_appends (s : IngestState) (ts : List SyncedTransaction) :
    ∃ new, (ingestRows tax a s ts).1.ledger = s.ledger ++ new ∧
      ∀ u ∈ new, u.user = a.user ∧ u.account = a.id := by
  induction ts generalizing s with
  | nil => exact ⟨[], by simp [ingestRows], by simp⟩
  | cons t ts ih =>
    unfold ingestRows
    split
    · next s' hrow =>
      obtain ⟨new, hnew, hof⟩ := ingestRow_appends hrow
      obtain ⟨rest, hrest, hof'⟩ := ih s'
      refine ⟨new ++ rest, by rw [hrest, hnew, List.append_assoc], fun u hu => ?_⟩
      exact (List.mem_append.1 hu).elim (hof u) (hof' u)
    · exact ⟨[], by simp, by simp⟩

/-- Whatever the batch is, a run adds rows of the account and of its user, and no others. -/
theorem ingestSyncedTransactions_appends (tax : Taxonomy) (accounts : List BankAccount) (L : Ledger)
    (id : AccountId) (ts : List SyncedTransaction) :
    ∃ new, (ingestSyncedTransactions tax accounts L id ts).1 = L ++ new ∧
      ∀ u ∈ new, ∃ a ∈ accounts, a.id = id ∧ u.user = a.user ∧ u.account = a.id := by
  unfold ingestSyncedTransactions
  split
  · exact ⟨[], by simp, by simp⟩
  next a ha =>
  have hmem := List.mem_of_find?_eq_some ha
  have hid : a.id = id := by simpa using List.find?_some ha
  obtain ⟨new, hnew, hof⟩ := @ingestRows_appends tax a ⟨L, []⟩ ts
  refine ⟨new, ?_, fun u hu => ⟨a, hmem, hid, hof u hu⟩⟩
  rw [← hnew]
  split
  · next heq => rw [heq]
  · next heq => rw [heq]

end Appends

section Valid

variable {tax : Taxonomy} {a : BankAccount} {t : SyncedTransaction} {d : TransactionDraft}

/-- The key of the row is what is looked up. -/
theorem draft_key (h : t.draft tax a = some d) : t.key a = some d.key := by
  obtain ⟨date, hdate, rfl⟩ := Option.map_eq_some_iff.1 h
  simp [SyncedTransaction.key, hdate, TransactionDraft.key]

/-- On a valid transaction the turn makes a row exactly if the key is absent. -/
theorem ingestRow_valid (h : t.draft tax a = some d) (hf : d.Fits) (s : IngestState) :
    ∃ s', ingestRow tax a s t = .ok s' ∧ s'.ledger = Ledger.ledgerTable.absorb s.ledger d ∧
      ∃ new, s'.ledger = s.ledger ++ new ∧ s'.created = s.created ++ new := by
  unfold ingestRow
  rw [h]
  by_cases hd : d.key ∈ s.ledger.keys
  · rw [← Ledger.isDuplicate_iff] at hd
    refine ⟨s, by simp [hd], ?_, [], by simp, by simp⟩
    exact (Keyed.Table.absorb_of_mem (Ledger.isDuplicate_iff.1 hd)).symm
  · have hno : ¬s.ledger.isDuplicate d.key = true := fun h => hd (Ledger.isDuplicate_iff.1 h)
    refine ⟨⟨s.ledger ++ [⟨d, s.ledger.freshId⟩], s.created ++ [⟨d, s.ledger.freshId⟩]⟩, ?_, ?_,
      [⟨d, s.ledger.freshId⟩], rfl, rfl⟩
    · simp [hno, Ledger.create_of_absent hf hd]
    · exact (Ledger.absorb_of_absent hd).symm

/-- Over valid rows the loop goes through, and absorbs them. -/
theorem ingestRows_valid : ∀ {ts : List SyncedTransaction}, (∀ t ∈ ts, t.Valid tax a) →
    ∀ s, ∃ s', ingestRows tax a s ts = (s', none) ∧
      s'.ledger = Ledger.ledgerTable.absorbAll s.ledger (ts.filterMap (·.draft tax a)) ∧
      ∃ new, s'.ledger = s.ledger ++ new ∧ s'.created = s.created ++ new
  | [], _, s => ⟨s, rfl, rfl, [], by simp, by simp⟩
  | t :: ts, h, s => by
    obtain ⟨d, hd, hf⟩ := h t List.mem_cons_self
    obtain ⟨s₁, hrow, hL₁, new₁, hnew₁, hcr₁⟩ := ingestRow_valid hd hf s
    obtain ⟨s₂, hrows, hL₂, new₂, hnew₂, hcr₂⟩ :=
      ingestRows_valid (fun u hu => h u (List.mem_cons_of_mem _ hu)) s₁
    refine ⟨s₂, by rw [ingestRows, hrow]; exact hrows, ?_, new₁ ++ new₂, ?_, ?_⟩
    · rw [hL₂, hL₁, List.filterMap_cons_some hd]
      rfl
    · rw [hnew₂, hnew₁, List.append_assoc]
    · rw [hcr₂, hcr₁, List.append_assoc]

variable {accounts : List BankAccount} {id : AccountId} {ts : List SyncedTransaction}

/-- The ledger after a valid batch, and the event with the rows it created. -/
theorem ingestSyncedTransactions_valid (ha : (accounts.find? fun a => a.id = id) = some a)
    (hts : ∀ t ∈ ts, t.Valid tax a) (L : Ledger) :
    ∃ created, ingestSyncedTransactions tax accounts L id ts =
        (L ++ created, [⟨a.user, a.id, created.length, created.map Transaction.id⟩]) ∧
      L ++ created = Ledger.ledgerTable.absorbAll L (ts.filterMap (·.draft tax a)) := by
  obtain ⟨s', hrows, hL, new, hnew, hcr⟩ := ingestRows_valid hts ⟨L, []⟩
  refine ⟨new, ?_, hnew.symm.trans hL⟩
  have hcreated : s'.created = new := by simpa using hcr
  simp only [ingestSyncedTransactions, ha, hrows, hcreated]
  rw [hnew]

/-- So the task absorbs them. -/
theorem ingestSyncedTransactions_ledger (ha : (accounts.find? fun a => a.id = id) = some a)
    (hts : ∀ t ∈ ts, t.Valid tax a) (L : Ledger) :
    (ingestSyncedTransactions tax accounts L id ts).1 =
      Ledger.ledgerTable.absorbAll L (ts.filterMap (·.draft tax a)) := by
  obtain ⟨created, hing, hL⟩ := ingestSyncedTransactions_valid ha hts L
  rw [hing]
  exact hL

/-- The keys of the drafts are the content keys. -/
theorem map_key_valid (hts : ∀ t ∈ ts, t.Valid tax a) : ts.map (·.key a) =
    ((ts.filterMap (·.draft tax a)).map TransactionDraft.key).map some := by
  induction ts with
  | nil => rfl
  | cons t ts ih =>
    obtain ⟨d, hd, -⟩ := hts t List.mem_cons_self
    rw [List.filterMap_cons_some hd, List.map_cons, List.map_cons, List.map_cons, draft_key hd,
      ih fun u hu => hts u (List.mem_cons_of_mem _ hu)]

/-- The keys of valid rows are those of their drafts. -/
theorem mem_draft_keys (hts : ∀ t ∈ ts, t.Valid tax a) {k : TransactionKey} :
    k ∈ (ts.filterMap (·.draft tax a)).map TransactionDraft.key ↔ some k ∈ ts.map (·.key a) := by
  rw [map_key_valid hts, List.mem_map_of_injective (Option.some_injective _)]

end Valid

/-! ## Batches -/

/-- Batches ingested one after another. -/
def ingestBatches (tax : Taxonomy) (accounts : List BankAccount) (id : AccountId) (L : Ledger)
    (batches : List (List SyncedTransaction)) : Ledger :=
  batches.foldl (fun L b => (ingestSyncedTransactions tax accounts L id b).1) L

section Batches

variable {tax : Taxonomy} {accounts : List BankAccount} {id : AccountId} {a : BankAccount}

/-- Batches of valid rows are absorbed one after the other. -/
theorem ingestBatches_valid (ha : (accounts.find? fun a => a.id = id) = some a) :
    ∀ {batches : List (List SyncedTransaction)}, (∀ t ∈ batches.flatten, t.Valid tax a) → ∀ L,
      ingestBatches tax accounts id L batches =
        Ledger.ledgerTable.absorbAll L (batches.flatten.filterMap (·.draft tax a))
  | [], _, _ => rfl
  | b :: batches, h, L => by
    have hb : ∀ t ∈ b, t.Valid tax a := fun t ht => h t (by simp [ht])
    have hbs : ∀ t ∈ batches.flatten, t.Valid tax a := fun t ht =>
      h t (by rw [List.flatten_cons]; exact List.mem_append_right _ ht)
    rw [List.flatten_cons, List.filterMap_append, Keyed.Table.absorbAll_append,
      ← ingestSyncedTransactions_ledger ha hb, ← ingestBatches_valid ha hbs]
    rfl

/-- Valid transactions, in any order and cut into batches in any way, keep the rows there
were and leave the same keys with the same number of rows each. A batch that comes again
changes nothing, and a key that was absent ends with one row. -/
theorem ingest_batches (ha : (accounts.find? fun a => a.id = id) = some a) (L : Ledger)
    {ts : List SyncedTransaction} (hts : ∀ t ∈ ts, t.Valid tax a) :
    (∀ batches : List (List SyncedTransaction), batches.flatten.Perm ts →
      L <+: ingestBatches tax accounts id L batches ∧
      ∀ k, (k ∈ (ingestBatches tax accounts id L batches).keys ↔
          k ∈ (ingestBatches tax accounts id L [ts]).keys) ∧
        (ingestBatches tax accounts id L batches).keys.count k =
          (ingestBatches tax accounts id L [ts]).keys.count k) ∧
    ingestBatches tax accounts id L [ts, ts] = ingestBatches tax accounts id L [ts] ∧
    ∀ k, some k ∈ ts.map (·.key a) → k ∉ L.keys →
      (ingestBatches tax accounts id L [ts]).keys.count k = 1 := by
  have hone : ∀ M, ingestBatches tax accounts id M [ts] =
      Ledger.ledgerTable.absorbAll M (ts.filterMap (·.draft tax a)) := by
    intro M
    exact ingestSyncedTransactions_ledger ha hts M
  refine ⟨fun batches hperm => ?_, ?_, fun k hk hL => ?_⟩
  · rw [ingestBatches_valid ha fun t ht => hts t (hperm.mem_iff.1 ht), hone]
    refine ⟨Keyed.Table.prefix_absorbAll L _, fun k => ?_⟩
    have hkeys : ∀ k, k ∈ (batches.flatten.filterMap (·.draft tax a)).map TransactionDraft.key ↔
        k ∈ (ts.filterMap (·.draft tax a)).map TransactionDraft.key :=
      fun k => ((hperm.filterMap _).map _).mem_iff
    refine ⟨?_, Ledger.count_keys_absorbAll_congr hkeys k⟩
    rw [Ledger.mem_keys_absorbAll, Ledger.mem_keys_absorbAll, hkeys k]
  · change ingestBatches tax accounts id (ingestBatches tax accounts id L [ts]) [ts] = _
    rw [hone, hone]
    refine Keyed.Table.absorbAll_of_forall_mem fun d hd => ?_
    exact Ledger.mem_keys_absorbAll.2 (Or.inr (List.mem_map_of_mem hd))
  · rw [hone, Ledger.count_keys_absorbAll, if_neg hL, if_pos ((mem_draft_keys hts).2 hk)]

end Batches

/-- An account at the bank, and a coffee bought there with its card. -/
def syncedAccount : BankAccount :=
  { id := 5, user := 1, bankName := "Mock National Bank", accountNumber := "100020003000"
    linkType := .synced }

/-- A purchase as the bank lists it. -/
def coffee (externalTransactionId : String) : SyncedTransaction :=
  { externalTransactionId, transactionDate := .text "2026-07-01", merchantRaw := "Cilantro"
    amount := 6500, transactionType := "debit" }

/-- Nothing is recognised. -/
def noTaxonomy : Taxonomy := ⟨fun _ _ => none, fun _ _ => none⟩

/-- The identifier is not looked at. -/
theorem coffee_valid (e : String) : (coffee e).Valid noTaxonomy syncedAccount := by
  have h : ∃ d ∈ (coffee "txn").draft noTaxonomy syncedAccount, d.Fits := by decide
  exact h

/-- One purchase, in two batches and in one. -/
theorem ingest_batches_coffee :
    ingestBatches noTaxonomy [syncedAccount] 5 [] [[coffee "txn-1"], [coffee "txn-1"]] =
      ingestBatches noTaxonomy [syncedAccount] 5 [] [[coffee "txn-1"]] :=
  (@ingest_batches noTaxonomy [syncedAccount] 5 syncedAccount rfl [] [coffee "txn-1"] (by
    intro t ht
    rw [List.mem_singleton.1 ht]
    exact coffee_valid _)).2.1

/-! ## Content keys -/

/-- The total of an account's rows of a type. -/
def accountTotal (account : AccountId) (transactionType : String) (ds : List TransactionDraft) : ℤ :=
  ((ds.filter fun d => d.account = account ∧ d.transactionType = some transactionType).map
    TransactionDraft.amount).sum

/-- The total of a batch's transactions of a type. -/
def batchTotal (transactionType : String) (ts : List SyncedTransaction) : ℤ :=
  ((ts.filter fun t => t.transactionType = some transactionType).map SyncedTransaction.amount).sum

/-- The totals of two lists add up. -/
theorem accountTotal_append (account : AccountId) (transactionType : String)
    (ds es : List TransactionDraft) : accountTotal account transactionType (ds ++ es) =
      accountTotal account transactionType ds + accountTotal account transactionType es := by
  simp [accountTotal]

namespace Ledger

/-- The rows without their ids. -/
def drafts (L : Ledger) : List TransactionDraft := L.map Transaction.toTransactionDraft

@[simp] theorem drafts_append (L M : Ledger) : drafts (L ++ M) = drafts L ++ drafts M :=
  List.map_append

/-- The ids have no part in the keys. -/
theorem keys_drafts (L : Ledger) : L.drafts.map TransactionDraft.key = L.keys := List.map_map

end Ledger

section ContentKeys

variable {tax : Taxonomy} {accounts : List BankAccount} {id : AccountId} {a : BankAccount}

/-- The rows a valid batch creates are those of the transactions that come first with a
content key the ledger lacked. The account's totals grow by theirs, and every transaction
has a row of its own exactly if the content keys are distinct and absent. -/
theorem ingest_contentKeys (ha : (accounts.find? fun a => a.id = id) = some a) (L : Ledger)
    {ts : List SyncedTransaction} (hts : ∀ t ∈ ts, t.Valid tax a) :
    ∃ created, (ingestSyncedTransactions tax accounts L id ts).1 = L ++ created ∧
      Ledger.drafts created = Ledger.ledgerTable.firsts L.keys (ts.filterMap (·.draft tax a)) ∧
      (∀ transactionType, accountTotal a.id transactionType (Ledger.drafts (L ++ created)) =
        accountTotal a.id transactionType L.drafts + accountTotal a.id transactionType
          (Ledger.ledgerTable.firsts L.keys (ts.filterMap (·.draft tax a)))) ∧
      (Ledger.drafts created = ts.filterMap (·.draft tax a) ↔
        (ts.map (·.key a)).Nodup ∧ ∀ t ∈ ts, ∀ k ∈ t.key a, k ∉ L.keys) := by
  obtain ⟨created, hing, hL⟩ := ingestSyncedTransactions_valid ha hts L
  have hdrafts : Ledger.drafts created =
      Ledger.ledgerTable.firsts L.keys (ts.filterMap (·.draft tax a)) := by
    have hmap := Keyed.Table.map_absorbAll (T := Ledger.ledgerTable)
      (f := Transaction.toTransactionDraft) (g := fun d => d) (fun _ _ => rfl) L
      (ts.filterMap (·.draft tax a))
    rw [← hL, List.map_append, List.map_id'] at hmap
    exact List.append_cancel_left hmap
  refine ⟨created, congrArg Prod.fst hing, hdrafts, fun transactionType => ?_, ?_⟩
  · rw [Ledger.drafts_append, accountTotal_append, hdrafts]
  · rw [hdrafts, Keyed.Table.firsts_eq_self]
    rw [map_key_valid hts, List.nodup_map_iff (Option.some_injective _)]
    refine and_congr Iff.rfl ⟨fun h t ht k hk hL => ?_, fun h d hd hL => ?_⟩
    · have hmem : k ∈ (ts.filterMap (·.draft tax a)).map TransactionDraft.key :=
        (mem_draft_keys hts).2 (List.mem_map.2 ⟨t, ht, hk⟩)
      obtain ⟨d, hd, rfl⟩ := List.mem_map.1 hmem
      exact h d hd hL
    · obtain ⟨t, ht, hk⟩ := List.mem_map.1 ((mem_draft_keys hts).1 (List.mem_map_of_mem hd))
      exact h t ht d.key hk hL

/-- Two purchases with one content are one row. -/
theorem ingest_contentKeys_coffee :
    ∃ created, (ingestSyncedTransactions noTaxonomy [syncedAccount] [] 5
        [coffee "txn-1", coffee "txn-2"]).1 = created ∧ Ledger.drafts created =
      Ledger.ledgerTable.firsts [] ([coffee "txn-1", coffee "txn-2"].filterMap
        (·.draft noTaxonomy syncedAccount)) := by
  obtain ⟨created, hing, hdrafts, -⟩ :=
    @ingest_contentKeys noTaxonomy [syncedAccount] 5 syncedAccount rfl []
      [coffee "txn-1", coffee "txn-2"] (by simp [coffee_valid])
  exact ⟨created, hing, hdrafts⟩

/-- Two coffees of one price on one day are two transactions at the bank and one row here. -/
theorem sameContent_sharesRow :
    ¬∀ (tax : Taxonomy) (accounts : List BankAccount) (id : AccountId) (a : BankAccount)
      (ts : List SyncedTransaction), (accounts.find? fun a => a.id = id) = some a →
      a.isSynced = true → (∀ t ∈ ts, t.Valid tax a) →
      (∀ t ∈ ts, t.externalTransactionId ≠ none) →
      (ts.map SyncedTransaction.externalTransactionId).Nodup →
      (ingestSyncedTransactions tax accounts [] id ts).1.length = ts.length ∧
        ∀ transactionType, accountTotal id transactionType
          (Ledger.drafts (ingestSyncedTransactions tax accounts [] id ts).1) =
            batchTotal transactionType ts := by
  intro h
  have hlen := h noTaxonomy [syncedAccount] 5 syncedAccount [coffee "txn-1", coffee "txn-2"] rfl rfl
    (by simp [coffee_valid]) (by simp [coffee]) (by simp [coffee])
  exact absurd hlen.1 (by decide)

end ContentKeys

end NbeAdvisor
