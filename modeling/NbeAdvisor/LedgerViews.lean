import NbeAdvisor.BankSync
import Mathlib.Data.List.Dedup

/-!
# The views that write the ledger

`POST /transactions`, `PATCH /transactions/{id}` and the approval of a statement's proposed
batch. With the ingest of `BankSync` these are the paths on which the service adds a row or
edits its key.

Adding looks the key up first on every path, so what a request adds is `absorbAll` of the
ledger table, also when it ends early (`Added`), as long as the key that is stored is the one that
was looked up. The serializers see to that, and the ingest, whose texts no serializer has trimmed,
may have the columns cut them (`ingestClear`). Editing does not look anything up. It can give a row
the key of another one, and the unique constraint stops it only if the key has no null
(`patchTransaction_ledger`).
-/

namespace NbeAdvisor

/-- How a view answers in place of a result. `validation` is a serializer that rejects the
body, `database` and `serverError` are exceptions that the view lets through. -/
inductive ApiError where
  | notFound
  | validation
  | businessRule (e : BusinessRuleError)
  | database (e : DbError)
  | serverError
  deriving DecidableEq

/-- `get_object_or_404(BankAccount, id=.., user=..)`. -/
def ownAccount (accounts : List BankAccount) (user : UserId) (id : AccountId) :
    Option BankAccount :=
  accounts.find? fun a => a.id = id ∧ a.user = user

/-! ## Manual entry -/

/-- The validated body of `POST /transactions`, without the account. The serializer has
trimmed the texts and looked the category up. -/
structure TransactionWrite where
  transactionDate : Date
  merchantRaw : Option String := none
  category : Option CategoryId := none
  amount : ℤ
  currency : Option String := none
  transactionType : Option String := none
  isRecurring : Bool := false
  deriving DecidableEq

namespace TransactionWrite

/-- `TransactionWriteSerializer.is_valid`. -/
def Valid (w : TransactionWrite) : Prop :=
  (∀ s ∈ w.merchantRaw, TextFits 1024 s) ∧
    (∀ s ∈ w.currency, s ≠ "" ∧ TextFits 10 s) ∧
    (∀ s ∈ w.transactionType, TextFits 20 s) ∧
    AmountFits w.amount

instance (w : TransactionWrite) : Decidable w.Valid := by
  unfold Valid
  infer_instance

/-- The row that the view creates. -/
def draft (user : UserId) (account : BankAccount) (w : TransactionWrite) : TransactionDraft :=
  { user, account := account.id, source := .manual
    currency := account.currencyOr w.currency
    transactionDate := w.transactionDate
    merchantRaw := w.merchantRaw
    category := w.category
    amount := w.amount
    transactionType := w.transactionType
    isRecurring := w.isRecurring }

end TransactionWrite

/-- `TransactionListCreateView.post` : the row it creates. -/
def postTransaction (accounts : List BankAccount) (L : Ledger) (user : UserId)
    (accountId : Option AccountId) (data : TransactionWrite) : Except ApiError Transaction :=
  match accountId with
  | none => .error .validation
  | some accountId =>
    match ownAccount accounts user accountId with
    | none => .error .notFound
    | some account =>
      match account.assertAccountMutable with
      | .error e => .error (.businessRule e)
      | .ok () =>
        if ¬data.Valid then .error .validation
        else
          match L.lookup (data.draft user account).key with
          | some duplicate =>
            .error (.businessRule
              ⟨"A transaction matching this date, amount, merchant, and direction already exists.",
                "duplicate_transaction", some ("transaction_id", [toString duplicate.id])⟩)
          | none =>
            match L.create (data.draft user account) with
            | .error e => .error (.database e)
            | .ok row => .ok row

/-! ## Editing -/

/-- The body of `PATCH /transactions/{id}`, with its texts as the serializer has trimmed them. A
field that is absent stays; `others` are the names of further entries of the body. -/
structure TransactionPatch where
  category : Option (Option CategoryId) := none
  merchantRaw : Option (Option String) := none
  amount : Option ℤ := none
  transactionDate : Option Date := none
  transactionType : Option (Option String) := none
  isRecurring : Option Bool := none
  others : List String := []
  deriving DecidableEq

namespace TransactionPatch

/-- `set(request.data)`. -/
def fieldNames (p : TransactionPatch) : List String :=
  ((if p.category.isSome then ["category"] else []) ++
    (if p.merchantRaw.isSome then ["merchant_raw"] else []) ++
    (if p.amount.isSome then ["amount"] else []) ++
    (if p.transactionDate.isSome then ["transaction_date"] else []) ++
    (if p.transactionType.isSome then ["transaction_type"] else []) ++
    (if p.isRecurring.isSome then ["is_recurring"] else []) ++ p.others).dedup

/-- `disallowed_fields` of the view. -/
def disallowedFields (p : TransactionPatch) : List String :=
  p.fieldNames.filter fun name => name ∉ ["category", "is_recurring"]

/-- `TransactionPatchSerializer.is_valid`. -/
def Valid (p : TransactionPatch) : Prop :=
  (∀ m ∈ p.merchantRaw, ∀ s ∈ m, TextFits 1024 s) ∧
    (∀ a ∈ p.amount, AmountFits a) ∧
    ∀ t ∈ p.transactionType, ∀ s ∈ t, TextFits 20 s

instance (p : TransactionPatch) : Decidable p.Valid := by
  unfold Valid
  infer_instance

/-- What `SyncedTransactionPatchSerializer` sets. -/
def editSynced (p : TransactionPatch) (d : TransactionDraft) : TransactionDraft :=
  { d with
    category := p.category.getD d.category
    isRecurring := p.isRecurring.getD d.isRecurring }

/-- What `TransactionPatchSerializer` sets. -/
def edit (p : TransactionPatch) (d : TransactionDraft) : TransactionDraft :=
  { d with
    category := p.category.getD d.category
    merchantRaw := p.merchantRaw.getD d.merchantRaw
    amount := p.amount.getD d.amount
    transactionDate := p.transactionDate.getD d.transactionDate
    transactionType := p.transactionType.getD d.transactionType
    isRecurring := p.isRecurring.getD d.isRecurring }

end TransactionPatch

/-- The checks of `TransactionDetailView.patch`, and the columns that it then saves. -/
def editTransaction (accounts : List BankAccount) (t : Transaction) (p : TransactionPatch) :
    Except ApiError TransactionDraft :=
  if t.source = .synced then
    if p.disallowedFields = [] then .ok (p.editSynced t.toTransactionDraft)
    else
      .error (.businessRule
        ⟨"Synced transactions only allow editing category and recurring status.",
          "synced_transaction_limited_edit",
          some ("fields", p.disallowedFields.mergeSort fun s t => decide (s ≤ t))⟩)
  else
    match accounts.find? fun a => a.id = t.account with
    | none => .error .serverError
    | some account =>
      match account.assertAccountMutable with
      | .error e => .error (.businessRule e)
      | .ok () =>
        if p.Valid then .ok (p.edit t.toTransactionDraft) else .error .validation

namespace Ledger

/-- `Transaction.objects.filter(user=..)` by id. -/
def own (L : Ledger) (user : UserId) (id : TransactionId) : Option Transaction :=
  L.find? fun t => t.id = id ∧ t.user = user

/-- The ledger with `t` in place of the row with its id. -/
def write (L : Ledger) (t : Transaction) : Ledger := L.map fun u => if u.id = t.id then t else u

/-- `save()` of a row that is there, with what the columns and the unique constraint check. -/
def save (L : Ledger) (t : Transaction) : Except DbError Ledger :=
  if ¬t.Fits then .error .dataError
  else if t.key.Enforced ∧ ∃ u ∈ L, u.id ≠ t.id ∧ u.key = t.key then .error .integrityError
  else .ok (L.write t)

end Ledger

/-- `TransactionDetailView.patch` : the ledger afterwards and the row. -/
def patchTransaction (accounts : List BankAccount) (L : Ledger) (user : UserId)
    (id : TransactionId) (p : TransactionPatch) : Except ApiError (Ledger × Transaction) :=
  match L.own user id with
  | none => .error .notFound
  | some t =>
    match editTransaction accounts t p with
    | .error e => .error e
    | .ok d =>
      match L.save ⟨d, id⟩ with
      | .error e => .error (.database e)
      | .ok L' => .ok (L', ⟨d, id⟩)

/-! ## Approval -/

/-- One row of a submitted batch. `extra_fields` is its JSON text. -/
structure TransactionApprovalItem where
  transactionDate : Date
  merchantRaw : Option String := none
  category : Option String := none
  amount : ℤ
  transactionType : Option String := none
  balance : Option ℤ := none
  merchantNormalized : Option String := none
  extraFields : Option String := none
  deriving DecidableEq

/-- How a row was resolved : inserted, or skipped as a duplicate. -/
structure ApprovalResult where
  transactionDate : Date
  merchantRaw : Option String
  amount : ℤ
  transactionId : Option TransactionId
  duplicateOf : Option TransactionId
  deriving DecidableEq

namespace TransactionApprovalItem

/-- `TransactionApprovalItemSerializer.is_valid`. The texts are trimmed before their checks. There
is no limit on the merchant, and no check of the extra fields. -/
def Valid (row : TransactionApprovalItem) : Prop :=
  (∀ s ∈ row.merchantRaw, TextStorable (strip s)) ∧
    (∀ s ∈ row.category, TextFits 100 (strip s)) ∧
    (∀ s ∈ row.transactionType, TextFits 20 (strip s)) ∧
    (∀ s ∈ row.merchantNormalized, TextFits 255 (strip s)) ∧
    AmountFits row.amount ∧ ∀ b ∈ row.balance, AmountFits b

instance (row : TransactionApprovalItem) : Decidable row.Valid := by
  unfold Valid
  infer_instance

/-- `validate_merchant_raw` : an over-long value is truncated. -/
def validateMerchantRaw (value : Option String) : Option String :=
  value.map fun s => String.ofList (s.toList.take 1024)

/-- The row in `validated_data`. -/
def validated (row : TransactionApprovalItem) : TransactionApprovalItem :=
  { row with
    merchantRaw := validateMerchantRaw (row.merchantRaw.map strip)
    category := row.category.map strip
    transactionType := row.transactionType.map strip
    merchantNormalized := row.merchantNormalized.map strip }

/-- The row is one of `validated_data`. -/
def Validated (row : TransactionApprovalItem) : Prop :=
  ∃ raw : TransactionApprovalItem, raw.Valid ∧ row = raw.validated

/-- The row that the view creates. -/
def draft (tax : Taxonomy) (statement : StatementFile) (account : BankAccount)
    (row : TransactionApprovalItem) : TransactionDraft :=
  { user := statement.user, account := account.id, statement := statement.id
    source := .statement
    transactionDate := row.transactionDate
    merchantRaw := row.merchantRaw
    category := tax.resolveCategory row.category row.transactionType
    amount := row.amount
    transactionType := row.transactionType
    balance := row.balance
    merchantNormalized := row.merchantNormalized
    extraFields := row.extraFields }

/-- The entry of `resolved` for the row. -/
def resolved (row : TransactionApprovalItem) (transactionId duplicateOf : Option TransactionId) :
    ApprovalResult :=
  ⟨row.transactionDate, row.merchantRaw, row.amount, transactionId, duplicateOf⟩

section Valid

variable (tax : Taxonomy) (statement : StatementFile) (account : BankAccount)
  {row : TransactionApprovalItem}

/-- The merchant and the type of a row that the serializer lets through. -/
theorem validated_fits (h : row.Valid) : (∀ s ∈ row.validated.merchantRaw, TextFits 1024 s) ∧
    ∀ s ∈ row.validated.transactionType, TextFits 20 s := by
  obtain ⟨hmerchant, -, htype, -⟩ := h
  refine ⟨fun s hs => ?_, fun s hs => ?_⟩
  · obtain ⟨trimmed, htrimmed, rfl⟩ := Option.map_eq_some_iff.1 hs
    obtain ⟨raw, hraw, rfl⟩ := Option.map_eq_some_iff.1 htrimmed
    refine ⟨?_, fun hmem => hmerchant raw hraw ?_⟩
    · rw [String.toList_ofList, List.length_take]
      exact Nat.min_le_left _ _
    · rw [String.toList_ofList] at hmem
      exact List.mem_of_mem_take hmem
  · obtain ⟨raw, hraw, rfl⟩ := Option.map_eq_some_iff.1 hs
    exact htype raw hraw

/-- It is stored under the key that is looked up. -/
theorem draft_cut_key (h : row.Valid) : (row.validated.draft tax statement account).cut.key =
    (row.validated.draft tax statement account).key :=
  TransactionDraft.cut_key (validated_fits h).1 (validated_fits h).2

/-- Nothing of it is cut. -/
theorem draft_cut (h : row.Valid) : (row.validated.draft tax statement account).cut =
    row.validated.draft tax statement account := by
  obtain ⟨hmerchant, htype⟩ := validated_fits h
  have hnormalized : ∀ s ∈ row.validated.merchantNormalized, TextFits 255 s := fun s hs => by
    obtain ⟨raw, hraw, rfl⟩ := Option.map_eq_some_iff.1 hs
    exact h.2.2.2.1 raw hraw
  simp only [TransactionDraft.cut, draft, map_cutBlanks_of_fits hmerchant,
    map_cutBlanks_of_fits htype, map_cutBlanks_of_fits hnormalized]
  rfl

/-- A validated item is stored as it is. -/
theorem Validated.draft_cut (h : row.Validated) : (row.draft tax statement account).cut =
    row.draft tax statement account := by
  obtain ⟨raw, hraw, rfl⟩ := h
  exact TransactionApprovalItem.draft_cut tax statement account hraw

end Valid

end TransactionApprovalItem

/-- The rows of the atomic block, on the ledger and the results so far. -/
def approveRows (tax : Taxonomy) (statement : StatementFile) (account : BankAccount) :
    Ledger × List ApprovalResult → List TransactionApprovalItem →
      Except DbError (Ledger × List ApprovalResult)
  | s, [] => .ok s
  | (L, resolved), row :: rows =>
    match L.lookup (row.draft tax statement account).key with
    | some existing =>
      approveRows tax statement account (L, resolved ++ [row.resolved none existing.id]) rows
    | none =>
      match L.create (row.draft tax statement account) with
      | .error e => .error e
      | .ok created =>
        approveRows tax statement account
          (L ++ [created], resolved ++ [row.resolved created.id none]) rows

section ApproveRows

variable {tax : Taxonomy} {statement : StatementFile} {account : BankAccount} {L : Ledger}
  {resolved : List ApprovalResult} {row : TransactionApprovalItem}

/-- An item whose key is there resolves to the row. -/
theorem approveRows_skip (rows : List TransactionApprovalItem) {existing : Transaction}
    (hk : L.lookup (row.draft tax statement account).key = some existing) :
    approveRows tax statement account (L, resolved) (row :: rows) =
      approveRows tax statement account
        (L, resolved ++ [row.resolved none existing.id]) rows := by
  rw [approveRows, hk]

/-- An item that the database refuses ends the batch. -/
theorem approveRows_error (rows : List TransactionApprovalItem) {e : DbError}
    (hk : L.lookup (row.draft tax statement account).key = none)
    (hc : L.create (row.draft tax statement account) = .error e) :
    approveRows tax statement account (L, resolved) (row :: rows) = .error e := by
  simp only [approveRows, hk, hc]

/-- A new item resolves to its row. -/
theorem approveRows_create (rows : List TransactionApprovalItem) {created : Transaction}
    (hk : L.lookup (row.draft tax statement account).key = none)
    (hc : L.create (row.draft tax statement account) = .ok created) :
    approveRows tax statement account (L, resolved) (row :: rows) =
      approveRows tax statement account
        (L ++ [created], resolved ++ [row.resolved created.id none]) rows := by
  simp only [approveRows, hk, hc]

/-- The rows that are added are in the account of the approval, and the results name no
others. -/
theorem approveRows_appends : ∀ {rows : List TransactionApprovalItem}
    {s s' : Ledger × List ApprovalResult}, approveRows tax statement account s rows = .ok s' →
      ∃ new : List Transaction, s'.1 = s.1 ++ new ∧ (∀ t ∈ new, t.account = account.id) ∧
        s'.2.filterMap (·.transactionId) = s.2.filterMap (·.transactionId) ++ new.map (·.id)
  | [], s, s', h => by
    cases h
    exact ⟨[], by simp, by simp, by simp⟩
  | row :: rows, (L, resolved), s', h => by
    unfold approveRows at h
    split at h
    · obtain ⟨new, hnew, hof, hids⟩ := approveRows_appends h
      refine ⟨new, hnew, hof, ?_⟩
      rw [hids, List.filterMap_append]
      simp [TransactionApprovalItem.resolved]
    split at h
    · cases h
    next created hc =>
    obtain ⟨-, -, rfl⟩ := Ledger.create_eq_ok.1 hc
    obtain ⟨new, hnew, hof, hids⟩ := approveRows_appends h
    refine ⟨⟨(row.draft tax statement account).cut, L.freshId⟩ :: new, ?_, fun t ht => ?_, ?_⟩
    · rw [hnew]
      simp
    · rcases List.mem_cons.1 ht with rfl | ht
      · rfl
      · exact hof t ht
    · rw [hids, List.filterMap_append]
      simp [TransactionApprovalItem.resolved]

end ApproveRows

namespace StatementFile

/-- The account of an approval and the statement with it : the account that the body names,
or the inferred one. -/
def confirmAccount (accounts : List BankAccount) (s : StatementFile) :
    Option AccountId → Except ApiError (StatementFile × BankAccount)
  | none =>
    match s.account.bind fun id => accounts.find? fun a => a.id = id with
    | none => .error .serverError
    | some a => .ok (s, a)
  | some id =>
    match ownAccount accounts s.user id with
    | none => .error .notFound
    | some a => .ok ({ s with account := some a.id }, a)

/-- Only the account of the statement changes, and only if the body names one. -/
theorem confirmAccount_ok {accounts : List BankAccount} {s c : StatementFile} {a : BankAccount}
    {accountId : Option AccountId} (h : s.confirmAccount accounts accountId = .ok (c, a)) :
    c = { s with account := c.account } ∧ (accountId = none → c = s) := by
  unfold confirmAccount at h
  split at h
  · split at h
    · cases h
    · cases h
      exact ⟨rfl, fun _ => rfl⟩
  · split at h
    · cases h
    · cases h
      refine ⟨rfl, fun hn => ?_⟩
      cases hn

/-- What the approval saves. -/
def approve (s : StatementFile) : StatementFile :=
  { s with status := .approved, failureReason := none, failedPhase := none }

end StatementFile

/-- The status check of an approval. -/
def awaitsApproval (statement : StatementFile) : Except ApiError Unit :=
  if statement.status = .normalized then .ok ()
  else
    .error (.businessRule ⟨"This statement is not awaiting transaction approval.",
      "invalid_status_transition", none⟩)

/-- `StatementTransactionApprovalView.post`, on the statement that it has read : the
statement and the ledger afterwards, and the resolved rows. -/
def approveTransactions (tax : Taxonomy) (accounts : List BankAccount) (statement : StatementFile)
    (L : Ledger) (accountId : Option AccountId) (transactions : List TransactionApprovalItem) :
    StatementFile × Ledger × Except ApiError (List ApprovalResult) :=
  match awaitsApproval statement with
  | .error e => (statement, L, .error e)
  | .ok () =>
    if ¬∀ row ∈ transactions, row.Valid then (statement, L, .error .validation)
    else
      match statement.confirmAccount accounts accountId with
      | .error e => (statement, L, .error e)
      | .ok (confirmed, account) =>
        match account.assertAccountMutable with
        | .error e => (confirmed, L, .error (.businessRule e))
        | .ok () =>
          match approveRows tax confirmed account (L, [])
              (transactions.map TransactionApprovalItem.validated) with
          | .error e => (confirmed, L, .error (.database e))
          | .ok (L', resolved) => (confirmed.approve, L', .ok resolved)

/-! ## What the requests leave in the ledger -/

/-- `M` is `L` with rows added, each one after a lookup that found nothing. -/
def Added (L M : Ledger) : Prop := ∃ ds, M = Ledger.ledgerTable.absorbAll L ds

namespace Added

variable {L M N : Ledger} {d : TransactionDraft}

/-- Nothing is added. -/
theorem refl (L : Ledger) : Added L L := ⟨[], rfl⟩

/-- What is added on what was added. -/
theorem trans (h : Added L M) (h' : Added M N) : Added L N := by
  obtain ⟨ds, rfl⟩ := h
  obtain ⟨es, rfl⟩ := h'
  exact ⟨ds ++ es, (Keyed.Table.absorbAll_append L ds es).symm⟩

/-- A row with a new key is added. -/
theorem of_create {row : Transaction} (hk : d.cut.key ∉ L.keys) (h : L.create d = .ok row) :
    Added L (L ++ [row]) := by
  obtain ⟨-, -, rfl⟩ := Ledger.create_eq_ok.1 h
  exact ⟨[d.cut], (Ledger.absorb_of_absent hk).symm⟩

/-- The ids stay distinct. -/
theorem nodup_ids (h : Added L M) (hL : (L.map Transaction.id).Nodup) :
    (M.map Transaction.id).Nodup := by
  obtain ⟨ds, rfl⟩ := h
  refine Keyed.Table.absorbAll_induct (T := Ledger.ledgerTable)
    (P := fun rows => (rows.map Transaction.id).Nodup) ds hL fun rows d _ hrows => ?_
  refine Keyed.nodup_map_snoc hrows fun u hu (hid : u.id = Ledger.freshId rows) => ?_
  exact Ledger.freshId_notMem rows (hid ▸ List.mem_map_of_mem hu)

end Added

/-- A transaction that is not found is not stored under the key of another row, unless the unique
constraint refuses it. Where the columns cut no text of the key, the key that is stored is the one
that was looked up. -/
def StoredClear (tax : Taxonomy) (a : BankAccount) (L : Ledger) (t : SyncedTransaction) : Prop :=
  ∀ d ∈ t.draft tax a, d.key ∉ L.keys → d.cut.Fits → ¬d.cut.key.Enforced → d.cut.key ∉ L.keys

instance (tax : Taxonomy) (a : BankAccount) (L : Ledger) (t : SyncedTransaction) :
    Decidable (StoredClear tax a L t) := by
  unfold StoredClear
  infer_instance

/-- This holds of each transaction of a batch when the loop comes to it. -/
def ingestClear (tax : Taxonomy) (a : BankAccount) : IngestState → List SyncedTransaction → Prop
  | _, [] => True
  | s, t :: ts => StoredClear tax a s.ledger t ∧
    ∀ s' ∈ (ingestRow tax a s t).toOption, ingestClear tax a s' ts

instance decidableIngestClear (tax : Taxonomy) (a : BankAccount) :
    ∀ (s : IngestState) (ts : List SyncedTransaction), Decidable (ingestClear tax a s ts)
  | _, [] => .isTrue trivial
  | s, _ :: ts =>
    have := fun s' => decidableIngestClear tax a s' ts
    inferInstanceAs (Decidable (_ ∧ ∀ s' ∈ (ingestRow tax a s _).toOption, ingestClear tax a s' ts))

section Specs

variable {tax : Taxonomy} {accounts : List BankAccount} {L : Ledger}

/-- A POST adds its row. -/
theorem postTransaction_added {user : UserId} {accountId : Option AccountId}
    {data : TransactionWrite} {row : Transaction}
    (h : postTransaction accounts L user accountId data = .ok row) : Added L (L ++ [row]) := by
  unfold postTransaction at h
  split at h
  · cases h
  split at h
  · cases h
  split at h
  · cases h
  split_ifs at h
  next hvalid =>
  split at h
  · cases h
  · next hk =>
    split at h
    · cases h
    · next hc =>
      cases h
      refine .of_create ?_ hc
      rw [TransactionDraft.cut_key hvalid.1 hvalid.2.2.1]
      exact Ledger.lookup_eq_none.1 hk

/-- The loop of an approval adds rows. -/
theorem approveRows_added {statement : StatementFile} {account : BankAccount} :
    ∀ {rows : List TransactionApprovalItem} {s s' : Ledger × List ApprovalResult},
      (∀ row ∈ rows, row.Valid) → approveRows tax statement account s
        (rows.map TransactionApprovalItem.validated) = .ok s' → Added s.1 s'.1
  | [], s, s', _, h => by
    cases h
    exact .refl _
  | row :: rows, (L, resolved), s', hvalid, h => by
    have hrows : ∀ row ∈ rows, row.Valid := fun row hrow => hvalid row (List.mem_cons_of_mem _ hrow)
    rw [List.map_cons] at h
    unfold approveRows at h
    split at h
    · have hrest := approveRows_added hrows h
      exact hrest
    · next hk =>
      split at h
      · cases h
      · next hc =>
        refine (Added.of_create ?_ hc).trans (approveRows_added hrows h)
        rw [TransactionApprovalItem.draft_cut_key tax statement account
          (hvalid row List.mem_cons_self)]
        exact Ledger.lookup_eq_none.1 hk

/-- An approval adds rows, also if it is refused. -/
theorem approveTransactions_added (statement : StatementFile) (accountId : Option AccountId)
    (transactions : List TransactionApprovalItem) :
    Added L (approveTransactions tax accounts statement L accountId transactions).2.1 := by
  unfold approveTransactions
  split
  · exact .refl _
  split
  · exact .refl _
  next hvalid =>
  split
  · exact .refl _
  split
  · exact .refl _
  split
  · exact .refl _
  · next h => exact approveRows_added (not_not.1 hvalid) h

/-- A fetched row is added, if the lookup does not miss a key that is there. -/
theorem ingestRow_added {a : BankAccount} {s s' : IngestState} {t : SyncedTransaction}
    (hclear : StoredClear tax a s.ledger t) (h : ingestRow tax a s t = .ok s') :
    Added s.ledger s'.ledger := by
  unfold ingestRow at h
  split at h
  · cases h
  next d hd =>
  split_ifs at h with hdup
  · cases h
    exact .refl _
  · split at h
    · next hc =>
      cases h
      obtain ⟨hfits, hconstraint, -⟩ := Ledger.create_eq_ok.1 hc
      refine .of_create (fun hmem => ?_) hc
      by_cases he : d.cut.key.Enforced
      · exact hconstraint ⟨he, hmem⟩
      · exact hclear d hd (fun hk => hdup (Ledger.isDuplicate_iff.2 hk)) hfits he hmem
    · cases h

/-- So are fetched rows. -/
theorem ingestRows_added {a : BankAccount} :
    ∀ (ts : List SyncedTransaction) (s : IngestState), ingestClear tax a s ts →
      Added s.ledger (ingestRows tax a s ts).1.ledger
  | [], s, _ => .refl _
  | t :: ts, s, hclear => by
    unfold ingestRows
    split
    · next s' h =>
      refine (ingestRow_added hclear.1 h).trans (ingestRows_added ts s' (hclear.2 s' ?_))
      rw [h]
      rfl
    · exact .refl _

/-- So is what a task ingests. -/
theorem ingestSyncedTransactions_added {id : AccountId} {ts : List SyncedTransaction}
    (hclear : ∀ a ∈ accounts.find? fun a => a.id = id, ingestClear tax a ⟨L, []⟩ ts) :
    Added L (ingestSyncedTransactions tax accounts L id ts).1 := by
  unfold ingestSyncedTransactions
  split
  · exact .refl _
  · next a ha =>
    have h := ingestRows_added ts ⟨L, []⟩ (hclear a ha)
    split
    · next hs => rwa [hs] at h
    · next hs => rwa [hs] at h

/-- An edit writes the row that the user has under the id, unless another row has its key
and the constraint binds it. -/
theorem patchTransaction_ledger {user : UserId} {id : TransactionId} {p : TransactionPatch}
    {L' : Ledger} {row : Transaction} (h : patchTransaction accounts L user id p = .ok (L', row)) :
    ∃ t d, L.own user id = some t ∧ editTransaction accounts t p = .ok d ∧ row = ⟨d, id⟩ ∧
      (d.key.Enforced → ∀ u ∈ L, u.id ≠ id → u.key ≠ d.key) ∧ L' = L.write row := by
  unfold patchTransaction at h
  split at h
  · cases h
  next t ht =>
  split at h
  · cases h
  next d hd =>
  split at h
  · cases h
  next hs =>
  cases h
  unfold Ledger.save at hs
  split_ifs at hs with hf hu
  cases hs
  refine ⟨t, d, ht, hd, rfl, fun he u hu' hne hk => hu ⟨he, u, hu', hne, hk⟩, rfl⟩

end Specs

/-- An account kept by hand, and a day of payments. -/
def cashAccount : BankAccount :=
  { id := 7, user := 1, bankName := "Wallet", accountNumber := "1" }

/-- The first of July 2026. -/
def paymentDay : Date := ⟨2026, 7, 1, by decide, by decide⟩

end NbeAdvisor
