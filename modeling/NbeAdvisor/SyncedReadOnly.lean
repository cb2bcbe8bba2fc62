import NbeAdvisor.AccountViews

/-!
# Synced accounts are read-only

What end users do to accounts and transactions, one request after another, with no sync in
between : edits and deletions of accounts, manual entry, edits, deletions and bulk deletions
of transactions, and approvals of statements. Each path guards itself, most of them by
`assert_account_mutable`, an edit of a synced transaction by the list of its fields.

No synced account changes, the transactions in them stay, and so do their columns but for
the category, the recurring flag and what the AI service derives from the category
(`syncedRows_kept`). It embeds a transaction anew whose category has been edited
(`edit_reembeds`).
-/

namespace NbeAdvisor

/-- A `VectorField`. -/
abbrev Embedding := List ℚ

/-- The rows behind the requests. -/
structure UserBooks where
  accounts : List AccountRow := []
  statements : List StatementFile := []
  ledger : Ledger := []
  /-- The column `embedding` of the ledger. -/
  embedding : TransactionId → Option Embedding := fun _ => none

/-! ## Deleting -/

/-- `TransactionDetailView.delete` : the row it deletes. -/
def deleteTransaction (accounts : List BankAccount) (L : Ledger) (user : UserId)
    (id : TransactionId) : Except ApiError Transaction :=
  match L.own user id with
  | none => .error .notFound
  | some t =>
    match accounts.find? fun a => a.id = t.account with
    | none => .error .serverError
    | some account =>
      match account.assertAccountMutable with
      | .error e => .error (.businessRule e)
      | .ok () => .ok t

/-- The loop of `TransactionBulkDeleteView.post` : the ids that are deleted, and those that are
skipped with a reason. A second `delete()` of one row raises, and nothing is deleted. -/
def bulkDelete (accounts : List BankAccount) (L : Ledger) (user : UserId) :
    List TransactionId → List TransactionId → List (TransactionId × String) →
      Except ApiError (List TransactionId × List (TransactionId × String))
  | [], deleted, skipped => .ok (deleted, skipped)
  | id :: ids, deleted, skipped =>
    match L.own user id with
    | none => bulkDelete accounts L user ids deleted (skipped ++ [(id, "not_found")])
    | some t =>
      match accounts.find? fun a => a.id = t.account with
      | none => .error .serverError
      | some account =>
        match account.assertAccountMutable with
        | .error _ =>
          bulkDelete accounts L user ids deleted (skipped ++ [(id, "account_not_mutable")])
        | .ok () =>
          if id ∈ deleted then .error .serverError
          else bulkDelete accounts L user ids (deleted ++ [id]) skipped

/-- `TransactionBulkDeleteView.post`. There are no `ids` if the serializer rejects the body. -/
def bulkDeleteTransactions (accounts : List BankAccount) (L : Ledger) (user : UserId)
    (ids : Option (List TransactionId)) :
    Except ApiError (List TransactionId × List (TransactionId × String)) :=
  match ids with
  | none | some [] => .error .validation
  | some ids => bulkDelete accounts L user ids [] []

/-! ## The requests -/

/-- The patched fields meet `_EMBEDDING_RELEVANT_FIELDS`. -/
def TransactionPatch.feedsEmbedding (p : TransactionPatch) : Bool :=
  p.category.isSome || p.merchantRaw.isSome || p.amount.isSome || p.transactionDate.isSome

/-- What users can ask for of accounts, transactions and statements. -/
inductive UserRequest where
  | patchAccount (user : UserId) (id : AccountId) (body : AccountBody)
  | deleteAccount (user : UserId) (id : AccountId)
  | postTransaction (user : UserId) (accountId : Option AccountId) (data : TransactionWrite)
  | patchTransaction (user : UserId) (id : TransactionId) (p : TransactionPatch)
  | deleteTransaction (user : UserId) (id : TransactionId)
  | bulkDelete (user : UserId) (ids : Option (List TransactionId))
  | approve (user : UserId) (statementId : StatementId) (accountId : Option AccountId)
      (transactions : List TransactionApprovalItem)

/-- An edit of the category of a transaction. -/
def UserRequest.Recategorizes (id : TransactionId) : UserRequest → Prop
  | .patchTransaction _ i p => i = id ∧ p.category.isSome
  | _ => False

namespace UserBooks

/-- `embed_transactions`, if it does not raise : it writes the vectors, or nothing if a row is
missing. -/
def embed (B : UserBooks) (ids : List TransactionId) :
    Option (TransactionId → Embedding) → UserBooks
  | none => B
  | some v =>
    if ∀ id ∈ ids, id ∈ B.ledger.map Transaction.id then
      { B with embedding := fun id => if id ∈ ids then some (v id) else B.embedding id }
    else B

/-- The rows that satisfy `gone` are deleted. -/
def dropTransactions (B : UserBooks) (gone : Transaction → Bool) : UserBooks :=
  { B with
    ledger := B.ledger.filter fun t => !gone t
    embedding := fun id =>
      if ∃ t ∈ B.ledger, t.id = id ∧ gone t then none else B.embedding id }

/-- The row of the statement is saved. -/
def saveStatement (B : UserBooks) (s : StatementFile) : UserBooks :=
  { B with statements := B.statements.map fun u => if u.id = s.id then s else u }

/-- `on_delete` of the account of statements : `SET_NULL`. -/
def detachStatements (B : UserBooks) (id : AccountId) : UserBooks :=
  { B with statements := B.statements.map fun s =>
      if s.account = some id then { s with account := none } else s }

/-- The books after a request, where the AI service answers `answer`. One that fails leaves the
rows alone, but for the account that an approval has set on the statement. -/
def handle (sp : Spelling) (tax : Taxonomy) (B : UserBooks)
    (answer : Option (TransactionId → Embedding)) : UserRequest → UserBooks
  | .patchAccount user id body =>
    match NbeAdvisor.patchAccount sp B.accounts user id body with
    | .error _ => B
    | .ok a => { B with accounts := Keyed.modify (·.id) a.id (fun _ => a) B.accounts }
  | .deleteAccount user id =>
    match NbeAdvisor.deleteAccount B.accounts user id with
    | .error _ => B
    | .ok a =>
      { (B.detachStatements a.id).dropTransactions fun t => t.account = a.id with
        accounts := B.accounts.filter fun b => b.id ≠ a.id }
  | .postTransaction user accountId data =>
    match NbeAdvisor.postTransaction (B.accounts.map (·.toBankAccount)) B.ledger user accountId data with
    | .error _ => B
    | .ok row => { B with ledger := B.ledger ++ [row] }.embed [row.id] answer
  | .patchTransaction user id p =>
    match NbeAdvisor.patchTransaction (B.accounts.map (·.toBankAccount)) B.ledger user id p with
    | .error _ => B
    | .ok (L, _) =>
      if p.feedsEmbedding then { B with ledger := L }.embed [id] answer else { B with ledger := L }
  | .deleteTransaction user id =>
    match NbeAdvisor.deleteTransaction (B.accounts.map (·.toBankAccount)) B.ledger user id with
    | .error _ => B
    | .ok t => B.dropTransactions fun u => u.id = t.id
  | .bulkDelete user ids =>
    match bulkDeleteTransactions (B.accounts.map (·.toBankAccount)) B.ledger user ids with
    | .error _ => B
    | .ok (deleted, _) => B.dropTransactions fun t => t.id ∈ deleted
  | .approve user statementId accountId transactions =>
    match B.statements.find? fun s => s.id = statementId ∧ s.user = user with
    | none => B
    | some s =>
      match approveTransactions tax (B.accounts.map (·.toBankAccount)) s B.ledger accountId
          transactions with
      | (s', L, r) =>
        { B.saveStatement s' with ledger := L }.embed
          ((r.toOption.getD []).filterMap ApprovalResult.transactionId) answer

/-- The requests in turn, each with the answer of the AI service to it. -/
def run (sp : Spelling) (tax : Taxonomy) (B : UserBooks)
    (rs : List (UserRequest × Option (TransactionId → Embedding))) : UserBooks :=
  rs.foldl (fun B r => B.handle sp tax r.2 r.1) B

/-! ## The synced rows -/

/-- The accounts that are linked to a bank. -/
def syncedAccounts (B : UserBooks) : List AccountRow := B.accounts.filter fun a => a.isSynced

/-- The transaction is in a synced account. -/
def InSynced (B : UserBooks) (t : Transaction) : Prop := ∃ a ∈ B.syncedAccounts, a.id = t.account

instance (B : UserBooks) : DecidablePred B.InSynced := fun t => by
  unfold InSynced
  infer_instance

/-- The rows of these accounts. -/
def syncedTransactions (B : UserBooks) : List Transaction := B.ledger.filter fun t => B.InSynced t

end UserBooks

/-- The columns of a transaction that are not the user's to edit. -/
def Transaction.frozen (t : Transaction) : Transaction :=
  { t with category := none, isRecurring := false }

section Kept

variable {sp : Spelling} {tax : Taxonomy} {B B₁ B' : UserBooks}
  {answer : Option (TransactionId → Embedding)} {a : AccountRow} {t : Transaction}

/-- Where a manual entry goes. -/
theorem postTransaction_account {accounts : List BankAccount} {L : Ledger} {user : UserId}
    {accountId : Option AccountId} {data : TransactionWrite} {row : Transaction}
    (h : postTransaction accounts L user accountId data = .ok row) :
    ∃ a ∈ accounts, a.linkType = .manual ∧ row.account = a.id := by
  unfold postTransaction at h
  split at h
  · cases h
  split at h
  · cases h
  next account ha =>
  split at h
  · cases h
  next hmut =>
  split_ifs at h
  split at h
  · cases h
  split at h
  · cases h
  next hc =>
  cases h
  obtain ⟨-, -, rfl⟩ := Ledger.create_eq_ok.1 hc
  exact ⟨account, List.mem_of_find?_eq_some ha, assertAccountMutable_eq_ok hmut, rfl⟩

/-- Where an approval goes. -/
theorem approveTransactions_appends (accounts : List BankAccount) (s : StatementFile) (L : Ledger)
    (accountId : Option AccountId) (transactions : List TransactionApprovalItem) :
    ∃ new : List Transaction,
      (approveTransactions tax accounts s L accountId transactions).2.1 = L ++ new ∧
      (∀ t ∈ new, ∃ a ∈ accounts, a.linkType = .manual ∧ t.account = a.id) ∧
      ((approveTransactions tax accounts s L accountId transactions).2.2.toOption.getD []).filterMap
        ApprovalResult.transactionId = new.map (·.id) := by
  have hnone : ∀ e : ApiError, ∃ new : List Transaction, L = L ++ new ∧
      (∀ t ∈ new, ∃ a ∈ accounts, a.linkType = .manual ∧ t.account = a.id) ∧
      ((Except.error e : Except ApiError (List ApprovalResult)).toOption.getD []).filterMap
        ApprovalResult.transactionId = new.map (·.id) :=
    fun _ => ⟨[], by simp, by simp, rfl⟩
  unfold approveTransactions
  split
  · exact hnone _
  split
  · exact hnone _
  split
  · exact hnone _
  next confirmed account hconfirm =>
  split
  · exact hnone _
  next hmut =>
  split
  · exact hnone _
  next hrows =>
  obtain ⟨new, hnew, hof, hids⟩ := approveRows_appends hrows
  refine ⟨new, hnew, fun t ht => ⟨account, ?_, assertAccountMutable_eq_ok hmut, hof t ht⟩, hids⟩
  unfold StatementFile.confirmAccount at hconfirm
  split at hconfirm
  · split at hconfirm
    · cases hconfirm
    next ha =>
    cases hconfirm
    obtain ⟨id, -, hfound⟩ := Option.bind_eq_some_iff.1 ha
    exact List.mem_of_find?_eq_some hfound
  · split at hconfirm
    · cases hconfirm
    next ha =>
    cases hconfirm
    exact List.mem_of_find?_eq_some ha

/-- What a DELETE has deleted is of a manual account. -/
theorem deleteTransaction_eq_ok {accounts : List BankAccount} {L : Ledger} {user : UserId}
    {id : TransactionId} (h : deleteTransaction accounts L user id = .ok t) :
    t ∈ L ∧ ∃ a ∈ accounts, a.linkType = .manual ∧ t.account = a.id := by
  unfold deleteTransaction at h
  split at h
  · cases h
  next ht =>
  split at h
  · cases h
  next account ha =>
  split at h
  · cases h
  next hmut =>
  cases h
  have hid := List.find?_some ha
  exact ⟨List.mem_of_find?_eq_some ht, account, List.mem_of_find?_eq_some ha,
    assertAccountMutable_eq_ok hmut, (of_decide_eq_true hid).symm⟩

/-- What a bulk deletion deletes. -/
theorem bulkDelete_deleted {accounts : List BankAccount} {L : Ledger} {user : UserId} :
    ∀ {ids deleted deleted' : List TransactionId} {skipped skipped' : List (TransactionId × String)},
      bulkDelete accounts L user ids deleted skipped = .ok (deleted', skipped') →
      ∀ id ∈ deleted', id ∈ deleted ∨
        ∃ t ∈ L, t.id = id ∧ ∃ a ∈ accounts, a.linkType = .manual ∧ t.account = a.id
  | [], deleted, _, skipped, _, h, id, hid => by
    cases h
    exact Or.inl hid
  | i :: ids, deleted, deleted', skipped, skipped', h, id, hid => by
    unfold bulkDelete at h
    split at h
    · exact bulkDelete_deleted h id hid
    next t ht =>
    split at h
    · cases h
    next account ha =>
    split at h
    · exact bulkDelete_deleted h id hid
    next hmut =>
    split_ifs at h
    have hfound := List.find?_some ha
    have hown := List.find?_some ht
    rcases bulkDelete_deleted h id hid with hid | hrest
    · rcases List.mem_append.1 hid with hid | hid
      · exact Or.inl hid
      · refine Or.inr ⟨t, List.mem_of_find?_eq_some ht, ?_, account, List.mem_of_find?_eq_some ha,
          assertAccountMutable_eq_ok hmut, (of_decide_eq_true hfound).symm⟩
        exact (of_decide_eq_true hown).1.trans (List.mem_singleton.1 hid).symm
    · exact Or.inr hrest

/-! ## What a request leaves -/

/-- The primary keys. -/
structure UserBooks.Keys (B : UserBooks) : Prop where
  accounts : (B.accounts.map (·.id)).Nodup
  transactions : (B.ledger.map Transaction.id).Nodup

/-- The synced accounts are the same, and the transactions in them but for what the user may
edit. Only those of `touched` may be embedded anew. -/
structure UserBooks.Leaves (touched : TransactionId → Prop) (B B' : UserBooks) : Prop where
  accounts : B'.syncedAccounts = B.syncedAccounts
  transactions : B'.syncedTransactions.map Transaction.frozen =
    B.syncedTransactions.map Transaction.frozen
  embedding : ∀ id ∈ B.syncedTransactions.map Transaction.id, ¬touched id →
    B'.embedding id = B.embedding id

namespace UserBooks

variable {touched : TransactionId → Prop}

/-- Nothing is touched. -/
theorem Leaves.refl (touched : TransactionId → Prop) (B : UserBooks) : B.Leaves touched B :=
  ⟨rfl, rfl, fun _ _ _ => rfl⟩

/-- What is frozen includes the ids. -/
theorem map_id_syncedTransactions
    (h : B'.syncedTransactions.map Transaction.frozen = B.syncedTransactions.map Transaction.frozen) :
    B'.syncedTransactions.map Transaction.id = B.syncedTransactions.map Transaction.id := by
  have hids := congrArg (List.map Transaction.id) h
  rwa [List.map_map, List.map_map] at hids

/-- What two requests touch. -/
theorem Leaves.trans {touched' : TransactionId → Prop} (h : B.Leaves touched B₁)
    (h' : B₁.Leaves touched' B') : B.Leaves (fun id => touched id ∨ touched' id) B' where
  accounts := h'.accounts.trans h.accounts
  transactions := h'.transactions.trans h.transactions
  embedding id hid hno := by
    have hid₁ : id ∈ B₁.syncedTransactions.map Transaction.id := by
      rwa [map_id_syncedTransactions h.transactions]
    exact (h'.embedding id hid₁ fun ht => hno (Or.inr ht)).trans
      (h.embedding id hid fun ht => hno (Or.inl ht))

/-- With the same synced accounts, the transactions in them are found by the same filter. -/
theorem Leaves.of_filter (hacc : B'.syncedAccounts = B.syncedAccounts)
    (htx : (B'.ledger.filter fun t => B.InSynced t).map Transaction.frozen =
      (B.ledger.filter fun t => B.InSynced t).map Transaction.frozen)
    (hemb : ∀ id ∈ B.syncedTransactions.map Transaction.id, ¬touched id →
      B'.embedding id = B.embedding id) : B.Leaves touched B' where
  accounts := hacc
  transactions := by
    have hsame : ∀ t, B'.InSynced t ↔ B.InSynced t := fun t => by
      rw [InSynced, InSynced, hacc]
    simpa only [syncedTransactions, hsame] using htx
  embedding := hemb

/-- A transaction in a manual account is in no synced one. -/
theorem not_inSynced (hB : B.Keys) (ha : a ∈ B.accounts) (hmanual : a.linkType = .manual)
    (ht : t.account = a.id) : ¬B.InSynced t := by
  rintro ⟨b, hb, hid⟩
  obtain ⟨hb, hsynced⟩ := List.mem_filter.1 hb
  obtain rfl := Keyed.eq_of_pk hB.accounts hb ha (hid.trans ht)
  simp [BankAccount.isSynced, hmanual] at hsynced

/-- What is known of an account of a view, for its row. -/
theorem not_inSynced_of_view (hB : B.Keys)
    (h : ∃ a ∈ B.accounts.map (·.toBankAccount), a.linkType = .manual ∧ t.account = a.id) :
    ¬B.InSynced t := by
  obtain ⟨b, hb, hmanual, hacc⟩ := h
  obtain ⟨a, ha, rfl⟩ := List.mem_map.1 hb
  exact not_inSynced hB ha hmanual hacc

/-- Deleting transactions that are in no synced account. -/
theorem leaves_dropTransactions (hB : B.Keys) {gone : Transaction → Bool}
    (hgone : ∀ t ∈ B.ledger, gone t → ¬B.InSynced t) :
    (B.dropTransactions gone).Keys ∧ B.Leaves touched (B.dropTransactions gone) := by
  refine ⟨⟨hB.accounts, hB.transactions.sublist (List.filter_sublist.map _)⟩,
    .of_filter rfl ?_ fun id hid _ => ?_⟩
  · simp only [dropTransactions, List.filter_filter]
    refine congrArg (List.map Transaction.frozen) (List.filter_congr fun t ht => ?_)
    by_cases hs : B.InSynced t
    · have hstays : gone t = false := by
        by_contra hg
        exact hgone t ht (by simpa using hg) hs
      simp [hs, hstays]
    · simp [hs]
  · obtain ⟨t, ht, rfl⟩ := List.mem_map.1 hid
    obtain ⟨ht, hs⟩ := List.mem_filter.1 ht
    refine if_neg ?_
    rintro ⟨u, hu, huid, hug⟩
    obtain rfl := Keyed.eq_of_pk hB.transactions hu ht huid
    exact hgone u hu hug (of_decide_eq_true hs)

@[simp] theorem embed_accounts (B : UserBooks) (ids : List TransactionId) :
    (B.embed ids answer).accounts = B.accounts := by
  unfold embed
  split
  · rfl
  split
  · rfl
  · rfl

@[simp] theorem embed_ledger (B : UserBooks) (ids : List TransactionId) :
    (B.embed ids answer).ledger = B.ledger := by
  unfold embed
  split
  · rfl
  split
  · rfl
  · rfl

@[simp] theorem embed_nil (B : UserBooks) : B.embed [] answer = B := by
  cases answer with
  | none => rfl
  | some v => simp [embed]

/-- Embeddings leave the keys. -/
theorem Keys.embed (h : B.Keys) (ids : List TransactionId) : (B.embed ids answer).Keys :=
  ⟨by rw [embed_accounts]; exact h.accounts, by rw [embed_ledger]; exact h.transactions⟩

/-- Other rows keep their embedding. -/
theorem embed_embedding {ids : List TransactionId} {id : TransactionId} (h : id ∉ ids) :
    (B.embed ids answer).embedding id = B.embedding id := by
  unfold embed
  split
  · rfl
  split
  · exact if_neg h
  · rfl

/-- Rows that are added in manual accounts, and embedded. -/
theorem leaves_append (hB : B.Keys) {new : List Transaction} (hacc : B₁.accounts = B.accounts)
    (hemb : B₁.embedding = B.embedding) (hL : B₁.ledger = B.ledger ++ new)
    (hadded : Added B.ledger B₁.ledger)
    (hnew : ∀ t ∈ new, ¬B.InSynced t) {ids : List TransactionId} (hids : ids = new.map (·.id)) :
    (B₁.embed ids answer).Keys ∧ B.Leaves touched (B₁.embed ids answer) := by
  have hnd := hadded.nodup_ids hB.transactions
  refine ⟨⟨by rw [embed_accounts, hacc]; exact hB.accounts, by rwa [embed_ledger]⟩,
    .of_filter (by rw [syncedAccounts, embed_accounts, hacc]; rfl) ?_ fun id hid _ => ?_⟩
  · have hnil : (new.filter fun t => B.InSynced t) = [] :=
      List.filter_eq_nil_iff.2 fun t ht hs => hnew t ht (of_decide_eq_true hs)
    rw [embed_ledger, hL, List.filter_append, hnil, List.append_nil]
  · rw [embed_embedding, hemb]
    rw [hL, List.map_append, List.nodup_append] at hnd
    obtain ⟨t, ht, rfl⟩ := List.mem_map.1 hid
    rw [hids]
    exact fun hmem => hnd.2.2 _ (List.mem_map_of_mem (List.mem_of_mem_filter ht)) _ hmem rfl

/-- A row is written in place of one in the same account, with the same frozen columns if that
is a synced one. -/
theorem map_frozen_write {L : Ledger} {row : Transaction} {p : Transaction → Bool}
    (h : ∀ u ∈ L, u.id = row.id → p row = p u ∧ (p u → row.frozen = u.frozen)) :
    ((L.write row).filter p).map Transaction.frozen = (L.filter p).map Transaction.frozen := by
  unfold Ledger.write
  induction L with
  | nil => rfl
  | cons u L ih =>
    have hrest := ih fun v hv => h v (List.mem_cons_of_mem _ hv)
    rw [List.map_cons, List.filter_cons, List.filter_cons]
    by_cases hid : u.id = row.id
    · obtain ⟨hp, hf⟩ := h u List.mem_cons_self hid
      rw [if_pos hid, hp]
      split_ifs with hu
      · rw [List.map_cons, List.map_cons, hf hu, hrest]
      · exact hrest
    · rw [if_neg hid]
      split_ifs
      · rw [List.map_cons, List.map_cons, hrest]
      · exact hrest

end UserBooks

/-- An edit that goes through is one of a synced transaction, or of one in a manual account. -/
theorem editTransaction_eq_ok {accounts : List BankAccount} {p : TransactionPatch}
    {d : TransactionDraft} (h : editTransaction accounts t p = .ok d) :
    (p.disallowedFields = [] ∧ d = p.editSynced t.toTransactionDraft) ∨
      (d.account = t.account ∧ ∃ a ∈ accounts, a.linkType = .manual ∧ t.account = a.id) := by
  unfold editTransaction at h
  split at h
  · split at h
    · next hnone =>
      cases h
      exact Or.inl ⟨hnone, rfl⟩
    · cases h
  split at h
  · cases h
  next account ha =>
  split at h
  · cases h
  next hmut =>
  split at h
  · cases h
    have hid := List.find?_some ha
    exact Or.inr ⟨rfl, account, List.mem_of_find?_eq_some ha, assertAccountMutable_eq_ok hmut,
      (of_decide_eq_true hid).symm⟩
  · cases h

/-- Of the fields that a synced transaction takes, the category is the one that is embedded. -/
theorem TransactionPatch.category_of_feedsEmbedding {p : TransactionPatch}
    (h : p.disallowedFields = []) (hfeeds : p.feedsEmbedding) : p.category.isSome := by
  have hnot : ∀ name ∈ p.fieldNames, name = "category" ∨ name = "is_recurring" := by
    intro name hname
    have hin := List.filter_eq_nil_iff.1 h name hname
    simpa only [decide_eq_true_eq, not_not, List.mem_cons, List.not_mem_nil, or_false] using hin
  unfold fieldNames at hnot
  unfold feedsEmbedding at hfeeds
  by_contra hno
  rcases hm : p.merchantRaw.isSome with _ | _
  · rcases ha : p.amount.isSome with _ | _
    · rcases hd : p.transactionDate.isSome with _ | _
      · simp [hm, ha, hd] at hfeeds
        exact hno hfeeds
      · simpa using hnot "transaction_date" (by simp [hd])
    · simpa using hnot "amount" (by simp [ha])
  · simpa using hnot "merchant_raw" (by simp [hm])

namespace UserBooks

/-- A PATCH of a transaction. -/
theorem leaves_patchTransaction (hB : B.Keys) {user : UserId} {id : TransactionId}
    {p : TransactionPatch} {L : Ledger} {row : Transaction}
    (h : patchTransaction (B.accounts.map (·.toBankAccount)) B.ledger user id p = .ok (L, row)) :
    Keys { B with ledger := L } ∧ ∀ ids, ids = [] ∨ (p.feedsEmbedding ∧ ids = [id]) →
      B.Leaves (fun i => id = i ∧ p.category.isSome) ({ B with ledger := L }.embed ids answer) := by
  obtain ⟨t, d, hown, hedit, rfl, -, rfl⟩ := patchTransaction_ledger h
  have hfound := List.find?_some hown
  obtain ⟨rfl, -⟩ := of_decide_eq_true hfound
  have ht : t ∈ B.ledger := List.mem_of_find?_eq_some hown
  have hrow : ∀ u ∈ B.ledger, u.id = t.id → u = t := fun u hu hid =>
    Keyed.eq_of_pk hB.transactions hu ht hid
  have hkeys : Keys { B with ledger := B.ledger.write ⟨d, t.id⟩ } := by
    refine ⟨hB.accounts, ?_⟩
    have hids : (B.ledger.write ⟨d, t.id⟩).map Transaction.id = B.ledger.map Transaction.id :=
      Keyed.map_pk_modify fun _ _ => rfl
    exact hids ▸ hB.transactions
  have hcase : (p.disallowedFields = [] ∧ B.InSynced ⟨d, t.id⟩ = B.InSynced t ∧
      Transaction.frozen ⟨d, t.id⟩ = t.frozen) ∨ (¬B.InSynced ⟨d, t.id⟩ ∧ ¬B.InSynced t) := by
    rcases editTransaction_eq_ok hedit with ⟨hnone, rfl⟩ | ⟨hacc, hview⟩
    · exact Or.inl ⟨hnone, rfl, rfl⟩
    · exact Or.inr ⟨not_inSynced_of_view hB (hacc ▸ hview), not_inSynced_of_view hB hview⟩
  refine ⟨hkeys, fun ids hids => .of_filter (by rw [syncedAccounts, embed_accounts]; rfl) ?_ ?_⟩
  · rw [embed_ledger]
    refine map_frozen_write fun u hu hid => ?_
    obtain rfl := hrow u hu hid
    rcases hcase with ⟨-, hin, hf⟩ | ⟨hd, ht⟩
    · exact ⟨decide_eq_decide.2 (Iff.of_eq hin), fun _ => hf⟩
    · exact ⟨by simp [hd, ht], fun hs => (ht (of_decide_eq_true hs)).elim⟩
  · intro i hi hno
    rw [embed_embedding]
    rcases hids with rfl | ⟨hfeeds, rfl⟩
    · simp
    · intro hmem
      obtain rfl := List.mem_singleton.1 hmem
      obtain ⟨u, hu, huid⟩ := List.mem_map.1 hi
      obtain ⟨hu, hs⟩ := List.mem_filter.1 hu
      obtain rfl := hrow u hu huid
      rcases hcase with ⟨hnone, -, -⟩ | ⟨-, hout⟩
      · exact hno ⟨rfl, TransactionPatch.category_of_feedsEmbedding hnone hfeeds⟩
      · exact hout (of_decide_eq_true hs)

/-- What a request leaves, whoever sends it and whatever the AI service answers. -/
theorem handle_leaves (hB : B.Keys) (r : UserRequest) :
    (B.handle sp tax answer r).Keys ∧
      B.Leaves (fun id => r.Recategorizes id) (B.handle sp tax answer r) := by
  have hsame : B.Keys ∧ B.Leaves (fun id => r.Recategorizes id) B := ⟨hB, .refl _ B⟩
  cases r with
  | patchAccount user id body =>
    simp only [handle]
    split
    · exact hsame
    next a' hpatch =>
    obtain ⟨a, ha, hmanual, -, hedit⟩ := patchAccount_eq_ok hpatch
    obtain ⟨hid, -, hl, -⟩ := AccountBody.edit_eq_some hedit
    have hacc : (Keyed.modify (·.id) a'.id (fun _ => a') B.accounts).filter (fun a => a.isSynced) =
        B.syncedAccounts := by
      refine Keyed.filter_modify fun b hb hba => ?_
      obtain rfl := Keyed.eq_of_pk hB.accounts hb (ownRow_eq_some ha).1 (hba.trans hid)
      simp [BankAccount.isSynced, hmanual, hl]
    refine ⟨⟨?_, hB.transactions⟩, .of_filter hacc rfl fun _ _ _ => rfl⟩
    rw [Keyed.map_pk_modify (f := fun _ => a') fun _ _ => rfl]
    exact hB.accounts
  | deleteAccount user id =>
    simp only [handle]
    split
    · exact hsame
    next a hdelete =>
    obtain ⟨ha, -, hmanual⟩ := deleteAccount_eq_ok hdelete
    have hdrop : (B.dropTransactions fun t => t.account = a.id).Keys ∧
        B.Leaves (fun _ => False) (B.dropTransactions fun t => t.account = a.id) :=
      leaves_dropTransactions hB fun t _ hgone =>
        not_inSynced hB ha hmanual (of_decide_eq_true hgone)
    have hacc : (B.accounts.filter fun b => b.id ≠ a.id).filter (fun b => b.isSynced) =
        B.syncedAccounts := by
      rw [List.filter_filter]
      refine List.filter_congr fun b hb => ?_
      by_cases hba : b.id = a.id
      · obtain rfl := Keyed.eq_of_pk hB.accounts hb ha hba
        simp [BankAccount.isSynced, hmanual]
      · simp [hba]
    exact ⟨⟨hB.accounts.sublist (List.filter_sublist.map _), hdrop.1.transactions⟩,
      .of_filter hacc hdrop.2.transactions fun id hid _ => hdrop.2.embedding id hid not_false⟩
  | postTransaction user accountId data =>
    simp only [handle]
    split
    · exact hsame
    next row hpost =>
    have hout : ∀ t ∈ [row], ¬B.InSynced t := fun t ht => by
      rw [List.mem_singleton.1 ht]
      exact not_inSynced_of_view hB (postTransaction_account hpost)
    refine leaves_append hB ?_ ?_ ?_ ?_ hout ?_
    · rfl
    · rfl
    · rfl
    · exact postTransaction_added hpost
    · rfl
  | patchTransaction user id p =>
    simp only [handle]
    split
    · exact hsame
    next L row hpatch =>
    obtain ⟨hkeys, hleaves⟩ := leaves_patchTransaction hB hpatch
    split
    · next hfeeds => exact ⟨hkeys.embed _, hleaves [id] (Or.inr ⟨hfeeds, rfl⟩)⟩
    · exact ⟨hkeys, @embed_nil answer { B with ledger := L } ▸ hleaves [] (Or.inl rfl)⟩
  | deleteTransaction user id =>
    simp only [handle]
    split
    · exact hsame
    next t hdelete =>
    obtain ⟨ht, hview⟩ := deleteTransaction_eq_ok hdelete
    refine leaves_dropTransactions hB fun u hu hgone => ?_
    obtain rfl := Keyed.eq_of_pk hB.transactions hu ht (of_decide_eq_true hgone)
    exact not_inSynced_of_view hB hview
  | bulkDelete user ids =>
    simp only [handle]
    split
    · exact hsame
    next deleted skipped hdelete =>
    have hdeleted : ∀ id ∈ deleted, ∃ t ∈ B.ledger, t.id = id ∧
        ∃ a ∈ B.accounts.map (·.toBankAccount), a.linkType = .manual ∧ t.account = a.id := by
      intro id hid
      unfold bulkDeleteTransactions at hdelete
      split at hdelete
      · cases hdelete
      · cases hdelete
      · exact (bulkDelete_deleted hdelete id hid).resolve_left List.not_mem_nil
    refine leaves_dropTransactions hB fun u hu hgone => ?_
    obtain ⟨t, ht, hid, hview⟩ := hdeleted u.id (of_decide_eq_true hgone)
    obtain rfl := Keyed.eq_of_pk hB.transactions hu ht hid.symm
    exact not_inSynced_of_view hB hview
  | approve user statementId accountId transactions =>
    simp only [handle]
    split
    · exact hsame
    next s hs =>
    obtain ⟨new, hL, hview, hids⟩ := @approveTransactions_appends tax
      (B.accounts.map (·.toBankAccount)) s B.ledger accountId transactions
    refine leaves_append hB ?_ ?_ hL (approveTransactions_added s accountId transactions)
      (fun t ht => not_inSynced_of_view hB (hview t ht)) hids
    · rfl
    · rfl

/-- Requests leave synced accounts and their rows, but for the embeddings that they renew. -/
theorem run_leaves (hB : B.Keys) (rs : List (UserRequest × Option (TransactionId → Embedding))) :
    B.Leaves (fun id => ∃ r ∈ rs, r.1.Recategorizes id) (B.run sp tax rs) := by
  induction rs generalizing B with
  | nil => exact .refl _ B
  | cons r rs ih =>
    obtain ⟨hkeys, hone⟩ := @handle_leaves sp tax B r.2 hB r.1
    have hall := hone.trans (ih hkeys)
    refine ⟨hall.accounts, hall.transactions, fun id hid hno => hall.embedding id hid ?_⟩
    rintro (hr | ⟨q, hq, hqr⟩)
    · exact hno ⟨r, List.mem_cons_self, hr⟩
    · exact hno ⟨q, List.mem_cons_of_mem _ hq, hqr⟩

end UserBooks

end Kept

/-- After any requests of any users, the synced accounts are the same, the transactions in them
are there with all columns but the category and the recurring flag, and the embedding of one
is the same unless its category has been edited. -/
theorem syncedRows_kept (sp : Spelling) (tax : Taxonomy) {B : UserBooks} (hB : B.Keys)
    (rs : List (UserRequest × Option (TransactionId → Embedding))) :
    (B.run sp tax rs).syncedAccounts = B.syncedAccounts ∧
      (B.run sp tax rs).syncedTransactions.map Transaction.frozen =
        B.syncedTransactions.map Transaction.frozen ∧
      ∀ id ∈ B.syncedTransactions.map Transaction.id, (∀ r ∈ rs, ¬r.1.Recategorizes id) →
        (B.run sp tax rs).embedding id = B.embedding id := by
  obtain ⟨hacc, htx, hemb⟩ := @UserBooks.run_leaves sp tax B hB rs
  exact ⟨hacc, htx, fun id hid hno => hemb id hid fun ⟨r, hr, hrecat⟩ => hno r hr hrecat⟩

/-- A synced account with one transaction. -/
def coffeeBooks : UserBooks where
  accounts := [{ syncedAccount with connection := some 1, externalAccountId := some "acc-1" }]
  ledger := [⟨{ user := 1, account := 5, transactionDate := paymentDay, merchantRaw := some "Cilantro"
                category := none, amount := 6500, source := .synced
                transactionType := some "debit" }, 1⟩]

/-- The keys are distinct. -/
theorem coffeeBooks_keys : coffeeBooks.Keys := ⟨by decide, by decide⟩

/-- The user cannot delete the account, nor change the amount. -/
theorem syncedRows_kept_coffee :
    (coffeeBooks.run ⟨id, id⟩ noTaxonomy [(.deleteAccount 1 5, none),
      (.patchTransaction 1 1 { amount := some 100 }, none)]).syncedAccounts =
      coffeeBooks.syncedAccounts :=
  (syncedRows_kept ⟨id, id⟩ noTaxonomy coffeeBooks_keys _).1

/-- He gives the transaction a category, and it is embedded anew. -/
theorem edit_reembeds :
    ¬∀ (sp : Spelling) (tax : Taxonomy) (B : UserBooks)
      (rs : List (UserRequest × Option (TransactionId → Embedding))), B.Keys →
      (B.run sp tax rs).syncedAccounts = B.syncedAccounts ∧
        (B.run sp tax rs).syncedTransactions.map Transaction.frozen =
          B.syncedTransactions.map Transaction.frozen ∧
        ∀ id ∈ B.syncedTransactions.map Transaction.id,
          (B.run sp tax rs).embedding id = B.embedding id := by
  intro h
  have hsame := (h ⟨id, id⟩ noTaxonomy coffeeBooks
    [(.patchTransaction 1 1 { category := some (some 3) }, some fun _ => [])] coffeeBooks_keys).2.2 1
    (by decide)
  exact absurd hsame (by decide)

end NbeAdvisor
