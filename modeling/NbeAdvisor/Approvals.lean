import NbeAdvisor.SyncedReadOnly

/-!
# What an approval resolves

The results of an approval stand beside the submitted rows, in their order. A row whose key is
new is inserted, and a later row of the same key, as well as a row whose key the ledger had, names
the row that has it. An approved statement stays approved along the requests that follow, so
none of them approves it again.

The serializer looks into the texts of a row, but not into the JSON of its extra fields, and `jsonb`
may refuse a row that is to be inserted. Then nothing is approved. This is the only way for a valid
batch not to be resolved (`approval_resolves_iff`).
-/

namespace NbeAdvisor

/-- The result stands for the row : inserted as one of `created`, or a duplicate of a row. -/
def ApprovalResult.Resolves (L created : Ledger) (row : TransactionApprovalItem)
    (k : TransactionKey) (r : ApprovalResult) : Prop :=
  r.transactionDate = row.transactionDate ∧ r.merchantRaw = row.merchantRaw ∧
    r.amount = row.amount ∧
    ((r.duplicateOf = none ∧ ∃ t ∈ created, r.transactionId = some t.id ∧ t.key = k) ∨
      (r.transactionId = none ∧ ∃ t ∈ L ++ created, r.duplicateOf = some t.id ∧ t.key = k))

section Rows

variable {tax : Taxonomy} {statement : StatementFile} {account : BankAccount} {L : Ledger}
  {d : TransactionDraft} {ds : List TransactionDraft}

/-- The key of a submitted row. -/
def TransactionApprovalItem.key (statement : StatementFile) (account : BankAccount)
    (row : TransactionApprovalItem) : TransactionKey :=
  ⟨statement.user, account.id, row.transactionDate, row.amount, row.merchantRaw,
    row.transactionType⟩

/-- What resolves later resolves now. -/
theorem ApprovalResult.Resolves.cons {L created : Ledger} {t : Transaction}
    {row : TransactionApprovalItem} {k : TransactionKey} {r : ApprovalResult}
    (h : r.Resolves (L ++ [t]) created row k) : r.Resolves L (t :: created) row k := by
  obtain ⟨hdate, hmerchant, hamount, hcase⟩ := h
  refine ⟨hdate, hmerchant, hamount, hcase.imp ?_ ?_⟩
  · rintro ⟨hnone, u, hu, hrest⟩
    exact ⟨hnone, u, List.mem_cons_of_mem _ hu, hrest⟩
  · rintro ⟨hnone, u, hu, hrest⟩
    exact ⟨hnone, u, by simpa using hu, hrest⟩

/-- One result for each row, which inserts it exactly if its key comes for the first time. -/
structure ResolvesAll (tax : Taxonomy) (statement : StatementFile) (account : BankAccount)
    (L created : Ledger) (rows : List TransactionApprovalItem) (results : List ApprovalResult) :
    Prop where
  each : List.Forall₂ (fun row r => r.Resolves L created row (row.key statement account)) rows
    results
  inserted : ∀ (i : ℕ) (hi : i < results.length) (hi' : i < rows.length),
    results[i].transactionId.isSome = true ↔
      rows[i].key statement account ∉ L.keys ∧
        ∀ (j : ℕ) (hj : j < i), rows[j].key statement account ≠ rows[i].key statement account
  created : Ledger.drafts created =
    Ledger.ledgerTable.firsts L.keys (rows.map (·.draft tax statement account))

/-- An empty batch. -/
theorem ResolvesAll.nil (L : Ledger) : ResolvesAll tax statement account L [] [] [] where
  each := .nil
  inserted _ hi := nomatch hi
  created := rfl

/-- A row whose key is there. -/
theorem ResolvesAll.skip {L created : Ledger} {row : TransactionApprovalItem}
    {rows : List TransactionApprovalItem} {results : List ApprovalResult} {existing : Transaction}
    (h : ResolvesAll tax statement account L created rows results)
    (hk : L.lookup (row.draft tax statement account).key = some existing) :
    ResolvesAll tax statement account L created (row :: rows)
      (row.resolved none existing.id :: results) := by
  have hmem : row.key statement account ∈ L.keys := Ledger.mem_keys_of_lookup hk
  have hfound := List.find?_some hk
  have hkey : existing.key = row.key statement account := of_decide_eq_true hfound
  refine ⟨.cons ?_ h.each, ?_, ?_⟩
  · exact ⟨rfl, rfl, rfl, Or.inr ⟨rfl, existing,
      List.mem_append_left _ (List.mem_of_find?_eq_some hk), rfl, hkey⟩⟩
  · rintro (_ | i) hi hi'
    · simp [TransactionApprovalItem.resolved, hmem]
    · rw [List.getElem_cons_succ, List.getElem_cons_succ,
        h.inserted i (Nat.lt_of_succ_lt_succ hi) (Nat.lt_of_succ_lt_succ hi')]
      refine and_congr_right fun habs => ⟨fun hall => ?_, fun hall j hj => ?_⟩
      · rintro (_ | j) hj heq
        · exact habs (heq ▸ hmem)
        · exact hall j (Nat.lt_of_succ_lt_succ hj) heq
      · exact hall (j + 1) (Nat.succ_lt_succ hj)
  · exact h.created.trans (if_pos hmem).symm

/-- A row whose key is new. -/
theorem ResolvesAll.insert {L created : Ledger} {row : TransactionApprovalItem}
    {rows : List TransactionApprovalItem} {results : List ApprovalResult} {t : Transaction}
    (ht : t = ⟨row.draft tax statement account, L.freshId⟩)
    (h : ResolvesAll tax statement account (L ++ [t]) created rows results)
    (hk : L.lookup (row.draft tax statement account).key = none) :
    ResolvesAll tax statement account L (t :: created) (row :: rows)
      (row.resolved t.id none :: results) := by
  have habs : row.key statement account ∉ L.keys := Ledger.lookup_eq_none.1 hk
  have hkey : t.key = row.key statement account := by
    rw [ht]
    rfl
  have hkeys : Ledger.keys (L ++ [t]) = L.keys ++ [row.key statement account] := by
    rw [Ledger.keys_append, ← hkey]
    rfl
  refine ⟨.cons ?_ ?_, ?_, ?_⟩
  · exact ⟨rfl, rfl, rfl, Or.inl ⟨rfl, t, List.mem_cons_self, rfl, hkey⟩⟩
  · exact h.each.imp fun _ _ hr => hr.cons
  · rintro (_ | i) hi hi'
    · simp [TransactionApprovalItem.resolved, habs]
    · rw [List.getElem_cons_succ, List.getElem_cons_succ,
        h.inserted i (Nat.lt_of_succ_lt_succ hi) (Nat.lt_of_succ_lt_succ hi'), hkeys,
        List.mem_append, List.mem_singleton, not_or, and_assoc]
      refine and_congr_right fun _ => ⟨?_, fun hall => ⟨fun heq => ?_, fun j hj => ?_⟩⟩
      · rintro ⟨hne, hall⟩ (_ | j) hj heq
        · exact hne heq.symm
        · exact hall j (Nat.lt_of_succ_lt_succ hj) heq
      · exact hall 0 (Nat.succ_pos i) heq.symm
      · exact hall (j + 1) (Nat.succ_lt_succ hj)
  · have hrest := h.created
    rw [hkeys] at hrest
    refine Eq.trans ?_ (if_neg habs).symm
    rw [Ledger.drafts, List.map_cons, ← Ledger.drafts, hrest, ht]
    rfl

namespace ResolvesAll

variable {created : Ledger} {rows : List TransactionApprovalItem} {results : List ApprovalResult}

/-- The keys of the rows that are created are the new ones, each once. -/
theorem keys (h : ResolvesAll tax statement account L created rows results) :
    Ledger.keys created = (Ledger.ledgerTable.firsts L.keys
      (rows.map (·.draft tax statement account))).map TransactionDraft.key := by
  rw [← h.created, Ledger.keys_drafts]

end ResolvesAll

end Rows

/-! ## Once approved -/

namespace UserBooks

variable {sp : Spelling} {tax : Taxonomy} {B : UserBooks} {id : StatementId}
  {answer : Option (TransactionId → Embedding)}

@[simp] theorem embed_statements (B : UserBooks) (ids : List TransactionId) :
    (B.embed ids answer).statements = B.statements := by
  unfold embed
  split
  · rfl
  split
  · rfl
  · rfl

/-- The statement with this id is approved. -/
def Approved (B : UserBooks) (id : StatementId) : Prop :=
  ∀ s ∈ B.statements, s.id = id → s.status = .approved

/-- A save that leaves the statement approved. -/
theorem Approved.saveStatement {s : StatementFile} (h : B.Approved id)
    (hs : s.id = id → s.status = .approved) : (B.saveStatement s).Approved id := by
  intro u hu hid
  obtain ⟨v, hv, rfl⟩ := List.mem_map.1 hu
  split_ifs at hid ⊢
  · exact hs hid
  · exact h v hv hid

/-- The account of a statement has no part in it. -/
theorem Approved.detachStatements {a : AccountId} (h : B.Approved id) :
    (B.detachStatements a).Approved id := by
  intro u hu hid
  obtain ⟨v, hv, rfl⟩ := List.mem_map.1 hu
  split_ifs at hid ⊢
  · exact h v hv hid
  · exact h v hv hid

/-- An approval saves the statement that it has read. -/
theorem approveTransactions_statement (accounts : List BankAccount) (s : StatementFile) (L : Ledger)
    (accountId : Option AccountId) (transactions : List TransactionApprovalItem) :
    (approveTransactions tax accounts s L accountId transactions).1.id = s.id ∧
      (s.status = .approved →
        (approveTransactions tax accounts s L accountId transactions).1 = s) := by
  unfold approveTransactions awaitsApproval
  by_cases hs : s.status = .normalized
  · refine ⟨?_, fun happroved => by rw [hs] at happroved; cases happroved⟩
    simp only [hs, if_true]
    by_cases hvalid : ∀ row ∈ transactions, row.Valid
    swap
    · simp only [if_pos hvalid]
    rw [if_neg (not_not.2 hvalid)]
    split
    · rfl
    next confirmed account hconfirm =>
    have hid : confirmed.id = s.id := by rw [(StatementFile.confirmAccount_ok hconfirm).1]
    split
    · exact hid
    split
    · exact hid
    · exact hid
  · simp [hs]

/-- No request takes an approval back. -/
theorem Approved.handle (h : B.Approved id) (r : UserRequest) :
    (B.handle sp tax answer r).Approved id := by
  cases r with
  | patchAccount user account body =>
    simp only [UserBooks.handle]
    split
    · exact h
    · exact h
  | deleteAccount user account =>
    simp only [UserBooks.handle]
    split
    · exact h
    · exact h.detachStatements
  | postTransaction user account data =>
    simp only [UserBooks.handle]
    split
    · exact h
    · intro s hs
      rw [embed_statements] at hs
      exact h s hs
  | patchTransaction user t p =>
    simp only [UserBooks.handle]
    split
    · exact h
    split
    · intro s hs
      rw [embed_statements] at hs
      exact h s hs
    · exact h
  | deleteTransaction user t =>
    simp only [UserBooks.handle]
    split
    · exact h
    · exact h
  | bulkDelete user ids =>
    simp only [UserBooks.handle]
    split
    · exact h
    · exact h
  | approve user statementId account transactions =>
    simp only [UserBooks.handle]
    split
    · exact h
    next s hs =>
    have hmem := List.mem_of_find?_eq_some hs
    obtain ⟨hid, hsame⟩ := @approveTransactions_statement tax
      (B.accounts.map (·.toBankAccount)) s B.ledger account transactions
    intro u hu
    rw [embed_statements] at hu
    refine h.saveStatement (fun heq => ?_) u hu
    have happroved := h s hmem (hid.symm.trans heq)
    rw [hsame happroved]
    exact happroved

/-- Nor do any number of them. -/
theorem Approved.run (h : B.Approved id)
    (rs : List (UserRequest × Option (TransactionId → Embedding))) :
    (B.run sp tax rs).Approved id := by
  induction rs generalizing B with
  | nil => exact h
  | cons r rs ih => exact ih (h.handle r.1)

end UserBooks

end NbeAdvisor
