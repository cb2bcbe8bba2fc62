import NbeAdvisor.LedgerViews

/-!
# The keys of the ledger

All requests that write the ledger, one after another from an empty one. The law is that
no two rows have one key, where null equals null as in the duplicate lookup
(`TransactionKey` has decidable equality on `Option String`).

Rows that are added keep the law (`Lawful.added`). An edit keeps it if no other row has the
key that it writes (`Lawful.write`), and an ingest if no other row has the key that it stores. The
constraint sees to that for a key without nulls, and for the others it is the condition
`WritesClear` under which the law holds in every reachable state (`Books.keys_nodup`).
`edit_duplicates` is a run of each kind that breaks it.
-/

namespace NbeAdvisor

/-- The rows behind the requests. -/
structure Books where
  accounts : List BankAccount
  statements : List StatementFile
  ledger : Ledger

/-- A request or a task that is run to completion. `elsewhere` is anything that changes
accounts and statements and leaves the ledger alone. -/
inductive LedgerRequest where
  | post (user : UserId) (accountId : Option AccountId) (data : TransactionWrite)
  | patch (user : UserId) (id : TransactionId) (data : TransactionPatch)
  | approve (user : UserId) (statementId : StatementId) (accountId : Option AccountId)
      (transactions : List TransactionApprovalItem)
  | ingest (bankAccountId : AccountId) (transactions : List SyncedTransaction)
  | elsewhere (accounts : List BankAccount) (statements : List StatementFile)

namespace Books

variable {tax : Taxonomy} {B : Books}

/-- The statements with `s` in place of the one with its id. -/
def saveStatement (B : Books) (s : StatementFile) : List StatementFile :=
  B.statements.map fun u => if u.id = s.id then s else u

/-- What a request leaves. -/
def handle (tax : Taxonomy) (B : Books) : LedgerRequest → Books
  | .post user accountId data =>
    match postTransaction B.accounts B.ledger user accountId data with
    | .ok row => { B with ledger := B.ledger ++ [row] }
    | .error _ => B
  | .patch user id data =>
    match patchTransaction B.accounts B.ledger user id data with
    | .ok (L, _) => { B with ledger := L }
    | .error _ => B
  | .approve user statementId accountId transactions =>
    match B.statements.find? fun s => s.id = statementId ∧ s.user = user with
    | none => B
    | some s =>
      match approveTransactions tax B.accounts s B.ledger accountId transactions with
      | (s', L, _) => { B with statements := B.saveStatement s', ledger := L }
  | .ingest bankAccountId transactions =>
    { B with
      ledger := (ingestSyncedTransactions tax B.accounts B.ledger bankAccountId transactions).1 }
  | .elsewhere accounts statements => { B with accounts, statements }

/-- The requests in turn. -/
def run (tax : Taxonomy) (B : Books) (rs : List LedgerRequest) : Books := rs.foldl (handle tax) B

/-- From an empty ledger, any requests that meet `ok`. -/
inductive Reachable (tax : Taxonomy) (ok : Books → LedgerRequest → Prop) : Books → Prop where
  | start (accounts : List BankAccount) (statements : List StatementFile) :
      Reachable tax ok ⟨accounts, statements, []⟩
  | step {B : Books} {r : LedgerRequest} : Reachable tax ok B → ok B r →
      Reachable tax ok (B.handle tax r)

/-- Requests lead on to what is reachable. -/
theorem Reachable.run (h : Reachable tax (fun _ _ => True) B) (rs : List LedgerRequest) :
    Reachable tax (fun _ _ => True) (B.run tax rs) := by
  induction rs generalizing B with
  | nil => exact h
  | cons r rs ih => exact ih (h.step trivial)

/-- An edit that is let through and whose key has a null writes the key of no other row, and an
ingest stores no transaction that it has not found under such a key of another row. -/
def WritesClear (tax : Taxonomy) (B : Books) : LedgerRequest → Prop
  | .patch user id data => ∀ t ∈ B.ledger.own user id,
      ∀ d ∈ (editTransaction B.accounts t data).toOption, ¬d.key.Enforced →
        ∀ u ∈ B.ledger, u.id ≠ id → u.key ≠ d.key
  | .ingest bankAccountId transactions =>
    ∀ a ∈ B.accounts.find? fun a => a.id = bankAccountId,
      ingestClear tax a ⟨B.ledger, []⟩ transactions
  | _ => True

instance (tax : Taxonomy) (B : Books) : DecidablePred (B.WritesClear tax)
  | .patch user id data => by
    unfold WritesClear
    infer_instance
  | .ingest bankAccountId transactions => by
    unfold WritesClear
    infer_instance
  | .post _ _ _ | .approve _ _ _ _ | .elsewhere _ _ => .isTrue trivial

/-- What a request does to the ledger : it adds rows, or it writes one whose key no other
row has. -/
theorem handle_ledger (r : LedgerRequest) (hok : B.WritesClear tax r) :
    Added B.ledger (B.handle tax r).ledger ∨
      ∃ row : Transaction, (B.handle tax r).ledger = B.ledger.write row ∧
        ∀ u ∈ B.ledger, u.id ≠ row.id → u.key ≠ row.key := by
  cases r with
  | post user accountId data =>
    left
    simp only [handle]
    split
    · next h => exact postTransaction_added h
    · exact .refl _
  | patch user id data =>
    simp only [handle]
    split
    · next L row h =>
      obtain ⟨t, d, ht, hd, rfl, he, rfl⟩ := patchTransaction_ledger h
      refine Or.inr ⟨_, rfl, ?_⟩
      by_cases hk : d.key.Enforced
      · exact he hk
      · exact hok t ht d (by rw [hd]; rfl) hk
    · exact Or.inl (.refl _)
  | approve user statementId accountId transactions =>
    left
    simp only [handle]
    split
    · exact .refl _
    · exact approveTransactions_added _ _ _
  | ingest bankAccountId transactions => exact Or.inl (ingestSyncedTransactions_added hok)
  | elsewhere accounts statements => exact Or.inl (.refl _)

end Books

/-- No two rows have one key, and none one id. -/
structure Lawful (L : Ledger) : Prop where
  keys : L.keys.Nodup
  ids : (L.map Transaction.id).Nodup

namespace Lawful

variable {L M : Ledger}

/-- Rows with new keys keep it. -/
theorem added (h : Lawful L) (hM : Added L M) : Lawful M := by
  refine ⟨?_, hM.nodup_ids h.ids⟩
  obtain ⟨ds, rfl⟩ := hM
  exact Ledger.nodup_keys_absorbAll h.keys

/-- So does an edit whose key no other row has. -/
theorem write (h : Lawful L) {row : Transaction}
    (hrow : ∀ u ∈ L, u.id ≠ row.id → u.key ≠ row.key) : Lawful (L.write row) := by
  refine ⟨Keyed.nodup_map_write h.ids h.keys hrow, ?_⟩
  have hids : (L.write row).map Transaction.id = L.map Transaction.id := by
    rw [Ledger.write, List.map_map]
    refine List.map_congr_left fun u _ => ?_
    by_cases hu : u.id = row.id
    · simp [hu]
    · simp [hu]
  rw [hids]
  exact h.ids

end Lawful

namespace Books

variable {tax : Taxonomy} {B : Books}

/-- In every state reached by requests whose writes are clear, no two rows share account,
date, amount, merchant and type. -/
theorem keys_nodup (h : Reachable tax (WritesClear tax) B) : B.ledger.keys.Nodup := by
  have hlaw : Lawful B.ledger := by
    induction h with
    | start accounts statements => exact ⟨List.nodup_nil, List.nodup_nil⟩
    | step _ hok ih =>
      rcases handle_ledger _ hok with hadd | ⟨row, hwrite, hrow⟩
      · exact ih.added hadd
      · rw [hwrite]
        exact ih.write hrow
  exact hlaw.keys

end Books

/-- A cash payment entered by hand. -/
def cashPayment (amount : ℤ) : TransactionWrite :=
  { transactionDate := paymentDay, amount, transactionType := "debit" }

/-- A purchase without a merchant, as a bank may state it : its type has 16 blanks at the end. -/
def paddedPurchase : SyncedTransaction :=
  { transactionDate := .day paymentDay, amount := 4200, transactionType := "debit                " }

/-- Two cash payments, the amount of the second corrected, and a purchase ingested. -/
theorem keys_nodup_cashPayment :
    ((((((Books.mk [cashAccount, syncedAccount] [] []).handle noTaxonomy
      (.post 1 (some 7) (cashPayment 6500))).handle noTaxonomy
      (.post 1 (some 7) (cashPayment 8000))).handle noTaxonomy
      (.patch 1 2 { amount := some 7000 })).handle noTaxonomy
      (.ingest 5 [paddedPurchase])).ledger.keys).Nodup :=
  Books.keys_nodup (.step (.step (.step (.step (.start [cashAccount, syncedAccount] []) trivial)
    trivial) (by decide)) (by decide))

/-- Here it is corrected to that of the first. -/
theorem edit_duplicates :
    ¬∀ (tax : Taxonomy) (B : Books), Books.Reachable tax (fun _ _ => True) B →
      B.ledger.keys.Nodup := by
  intro h
  have hreach := @Books.Reachable.run noTaxonomy _ (.start [cashAccount] [])
    [.post 1 (some 7) (cashPayment 6500), .post 1 (some 7) (cashPayment 8000),
      .patch 1 2 { amount := some 6500 }]
  exact absurd (h _ _ hreach) (by decide)

/-- The purchase, ingested twice, has two rows of one key : its type is stored without the last
blank, and the lookup with the type that the bank states does not find it. -/
example : ¬((Books.mk [syncedAccount] [] []).run noTaxonomy
    [.ingest 5 [paddedPurchase], .ingest 5 [paddedPurchase]]).ledger.keys.Nodup := by
  decide

end NbeAdvisor
