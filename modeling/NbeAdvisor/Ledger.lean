import NbeAdvisor.Columns
import NbeAdvisor.Keyed
import Mathlib.Algebra.BigOperators.Group.List.Basic
import Mathlib.Data.List.Basic

/-!
# The ledger

`Transaction` rows, the duplicate lookup that every write path makes, and the insert with
the checks of the database. Both identify a row by `TransactionKey`, and they disagree on
nulls : for the lookup null equals null, while `unique_ledger_transaction_match` takes
nulls as distinct and so binds only the keys whose merchant and type are there
(`TransactionKey.Enforced`).

A row that is looked up first and inserted only if it is absent is inserted by the rule of
`Keyed` (`ledgerTable`), and then the constraint has nothing to refuse
(`create_of_absent`).
-/

namespace NbeAdvisor

/-- The key of a transaction. -/
abbrev TransactionId := ℕ
/-- The key of a category. -/
abbrev CategoryId := ℕ

/-- `TRANSACTION_SOURCES`. -/
inductive TransactionSource where
  | statement
  | manual
  | synced
  deriving DecidableEq, Repr

/-- What the duplicate lookup compares. The amount is in hundredths. -/
structure TransactionKey where
  user : UserId
  account : AccountId
  transactionDate : Date
  amount : ℤ
  merchantRaw : Option String
  transactionType : Option String
  deriving DecidableEq

/-- The unique constraint binds the key : none of its columns is null. -/
def TransactionKey.Enforced (k : TransactionKey) : Prop :=
  k.merchantRaw ≠ none ∧ k.transactionType ≠ none

instance (k : TransactionKey) : Decidable k.Enforced := by
  unfold TransactionKey.Enforced
  infer_instance

/-- The columns of a transaction that is about to be created. Amounts are in hundredths;
`extra_fields` is its JSON text. -/
structure TransactionDraft where
  user : UserId
  account : AccountId
  statement : Option StatementId := none
  transactionDate : Date
  merchantRaw : Option String
  merchantNormalized : Option String := none
  category : Option CategoryId
  amount : ℤ
  currency : String := "EGP"
  isRecurring : Bool := false
  source : TransactionSource
  balance : Option ℤ := none
  transactionType : Option String
  extraFields : Option String := none
  deriving DecidableEq

/-- A row of the table. -/
structure Transaction extends TransactionDraft where
  id : TransactionId
  deriving DecidableEq

namespace TransactionDraft

/-- What duplicates are told by. -/
def key (d : TransactionDraft) : TransactionKey :=
  ⟨d.user, d.account, d.transactionDate, d.amount, d.merchantRaw, d.transactionType⟩

/-- Every column takes its value and keeps it as it is. -/
def Fits (d : TransactionDraft) : Prop :=
  (∀ s ∈ d.merchantRaw, TextFits 1024 s) ∧ (∀ s ∈ d.merchantNormalized, TextFits 255 s) ∧
    TextFits 10 d.currency ∧ (∀ s ∈ d.transactionType, TextFits 20 s) ∧ AmountFits d.amount ∧
    (∀ b ∈ d.balance, AmountFits b) ∧ ∀ x ∈ d.extraFields, JsonbTakes x

instance (d : TransactionDraft) : Decidable d.Fits := by
  unfold Fits
  infer_instance

/-- What the columns make of the row : the blanks beyond their widths are cut. -/
def cut (d : TransactionDraft) : TransactionDraft :=
  { d with
    merchantRaw := d.merchantRaw.map (cutBlanks 1024)
    merchantNormalized := d.merchantNormalized.map (cutBlanks 255)
    currency := cutBlanks 10 d.currency
    transactionType := d.transactionType.map (cutBlanks 20) }

section Cut

variable (d : TransactionDraft)

@[simp] theorem cut_user : d.cut.user = d.user := rfl

@[simp] theorem cut_account : d.cut.account = d.account := rfl

@[simp] theorem cut_source : d.cut.source = d.source := rfl

@[simp] theorem cut_category : d.cut.category = d.category := rfl

@[simp] theorem cut_amount : d.cut.amount = d.amount := rfl

end Cut

/-- The key is kept if its texts are. -/
theorem cut_key {d : TransactionDraft} (hmerchant : ∀ s ∈ d.merchantRaw, TextFits 1024 s)
    (htype : ∀ s ∈ d.transactionType, TextFits 20 s) : d.cut.key = d.key := by
  simp only [key, cut, map_cutBlanks_of_fits hmerchant, map_cutBlanks_of_fits htype]

/-- A row that fits is kept as it is. -/
theorem Fits.cut_eq {d : TransactionDraft} (h : d.Fits) : d.cut = d := by
  obtain ⟨hmerchant, hnormalized, hcurrency, htype, -⟩ := h
  simp only [cut, map_cutBlanks_of_fits hmerchant, map_cutBlanks_of_fits hnormalized,
    map_cutBlanks_of_fits htype, hcurrency.cut_eq]

end TransactionDraft

/-- The key of a row. -/
def Transaction.key (t : Transaction) : TransactionKey := t.toTransactionDraft.key

/-- `Sum("amount")`, zero if there are no rows. -/
def totalAmount (rows : List Transaction) : ℤ := (rows.map (·.amount)).sum

/-- The rows of a filter, by a second condition. -/
theorem totalAmount_and_add (p q : Transaction → Prop) [DecidablePred p] [DecidablePred q]
    (rows : List Transaction) : totalAmount (rows.filter fun t => p t ∧ q t) +
      totalAmount (rows.filter fun t => p t ∧ ¬q t) = totalAmount (rows.filter fun t => p t) := by
  have hsplit := List.sum_map_filter_add_sum_map_filter_not q (·.amount)
    (rows.filter fun t => p t)
  simp only [List.filter_filter, ← Bool.decide_and] at hsplit
  simp only [totalAmount, ← hsplit, and_comm]

/-! ## Lookup and insert -/

/-- Why the database refuses a row. -/
inductive DbError where
  | dataError
  | integrityError
  deriving DecidableEq, Repr

/-- The rows of the table, in the order of their creation. -/
abbrev Ledger := List Transaction

namespace Ledger

variable {L : Ledger} {d : TransactionDraft} {k : TransactionKey}

/-- The rows of a user. -/
def ofUser (L : Ledger) (user : UserId) : List Transaction := L.filter fun t => t.user = user

/-- The rows of an account. -/
def ofAccount (L : Ledger) (account : AccountId) : List Transaction :=
  L.filter fun t => t.account = account

/-- The keys of the rows. -/
def keys (L : Ledger) : List TransactionKey := L.map Transaction.key

@[simp] theorem keys_append (L M : Ledger) : keys (L ++ M) = keys L ++ keys M := List.map_append

/-- `.filter(..).first()` on the columns of the key. -/
def lookup (L : Ledger) (k : TransactionKey) : Option Transaction := L.find? fun t => t.key = k

/-- `Transaction.is_duplicate`. -/
def isDuplicate (L : Ledger) (k : TransactionKey) : Bool := (L.lookup k).isSome

/-- A lookup misses if no row has the key. -/
theorem lookup_eq_none : L.lookup k = none ↔ k ∉ L.keys := by
  simp [lookup, keys]

/-- A lookup that hits shows that the key is there. -/
theorem mem_keys_of_lookup {t : Transaction} (h : L.lookup k = some t) : k ∈ L.keys := by
  by_contra hn
  rw [lookup_eq_none.2 hn] at h
  cases h

/-- The check for a duplicate looks at the keys. -/
theorem isDuplicate_iff : L.isDuplicate k = true ↔ k ∈ L.keys := by
  rw [isDuplicate, Option.isSome_iff_ne_none, Ne, lookup_eq_none, not_not]

/-- A primary key that no row has. -/
def freshId (L : Ledger) : TransactionId := (L.map Transaction.id).foldr max 0 + 1

theorem freshId_notMem (L : Ledger) : L.freshId ∉ L.map Transaction.id :=
  Keyed.freshKey_notMem _

/-- Drafts become rows with a fresh id; the key decides whether a row is there. -/
def ledgerTable : Keyed.Table Transaction TransactionDraft TransactionKey where
  key := Transaction.key
  keyOf := TransactionDraft.key
  make L d := ⟨d, freshId L⟩
  key_make _ _ := rfl

/-- `Transaction.objects.create` on its own : the new row, with what the columns and the
unique constraint check. -/
def create (L : Ledger) (d : TransactionDraft) : Except DbError Transaction :=
  if ¬d.cut.Fits then .error .dataError
  else if d.cut.key.Enforced ∧ d.cut.key ∈ L.keys then .error .integrityError
  else .ok ⟨d.cut, L.freshId⟩

/-- A row is created exactly if the columns take it and the constraint does not refuse its key. -/
theorem create_eq_ok {t : Transaction} : L.create d = .ok t ↔
    d.cut.Fits ∧ ¬(d.cut.key.Enforced ∧ d.cut.key ∈ L.keys) ∧ t = ⟨d.cut, L.freshId⟩ := by
  unfold create
  by_cases hf : d.cut.Fits
  · by_cases hk : d.cut.key.Enforced ∧ d.cut.key ∈ L.keys
    · simp [hf, hk]
    · rw [if_neg (not_not.2 hf), if_neg hk, Except.ok.injEq]
      exact ⟨fun h => ⟨hf, hk, h.symm⟩, fun h => h.2.2.symm⟩
  · simp [hf]

/-- After a lookup that found nothing, the insert of a row that fits goes through. -/
theorem create_of_absent (hf : d.Fits) (hk : d.key ∉ L.keys) :
    L.create d = .ok ⟨d, L.freshId⟩ := by
  refine create_eq_ok.2 ?_
  rw [hf.cut_eq]
  exact ⟨hf, fun h => hk h.2, rfl⟩

/-- A row with a new key is appended. -/
theorem absorb_of_absent (hk : d.key ∉ L.keys) :
    ledgerTable.absorb L d = L ++ [⟨d, L.freshId⟩] :=
  Keyed.Table.absorb_of_not_mem hk

section Absorb

variable {ds es : List TransactionDraft}

/-- The keys after an ingest. -/
theorem mem_keys_absorbAll : k ∈ keys (ledgerTable.absorbAll L ds) ↔
    k ∈ L.keys ∨ k ∈ ds.map TransactionDraft.key :=
  Keyed.Table.mem_keys_absorbAll (T := ledgerTable)

/-- A key of the ledger keeps its rows, a new one has one row. -/
theorem count_keys_absorbAll (L : Ledger) (ds : List TransactionDraft) (k : TransactionKey) :
    (keys (ledgerTable.absorbAll L ds)).count k =
      if k ∈ L.keys then L.keys.count k else if k ∈ ds.map TransactionDraft.key then 1 else 0 :=
  Keyed.Table.count_absorbAll (T := ledgerTable) L ds k

/-- How often a key is there depends only on which keys came in. -/
theorem count_keys_absorbAll_congr
    (h : ∀ k, k ∈ ds.map TransactionDraft.key ↔ k ∈ es.map TransactionDraft.key)
    (k : TransactionKey) : (keys (ledgerTable.absorbAll L ds)).count k =
      (keys (ledgerTable.absorbAll L es)).count k :=
  Keyed.Table.count_absorbAll_congr (T := ledgerTable) h k

/-- An ingest makes no duplicates. -/
theorem nodup_keys_absorbAll (h : L.keys.Nodup) : (keys (ledgerTable.absorbAll L ds)).Nodup :=
  Keyed.Table.nodup_keys_absorbAll (T := ledgerTable) h

end Absorb

end Ledger

/-- What the write paths ask of the category modules : the category of a raw guess and a
direction, and a guess from a merchant name. The ledger only passes the answers on. -/
structure Taxonomy where
  resolveCategory : Option String → Option String → Option CategoryId
  guessCategoryFromMerchant : Option String → Option String → Option String

end NbeAdvisor
