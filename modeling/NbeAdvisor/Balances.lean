import NbeAdvisor.Grouping
import NbeAdvisor.LedgerKeys
import NbeAdvisor.Numerals
import NbeAdvisor.Replay
import Mathlib.Data.Prod.Lex

/-!
# Balances

`BankAccount.current_balance` starts from the newest balance that a row states and applies every
later movement. With distinct times it is the running balance of the account, row after row
(`currentBalance_eq_runningBalance`). Sums are of whole hundredths, and the decimals of the source
hold them exactly (`currentBalanceDecimals_eq`).

Without stated balances the accounts of a user add up to what the user's rows move
(`sum_currentBalance`). The list of transactions knows a credit and three types of expense, and the
balance takes every other type for an outflow : they agree exactly if no row has a type of its own
or none (`filtersMatch_iff`), and all write paths let such rows through.
-/

namespace NbeAdvisor

open Numerals

/-! ## One account -/

namespace Transaction

variable (createdAt : TransactionId → Instant)

/-- When a row comes : by `transaction_date`, then by `created_at`. -/
def time (t : Transaction) : Date ×ₗ Instant := toLex (t.transactionDate, createdAt t.id)

/-- `t` has a later date than `a`, or the same and was created later. -/
def After (a t : Transaction) : Prop :=
  a.transactionDate < t.transactionDate ∨
    (t.transactionDate = a.transactionDate ∧ createdAt a.id < createdAt t.id)

instance (a : Transaction) : DecidablePred (After createdAt a) := fun t => by
  unfold After
  infer_instance

/-- What a row moves : any type but credit goes out. -/
def movement (t : Transaction) : ℤ :=
  if t.transactionType = some "credit" then t.amount else -t.amount

variable {createdAt}

theorem after_iff {a t : Transaction} : After createdAt a t ↔ time createdAt a < time createdAt t := by
  rw [time, time, Prod.Lex.toLex_lt_toLex, After]
  refine or_congr Iff.rfl (and_congr ⟨Eq.symm, Eq.symm⟩ Iff.rfl)

end Transaction

/-- `Sum("amount", filter=Q(transaction_type="credit"))`, zero if there are none. -/
def credits (rows : List Transaction) : ℤ :=
  ((rows.filter fun t => t.transactionType = some "credit").map (·.amount)).sum

/-- `Sum("amount", filter=Q(transaction_type__isnull=True) | ~Q(transaction_type="credit"))`. -/
def outflows (rows : List Transaction) : ℤ :=
  ((rows.filter fun t => t.transactionType = none ∨ t.transactionType ≠ some "credit").map
    (·.amount)).sum

theorem credits_sub_outflows (rows : List Transaction) :
    credits rows - outflows rows = (rows.map Transaction.movement).sum := by
  induction rows with
  | nil => rfl
  | cons t rows ih =>
    rw [List.map_cons, List.sum_cons, ← ih]
    by_cases h : t.transactionType = some "credit"
    · simp [credits, outflows, Transaction.movement, h]
      ring
    · simp [credits, outflows, Transaction.movement, h]
      ring

/-- A sum over some of the rows is at most what so many columns hold. -/
theorem abs_sum_filter_le {rows : List Transaction} (p : Transaction → Bool)
    (h : ∀ t ∈ rows, AmountFits t.amount) :
    |((rows.filter p).map (·.amount)).sum| ≤ rows.length * 10 ^ 14 := by
  induction rows with
  | nil => simp
  | cons t rows ih =>
    obtain ⟨ht, hrows⟩ := List.forall_mem_cons.1 h
    have hrest := ih hrows
    have hlen : (((t :: rows).length : ℕ) : ℤ) * 10 ^ 14 = 10 ^ 14 + rows.length * 10 ^ 14 := by
      push_cast [List.length_cons]
      ring
    have hamount : |t.amount| ≤ 10 ^ 14 := by
      unfold AmountFits at ht
      rw [abs_le]
      omega
    rw [hlen]
    by_cases hp : p t = true
    · rw [List.filter_cons_of_pos hp, List.map_cons, List.sum_cons]
      exact (abs_add_le _ _).trans (add_le_add hamount hrest)
    · rw [List.filter_cons_of_neg hp]
      omega

/-- `balance + credits - outflows`, in decimals of 28 digits. -/
def balanceDecimals (stated : ℤ) (rows : List Transaction) : ℚ :=
  decimal28 (decimal28 ((stated : ℚ) / 100 + credits rows / 100) - outflows rows / 100)

/-- The additions round nothing away, for all ledgers of less than ten million million rows. -/
theorem balanceDecimals_eq {rows : List Transaction} {stated : ℤ}
    (hstated : AmountFits stated)
    (hrows : ∀ t ∈ rows, AmountFits t.amount) (hlen : rows.length < 10 ^ 13) :
    balanceDecimals stated rows = ((stated + credits rows - outflows rows : ℤ) : ℚ) / 100 := by
  have hexact : ∀ z : ℤ, |z| ≤ 10 ^ 28 → decimal28 ((z : ℚ) / 100) = z / 100 := by
    intro z hz
    have hplaces : HasPlaces 2 ((z : ℚ) / 100) := ⟨z, by norm_num⟩
    refine hplaces.significant_eq (k := 26) ?_ (by norm_num) (by norm_num)
    have hz' : |(z : ℚ)| ≤ 10 ^ 28 := by exact_mod_cast hz
    rw [abs_div, abs_of_pos (by norm_num : (0 : ℚ) < 100), div_le_iff₀ (by norm_num)]
    exact hz'.trans (by norm_num)
  have hin : |credits rows| ≤ rows.length * 10 ^ 14 := abs_sum_filter_le _ hrows
  have hout : |outflows rows| ≤ rows.length * 10 ^ 14 := abs_sum_filter_le _ hrows
  unfold AmountFits at hstated
  rw [abs_le] at hin hout
  have hsum : ((stated : ℚ) / 100 + credits rows / 100) =
      ((stated + credits rows : ℤ) : ℚ) / 100 := by
    push_cast
    ring
  have hsub : ((stated + credits rows : ℤ) : ℚ) / 100 - outflows rows / 100 =
      ((stated + credits rows - outflows rows : ℤ) : ℚ) / 100 := by
    push_cast
    ring
  rw [balanceDecimals, hsum, hexact _ (by rw [abs_le]; omega), hsub,
    hexact _ (by rw [abs_le]; omega)]

namespace Ledger

variable (createdAt : TransactionId → Instant)

/-- The newest row of the account that states a balance. -/
def anchor (L : Ledger) (account : AccountId) : Option Transaction :=
  (((L.ofAccount account).filter fun t => t.balance.isSome).mergeSort
    fun t u => u.time createdAt ≤ t.time createdAt).head?

/-- `BankAccount.current_balance`. -/
def currentBalance (L : Ledger) (account : AccountId) : ℤ :=
  match L.anchor createdAt account with
  | none => 0 + credits (L.ofAccount account) - outflows (L.ofAccount account)
  | some a =>
    let movements := (L.ofAccount account).filter fun t => a.After createdAt t
    a.balance.getD 0 + credits movements - outflows movements

/-- The running balance after a row. -/
def balanceAfter (balance : ℤ) (t : Transaction) : ℤ :=
  match t.balance with
  | some stated => stated
  | none => if t.transactionType = some "credit" then balance + t.amount else balance - t.amount

/-- The running balance after all rows of the account, in the order of their times. -/
def runningBalance (L : Ledger) (account : AccountId) : ℤ :=
  ((L.ofAccount account).mergeSort fun t u => t.time createdAt ≤ u.time createdAt).foldl
    balanceAfter 0

/-- `BankAccount.current_balance` with the decimals of the source. -/
def currentBalanceDecimals (L : Ledger) (account : AccountId) : ℚ :=
  match L.anchor createdAt account with
  | none => balanceDecimals 0 (L.ofAccount account)
  | some a =>
    balanceDecimals (a.balance.getD 0)
      ((L.ofAccount account).filter fun t => a.After createdAt t)

variable {createdAt} {L : Ledger} {account : AccountId}

theorem currentBalance_eq_since : L.currentBalance createdAt account =
    Replay.since (Transaction.time createdAt) (·.balance) Transaction.movement
      (L.ofAccount account) := by
  have hanchor : L.anchor createdAt account = Replay.latest (Transaction.time createdAt)
      (fun t : Transaction => t.balance) (L.ofAccount account) := rfl
  unfold currentBalance Replay.since
  rw [← hanchor]
  cases L.anchor createdAt account with
  | none =>
    change 0 + _ - _ = _
    rw [zero_add, credits_sub_outflows]
  | some a =>
    change _ + _ - _ = _ + _
    rw [add_sub_assoc, credits_sub_outflows]
    simp only [Transaction.after_iff]

theorem balanceAfter_eq_step (balance : ℤ) (t : Transaction) : balanceAfter balance t =
    Replay.step (fun t : Transaction => t.balance) Transaction.movement balance t := by
  unfold balanceAfter Replay.step Transaction.movement
  dsimp only
  cases t.balance with
  | some stated => rfl
  | none =>
    by_cases h : t.transactionType = some "credit"
    · simp [h]
    · simp [h, sub_eq_add_neg]

/-- If no two rows of the account have one time, the anchored balance is the running one. -/
theorem currentBalance_eq_runningBalance
    (h : ((L.ofAccount account).map (Transaction.time createdAt)).Nodup) :
    L.currentBalance createdAt account = L.runningBalance createdAt account := by
  have hsorted := List.pairwise_mergeSort' (Order.Preimage (Transaction.time createdAt) (· ≤ ·))
    (L.ofAccount account)
  have hfold : runningBalance createdAt L account = Replay.replay (fun t : Transaction => t.balance)
      Transaction.movement 0 ((L.ofAccount account).mergeSort
        fun t u => t.time createdAt ≤ u.time createdAt) := by
    unfold runningBalance Replay.replay
    rw [show balanceAfter = _ from funext₂ balanceAfter_eq_step]
  rw [currentBalance_eq_since, hfold]
  exact Replay.since_eq_replay h (List.mergeSort_perm _ _) hsorted

/-- The balance that is shown is the one that is computed with here, in hundredths. -/
theorem currentBalanceDecimals_eq
    (hrows : ∀ t ∈ L, AmountFits t.amount ∧ ∀ stated ∈ t.balance, AmountFits stated)
    (hlen : L.length < 10 ^ 13) :
    L.currentBalanceDecimals createdAt account =
      (L.currentBalance createdAt account : ℚ) / 100 := by
  have haccount : ∀ t ∈ L.ofAccount account, t ∈ L := fun t ht => List.mem_of_mem_filter ht
  have hcount : (L.ofAccount account).length < 10 ^ 13 := (List.length_filter_le _ L).trans_lt hlen
  unfold currentBalanceDecimals currentBalance
  cases hanchor : L.anchor createdAt account with
  | none =>
    exact balanceDecimals_eq (by decide) (fun t ht => (hrows t (haccount t ht)).1) hcount
  | some a =>
    have hstated : AmountFits (a.balance.getD 0) := by
      have ha := List.mem_of_mem_head? (Option.mem_def.2 hanchor)
      rw [List.mem_mergeSort] at ha
      cases hb : a.balance with
      | none => decide
      | some stated =>
        exact (hrows a (haccount a (List.mem_of_mem_filter ha))).2 stated hb
    exact balanceDecimals_eq hstated
      (fun t ht => (hrows t (haccount t (List.mem_of_mem_filter ht))).1)
      ((List.length_filter_le _ _).trans_lt hcount)

end Ledger

/-- A row of the account that is kept by hand. -/
def cashRow (id : TransactionId) (day : Date) (amount : ℤ) (transactionType : Option String)
    (balance : Option ℤ := none) : Transaction :=
  { id, user := 1, account := 7, transactionDate := day, merchantRaw := none, category := none
    amount, source := .statement, balance, transactionType }

/-- A payment that states the balance, and two movements later the same day, of which the one
without a type was entered first. -/
theorem runningBalance_paymentDay :
    Ledger.currentBalance (fun id => 10 - id) [cashRow 1 paymentDay 7000 "credit",
        cashRow 2 paymentDay 2500 none, cashRow 3 paymentDay 6500 "debit" (some 20000)] 7 =
      Ledger.runningBalance (fun id => 10 - id) [cashRow 1 paymentDay 7000 "credit",
        cashRow 2 paymentDay 2500 none, cashRow 3 paymentDay 6500 "debit" (some 20000)] 7 :=
  Ledger.currentBalance_eq_runningBalance (by decide +kernel)

example : Ledger.currentBalance (fun id => 10 - id) [cashRow 1 paymentDay 7000 "credit",
    cashRow 2 paymentDay 2500 none, cashRow 3 paymentDay 6500 "debit" (some 20000)] 7 = 24500 := by
  decide +kernel

/-! ## Where rows come from -/

section Rows

variable {tax : Taxonomy} {accounts : List BankAccount} {L : Ledger}

theorem postTransaction_draft {user : UserId} {accountId : Option AccountId}
    {data : TransactionWrite} {row : Transaction}
    (h : postTransaction accounts L user accountId data = .ok row) :
    ∃ a ∈ accounts, a.user = user ∧ row.toTransactionDraft = (data.draft user a).cut ∧
      data.Valid := by
  unfold postTransaction at h
  split at h
  · cases h
  split at h
  · cases h
  next a ha =>
  split at h
  · cases h
  split_ifs at h
  next hvalid =>
  split at h
  · cases h
  split at h
  · cases h
  next hc =>
  cases h
  obtain ⟨-, -, rfl⟩ := Ledger.create_eq_ok.1 hc
  have hown := List.find?_some ha
  rw [decide_eq_true_eq] at hown
  exact ⟨a, List.mem_of_find?_eq_some ha, hown.2, rfl, hvalid⟩

theorem mem_approveRows {statement : StatementFile} {account : BankAccount} {t : Transaction} :
    ∀ {rows : List TransactionApprovalItem} {s s' : Ledger × List ApprovalResult},
      approveRows tax statement account s rows = .ok s' → t ∈ s'.1 →
        t ∈ s.1 ∨ ∃ row ∈ rows, t.toTransactionDraft = (row.draft tax statement account).cut
  | [], s, s', h, ht => by
    cases h
    exact Or.inl ht
  | row :: rows, (L, resolved), s', h, ht => by
    unfold approveRows at h
    split at h
    · rcases mem_approveRows h ht with hold | ⟨r, hr, hdraft⟩
      · exact Or.inl hold
      · exact Or.inr ⟨r, List.mem_cons_of_mem _ hr, hdraft⟩
    split at h
    · cases h
    next created hc =>
    obtain ⟨-, -, rfl⟩ := Ledger.create_eq_ok.1 hc
    rcases mem_approveRows h ht with hold | ⟨r, hr, hdraft⟩
    · rcases List.mem_append.1 hold with hold | hnew
      · exact Or.inl hold
      · rw [List.mem_singleton.1 hnew]
        exact Or.inr ⟨row, List.mem_cons_self, rfl⟩
    · exact Or.inr ⟨r, List.mem_cons_of_mem _ hr, hdraft⟩

theorem mem_ingestRows {a : BankAccount} {t : Transaction} :
    ∀ {ts : List SyncedTransaction} {s : IngestState}, t ∈ (ingestRows tax a s ts).1.ledger →
      t ∈ s.ledger ∨ ∃ u ∈ ts, ∃ d ∈ u.draft tax a, t.toTransactionDraft = d.cut
  | [], s, ht => Or.inl ht
  | u :: ts, s, ht => by
    unfold ingestRows at ht
    split at ht
    · next s' hrow =>
      rcases mem_ingestRows ht with hold | ⟨v, hv, hdraft⟩
      · unfold ingestRow at hrow
        split at hrow
        · cases hrow
        next d hd =>
        split_ifs at hrow
        · cases hrow
          exact Or.inl hold
        · split at hrow
          · next row hc =>
            cases hrow
            obtain ⟨-, -, rfl⟩ := Ledger.create_eq_ok.1 hc
            rcases List.mem_append.1 hold with hold | hnew
            · exact Or.inl hold
            · rw [List.mem_singleton.1 hnew]
              exact Or.inr ⟨u, List.mem_cons_self, d, hd, rfl⟩
          · cases hrow
      · exact Or.inr ⟨v, List.mem_cons_of_mem _ hv, hdraft⟩
    · exact Or.inl ht

/-- The account is one of the row's user. -/
def Owned (accounts : List BankAccount) (user : UserId) (account : AccountId) : Prop :=
  ∃ a ∈ accounts, a.id = account ∧ a.user = user

theorem mem_ingestSyncedTransactions {id : AccountId} {ts : List SyncedTransaction}
    {t : Transaction} (ht : t ∈ (ingestSyncedTransactions tax accounts L id ts).1) :
    t ∈ L ∨ Owned accounts t.user t.account ∧
      t.transactionType ∈ ts.map (·.transactionType.map (cutBlanks 20)) := by
  unfold ingestSyncedTransactions at ht
  split at ht
  · exact Or.inl ht
  next a ha =>
  have hrows : t ∈ (ingestRows tax a ⟨L, []⟩ ts).1.ledger := by
    split at ht
    · next hs => rwa [hs]
    · next hs => rwa [hs]
  rcases mem_ingestRows hrows with hold | ⟨u, hu, d, hd, hdraft⟩
  · exact Or.inl hold
  · obtain ⟨date, -, rfl⟩ := Option.map_eq_some_iff.1 hd
    have huser : t.user = a.user := by rw [hdraft]; rfl
    have haccount : t.account = a.id := by rw [hdraft]; rfl
    have htype : t.transactionType = u.transactionType.map (cutBlanks 20) := by rw [hdraft]; rfl
    refine Or.inr ⟨⟨a, List.mem_of_find?_eq_some ha, haccount.symm, huser.symm⟩, ?_⟩
    rw [htype]
    exact List.mem_map_of_mem hu

end Rows

/-! ## All ledgers that the service writes -/

namespace LedgerRequest

/-- The types that a request gives rows, as they are stored : what was approved is trimmed, and the
column cuts what was fetched. -/
def types : LedgerRequest → List (Option String)
  | .post _ _ data => [data.transactionType]
  | .patch _ _ data => data.transactionType.toList
  | .approve _ _ _ transactions => transactions.map (·.transactionType.map strip)
  | .ingest _ transactions => transactions.map (·.transactionType.map (cutBlanks 20))
  | .elsewhere _ _ => []

/-- The request is one of those that write rows. -/
def Writes : LedgerRequest → Prop
  | .elsewhere _ _ => False
  | _ => True

end LedgerRequest

namespace Books

variable {tax : Taxonomy} {B C : Books}

/-- Ids are distinct, and statements and rows are in accounts of their users. -/
structure Sound (B : Books) : Prop where
  accounts : (B.accounts.map BankAccount.id).Nodup
  statements : ∀ s ∈ B.statements, ∀ id ∈ s.account, Owned B.accounts s.user id
  rows : ∀ t ∈ B.ledger, Owned B.accounts t.user t.account

/-- What the rest of the service does to the books. It links accounts and renames them, uploads
statements, and deletes : an account goes with its rows, and an account never gets another user. -/
structure Elsewhere (B C : Books) : Prop where
  accounts : (C.accounts.map BankAccount.id).Nodup
  users : ∀ a ∈ B.accounts, ∀ b ∈ C.accounts, b.id = a.id → b.user = a.user
  statements : ∀ s ∈ C.statements, ∀ id ∈ s.account, Owned C.accounts s.user id
  foreignKey : ∀ t ∈ C.ledger, ∃ a ∈ C.accounts, a.id = t.account
  rows : ∀ t ∈ C.ledger, ∃ u ∈ B.ledger, t.user = u.user ∧ t.account = u.account ∧
    t.transactionType = u.transactionType

/-- From an empty ledger, any requests whose types are `ok`, and anything elsewhere between them. -/
inductive Admitted (tax : Taxonomy) (ok : Option String → Prop) : Books → Prop where
  | start {B : Books} : B.ledger = [] → B.Sound → Admitted tax ok B
  | request {B : Books} {r : LedgerRequest} : Admitted tax ok B → r.Writes →
      (∀ transactionType ∈ r.types, ok transactionType) → Admitted tax ok (B.handle tax r)
  | elsewhere {B C : Books} : Admitted tax ok B → B.Elsewhere C → Admitted tax ok C

end Books

section Approval

variable {tax : Taxonomy} {accounts : List BankAccount} {s c : StatementFile} {L : Ledger}
  {accountId : Option AccountId}

/-- The account of an approval is one of the statement's user. -/
theorem confirmAccount_owned {a : BankAccount} (hids : (accounts.map BankAccount.id).Nodup)
    (hs : ∀ id ∈ s.account, Owned accounts s.user id)
    (h : s.confirmAccount accounts accountId = .ok (c, a)) :
    a ∈ accounts ∧ a.user = s.user ∧ c.user = s.user ∧
      ∀ id ∈ c.account, Owned accounts c.user id := by
  unfold StatementFile.confirmAccount at h
  split at h
  · split at h
    · cases h
    next hfind =>
    cases h
    obtain ⟨id, hid, hfind⟩ := Option.bind_eq_some_iff.1 hfind
    obtain ⟨b, hb, hbid, huser⟩ := hs id hid
    have ha := List.mem_of_find?_eq_some hfind
    have haid : a.id = id := by simpa using List.find?_some hfind
    have hab : a = b := List.inj_on_of_nodup_map hids ha hb (haid.trans hbid.symm)
    exact ⟨ha, hab ▸ huser, rfl, hs⟩
  · next id =>
    split at h
    · cases h
    next hown =>
    cases h
    have ha := List.mem_of_find?_eq_some hown
    have huser := List.find?_some hown
    rw [decide_eq_true_eq] at huser
    refine ⟨ha, huser.2, rfl, fun i hi => ?_⟩
    cases hi
    exact ⟨a, ha, rfl, huser.2⟩

/-- What an approval does to the statement, and the rows that it leaves. -/
theorem approveTransactions_owned (hids : (accounts.map BankAccount.id).Nodup)
    (hs : ∀ id ∈ s.account, Owned accounts s.user id)
    (transactions : List TransactionApprovalItem) :
    (∀ id ∈ (approveTransactions tax accounts s L accountId transactions).1.account,
      Owned accounts (approveTransactions tax accounts s L accountId transactions).1.user id) ∧
    ∀ t ∈ (approveTransactions tax accounts s L accountId transactions).2.1, t ∈ L ∨
      Owned accounts t.user t.account ∧
        t.transactionType ∈ transactions.map (·.transactionType.map strip) := by
  unfold approveTransactions
  split
  · exact ⟨hs, fun t ht => Or.inl ht⟩
  split
  · exact ⟨hs, fun t ht => Or.inl ht⟩
  next hvalid =>
  split
  · exact ⟨hs, fun t ht => Or.inl ht⟩
  next confirmed account hconfirm =>
  obtain ⟨ha, huser, hcuser, hcowned⟩ := confirmAccount_owned hids hs hconfirm
  split
  · exact ⟨hcowned, fun t ht => Or.inl ht⟩
  split
  · exact ⟨hcowned, fun t ht => Or.inl ht⟩
  next hrows =>
  refine ⟨hcowned, fun t ht => (mem_approveRows hrows ht).imp_right ?_⟩
  rintro ⟨row, hrow, hdraft⟩
  obtain ⟨item, hitem, rfl⟩ := List.mem_map.1 hrow
  rw [TransactionApprovalItem.draft_cut tax confirmed account
    (not_not.1 hvalid item hitem)] at hdraft
  have hu : t.user = confirmed.user := by rw [hdraft]; rfl
  have hacc : t.account = account.id := by rw [hdraft]; rfl
  have htype : t.transactionType = item.transactionType.map strip := by rw [hdraft]; rfl
  refine ⟨⟨account, ha, hacc.symm, huser.trans (hcuser.symm.trans hu.symm)⟩, ?_⟩
  rw [htype]
  exact List.mem_map_of_mem hitem

end Approval

namespace Books

variable {tax : Taxonomy} {B C : Books} {r : LedgerRequest} {t : Transaction}
  {ok : Option String → Prop}

/-- An edit keeps the user and the account, and the type too unless it names another. -/
theorem editTransaction_owned {accounts : List BankAccount} {p : TransactionPatch}
    {d : TransactionDraft} (h : editTransaction accounts t p = .ok d) :
    d.user = t.user ∧ d.account = t.account ∧
      (d.transactionType = t.transactionType ∨ d.transactionType ∈ p.transactionType) := by
  unfold editTransaction at h
  split at h
  · split at h
    · cases h
      exact ⟨rfl, rfl, Or.inl rfl⟩
    · cases h
  split at h
  · cases h
  split at h
  · cases h
  split at h
  · cases h
    refine ⟨rfl, rfl, ?_⟩
    cases hp : p.transactionType with
    | none => exact Or.inl (by simp [TransactionPatch.edit, hp])
    | some named => exact Or.inr (by simp [TransactionPatch.edit, hp])
  · cases h

theorem handle_accounts (hr : r.Writes) : (B.handle tax r).accounts = B.accounts := by
  cases r with
  | post _ _ _ =>
    simp only [handle]
    split
    · rfl
    · rfl
  | patch _ _ _ =>
    simp only [handle]
    split
    · rfl
    · rfl
  | approve _ _ _ _ =>
    simp only [handle]
    split
    · rfl
    · rfl
  | ingest _ _ => rfl
  | elsewhere _ _ => exact hr.elim

/-- The rows after a request : each is in an account of its user, and its type was there or
is named by the request. -/
theorem handle_rows (hB : B.Sound) (ht : t ∈ (B.handle tax r).ledger) :
    Owned B.accounts t.user t.account ∧
      ((∃ u ∈ B.ledger, t.transactionType = u.transactionType) ∨ t.transactionType ∈ r.types) := by
  have hold : t ∈ B.ledger → Owned B.accounts t.user t.account ∧
      ((∃ u ∈ B.ledger, t.transactionType = u.transactionType) ∨ t.transactionType ∈ r.types) :=
    fun h => ⟨hB.rows t h, Or.inl ⟨t, h, rfl⟩⟩
  cases r with
  | post user accountId data =>
    simp only [handle] at ht
    split at ht
    · next row hpost =>
      rcases List.mem_append.1 ht with ht | hnew
      · exact hold ht
      · obtain ⟨a, ha, huser, hdraft, hvalid⟩ := postTransaction_draft hpost
        rw [List.mem_singleton.1 hnew, hdraft]
        refine ⟨⟨a, ha, rfl, huser⟩, Or.inr ?_⟩
        exact List.mem_singleton.2 (map_cutBlanks_of_fits hvalid.2.2.1)
    · exact hold ht
  | patch user id data =>
    simp only [handle] at ht
    split at ht
    · next L row hpatch =>
      obtain ⟨u, d, hown, hedit, rfl, -, rfl⟩ := patchTransaction_ledger hpatch
      obtain ⟨v, hv, hvt⟩ := List.mem_map.1 ht
      split_ifs at hvt with hid
      · subst hvt
        have hu := List.mem_of_find?_eq_some hown
        obtain ⟨huser, haccount, htype⟩ := editTransaction_owned hedit
        have howned : Owned B.accounts d.user d.account := by
          rw [huser, haccount]
          exact hB.rows u hu
        refine ⟨howned, htype.imp (fun h => ⟨u, hu, h⟩) fun h => ?_⟩
        exact Option.mem_toList.2 h
      · exact hold (hvt ▸ hv)
    · exact hold ht
  | approve user statementId accountId transactions =>
    simp only [handle] at ht
    split at ht
    · exact hold ht
    next s hs =>
    have hspec := (@approveTransactions_owned tax B.accounts s B.ledger accountId
      hB.accounts (hB.statements s (List.mem_of_find?_eq_some hs)) transactions).2
    rcases hspec t ht with h | ⟨howned, htype⟩
    · exact hold h
    · exact ⟨howned, Or.inr htype⟩
  | ingest bankAccountId transactions =>
    rcases mem_ingestSyncedTransactions ht with h | ⟨howned, htype⟩
    · exact hold h
    · exact ⟨howned, Or.inr htype⟩
  | elsewhere accounts statements => exact hold ht

theorem handle_statements (hB : B.Sound) (hr : r.Writes) :
    ∀ s ∈ (B.handle tax r).statements, ∀ id ∈ s.account, Owned B.accounts s.user id := by
  cases r with
  | post _ _ _ =>
    simp only [handle]
    split
    · exact hB.statements
    · exact hB.statements
  | patch _ _ _ =>
    simp only [handle]
    split
    · exact hB.statements
    · exact hB.statements
  | approve user statementId accountId transactions =>
    simp only [handle]
    split
    · exact hB.statements
    next s hs =>
    have hspec := (@approveTransactions_owned tax B.accounts s B.ledger accountId
      hB.accounts (hB.statements s (List.mem_of_find?_eq_some hs)) transactions).1
    intro u hu
    obtain ⟨v, hv, hvu⟩ := List.mem_map.1 hu
    split_ifs at hvu
    · exact hvu ▸ hspec
    · exact hvu ▸ hB.statements v hv
  | ingest _ _ => exact hB.statements
  | elsewhere _ _ => exact hr.elim

theorem Sound.handle (hB : B.Sound) (hr : r.Writes) : (B.handle tax r).Sound := by
  have haccounts := @handle_accounts tax B r hr
  refine ⟨?_, ?_, ?_⟩
  · rw [haccounts]
    exact hB.accounts
  · rw [haccounts]
    exact handle_statements hB hr
  · rw [haccounts]
    exact fun t ht => (handle_rows hB ht).1

theorem Sound.elsewhere (hB : B.Sound) (h : B.Elsewhere C) : C.Sound := by
  refine ⟨h.accounts, h.statements, fun t ht => ?_⟩
  obtain ⟨c, hc, hct⟩ := h.foreignKey t ht
  obtain ⟨u, hu, huser, haccount, -⟩ := h.rows t ht
  obtain ⟨b, hb, hbu, hbuser⟩ := hB.rows u hu
  have hids : c.id = b.id := hct.trans (haccount.trans hbu.symm)
  exact ⟨c, hc, hct, (h.users b hb c hc hids).trans (hbuser.trans huser.symm)⟩

theorem Admitted.sound (h : Admitted tax ok B) : B.Sound := by
  induction h with
  | start _ hB => exact hB
  | request _ hr _ ih => exact ih.handle hr
  | elsewhere _ hC ih => exact ih.elsewhere hC

/-- Rows have no other types than requests give. -/
theorem Admitted.types (h : Admitted tax ok B) : ∀ t ∈ B.ledger, ok t.transactionType := by
  induction h with
  | start hempty _ => simp [hempty]
  | request hB _ hok ih =>
    intro t ht
    rcases (handle_rows hB.sound ht).2 with ⟨u, hu, htype⟩ | hnamed
    · exact htype ▸ ih u hu
    · exact hok _ hnamed
  | elsewhere _ hC ih =>
    intro t ht
    obtain ⟨u, hu, -, -, htype⟩ := hC.rows t ht
    exact htype ▸ ih u hu

end Books

/-! ## The transaction list -/

/-- The `type` of the transaction list. -/
inductive TypeFilter where
  | income
  | expense
  deriving DecidableEq, Repr

/-- `TransactionFilterSet.filter_type`. -/
def filterType (rows : List Transaction) : TypeFilter → List Transaction
  | .income => rows.filter fun t => t.transactionType = some "credit"
  | .expense =>
    rows.filter fun t => t.transactionType ∈ [some "debit", some "fee", some "transfer"]

/-- The types that the list knows. -/
def listedTypes : List (Option String) := [some "credit", some "debit", some "fee", some "transfer"]

section Sums

variable {accounts : List BankAccount} {L : Ledger} {user : UserId}

/-- A row is the user's exactly if its account is. -/
theorem mem_userAccounts_iff {t : Transaction} (hids : (accounts.map BankAccount.id).Nodup)
    (ht : Owned accounts t.user t.account) :
    t.account ∈ (accounts.filter fun a => a.user = user).map BankAccount.id ↔ t.user = user := by
  obtain ⟨b, hb, hbt, hbuser⟩ := ht
  rw [← hbt, ← hbuser, List.mem_map]
  constructor
  · rintro ⟨a, ha, haid⟩
    obtain ⟨hmem, huser⟩ := List.mem_filter.1 ha
    rw [← List.inj_on_of_nodup_map hids hmem hb haid]
    exact of_decide_eq_true huser
  · intro huser
    exact ⟨b, List.mem_filter.2 ⟨hb, decide_eq_true huser⟩, rfl⟩

/-- What the rows of a user's accounts move is what the user's rows move. -/
theorem sum_movement_accounts (hids : (accounts.map BankAccount.id).Nodup)
    (hrows : ∀ t ∈ L, Owned accounts t.user t.account) :
    ((accounts.filter fun a => a.user = user).map fun a =>
      ((Ledger.ofAccount L a.id).map Transaction.movement).sum).sum =
      ((Ledger.ofUser L user).map Transaction.movement).sum := by
  have hnodup : ((accounts.filter fun a => a.user = user).map BankAccount.id).Nodup :=
    hids.sublist (List.filter_sublist.map _)
  have hsum := @Grouping.sum_total _ _ _ _ _ (fun t : Transaction => some t.account)
    Transaction.movement L _ hnodup
  have hgroup : ∀ a : BankAccount, ((Ledger.ofAccount L a.id).map Transaction.movement).sum =
      Grouping.total (fun t : Transaction => some t.account) Transaction.movement L a.id := by
    intro a
    simp only [Ledger.ofAccount, Grouping.total, Option.some.injEq]
  have huser : (L.filter fun t => (some t.account).any
      (· ∈ (accounts.filter fun a => a.user = user).map BankAccount.id)) =
        Ledger.ofUser L user := by
    refine List.filter_congr fun t ht => ?_
    rw [Option.any_some, decide_eq_decide]
    exact mem_userAccounts_iff hids (hrows t ht)
  rw [huser, List.map_map] at hsum
  simp only [hgroup]
  exact hsum

end Sums

/-- If the list knows all types, its two sides make up what the rows move. -/
theorem income_sub_expense {rows : List Transaction}
    (h : ∀ t ∈ rows, t.transactionType ∈ listedTypes) :
    totalAmount (filterType rows .income) - totalAmount (filterType rows .expense) =
      (rows.map Transaction.movement).sum := by
  induction rows with
  | nil => rfl
  | cons t rows ih =>
    obtain ⟨ht, hrows⟩ := List.forall_mem_cons.1 h
    rw [List.map_cons, List.sum_cons, ← ih hrows]
    by_cases hcredit : t.transactionType = some "credit"
    · simp [totalAmount, filterType, Transaction.movement, hcredit]
      ring
    · have hexpense : t.transactionType ∈ [some "debit", some "fee", some "transfer"] :=
        (List.mem_cons.1 ht).resolve_left hcredit
      have hfilter : filterType (t :: rows) .expense = t :: filterType rows .expense := by
        simp only [filterType]
        exact List.filter_cons_of_pos (by simpa using hexpense)
      simp [totalAmount, hfilter]
      simp [filterType, Transaction.movement, hcredit]
      ring

namespace Books

variable {tax : Taxonomy} {ok : Option String → Prop} {B : Books} {user : UserId}
  {createdAt : TransactionId → Instant}

/-- No row of the user states a balance. -/
def Unstated (B : Books) (user : UserId) : Prop := ∀ t ∈ B.ledger.ofUser user, t.balance = none

instance : Decidable (B.Unstated user) := by
  unfold Unstated
  infer_instance

/-- Each row is income or an expense and not both, and the balances are the difference. -/
def FiltersMatch (createdAt : TransactionId → Instant) (B : Books) (user : UserId) : Prop :=
  (∀ t ∈ B.ledger.ofUser user, Xor (t ∈ filterType (B.ledger.ofUser user) .income)
    (t ∈ filterType (B.ledger.ofUser user) .expense)) ∧
  ((B.accounts.filter fun a => a.user = user).map fun a =>
    B.ledger.currentBalance createdAt a.id).sum =
      totalAmount (filterType (B.ledger.ofUser user) .income) -
        totalAmount (filterType (B.ledger.ofUser user) .expense)

/-- The balances of a user's accounts are what the user's rows move. -/
theorem sum_currentBalance (hB : B.Sound) (h : B.Unstated user) :
    ((B.accounts.filter fun a => a.user = user).map fun a =>
      B.ledger.currentBalance createdAt a.id).sum =
        ((B.ledger.ofUser user).map Transaction.movement).sum := by
  rw [← sum_movement_accounts hB.accounts hB.rows]
  refine congrArg List.sum (List.map_congr_left fun a ha => ?_)
  rw [Ledger.currentBalance_eq_since, Replay.since, Replay.latest_eq_none.2 fun t ht => ?_]
  refine h t ?_
  obtain ⟨hmem, haccount⟩ := List.mem_filter.1 ht
  have haccount' : t.account = a.id := of_decide_eq_true haccount
  have huser : t.user = user := by
    rw [← mem_userAccounts_iff hB.accounts (hB.rows t hmem), haccount']
    exact List.mem_map_of_mem ha
  exact List.mem_filter.2 ⟨hmem, decide_eq_true huser⟩

theorem filtersMatch_iff (hB : B.Sound) (h : B.Unstated user) : B.FiltersMatch createdAt user ↔
    ∀ t ∈ B.ledger.ofUser user, t.transactionType ∈ listedTypes := by
  constructor
  · rintro ⟨hone, -⟩ t ht
    rcases hone t ht with ⟨hincome, -⟩ | ⟨hexpense, -⟩
    · have hcredit := of_decide_eq_true (List.mem_filter.1 hincome).2
      rw [hcredit]
      exact List.mem_cons_self
    · exact List.mem_cons_of_mem _ (of_decide_eq_true (List.mem_filter.1 hexpense).2)
  · intro htypes
    refine ⟨fun t ht => ?_, ?_⟩
    · rcases List.mem_cons.1 (htypes t ht) with hcredit | hexpense
      · refine Or.inl ⟨List.mem_filter.2 ⟨ht, decide_eq_true hcredit⟩, fun hmem => ?_⟩
        have htype := of_decide_eq_true (List.mem_filter.1 hmem).2
        rw [hcredit] at htype
        exact absurd htype (by decide)
      · refine Or.inr ⟨List.mem_filter.2 ⟨ht, decide_eq_true hexpense⟩, fun hmem => ?_⟩
        rw [of_decide_eq_true (List.mem_filter.1 hmem).2] at hexpense
        exact absurd hexpense (by decide)
    · rw [sum_currentBalance hB h, income_sub_expense htypes]

/-- In every ledger that the service writes and that states no balance, list and balances agree
exactly if all types are listed; so they do if requests give rows no other types. -/
theorem listed_types_match (tax : Taxonomy) (createdAt : TransactionId → Instant) (user : UserId) :
    (∀ B, Admitted tax (fun _ => True) B → B.Unstated user → (B.FiltersMatch createdAt user ↔
      ∀ t ∈ B.ledger.ofUser user, t.transactionType ∈ listedTypes)) ∧
    ∀ B, Admitted tax (· ∈ listedTypes) B → B.Unstated user → B.FiltersMatch createdAt user :=
  ⟨fun _ hB h => filtersMatch_iff hB.sound h, fun _ hB h =>
    (filtersMatch_iff hB.sound h).2 fun t ht => hB.types t (List.mem_of_mem_filter ht)⟩

end Books

/-- An account that is kept by hand, with one payment of the given type. -/
def onePayment (transactionType : Option String) : Books :=
  (Books.mk [cashAccount] [] []).handle noTaxonomy
    (.post 1 (some 7) { cashPayment 6500 with transactionType })

theorem onePayment_admitted {ok : Option String → Prop} {transactionType : Option String}
    (h : ok transactionType) : Books.Admitted noTaxonomy ok (onePayment transactionType) := by
  refine .request (.start rfl ⟨by decide, by simp, by simp⟩) trivial fun u hu => ?_
  rw [List.mem_singleton.1 hu]
  exact h

theorem listed_types_match_fee : (onePayment "fee").FiltersMatch (fun id => id) 1 :=
  (Books.listed_types_match noTaxonomy (fun id => id) 1).2 _ (onePayment_admitted (by decide))
    (by decide)

/-- A payment without a type is neither income nor an expense, and the balance falls. -/
theorem untyped_hidden : ¬∀ (tax : Taxonomy) (createdAt : TransactionId → Instant) (user : UserId)
    (B : Books), Books.Admitted tax (fun _ => True) B → B.Unstated user →
      B.FiltersMatch createdAt user := by
  intro h
  have hmatch := h noTaxonomy (fun id => id) 1 (onePayment none) (onePayment_admitted trivial)
    (by decide)
  exact absurd hmatch.2 (by decide +kernel)

end NbeAdvisor
