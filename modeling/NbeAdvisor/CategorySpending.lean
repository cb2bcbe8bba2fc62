import NbeAdvisor.BudgetProgress
import NbeAdvisor.Grouping
import Mathlib.Data.List.Sort

/-!
# What a category has cost

`CategoryBreakdownView` and `MonthlySummariesView` sum the rows of each category, of whatever type.
The budget counts debits and fees as spending. So a category's amount is what is spent in it exactly
if its other rows come to nothing (`categoryTotal_eq_spent_iff`), and the categories of a month
exceed its spending exactly if their other rows outweigh the spending outside of them
(`sum_categoryTotals_le_iff`).
-/

namespace NbeAdvisor

open Numerals

/-- The names of the categories, which the database keeps distinct. -/
structure CategoryNames where
  name : CategoryId → String
  unique : Function.Injective name

/-- `category__name`. -/
def CategoryNames.of (names : CategoryNames) (t : Transaction) : Option String :=
  t.category.map names.name

/-- `exclude(category=None).values("category__name").annotate(total=Sum("amount"))`. -/
def categoryTotals (names : CategoryNames) (rows : List Transaction) : List (String × ℤ) :=
  Grouping.totals names.of (·.amount) rows

/-- An entry of `breakdown`. -/
structure CategoryAmount where
  category : String
  amount : ℤ
  percentageOfTotal : Double
  deriving DecidableEq

/-- The rows of a user, and only of one account if the request names it. -/
def Ledger.view (L : Ledger) (user : UserId) (account : Option AccountId) : List Transaction :=
  (L.ofUser user).filter fun t => ∀ a ∈ account, t.account = a

/-- `CategoryBreakdownView.get`, for a period. -/
def categoryBreakdown (names : CategoryNames) (L : Ledger) (user : UserId)
    (account : Option AccountId) (year month : ℕ) : List CategoryAmount :=
  let rows := (categoryTotals names ((L.view user account).filter fun t => t.InMonth year month))
    |>.mergeSort fun r s => s.2 ≤ r.2
  let grandTotal := (rows.map Prod.snd).sum
  rows.map fun row =>
    { category := row.1
      amount := row.2
      percentageOfTotal :=
        if grandTotal ≠ 0 then
          (Double.ofRat (decimal28 (decimal28 ((row.2 : ℚ) / 100 / (grandTotal / 100)) * 100))).round 2
        else Double.ofRat 0 }

/-! ## The summaries of the months -/

/-- An entry of the summaries. -/
structure MonthlySummary where
  year : ℕ
  month : ℕ
  accountId : Option AccountId
  totalSpend : ℤ
  totalInflow : ℤ
  categoryBreakdown : List (String × ℤ)
  topMerchants : List (String × ℤ)
  deriving DecidableEq

/-- `(merchant_normalized, merchant_raw)`, where there is a raw name. -/
def Transaction.merchant (t : Transaction) : Option (Option String × String) :=
  t.merchantRaw.map fun raw => (t.merchantNormalized, raw)

/-- `row["merchant_normalized"] or row["merchant_raw"]`. -/
def merchantName : Option String × String → String
  | (some normalized, raw) => if normalized = "" then raw else normalized
  | (none, raw) => raw

/-- The summary of a month, of the rows of one account or of all. -/
def monthlySummary (names : CategoryNames) (account : Option AccountId) (rows : List Transaction)
    (year month : ℕ) : MonthlySummary :=
  let rows := rows.filter fun t => t.InMonth year month
  { year, month, accountId := account
    totalSpend := totalAmount (rows.filter fun t => t.isSpend)
    totalInflow := totalAmount (rows.filter fun t => t.transactionType = some "credit")
    categoryBreakdown := categoryTotals names rows
    topMerchants := ((Grouping.totals Transaction.merchant (·.amount) rows).mergeSort
      fun r s => s.2 ≤ r.2).take 5 |>.map fun row => (merchantName row.1, row.2) }

/-- The rows between two dates, if they are given. -/
def between (first last : Option Date) (rows : List Transaction) : List Transaction :=
  rows.filter fun t => (∀ d ∈ first, d ≤ t.transactionDate) ∧ ∀ d ∈ last, t.transactionDate ≤ d

/-- `MonthlySummariesView.get` : the months that have rows between the dates, the last first. -/
def monthlySummaries (names : CategoryNames) (L : Ledger) (user : UserId)
    (account : Option AccountId) (first last : Option Date) : List MonthlySummary :=
  let rows := between first last (L.view user account)
  let months := (rows.map fun t => (t.transactionDate.year, t.transactionDate.month)).dedup
  (months.mergeSort fun m n => n.1 < m.1 ∨ (n.1 = m.1 ∧ n.2 ≤ m.2)).map fun m =>
    monthlySummary names account rows m.1 m.2

/-! ## Spending and other rows -/

/-- The rows of a category that are of any other type. -/
def otherIn (rows : List Transaction) (c : CategoryId) : ℤ :=
  totalAmount (rows.filter fun t => t.category = some c ∧ ¬t.isSpend)

section Amounts

variable {names : CategoryNames} {L : Ledger} {user : UserId} {account : Option AccountId}
  {rows : List Transaction} {year month : ℕ} {c : CategoryId}

/-- Rows of a category go by its name. -/
theorem names_of_eq_iff {t : Transaction} :
    names.of t = some (names.name c) ↔ t.category = some c := by
  rw [CategoryNames.of, Option.map_eq_some_iff]
  constructor
  · rintro ⟨d, hd, heq⟩
    rw [hd, names.unique heq]
  · exact fun h => ⟨c, h, rfl⟩

/-- What goes by the name is what was spent, and what else the rows are. -/
theorem total_eq_spent_add_other : Grouping.total names.of (·.amount) rows (names.name c) =
    spentIn rows c + otherIn rows c := by
  have hgroup : (rows.filter fun t => names.of t = some (names.name c)) =
      rows.filter fun t => t.category = some c :=
    List.filter_congr fun t _ => decide_eq_decide.2 names_of_eq_iff
  rw [Grouping.total, hgroup]
  exact (totalAmount_and_add (fun t => t.category = some c) (fun t => t.isSpend = true) rows).symm

/-- An entry has the name of a category with rows, and its total. -/
theorem mem_categoryBreakdown {n : String} {m : ℤ} :
    (∃ e ∈ categoryBreakdown names L user account year month, e.category = n ∧ e.amount = m) ↔
      (n, m) ∈ categoryTotals names ((L.view user account).filter fun t => t.InMonth year month) := by
  simp only [categoryBreakdown, List.mem_map, List.mem_mergeSort]
  constructor
  · rintro ⟨_, ⟨row, hrow, rfl⟩, rfl, rfl⟩
    exact hrow
  · exact fun h => ⟨_, ⟨_, h, rfl⟩, rfl, rfl⟩

/-- A category costs what is spent in it exactly if its other rows come to nothing. -/
theorem categoryTotal_eq_spent_iff :
    (∀ e ∈ categoryBreakdown names L user account year month, e.category = names.name c →
      e.amount = spentIn ((L.view user account).filter fun t => t.InMonth year month) c) ↔
    otherIn ((L.view user account).filter fun t => t.InMonth year month) c = 0 := by
  set rows := (L.view user account).filter fun t => t.InMonth year month with hrows
  have hmem : ∀ m, (∃ e ∈ categoryBreakdown names L user account year month,
      e.category = names.name c ∧ e.amount = m) ↔
        (∃ t ∈ rows, t.category = some c) ∧ m = spentIn rows c + otherIn rows c := by
    intro m
    rw [mem_categoryBreakdown, categoryTotals, Grouping.mem_totals, total_eq_spent_add_other]
    simp only [names_of_eq_iff, hrows]
  constructor
  · intro h
    by_cases hlisted : ∃ t ∈ rows, t.category = some c
    · obtain ⟨e, he, hname, hamount⟩ := (hmem _).2 ⟨hlisted, rfl⟩
      have := h e he hname
      omega
    · push Not at hlisted
      rw [otherIn, List.filter_eq_nil_iff.2 fun t ht => by simp [hlisted t ht]]
      rfl
  · intro hother e he hname
    have := ((hmem e.amount).1 ⟨e, he, hname, rfl⟩).2
    omega

/-- The categories together exceed the spending exactly if their other rows outweigh the spending
outside of them. -/
theorem sum_categoryTotals_le_iff :
    ((categoryTotals names rows).map Prod.snd).sum ≤ totalAmount (rows.filter fun t => t.isSpend) ↔
      totalAmount (rows.filter fun t => t.category ≠ none ∧ ¬t.isSpend) ≤
        totalAmount (rows.filter fun t => t.category = none ∧ t.isSpend) := by
  have hsum : ((categoryTotals names rows).map Prod.snd).sum =
      totalAmount (rows.filter fun t => t.category ≠ none) := by
    rw [categoryTotals, Grouping.sum_totals]
    refine congrArg totalAmount (List.filter_congr fun t _ => ?_)
    cases hc : t.category with
    | none => simp [CategoryNames.of, hc]
    | some c => simp [CategoryNames.of, hc]
  have hcategorised : totalAmount (rows.filter fun t => t.category ≠ none ∧ t.isSpend) +
      totalAmount (rows.filter fun t => t.category ≠ none ∧ ¬t.isSpend) =
        totalAmount (rows.filter fun t => t.category ≠ none) :=
    totalAmount_and_add (fun t => t.category ≠ none) (fun t => t.isSpend = true) rows
  have hspend : totalAmount (rows.filter fun t => t.category = none ∧ t.isSpend) +
      totalAmount (rows.filter fun t => t.category ≠ none ∧ t.isSpend) =
        totalAmount (rows.filter fun t => t.isSpend) := by
    have h := totalAmount_and_add (fun t => t.isSpend = true) (fun t => t.category = none) rows
    simpa only [and_comm, Bool.decide_eq_true] using h
  omega

/-- Every summary is that of its month. -/
theorem mem_monthlySummaries {first last : Option Date} {e : MonthlySummary}
    (he : e ∈ monthlySummaries names L user account first last) :
    e = monthlySummary names account (between first last (L.view user account)) e.year e.month := by
  obtain ⟨m, -, rfl⟩ := List.mem_map.1 he
  rfl

end Amounts

/-- What a category is said to have cost is what is spent in it, and so what the budget reports,
exactly if its rows of other types come to nothing; the categories of a month keep within its
spending exactly if their rows of other types come to at most the spending outside of them. -/
theorem category_amounts_spent (names : CategoryNames) (L : Ledger) (user : UserId) :
    (∀ (account : Option AccountId) (year month : ℕ) (c : CategoryId),
      (∀ e ∈ categoryBreakdown names L user account year month, e.category = names.name c →
        e.amount = spentIn ((L.view user account).filter fun t => t.InMonth year month) c) ↔
      otherIn ((L.view user account).filter fun t => t.InMonth year month) c = 0) ∧
    (∀ (year month : ℕ) (a : BudgetAllocation),
      (∀ e ∈ categoryBreakdown names L user none year month, e.category = names.name a.category.id →
        e.amount = (a.progress L user year month).actualAmount) ↔
      otherIn ((L.ofUser user).filter fun t => t.InMonth year month) a.category.id = 0) ∧
    ∀ (account : Option AccountId) (first last : Option Date),
      ∀ e ∈ monthlySummaries names L user account first last,
        let rows := (between first last (L.view user account)).filter fun t =>
          t.InMonth e.year e.month
        (e.categoryBreakdown.map Prod.snd).sum ≤ e.totalSpend ↔
          totalAmount (rows.filter fun t => t.category ≠ none ∧ ¬t.isSpend) ≤
            totalAmount (rows.filter fun t => t.category = none ∧ t.isSpend) := by
  refine ⟨fun account year month c => categoryTotal_eq_spent_iff, fun year month a => ?_,
    fun account first last e he => ?_⟩
  · have hview : L.view user none = L.ofUser user := List.filter_eq_self.2 fun t _ => by simp
    have h := @categoryTotal_eq_spent_iff names L user none year month a.category.id
    rw [hview] at h
    exact h
  · have hentry := mem_monthlySummaries he
    have hbreakdown := congrArg MonthlySummary.categoryBreakdown hentry
    have hspend := congrArg MonthlySummary.totalSpend hentry
    rw [hbreakdown, hspend]
    exact sum_categoryTotals_le_iff

/-- The names are the numbers. -/
def numberNames : CategoryNames := ⟨fun c => String.ofList (List.replicate c 'x'), fun c d h => by
  have hlen := congrArg (fun s => s.toList.length) h
  simpa using hlen⟩

/-- A month of two users : groceries from two accounts, the rent, and a salary. -/
def julyRows : Ledger :=
  [groceries (julyDay 2), { groceries (julyDay 12) with id := 2, account := 8, amount := 4050 },
    { groceries (julyDay 3) with id := 3, category := some 4, amount := 850000 },
    { groceries (julyDay 25) with
      id := 4, category := some 5, amount := 1200000, transactionType := "credit" },
    { groceries (julyDay 4) with id := 5, user := 2, account := 9 }]

/-- Groceries in July, beside rows of other categories and months. -/
theorem category_amounts_spent_groceries :
    ∀ e ∈ categoryBreakdown numberNames julyRows 1 none 2027 7, e.category = numberNames.name 3 →
      e.amount = spentIn ((julyRows.view 1 none).filter fun t => t.InMonth 2027 7) 3 :=
  ((category_amounts_spent numberNames julyRows 1).1 none 2027 7 3).2 (by decide +kernel)

/-- A refund of groceries. -/
def refund (day : Date) : Transaction :=
  { groceries day with id := 2, amount := 1000, transactionType := "credit" }

/-- The refund is added to what was spent. -/
theorem refund_is_spent :
    ¬∀ (names : CategoryNames) (L : Ledger) (user : UserId) (year month : ℕ),
      (∀ c, ∀ e ∈ categoryBreakdown names L user none year month, e.category = names.name c →
        e.amount = spentIn ((L.view user none).filter fun t => t.InMonth year month) c) ∧
      (∀ a : BudgetAllocation, ∀ e ∈ categoryBreakdown names L user none year month,
        e.category = names.name a.category.id →
          e.amount = (a.progress L user year month).actualAmount) ∧
      ∀ e ∈ monthlySummaries names L user none none none,
        (e.categoryBreakdown.map Prod.snd).sum ≤ e.totalSpend := by
  intro h
  have hentry := (h numberNames [groceries (julyDay 1), refund (julyDay 2)] 1 2027 7).1 3
    ⟨"xxx", 3500, Double.ofRat 100⟩ (by decide +kernel) rfl
  exact absurd hentry (by decide +kernel)

end NbeAdvisor
