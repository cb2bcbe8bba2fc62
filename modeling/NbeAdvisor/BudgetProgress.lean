import NbeAdvisor.Budgets
import NbeAdvisor.DateArithmetic

/-!
# How much of the plan is used

`BudgetProgressView` and `DashboardView` report, for each category of the plan, which percentage
of its amount is spent. The first counts a whole month, and the second the days of a window up to
today. Of the current month they count the same rows up to today, and the first also counts those
that are dated later (`spent_eq_window_add_later`). So they report the same percentage if these
come to nothing (`dashboard_agrees`).
-/

namespace NbeAdvisor

open Numerals

/-! ## One month -/

/-- The types that count as spending. -/
def Transaction.isSpend (t : Transaction) : Bool :=
  t.transactionType = some "debit" ∨ t.transactionType = some "fee"

/-- `transaction_date__year=.., transaction_date__month=..`. -/
def Transaction.InMonth (year month : ℕ) (t : Transaction) : Prop :=
  t.transactionDate.year = year ∧ t.transactionDate.month = month

instance (year month : ℕ) : DecidablePred (Transaction.InMonth year month) := fun t => by
  unfold Transaction.InMonth
  infer_instance

/-- The spending in a category, among some rows. -/
def spentIn (rows : List Transaction) (c : CategoryId) : ℤ :=
  totalAmount (rows.filter fun t => t.category = some c ∧ t.isSpend)

/-- The `status` of a category. -/
inductive CategoryStatus where
  | onTrack
  | approachingLimit
  | overBudget
  deriving DecidableEq, Repr

/-- An entry of `categories`. -/
structure CategoryProgress where
  category : String
  allocatedAmount : Numeric 14 2
  actualAmount : ℤ
  percentageUsed : Double
  status : CategoryStatus
  deriving DecidableEq

/-- `APPROACHING_LIMIT_THRESHOLD`. -/
def approachingLimitThreshold : ℚ := 80

namespace BudgetAllocation

/-- `actual / alloc.allocated_amount * 100`; where nothing is allocated, any spending is over. -/
def percentageUsed (a : BudgetAllocation) (actual : ℤ) : Double :=
  if a.allocatedAmount.value ≠ 0 then
    Double.ofRat (decimal28 (decimal28 ((actual : ℚ) / 100 / a.allocatedAmount.value) * 100))
  else if actual ≠ 0 then Double.ofRat 100
  else Double.ofRat 0

/-- The entry of an allocation in the month's progress. -/
def progress (L : Ledger) (user : UserId) (year month : ℕ) (a : BudgetAllocation) :
    CategoryProgress :=
  let actual := spentIn ((L.ofUser user).filter fun t => t.InMonth year month) a.category.id
  let percentageUsed := a.percentageUsed actual
  { category := a.category.name
    allocatedAmount := a.allocatedAmount
    actualAmount := actual
    percentageUsed := percentageUsed.round 2
    status :=
      if 100 ≤ percentageUsed.value then .overBudget
      else if approachingLimitThreshold ≤ percentageUsed.value then .approachingLimit
      else .onTrack }

end BudgetAllocation

/-- `BudgetProgressView.get`, for a period. -/
def Budget.progress (L : Ledger) (user : UserId) (year month : ℕ) (b : Budget) :
    List CategoryProgress := b.allocations.map (·.progress L user year month)

/-! ## The windows of the dashboard -/

/-- `_DASHBOARD_PERIODS`. -/
inductive DashboardPeriod where
  | thisMonth
  | lastMonth
  | last3Months
  | thisYear
  | last5Years
  deriving DecidableEq, Repr

/-- What `_resolve_window` returns. -/
structure Window where
  start : Date
  endDate : Date
  prevStart : Date
  prevEnd : Date
  deriving DecidableEq

namespace DashboardPeriod

/-- The dates between which a window lies. -/
def bounds (today : Date) : DashboardPeriod → Option (Date × Date)
  | thisMonth => (Date.ofYmd today.year today.month 1).map (·, today)
  | lastMonth =>
    let (year, month) := if today.month = 1 then (today.year - 1, 12)
      else (today.year, today.month - 1)
    do
      let start ← Date.ofYmd year month 1
      let endDate ← Date.ofYmd year month (daysInMonth year month)
      return (start, endDate)
  | last3Months =>
    let (year, month) := if today.month ≤ 3 then (today.year - 1, today.month + 12 - 3)
      else (today.year, today.month - 3)
    (Date.ofYmd year month 1).map (·, today)
  | thisYear => (Date.ofYmd today.year 1 1).map (·, today)
  | last5Years => (Date.ofYmd (today.year - 4) 1 1).map (·, today)

/-- `_resolve_window`, `none` where a date is out of range. -/
def resolveWindow (today : Date) (period : DashboardPeriod) : Option Window := do
  let (start, endDate) ← period.bounds today
  let lengthDays := endDate.daysSince start + 1
  let prevEnd ← start.addDays (-1)
  let prevStart ← prevEnd.addDays (-(lengthDays - 1))
  return ⟨start, endDate, prevStart, prevEnd⟩

end DashboardPeriod

/-- An entry of `allocations_summary`. -/
structure AllocationSummary where
  category : String
  allocatedPercentage : Numeric 5 2
  percentageUsed : Double
  deriving DecidableEq

/-- `window_txns`. -/
def Ledger.inWindow (L : Ledger) (user : UserId) (account : Option AccountId) (w : Window) :
    List Transaction :=
  (L.ofUser user).filter fun t => (w.start ≤ t.transactionDate ∧ t.transactionDate ≤ w.endDate) ∧
    ∀ a ∈ account, t.account = a

/-- The entry of an allocation on the dashboard. -/
def BudgetAllocation.summary (rows : List Transaction) (a : BudgetAllocation) :
    AllocationSummary :=
  { category := a.category.name
    allocatedPercentage := a.allocatedPercentage
    percentageUsed := (a.percentageUsed (spentIn rows a.category.id)).round 2 }

/-- The `allocations_summary` of `DashboardView.get`, for a user with a plan. -/
def Budget.allocationsSummary (L : Ledger) (user : UserId) (period : DashboardPeriod)
    (account : Option AccountId) (today : Date) (b : Budget) : Option (List AllocationSummary) :=
  (period.resolveWindow today).map fun w =>
    b.allocations.map (·.summary (L.inWindow user account w))

/-! ## The current month -/

section CurrentMonth

variable {L : Ledger} {user : UserId} {today start : Date} {w : Window} {a : BudgetAllocation}

/-- This month goes from its first day to today. -/
theorem bounds_thisMonth (today : Date) : ∃ start, DashboardPeriod.thisMonth.bounds today =
    some (start, today) ∧ start.year = today.year ∧ start.month = today.month ∧ start.day = 1 := by
  have hday := today.day_valid
  refine ⟨⟨today.year, today.month, 1, today.year_valid, le_rfl, by omega⟩, ?_, rfl, rfl, rfl⟩
  rw [DashboardPeriod.bounds, Date.ofYmd_eq_some today.year_valid ⟨le_rfl, by omega⟩]
  rfl

/-- So does its window. -/
theorem window_thisMonth (hw : DashboardPeriod.thisMonth.resolveWindow today = some w) :
    w.start.year = today.year ∧ w.start.month = today.month ∧ w.start.day = 1 ∧
      w.endDate = today := by
  obtain ⟨start, hbounds, hyear, hmonth, hday⟩ := bounds_thisMonth today
  simp only [DashboardPeriod.resolveWindow, hbounds, Option.bind_eq_bind, Option.bind_some,
    Option.bind_eq_some_iff] at hw
  obtain ⟨prevEnd, -, prevStart, -, hw⟩ := hw
  cases hw
  exact ⟨hyear, hmonth, hday, rfl⟩

/-- The window before has as many days, and there must be as many before the month. -/
theorem resolveWindow_thisMonth_isSome :
    (DashboardPeriod.thisMonth.resolveWindow today).isSome = true ↔
      today.day ≤ Date.daysBeforeYear today.year + Date.daysBeforeMonth today.year today.month := by
  obtain ⟨start, hbounds, hyear, hmonth, hday⟩ := bounds_thisMonth today
  have hstart : start.toordinal = Date.daysBeforeYear today.year +
      Date.daysBeforeMonth today.year today.month + 1 := by
    rw [Date.toordinal, hyear, hmonth, hday]
  have htoday : today.toordinal = Date.daysBeforeYear today.year +
    Date.daysBeforeMonth today.year today.month + today.day := rfl
  have hmax := start.toordinal_le
  have hpos := today.day_valid.1
  simp only [DashboardPeriod.resolveWindow, hbounds, Option.bind_eq_bind, Option.bind_some]
  cases hprev : start.addDays (-1) with
  | none =>
    have hout : ¬(0 < (start.toordinal : ℤ) + -1 ∧ (start.toordinal : ℤ) + -1 ≤ Date.maxOrdinal) := by
      rw [← Date.addDays_isSome_iff, hprev]
      decide
    refine iff_of_false (by simp) ?_
    omega
  | some prevEnd =>
    have hord := Date.toordinal_addDays hprev
    have hsome : ∀ o : Option Date, (o.bind fun prevStart =>
        (pure ⟨start, today, prevStart, prevEnd⟩ : Option Window)).isSome = o.isSome := by
      intro o
      cases o with
      | none => rfl
      | some _ => rfl
    rw [Option.bind_some, hsome, Date.addDays_isSome_iff, Date.daysSince]
    omega

/-- Only in the first month of all there is no window before the current one. -/
theorem resolveWindow_thisMonth_eq_none :
    DashboardPeriod.thisMonth.resolveWindow today = none ↔ today.year = 1 ∧ today.month = 1 := by
  rw [← Option.not_isSome_iff_eq_none, resolveWindow_thisMonth_isSome, not_le]
  have hyear := today.year_valid
  have hday := today.day_valid
  have hle := today.day_le
  constructor
  · intro h
    have hyear₁ : today.year = 1 := by
      unfold Date.daysBeforeYear at h
      omega
    refine ⟨hyear₁, ?_⟩
    by_contra hmonth
    have hmonth₀ : today.month ≠ 0 := by
      intro h₀
      rw [h₀] at hday
      exact absurd hday.2 (by simp [daysInMonth]; omega)
    have := Date.le_daysBeforeMonth today.year today.month today.month_le (by omega)
    omega
  · rintro ⟨hy, hm⟩
    rw [hy, hm]
    have : Date.daysBeforeYear 1 + Date.daysBeforeMonth 1 1 = 0 := by decide
    omega

/-- The days of the current window are those of the month that have come. -/
theorem mem_window_iff (hw : DashboardPeriod.thisMonth.resolveWindow today = some w) (d : Date) :
    (w.start ≤ d ∧ d ≤ w.endDate) ↔
      (d.year = today.year ∧ d.month = today.month) ∧ ¬today < d := by
  obtain ⟨hyear, hmonth, hday, hend⟩ := window_thisMonth hw
  have hle : ∀ c e : Date, c ≤ e ↔ c.code ≤ e.code := fun _ _ => Iff.rfl
  rw [hend, not_lt, hle, hle]
  simp only [Date.code, hyear, hmonth, hday]
  have := d.month_le
  have := d.day_le
  have := d.day_valid.1
  have := today.month_le
  have := today.day_le
  omega

/-- The user's spending in the category that is dated after today, in this month. -/
def BudgetAllocation.laterSpending (L : Ledger) (user : UserId) (today : Date)
    (a : BudgetAllocation) : ℤ :=
  spentIn ((L.ofUser user).filter fun t =>
    t.InMonth today.year today.month ∧ today < t.transactionDate) a.category.id

/-- The month is the window and the days after it. -/
theorem spent_eq_window_add_later (hw : DashboardPeriod.thisMonth.resolveWindow today = some w) :
    spentIn ((L.ofUser user).filter fun t => t.InMonth today.year today.month) a.category.id =
      spentIn (L.inWindow user none w) a.category.id + a.laterSpending L user today := by
  unfold BudgetAllocation.laterSpending spentIn Ledger.inWindow
  simp only [List.filter_filter, ← Bool.decide_and]
  rw [← totalAmount_and_add _ fun t => today < t.transactionDate, add_comm]
  congr 2
  · refine List.filter_congr fun t _ => decide_eq_decide.2 ?_
    rw [and_assoc, mem_window_iff hw]
    simp [Transaction.InMonth]
  · refine List.filter_congr fun t _ => decide_eq_decide.2 ?_
    rw [and_assoc]

/-- The dashboard answers unless it is the first month of all. Then both views report the same
percentage for each category of the plan whose spending dated later this month is nothing. -/
theorem dashboard_agrees (L : Ledger) (user : UserId) (today : Date) (b : Budget) :
    (b.allocationsSummary L user .thisMonth none today = none ↔
      today.year = 1 ∧ today.month = 1) ∧
    ∀ summaries, b.allocationsSummary L user .thisMonth none today = some summaries →
      ∀ (i : ℕ) (a : BudgetAllocation), b.allocations[i]? = some a →
        a.laterSpending L user today = 0 →
        ∃ (p : CategoryProgress) (s : AllocationSummary), (b.progress L user today.year today.month)[i]? = some p ∧
          summaries[i]? = some s ∧ p.category = a.category.name ∧ s.category = a.category.name ∧
          p.percentageUsed = s.percentageUsed := by
  constructor
  · rw [Budget.allocationsSummary, Option.map_eq_none_iff, resolveWindow_thisMonth_eq_none]
  · intro summaries h i a ha hlater
    obtain ⟨w, hw, rfl⟩ := Option.map_eq_some_iff.1 h
    refine ⟨a.progress L user today.year today.month, a.summary (L.inWindow user none w),
      ?_, ?_, rfl, rfl, ?_⟩
    · rw [Budget.progress, List.getElem?_map, ha, Option.map_some]
    · rw [List.getElem?_map, ha, Option.map_some]
    · have hspent := @spent_eq_window_add_later L user today w a hw
      rw [hlater, add_zero] at hspent
      simp only [BudgetAllocation.progress, BudgetAllocation.summary, hspent]

end CurrentMonth

/-- A plan that spends a hundred pounds on food. -/
def foodBudget : Budget :=
  { createdAt := 0, updatedAt := 0
    allocations := [{
      category := ⟨3, "food", .expense⟩
      allocatedPercentage := ⟨10000, by norm_num⟩, allocatedAmount := ⟨10000, by norm_num⟩ }]
    unique := List.nodup_singleton _ }

/-- A day of July 2027. -/
def julyDay (day : ℕ) (h : 1 ≤ day ∧ day ≤ 31 := by decide) : Date := ⟨2027, 7, day, by decide, h⟩

/-- Bought on the given day. -/
def groceries (day : Date) : Transaction :=
  { id := 1, user := 1, account := 7, transactionDate := day, merchantRaw := none, category := some 3
    amount := 2500, source := .manual, transactionType := "debit" }

/-- One purchase on the first of July, seen that day. -/
theorem dashboard_agrees_groceries : ∃ (summaries : List AllocationSummary)
    (p : CategoryProgress) (s : AllocationSummary),
    foodBudget.allocationsSummary [groceries (julyDay 1)] 1 .thisMonth none (julyDay 1) =
      some summaries ∧
    (foodBudget.progress [groceries (julyDay 1)] 1 2027 7)[0]? = some p ∧
      summaries[0]? = some s ∧ p.percentageUsed = s.percentageUsed := by
  obtain ⟨hnone, hsome⟩ := dashboard_agrees [groceries (julyDay 1)] 1 (julyDay 1) foodBudget
  obtain ⟨summaries, hsummaries⟩ := Option.ne_none_iff_exists'.1 (mt hnone.1 (by decide))
  obtain ⟨p, s, hp, hs, -, -, heq⟩ := hsome summaries hsummaries 0 _ rfl (by decide +kernel)
  exact ⟨summaries, p, s, hsummaries, hp, hs, heq⟩

/-- What is dated tomorrow is in the progress of the month today, and on the dashboard tomorrow. -/
theorem dashboard_disagrees :
    ¬∀ (L : Ledger) (user : UserId) (today : Date) (b : Budget)
      (summaries : List AllocationSummary),
      b.allocationsSummary L user .thisMonth none today = some summaries →
      (b.progress L user today.year today.month).map (·.percentageUsed) =
        summaries.map (·.percentageUsed) := by
  intro h
  have heq := h [groceries (julyDay 2)] 1 (julyDay 1) foodBudget
    [⟨"food", ⟨10000, by norm_num⟩, Double.ofRat 0⟩] (by decide +kernel)
  exact absurd heq (by decide +kernel)

end NbeAdvisor
