import NbeAdvisor.Portfolio
import Mathlib.Data.Rat.Floor
import Mathlib.Tactic.Linarith
import Mathlib.Tactic.Positivity
import Mathlib.Tactic.FieldSimp
import Mathlib.Tactic.Ring
import Mathlib.Tactic.LinearCombination

/-!
# The average price of a holding over many purchases

Each confirmation that finds a holding rounds the weighted average to four places, and the next
one starts from the rounded price. The average stays between the prices that it is made of, since
these have four places themselves, and the cost that it stands for drifts off by half of the last
digit for each unit that is held after a merge (`average_of_merges`).
-/

namespace NbeAdvisor

/-! ## Rounding half up -/

section HalfUp

variable {x : ℚ} {n : ℕ}

theorem le_floor_add_half (h : n ≤ x) : n ≤ ⌊x + 1 / 2⌋₊ :=
  Nat.le_floor (by linarith)

theorem floor_add_half_le (h : x ≤ n) : ⌊x + 1 / 2⌋₊ ≤ n := by
  refine Nat.lt_add_one_iff.1 ((Nat.floor_lt' n.succ_ne_zero).2 ?_)
  push_cast
  linarith

theorem abs_floor_add_half_sub_le (h : 0 ≤ x) : |(⌊x + 1 / 2⌋₊ : ℚ) - x| ≤ 1 / 2 := by
  have hle := Nat.floor_le (a := x + 1 / 2) (by linarith)
  have hlt := Nat.lt_floor_add_one (x + 1 / 2)
  rw [abs_le]
  constructor
  · linarith
  · linarith

end HalfUp

/-! ## One purchase -/

section Merge

variable {h : InvestmentHolding} {b : PurchaseBody} {n : ℕ}

/-- The mean that is rounded. -/
def InvestmentHolding.meanPrice (h : InvestmentHolding) (b : PurchaseBody) : ℚ :=
  (h.quantity * h.averagePurchasePrice + b.quantity * b.unitPrice) / (h.quantity + b.quantity : ℕ)

theorem weightedPrice_eq (h : InvestmentHolding) (b : PurchaseBody) :
    h.weightedPrice id b = ⌊h.meanPrice b + 1 / 2⌋₊ := rfl

theorem InvestmentHolding.quantity_pos (h : InvestmentHolding) (b : PurchaseBody) :
    (0 : ℚ) < (h.quantity + b.quantity : ℕ) :=
  Nat.cast_pos.2 (Nat.add_pos_right _ b.quantity_pos)

theorem InvestmentHolding.meanPrice_mul (h : InvestmentHolding) (b : PurchaseBody) :
    h.meanPrice b * (h.quantity + b.quantity : ℕ) =
      h.quantity * h.averagePurchasePrice + b.quantity * b.unitPrice :=
  div_mul_cancel₀ _ (h.quantity_pos b).ne'

theorem le_weightedPrice (h₁ : n ≤ h.averagePurchasePrice) (h₂ : n ≤ b.unitPrice) :
    n ≤ h.weightedPrice id b := by
  rw [weightedPrice_eq]
  refine le_floor_add_half ((le_div_iff₀ (h.quantity_pos b)).2 ?_)
  have h₁' : (n : ℚ) ≤ h.averagePurchasePrice := by exact_mod_cast h₁
  have h₂' : (n : ℚ) ≤ b.unitPrice := by exact_mod_cast h₂
  calc (n : ℚ) * (h.quantity + b.quantity : ℕ) = h.quantity * n + b.quantity * n := by
        push_cast
        ring
    _ ≤ h.quantity * h.averagePurchasePrice + b.quantity * b.unitPrice := by gcongr

theorem weightedPrice_le (h₁ : h.averagePurchasePrice ≤ n) (h₂ : b.unitPrice ≤ n) :
    h.weightedPrice id b ≤ n := by
  rw [weightedPrice_eq]
  refine floor_add_half_le ((div_le_iff₀ (h.quantity_pos b)).2 ?_)
  have h₁' : (h.averagePurchasePrice : ℚ) ≤ n := by exact_mod_cast h₁
  have h₂' : (b.unitPrice : ℚ) ≤ n := by exact_mod_cast h₂
  calc (h.quantity : ℚ) * h.averagePurchasePrice + b.quantity * b.unitPrice
      ≤ h.quantity * n + b.quantity * n := by gcongr
    _ = n * (h.quantity + b.quantity : ℕ) := by
        push_cast
        ring

/-! ## Amounts in pounds -/

/-- `average_purchase_price`. -/
def InvestmentHolding.average (h : InvestmentHolding) : ℚ := h.averagePurchasePrice / 10 ^ 4

/-- `quantity`. -/
def InvestmentHolding.held (h : InvestmentHolding) : ℚ := h.quantity / 10 ^ 8

/-- `unit_price` of a confirmation. -/
def PurchaseBody.price (b : PurchaseBody) : ℚ := b.unitPrice / 10 ^ 4

/-- `quantity` of a confirmation. -/
def PurchaseBody.bought (b : PurchaseBody) : ℚ := b.quantity / 10 ^ 8

/-- A merge misses the cost by half of the last digit of the price for each unit held. -/
theorem abs_average_merge_sub_le (h : InvestmentHolding) (b : PurchaseBody) :
    |(h.merge id b).average * (h.merge id b).held - (h.average * h.held + b.price * b.bought)| ≤
      5 / 10 ^ 5 * (h.merge id b).held := by
  have hpos := h.quantity_pos b
  have hmean : 0 ≤ h.meanPrice b := by
    unfold InvestmentHolding.meanPrice
    positivity
  have hround := abs_floor_add_half_sub_le hmean
  have hsplit : (h.merge id b).average * (h.merge id b).held -
        (h.average * h.held + b.price * b.bought) =
      (⌊h.meanPrice b + 1 / 2⌋₊ - h.meanPrice b) * ((h.quantity + b.quantity : ℕ) / 10 ^ 12) := by
    have hcost := h.meanPrice_mul b
    simp only [InvestmentHolding.average, InvestmentHolding.held, PurchaseBody.price,
      PurchaseBody.bought, InvestmentHolding.merge, weightedPrice_eq]
    linear_combination hcost / 10 ^ 12
  rw [hsplit, abs_mul, abs_of_nonneg (div_nonneg hpos.le (by norm_num))]
  calc |(⌊h.meanPrice b + 1 / 2⌋₊ : ℚ) - h.meanPrice b| * ((h.quantity + b.quantity : ℕ) / 10 ^ 12)
      ≤ 1 / 2 * ((h.quantity + b.quantity : ℕ) / 10 ^ 12) :=
        mul_le_mul_of_nonneg_right hround (by positivity)
    _ = 5 / 10 ^ 5 * (h.merge id b).held := by
        simp only [InvestmentHolding.held, InvestmentHolding.merge]
        ring

end Merge

/-! ## Purchases in a row -/

/-- The holding after each of some purchases. -/
def mergedAfter (h : InvestmentHolding) : List PurchaseBody → List InvestmentHolding
  | [] => []
  | b :: bs => h.merge id b :: mergedAfter (h.merge id b) bs

/-- What a holding and some purchases have cost. -/
def trueCost (h : InvestmentHolding) (bs : List PurchaseBody) : ℚ :=
  h.average * h.held + (bs.map fun b => b.price * b.bought).sum

/-- The average of the start and the prices that were paid. -/
def pricesOf (h : InvestmentHolding) (bs : List PurchaseBody) : List ℚ :=
  h.average :: bs.map (·.price)

theorem abs_cost_foldl_merge_le (h : InvestmentHolding) (bs : List PurchaseBody) :
    |(bs.foldl (·.merge id ·) h).average * (bs.foldl (·.merge id ·) h).held - trueCost h bs| ≤
      5 / 10 ^ 5 * ((mergedAfter h bs).map (·.held)).sum := by
  induction bs generalizing h with
  | nil => simp [trueCost, mergedAfter]
  | cons b bs ih =>
    have hstep := abs_average_merge_sub_le h b
    have hrest := ih (h.merge id b)
    have hsplit : (bs.foldl (·.merge id ·) (h.merge id b)).average *
          (bs.foldl (·.merge id ·) (h.merge id b)).held - trueCost h (b :: bs) =
        ((bs.foldl (·.merge id ·) (h.merge id b)).average *
          (bs.foldl (·.merge id ·) (h.merge id b)).held - trueCost (h.merge id b) bs) +
        ((h.merge id b).average * (h.merge id b).held -
          (h.average * h.held + b.price * b.bought)) := by
      simp only [trueCost, List.map_cons, List.sum_cons]
      ring
    rw [List.foldl_cons, hsplit]
    refine (abs_add_le _ _).trans ((add_le_add hrest hstep).trans (le_of_eq ?_))
    simp only [mergedAfter, List.map_cons, List.sum_cons]
    ring

/-- Some price is not above the average. -/
theorem exists_price_le (h : InvestmentHolding) (bs : List PurchaseBody) :
    ∃ lo ∈ pricesOf h bs, lo ≤ (bs.foldl (·.merge id ·) h).average := by
  induction bs generalizing h with
  | nil => exact ⟨h.average, List.mem_cons_self, le_rfl⟩
  | cons b bs ih =>
    obtain ⟨lo, hlo, hle⟩ := ih (h.merge id b)
    rcases List.mem_cons.1 hlo with rfl | hlo
    · rcases le_total h.averagePurchasePrice b.unitPrice with hmin | hmin
      · refine ⟨h.average, List.mem_cons_self, le_trans ?_ hle⟩
        have hprice : h.averagePurchasePrice ≤ (h.merge id b).averagePurchasePrice :=
          le_weightedPrice le_rfl hmin
        unfold InvestmentHolding.average
        gcongr
      · refine ⟨b.price, List.mem_cons_of_mem _ List.mem_cons_self, le_trans ?_ hle⟩
        have hprice : b.unitPrice ≤ (h.merge id b).averagePurchasePrice :=
          le_weightedPrice hmin le_rfl
        unfold InvestmentHolding.average PurchaseBody.price
        gcongr
    · exact ⟨lo, List.mem_cons_of_mem _ (List.mem_cons_of_mem _ hlo), hle⟩

/-- Some price is not below the average. -/
theorem exists_le_price (h : InvestmentHolding) (bs : List PurchaseBody) :
    ∃ hi ∈ pricesOf h bs, (bs.foldl (·.merge id ·) h).average ≤ hi := by
  induction bs generalizing h with
  | nil => exact ⟨h.average, List.mem_cons_self, le_rfl⟩
  | cons b bs ih =>
    obtain ⟨hi, hhi, hle⟩ := ih (h.merge id b)
    rcases List.mem_cons.1 hhi with rfl | hhi
    · rcases le_total h.averagePurchasePrice b.unitPrice with hmax | hmax
      · refine ⟨b.price, List.mem_cons_of_mem _ List.mem_cons_self, hle.trans ?_⟩
        have hprice : (h.merge id b).averagePurchasePrice ≤ b.unitPrice :=
          weightedPrice_le hmax le_rfl
        unfold InvestmentHolding.average PurchaseBody.price
        gcongr
      · refine ⟨h.average, List.mem_cons_self, hle.trans ?_⟩
        have hprice : (h.merge id b).averagePurchasePrice ≤ h.averagePurchasePrice :=
          weightedPrice_le le_rfl hmax
        unfold InvestmentHolding.average
        gcongr
    · exact ⟨hi, List.mem_cons_of_mem _ (List.mem_cons_of_mem _ hhi), hle⟩

/-- After any purchases the average is between the lowest and the highest price, and what it
makes the holding cost is off by `0.00005` for each unit held after each merge at most. -/
theorem average_of_merges (h : InvestmentHolding) (bs : List PurchaseBody) :
    ((∃ lo ∈ pricesOf h bs, lo ≤ (bs.foldl (·.merge id ·) h).average) ∧
        ∃ hi ∈ pricesOf h bs, (bs.foldl (·.merge id ·) h).average ≤ hi) ∧
      |(bs.foldl (·.merge id ·) h).average * (bs.foldl (·.merge id ·) h).held - trueCost h bs| ≤
        5 / 10 ^ 5 * ((mergedAfter h bs).map (·.held)).sum :=
  ⟨⟨exists_price_le h bs, exists_le_price h bs⟩, abs_cost_foldl_merge_le h bs⟩

/-- Two units at 80 and one at 100. -/
example : InvestmentHolding.average
    (({ id := 1, user := 1, instrument := 1, quantity := 2 * 10 ^ 8
        averagePurchasePrice := 80 * 10 ^ 4 } : InvestmentHolding).merge id
      { quantity := 10 ^ 8, unitPrice := 100 * 10 ^ 4, purchasedAt := ⟨2026, 8, 1, by decide, by decide⟩
        quantity_pos := by decide, unitPrice_pos := by decide }) = 866667 / 10 ^ 4 := by
  decide +kernel

end NbeAdvisor
