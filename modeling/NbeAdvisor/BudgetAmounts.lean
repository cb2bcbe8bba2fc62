import NbeAdvisor.Budgets
import Mathlib.Algebra.Order.BigOperators.Group.List

/-!
# What a change of the budget leaves

The serializers let a list of shares through that names a category twice, or one that has a
negative share. In the first case the request fails half-way, and what it has written by then
stays (`handle_intact_iff`); in the second a category gets less than nothing, and another more
than the income (`inRange_iff`). The amounts are right to half a piaster, and so is their sum for
each of them (`amounts_near`) : the sum of the shares is 100 and not about that.
-/

namespace NbeAdvisor

open Numerals

namespace BudgetStore

variable {now : Instant} {s : BudgetStore} {r : BudgetRequest} {data : BudgetData}
  {items : List AllocationItem}

/-! ## A request that fails -/

/-- The categories are distinct, and if there is no success then nothing has changed. -/
def Intact (s : BudgetStore) (x : BudgetStore × BudgetAnswer) : Prop :=
  (∀ b ∈ x.1.budget, (b.allocations.map fun a => a.category.id).Nodup) ∧
    (¬x.2.Success → x.1.budget = s.budget ∧ x.1.history = s.history)

/-- No category comes twice and every amount fits its column. -/
def Storable (income : Numeric 14 2) (items : List AllocationItem) : Prop :=
  (∀ i ∈ items, i.Fits income) ∧ (items.map fun i => i.category.id).Nodup

/-- On an empty budget the loop ends well if the items can be stored. -/
theorem done_iff_storable {b : Budget} {income : Numeric 14 2} (hb : b.allocations = []) :
    (b.applyAllocations income items).2 = true ↔ Storable income items := by
  rw [Budget.applyAllocations_done, Storable, hb]
  simp

/-- A POST leaves the plan whole exactly if its items can be stored. -/
theorem create_intact_iff (hs : s.budget = none) : s.Intact (s.create now data) ↔
    Storable s.income (data.allocations.getD []) := by
  unfold create
  dsimp only
  rw [← done_iff_storable (b := Budget.new now data) rfl]
  split
  · next hdone => exact iff_of_true ⟨fun b _ => b.unique, fun h => absurd (Or.inl rfl) h⟩ hdone
  · next hdone =>
    refine iff_of_false (fun h => ?_) hdone
    have hnone := (h.2 BudgetAnswer.not_success_raises).1
    rw [hs] at hnone
    cases hnone

/-- So does a PATCH. -/
theorem change_intact_iff {budget : Budget} : s.Intact (s.change now data budget) ↔
    ∀ items ∈ data.allocations, Storable s.income items := by
  unfold change
  dsimp only
  cases data.allocations with
  | none =>
    exact iff_of_true ⟨fun b _ => b.unique, fun h => absurd (Or.inr rfl) h⟩ fun _ h => by cases h
  | some items =>
    simp only [Option.mem_some_iff, forall_eq']
    rw [← done_iff_storable (b := (budget.update now data).clear) rfl]
    split
    · next hdone => exact iff_of_true ⟨fun b _ => b.unique, fun h => absurd (Or.inr rfl) h⟩ hdone
    · next hdone =>
      refine iff_of_false (fun h => ?_) hdone
      have hhistory := (h.2 BudgetAnswer.not_success_raises).2
      simp at hhistory

/-- A request that does not succeed leaves everything exactly if it is refused before its first
write, has no allocations, or names each category once with an amount that fits. -/
theorem handle_intact_iff (now : Instant) (s : BudgetStore) (r : BudgetRequest) :
    s.Intact (s.handle now r) ↔ ∀ data, s.accept r = .ok data →
      ∀ items ∈ data.allocations, Storable s.income items := by
  unfold handle
  cases hr : s.accept r with
  | error a =>
    refine iff_of_true ⟨fun b _ => b.unique, fun _ => ⟨rfl, rfl⟩⟩ fun data h => ?_
    cases h
  | ok data =>
    simp only [Except.ok.injEq, forall_eq']
    cases hs : s.budget with
    | some budget => exact change_intact_iff
    | none =>
      rw [create_intact_iff hs]
      cases data.allocations with
      | none => simp [Storable]
      | some items => simp

/-- Food and rent, and an income of 1000 pounds. -/
def twoCategories : BudgetStore :=
  { categories := [{ id := 1, name := "food" }, { id := 2, name := "rent" }]
    monthlyIncome := some ⟨100000, by decide⟩ }

/-- Half for food, twice. -/
def foodTwice : BudgetBody := { allocations := some [⟨"food", 50⟩, ⟨"food", 50⟩] }

/-- Half for food, half for rent. -/
def foodAndRent : BudgetBody := { allocations := some [⟨"food", 50⟩, ⟨"rent", 50⟩] }

/-- A POST and a PATCH that name food twice fail, the one with a plan that was not there, the
other with a row in the history and without the rent. -/
theorem foodTwice_not_intact :
    (twoCategories.accept (.post (some foodTwice))).isOk = true ∧
      ¬twoCategories.Intact (twoCategories.handle 0 (.post (some foodTwice))) ∧
      ¬(twoCategories.handle 0 (.post (some foodAndRent))).1.Intact
        ((twoCategories.handle 0 (.post (some foodAndRent))).1.handle 1
          (.patch (some foodTwice))) := by
  have hpost : (twoCategories.handle 0 (.post (some foodTwice))).2 = .raises ∧
      (twoCategories.handle 0 (.post (some foodTwice))).1.budget.isSome = true := by
    decide +kernel
  have hpatch : ((twoCategories.handle 0 (.post (some foodAndRent))).1.handle 1
        (.patch (some foodTwice))).2 = .raises ∧
      ((twoCategories.handle 0 (.post (some foodAndRent))).1.handle 1
        (.patch (some foodTwice))).1.history ≠
          (twoCategories.handle 0 (.post (some foodAndRent))).1.history := by
    decide +kernel
  refine ⟨by decide +kernel, fun h => ?_, fun h => ?_⟩
  · rw [(h.2 (hpost.1 ▸ BudgetAnswer.not_success_raises)).1] at hpost
    exact Bool.false_ne_true hpost.2
  · exact hpatch.2 (h.2 (hpatch.1 ▸ BudgetAnswer.not_success_raises)).2

/-! ## The allocations of an accepted list -/

/-- The plan has the rows of the first shares of the list, and all of them after a success. -/
theorem handle_shares (now : Instant) (hr : s.accept r = .ok data)
    (hitems : data.allocations = some items) :
    ∃ b, (s.handle now r).1.budget = some b ∧ ∃ n ≤ items.length,
      b.allocations.map BudgetAllocation.share = (items.take n).map (·.share s.income) ∧
        ((s.handle now r).2.Success → n = items.length) := by
  have hstored : ∀ (b : Budget) (a : BudgetAnswer), b.allocations = [] →
      ∃ n ≤ items.length, (b.applyAllocations s.income items).1.allocations.map
          BudgetAllocation.share = (items.take n).map (·.share s.income) ∧
        ((if (b.applyAllocations s.income items).2 then a else BudgetAnswer.raises).Success →
          n = items.length) := by
    intro b a hb
    obtain ⟨n, hn, hshares, hdone⟩ := Budget.applyAllocations_take s.income items b
    refine ⟨n, hn, by rw [hshares, hb]; rfl, fun h => hdone ?_⟩
    by_contra hnot
    rw [if_neg hnot] at h
    exact BudgetAnswer.not_success_raises h
  unfold handle
  rw [hr]
  dsimp only
  cases hs : s.budget with
  | none =>
    simp only [create, hitems, Option.getD_some]
    exact ⟨_, rfl, hstored (Budget.new now data) .created rfl⟩
  | some budget =>
    simp only [change, hitems]
    exact ⟨_, rfl, hstored (budget.update now data).clear .ok rfl⟩

/-! ## The range -/

/-- A share of at most all, and an amount of at most the income. -/
def InRange (income : Numeric 14 2) (x : Share) : Prop :=
  (0 ≤ x.2.1.value ∧ x.2.1.value ≤ 100) ∧ 0 ≤ x.2.2 ∧ x.2.2 ≤ income.value

/-- Of shares that add up to 100 and are not negative none is more, and its amount is not more
than the income. -/
theorem inRange_share {income : Numeric 14 2} (hincome : 0 ≤ income.value)
    (hsum : totalPercentage items = 100)
    (hnonneg : ∀ i ∈ items, 0 ≤ i.allocatedPercentage.value) {i : AllocationItem} (hi : i ∈ items) :
    InRange income (i.share income) := by
  have hle : i.allocatedPercentage.value ≤ 100 := by
    rw [← hsum]
    refine List.single_le_sum ?_ _ (List.mem_map_of_mem hi)
    intro x hx
    obtain ⟨j, hj, rfl⟩ := List.mem_map.1 hx
    exact hnonneg j hj
  have hprod : 0 ≤ income.value * i.allocatedPercentage.value :=
    mul_nonneg hincome (hnonneg i hi)
  refine ⟨⟨hnonneg i hi, hle⟩, ?_⟩
  rw [AllocationItem.share, AllocationItem.amount_eq]
  constructor
  · have hzero := Numeric.le_quantize (p := 14) (n := 2) (y := 0)
      (x := income.value * i.allocatedPercentage.value / 100)
      (by rw [Numeric.value_zero]; linarith)
    rwa [Numeric.value_zero] at hzero
  · refine Numeric.quantize_le ?_
    have := mul_le_mul_of_nonneg_left hle hincome
    linarith

/-- With no negative share in an accepted list, everything stored is in range. After a success
that is the only way. -/
theorem inRange_iff (now : Instant) (hr : s.accept r = .ok data)
    (hitems : data.allocations = some items) (hincome : 0 ≤ s.income.value) :
    ((∀ i ∈ items, 0 ≤ i.allocatedPercentage.value) →
        ∀ b ∈ (s.handle now r).1.budget, ∀ a ∈ b.allocations, InRange s.income a.share) ∧
      ((s.handle now r).2.Success →
        ((∀ b ∈ (s.handle now r).1.budget, ∀ a ∈ b.allocations, InRange s.income a.share) ↔
          ∀ i ∈ items, 0 ≤ i.allocatedPercentage.value)) := by
  obtain ⟨b, hb, n, -, hshares, hdone⟩ := handle_shares now hr hitems
  simp only [hb, Option.mem_some_iff, forall_eq']
  have hnonneg : (∀ i ∈ items, 0 ≤ i.allocatedPercentage.value) →
      ∀ a ∈ b.allocations, InRange s.income a.share := by
    intro hnonneg a ha
    have hmem : a.share ∈ (items.take n).map (·.share s.income) := by
      rw [← hshares]
      exact List.mem_map_of_mem ha
    obtain ⟨i, hi, hshare⟩ := List.mem_map.1 hmem
    rw [← hshare]
    exact inRange_share hincome (totalPercentage_accept hr hitems) hnonneg (List.mem_of_mem_take hi)
  refine ⟨hnonneg, fun hsuccess => ⟨fun hrange i hi => ?_, hnonneg⟩⟩
  have hmem : i.share s.income ∈ b.allocations.map BudgetAllocation.share := by
    rw [hshares, hdone hsuccess, List.take_length]
    exact List.mem_map_of_mem hi
  obtain ⟨a, ha, hshare⟩ := List.mem_map.1 hmem
  have hpos := (hrange a ha).1.1
  rwa [hshare] at hpos

/-- Rent takes what food has less than nothing. -/
def negativeFood : BudgetBody := { allocations := some [⟨"food", -50⟩, ⟨"rent", 150⟩] }

/-- The shares that are stored for it. -/
theorem negativeFood_not_inRange :
    (twoCategories.handle 0 (.post (some negativeFood))).2 = .created ∧
      0 ≤ twoCategories.income.value ∧
      ∃ b ∈ (twoCategories.handle 0 (.post (some negativeFood))).1.budget,
        ∃ a ∈ b.allocations, a.allocatedPercentage.value = -50 ∧ a.allocatedAmount.value = -500 ∧
          ¬InRange twoCategories.income a.share := by
  obtain ⟨hcreated, hincome, b, hb, a, ha, hpercentage, hamount⟩ :
      (twoCategories.handle 0 (.post (some negativeFood))).2 = .created ∧
        0 ≤ twoCategories.income.value ∧
        ∃ b ∈ (twoCategories.handle 0 (.post (some negativeFood))).1.budget,
          ∃ a ∈ b.allocations, a.allocatedPercentage.value = -50 ∧
            a.allocatedAmount.value = -500 := by decide +kernel
  refine ⟨hcreated, hincome, b, hb, a, ha, hpercentage, hamount, fun h => ?_⟩
  have hneg : (0 : ℚ) ≤ -50 := hpercentage ▸ h.1.1
  norm_num at hneg

/-- Half for food and half for rent. -/
def halves : List AllocationItem :=
  [{ category := { id := 1, name := "food" }, allocatedPercentage := ⟨5000, by decide⟩ },
    { category := { id := 2, name := "rent" }, allocatedPercentage := ⟨5000, by decide⟩ }]

/-- The body is accepted. -/
theorem accept_foodAndRent :
    twoCategories.accept (.post (some foodAndRent)) = .ok { allocations := some halves } := by
  decide +kernel

/-- The shares of food and rent are in range. -/
theorem foodAndRent_inRange :
    (twoCategories.handle 0 (.post (some foodAndRent))).2.Success ∧
      ∀ b ∈ (twoCategories.handle 0 (.post (some foodAndRent))).1.budget, ∀ a ∈ b.allocations,
        InRange twoCategories.income a.share := by
  have hsuccess : (twoCategories.handle 0 (.post (some foodAndRent))).2.Success := by
    decide +kernel
  exact ⟨hsuccess, ((inRange_iff 0 accept_foodAndRent rfl (by decide +kernel)).2 hsuccess).2
    (by decide +kernel)⟩

/-! ## The sums -/

section Sums

variable (income : Numeric 14 2)

/-- An amount is off by half a piaster at most. -/
theorem abs_amount_sub_le (i : AllocationItem) :
    |i.amount income - income.value * i.allocatedPercentage.value / 100| ≤ 5 / 1000 := by
  have h := abs_sub_quantize_le 2 (income.value * i.allocatedPercentage.value / 100)
  rw [AllocationItem.amount_eq, abs_sub_comm]
  norm_num at h ⊢
  exact h

/-- Half a piaster for each of them. -/
theorem abs_sum_amount_sub_le : ∀ items : List AllocationItem,
    |(items.map (·.amount income)).sum - income.value * totalPercentage items / 100| ≤
      items.length * (5 / 1000)
  | [] => by simp [totalPercentage]
  | i :: items => by
    have hi := abs_amount_sub_le income i
    have ih := abs_sum_amount_sub_le items
    have hsplit : ((i :: items).map (·.amount income)).sum -
          income.value * totalPercentage (i :: items) / 100 =
        (i.amount income - income.value * i.allocatedPercentage.value / 100) +
          ((items.map (·.amount income)).sum - income.value * totalPercentage items / 100) := by
      simp only [totalPercentage, List.map_cons, List.sum_cons]
      ring
    calc _ ≤ |i.amount income - income.value * i.allocatedPercentage.value / 100| +
          |(items.map (·.amount income)).sum - income.value * totalPercentage items / 100| := by
          rw [hsplit]
          exact abs_add_le _ _
      _ ≤ 5 / 1000 + items.length * (5 / 1000) := add_le_add hi ih
      _ = (i :: items).length * (5 / 1000) := by
          push_cast [List.length_cons]
          ring

end Sums

/-- Every stored amount is within half a piaster of its share of the income, and the sum of
those stored within half a piaster for each. After a success all are stored, and the sum is that
close to the income ; so is the sum of what an accepted list asks for. -/
theorem amounts_near (now : Instant) (hr : s.accept r = .ok data)
    (hitems : data.allocations = some items) :
    |(items.map (·.amount s.income)).sum - s.income.value| ≤ items.length * (5 / 1000) ∧
      ∃ b, (s.handle now r).1.budget = some b ∧
        (∀ a ∈ b.allocations, |a.allocatedAmount.value -
          s.income.value * a.allocatedPercentage.value / 100| ≤ 5 / 1000) ∧
        ((s.handle now r).2.Success → b.allocations.length = items.length ∧
          |(b.allocations.map fun a => a.allocatedAmount.value).sum - s.income.value| ≤
            items.length * (5 / 1000)) := by
  have hasked : |(items.map (·.amount s.income)).sum - s.income.value| ≤
      items.length * (5 / 1000) := by
    have h := abs_sum_amount_sub_le s.income items
    rwa [totalPercentage_accept hr hitems, mul_div_cancel_right₀ _ (by norm_num)] at h
  obtain ⟨b, hb, n, -, hshares, hdone⟩ := handle_shares now hr hitems
  refine ⟨hasked, b, hb, fun a ha => ?_, fun hsuccess => ?_⟩
  · have hmem : a.share ∈ (items.take n).map (·.share s.income) := by
      rw [← hshares]
      exact List.mem_map_of_mem ha
    obtain ⟨i, -, hshare⟩ := List.mem_map.1 hmem
    obtain ⟨-, hrest⟩ := Prod.mk.inj hshare
    obtain ⟨hpercentage, hamount⟩ := Prod.mk.inj hrest
    rw [← hpercentage, ← hamount]
    exact abs_amount_sub_le s.income i
  · rw [hdone hsuccess, List.take_length] at hshares
    have hlength := congrArg List.length hshares
    have hamounts := congrArg (List.map fun x : Share => x.2.2) hshares
    rw [List.length_map, List.length_map] at hlength
    rw [List.map_map, List.map_map] at hamounts
    refine ⟨hlength, ?_⟩
    have hsum : (b.allocations.map fun a => a.allocatedAmount.value) =
        items.map (·.amount s.income) := hamounts
    rw [hsum]
    exact hasked

/-- Their amounts add up to the income. -/
theorem foodAndRent_near : ∃ b,
    (twoCategories.handle 0 (.post (some foodAndRent))).1.budget = some b ∧
      b.allocations.length = 2 ∧
        |(b.allocations.map fun a => a.allocatedAmount.value).sum - 1000| ≤ 2 * (5 / 1000) := by
  obtain ⟨-, b, hb, -, h⟩ := amounts_near 0 accept_foodAndRent rfl
  obtain ⟨hlength, hsum⟩ := h (by decide +kernel)
  have hincome : twoCategories.income.value = 1000 := by decide +kernel
  have htwo : ((halves.length : ℕ) : ℚ) = 2 := by decide +kernel
  rw [hincome, htwo] at hsum
  exact ⟨b, hb, hlength, hsum⟩

end BudgetStore

end NbeAdvisor
