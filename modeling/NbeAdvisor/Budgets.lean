import NbeAdvisor.Numerals
import NbeAdvisor.Ledger
import Mathlib.Algebra.BigOperators.Group.List.Basic

/-!
# The budget plan

`BudgetView` : POST creates the plan of a user and PATCH changes it, after a snapshot of its
allocations has gone to the history. The statements commit one by one. The serializers resolve the
categories and check that the shares add up to 100 (`accept`), and `applyAllocations` creates the
allocations one after the other, each of which can fail : the database has one row for a
category (`Budget.unique`), and an amount must fit its column.

`applyAllocations_take` says what is stored afterwards, the rows of the first shares, and
`applyAllocations_done` when it is all of them.
-/

namespace NbeAdvisor

open Numerals

/-! ## The rows -/

/-- `Category.category_type`. -/
inductive CategoryType where
  | income
  | expense
  deriving DecidableEq

/-- `Category`, by what a budget reads. -/
structure Category where
  id : CategoryId
  name : String
  categoryType : CategoryType := .expense
  deriving DecidableEq

/-- `BudgetAllocation`. -/
structure BudgetAllocation where
  category : Category
  allocatedPercentage : Numeric 5 2
  allocatedAmount : Numeric 14 2
  currency : String := "EGP"
  deriving DecidableEq

/-- A plan with its allocations, of which a category has one (`unique_budget_category`). -/
structure Budget where
  name : String := "My Plan"
  periodType : String := "monthly"
  status : String := "active"
  selectedTemplateKey : Option String := none
  allocations : List BudgetAllocation := []
  createdAt : Instant
  updatedAt : Instant
  unique : (allocations.map fun a => a.category.id).Nodup := by exact List.nodup_nil
  deriving DecidableEq

/-- `changed_via`. -/
inductive ChangedVia where
  | dashboard
  | chat
  | onboarding
  deriving DecidableEq

/-- An allocation in a snapshot. -/
structure PreviousAllocation where
  category : String
  allocatedPercentage : Double
  allocatedAmount : Double
  deriving DecidableEq

/-- `BudgetHistory`. -/
structure BudgetHistory where
  previousValues : List PreviousAllocation
  changedVia : ChangedVia := .dashboard
  changedAt : Instant
  deriving DecidableEq

/-- What a user has, and the categories. -/
structure BudgetStore where
  categories : List Category := []
  monthlyIncome : Option (Numeric 14 2) := none
  budget : Option Budget := none
  history : List BudgetHistory := []
  deriving DecidableEq

/-! ## The requests -/

/-- An allocation of a body. -/
structure AllocationInput where
  category : String
  allocatedPercentage : ℚ
  deriving DecidableEq

/-- The body of a POST or PATCH. Of `selected_template_key` the outer option is for its presence.
-/
structure BudgetBody where
  name : Option String := none
  selectedTemplateKey : Option (Option String) := none
  allocations : Option (List AllocationInput) := none
  changedVia : Option ChangedVia := none
  deriving DecidableEq

/-- There is no body if a field of it does not parse. -/
inductive BudgetRequest where
  | post (body : Option BudgetBody)
  | patch (body : Option BudgetBody)
  deriving DecidableEq

/-- An item of `validated_data["allocations"]`. -/
structure AllocationItem where
  category : Category
  allocatedPercentage : Numeric 5 2
  deriving DecidableEq

/-- `validated_data`. -/
structure BudgetData where
  name : Option String := none
  selectedTemplateKey : Option (Option String) := none
  allocations : Option (List AllocationItem) := none
  changedVia : ChangedVia := .dashboard
  deriving DecidableEq

/-- What the budget's view answers. -/
inductive BudgetAnswer where
  | created
  | ok
  | conflict (message : String)
  | notFound
  /-- A field is rejected by itself. -/
  | fields
  /-- `"Allocations must sum to 100. Sum was .."`, on `allocations`. -/
  | sum (total : ℚ)
  /-- An exception of the database leaves the view. -/
  | raises
  deriving DecidableEq

/-- The request has taken effect. -/
def BudgetAnswer.Success (a : BudgetAnswer) : Prop := a = created ∨ a = ok

instance (a : BudgetAnswer) : Decidable a.Success :=
  inferInstanceAs (Decidable (a = .created ∨ a = .ok))

theorem BudgetAnswer.not_success_raises : ¬raises.Success := by decide

/-! ## The serializers -/

/-- `AllocationInputSerializer`, with the lookup of the expense category. -/
def AllocationInput.validated (categories : List Category) (a : AllocationInput) :
    Option AllocationItem := do
  let category ← categories.find? fun c => c.name = a.category ∧ c.categoryType = .expense
  let allocatedPercentage ← Numeric.ofRat? 5 2 a.allocatedPercentage
  return { category, allocatedPercentage }

/-- The sum that the serializer checks. -/
def totalPercentage (items : List AllocationItem) : ℚ :=
  (items.map fun i => i.allocatedPercentage.value).sum

/-- `_validate_allocations_sum_100`. Fewer than 10²³ shares have an exact sum. -/
def validateAllocationsSum100 (items : List AllocationItem) :
    Except BudgetAnswer (List AllocationItem) :=
  if totalPercentage items = 100 then .ok items else .error (.sum (totalPercentage items))

namespace BudgetBody

/-- The texts by themselves. -/
def TextsFit (b : BudgetBody) : Prop :=
  (∀ s ∈ b.name, CharFits 255 s) ∧ ∀ k ∈ b.selectedTemplateKey, ∀ s ∈ k, CharFits 50 s

instance (b : BudgetBody) : Decidable b.TextsFit := by
  unfold TextsFit
  infer_instance

/-- `BudgetUpdateSerializer`. -/
def validated (categories : List Category) (b : BudgetBody) : Except BudgetAnswer BudgetData :=
  let data : BudgetData :=
    { name := b.name, selectedTemplateKey := b.selectedTemplateKey
      changedVia := b.changedVia.getD .dashboard }
  if ¬b.TextsFit then .error .fields
  else
    match b.allocations with
    | none => .ok data
    | some inputs =>
      match inputs.mapM (·.validated categories) with
      | none => .error .fields
      | some items =>
        (validateAllocationsSum100 items).map fun items => { data with allocations := some items }

/-- `BudgetCreateSerializer`, which requires the allocations. -/
def validatedNew (categories : List Category) (b : BudgetBody) : Except BudgetAnswer BudgetData :=
  if b.allocations = none then .error .fields else b.validated categories

end BudgetBody

namespace BudgetStore

/-- `request.user.monthly_income or Decimal("0")`. -/
def income (s : BudgetStore) : Numeric 14 2 := s.monthlyIncome.getD 0

/-- What is checked before the first write. -/
def accept (s : BudgetStore) : BudgetRequest → Except BudgetAnswer BudgetData
  | .post body =>
    if s.budget.isSome then
      .error (.conflict
        "A budget plan already exists for this user. Use PATCH /budget to update it.")
    else body.elim (.error .fields) (·.validatedNew s.categories)
  | .patch body =>
    if s.budget.isNone then .error .notFound
    else body.elim (.error .fields) (·.validated s.categories)

end BudgetStore

/-! ## The allocations -/

/-- `allocated_amount`. -/
def AllocationItem.amount (income : Numeric 14 2) (i : AllocationItem) : ℚ :=
  quantize 2 (decimal28 (decimal28 (income.value * i.allocatedPercentage.value) / 100))

namespace Budget

/-- `BudgetAllocation.objects.create`, which raises if the amount does not fit its column or
the category has a row. -/
def createAllocation (income : Numeric 14 2) (b : Budget) (i : AllocationItem) : Option Budget :=
  match Numeric.ofRat? 14 2 (i.amount income) with
  | none => none
  | some amount =>
    if h : i.category.id ∈ b.allocations.map fun a => a.category.id then none
    else some { b with
      allocations := b.allocations ++ [{
        category := i.category, allocatedPercentage := i.allocatedPercentage
        allocatedAmount := amount }]
      unique := by
        rw [List.map_append, List.nodup_append]
        refine ⟨b.unique, List.nodup_singleton _, fun x hx y hy hxy => h ?_⟩
        rw [List.map_singleton, List.mem_singleton] at hy
        rwa [← hy, ← hxy] }

/-- `_apply_allocations`, and whether it comes to its end. -/
def applyAllocations (income : Numeric 14 2) : List AllocationItem → Budget → Budget × Bool
  | [], b => (b, true)
  | i :: is, b =>
    match b.createAllocation income i with
    | none => (b, false)
    | some b => applyAllocations income is b

/-- The plan that a POST creates. -/
def new (now : Instant) (data : BudgetData) : Budget :=
  { name := data.name.getD "My Plan", selectedTemplateKey := data.selectedTemplateKey.join
    createdAt := now, updatedAt := now }

/-- `budget.allocations.all().delete()`. -/
def clear (b : Budget) : Budget := { b with allocations := [], unique := List.nodup_nil }

/-- The assignments of a PATCH to the plan itself, and `budget.save()`. -/
def update (now : Instant) (data : BudgetData) (b : Budget) : Budget :=
  { b with
    name := data.name.getD b.name
    selectedTemplateKey := data.selectedTemplateKey.getD b.selectedTemplateKey
    updatedAt := now }

/-- `_snapshot`. -/
def snapshot (b : Budget) : List PreviousAllocation :=
  b.allocations.map fun a =>
    { category := a.category.name
      allocatedPercentage := Double.ofRat a.allocatedPercentage.value
      allocatedAmount := Double.ofRat a.allocatedAmount.value }

end Budget

/-! ## The views -/

namespace BudgetStore

/-- `BudgetView.post`, once the request is accepted. -/
def create (now : Instant) (s : BudgetStore) (data : BudgetData) : BudgetStore × BudgetAnswer :=
  let (budget, done) := (Budget.new now data).applyAllocations s.income (data.allocations.getD [])
  ({ s with budget := some budget }, if done then .created else .raises)

/-- `BudgetView.patch`, likewise. -/
def change (now : Instant) (s : BudgetStore) (data : BudgetData) (budget : Budget) :
    BudgetStore × BudgetAnswer :=
  let history := s.history ++ [{
    previousValues := budget.snapshot, changedVia := data.changedVia, changedAt := now }]
  match data.allocations with
  | none => ({ s with budget := some (budget.update now data), history }, .ok)
  | some items =>
    let (budget, done) := (budget.update now data).clear.applyAllocations s.income items
    ({ s with budget := some budget, history }, if done then .ok else .raises)

/-- A POST is accepted only where there is no plan, a PATCH only where there is one. -/
def handle (now : Instant) (s : BudgetStore) (r : BudgetRequest) : BudgetStore × BudgetAnswer :=
  match s.accept r with
  | .error a => (s, a)
  | .ok data =>
    match s.budget with
    | none => s.create now data
    | some budget => s.change now data budget

end BudgetStore

/-! ## What is accepted -/

section Accepted

variable {s : BudgetStore} {r : BudgetRequest} {data : BudgetData} {items : List AllocationItem}

/-- The shares that the serializers let through add up to 100. -/
theorem BudgetBody.totalPercentage_validated {categories : List Category} {b : BudgetBody}
    (h : b.validated categories = .ok data) (hitems : data.allocations = some items) :
    totalPercentage items = 100 := by
  unfold BudgetBody.validated validateAllocationsSum100 at h
  dsimp only at h
  split at h
  · cases h
  split at h
  · cases h
    cases hitems
  split at h
  · cases h
  split at h
  · next hsum =>
    cases h
    cases hitems
    exact hsum
  · cases h

/-- What is accepted sums to a hundred. -/
theorem BudgetStore.totalPercentage_accept (h : s.accept r = .ok data)
    (hitems : data.allocations = some items) : totalPercentage items = 100 := by
  unfold BudgetStore.accept at h
  split at h
  · split at h
    · cases h
    · next body _ =>
      cases body with
      | none => cases h
      | some b =>
        simp only [Option.elim, BudgetBody.validatedNew] at h
        split at h
        · cases h
        · exact b.totalPercentage_validated h hitems
  · split at h
    · cases h
    · next body _ =>
      cases body with
      | none => cases h
      | some b => exact b.totalPercentage_validated h hitems

end Accepted

/-! ## What is stored -/

/-- The context rounds neither the product nor the quotient. -/
theorem AllocationItem.amount_eq (income : Numeric 14 2) (i : AllocationItem) :
    i.amount income = quantize 2 (income.value * i.allocatedPercentage.value / 100) := by
  have hmul := Numeric.significant_mul (k := 28) (by norm_num) (by norm_num) income
    i.allocatedPercentage 0
  have hdiv := Numeric.significant_mul (k := 28) (by norm_num) (by norm_num) income
    i.allocatedPercentage 2
  norm_num at hmul hdiv
  rw [amount, decimal28, decimal28, hmul, hdiv]

/-- The column takes the amount. -/
def AllocationItem.Fits (income : Numeric 14 2) (i : AllocationItem) : Prop :=
  |i.amount income| < 10 ^ 12

/-- An item fits if its amount is one of the column. -/
theorem AllocationItem.fits_iff {income : Numeric 14 2} {i : AllocationItem} :
    i.Fits income ↔ (Numeric.ofRat? 14 2 (i.amount income)).isSome = true := by
  rw [amount_eq, Numeric.isSome_ofRat?_quantize, ← amount_eq, Fits]
  constructor
  · intro h
    norm_num at h ⊢
    linarith
  · intro h
    norm_num at h ⊢
    linarith

/-- A category with its percentage and its amount. -/
abbrev Share := Category × Numeric 5 2 × ℚ

/-- The share that is stored. -/
def BudgetAllocation.share (a : BudgetAllocation) : Share :=
  (a.category, a.allocatedPercentage, a.allocatedAmount.value)

/-- The share that an item asks for. -/
def AllocationItem.share (income : Numeric 14 2) (i : AllocationItem) : Share :=
  (i.category, i.allocatedPercentage, i.amount income)

namespace Budget

variable {income : Numeric 14 2} {b b' : Budget} {i : AllocationItem} {items : List AllocationItem}

/-- A created allocation comes last. -/
theorem createAllocation_eq_some (h : b.createAllocation income i = some b') :
    b'.allocations.map BudgetAllocation.share =
        b.allocations.map BudgetAllocation.share ++ [i.share income] ∧
      b'.clear = b.clear := by
  unfold createAllocation at h
  split at h
  · cases h
  next amount hamount =>
    split at h <;> cases h
    refine ⟨?_, rfl⟩
    rw [List.map_append, List.map_singleton]
    congr 2
    exact Prod.ext rfl (Prod.ext rfl (Numeric.ofRat?_eq_some.1 hamount))

/-- An allocation is created if its amount fits and its category is new. -/
theorem isSome_createAllocation : (b.createAllocation income i).isSome = true ↔
    i.Fits income ∧ i.category.id ∉ b.allocations.map fun a => a.category.id := by
  rw [AllocationItem.fits_iff]
  unfold createAllocation
  cases Numeric.ofRat? 14 2 (i.amount income) with
  | none => simp
  | some amount =>
    by_cases h : i.category.id ∈ b.allocations.map fun a => a.category.id
    · simp only [dif_pos h]
      simpa using h
    · simp only [dif_neg h]
      simpa using h

/-- The first shares are stored, behind what was there. -/
theorem applyAllocations_take (income : Numeric 14 2) :
    ∀ (items : List AllocationItem) (b : Budget), ∃ n ≤ items.length,
      (b.applyAllocations income items).1.allocations.map BudgetAllocation.share =
          b.allocations.map BudgetAllocation.share ++ (items.take n).map (·.share income) ∧
        ((b.applyAllocations income items).2 = true → n = items.length)
  | [], b => ⟨0, le_rfl, by simp [applyAllocations], fun _ => rfl⟩
  | i :: items, b => by
    cases hb : b.createAllocation income i with
    | none => exact ⟨0, Nat.zero_le _, by simp [applyAllocations, hb], by simp [applyAllocations, hb]⟩
    | some b' =>
      obtain ⟨n, hn, hshares, hdone⟩ := applyAllocations_take income items b'
      refine ⟨n + 1, Nat.succ_le_succ hn, ?_, fun h => ?_⟩
      · rw [applyAllocations, hb]
        simp only [hshares, (createAllocation_eq_some hb).1, List.take_succ_cons, List.map_cons,
          List.append_assoc, List.singleton_append]
      · rw [applyAllocations, hb] at h
        rw [hdone h, List.length_cons]

/-- All are stored exactly if every amount fits and no category comes twice. -/
theorem applyAllocations_done :
    ∀ {items : List AllocationItem} {b : Budget}, (b.applyAllocations income items).2 = true ↔
      (∀ i ∈ items, i.Fits income) ∧ (items.map fun i => i.category.id).Nodup ∧
        ∀ i ∈ items, i.category.id ∉ b.allocations.map fun a => a.category.id
  | [], b => by simp [applyAllocations]
  | i :: items, b => by
    have hsome : (b.createAllocation income i).isSome = true ↔ _ := isSome_createAllocation
    cases hb : b.createAllocation income i with
    | none =>
      rw [hb] at hsome
      rw [applyAllocations, hb]
      refine iff_of_false Bool.false_ne_true fun ⟨hfits, _, hnew⟩ => ?_
      exact Bool.false_ne_true (hsome.2 ⟨hfits i List.mem_cons_self, hnew i List.mem_cons_self⟩)
    | some b' =>
      rw [hb] at hsome
      obtain ⟨hfits, hnew⟩ := hsome.1 rfl
      have hids : (b'.allocations.map fun a => a.category.id) =
          (b.allocations.map fun a => a.category.id) ++ [i.category.id] := by
        have h := congrArg (List.map fun x : Share => x.1.id) (createAllocation_eq_some hb).1
        simpa [Function.comp_def, BudgetAllocation.share, AllocationItem.share] using h
      rw [applyAllocations, hb]
      simp only [applyAllocations_done, hids, List.map_cons, List.nodup_cons, List.forall_mem_cons,
        List.mem_append, List.mem_singleton, not_or, List.mem_map, not_exists, not_and]
      grind

/-- Nothing else of the plan changes. -/
theorem clear_applyAllocations (income : Numeric 14 2) :
    ∀ (items : List AllocationItem) (b : Budget),
      (b.applyAllocations income items).1.clear = b.clear
  | [], b => rfl
  | i :: items, b => by
    cases hb : b.createAllocation income i with
    | none => rw [applyAllocations, hb]
    | some b' =>
      rw [applyAllocations, hb]
      exact (clear_applyAllocations income items b').trans (createAllocation_eq_some hb).2

end Budget

end NbeAdvisor
