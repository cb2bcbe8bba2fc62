import NbeAdvisor.PlanRecalculation

/-!
# Which edits and removals are accepted

In exact arithmetic. The calculation gives every target its share in percent, rounded to two
places, and the last one the rest (`sharesOf`). The serializer then compares each target with that
percentage of the sum, with a tolerance of two piasters. A share of a few hundred pounds and more is
often further off (`halves_rejected`) : `Apportions` says which targets are not. An edit that gives
an amount or a price, and a removal, are accepted exactly for these, as long as the new price and
the quantity that follows fit their columns and the catalogue describes the instruments as the
plan does (`changes_accepted_iff`).
-/

namespace NbeAdvisor

open Numerals

/-! ## Shares in percent -/

/-- The share of a target in a total, in percent and to two places. -/
def shareOf (total target : ℚ) : ℚ := ⌊target / total * 10 ^ 4 + 1 / 2⌋ / 10 ^ 2

/-- The shares of some targets, where the last one is the rest. -/
def sharesOf (total : ℚ) (targets : List ℚ) : List ℚ :=
  let shares := targets.dropLast.map (shareOf total)
  shares ++ [100 - shares.sum]

/-- Targets that their rounded shares of the sum give back, up to two piasters. -/
def Apportions (targets : List ℚ) : Prop :=
  (0 < targets.sum ∧ targets.sum < 10 ^ 12) ∧
    ∀ x ∈ targets.zip (sharesOf targets.sum targets),
      0 ≤ x.2 ∧ |x.1 - quantize 2 (targets.sum * x.2 / 100)| ≤ 2 / 100

instance (targets : List ℚ) : Decidable (Apportions targets) := by
  unfold Apportions
  infer_instance

section Shares

variable {total target used : ℚ} {targets : List ℚ}

theorem hasPlaces_shareOf (total target : ℚ) : HasPlaces 2 (shareOf total target) := ⟨_, rfl⟩

theorem shareOf_mem (htotal : 0 < total) (h₀ : 0 ≤ target) (h₁ : target ≤ total) :
    0 ≤ shareOf total target ∧ shareOf total target ≤ 100 := by
  have hle : target / total ≤ 1 := (div_le_one htotal).2 h₁
  have hnonneg : 0 ≤ target / total := div_nonneg h₀ htotal.le
  constructor
  · exact div_nonneg (Int.cast_nonneg (Int.floor_nonneg.2 (by linarith))) (by norm_num)
  · have hfloor : ⌊target / total * 10 ^ 4 + 1 / 2⌋ ≤ (10 ^ 4 : ℤ) := by
      refine Int.lt_add_one_iff.1 (Int.floor_lt.2 ?_)
      push_cast
      linarith
    have hcast : (⌊target / total * 10 ^ 4 + 1 / 2⌋ : ℚ) ≤ 10 ^ 4 := by exact_mod_cast hfloor
    rw [shareOf, div_le_iff₀ (by norm_num)]
    linarith

theorem percentageOf_id {last : Bool} : percentageOf id total used target last =
    if last then 100 - used else shareOf total target := by
  unfold percentageOf shareOf quantizeHalfUp
  split
  · rfl
  · congr 3
    simp only [id]
    ring

/-- The percentages of the calculation are the shares. -/
theorem percentagesOf_id_from : ∀ {targets : List ℚ} {used : ℚ}, targets ≠ [] →
    percentagesOf id total used targets = targets.dropLast.map (shareOf total) ++
      [100 - used - (targets.dropLast.map (shareOf total)).sum]
  | [t], used, _ => by simp [percentagesOf, percentageOf]
  | t :: u :: ts, used, _ => by
    have ih := @percentagesOf_id_from (u :: ts) (used + shareOf total t) (by simp)
    rw [percentagesOf, percentageOf_id]
    simp only [List.isEmpty_cons, Bool.false_eq_true, if_false, id, ih, List.dropLast_cons_cons,
      List.map_cons, List.sum_cons, List.cons_append, List.cons.injEq, true_and]
    congr 2
    ring

theorem percentagesOf_id (h : targets ≠ []) :
    percentagesOf id total 0 targets = sharesOf total targets := by
  rw [percentagesOf_id_from h, sub_zero]
  rfl

theorem sum_sharesOf : (sharesOf total targets).sum = 100 := by
  simp [sharesOf]

/-- The shares that are not negative are percentages of two places. -/
theorem sharesOf_fit (htotal : 0 < total) (h : ∀ t ∈ targets, 0 ≤ t ∧ t ≤ total) :
    ∀ s ∈ sharesOf total targets, HasPlaces 2 s ∧ s ≤ 100 := by
  have hshares : ∀ s ∈ targets.dropLast.map (shareOf total), HasPlaces 2 s ∧ 0 ≤ s ∧ s ≤ 100 := by
    intro s hs
    obtain ⟨t, ht, rfl⟩ := List.mem_map.1 hs
    obtain ⟨h₀, h₁⟩ := h t (List.mem_of_mem_dropLast ht)
    exact ⟨hasPlaces_shareOf total t, shareOf_mem htotal h₀ h₁⟩
  intro s hs
  rcases List.mem_append.1 hs with hs | hs
  · exact ⟨(hshares s hs).1, (hshares s hs).2.2⟩
  · rw [List.mem_singleton.1 hs]
    have hsum : 0 ≤ (targets.dropLast.map (shareOf total)).sum :=
      List.sum_nonneg fun s hs => (hshares s hs).2.1
    refine ⟨?_, by linarith⟩
    have hplaces : HasPlaces 2 (100 : ℚ) := ⟨10 ^ 4, by norm_num⟩
    exact hplaces.sub (hasPlaces_sum fun s hs => (hshares s hs).1)

end Shares

/-! ## Allocations before the calculation -/

theorem DecimalField.of {maxDigits places : ℕ} {lo x : ℚ} {hi : Option ℚ} (h : HasPlaces places x)
    (hlo : lo ≤ x) (hx : x < 10 ^ (maxDigits - places)) (hhi : ∀ y ∈ hi, x ≤ y)
    (h₀ : 0 ≤ lo := by norm_num) : DecimalField maxDigits places lo hi x :=
  ⟨⟨hasPlaces_iff_den.1 h, (abs_of_nonneg (h₀.trans hlo)).trans_lt hx⟩, hlo, hhi⟩

namespace AllocationSnapshot

/-- The catalogue describes the instrument as the allocation does. -/
def Current (catalogue : List CatalogueInstrument) (a : AllocationSnapshot ℚ) : Prop :=
  ∀ i ∈ catalogue, i.id = a.instrumentId → ∀ f ∈ a.metadata i, f.2 = true

instance (catalogue : List CatalogueInstrument) (a : AllocationSnapshot ℚ) :
    Decidable (a.Current catalogue) := by
  unfold Current
  infer_instance

/-- What the serializer asks of an allocation and a calculation does not provide, but for the
bounds on the price and the quantity. -/
structure Ready (now : Instant) (a : AllocationSnapshot ℚ) : Prop where
  instrumentCode : CharFits 100 a.instrumentCode
  displayName : CharFits 255 a.displayName
  targetAmount : DecimalField 14 2 0 none a.targetAmount
  unitPrice : HasPlaces 8 a.unitPrice ∧ 1 / 10 ^ 8 ≤ a.unitPrice
  priceCurrency : a.priceCurrency = "EGP"
  unit : CharFits 40 a.unit
  minimumIncrement : DecimalField 20 8 (1 / 10 ^ 8) none a.minimumIncrement
  quantity : HasPlaces 8 a.quantity ∧ 0 ≤ a.quantity
  steps : a.quantity = wholeSteps id a.targetAmount a.unitPrice a.minimumIncrement ∨
    a.quantity ≤ wholeSteps id a.targetAmount a.unitPrice a.minimumIncrement ∧
      IsMultiple a.quantity a.minimumIncrement
  source : CharFits 255 a.source
  observedAt : a.observedAt ≤ now + 5 * 60 * 10 ^ 6
  priority : ∀ n ∈ a.priority, 1 ≤ n ∧ n ≤ 3
  matchFactors : a.matchFactors.length ≤ 5

variable {now now₀ : Instant} {allow : Bool} {confirmedAmount : ℚ} {a : AllocationSnapshot ℚ}
  {c : AllocationChanges}

theorem AmountsFit.ready (h : a.AmountsFit id now₀ allow confirmedAmount) (hfit : a.FieldsFit)
    (hnow : now₀ ≤ now) : a.Ready now where
  instrumentCode := hfit.instrumentCode
  displayName := hfit.displayName
  targetAmount := hfit.targetAmount
  unitPrice := ⟨hfit.unitPrice.hasPlaces, hfit.unitPrice.2.1⟩
  priceCurrency := hfit.priceCurrency
  unit := hfit.unit
  minimumIncrement := hfit.minimumIncrement
  quantity := ⟨hfit.quantity.hasPlaces, hfit.quantity.2.1⟩
  steps := h.quantity.imp_right And.right
  source := hfit.source
  observedAt := h.observedAt.trans (by gcongr)
  priority := hfit.priority
  matchFactors := hfit.matchFactors

theorem Ready.pos (h : a.Ready now) : 0 < a.unitPrice ∧ 0 < a.minimumIncrement := by
  have hprice := h.unitPrice.2
  have hincrement := h.minimumIncrement.2.1
  norm_num at hprice hincrement
  constructor
  · linarith
  · linarith

theorem wholeSteps_id {amount price increment : ℚ} (hamount : 0 ≤ amount) (hprice : 0 < price)
    (hincrement : 0 < increment) (hplaces : HasPlaces 8 increment) :
    HasPlaces 8 (wholeSteps id amount price increment) ∧
      0 ≤ wholeSteps id amount price increment ∧
      IsMultiple (wholeSteps id amount price increment) increment := by
  have hfloor : 0 ≤ ⌊amount / price / increment⌋ :=
    Int.floor_nonneg.2 (div_nonneg (div_nonneg hamount hprice.le) hincrement.le)
  refine ⟨?_, mul_nonneg (Int.cast_nonneg hfloor) hincrement.le, ?_⟩
  · exact zero_add 8 ▸ (HasPlaces.intCast 0 ⌊amount / price / increment⌋).mul hplaces
  · simp only [wholeSteps, id, IsMultiple]
    rw [mul_div_cancel_right₀ _ hincrement.ne', Rat.den_intCast]

/-- An edit without a quantity leaves an allocation ready. -/
theorem Ready.edit (h : a.Ready now) (hc : c.FieldsFit) (hquantity : c.quantity = none) :
    (a.edit id now c).Ready now := by
  have htarget : DecimalField 14 2 0 none (c.targetAmount.getD a.targetAmount) := by
    cases ht : c.targetAmount with
    | none => exact h.targetAmount
    | some t =>
      obtain ⟨hfit, hle, hmax⟩ := hc.1 t ht
      exact ⟨hfit, le_trans (by norm_num) hle, hmax⟩
  have hprice : HasPlaces 8 (c.unitPrice.getD a.unitPrice) ∧
      1 / 10 ^ 8 ≤ c.unitPrice.getD a.unitPrice := by
    cases hu : c.unitPrice with
    | none => exact h.unitPrice
    | some u =>
      obtain ⟨z, hz⟩ := (hc.2.2 u hu).hasPlaces
      refine ⟨⟨z * 10 ^ 4, ?_⟩, le_trans (by norm_num) (hc.2.2 u hu).2.1⟩
      rw [Option.getD_some, hz]
      push_cast
      ring
  obtain ⟨hincrement, hprice₀⟩ : 0 < a.minimumIncrement ∧ 0 < c.unitPrice.getD a.unitPrice :=
    ⟨h.pos.2, lt_of_lt_of_le (by norm_num) hprice.2⟩
  have hsteps := wholeSteps_id htarget.2.1 hprice₀ hincrement h.minimumIncrement.hasPlaces
  have hedit : ((a.edit id now c).quantity = wholeSteps id (c.targetAmount.getD a.targetAmount)
      (c.unitPrice.getD a.unitPrice) a.minimumIncrement) ∨
      (a.edit id now c).quantity = a.quantity ∧ c.targetAmount = none ∧ c.unitPrice = none := by
    by_cases hgiven : c.targetAmount.isSome ∨ c.unitPrice.isSome
    · exact Or.inl (by simp only [AllocationSnapshot.edit, hquantity, if_pos hgiven])
    · refine Or.inr ⟨by simp only [AllocationSnapshot.edit, hquantity, if_neg hgiven], ?_⟩
      simpa [not_or] using hgiven
  exact {
    instrumentCode := h.instrumentCode
    displayName := h.displayName
    targetAmount := htarget
    unitPrice := hprice
    priceCurrency := h.priceCurrency
    unit := h.unit
    minimumIncrement := h.minimumIncrement
    quantity := by
      rcases hedit with heq | ⟨heq, -⟩
      · rw [heq]
        exact ⟨hsteps.1, hsteps.2.1⟩
      · rw [heq]
        exact h.quantity
    steps := by
      rcases hedit with heq | ⟨heq, ht, hu⟩
      · exact Or.inl heq
      · rw [heq]
        simpa [AllocationSnapshot.edit, ht, hu] using h.steps
    source := by
      dsimp only [AllocationSnapshot.edit]
      split
      · decide
      · exact h.source
    observedAt := by
      dsimp only [AllocationSnapshot.edit]
      split
      · exact le_add_of_nonneg_right (by norm_num)
      · exact h.observedAt
    priority := h.priority
    matchFactors := h.matchFactors }

/-- What is ready costs no more than its target. -/
theorem Ready.affordable (h : a.Ready now) : a.Affordable id := by
  obtain ⟨hprice, hincrement⟩ := h.pos
  have htarget := h.targetAmount
  have hle : a.quantity * a.unitPrice ≤ a.targetAmount := by
    have hsteps := (@wholeSteps_bounds a.targetAmount _ _ hprice hincrement).1
    refine le_trans (mul_le_mul_of_nonneg_right ?_ hprice.le) hsteps
    exact h.steps.elim (fun heq => heq.le) fun hle => hle.1
  have hcost : 0 ≤ a.cost id := quantize_nonneg (mul_nonneg h.quantity.2 hprice.le)
  have hpaid : a.cost id ≤ a.targetAmount :=
    htarget.hasPlaces.quantize_le (hle.trans_lt (by norm_num))
  refine ⟨?_, ?_, by rwa [htarget.hasPlaces.quantize_eq]⟩
  · rcases h.steps with heq | ⟨-, hmultiple⟩
    · rw [heq]
      exact (wholeSteps_id htarget.2.1 hprice hincrement h.minimumIncrement.hasPlaces).2.2
    · exact hmultiple
  · rw [abs_of_nonneg hcost]
    exact (hpaid.trans_lt ((le_abs_self _).trans_lt htarget.abs_lt)).trans (by norm_num)

theorem Ready.cost_mem (h : a.Ready now) : 0 ≤ a.cost id ∧ a.cost id ≤ a.targetAmount := by
  refine ⟨quantize_nonneg (mul_nonneg h.quantity.2 h.pos.1.le), ?_⟩
  rw [← h.targetAmount.hasPlaces.quantize_eq]
  exact h.affordable.paid

/-- What the calculation leaves fits if the share, the price and the quantity are in range. -/
theorem Ready.fieldsFit_recalculated (h : a.Ready now) {share : ℚ}
    (hshare : HasPlaces 2 share ∧ 0 ≤ share ∧ share ≤ 100) (hprice : a.unitPrice < 10 ^ 12)
    (hquantity : a.quantity < 10 ^ 16) : (a.recalculated id share).FieldsFit := by
  have htarget := h.targetAmount
  have htarget' := htarget.hasPlaces.quantize_eq
  have hlt := (le_abs_self _).trans_lt htarget.abs_lt
  obtain ⟨hcost, hpaid⟩ := h.cost_mem
  have hplaces : HasPlaces 2 (a.cost id) := hasPlaces_quantize 2 _
  exact {
    instrumentCode := h.instrumentCode
    displayName := h.displayName
    percentage := by
      refine .of hshare.1 hshare.2.1 (hshare.2.2.trans_lt (by norm_num)) fun y hy => ?_
      obtain rfl := Option.some.inj hy
      exact hshare.2.2
    targetAmount := by
      simpa only [AllocationSnapshot.recalculated, htarget'] using htarget
    unitPrice := .of h.unitPrice.1 h.unitPrice.2 hprice (by simp)
    priceCurrency := h.priceCurrency
    unit := h.unit
    minimumIncrement := h.minimumIncrement
    quantity := .of h.quantity.1 h.quantity.2 hquantity (by simp)
    actualAllocatedAmount := .of hplaces hcost (hpaid.trans_lt hlt) (by simp)
    unallocatedRemainder := by
      have hremainder : (a.recalculated id share).unallocatedRemainder =
          a.targetAmount - a.cost id := by simp only [AllocationSnapshot.recalculated, htarget', id]
      rw [hremainder]
      exact .of (htarget.hasPlaces.sub hplaces) (sub_nonneg.2 hpaid) (by linarith) (by simp)
    source := h.source
    priority := h.priority
    matchFactors := h.matchFactors }

theorem Ready.amountsFit_recalculated (h : a.Ready now) {confirmedAmount share : ℚ}
    (hshare : |a.targetAmount - quantize 2 (confirmedAmount * share / 100)| ≤ 2 / 100) :
    (a.recalculated id share).AmountsFit id now true confirmedAmount := by
  have htarget := h.targetAmount.hasPlaces.quantize_eq
  exact {
    observedAt := h.observedAt
    target := by
      simpa only [AllocationSnapshot.recalculated, htarget, moneyTolerance, id] using hshare
    quantity := by
      simpa only [AllocationSnapshot.recalculated, htarget, true_and] using h.steps
    storable := h.affordable.storable
    actual := by norm_num [AllocationSnapshot.recalculated, cost, moneyTolerance]
    remainder := by norm_num [AllocationSnapshot.recalculated, moneyTolerance] }

end AllocationSnapshot

/-! ## Payloads before the calculation -/

namespace ScenarioPayload

/-- What the serializer asks of a payload and a calculation does not provide. -/
structure Ready (now : Instant) (catalogue : List CatalogueInstrument) (p : ScenarioPayload ℚ) :
    Prop where
  currency : p.currency = "EGP"
  length : 1 ≤ p.allocations.length ∧ p.allocations.length ≤ 3
  allocations : ∀ a ∈ p.allocations, a.Ready now
  disclaimer : CharFits 1000 p.disclaimer
  nodup : p.instrumentIds.Nodup
  priorities : p.PrioritiesFit
  active : (p.activeInstruments catalogue).length = p.instrumentIds.length

variable {now : Instant} {catalogue : List CatalogueInstrument} {p : ScenarioPayload ℚ}

/-- The targets of the allocations. -/
def targets (p : ScenarioPayload ℚ) : List ℚ := p.allocations.map (·.targetAmount)

/-- A share beside the target it is one of. -/
theorem forall_zip_targets (p : ScenarioPayload ℚ) (ss : List ℚ) (f : ℚ × ℚ → Prop) :
    (∀ x ∈ p.allocations.zip ss, f (x.1.targetAmount, x.2)) ↔
      ∀ x ∈ p.targets.zip ss, f x := by
  have hzip : p.targets.zip ss = (p.allocations.zip ss).map fun x => (x.1.targetAmount, x.2) := by
    rw [targets, List.zip_map_left]
    rfl
  rw [hzip, List.forall_mem_map]

theorem instrumentIds_recalculated : (p.recalculated id).instrumentIds = p.instrumentIds :=
  map_recalculated fun _ _ => rfl

theorem activeInstruments_recalculated :
    (p.recalculated id).activeInstruments catalogue = p.activeInstruments catalogue := by
  simp only [activeInstruments, instrumentIds_recalculated]

namespace Ready

variable (h : p.Ready now catalogue)

include h

theorem map_quantize : (p.allocations.map fun a => quantize 2 a.targetAmount) = p.targets :=
  List.map_congr_left fun a ha => (h.allocations a ha).targetAmount.hasPlaces.quantize_eq

theorem targets_ne_nil : p.targets ≠ [] := by
  have hlen := h.length.1
  intro hnil
  rw [targets, List.map_eq_nil_iff] at hnil
  rw [hnil] at hlen
  simp at hlen

theorem target_fits : ∀ t ∈ p.targets, HasPlaces 2 t ∧ 0 ≤ t := by
  intro t ht
  obtain ⟨a, ha, rfl⟩ := List.mem_map.1 ht
  exact ⟨(h.allocations a ha).targetAmount.hasPlaces, (h.allocations a ha).targetAmount.2.1⟩

theorem sumTargets_eq : p.sumTargets id = p.targets.sum := by
  rw [sumTargets, sumDecimals_id]
  exact (hasPlaces_sum fun t ht => (h.target_fits t ht).1).quantize_eq

theorem percentages_eq :
    (p.recalculated id).allocations.map (·.percentage) = sharesOf p.targets.sum p.targets := by
  rw [map_percentage_recalculated, h.map_quantize, h.sumTargets_eq, percentagesOf_id h.targets_ne_nil]

/-- The allocations of the calculation, with their targets and shares. -/
theorem mem_recalculated_iff {b : AllocationSnapshot ℚ} :
    b ∈ (p.recalculated id).allocations ↔
      ∃ x ∈ p.allocations.zip (sharesOf p.targets.sum p.targets), b = x.1.recalculated id x.2 := by
  have hallocations : (p.recalculated id).allocations =
      (p.allocations.zip (sharesOf p.targets.sum p.targets)).map fun x =>
        x.1.recalculated id x.2 := by
    simp only [recalculated, recalculatedFrom, h.map_quantize, h.sumTargets_eq,
      percentagesOf_id h.targets_ne_nil]
  rw [hallocations, List.mem_map]
  exact exists_congr fun x => and_congr_right fun _ => eq_comm

theorem fieldsFit_recalculated (hsum : 0 < p.targets.sum ∧ p.targets.sum < 10 ^ 12)
    (hfit : ∀ b ∈ (p.recalculated id).allocations, b.FieldsFit) :
    (p.recalculated id).FieldsFit := by
  have hconfirmed : (p.recalculated id).confirmedAmount = p.targets.sum := h.sumTargets_eq
  have hcosts : (p.recalculated id).totalAllocated = (p.allocations.map (·.cost id)).sum := by
    change sumDecimals id ((p.recalculated id).allocations.map (·.actualAllocatedAmount)) = _
    rw [sumDecimals_id, map_recalculated (g := fun a => a.cost id) fun _ _ => rfl]
  have hremainder : (p.recalculated id).totalRemainder =
      p.targets.sum - (p.allocations.map (·.cost id)).sum := by
    rw [← hconfirmed, ← hcosts]
    rfl
  have hsumplaces : HasPlaces 2 p.targets.sum := hasPlaces_sum fun t ht => (h.target_fits t ht).1
  have hcostplaces : HasPlaces 2 (p.allocations.map (·.cost id)).sum := by
    refine hasPlaces_sum fun t ht => ?_
    obtain ⟨a, -, rfl⟩ := List.mem_map.1 ht
    exact hasPlaces_quantize 2 _
  have hcostpos : 0 ≤ (p.allocations.map (·.cost id)).sum := by
    refine List.sum_nonneg fun t ht => ?_
    obtain ⟨a, ha, rfl⟩ := List.mem_map.1 ht
    exact (h.allocations a ha).cost_mem.1
  have hcostle : (p.allocations.map (·.cost id)).sum ≤ p.targets.sum :=
    List.sum_le_sum fun a ha => (h.allocations a ha).cost_mem.2
  have hlen : (p.recalculated id).allocations.length = p.allocations.length := by
    simpa [instrumentIds] using congrArg List.length (instrumentIds_recalculated (p := p))
  exact {
    confirmedAmount := by
      rw [hconfirmed]
      have hpiaster := (HasPlaces.zero 2).add_le_of_lt hsumplaces hsum.1
      exact .of hsumplaces (by linarith) hsum.2 (by simp)
    currency := h.currency
    length := by
      rw [hlen]
      exact h.length
    allocations := hfit
    totalAllocated := by
      rw [hcosts]
      exact .of hcostplaces hcostpos (hcostle.trans_lt hsum.2) (by simp)
    totalRemainder := by
      rw [hremainder]
      exact .of (hsumplaces.sub hcostplaces) (sub_nonneg.2 hcostle)
        ((sub_le_self _ hcostpos).trans_lt hsum.2) (by simp)
    disclaimer := h.disclaimer }

/-- The serializer accepts what the calculation leaves exactly if the targets apportion and the
prices, the quantities and the metadata fit. -/
theorem accepted_recalculated_iff : (p.recalculated id).Accepted id now catalogue true ↔
    Apportions p.targets ∧ (∀ a ∈ p.allocations, a.unitPrice < 10 ^ 12 ∧ a.quantity < 10 ^ 16) ∧
      ∀ a ∈ p.allocations, a.MetadataFits (p.activeInstruments catalogue) := by
  have hconfirmed : (p.recalculated id).confirmedAmount = p.targets.sum := h.sumTargets_eq
  constructor
  · intro haccepted
    have hfit := haccepted.fieldsFit
    refine ⟨⟨?_, ?_⟩, fun a ha => ?_, fun a ha => ?_⟩
    · have hamount := hfit.confirmedAmount
      rw [hconfirmed] at hamount
      exact ⟨lt_of_lt_of_le (by norm_num) hamount.2.1, (le_abs_self _).trans_lt hamount.abs_lt⟩
    · rw [← forall_zip_targets]
      intro x hx
      have hb := h.mem_recalculated_iff.2 ⟨x, hx, rfl⟩
      have htarget := (haccepted.amounts _ hb).target
      have hquantize := (h.allocations x.1 (List.of_mem_zip hx).1).targetAmount.hasPlaces.quantize_eq
      simp only [AllocationSnapshot.recalculated, hquantize, hconfirmed, moneyTolerance, id]
        at htarget
      exact ⟨(hfit.allocations _ hb).percentage.2.1, htarget⟩
    · obtain ⟨share, hb⟩ := @exists_recalculated id _ _ ha
      have hb' := hfit.allocations _ hb
      exact ⟨(le_abs_self _).trans_lt hb'.unitPrice.abs_lt,
        (le_abs_self _).trans_lt hb'.quantity.abs_lt⟩
    · obtain ⟨share, hb⟩ := @exists_recalculated id _ _ ha
      have hb' := haccepted.metadata _ hb
      rw [activeInstruments_recalculated] at hb'
      exact hb'
  · rintro ⟨⟨hsum, hshares⟩, hrange, hmetadata⟩
    rw [← forall_zip_targets] at hshares
    have hle : ∀ t ∈ p.targets, 0 ≤ t ∧ t ≤ p.targets.sum := fun t ht =>
      ⟨(h.target_fits t ht).2, List.single_le_sum (fun u hu => (h.target_fits u hu).2) t ht⟩
    have hfit : ∀ b ∈ (p.recalculated id).allocations, b.FieldsFit := by
      intro b hb
      obtain ⟨x, hx, rfl⟩ := h.mem_recalculated_iff.1 hb
      obtain ⟨ha, hshare⟩ := List.of_mem_zip hx
      obtain ⟨hplaces, hmax⟩ := sharesOf_fit hsum.1 hle x.2 hshare
      exact (h.allocations x.1 ha).fieldsFit_recalculated ⟨hplaces, (hshares x hx).1, hmax⟩
        (hrange x.1 ha).1 (hrange x.1 ha).2
    exact {
      fieldsFit := h.fieldsFit_recalculated hsum hfit
      saved := rfl
      nodup := by
        rw [instrumentIds_recalculated]
        exact h.nodup
      priorities := by
        rw [PrioritiesFit, map_recalculated (g := fun a => a.priority) fun _ _ => rfl]
        exact h.priorities
      percentages := by rw [sumDecimals_id, h.percentages_eq, sum_sharesOf]
      amounts := by
        intro b hb
        obtain ⟨x, hx, rfl⟩ := h.mem_recalculated_iff.1 hb
        rw [hconfirmed]
        exact (h.allocations x.1 (List.of_mem_zip hx).1).amountsFit_recalculated (hshares x hx).2
      totalAllocated := by norm_num [recalculated, moneyTolerance]
      totalRemainder := by norm_num [recalculated, moneyTolerance]
      active := by
        rw [activeInstruments_recalculated, instrumentIds_recalculated]
        exact h.active
      metadata := by
        intro b hb
        obtain ⟨a, ha, share, rfl⟩ := mem_recalculated hb
        rw [activeInstruments_recalculated]
        exact hmetadata a ha }

/-- The calculation of a payload that is ready. -/
theorem recalculate_ok_iff : (∃ r, recalculateSavedPayload id now catalogue p = .ok r) ↔
    Apportions p.targets ∧ (∀ a ∈ p.allocations, a.unitPrice < 10 ^ 12 ∧ a.quantity < 10 ^ 16) ∧
      ∀ a ∈ p.allocations, a.MetadataFits (p.activeInstruments catalogue) := by
  rw [← h.accepted_recalculated_iff]
  constructor
  · rintro ⟨r, hr⟩
    exact (recalculateSavedPayload_eq_ok.1 hr).2.2.2.1
  · intro haccepted
    refine ⟨_, recalculateSavedPayload_eq_ok.2 ⟨?_, fun _ => ?_,
      fun a ha => (h.allocations a ha).affordable, haccepted, rfl⟩⟩
    · intro hnil
      exact h.targets_ne_nil (by rw [targets, hnil, List.map_nil])
    · rw [h.sumTargets_eq]
      exact (h.accepted_recalculated_iff.1 haccepted).1.1.1.ne'

/-- With distinct instruments in the catalogue, the metadata fits if the catalogue says the same. -/
theorem metadataFits_iff (hcatalogue : (catalogue.map (·.id)).Nodup) {a : AllocationSnapshot ℚ}
    (ha : a ∈ p.allocations) :
    a.MetadataFits (p.activeInstruments catalogue) ↔ a.Current catalogue := by
  constructor
  · rintro ⟨i, hi, hfields⟩ j hj hid
    have hi' := List.mem_of_mem_filter (List.mem_of_find?_eq_some hi)
    have hia : i.id = a.instrumentId := by simpa using List.find?_some hi
    rw [Keyed.eq_of_pk hcatalogue hj hi' (hid.trans hia.symm)]
    exact hfields
  · intro hcurrent
    obtain ⟨i, hi, hid⟩ := mem_activeInstruments hcatalogue h.active
      (List.mem_map_of_mem (f := fun a => a.instrumentId) ha)
    cases hfind : (p.activeInstruments catalogue).find? fun i => i.id = a.instrumentId with
    | none => exact absurd hid (by simpa using List.find?_eq_none.1 hfind i hi)
    | some j =>
      exact ⟨j, hfind, hcurrent j (List.mem_of_mem_filter (List.mem_of_find?_eq_some hfind))
        (by simpa using List.find?_some hfind)⟩

end Ready

/-- The instruments of a payload are all in the catalogue and active. -/
def AllActive (catalogue : List CatalogueInstrument) (ids : List InstrumentId) : Prop :=
  ∀ x ∈ ids, ∃ i ∈ catalogue, i.id = x ∧ i.isActive = true ∧ i.productIsActive = true

instance (catalogue : List CatalogueInstrument) (ids : List InstrumentId) :
    Decidable (AllActive catalogue ids) := by
  unfold AllActive
  infer_instance

theorem length_activeInstruments (hcatalogue : (catalogue.map (·.id)).Nodup)
    (hnodup : p.instrumentIds.Nodup) (h : AllActive catalogue p.instrumentIds) :
    (p.activeInstruments catalogue).length = p.instrumentIds.length := by
  have hids : ((p.activeInstruments catalogue).map (·.id)).Perm p.instrumentIds := by
    refine (List.perm_ext_iff_of_nodup (hcatalogue.sublist (List.filter_sublist.map _)) hnodup).2
      fun x => ⟨fun hx => ?_, fun hx => ?_⟩
    · obtain ⟨i, hi, rfl⟩ := List.mem_map.1 hx
      have := (List.mem_filter.1 hi).2
      simp only [decide_eq_true_eq] at this
      exact this.1
    · obtain ⟨i, hi, rfl, hactive⟩ := h x hx
      exact List.mem_map.2 ⟨i, List.mem_filter.2 ⟨hi, by simpa using ⟨hx, hactive⟩⟩, rfl⟩
  simpa using hids.length_eq

variable {now₀ : Instant} {catalogue₀ : List CatalogueInstrument} {allow : Bool}
  {c : AllocationChanges} {x : InstrumentId}

theorem Accepted.ready_edited (h : p.Accepted id now₀ catalogue₀ allow) (hnow : now₀ ≤ now)
    (hcatalogue : (catalogue.map (·.id)).Nodup) (hactive : AllActive catalogue p.instrumentIds)
    (hc : c.FieldsFit) (hquantity : c.quantity = none) :
    (p.edited id now x c).Ready now catalogue := by
  have hids : (p.edited id now x c).instrumentIds = p.instrumentIds :=
    Keyed.map_pk_modify fun a ha => ha
  exact {
    currency := h.fieldsFit.currency
    length := by simpa [edited, Keyed.modify] using h.fieldsFit.length
    allocations := by
      intro b hb
      rcases Keyed.mem_modify.1 hb with ⟨hb, -⟩ | ⟨a, ha, -, rfl⟩
      · exact (h.amounts b hb).ready (h.fieldsFit.allocations b hb) hnow
      · exact ((h.amounts a ha).ready (h.fieldsFit.allocations a ha) hnow).edit hc hquantity
    disclaimer := h.fieldsFit.disclaimer
    nodup := hids ▸ h.nodup
    priorities := by
      have hpriorities : (p.edited id now x c).allocations.map (·.priority) =
          p.allocations.map (·.priority) := Keyed.map_modify fun _ => rfl
      rw [PrioritiesFit, hpriorities]
      exact h.priorities
    active := by
      rw [length_activeInstruments hcatalogue (hids ▸ h.nodup) (hids ▸ hactive)] }

theorem Accepted.ready_without (h : p.Accepted id now₀ catalogue₀ allow) (hnow : now₀ ≤ now)
    (hcatalogue : (catalogue.map (·.id)).Nodup) (hactive : AllActive catalogue p.instrumentIds)
    (hlen : 2 ≤ p.allocations.length) : (p.without x).Ready now catalogue := by
  have hsub : (p.without x).allocations.Sublist p.allocations := List.filter_sublist
  have hnodup : (p.without x).instrumentIds.Nodup := h.nodup.sublist (hsub.map _)
  exact {
    currency := h.fieldsFit.currency
    length := by
      refine ⟨?_, hsub.length_le.trans h.fieldsFit.length.2⟩
      have hone := Keyed.length_filter_le_one (p := fun a => !decide (a.instrumentId ≠ x))
        h.nodup (by simp +contextual)
      have hsplit := List.length_eq_length_filter_add (l := p.allocations)
        fun a => decide (a.instrumentId ≠ x)
      simp only [without] at hone hsplit ⊢
      omega
    allocations := by
      intro b hb
      have hb' := hsub.subset hb
      exact (h.amounts b hb').ready (h.fieldsFit.allocations b hb') hnow
    disclaimer := h.fieldsFit.disclaimer
    nodup := hnodup
    priorities := by
      have hpriorities := hsub.map (·.priority)
      rcases h.priorities with hnone | ⟨hsome, hdistinct⟩
      · exact Or.inl fun n hn => hnone n (hpriorities.subset hn)
      · exact Or.inr ⟨fun n hn => hsome n (hpriorities.subset hn), hdistinct.sublist hpriorities⟩
    active := length_activeInstruments hcatalogue hnodup
      fun y hy => hactive y ((hsub.map _).subset hy) }

theorem Accepted.range (h : p.Accepted id now₀ catalogue₀ allow) :
    ∀ a ∈ p.allocations, a.unitPrice < 10 ^ 12 ∧ a.quantity < 10 ^ 16 := by
  intro a ha
  have hfit := h.fieldsFit.allocations a ha
  exact ⟨(le_abs_self _).trans_lt hfit.unitPrice.abs_lt,
    (le_abs_self _).trans_lt hfit.quantity.abs_lt⟩

/-- The calculation of an edit that gives no quantity. -/
theorem Accepted.edit_ok_iff (h : p.Accepted id now₀ catalogue₀ allow) (hnow : now₀ ≤ now)
    (hcatalogue : (catalogue.map (·.id)).Nodup) (hactive : AllActive catalogue p.instrumentIds)
    (hc : c.FieldsFit) (hquantity : c.quantity = none)
    (hgiven : c.targetAmount.isSome ∨ c.unitPrice.isSome) (hx : x ∈ p.instrumentIds) :
    (∃ r, recalculateSavedPayload id now catalogue (p.edited id now x c) = .ok r) ↔
      Apportions (p.edited id now x c).targets ∧ (∀ u ∈ c.unitPrice, u < 10 ^ 12) ∧
        (∀ a ∈ p.allocations, a.instrumentId = x →
          wholeSteps id (c.targetAmount.getD a.targetAmount) (c.unitPrice.getD a.unitPrice)
            a.minimumIncrement < 10 ^ 16) ∧
        ∀ a ∈ p.allocations, a.Current catalogue := by
  have hready := h.ready_edited (x := x) hnow hcatalogue hactive hc hquantity
  rw [hready.recalculate_ok_iff]
  refine and_congr_right fun _ => ?_
  have hmem : ∀ a ∈ p.allocations, a.instrumentId = x →
      a.edit id now c ∈ (p.edited id now x c).allocations := fun a ha hax =>
    Keyed.mem_modify.2 (Or.inr ⟨a, ha, hax, rfl⟩)
  have hsteps : ∀ a : AllocationSnapshot ℚ, (a.edit id now c).quantity =
      wholeSteps id (c.targetAmount.getD a.targetAmount) (c.unitPrice.getD a.unitPrice)
        a.minimumIncrement := fun a => by
    simp only [AllocationSnapshot.edit, hquantity, if_pos hgiven]
  constructor
  · rintro ⟨hfit, hmetadata⟩
    refine ⟨fun u hu => ?_, fun a ha hax => ?_, fun a ha => ?_⟩
    · obtain ⟨a, ha, hax⟩ := List.mem_map.1 hx
      have hprice := (hfit _ (hmem a ha hax)).1
      rwa [AllocationSnapshot.edit, Option.mem_def.1 hu] at hprice
    · rw [← hsteps a]
      exact (hfit _ (hmem a ha hax)).2
    · by_cases hax : a.instrumentId = x
      · exact (hready.metadataFits_iff hcatalogue (hmem a ha hax)).1
          (hmetadata _ (hmem a ha hax))
      · have ha' : a ∈ (p.edited id now x c).allocations := Keyed.mem_modify.2 (Or.inl ⟨ha, hax⟩)
        exact (hready.metadataFits_iff hcatalogue ha').1 (hmetadata a ha')
  · rintro ⟨hprice, hquantities, hcurrent⟩
    refine ⟨fun b hb => ?_, fun b hb => (hready.metadataFits_iff hcatalogue hb).2 ?_⟩
    · rcases Keyed.mem_modify.1 hb with ⟨hb, -⟩ | ⟨a, ha, hax, rfl⟩
      · exact h.range b hb
      · refine ⟨?_, by rw [hsteps a]; exact hquantities a ha hax⟩
        cases hu : c.unitPrice with
        | none => simpa [AllocationSnapshot.edit, hu] using (h.range a ha).1
        | some u => simpa [AllocationSnapshot.edit, hu] using hprice u hu
    · rcases Keyed.mem_modify.1 hb with ⟨hb, -⟩ | ⟨a, ha, -, rfl⟩
      · exact hcurrent b hb
      · exact hcurrent a ha

/-- The calculation of a removal. -/
theorem Accepted.removal_ok_iff (h : p.Accepted id now₀ catalogue₀ allow) (hnow : now₀ ≤ now)
    (hcatalogue : (catalogue.map (·.id)).Nodup) (hactive : AllActive catalogue p.instrumentIds)
    (hlen : 2 ≤ p.allocations.length) :
    (∃ r, recalculateSavedPayload id now catalogue (p.without x) = .ok r) ↔
      Apportions (p.without x).targets ∧
        ∀ a ∈ p.allocations, a.instrumentId ≠ x → a.Current catalogue := by
  have hready := h.ready_without (x := x) hnow hcatalogue hactive hlen
  rw [hready.recalculate_ok_iff]
  refine and_congr_right fun _ => ?_
  constructor
  · rintro ⟨-, hmetadata⟩ a ha hax
    have ha' : a ∈ (p.without x).allocations := List.mem_filter.2 ⟨ha, by simpa using hax⟩
    exact (hready.metadataFits_iff hcatalogue ha').1 (hmetadata a ha')
  · intro hcurrent
    refine ⟨fun a ha => h.range a (List.mem_of_mem_filter ha), fun a ha => ?_⟩
    exact (hready.metadataFits_iff hcatalogue ha).2
      (hcurrent a (List.mem_of_mem_filter ha) (by simpa using (List.mem_filter.1 ha).2))

end ScenarioPayload

/-- An accepted plan of instruments that are active is edited, with an amount or a price and no
quantity, or left with fewer allocations, exactly if the targets apportion, the new price and
the quantity that follows are in range and the catalogue has the metadata of the plan. -/
theorem changes_accepted_iff {now₀ now : Instant} {catalogue₀ catalogue : List CatalogueInstrument}
    {allow : Bool} {p : ScenarioPayload Double}
    (hp : p.ofJson.serialize id now₀ catalogue₀ allow = .ok p.ofJson) (hnow : now₀ ≤ now)
    (hcatalogue : (catalogue.map (·.id)).Nodup)
    (hactive : ScenarioPayload.AllActive catalogue p.instrumentIds) {x : InstrumentId}
    (hx : x ∈ p.instrumentIds) :
    (∀ c : AllocationChanges, c.FieldsFit → c.quantity = none →
        c.targetAmount.isSome ∨ c.unitPrice.isSome →
      ((∃ r, updateSavedAllocation id now catalogue p x c = .ok r) ↔
        Apportions (p.ofJson.edited id now x c).targets ∧ (∀ u ∈ c.unitPrice, u < 10 ^ 12) ∧
          (∀ a ∈ p.ofJson.allocations, a.instrumentId = x →
            wholeSteps id (c.targetAmount.getD a.targetAmount) (c.unitPrice.getD a.unitPrice)
              a.minimumIncrement < 10 ^ 16) ∧
          ∀ a ∈ p.ofJson.allocations, a.Current catalogue)) ∧
      (2 ≤ p.allocations.length →
        ((∃ r, removeSavedAllocation id now catalogue p x = .ok (some r)) ↔
          Apportions (p.ofJson.without x).targets ∧
            ∀ a ∈ p.ofJson.allocations, a.instrumentId ≠ x → a.Current catalogue)) := by
  have h := (ScenarioPayload.serialize_iff.1 hp).2
  have hids := p.instrumentIds_ofJson
  rw [← hids] at hactive
  refine ⟨fun c hc hquantity hgiven => ?_, fun hlen => ?_⟩
  · simp only [updateSavedAllocation_eq_ok, hx, true_and]
    exact h.edit_ok_iff hnow hcatalogue hactive hc hquantity hgiven (hids ▸ hx)
  · have hlen' : 2 ≤ p.ofJson.allocations.length := by
      simpa [ScenarioPayload.ofJson, ScenarioPayload.map] using hlen
    simp only [removeSavedAllocation_eq_some, hx, true_and]
    exact h.removal_ok_iff hnow hcatalogue hactive hlen'

/-- Half of 10000 pounds in gold, half in the fund. -/
def halves : ScenarioPayload ℚ :=
  { PlanStore.twoParts (PlanStore.goldPart 50 5000 50)
      { PlanStore.fundPart 50 5000 20 with
        actualAllocatedAmount := 4800, unallocatedRemainder := 200 } with
    confirmedAmount := 10000, totalAllocated := 9800, totalRemainder := 200 }

/-- With half of the gold left, it is a third of the plan, which is 33.33 percent : a quarter of a
pound off. -/
theorem halves_rejected :
    halves.toJson.ofJson.serialize id 0 [PlanStore.gold, PlanStore.fund] false =
        .ok halves.toJson.ofJson ∧
      ScenarioPayload.AllActive [PlanStore.gold, PlanStore.fund] halves.toJson.instrumentIds ∧
      AllocationChanges.FieldsFit { targetAmount := some 2500 } ∧
      updateSavedAllocation id 1 [PlanStore.gold, PlanStore.fund] halves.toJson 1
        { targetAmount := some 2500 } =
        .error (.invalid "allocations" "An allocation target does not match its percentage.") := by
  decide +kernel

/-- Three quarters are 75 percent. -/
theorem halves_accepted :
    ∃ r, updateSavedAllocation id 1 [PlanStore.gold, PlanStore.fund] halves.toJson 1
      { targetAmount := some 15000 } = .ok r :=
  ((@changes_accepted_iff 0 1 [PlanStore.gold, PlanStore.fund] [PlanStore.gold, PlanStore.fund]
    false halves.toJson (by decide +kernel) (by decide) (by decide +kernel) (by decide +kernel) 1
    (by decide +kernel)).1
    { targetAmount := some 15000 } (by decide +kernel) rfl (by decide)).2 (by decide +kernel)

end NbeAdvisor
