import NbeAdvisor.PlanChecks

/-!
# A plan calculated again, in closed form

What `recalculateSavedPayload` returns and when (`recalculateSavedPayload_eq_ok`) : the payload
`ScenarioPayload.recalculated`, if every quantity is a multiple of its increment that its target
pays and the serializer accepts the payload.

With 28 digits the amounts of a plan are exact : they have two places and are below `10^12`, so
sums of them fit, and so does the cost of a quantity that its target pays. A payload that
an edit or a removal returns therefore adds up to the piaster, and has the terms that the plan
had for every other instrument (`changes_keep_balance`).
-/

namespace NbeAdvisor

open Numerals

/-! ## The loop over the allocations -/

namespace AllocationSnapshot

variable (ctx : ℚ → ℚ) (a : AllocationSnapshot ℚ)

/-- `allocated`. -/
def cost : ℚ := quantize 2 (ctx (a.quantity * a.unitPrice))

/-- What the loop asks of an allocation. -/
structure Affordable : Prop where
  multiple : IsMultiple a.quantity a.minimumIncrement
  storable : |a.cost ctx| < 10 ^ 26
  paid : a.cost ctx ≤ quantize 2 a.targetAmount

/-- The allocation as the loop leaves it. -/
def recalculated (percentage : ℚ) : AllocationSnapshot ℚ :=
  { a with
    targetAmount := quantize 2 a.targetAmount, percentage, actualAllocatedAmount := a.cost ctx
    unallocatedRemainder := ctx (quantize 2 a.targetAmount - a.cost ctx) }

end AllocationSnapshot

section Percentages

variable (ctx : ℚ → ℚ) (confirmedAmount : ℚ)

/-- The percentage of a target, `last` or not, after `used` percent. -/
def percentageOf (used target : ℚ) (last : Bool) : ℚ :=
  if last then ctx (100 - used)
  else quantizeHalfUp 2 (ctx (ctx (target / confirmedAmount) * 100))

/-- The percentages of some targets. -/
def percentagesOf : ℚ → List ℚ → List ℚ
  | _, [] => []
  | used, t :: ts =>
    let percentage := percentageOf ctx confirmedAmount used t ts.isEmpty
    percentage :: percentagesOf (ctx (used + percentage)) ts

@[simp] theorem length_percentagesOf (used : ℚ) (ts : List ℚ) :
    (percentagesOf ctx confirmedAmount used ts).length = ts.length := by
  induction ts generalizing used with
  | nil => rfl
  | cons t ts ih => simp [percentagesOf, ih]

variable {ctx confirmedAmount}

theorem nextPercentage_eq_ok {used target percentage : ℚ} {last : Bool} :
    nextPercentage ctx confirmedAmount used target last = .ok percentage ↔
      (last = false → confirmedAmount ≠ 0) ∧
        percentage = percentageOf ctx confirmedAmount used target last := by
  cases last with
  | true => simp [nextPercentage, percentageOf, eq_comm]
  | false =>
    by_cases h : confirmedAmount = 0
    · simp [nextPercentage, h]
    · simp [nextPercentage, percentageOf, h, eq_comm]

end Percentages

variable {ctx : ℚ → ℚ} {now : Instant} {catalogue : List CatalogueInstrument}

/-- The allocations of the loop. -/
def recalculatedFrom (ctx : ℚ → ℚ) (confirmedAmount used : ℚ) (as : List (AllocationSnapshot ℚ)) :
    List (AllocationSnapshot ℚ) :=
  (as.zip (percentagesOf ctx confirmedAmount used
    (as.map fun a => quantize 2 a.targetAmount))).map fun x => x.1.recalculated ctx x.2

theorem recalculateAllocations_eq_ok {confirmedAmount : ℚ} :
    ∀ {used : ℚ} {as bs : List (AllocationSnapshot ℚ)},
      recalculateAllocations ctx confirmedAmount used as = .ok bs ↔
        (2 ≤ as.length → confirmedAmount ≠ 0) ∧ (∀ a ∈ as, a.Affordable ctx) ∧
          bs = recalculatedFrom ctx confirmedAmount used as
  | used, [], bs => by simp [recalculateAllocations, recalculatedFrom, eq_comm]
  | used, a :: as, bs => by
    simp only [recalculateAllocations, bind_ok, nextPercentage_eq_ok, require_eq_ok,
      quantizeMoney_eq_ok, exists_const]
    constructor
    · rintro ⟨percentage, ⟨hlast, rfl⟩, hmultiple, _, ⟨hstorable, rfl⟩, hpaid, rest, hrest, hbs⟩
      obtain ⟨-, hall, rfl⟩ := recalculateAllocations_eq_ok.1 hrest
      refine ⟨fun hlen => hlast ?_, List.forall_mem_cons.2 ⟨⟨hmultiple, hstorable, hpaid⟩, hall⟩,
        ?_⟩
      · cases as with
        | nil => simp at hlen
        | cons b as => rfl
      · rw [← Except.ok.inj hbs]
        cases as <;> rfl
    · rintro ⟨hlen, hall, rfl⟩
      obtain ⟨ha, has⟩ := List.forall_mem_cons.1 hall
      refine ⟨_, ⟨fun hlast => hlen ?_, rfl⟩, ha.multiple, _, ⟨ha.storable, rfl⟩, ha.paid, _,
        recalculateAllocations_eq_ok.2 ⟨fun h => hlen (by simp only [List.length_cons]; omega),
          has, rfl⟩, ?_⟩
      · cases as with
        | nil => cases hlast
        | cons b as => simp
      · cases as <;> rfl

/-! ## The payload -/

namespace ScenarioPayload

variable (ctx) (p : ScenarioPayload ℚ)

/-- `confirmed_amount` of the calculation. -/
def sumTargets : ℚ := quantize 2 (sumDecimals ctx (p.allocations.map (·.targetAmount)))

/-- The payload before it goes to the serializer. -/
def recalculated : ScenarioPayload ℚ :=
  let allocations := recalculatedFrom ctx (p.sumTargets ctx) 0 p.allocations
  let totalAllocated := sumDecimals ctx (allocations.map (·.actualAllocatedAmount))
  { p with
    confirmedAmount := p.sumTargets ctx, allocations, totalAllocated
    totalRemainder := ctx (p.sumTargets ctx - totalAllocated), saved := true }

variable {ctx p}

theorem mem_recalculated {b : AllocationSnapshot ℚ} (hb : b ∈ (p.recalculated ctx).allocations) :
    ∃ a ∈ p.allocations, ∃ percentage, b = a.recalculated ctx percentage := by
  obtain ⟨x, hx, rfl⟩ := List.mem_map.1 hb
  exact ⟨x.1, (List.of_mem_zip hx).1, x.2, rfl⟩

theorem exists_recalculated {a : AllocationSnapshot ℚ} (ha : a ∈ p.allocations) :
    ∃ percentage, a.recalculated ctx percentage ∈ (p.recalculated ctx).allocations := by
  have hzip := @List.map_fst_zip _ _ p.allocations (percentagesOf ctx (p.sumTargets ctx) 0
    (p.allocations.map fun a => quantize 2 a.targetAmount)) (by simp)
  rw [← hzip] at ha
  obtain ⟨x, hx, rfl⟩ := List.mem_map.1 ha
  exact ⟨x.2, List.mem_map.2 ⟨x, hx, rfl⟩⟩

/-- Whatever the loop does not touch of an allocation. -/
theorem map_recalculated {β : Type} {f g : AllocationSnapshot ℚ → β}
    (h : ∀ a percentage, f (a.recalculated ctx percentage) = g a) :
    (p.recalculated ctx).allocations.map f = p.allocations.map g := by
  have hzip := @List.map_fst_zip _ _ p.allocations (percentagesOf ctx (p.sumTargets ctx) 0
    (p.allocations.map fun a => quantize 2 a.targetAmount)) (by simp)
  conv_rhs => rw [← hzip]
  simp only [recalculated, recalculatedFrom, List.map_map]
  exact List.map_congr_left fun x _ => h x.1 x.2

theorem map_percentage_recalculated : (p.recalculated ctx).allocations.map (·.percentage) =
    percentagesOf ctx (p.sumTargets ctx) 0 (p.allocations.map fun a => quantize 2 a.targetAmount) := by
  simp only [recalculated, recalculatedFrom, List.map_map]
  exact List.map_snd_zip (by simp)

end ScenarioPayload

theorem recalculateSavedPayload_eq_ok {p : ScenarioPayload ℚ} {r : ScenarioPayload Double} :
    recalculateSavedPayload ctx now catalogue p = .ok r ↔
      p.allocations ≠ [] ∧ (2 ≤ p.allocations.length → p.sumTargets ctx ≠ 0) ∧
        (∀ a ∈ p.allocations, a.Affordable ctx) ∧
        (p.recalculated ctx).Accepted ctx now catalogue true ∧ r = (p.recalculated ctx).toJson := by
  simp only [recalculateSavedPayload, bind_ok, require_eq_ok, recalculateAllocations_eq_ok,
    ScenarioPayload.serialize_iff, exists_const]
  constructor
  · rintro ⟨hne, as, ⟨hsum, hall, rfl⟩, q, ⟨rfl, haccepted⟩, hr⟩
    exact ⟨hne, hsum, hall, haccepted, (Except.ok.inj hr).symm⟩
  · rintro ⟨hne, hsum, hall, haccepted, rfl⟩
    exact ⟨hne, _, ⟨hsum, hall, rfl⟩, _, ⟨rfl, haccepted⟩, rfl⟩

section Changes

variable {p : ScenarioPayload Double} {x : InstrumentId} {c : AllocationChanges}
  {r : ScenarioPayload Double}

theorem updateSavedAllocation_eq_ok : updateSavedAllocation ctx now catalogue p x c = .ok r ↔
    x ∈ p.instrumentIds ∧
      recalculateSavedPayload ctx now catalogue (p.ofJson.edited ctx now x c) = .ok r :=
  require_bind_ok

theorem removeSavedAllocation_eq_some :
    removeSavedAllocation ctx now catalogue p x = .ok (some r) ↔ x ∈ p.instrumentIds ∧
      recalculateSavedPayload ctx now catalogue (p.ofJson.without x) = .ok r := by
  unfold removeSavedAllocation
  rw [require_bind_ok]
  refine and_congr_right fun _ => ?_
  split
  · next hnil => exact iff_of_false nofun fun h => (recalculateSavedPayload_eq_ok.1 h).1 hnil
  · simp [bind_ok, pure, Except.pure]

end Changes

/-! ## Sums and costs of 28 digits -/

section Exact

theorem DecimalField.hasPlaces {maxDigits places : ℕ} {lo x : ℚ} {hi : Option ℚ}
    (h : DecimalField maxDigits places lo hi x) : HasPlaces places x :=
  hasPlaces_iff_den.2 h.1.1

theorem DecimalField.abs_lt {maxDigits places : ℕ} {lo x : ℚ} {hi : Option ℚ}
    (h : DecimalField maxDigits places lo hi x) : |x| < 10 ^ (maxDigits - places) :=
  h.1.2

/-- An amount of two places has at most 28 digits up to `10^26`. -/
theorem decimal28_eq_self {x : ℚ} (h : HasPlaces 2 x) (hx : |x| ≤ 10 ^ 26) : decimal28 x = x :=
  h.significant_eq hx (by norm_num) (by norm_num)

theorem decimal28_sub {x y lo lo' : ℚ} (hx : DecimalField 14 2 lo none x)
    (hy : DecimalField 14 2 lo' none y) : decimal28 (x - y) = x - y := by
  refine decimal28_eq_self (hx.hasPlaces.sub hy.hasPlaces) ((abs_sub x y).trans ?_)
  have h₁ := hx.abs_lt
  have h₂ := hy.abs_lt
  norm_num at h₁ h₂ ⊢
  linarith

theorem hasPlaces_sum {n : ℕ} {xs : List ℚ} (h : ∀ x ∈ xs, HasPlaces n x) : HasPlaces n xs.sum := by
  induction xs with
  | nil => exact HasPlaces.zero n
  | cons x xs ih =>
    obtain ⟨hx, hxs⟩ := List.forall_mem_cons.1 h
    rw [List.sum_cons]
    exact hx.add (ih hxs)

theorem sumDecimals_eq_sum {xs : List ℚ} (h : ∀ x ∈ xs, HasPlaces 2 x ∧ 0 ≤ x)
    (hsum : xs.sum ≤ 10 ^ 26) : sumDecimals decimal28 xs = xs.sum := by
  have hfold : ∀ {ys : List ℚ} {acc : ℚ}, (∀ y ∈ ys, HasPlaces 2 y ∧ 0 ≤ y) → HasPlaces 2 acc →
      0 ≤ acc → acc + ys.sum ≤ 10 ^ 26 →
      ys.foldl (fun acc y => decimal28 (acc + y)) acc = acc + ys.sum := by
    intro ys
    induction ys with
    | nil => simp
    | cons y ys ih =>
      intro acc hys hacc hpos hle
      obtain ⟨⟨hy, hy₀⟩, hys⟩ := List.forall_mem_cons.1 hys
      have hys₀ : 0 ≤ ys.sum := List.sum_nonneg fun z hz => (hys z hz).2
      rw [List.sum_cons] at hle ⊢
      have hexact : decimal28 (acc + y) = acc + y := by
        refine decimal28_eq_self (hacc.add hy) ?_
        rw [abs_of_nonneg (by linarith)]
        linarith
      rw [List.foldl_cons, hexact, ih hys (hacc.add hy) (by linarith) (by linarith)]
      ring
  have hzero := hfold h (HasPlaces.zero 2) le_rfl (by rwa [zero_add])
  rwa [zero_add] at hzero

/-- The cost of a quantity that an amount pays is exact. -/
theorem decimal28_cost {quantity price target : ℚ} (hquantity : HasPlaces 8 quantity)
    (hprice : HasPlaces 8 price) (hpos : 0 ≤ quantity * price) (htarget : HasPlaces 2 target)
    (hlt : target < 10 ^ 12) (hpaid : quantize 2 (decimal28 (quantity * price)) ≤ target) :
    decimal28 (quantity * price) = quantity * price := by
  refine (hquantity.mul hprice).significant_eq (k := 12) ?_ (by norm_num) (by norm_num)
  have hround := (abs_le.1 (abs_sub_quantize_le 2 (decimal28 (quantity * price)))).2
  have hdigits := near_decimal28 (quantity * price)
  have hstep := htarget.add_le_of_lt (HasPlaces.intCast 2 (10 ^ 12)) (by exact_mod_cast hlt)
  rw [Near, abs_of_nonneg hpos, abs_le] at hdigits
  rw [abs_of_nonneg hpos]
  push_cast at hstep
  have hbelow := hdigits.1
  norm_num at hround hbelow hstep ⊢
  linarith

end Exact

/-! ## What is returned adds up -/

theorem DecimalField.amount {x : ℚ} (h : DecimalField 14 2 0 none x) :
    HasPlaces 2 x ∧ 0 ≤ x ∧ x ≤ 10 ^ 12 :=
  ⟨h.hasPlaces, h.2.1, (le_abs_self x).trans h.abs_lt.le⟩

namespace AllocationSnapshot

variable {a : AllocationSnapshot ℚ} {percentage : ℚ}

/-- The amounts of an allocation follow from its target, its quantity and its price. -/
structure Exact (a : AllocationSnapshot ℚ) : Prop where
  multiple : IsMultiple a.quantity a.minimumIncrement
  actual : a.actualAllocatedAmount = quantize 2 (a.quantity * a.unitPrice)
  paid : a.actualAllocatedAmount ≤ a.targetAmount
  remainder : a.unallocatedRemainder = a.targetAmount - a.actualAllocatedAmount

/-- What the loop leaves is exact if the serializer accepts its fields. -/
theorem exact_recalculated (hfit : (a.recalculated decimal28 percentage).FieldsFit)
    (ha : a.Affordable decimal28) : (a.recalculated decimal28 percentage).Exact := by
  have htarget := hfit.targetAmount
  have hactual := hfit.actualAllocatedAmount
  have hpos : 0 ≤ a.quantity * a.unitPrice := mul_nonneg hfit.quantity.2.1 hfit.pos.1.le
  refine ⟨ha.multiple, ?_, ha.paid, ?_⟩
  · exact congrArg (quantize 2) (decimal28_cost hfit.quantity.hasPlaces hfit.unitPrice.hasPlaces
      hpos htarget.hasPlaces ((le_abs_self _).trans_lt htarget.abs_lt) ha.paid)
  · exact decimal28_sub htarget hactual

end AllocationSnapshot

namespace ScenarioPayload

/-- A plan that adds up to the piaster and whose quantities are multiples that the targets pay. -/
structure Balanced (q : ScenarioPayload ℚ) : Prop where
  percentages : (q.allocations.map (·.percentage)).sum = 100
  confirmedAmount : q.confirmedAmount = (q.allocations.map (·.targetAmount)).sum
  remainder : ∀ a ∈ q.allocations,
    a.unallocatedRemainder = a.targetAmount - quantize 2 (a.quantity * a.unitPrice) ∧
      0 ≤ a.unallocatedRemainder
  total : q.totalAllocated + q.totalRemainder = q.confirmedAmount
  quantity : ∀ a ∈ q.allocations, IsMultiple a.quantity a.minimumIncrement ∧
    quantize 2 (a.quantity * a.unitPrice) ≤ a.targetAmount

variable {p : ScenarioPayload ℚ}

/-- The sums of up to three amounts are exact. -/
theorem sumDecimals_amounts (hlen : p.allocations.length ≤ 3) {f : AllocationSnapshot ℚ → ℚ}
    (h : ∀ a ∈ p.allocations, HasPlaces 2 (f a) ∧ 0 ≤ f a ∧ f a ≤ 10 ^ 12) :
    sumDecimals decimal28 (p.allocations.map f) = (p.allocations.map f).sum := by
  have hsum := List.sum_le_card_nsmul (p.allocations.map f) (10 ^ 12)
    (by simpa using fun a ha => (h a ha).2.2)
  have hlen' : ((p.allocations.length : ℕ) : ℚ) ≤ 3 := by exact_mod_cast hlen
  rw [List.length_map, nsmul_eq_mul] at hsum
  refine sumDecimals_eq_sum ?_ (by norm_num at hsum ⊢; linarith)
  intro x hx
  obtain ⟨a, ha, rfl⟩ := List.mem_map.1 hx
  exact ⟨(h a ha).1, (h a ha).2.1⟩

/-- What is confirmed is the sum of the targets. -/
theorem sumTargets_eq_sum (hlen : p.allocations.length ≤ 3)
    (h : ∀ a ∈ p.allocations,
      HasPlaces 2 a.targetAmount ∧ 0 ≤ a.targetAmount ∧ a.targetAmount ≤ 10 ^ 12) :
    p.sumTargets decimal28 = (p.allocations.map (·.targetAmount)).sum := by
  have hplaces : HasPlaces 2 (p.allocations.map (·.targetAmount)).sum :=
    hasPlaces_sum (by simpa using fun a ha => (h a ha).1)
  rw [sumTargets, sumDecimals_amounts hlen h, hplaces.quantize_eq]

theorem Accepted.balanced
    (h : (p.recalculated decimal28).Accepted decimal28 now catalogue true)
    (haffordable : ∀ a ∈ p.allocations, a.Affordable decimal28)
    (htargets : ∀ a ∈ p.allocations, HasPlaces 2 a.targetAmount) :
    (p.recalculated decimal28).Balanced := by
  have hfit := h.fieldsFit
  have hexact : ∀ b ∈ (p.recalculated decimal28).allocations, b.Exact := by
    intro b hb
    obtain ⟨a, ha, percentage, rfl⟩ := mem_recalculated hb
    exact AllocationSnapshot.exact_recalculated (hfit.allocations _ hb) (haffordable a ha)
  have htarget : (p.recalculated decimal28).allocations.map (·.targetAmount) =
      p.allocations.map (·.targetAmount) := by
    rw [map_recalculated (g := fun a => quantize 2 a.targetAmount) fun _ _ => rfl]
    exact List.map_congr_left fun a ha => (htargets a ha).quantize_eq
  have hconfirmed : (p.recalculated decimal28).confirmedAmount =
      ((p.recalculated decimal28).allocations.map (·.targetAmount)).sum := by
    have hlen : p.allocations.length = (p.recalculated decimal28).allocations.length := by
      simpa using (congrArg List.length htarget).symm
    rw [htarget]
    refine sumTargets_eq_sum (hlen ▸ hfit.length.2) fun a ha => ?_
    have hmem : a.targetAmount ∈ (p.recalculated decimal28).allocations.map (·.targetAmount) :=
      htarget ▸ List.mem_map_of_mem ha
    obtain ⟨b, hb, hba⟩ := List.mem_map.1 hmem
    exact hba ▸ (hfit.allocations b hb).targetAmount.amount
  have htotal : (p.recalculated decimal28).totalRemainder =
      (p.recalculated decimal28).confirmedAmount - (p.recalculated decimal28).totalAllocated :=
    decimal28_sub hfit.confirmedAmount hfit.totalAllocated
  refine ⟨?_, hconfirmed, fun b hb => ?_, ?_, fun b hb => ?_⟩
  · rw [← h.percentages]
    refine (sumDecimals_amounts hfit.length.2 fun b hb => ?_).symm
    have hpercentage := (hfit.allocations b hb).percentage
    exact ⟨hpercentage.hasPlaces, hpercentage.2.1,
      (hpercentage.2.2 100 rfl).trans (by norm_num)⟩
  · have hb' := hexact b hb
    refine ⟨by rw [hb'.remainder, hb'.actual], ?_⟩
    rw [hb'.remainder]
    exact sub_nonneg.2 hb'.paid
  · rw [htotal]
    ring
  · have hb' := hexact b hb
    exact ⟨hb'.multiple, hb'.actual ▸ hb'.paid⟩

theorem allTerms_recalculated (htargets : ∀ a ∈ p.allocations, HasPlaces 2 a.targetAmount) :
    (p.recalculated ctx).allTerms = p.allTerms := by
  rw [allTerms, map_recalculated (g := fun a =>
    { a.toAllocationTerms with targetAmount := quantize 2 a.targetAmount }) fun _ _ => rfl]
  refine List.map_congr_left fun a ha => ?_
  rw [(htargets a ha).quantize_eq]

theorem Accepted.hasPlaces_target {now₀ : Instant} {allow : Bool}
    (h : p.Accepted ctx now₀ catalogue allow) {a : AllocationSnapshot ℚ} (ha : a ∈ p.allocations) :
    HasPlaces 2 a.targetAmount :=
  (h.fieldsFit.allocations a ha).targetAmount.hasPlaces

end ScenarioPayload

theorem recalculateSavedPayload_balanced {p : ScenarioPayload ℚ} {r : ScenarioPayload Double}
    (h : recalculateSavedPayload decimal28 now catalogue p = .ok r)
    (htargets : ∀ a ∈ p.allocations, HasPlaces 2 a.targetAmount) :
    ∃ q : ScenarioPayload ℚ, r = q.toJson ∧ q.Balanced ∧ q.allTerms = p.allTerms := by
  obtain ⟨-, -, haffordable, haccepted, rfl⟩ := recalculateSavedPayload_eq_ok.1 h
  exact ⟨_, rfl, haccepted.balanced haffordable htargets,
    ScenarioPayload.allTerms_recalculated htargets⟩

/-- An edit or a removal that is accepted returns a plan that adds up, with the instruments that
remain and the terms that the plan had for all but the one it is about. -/
theorem changes_keep_balance {now₀ : Instant} {catalogue₀ : List CatalogueInstrument} {allow : Bool}
    {p : ScenarioPayload Double} {c : AllocationChanges}
    (hp : p.ofJson.serialize decimal28 now₀ catalogue₀ allow = .ok p.ofJson) (hc : c.FieldsFit)
    (now : Instant) (catalogue : List CatalogueInstrument) (x : InstrumentId) :
    (∀ r, updateSavedAllocation decimal28 now catalogue p x c = .ok r →
      ∃ q : ScenarioPayload ℚ, r = q.toJson ∧ q.Balanced ∧ q.instrumentIds = p.instrumentIds ∧
        ∀ y, y ≠ x → q.terms y = p.ofJson.terms y) ∧
      ∀ r, removeSavedAllocation decimal28 now catalogue p x = .ok (some r) →
        ∃ q : ScenarioPayload ℚ, r = q.toJson ∧ q.Balanced ∧
          q.instrumentIds = p.instrumentIds.filter (· ≠ x) ∧
          ∀ y, y ≠ x → q.terms y = p.ofJson.terms y := by
  have haccepted := (ScenarioPayload.serialize_iff.1 hp).2
  constructor
  · intro r hr
    have hids := (updateSavedAllocation_ids hr).2.2
    obtain ⟨q, rfl, hbalanced, hterms⟩ :=
      recalculateSavedPayload_balanced (updateSavedAllocation_eq_ok.1 hr).2 fun a ha => by
        rcases Keyed.mem_modify.1 ha with ⟨ha, -⟩ | ⟨b, hb, -, rfl⟩
        · exact haccepted.hasPlaces_target ha
        · cases htarget : c.targetAmount with
          | none => simpa [AllocationSnapshot.edit, htarget] using haccepted.hasPlaces_target hb
          | some t => simpa [AllocationSnapshot.edit, htarget] using (hc.1 t htarget).hasPlaces
    refine ⟨q, rfl, hbalanced, by simpa using hids, fun y hy => ?_⟩
    rw [ScenarioPayload.terms, hterms]
    exact ScenarioPayload.terms_edited hy
  · intro r hr
    have hids := ((removeSavedAllocation_ids hr).2.2 r rfl).2
    obtain ⟨q, rfl, hbalanced, hterms⟩ :=
      recalculateSavedPayload_balanced (removeSavedAllocation_eq_some.1 hr).2 fun a ha =>
        haccepted.hasPlaces_target (List.mem_of_mem_filter ha)
    refine ⟨q, rfl, hbalanced, by simpa using hids, fun y hy => ?_⟩
    rw [ScenarioPayload.terms, hterms]
    exact ScenarioPayload.terms_without hy

/-- Gold of the plan of two instruments is cut to seven grams, and the fund removed. -/
theorem moreFund_balance :
    (∃ q : ScenarioPayload ℚ, updateSavedAllocation decimal28 1 [PlanStore.gold, PlanStore.fund]
        PlanStore.moreFund.toJson 1 { quantity := some 7 } = .ok q.toJson ∧ q.Balanced) ∧
      ∃ q : ScenarioPayload ℚ, removeSavedAllocation decimal28 1 [PlanStore.gold, PlanStore.fund]
        PlanStore.moreFund.toJson 2 = .ok (some q.toJson) ∧ q.Balanced := by
  have hp : PlanStore.moreFund.toJson.ofJson.serialize decimal28 0
      [PlanStore.gold, PlanStore.fund] false = .ok PlanStore.moreFund.toJson.ofJson := by
    decide +kernel
  have h := changes_keep_balance hp (c := { quantity := some 7 }) (by decide +kernel) 1
    [PlanStore.gold, PlanStore.fund]
  constructor
  · obtain ⟨r, hr⟩ := exists_ok (x := updateSavedAllocation decimal28 1
      [PlanStore.gold, PlanStore.fund] PlanStore.moreFund.toJson 1 { quantity := some 7 })
      (by decide +kernel)
    obtain ⟨q, rfl, hq, -⟩ := (h 1).1 r hr
    exact ⟨q, hr, hq⟩
  · obtain ⟨r, hr⟩ := exists_ok (x := removeSavedAllocation decimal28 1
      [PlanStore.gold, PlanStore.fund] PlanStore.moreFund.toJson 2) (by decide +kernel)
    have hsome : r ≠ none := by
      rintro rfl
      exact absurd ((removeSavedAllocation_ids hr).2.1 rfl) (by decide +kernel)
    obtain ⟨r, rfl⟩ := Option.ne_none_iff_exists'.1 hsome
    obtain ⟨q, rfl, hq, -⟩ := (h 2).2 r hr
    exact ⟨q, hr, hq⟩

end NbeAdvisor
