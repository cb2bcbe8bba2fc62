import NbeAdvisor.Numerals
import NbeAdvisor.Portfolio

/-!
# The payload of a saved plan

What an investment-plan widget shows and a saved plan keeps as JSON, with the serializer that
every writer sends it through (`ScenarioPayload.serialize`), and the three ways to make a new one :
`validateSavedPayload` takes it from a widget, `updateSavedAllocation` and
`removeSavedAllocation` change one allocation and calculate the rest again.

A field of an allocation is part of its quote, which a save from the widget must not change
(`Quote`), of its terms, which are the quote with the amount and the quantity planned
(`AllocationTerms`), or it is derived. Numbers are decimals in the calculations and doubles in
the JSON, `ctx` is the rounding of the decimal context after each operation. The payload of a
plan has distinct instruments and target amounts of whole piasters (`Sound`); then a
calculation over it keeps the terms of every allocation that it was not asked to change
(`updateSavedAllocation_terms`, `removeSavedAllocation_terms`).
-/

namespace NbeAdvisor

open Numerals

/-! ## The fields -/

/-- `InvestmentInstrument.AssetClass`. -/
inductive AssetClass where
  | gold
  | fund
  | currency
  deriving DecidableEq

/-- `InvestmentInstrument.PriceType`. -/
inductive PriceType where
  | spot
  | nav
  | marketPrice
  | customerBuyRate
  deriving DecidableEq

/-- Where a quote is from, the `mode` of an allocation. -/
inductive QuoteMode where
  | live
  | mock
  | userSupplied
  deriving DecidableEq

/-- `MATCH_FACTORS`. -/
inductive MatchFactor where
  | objective
  | risk
  | horizon
  | liquidity
  | closestAvailable
  deriving DecidableEq

/-- `IMMUTABLE_ALLOCATION_FIELDS`. -/
structure Quote (N : Type) where
  instrumentId : InstrumentId
  instrumentCode : String
  displayName : String
  assetClass : AssetClass
  unitPrice : N
  priceCurrency : String := "EGP"
  unit : String
  priceType : PriceType
  minimumIncrement : N
  observedAt : Instant
  source : String
  mode : QuoteMode
  priority : Option ℕ := none
  matchFactors : List MatchFactor := []
  deriving DecidableEq

/-- The quote, with what is asked for of it. -/
structure AllocationTerms (N : Type) extends Quote N where
  targetAmount : N
  quantity : N
  deriving DecidableEq

/-- An allocation as it is saved. -/
structure AllocationSnapshot (N : Type) extends AllocationTerms N where
  percentage : N
  actualAllocatedAmount : N
  unallocatedRemainder : N
  deriving DecidableEq

/-- The payload of a plan, over the numbers `N`. -/
structure ScenarioPayload (N : Type) where
  confirmedAmount : N
  currency : String := "EGP"
  allocations : List (AllocationSnapshot N)
  totalAllocated : N
  totalRemainder : N
  disclaimer : String
  saved : Bool
  deriving DecidableEq

section Map

variable {M N : Type} (f : M → N)

/-- The quote over other numbers. -/
def Quote.map (q : Quote M) : Quote N :=
  { q with unitPrice := f q.unitPrice, minimumIncrement := f q.minimumIncrement }

/-- The terms over other numbers. -/
def AllocationTerms.map (t : AllocationTerms M) : AllocationTerms N :=
  { t.toQuote.map f with targetAmount := f t.targetAmount, quantity := f t.quantity }

/-- The allocation over other numbers. -/
def AllocationSnapshot.map (a : AllocationSnapshot M) : AllocationSnapshot N :=
  { a.toAllocationTerms.map f with
    percentage := f a.percentage, actualAllocatedAmount := f a.actualAllocatedAmount
    unallocatedRemainder := f a.unallocatedRemainder }

/-- The payload over other numbers. -/
def ScenarioPayload.map (p : ScenarioPayload M) : ScenarioPayload N :=
  { p with
    confirmedAmount := f p.confirmedAmount, allocations := p.allocations.map (·.map f)
    totalAllocated := f p.totalAllocated, totalRemainder := f p.totalRemainder }

end Map

namespace ScenarioPayload

variable {N : Type}

/-- The instruments of the plan. -/
def instrumentIds (p : ScenarioPayload N) : List InstrumentId :=
  p.allocations.map (·.instrumentId)

/-- The terms of the allocations. -/
def allTerms (p : ScenarioPayload N) : List (AllocationTerms N) :=
  p.allocations.map (·.toAllocationTerms)

/-- The terms of the allocation of an instrument. -/
def terms (p : ScenarioPayload N) (x : InstrumentId) : Option (AllocationTerms N) :=
  p.allTerms.find? fun t => t.instrumentId = x

theorem instrumentIds_eq (p : ScenarioPayload N) :
    p.instrumentIds = p.allTerms.map (·.instrumentId) := by
  simp [instrumentIds, allTerms, Function.comp_def]

/-- `_json_value` of validated data. -/
def toJson (p : ScenarioPayload ℚ) : ScenarioPayload Double := p.map Double.ofRat

/-- The JSON, with `Decimal(str(..))` of its numbers. -/
def ofJson (p : ScenarioPayload Double) : ScenarioPayload ℚ := p.map Double.shortest

@[simp] theorem instrumentIds_toJson (p : ScenarioPayload ℚ) :
    p.toJson.instrumentIds = p.instrumentIds := by
  simp [toJson, ScenarioPayload.map, instrumentIds, AllocationSnapshot.map, AllocationTerms.map,
    Quote.map, Function.comp_def]

@[simp] theorem instrumentIds_ofJson (p : ScenarioPayload Double) :
    p.ofJson.instrumentIds = p.instrumentIds := by
  simp [ofJson, ScenarioPayload.map, instrumentIds, AllocationSnapshot.map, AllocationTerms.map,
    Quote.map, Function.comp_def]

end ScenarioPayload

/-! ## The catalogue and the errors -/

/-- An instrument with its product. -/
structure CatalogueInstrument extends InvestmentInstrument where
  code : String
  assetClass : AssetClass
  priceCurrency : String := "EGP"
  unit : String
  priceType : PriceType
  productIsActive : Bool := true
  deriving DecidableEq

/-- `minimum_increment`, which has eight places. -/
def InvestmentInstrument.increment (i : InvestmentInstrument) : ℚ := i.minimumIncrement / 10 ^ 8

/-- How a request on plans is refused. -/
inductive PlanError where
  | notFound
  /-- A serializer rejects a field by itself. -/
  | fields
  /-- A `ValidationError` on a field, with its message. -/
  | invalid (field message : String)
  /-- `"Quantity must use increments of .."`, on `quantity`. -/
  | increments (increment : ℚ)
  /-- Another exception leaves the view. -/
  | raises
  deriving DecidableEq

/-- `raise` unless the condition holds. -/
def require (p : Prop) [Decidable p] (e : PlanError) : Except PlanError Unit :=
  if p then .ok () else .error e

theorem require_bind_ok {α : Type} {p : Prop} [Decidable p] {e : PlanError}
    {k : Unit → Except PlanError α} {a : α} :
    (require p e >>= k) = .ok a ↔ p ∧ k () = .ok a := by
  unfold require
  split
  · next h => simp [h, bind, Except.bind]
  · next h => simp [h, bind, Except.bind]

theorem bind_ok {α β : Type} {x : Except PlanError α} {k : α → Except PlanError β} {b : β} :
    (x >>= k) = .ok b ↔ ∃ a, x = .ok a ∧ k a = .ok b := by
  cases x <;> simp [bind, Except.bind]

/-! ## The fields by themselves -/

/-- `DecimalField(max_digits, decimal_places, min_value, max_value)`. -/
def DecimalField (maxDigits places : ℕ) (lo : ℚ) (hi : Option ℚ) (x : ℚ) : Prop :=
  ((x * 10 ^ places).den = 1 ∧ |x| < 10 ^ (maxDigits - places)) ∧ lo ≤ x ∧ ∀ h ∈ hi, x ≤ h

instance (maxDigits places : ℕ) (lo : ℚ) (hi : Option ℚ) (x : ℚ) :
    Decidable (DecimalField maxDigits places lo hi x) := by
  unfold DecimalField
  infer_instance

/-- `InvestmentAllocationSnapshotSerializer`. -/
structure AllocationSnapshot.FieldsFit (a : AllocationSnapshot ℚ) : Prop where
  instrumentCode : CharFits 100 a.instrumentCode
  displayName : CharFits 255 a.displayName
  percentage : DecimalField 7 2 0 (some 100) a.percentage
  targetAmount : DecimalField 14 2 0 none a.targetAmount
  unitPrice : DecimalField 20 8 (1 / 10 ^ 8) none a.unitPrice
  priceCurrency : a.priceCurrency = "EGP"
  unit : CharFits 40 a.unit
  minimumIncrement : DecimalField 20 8 (1 / 10 ^ 8) none a.minimumIncrement
  quantity : DecimalField 24 8 0 none a.quantity
  actualAllocatedAmount : DecimalField 14 2 0 none a.actualAllocatedAmount
  unallocatedRemainder : DecimalField 14 2 0 none a.unallocatedRemainder
  source : CharFits 255 a.source
  priority : ∀ n ∈ a.priority, 1 ≤ n ∧ n ≤ 3
  matchFactors : a.matchFactors.length ≤ 5

instance (a : AllocationSnapshot ℚ) : Decidable a.FieldsFit :=
  decidable_of_iff (_ ∧ _ ∧ _ ∧ _ ∧ _ ∧ _ ∧ _ ∧ _ ∧ _ ∧ _ ∧ _ ∧ _ ∧ _ ∧ _)
    ⟨fun ⟨h₁, h₂, h₃, h₄, h₅, h₆, h₇, h₈, h₉, h₁₀, h₁₁, h₁₂, h₁₃, h₁₄⟩ =>
      ⟨h₁, h₂, h₃, h₄, h₅, h₆, h₇, h₈, h₉, h₁₀, h₁₁, h₁₂, h₁₃, h₁₄⟩,
    fun ⟨h₁, h₂, h₃, h₄, h₅, h₆, h₇, h₈, h₉, h₁₀, h₁₁, h₁₂, h₁₃, h₁₄⟩ =>
      ⟨h₁, h₂, h₃, h₄, h₅, h₆, h₇, h₈, h₉, h₁₀, h₁₁, h₁₂, h₁₃, h₁₄⟩⟩

namespace ScenarioPayload

/-- The fields of `InvestmentScenarioPayloadSerializer`. -/
structure FieldsFit (p : ScenarioPayload ℚ) : Prop where
  confirmedAmount : DecimalField 14 2 (1 / 100) none p.confirmedAmount
  currency : p.currency = "EGP"
  length : 1 ≤ p.allocations.length ∧ p.allocations.length ≤ 3
  allocations : ∀ a ∈ p.allocations, a.FieldsFit
  totalAllocated : DecimalField 14 2 0 none p.totalAllocated
  totalRemainder : DecimalField 14 2 0 none p.totalRemainder
  disclaimer : CharFits 1000 p.disclaimer

instance (p : ScenarioPayload ℚ) : Decidable p.FieldsFit :=
  decidable_of_iff (_ ∧ _ ∧ _ ∧ _ ∧ _ ∧ _ ∧ _)
    ⟨fun ⟨h₁, h₂, h₃, h₄, h₅, h₆, h₇⟩ => ⟨h₁, h₂, h₃, h₄, h₅, h₆, h₇⟩,
    fun ⟨h₁, h₂, h₃, h₄, h₅, h₆, h₇⟩ => ⟨h₁, h₂, h₃, h₄, h₅, h₆, h₇⟩⟩

end ScenarioPayload

/-! ## The serializer -/

/-- `MONEY_TOLERANCE`. -/
def moneyTolerance : ℚ := 2 / 100

/-- `sum(.., Decimal("0"))`. -/
def sumDecimals (ctx : ℚ → ℚ) (xs : List ℚ) : ℚ := xs.foldl (fun acc x => ctx (acc + x)) 0

/-- `quantize(Decimal("0.01"))`, which raises if there are more than 28 digits. -/
def quantizeMoney (x : ℚ) : Except PlanError ℚ :=
  if |quantize 2 x| < 10 ^ 26 then .ok (quantize 2 x) else .error .raises

/-- `x % increment == 0`. -/
def IsMultiple (x increment : ℚ) : Prop := (x / increment).den = 1

instance (x increment : ℚ) : Decidable (IsMultiple x increment) := by
  unfold IsMultiple
  infer_instance

/-- What the price buys of an amount, in whole increments. -/
def wholeSteps (ctx : ℚ → ℚ) (amount price increment : ℚ) : ℚ :=
  ctx (⌊ctx (ctx (amount / price) / increment)⌋ * increment)

variable (ctx : ℚ → ℚ) (now : Instant) (catalogue : List CatalogueInstrument)

namespace AllocationSnapshot

/-- The checks of the calculations in one allocation. -/
def checkAmounts (allowUnderAllocation : Bool) (confirmedAmount : ℚ) (a : AllocationSnapshot ℚ) :
    Except PlanError Unit := do
  require (a.observedAt ≤ now + 5 * 60 * 10 ^ 6)
    (.invalid "allocations" "A quote timestamp cannot be in the future.")
  let expectedTarget := quantize 2 (ctx (ctx (confirmedAmount * a.percentage) / 100))
  require (|ctx (a.targetAmount - expectedTarget)| ≤ moneyTolerance)
    (.invalid "allocations" "An allocation target does not match its percentage.")
  let expectedQuantity := wholeSteps ctx a.targetAmount a.unitPrice a.minimumIncrement
  require (a.quantity = expectedQuantity ∨ allowUnderAllocation ∧ a.quantity ≤ expectedQuantity ∧
      IsMultiple a.quantity a.minimumIncrement)
    (.invalid "allocations" "A quantity does not respect its purchase increment.")
  let expectedActual ← quantizeMoney (ctx (a.quantity * a.unitPrice))
  require (|ctx (a.actualAllocatedAmount - expectedActual)| ≤ moneyTolerance)
    (.invalid "allocations" "An allocated amount does not match its quantity and quote.")
  let expectedRemainder := ctx (a.targetAmount - a.actualAllocatedAmount)
  require (|ctx (a.unallocatedRemainder - expectedRemainder)| ≤ moneyTolerance)
    (.invalid "allocations" "An instrument remainder is inconsistent.")

/-- The fields that the catalogue knows, with what it says of them. -/
def metadata (a : AllocationSnapshot ℚ) (i : CatalogueInstrument) : List (String × Bool) :=
  [("instrument_code", a.instrumentCode = i.code), ("asset_class", a.assetClass = i.assetClass),
    ("price_currency", a.priceCurrency = i.priceCurrency), ("unit", a.unit = i.unit),
    ("price_type", a.priceType = i.priceType),
    ("minimum_increment", a.minimumIncrement = i.increment)]

/-- The checks against the active instruments, where a missing one is a `KeyError`. -/
def checkMetadata (instruments : List CatalogueInstrument) (a : AllocationSnapshot ℚ) :
    Except PlanError Unit :=
  match instruments.find? fun i => i.id = a.instrumentId with
  | none => .error .raises
  | some i =>
    match (a.metadata i).find? fun f => !f.2 with
    | none => .ok ()
    | some f => .error (.invalid "allocations"
        ("Instrument metadata does not match the catalogue (" ++ f.1 ++ ")."))

end AllocationSnapshot

namespace ScenarioPayload

/-- `InvestmentScenarioPayloadSerializer.validate`. -/
def validate (allowUnderAllocation : Bool) (p : ScenarioPayload ℚ) : Except PlanError Unit := do
  require (p.saved = true) (.invalid "saved" "The scenario must be explicitly saved.")
  require p.instrumentIds.Nodup (.invalid "allocations" "Instruments must be unique.")
  let priorities := p.allocations.map (·.priority)
  require ((∀ n ∈ priorities, n = none) ∨ (∀ n ∈ priorities, n ≠ none) ∧ priorities.Nodup)
    (.invalid "allocations" "Priorities must be present and unique for every item.")
  require (sumDecimals ctx (p.allocations.map (·.percentage)) = 100)
    (.invalid "allocations" "Allocation percentages must total exactly 100%.")
  p.allocations.forM (AllocationSnapshot.checkAmounts ctx now allowUnderAllocation p.confirmedAmount)
  let totalAllocated := sumDecimals ctx (p.allocations.map (·.actualAllocatedAmount))
  require (|ctx (p.totalAllocated - totalAllocated)| ≤ moneyTolerance)
    (.invalid "total_allocated" "The allocated total is inconsistent.")
  require (|ctx (ctx (p.confirmedAmount - p.totalAllocated) - p.totalRemainder)| ≤ moneyTolerance)
    (.invalid "total_remainder" "The cash remainder is inconsistent.")
  let instruments := catalogue.filter fun i =>
    i.id ∈ p.instrumentIds ∧ i.isActive = true ∧ i.productIsActive = true
  require (instruments.length = p.instrumentIds.length)
    (.invalid "allocations" "Every saved instrument must still be curated and active.")
  p.allocations.forM (AllocationSnapshot.checkMetadata instruments)

/-- `is_valid(raise_exception=True)`, then `validated_data`. -/
def serialize (allowUnderAllocation : Bool) (p : ScenarioPayload ℚ) :
    Except PlanError (ScenarioPayload ℚ) := do
  require p.FieldsFit .fields
  p.validate ctx now catalogue allowUnderAllocation
  return p

variable {ctx now catalogue} {allow : Bool} {p q : ScenarioPayload ℚ}

theorem serialize_eq_ok (h : p.serialize ctx now catalogue allow = .ok q) :
    q = p ∧ p.FieldsFit ∧ p.instrumentIds.Nodup := by
  obtain ⟨hfit, h⟩ := require_bind_ok.1 h
  obtain ⟨_, hvalid, h⟩ := bind_ok.1 h
  obtain ⟨-, hvalid⟩ := require_bind_ok.1 hvalid
  obtain ⟨hnodup, -⟩ := require_bind_ok.1 hvalid
  exact ⟨(Except.ok.inj h).symm, hfit, hnodup⟩

/-! ## What every saved payload satisfies -/

/-- Distinct instruments, and target amounts of whole piasters. -/
structure Sound (p : ScenarioPayload Double) : Prop where
  nodup : p.instrumentIds.Nodup
  targets : ∀ a ∈ p.allocations, ∃ z : ℤ, |z| < 10 ^ 15 ∧ a.targetAmount = Double.ofRat (z / 10 ^ 2)

theorem FieldsFit.target (h : p.FieldsFit) {a : AllocationSnapshot ℚ} (ha : a ∈ p.allocations) :
    ∃ z : ℤ, |z| < 10 ^ 15 ∧ a.targetAmount = z / 10 ^ 2 := by
  obtain ⟨⟨hden, habs⟩, -⟩ := (h.allocations a ha).targetAmount
  have hz : a.targetAmount * 10 ^ 2 = (a.targetAmount * 10 ^ 2).num :=
    ((Rat.den_eq_one_iff _).1 hden).symm
  refine ⟨(a.targetAmount * 10 ^ 2).num, ?_, ?_⟩
  · have hlt : |((a.targetAmount * 10 ^ 2).num : ℚ)| < 10 ^ 15 := by
      rw [← hz, abs_mul]
      norm_num at habs ⊢
      linarith
    exact_mod_cast hlt
  · rw [← hz]
    field_simp

theorem sound_toJson (hfit : p.FieldsFit) (hnodup : p.instrumentIds.Nodup) : p.toJson.Sound := by
  refine ⟨by rwa [instrumentIds_toJson], fun a ha => ?_⟩
  obtain ⟨b, hb, rfl⟩ := List.mem_map.1 ha
  obtain ⟨z, hz, hb⟩ := hfit.target hb
  exact ⟨z, hz, congrArg Double.ofRat hb⟩

end ScenarioPayload

section Saves

variable (ctx : ℚ → ℚ) (now : Instant) (catalogue : List CatalogueInstrument)

/-! ## A save from the widget -/

/-- `IMMUTABLE_PLAN_FIELDS`, with whether two payloads agree on them. -/
def immutablePlanFields (p q : ScenarioPayload ℚ) : List (String × Bool) :=
  [("confirmed_amount", p.confirmedAmount = q.confirmedAmount),
    ("currency", p.currency = q.currency), ("disclaimer", p.disclaimer = q.disclaimer)]

/-- `IMMUTABLE_ALLOCATION_FIELDS`, likewise. -/
def immutableAllocationFields (a b : Quote ℚ) : List (String × Bool) :=
  [("instrument_id", a.instrumentId = b.instrumentId),
    ("instrument_code", a.instrumentCode = b.instrumentCode),
    ("display_name", a.displayName = b.displayName), ("asset_class", a.assetClass = b.assetClass),
    ("unit_price", a.unitPrice = b.unitPrice), ("price_currency", a.priceCurrency = b.priceCurrency),
    ("unit", a.unit = b.unit), ("price_type", a.priceType = b.priceType),
    ("minimum_increment", a.minimumIncrement = b.minimumIncrement),
    ("observed_at", a.observedAt = b.observedAt), ("source", a.source = b.source),
    ("mode", a.mode = b.mode), ("priority", a.priority = b.priority),
    ("match_factors", a.matchFactors = b.matchFactors)]

/-- The first field that differs is an error on `payload`. -/
def requireUnchanged (data : String) (fields : List (String × Bool)) : Except PlanError Unit :=
  match fields.find? fun f => !f.2 with
  | none => .ok ()
  | some f => .error (.invalid "payload"
      ("The saved scenario changed immutable " ++ data ++ " data (" ++ f.1 ++ ")."))

/-- An allocation against the one of its instrument in the widget. -/
def checkQuote (original : List (AllocationSnapshot ℚ)) (a : AllocationSnapshot ℚ) :
    Except PlanError Unit :=
  match original.find? fun b => b.instrumentId = a.instrumentId with
  | none => .error .raises
  | some b => requireUnchanged "quote" (immutableAllocationFields a.toQuote b.toQuote)

/-- There is no payload if a field of it is missing or does not parse. -/
def parsed : Option (ScenarioPayload ℚ) → Except PlanError (ScenarioPayload ℚ)
  | none => .error .fields
  | some p => .ok p

/-- `validate_saved_payload`. -/
def validateSavedPayload (payload originalPayload : Option (ScenarioPayload ℚ)) :
    Except PlanError (ScenarioPayload Double) := do
  let incoming ← parsed payload
  let incoming ← incoming.serialize ctx now catalogue false
  let original ← parsed originalPayload
  let original ← { original with saved := true }.serialize ctx now catalogue false
  requireUnchanged "plan" (immutablePlanFields incoming original)
  require (incoming.instrumentIds ⊆ original.instrumentIds ∧
      original.instrumentIds ⊆ incoming.instrumentIds)
    (.invalid "payload" "The saved scenario changed the quoted instrument set.")
  incoming.allocations.forM (checkQuote original.allocations)
  return incoming.toJson

/-! ## A plan calculated again -/

/-- `ROUND_HALF_UP` of what is not negative. -/
def quantizeHalfUp (n : ℕ) (x : ℚ) : ℚ := ⌊x * 10 ^ n + 1 / 2⌋ / 10 ^ n

/-- The percentage of a target. The last one gets what is left. -/
def nextPercentage (confirmedAmount used target : ℚ) (last : Bool) : Except PlanError ℚ :=
  if last then .ok (ctx (100 - used))
  else if confirmedAmount = 0 then .error .raises
  else .ok (quantizeHalfUp 2 (ctx (ctx (target / confirmedAmount) * 100)))

/-- The loop over the allocations, after those that have used `used` percent. -/
def recalculateAllocations (confirmedAmount : ℚ) :
    ℚ → List (AllocationSnapshot ℚ) → Except PlanError (List (AllocationSnapshot ℚ))
  | _, [] => .ok []
  | used, a :: as => do
    let target := quantize 2 a.targetAmount
    let percentage ← nextPercentage ctx confirmedAmount used target as.isEmpty
    require (IsMultiple a.quantity a.minimumIncrement) (.increments a.minimumIncrement)
    let allocated ← quantizeMoney (ctx (a.quantity * a.unitPrice))
    require (allocated ≤ target)
      (.invalid "quantity" "Quantity and price cannot exceed the planned amount.")
    let rest ← recalculateAllocations confirmedAmount (ctx (used + percentage)) as
    return { a with
      targetAmount := target, percentage, actualAllocatedAmount := allocated
      unallocatedRemainder := ctx (target - allocated) } :: rest

/-- `_recalculate_saved_payload`. -/
def recalculateSavedPayload (p : ScenarioPayload ℚ) : Except PlanError (ScenarioPayload Double) := do
  require (p.allocations ≠ []) (.invalid "allocations" "A plan cannot be empty.")
  let confirmedAmount := quantize 2 (sumDecimals ctx (p.allocations.map (·.targetAmount)))
  let allocations ← recalculateAllocations ctx confirmedAmount 0 p.allocations
  let totalAllocated := sumDecimals ctx (allocations.map (·.actualAllocatedAmount))
  let q ← { p with
    confirmedAmount, allocations, totalAllocated
    totalRemainder := ctx (confirmedAmount - totalAllocated)
    saved := true }.serialize ctx now catalogue true
  return q.toJson

/-! ## Edits and removals -/

/-- The fields of `SavedInvestmentAllocationUpdateSerializer`. -/
structure AllocationChanges where
  targetAmount : Option ℚ := none
  quantity : Option ℚ := none
  unitPrice : Option ℚ := none
  deriving DecidableEq

/-- The fields by themselves. -/
def AllocationChanges.FieldsFit (c : AllocationChanges) : Prop :=
  (∀ x ∈ c.targetAmount, DecimalField 14 2 (1 / 100) none x) ∧
    (∀ x ∈ c.quantity, DecimalField 24 8 (1 / 10 ^ 8) none x) ∧
    ∀ x ∈ c.unitPrice, DecimalField 20 4 (1 / 10 ^ 4) none x

instance (c : AllocationChanges) : Decidable c.FieldsFit := by
  unfold AllocationChanges.FieldsFit
  infer_instance

/-- The selected allocation with the changes. A quantity that is not given follows from the
amount and the price. -/
def AllocationSnapshot.edit (c : AllocationChanges) (a : AllocationSnapshot ℚ) :
    AllocationSnapshot ℚ :=
  let target := c.targetAmount.getD a.targetAmount
  let price := c.unitPrice.getD a.unitPrice
  { a with
    targetAmount := target
    unitPrice := price
    mode := if c.unitPrice.isSome then .userSupplied else a.mode
    source := if c.unitPrice.isSome then "User-edited plan price" else a.source
    observedAt := if c.unitPrice.isSome then now else a.observedAt
    quantity := match c.quantity with
      | some quantity => quantity
      | none =>
        if c.targetAmount.isSome ∨ c.unitPrice.isSome then
          wholeSteps ctx target price a.minimumIncrement
        else a.quantity }

/-- The error of a request about another instrument. -/
def notInPlan : PlanError :=
  .invalid "instrument_id" "This investment is not part of the saved plan."

/-- `update_saved_allocation`. The instruments of a plan are distinct, so there is one to
select. -/
def updateSavedAllocation (p : ScenarioPayload Double) (x : InstrumentId) (c : AllocationChanges) :
    Except PlanError (ScenarioPayload Double) := do
  require (x ∈ p.instrumentIds) notInPlan
  recalculateSavedPayload ctx now catalogue { p.ofJson with
    allocations := Keyed.modify (·.instrumentId) x (·.edit ctx now c) p.ofJson.allocations }

/-- The payload with the remaining allocations. -/
def ScenarioPayload.without (p : ScenarioPayload ℚ) (x : InstrumentId) : ScenarioPayload ℚ :=
  { p with allocations := p.allocations.filter fun a => a.instrumentId ≠ x }

/-- `remove_saved_allocation`, which has no result for the last one. -/
def removeSavedAllocation (p : ScenarioPayload Double) (x : InstrumentId) :
    Except PlanError (Option (ScenarioPayload Double)) := do
  require (x ∈ p.instrumentIds) notInPlan
  if (p.ofJson.without x).allocations = [] then return none
  let q ← recalculateSavedPayload ctx now catalogue (p.ofJson.without x)
  return some q

end Saves

/-! ## What they keep -/

/-- Terms that go through a calculation. -/
def AllocationTerms.recalculated (t : AllocationTerms ℚ) : AllocationTerms Double :=
  { t with targetAmount := quantize 2 t.targetAmount }.map Double.ofRat

/-- Terms that were saved are saved again as they are. -/
theorem AllocationTerms.recalculated_map {t : AllocationTerms Double} {z : ℤ} (hz : |z| < 10 ^ 15)
    (ht : t.targetAmount = Double.ofRat (z / 10 ^ 2)) :
    (t.map Double.shortest).recalculated = t := by
  have htarget : Double.ofRat (quantize 2 t.targetAmount.shortest) = t.targetAmount := by
    rw [ht, Double.quantize_shortest hz]
  simp [recalculated, AllocationTerms.map, Quote.map, htarget]

section Keeps

variable {ctx : ℚ → ℚ} {now : Instant} {catalogue : List CatalogueInstrument}
  {p q : ScenarioPayload Double} {x y : InstrumentId}

theorem recalculateAllocations_terms {confirmedAmount : ℚ} :
    ∀ {used : ℚ} {as bs : List (AllocationSnapshot ℚ)},
      recalculateAllocations ctx confirmedAmount used as = .ok bs →
      bs.map (·.toAllocationTerms) =
        as.map fun a => { a.toAllocationTerms with targetAmount := quantize 2 a.targetAmount }
  | _, [], bs, h => by
    obtain rfl := Except.ok.inj h
    rfl
  | used, a :: as, bs, h => by
    rw [recalculateAllocations] at h
    obtain ⟨percentage, -, h⟩ := bind_ok.1 h
    obtain ⟨-, h⟩ := require_bind_ok.1 h
    obtain ⟨allocated, -, h⟩ := bind_ok.1 h
    obtain ⟨-, h⟩ := require_bind_ok.1 h
    obtain ⟨rest, hrest, h⟩ := bind_ok.1 h
    obtain rfl := Except.ok.inj h
    rw [List.map_cons, List.map_cons, recalculateAllocations_terms hrest]

theorem recalculateSavedPayload_ok {p : ScenarioPayload ℚ}
    (h : recalculateSavedPayload ctx now catalogue p = .ok q) :
    q.Sound ∧ q.allTerms = p.allTerms.map AllocationTerms.recalculated := by
  obtain ⟨-, h⟩ := require_bind_ok.1 h
  obtain ⟨allocations, has, h⟩ := bind_ok.1 h
  obtain ⟨p', hp', h⟩ := bind_ok.1 h
  obtain rfl := Except.ok.inj h
  obtain ⟨rfl, hfit, hnodup⟩ := ScenarioPayload.serialize_eq_ok hp'
  refine ⟨ScenarioPayload.sound_toJson hfit hnodup, ?_⟩
  have hterms := congrArg (List.map (AllocationTerms.map Double.ofRat))
    (recalculateAllocations_terms has)
  simp only [List.map_map] at hterms
  simpa [ScenarioPayload.allTerms, ScenarioPayload.toJson, ScenarioPayload.map,
    Function.comp_def, AllocationSnapshot.map, AllocationTerms.recalculated] using hterms

/-- The terms of an instrument after a calculation. -/
theorem terms_recalculated {p : ScenarioPayload ℚ}
    (h : q.allTerms = p.allTerms.map AllocationTerms.recalculated) (x : InstrumentId) :
    q.terms x = (p.terms x).map AllocationTerms.recalculated := by
  rw [ScenarioPayload.terms, h, List.find?_map]
  rfl

theorem ids_recalculated {p : ScenarioPayload ℚ}
    (h : q.allTerms = p.allTerms.map AllocationTerms.recalculated) :
    q.instrumentIds = p.instrumentIds := by
  rw [ScenarioPayload.instrumentIds_eq, ScenarioPayload.instrumentIds_eq, h, List.map_map]
  rfl

/-- The payload with the changes to an allocation. -/
def ScenarioPayload.edited (ctx : ℚ → ℚ) (now : Instant) (x : InstrumentId) (c : AllocationChanges)
    (p : ScenarioPayload ℚ) : ScenarioPayload ℚ :=
  { p with allocations := Keyed.modify (·.instrumentId) x (·.edit ctx now c) p.allocations }

theorem ScenarioPayload.terms_edited {p : ScenarioPayload ℚ} {c : AllocationChanges} (hy : y ≠ x) :
    (p.edited ctx now x c).terms y = p.terms y := by
  simp only [edited, terms, allTerms, List.find?_map]
  rw [Keyed.find?_modify (f := AllocationSnapshot.edit ctx now c) fun a _ _ => rfl,
    Option.map_map]
  cases hf : p.allocations.find?
      ((fun t => decide (t.instrumentId = y)) ∘ AllocationSnapshot.toAllocationTerms) with
  | none => rfl
  | some a =>
    have ha : a.instrumentId = y := by simpa using List.find?_some hf
    simp [ha, hy]

theorem ScenarioPayload.terms_without {p : ScenarioPayload ℚ} (hy : y ≠ x) :
    (p.without x).terms y = p.terms y := by
  simp only [terms, allTerms, List.find?_map, without, List.find?_filter]
  congr 2
  funext a
  by_cases ha : a.instrumentId = y
  · simp [ha, hy]
  · simp [ha]

/-- What is read from a sound payload and calculated again is what is there. -/
theorem ScenarioPayload.Sound.terms_ofJson (hp : p.Sound) (x : InstrumentId) :
    (p.ofJson.terms x).map AllocationTerms.recalculated = p.terms x := by
  have hall : p.ofJson.allTerms = p.allTerms.map (AllocationTerms.map Double.shortest) := by
    simp [allTerms, ofJson, ScenarioPayload.map, AllocationSnapshot.map, Function.comp_def]
  have hfind : p.ofJson.terms x = (p.terms x).map (AllocationTerms.map Double.shortest) := by
    rw [terms, hall, List.find?_map]
    rfl
  rw [hfind, Option.map_map]
  cases ht : p.terms x with
  | none => rfl
  | some t =>
    obtain ⟨a, ha, rfl⟩ := List.mem_map.1 (List.mem_of_find?_eq_some ht)
    obtain ⟨z, hz, htarget⟩ := hp.targets a ha
    exact congrArg some (AllocationTerms.recalculated_map hz htarget)

theorem updateSavedAllocation_ids {c : AllocationChanges}
    (h : updateSavedAllocation ctx now catalogue p x c = .ok q) :
    q.Sound ∧ x ∈ p.instrumentIds ∧ q.instrumentIds = p.instrumentIds := by
  obtain ⟨hx, h⟩ := require_bind_ok.1 h
  obtain ⟨hsound, hterms⟩ := recalculateSavedPayload_ok h
  refine ⟨hsound, hx, (ids_recalculated hterms).trans ?_⟩
  rw [← p.instrumentIds_ofJson]
  exact Keyed.map_pk_modify fun a ha => ha

/-- An edit keeps the terms of the other allocations. -/
theorem updateSavedAllocation_terms {c : AllocationChanges} (hp : p.Sound)
    (h : updateSavedAllocation ctx now catalogue p x c = .ok q) (hy : y ≠ x) :
    q.terms y = p.terms y := by
  obtain ⟨-, h⟩ := require_bind_ok.1 h
  rw [terms_recalculated (recalculateSavedPayload_ok h).2, ← hp.terms_ofJson y]
  exact congrArg _ (ScenarioPayload.terms_edited hy)

theorem removeSavedAllocation_ids {r : Option (ScenarioPayload Double)}
    (h : removeSavedAllocation ctx now catalogue p x = .ok r) :
    x ∈ p.instrumentIds ∧ (r = none → p.instrumentIds.filter (· ≠ x) = []) ∧
      ∀ q ∈ r, q.Sound ∧ q.instrumentIds = p.instrumentIds.filter (· ≠ x) := by
  obtain ⟨hx, h⟩ := require_bind_ok.1 h
  have hids : (p.ofJson.without x).instrumentIds = p.instrumentIds.filter (· ≠ x) := by
    rw [← p.instrumentIds_ofJson, ScenarioPayload.instrumentIds, ScenarioPayload.instrumentIds,
      List.filter_map]
    rfl
  refine ⟨hx, ?_⟩
  split at h
  · next hnil =>
    obtain rfl := Except.ok.inj h
    rw [← hids, ScenarioPayload.instrumentIds, hnil]
    simp
  · obtain ⟨q, hq, h⟩ := bind_ok.1 h
    obtain rfl := Except.ok.inj h
    obtain ⟨hsound, hterms⟩ := recalculateSavedPayload_ok hq
    refine ⟨by simp, fun q' hq' => ?_⟩
    obtain rfl := Option.some.inj hq'
    exact ⟨hsound, (ids_recalculated hterms).trans hids⟩

/-- A removal keeps the terms of the other allocations. -/
theorem removeSavedAllocation_terms (hp : p.Sound)
    (h : removeSavedAllocation ctx now catalogue p x = .ok (some q)) (hy : y ≠ x) :
    q.terms y = p.terms y := by
  obtain ⟨-, h⟩ := require_bind_ok.1 h
  split at h
  · cases h
  obtain ⟨q', hq, h⟩ := bind_ok.1 h
  obtain rfl : q' = q := Option.some.inj (Except.ok.inj h)
  rw [terms_recalculated (recalculateSavedPayload_ok hq).2, ← hp.terms_ofJson y]
  exact congrArg _ (ScenarioPayload.terms_without hy)

/-- A save from the widget takes what comes in, for the instruments of the widget. -/
theorem validateSavedPayload_ok {payload original : Option (ScenarioPayload ℚ)}
    (h : validateSavedPayload ctx now catalogue payload original = .ok q) :
    ∃ p o, payload = some p ∧ original = some o ∧ q = p.toJson ∧ q.Sound ∧
      ∀ x, x ∈ p.instrumentIds ↔ x ∈ o.instrumentIds := by
  obtain ⟨p, hp, h⟩ := bind_ok.1 h
  obtain ⟨p', hp', h⟩ := bind_ok.1 h
  obtain ⟨o, ho, h⟩ := bind_ok.1 h
  obtain ⟨o', ho', h⟩ := bind_ok.1 h
  obtain ⟨-, -, h⟩ := bind_ok.1 h
  obtain ⟨hids, h⟩ := require_bind_ok.1 h
  obtain ⟨-, -, h⟩ := bind_ok.1 h
  obtain rfl := Except.ok.inj h
  obtain ⟨rfl, hfit, hnodup⟩ := ScenarioPayload.serialize_eq_ok hp'
  obtain ⟨rfl, -, -⟩ := ScenarioPayload.serialize_eq_ok ho'
  have hparsed : ∀ {r : Option (ScenarioPayload ℚ)} {p : ScenarioPayload ℚ},
      parsed r = .ok p → r = some p := by
    intro r p hr
    cases r with
    | none => cases hr
    | some p => exact congrArg some (Except.ok.inj hr)
  exact ⟨_, o, hparsed hp, hparsed ho, rfl, ScenarioPayload.sound_toJson hfit hnodup,
    fun x => ⟨fun hx => hids.1 hx, fun hx => hids.2 hx⟩⟩

end Keeps

end NbeAdvisor
