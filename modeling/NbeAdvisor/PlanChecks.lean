import NbeAdvisor.PlanLinks
import Mathlib.Algebra.BigOperators.Ring.List
import Mathlib.Algebra.Order.BigOperators.Group.List

/-!
# What the payload serializer accepts

The checks of a plan's payload as a conjunction (`ScenarioPayload.Accepted`), with the serializer
deciding it (`ScenarioPayload.serialize_iff`). Later results on edits and removals use that and do
not look into the serializer.

In exact arithmetic a payload that is accepted spends what was confirmed, up to a few piasters for
each allocation, and buys the largest quantities that the targets can pay (`accepted_adds_up`). A
save from the widget keeps the instruments and the quotes of the widget.
-/

namespace NbeAdvisor

open Numerals

/-! ## Checks in a row -/

theorem require_eq_ok {p : Prop} [Decidable p] {e : PlanError} {u : Unit} :
    require p e = .ok u ↔ p := by
  unfold require
  split
  · next h => exact iff_of_true rfl h
  · next h => exact iff_of_false nofun h

theorem forM_eq_ok {α : Type} {f : α → Except PlanError Unit} {u : Unit} :
    ∀ {xs : List α}, xs.forM f = .ok u ↔ ∀ x ∈ xs, f x = .ok ()
  | [] => iff_of_true rfl nofun
  | x :: xs => by
    change (f x >>= fun _ => xs.forM f) = .ok u ↔ _
    simp only [bind_ok, forM_eq_ok, List.forall_mem_cons]
    exact ⟨fun ⟨_, h⟩ => h, fun h => ⟨(), h⟩⟩

theorem quantizeMoney_eq_ok {x y : ℚ} :
    quantizeMoney x = .ok y ↔ |quantize 2 x| < 10 ^ 26 ∧ y = quantize 2 x := by
  unfold quantizeMoney
  split
  · next h => simp [h, eq_comm]
  · next h => simp [h]

/-! ## The checks of an allocation -/

namespace AllocationSnapshot

/-- What `checkAmounts` asks for. -/
structure AmountsFit (ctx : ℚ → ℚ) (now : Instant) (allowUnderAllocation : Bool)
    (confirmedAmount : ℚ) (a : AllocationSnapshot ℚ) : Prop where
  observedAt : a.observedAt ≤ now + 5 * 60 * 10 ^ 6
  target : |ctx (a.targetAmount -
    quantize 2 (ctx (ctx (confirmedAmount * a.percentage) / 100)))| ≤ moneyTolerance
  quantity : a.quantity = wholeSteps ctx a.targetAmount a.unitPrice a.minimumIncrement ∨
    allowUnderAllocation = true ∧
      a.quantity ≤ wholeSteps ctx a.targetAmount a.unitPrice a.minimumIncrement ∧
      IsMultiple a.quantity a.minimumIncrement
  storable : |quantize 2 (ctx (a.quantity * a.unitPrice))| < 10 ^ 26
  actual : |ctx (a.actualAllocatedAmount - quantize 2 (ctx (a.quantity * a.unitPrice)))| ≤
    moneyTolerance
  remainder : |ctx (a.unallocatedRemainder - ctx (a.targetAmount - a.actualAllocatedAmount))| ≤
    moneyTolerance

variable {ctx : ℚ → ℚ} {now : Instant} {allow : Bool} {confirmedAmount : ℚ}
  {a : AllocationSnapshot ℚ}

theorem checkAmounts_eq_ok {u : Unit} : a.checkAmounts ctx now allow confirmedAmount = .ok u ↔
    a.AmountsFit ctx now allow confirmedAmount := by
  unfold checkAmounts
  simp only [bind_ok, require_eq_ok, quantizeMoney_eq_ok, exists_const]
  constructor
  · rintro ⟨h₁, h₂, h₃, _, ⟨h₄, rfl⟩, h₅, h₆⟩
    exact ⟨h₁, h₂, h₃, h₄, h₅, h₆⟩
  · rintro ⟨h₁, h₂, h₃, h₄, h₅, h₆⟩
    exact ⟨h₁, h₂, h₃, _, ⟨h₄, rfl⟩, h₅, h₆⟩

/-- What `checkMetadata` asks for. -/
def MetadataFits (instruments : List CatalogueInstrument) (a : AllocationSnapshot ℚ) : Prop :=
  ∃ i, instruments.find? (fun i => i.id = a.instrumentId) = some i ∧ ∀ f ∈ a.metadata i, f.2 = true

theorem checkMetadata_eq_ok {instruments : List CatalogueInstrument} {u : Unit} :
    a.checkMetadata instruments = .ok u ↔ a.MetadataFits instruments := by
  unfold checkMetadata MetadataFits
  cases instruments.find? fun i => i.id = a.instrumentId with
  | none => simp
  | some i =>
    simp only [Option.some.injEq, exists_eq_left']
    cases h : (a.metadata i).find? fun f => !f.2 with
    | none =>
      rw [List.find?_eq_none] at h
      exact iff_of_true rfl fun f hf => by simpa using h f hf
    | some f =>
      refine iff_of_false nofun fun hall => ?_
      have hf := List.find?_some h
      rw [hall f (List.mem_of_find?_eq_some h)] at hf
      cases hf

end AllocationSnapshot

/-! ## The checks of a payload -/

namespace ScenarioPayload

/-- All priorities are there and distinct, or none is. -/
def PrioritiesFit (p : ScenarioPayload ℚ) : Prop :=
  (∀ n ∈ p.allocations.map (·.priority), n = none) ∨
    (∀ n ∈ p.allocations.map (·.priority), n ≠ none) ∧ (p.allocations.map (·.priority)).Nodup

/-- The active instruments of a payload. -/
def activeInstruments (catalogue : List CatalogueInstrument) (p : ScenarioPayload ℚ) :
    List CatalogueInstrument :=
  catalogue.filter fun i => i.id ∈ p.instrumentIds ∧ i.isActive = true ∧ i.productIsActive = true

/-- What the serializer asks for. -/
structure Accepted (ctx : ℚ → ℚ) (now : Instant) (catalogue : List CatalogueInstrument)
    (allowUnderAllocation : Bool) (p : ScenarioPayload ℚ) : Prop where
  fieldsFit : p.FieldsFit
  saved : p.saved = true
  nodup : p.instrumentIds.Nodup
  priorities : p.PrioritiesFit
  percentages : sumDecimals ctx (p.allocations.map (·.percentage)) = 100
  amounts : ∀ a ∈ p.allocations, a.AmountsFit ctx now allowUnderAllocation p.confirmedAmount
  totalAllocated : |ctx (p.totalAllocated -
    sumDecimals ctx (p.allocations.map (·.actualAllocatedAmount)))| ≤ moneyTolerance
  totalRemainder : |ctx (ctx (p.confirmedAmount - p.totalAllocated) - p.totalRemainder)| ≤
    moneyTolerance
  active : (p.activeInstruments catalogue).length = p.instrumentIds.length
  metadata : ∀ a ∈ p.allocations, a.MetadataFits (p.activeInstruments catalogue)

variable {ctx : ℚ → ℚ} {now : Instant} {catalogue : List CatalogueInstrument} {allow : Bool}
  {p q : ScenarioPayload ℚ}

/-- As many active instruments as identifiers are those of the identifiers. -/
theorem mem_activeInstruments (hcatalogue : (catalogue.map (·.id)).Nodup)
    (hactive : (p.activeInstruments catalogue).length = p.instrumentIds.length) {x : InstrumentId}
    (hx : x ∈ p.instrumentIds) : ∃ i ∈ p.activeInstruments catalogue, i.id = x := by
  have hnodup : ((p.activeInstruments catalogue).map (·.id)).Nodup :=
    hcatalogue.sublist (List.filter_sublist.map _)
  have hsub : (p.activeInstruments catalogue).map (·.id) ⊆ p.instrumentIds := by
    intro y hy
    obtain ⟨i, hi, rfl⟩ := List.mem_map.1 hy
    have := (List.mem_filter.1 hi).2
    simp only [decide_eq_true_eq] at this
    exact this.1
  have hperm := (hnodup.subperm hsub).perm_of_length_le (by simp [hactive])
  exact List.mem_map.1 (hperm.mem_iff.2 hx)

theorem validate_eq_ok {u : Unit} : p.validate ctx now catalogue allow = .ok u ∧ p.FieldsFit ↔
    p.Accepted ctx now catalogue allow := by
  unfold validate
  simp only [bind_ok, require_eq_ok, forM_eq_ok, AllocationSnapshot.checkAmounts_eq_ok,
    AllocationSnapshot.checkMetadata_eq_ok, exists_const]
  constructor
  · rintro ⟨⟨h₁, h₂, h₃, h₄, h₅, h₆, h₇, h₈, h₉⟩, h₀⟩
    exact ⟨h₀, h₁, h₂, h₃, h₄, h₅, h₆, h₇, h₈, h₉⟩
  · rintro ⟨h₀, h₁, h₂, h₃, h₄, h₅, h₆, h₇, h₈, h₉⟩
    exact ⟨⟨h₁, h₂, h₃, h₄, h₅, h₆, h₇, h₈, h₉⟩, h₀⟩

theorem serialize_iff : p.serialize ctx now catalogue allow = .ok q ↔
    q = p ∧ p.Accepted ctx now catalogue allow := by
  unfold serialize
  simp only [bind_ok, require_eq_ok, exists_const]
  rw [← validate_eq_ok (u := ())]
  constructor
  · rintro ⟨h₀, _, h, hq⟩
    exact ⟨(Except.ok.inj hq).symm, h, h₀⟩
  · rintro ⟨rfl, h, h₀⟩
    exact ⟨h₀, (), h, rfl⟩

end ScenarioPayload

/-! ## Exact arithmetic -/

theorem sumDecimals_id (xs : List ℚ) : sumDecimals id xs = xs.sum := by
  rw [List.sum_eq_foldl]
  rfl

/-- An error for each item is that error times their number for the sums. -/
theorem abs_sum_sub_sum_le {α : Type} {f g : α → ℚ} {e : ℚ} : ∀ {xs : List α},
    (∀ x ∈ xs, |f x - g x| ≤ e) → |(xs.map f).sum - (xs.map g).sum| ≤ xs.length * e
  | [], _ => by simp
  | x :: xs, h => by
    have ih := abs_sum_sub_sum_le fun y hy => h y (List.mem_cons_of_mem x hy)
    have hsplit : ((x :: xs).map f).sum - ((x :: xs).map g).sum =
        (f x - g x) + ((xs.map f).sum - (xs.map g).sum) := by
      simp only [List.map_cons, List.sum_cons]
      ring
    calc _ ≤ |f x - g x| + |(xs.map f).sum - (xs.map g).sum| := by
          rw [hsplit]
          exact abs_add_le _ _
      _ ≤ e + xs.length * e := add_le_add (h x List.mem_cons_self) ih
      _ = (x :: xs).length * e := by
          push_cast [List.length_cons]
          ring

/-- The whole increments that an amount pays, and not one more. -/
theorem wholeSteps_bounds {amount price increment : ℚ} (hprice : 0 < price)
    (hincrement : 0 < increment) : wholeSteps id amount price increment * price ≤ amount ∧
      amount < wholeSteps id amount price increment * price + increment * price := by
  have hpos : 0 < increment * price := mul_pos hincrement hprice
  have hdiv : amount = amount / price / increment * (increment * price) := by field_simp
  have hfloor := Int.floor_le (amount / price / increment)
  have hlt := Int.lt_floor_add_one (amount / price / increment)
  have hsteps : wholeSteps id amount price increment * price =
      ⌊amount / price / increment⌋ * (increment * price) := by
    simp only [wholeSteps, id]
    ring
  rw [hsteps]
  constructor
  · calc (⌊amount / price / increment⌋ : ℚ) * (increment * price)
        ≤ amount / price / increment * (increment * price) :=
          mul_le_mul_of_nonneg_right hfloor hpos.le
      _ = amount := hdiv.symm
  · calc amount = amount / price / increment * (increment * price) := hdiv
      _ < (⌊amount / price / increment⌋ + 1) * (increment * price) :=
          mul_lt_mul_of_pos_right hlt hpos
      _ = _ := by ring

namespace AllocationSnapshot

variable {now : Instant} {allow : Bool} {confirmedAmount : ℚ} {a : AllocationSnapshot ℚ}

/-- The price and the increment that the serializer lets through are positive. -/
theorem FieldsFit.pos (h : a.FieldsFit) : 0 < a.unitPrice ∧ 0 < a.minimumIncrement := by
  have hprice := h.unitPrice.2.1
  have hincrement := h.minimumIncrement.2.1
  norm_num at hprice hincrement
  constructor
  · linarith
  · linarith

theorem AmountsFit.abs_target_sub_le (h : a.AmountsFit id now allow confirmedAmount) :
    |a.targetAmount - confirmedAmount * a.percentage / 100| ≤ 25 / 1000 := by
  have htarget := h.target
  have hround := abs_sub_quantize_le 2 (confirmedAmount * a.percentage / 100)
  simp only [id, moneyTolerance] at htarget
  calc |a.targetAmount - confirmedAmount * a.percentage / 100|
      ≤ |a.targetAmount - quantize 2 (confirmedAmount * a.percentage / 100)| +
        |quantize 2 (confirmedAmount * a.percentage / 100) -
          confirmedAmount * a.percentage / 100| := abs_sub_le _ _ _
    _ ≤ 2 / 100 + 1 / (2 * 10 ^ 2) := by
      rw [abs_sub_comm (quantize 2 _)]
      exact add_le_add htarget hround
    _ = 25 / 1000 := by norm_num

/-- What is allocated and what remains make up the share of the confirmed amount. -/
theorem AmountsFit.abs_parts_sub_le (h : a.AmountsFit id now allow confirmedAmount) :
    |a.actualAllocatedAmount + a.unallocatedRemainder - confirmedAmount * a.percentage / 100| ≤
      45 / 1000 := by
  have hremainder := h.remainder
  simp only [id, moneyTolerance] at hremainder
  have hsplit : a.actualAllocatedAmount + a.unallocatedRemainder -
        confirmedAmount * a.percentage / 100 =
      (a.unallocatedRemainder - (a.targetAmount - a.actualAllocatedAmount)) +
        (a.targetAmount - confirmedAmount * a.percentage / 100) := by ring
  calc _ ≤ |a.unallocatedRemainder - (a.targetAmount - a.actualAllocatedAmount)| +
        |a.targetAmount - confirmedAmount * a.percentage / 100| := by
        rw [hsplit]
        exact abs_add_le _ _
    _ ≤ 2 / 100 + 25 / 1000 := add_le_add hremainder h.abs_target_sub_le
    _ = 45 / 1000 := by norm_num

/-- Without under-allocation the quantity is the largest that the target pays. -/
theorem AmountsFit.largest (h : a.AmountsFit id now false confirmedAmount) (hfit : a.FieldsFit) :
    (∃ k : ℤ, a.quantity = k * a.minimumIncrement) ∧
      a.quantity * a.unitPrice ≤ a.targetAmount ∧
      a.targetAmount < a.quantity * a.unitPrice + a.minimumIncrement * a.unitPrice := by
  obtain ⟨hprice, hincrement⟩ := hfit.pos
  rcases h.quantity with hquantity | ⟨hfalse, -⟩
  · refine ⟨⟨_, hquantity⟩, ?_⟩
    rw [hquantity]
    exact wholeSteps_bounds hprice hincrement
  · cases hfalse

end AllocationSnapshot

namespace ScenarioPayload

variable {now : Instant} {catalogue : List CatalogueInstrument} {allow : Bool}
  {p : ScenarioPayload ℚ}

/-- The shares of the confirmed amount add up to it. -/
theorem Accepted.sum_shares (h : p.Accepted id now catalogue allow) :
    (p.allocations.map fun a => p.confirmedAmount * a.percentage / 100).sum = p.confirmedAmount := by
  have hsum := h.percentages
  rw [sumDecimals_id] at hsum
  have hmap : (p.allocations.map fun a => p.confirmedAmount * a.percentage / 100) =
      p.allocations.map fun a => p.confirmedAmount / 100 * a.percentage :=
    List.map_congr_left fun a _ => by ring
  rw [hmap, List.sum_map_mul_left, hsum]
  ring

theorem Accepted.abs_confirmed_sub_le (h : p.Accepted id now catalogue allow) :
    |p.confirmedAmount - (p.allocations.map fun a =>
      a.actualAllocatedAmount + a.unallocatedRemainder).sum| ≤ p.allocations.length * (45 / 1000) := by
  have hsum := abs_sum_sub_sum_le fun a ha => (h.amounts a ha).abs_parts_sub_le
  rw [h.sum_shares, abs_sub_comm] at hsum
  exact hsum

theorem Accepted.sum_cost_le (h : p.Accepted id now catalogue false) :
    (p.allocations.map fun a => a.quantity * a.unitPrice).sum - p.confirmedAmount ≤
      p.allocations.length * (25 / 1000) := by
  have htargets := abs_sum_sub_sum_le fun a ha => (h.amounts a ha).abs_target_sub_le
  rw [h.sum_shares] at htargets
  have hcost : (p.allocations.map fun a => a.quantity * a.unitPrice).sum ≤
      (p.allocations.map fun a => a.targetAmount).sum :=
    List.sum_le_sum fun a ha =>
      ((h.amounts a ha).largest (h.fieldsFit.allocations a ha)).2.1
  have := (abs_le.1 htargets).2
  linarith

end ScenarioPayload

/-! ## A save from the widget -/

theorem requireUnchanged_eq_ok {data : String} {fields : List (String × Bool)} {u : Unit} :
    requireUnchanged data fields = .ok u ↔ ∀ f ∈ fields, f.2 = true := by
  unfold requireUnchanged
  cases h : fields.find? fun f => !f.2 with
  | none =>
    rw [List.find?_eq_none] at h
    exact iff_of_true rfl fun f hf => by simpa using h f hf
  | some f =>
    refine iff_of_false nofun fun hall => ?_
    have hf := List.find?_some h
    rw [hall f (List.mem_of_find?_eq_some h)] at hf
    cases hf

theorem immutableAllocationFields_iff {a b : Quote ℚ} :
    (∀ f ∈ immutableAllocationFields a b, f.2 = true) ↔ a = b := by
  constructor
  · intro h
    simp only [immutableAllocationFields, List.forall_mem_cons, decide_eq_true_eq] at h
    obtain ⟨h₁, h₂, h₃, h₄, h₅, h₆, h₇, h₈, h₉, h₁₀, h₁₁, h₁₂, h₁₃, h₁₄, -⟩ := h
    cases a
    cases b
    simp_all
  · rintro rfl
    simp [immutableAllocationFields]

theorem checkQuote_eq_ok {original : List (AllocationSnapshot ℚ)} {a : AllocationSnapshot ℚ}
    {u : Unit} (h : checkQuote original a = .ok u) : ∃ b ∈ original, a.toQuote = b.toQuote := by
  unfold checkQuote at h
  split at h
  · cases h
  · next b hb =>
    exact ⟨b, List.mem_of_find?_eq_some hb,
      immutableAllocationFields_iff.1 (requireUnchanged_eq_ok.1 h)⟩

/-- A payload with the instruments, the amount, the texts and the quotes of another. -/
structure SameQuotes {N : Type} (p q : ScenarioPayload N) : Prop where
  instruments : p.instrumentIds.Perm q.instrumentIds
  confirmedAmount : p.confirmedAmount = q.confirmedAmount
  currency : p.currency = q.currency
  disclaimer : p.disclaimer = q.disclaimer
  quotes : ∀ a ∈ p.allocations, ∃ b ∈ q.allocations, a.toQuote = b.toQuote

theorem SameQuotes.toJson {p q : ScenarioPayload ℚ} (h : SameQuotes p q) :
    SameQuotes p.toJson q.toJson where
  instruments := by simpa using h.instruments
  confirmedAmount := congrArg Double.ofRat h.confirmedAmount
  currency := h.currency
  disclaimer := h.disclaimer
  quotes a ha := by
    obtain ⟨b, hb, rfl⟩ := List.mem_map.1 ha
    obtain ⟨c, hc, hquote⟩ := h.quotes b hb
    exact ⟨c.map Double.ofRat, List.mem_map_of_mem hc, congrArg (Quote.map Double.ofRat) hquote⟩

theorem validateSavedPayload_quotes {ctx : ℚ → ℚ} {now : Instant}
    {catalogue : List CatalogueInstrument} {payload original : Option (ScenarioPayload ℚ)}
    {r : ScenarioPayload Double}
    (h : validateSavedPayload ctx now catalogue payload original = .ok r) :
    ∃ o, original = some o ∧ SameQuotes r o.toJson := by
  obtain ⟨p, hp, h⟩ := bind_ok.1 h
  obtain ⟨p', hp', h⟩ := bind_ok.1 h
  obtain ⟨o, ho, h⟩ := bind_ok.1 h
  obtain ⟨o', ho', h⟩ := bind_ok.1 h
  obtain ⟨u, hplan, h⟩ := bind_ok.1 h
  obtain ⟨hids, h⟩ := require_bind_ok.1 h
  obtain ⟨v, hquotes, h⟩ := bind_ok.1 h
  obtain rfl := Except.ok.inj h
  obtain ⟨rfl, hincoming⟩ := ScenarioPayload.serialize_iff.1 hp'
  obtain ⟨rfl, horiginal⟩ := ScenarioPayload.serialize_iff.1 ho'
  have hfields := requireUnchanged_eq_ok.1 hplan
  simp only [immutablePlanFields, List.forall_mem_cons, decide_eq_true_eq] at hfields
  obtain ⟨hconfirmed, hcurrency, hdisclaimer, -⟩ := hfields
  have hsome : original = some o := by
    cases original with
    | none => cases ho
    | some q => exact congrArg some (Except.ok.inj ho)
  refine ⟨o, hsome, SameQuotes.toJson (q := o) ⟨?_, hconfirmed, hcurrency, hdisclaimer,
    fun a ha => checkQuote_eq_ok (forM_eq_ok.1 hquotes a ha)⟩⟩
  exact (List.perm_ext_iff_of_nodup hincoming.nodup horiginal.nodup).2 fun x =>
    ⟨fun hx => hids.1 hx, fun hx => hids.2 hx⟩

/-- A payload that the serializer accepts adds up and buys the most that its targets pay, and one
that is saved from a widget has the instruments and the quotes of the widget. -/
theorem accepted_adds_up {now : Instant} {catalogue : List CatalogueInstrument}
    {p q : ScenarioPayload ℚ} (h : p.serialize id now catalogue false = .ok q) :
    (|q.confirmedAmount - (q.allocations.map fun a =>
        a.actualAllocatedAmount + a.unallocatedRemainder).sum| ≤
          q.allocations.length * (45 / 1000)) ∧
      (∀ a ∈ q.allocations, (∃ k : ℤ, a.quantity = k * a.minimumIncrement) ∧
        a.quantity * a.unitPrice ≤ a.targetAmount ∧
        a.targetAmount < a.quantity * a.unitPrice + a.minimumIncrement * a.unitPrice) ∧
      (q.allocations.map fun a => a.quantity * a.unitPrice).sum - q.confirmedAmount ≤
        q.allocations.length * (25 / 1000) ∧
      ∀ (original : Option (ScenarioPayload ℚ)) (r : ScenarioPayload Double),
        validateSavedPayload id now catalogue (some p) original = .ok r →
          ∃ o, original = some o ∧ SameQuotes r o.toJson := by
  obtain ⟨rfl, hq⟩ := ScenarioPayload.serialize_iff.1 h
  exact ⟨hq.abs_confirmed_sub_le,
    fun a ha => (hq.amounts a ha).largest (hq.fieldsFit.allocations a ha), hq.sum_cost_le,
    fun original r hr => validateSavedPayload_quotes hr⟩

/-- The plan of two instruments, as it is saved from its widget. -/
theorem moreFund_adds_up :
    |PlanStore.moreFund.confirmedAmount - (PlanStore.moreFund.allocations.map fun a =>
        a.actualAllocatedAmount + a.unallocatedRemainder).sum| ≤ 2 * (45 / 1000) ∧
      ∃ r, validateSavedPayload id 0 [PlanStore.gold, PlanStore.fund] (some PlanStore.moreFund)
          (some PlanStore.moreFund) = .ok r ∧ SameQuotes r PlanStore.moreFund.toJson := by
  have h := @accepted_adds_up 0 [PlanStore.gold, PlanStore.fund] PlanStore.moreFund
    PlanStore.moreFund (by decide +kernel)
  refine ⟨h.1, PlanStore.moreFund.toJson, by decide +kernel, ?_⟩
  obtain ⟨o, ho, hquotes⟩ := h.2.2.2 (some PlanStore.moreFund) PlanStore.moreFund.toJson
    (by decide +kernel)
  obtain rfl := Option.some.inj ho
  exact hquotes

end NbeAdvisor
