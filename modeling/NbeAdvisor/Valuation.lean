import NbeAdvisor.DecimalContext
import NbeAdvisor.MarketData

/-!
# The valuation of the holdings

`InvestmentHoldingValuationView` values each holding at its quote and adds the values up, in the
default context of `decimal`. Nothing there bounds a quote, and the columns of a holding let a
quantity and a price be of 16 digits before the point each, while an amount of money has 26 in the
context. The view completes exactly if the amounts and the ratios of gain and cost fit
(`portfolioValuation_completes_iff`).
-/

namespace NbeAdvisor

open Numerals

/-! ## Operations that raise -/

/-- The exceptions of `decimal`. -/
inductive DecimalError where
  | invalidOperation
  | divisionByZero
  deriving DecidableEq

/-- A division. -/
def divide (x y : ℚ) : Except DecimalError ℚ :=
  if y = 0 then .error (if x = 0 then .invalidOperation else .divisionByZero)
  else .ok (decimal28 (x / y))

/-- `x.quantize(.., rounding=ROUND_HALF_UP)`, to `n` places. -/
def quantizePlaces (n : ℕ) (x : ℚ) : Except DecimalError ℚ :=
  match quantizeUp? 28 n x with
  | some y => .ok y
  | none => .error .invalidOperation

/-- The gain of a value over its cost, and its percentage of the cost. -/
def gainLoss (value cost : ℚ) : Except DecimalError (ℚ × ℚ) := do
  let gain ← quantizePlaces 2 (decimal28 (value - cost))
  let ratio ← divide gain cost
  let percentage ← quantizePlaces 4 (decimal28 (ratio * 100))
  return (gain, percentage)

/-! ## The view -/

/-- `quote_status`. -/
inductive QuoteStatus where
  | current
  | needsRefresh
  | unavailable
  | disabled
  deriving DecidableEq

/-- A row of the answer. -/
structure HoldingValuation where
  holding : InvestmentHolding
  quoteStatus : QuoteStatus
  currentPrice : Option ℚ := none
  currentValue : Option ℚ := none
  gainLoss : Option ℚ := none
  gainLossPercentage : Option ℚ := none
  observedAt : Option Instant := none
  source : Option String := none
  deriving DecidableEq

namespace InvestmentHolding

/-- `quantity * average_purchase_price + fees`. -/
def costBasis (h : InvestmentHolding) : ℚ :=
  decimal28 (decimal28 ((h.quantity : ℚ) / 10 ^ 8 * (h.averagePurchasePrice / 10 ^ 4)) +
    h.fees / 10 ^ 2)

/-- `quantity * current_price`, before it is quantized. -/
def worth (h : InvestmentHolding) (q : MarketQuote) : ℚ := decimal28 (h.quantity / 10 ^ 8 * q.price)

/-- The age of the quote is in seconds. -/
def quoteStatus (enabled : Bool) (maxAge : ℕ) (now : Instant) : Option MarketQuote → QuoteStatus
  | none => if enabled then .unavailable else .disabled
  | some q =>
    if enabled = false then .disabled
    else if now - q.observedAt ≤ maxAge * 1000000 then .current
    else .needsRefresh

/-- What the loop makes of a holding. -/
def valuation (enabled : Bool) (maxAge : ℕ) (now : Instant) (h : InvestmentHolding)
    (quote : Option MarketQuote) : Except DecimalError HoldingValuation :=
  match quote with
  | none => .ok { holding := h, quoteStatus := quoteStatus enabled maxAge now none }
  | some q => do
    let value ← quantizePlaces 2 (h.worth q)
    let (gain, percentage) ← NbeAdvisor.gainLoss value h.costBasis
    return {
      holding := h, quoteStatus := quoteStatus enabled maxAge now (some q)
      currentPrice := some q.price, currentValue := some value, gainLoss := some gain
      gainLossPercentage := some percentage, observedAt := some q.observedAt
      source := some q.source }

end InvestmentHolding

/-- The sums of the loop. -/
structure ValuationTotals where
  cost : ℚ := 0
  current : ℚ := 0
  pricedCount : ℕ := 0
  rows : List HoldingValuation := []

/-- One holding more. -/
def ValuationTotals.add (t : ValuationTotals) (h : InvestmentHolding) (row : HoldingValuation) :
    ValuationTotals where
  cost := decimal28 (t.cost + h.costBasis)
  current := row.currentValue.elim t.current fun v => decimal28 (t.current + v)
  pricedCount := t.pricedCount + row.currentValue.toList.length
  rows := t.rows ++ [row]

/-- The answer. -/
structure PortfolioValuation where
  enabled : Bool
  refreshedAt : Instant
  isComplete : Bool
  pricedHoldingCount : ℕ
  totalHoldingCount : ℕ
  totalCostBasis : ℚ
  totalCurrentValue : Option ℚ
  totalGainLoss : Option ℚ
  totalGainLossPercentage : Option ℚ
  holdings : List HoldingValuation

/-- `quotes`, where `fetched` is what the service has given, if it was available. -/
def quotesOf (enabled : Bool) (fetched : Option MarketQuotes) (instrument : InstrumentId) :
    Option MarketQuote :=
  if enabled then (fetched.getD []).lookup instrument else none

/-- The answer to the sums over `n` holdings. -/
def ValuationTotals.answer (t : ValuationTotals) (enabled : Bool) (now : Instant) (n : ℕ) :
    Except DecimalError PortfolioValuation := do
  let isComplete : Bool := t.pricedCount = n
  let totals ←
    if isComplete = true ∧ 0 < n then do
      let (gain, percentage) ← gainLoss t.current t.cost
      let current ← quantizePlaces 2 t.current
      pure (some (gain, percentage, current))
    else pure none
  let totalCostBasis ← quantizePlaces 2 t.cost
  return {
    enabled, refreshedAt := now, isComplete, pricedHoldingCount := t.pricedCount
    totalHoldingCount := n, totalCostBasis, totalCurrentValue := totals.map (·.2.2)
    totalGainLoss := totals.map (·.1), totalGainLossPercentage := totals.map (·.2.1)
    holdings := t.rows }

/-- `InvestmentHoldingValuationView.get`, of the user's holdings in their order. -/
def portfolioValuation (enabled : Bool) (fetched : Option MarketQuotes)
    (instrument : InstrumentId → QuotedInstrument) (now : Instant)
    (holdings : List InvestmentHolding) : Except DecimalError PortfolioValuation := do
  let totals ← holdings.foldlM (fun (t : ValuationTotals) h =>
    (h.valuation enabled (instrument h.instrument).maxQuoteAgeSeconds now
      (quotesOf enabled fetched h.instrument)).map fun row => t.add h row) {}
  totals.answer enabled now holdings.length

/-! ## What the context holds -/

/-- Money that the context holds : 26 digits before the point, up to rounding. -/
def moneyBound : ℚ := 10 ^ 26 - 1 / 200

/-- A ratio whose percentage the context holds with four places. -/
def ratioBound : ℚ := 10 ^ 22 - 5 / 10 ^ 7

/-- The value of a holding at its quote. -/
def InvestmentHolding.valueAt (h : InvestmentHolding) (q : MarketQuote) : ℚ := quantizeUp 2 (h.worth q)

/-- The gain of a value over a cost. -/
def gainOver (value cost : ℚ) : ℚ := quantizeUp 2 (decimal28 (value - cost))

section Operations

variable {x y value cost : ℚ}

theorem quantizePlaces_eq_ok {n : ℕ} (h : quantizePlaces n x = .ok y) : y = quantizeUp n x := by
  unfold quantizePlaces at h
  split at h
  · next heq =>
    cases h
    exact quantizeUp?_eq_some heq
  · cases h

theorem abs_quantizePlaces_le {n : ℕ} (h : quantizePlaces n x = .ok y) :
    |y| * 10 ^ n ≤ 10 ^ 28 - 1 := by
  unfold quantizePlaces at h
  split at h
  · next heq =>
    cases h
    exact abs_quantizeUp?_le heq
  · cases h

theorem quantizePlaces_ok {n : ℕ} : (∃ y, quantizePlaces n x = .ok y) ↔
    (quantizeUp? 28 n x).isSome = true := by
  unfold quantizePlaces
  split
  · next h => simp [h]
  · next h => simp [h]

/-- Money that has been rounded to the context. -/
theorem quantizeMoney_ok : (∃ y, quantizePlaces 2 (decimal28 x) = .ok y) ↔ |x| < moneyBound := by
  rw [quantizePlaces_ok, isSome_quantizeUp? (by norm_num), moneyBound]
  norm_num

/-- The percentage of a ratio. -/
theorem percentage_ok :
    (∃ y, quantizePlaces 4 (decimal28 (decimal28 x * 100)) = .ok y) ↔ |x| < ratioBound := by
  have hratio := significant_lt_pow (K := ℚ) (p := 28) (by norm_num) (m := 22) (abs_nonneg x)
  have hself := significant_lt_pow (K := ℚ) (p := 28) (by norm_num) (m := 22)
    (abs_nonneg (decimal28 x))
  rw [← abs_significant (by norm_num) (by norm_num)] at hratio hself
  rw [significant_significant (by norm_num) (by norm_num), hratio] at hself
  rw [quantizePlaces_ok, isSome_quantizeUp? (by norm_num), abs_mul, ratioBound]
  norm_num at hself ⊢
  rw [hself, ← lt_div_iff₀ (by norm_num)]
  norm_num

/-- Between amounts that fit, only the ratio can be too large. -/
theorem gainLoss_ok (hvalue : 0 ≤ value) (hvalue' : value < moneyBound) (hcost : 0 < cost)
    (hcost' : cost < moneyBound) :
    (∃ r, gainLoss value cost = .ok r) ↔ |gainOver value cost| < ratioBound * cost := by
  have hdiff : |value - cost| < moneyBound := abs_sub_lt_iff.2 ⟨by linarith, by linarith⟩
  obtain ⟨gain, hgain⟩ := quantizeMoney_ok.2 hdiff
  obtain rfl : gain = gainOver value cost := quantizePlaces_eq_ok hgain
  have hratio : |gainOver value cost / cost| < ratioBound ↔
      |gainOver value cost| < ratioBound * cost := by
    rw [abs_div, abs_of_pos hcost, div_lt_iff₀ hcost]
  have hdivide : divide (gainOver value cost) cost = .ok (decimal28 (gainOver value cost / cost)) :=
    if_neg hcost.ne'
  rw [← hratio, ← percentage_ok]
  simp only [gainLoss, hgain, hdivide, bind, Except.bind, pure, Except.pure]
  constructor
  · rintro ⟨r, hr⟩
    split at hr
    · cases hr
    · next y hy => exact ⟨y, hy⟩
  · rintro ⟨y, hy⟩
    exact ⟨_, by rw [hy]⟩

end Operations

section Holdings

variable {h : InvestmentHolding} {q : MarketQuote} {enabled : Bool} {maxAge : ℕ} {now : Instant}

theorem costBasis_pos (hs : h.Storable) : 0 < h.costBasis := by
  obtain ⟨⟨hquantity, -⟩, ⟨hprice, -⟩, -⟩ := hs
  have hquantity' : (0 : ℚ) < h.quantity := by exact_mod_cast hquantity
  have hprice' : (0 : ℚ) < h.averagePurchasePrice := by exact_mod_cast hprice
  have hproduct := decimal28_pos (x := (h.quantity : ℚ) / 10 ^ 8 * (h.averagePurchasePrice / 10 ^ 4))
    (by positivity)
  exact decimal28_pos (by positivity)

theorem worth_nonneg (h : InvestmentHolding) (q : MarketQuote) : 0 ≤ h.worth q := by
  have := q.price_pos
  exact decimal28_nonneg (by positivity)

theorem valueAt_nonneg (h : InvestmentHolding) (q : MarketQuote) : 0 ≤ h.valueAt q :=
  quantizeUp_nonneg (worth_nonneg h q)

theorem valueAt_lt (h' : quantizePlaces 2 (h.worth q) = .ok (h.valueAt q)) :
    h.valueAt q < moneyBound := by
  have hle := abs_quantizePlaces_le h'
  rw [abs_of_nonneg (valueAt_nonneg h q)] at hle
  rw [moneyBound]
  norm_num at hle ⊢
  linarith

/-- A holding is valued exactly if its value fits, and the ratio of its gain and its cost. -/
theorem valuation_ok (hs : h.Storable) (hcost : h.costBasis < moneyBound) :
    (∃ row, h.valuation enabled maxAge now (some q) = .ok row) ↔
      h.quantity / 10 ^ 8 * q.price < moneyBound ∧
        |gainOver (h.valueAt q) h.costBasis| < ratioBound * h.costBasis := by
  have hworth : (0 : ℚ) ≤ h.quantity / 10 ^ 8 * q.price := by
    have := q.price_pos
    positivity
  have hmoney := quantizeMoney_ok (x := h.quantity / 10 ^ 8 * q.price)
  rw [abs_of_nonneg hworth] at hmoney
  rw [← hmoney]
  constructor
  · rintro ⟨row, hrow⟩
    simp only [InvestmentHolding.valuation, bind, Except.bind] at hrow
    split at hrow
    · cases hrow
    next value hvalue =>
    refine ⟨⟨value, hvalue⟩, ?_⟩
    obtain rfl : value = h.valueAt q := quantizePlaces_eq_ok hvalue
    rw [← gainLoss_ok (valueAt_nonneg h q) (valueAt_lt hvalue) (costBasis_pos hs) hcost]
    split at hrow
    · cases hrow
    next r hr => exact ⟨r, hr⟩
  · rintro ⟨⟨value, hvalue⟩, hgain⟩
    obtain rfl : value = h.valueAt q := quantizePlaces_eq_ok hvalue
    rw [← gainLoss_ok (valueAt_nonneg h q) (valueAt_lt hvalue) (costBasis_pos hs) hcost]
      at hgain
    obtain ⟨r, hr⟩ := hgain
    have hvalue' : quantizePlaces 2 (h.worth q) = .ok (h.valueAt q) := hvalue
    exact ⟨_, by simp only [InvestmentHolding.valuation, hvalue', hr, bind, Except.bind]; rfl⟩

/-- The row has the value of a holding with a quote, and of no other. -/
theorem valuation_currentValue {quote : Option MarketQuote} {row : HoldingValuation}
    (hrow : h.valuation enabled maxAge now quote = .ok row) :
    row.currentValue = quote.map h.valueAt := by
  cases quote with
  | none =>
    cases hrow
    rfl
  | some q =>
    simp only [InvestmentHolding.valuation, bind, Except.bind] at hrow
    split at hrow
    · cases hrow
    next value hvalue =>
    obtain rfl : value = h.valueAt q := quantizePlaces_eq_ok hvalue
    split at hrow
    · cases hrow
    · cases hrow
      rfl

end Holdings

/-! ## The loop -/

section Loop

variable {α β ε σ : Type*} {f : α → Except ε β} {add : σ → α → β → σ} {s s' : σ} {as : List α}

/-- A loop that adds up what each item gives. -/
theorem foldlM_ok : (∃ s', as.foldlM (fun s a => (f a).map (add s a)) s = .ok s') ↔
    ∀ a ∈ as, ∃ b, f a = .ok b := by
  induction as generalizing s with
  | nil => simp [pure, Except.pure]
  | cons a as ih =>
    rw [List.foldlM_cons, List.forall_mem_cons]
    cases hf : f a with
    | error e => simp [Except.map, bind, Except.bind]
    | ok b => simpa [Except.map, bind, Except.bind] using ih

end Loop

/-- The values of the holdings that have a quote. -/
def quotedValues (quotes : InstrumentId → Option MarketQuote) (holdings : List InvestmentHolding) :
    List ℚ :=
  holdings.filterMap fun h => (quotes h.instrument).map h.valueAt

/-- The sums after the loop. -/
theorem foldlM_totals {enabled : Bool} {quotes : InstrumentId → Option MarketQuote}
    {instrument : InstrumentId → QuotedInstrument} {now : Instant} {t t' : ValuationTotals}
    {holdings : List InvestmentHolding}
    (h : holdings.foldlM (fun (t : ValuationTotals) h =>
      (h.valuation enabled (instrument h.instrument).maxQuoteAgeSeconds now
        (quotes h.instrument)).map (t.add h)) t = .ok t') :
    t'.cost = decimalSum t.cost (holdings.map (·.costBasis)) ∧
      t'.current = decimalSum t.current (quotedValues quotes holdings) ∧
      t'.pricedCount = t.pricedCount + (quotedValues quotes holdings).length := by
  induction holdings generalizing t with
  | nil =>
    cases h
    exact ⟨rfl, rfl, rfl⟩
  | cons a as ih =>
    rw [List.foldlM_cons] at h
    cases hrow : a.valuation enabled (instrument a.instrument).maxQuoteAgeSeconds now
        (quotes a.instrument) with
    | error e =>
      rw [hrow] at h
      cases h
    | ok row =>
      rw [hrow] at h
      obtain ⟨hcost, hcurrent, hcount⟩ := ih h
      have hvalue := valuation_currentValue hrow
      rw [hcost, hcurrent, hcount]
      cases hq : quotes a.instrument with
      | none => simp [quotedValues, ValuationTotals.add, hq, hvalue]
      | some q =>
        simp [quotedValues, ValuationTotals.add, hq, hvalue]
        omega

/-- Sums have the digits of the context already. -/
theorem quantizeTotal_ok {x : ℚ} (hdigits : decimal28 x = x) (hx : 0 ≤ x) :
    (∃ y, quantizePlaces 2 x = .ok y) ↔ x < moneyBound := by
  have h := quantizeMoney_ok (x := x)
  rwa [hdigits, abs_of_nonneg hx] at h

/-- The answer to the sums. -/
theorem answer_ok {t : ValuationTotals} {enabled : Bool} {now : Instant} {n : ℕ}
    (hcost : decimal28 t.cost = t.cost) (hcost₀ : 0 ≤ t.cost) (hpos : 0 < n → 0 < t.cost)
    (hcurrent : decimal28 t.current = t.current) (hcurrent₀ : 0 ≤ t.current) :
    (∃ v, t.answer enabled now n = .ok v) ↔ t.cost < moneyBound ∧
      (t.pricedCount = n → 0 < n → t.current < moneyBound ∧
        |gainOver t.current t.cost| < ratioBound * t.cost) := by
  rw [← quantizeTotal_ok hcost hcost₀]
  by_cases hcomplete : t.pricedCount = n ∧ 0 < n
  · obtain ⟨hcount, hn⟩ := hcomplete
    have hboth : (t.pricedCount = n → 0 < n → t.current < moneyBound ∧
        |gainOver t.current t.cost| < ratioBound * t.cost) ↔
        t.current < moneyBound ∧ |gainOver t.current t.cost| < ratioBound * t.cost := by
      simp [hcount, hn]
    rw [hboth]
    constructor
    · rintro ⟨v, hv⟩
      simp only [ValuationTotals.answer, hcount, hn, decide_true, and_self, if_true, bind,
        Except.bind, pure, Except.pure] at hv
      split at hv
      · cases hv
      next r hr =>
      split at hv
      · cases hv
      next current hcur =>
      split at hv
      · cases hv
      next cost hc =>
      have hcurrent' := (quantizeTotal_ok hcurrent hcurrent₀).1 ⟨current, hcur⟩
      have hcost' := (quantizeTotal_ok hcost hcost₀).1 ⟨cost, hc⟩
      exact ⟨⟨cost, hc⟩, hcurrent',
        (gainLoss_ok hcurrent₀ hcurrent' (hpos hn) hcost').1 ⟨r, hr⟩⟩
    · rintro ⟨⟨cost, hc⟩, hcurrent', hgain⟩
      have hcost' := (quantizeTotal_ok hcost hcost₀).1 ⟨cost, hc⟩
      obtain ⟨r, hr⟩ := (gainLoss_ok hcurrent₀ hcurrent' (hpos hn) hcost').2 hgain
      obtain ⟨current, hcur⟩ := (quantizeTotal_ok hcurrent hcurrent₀).2 hcurrent'
      simp only [ValuationTotals.answer, hcount, hn, decide_true, and_self, if_true, bind,
        Except.bind, pure, Except.pure, hr, hcur, hc]
      exact ⟨_, rfl⟩
  · have hnone : (t.pricedCount = n → 0 < n → t.current < moneyBound ∧
        |gainOver t.current t.cost| < ratioBound * t.cost) :=
      fun hcount hn => (hcomplete ⟨hcount, hn⟩).elim
    rw [and_iff_left hnone]
    simp only [ValuationTotals.answer, decide_eq_true_eq, if_neg hcomplete, bind, Except.bind, pure,
      Except.pure]
    constructor
    · rintro ⟨v, hv⟩
      split at hv
      · cases hv
      next cost hc => exact ⟨cost, hc⟩
    · rintro ⟨cost, hc⟩
      exact ⟨_, by rw [hc]⟩

/-- The amounts and ratios fit the context. -/
structure FitsContext (quotes : InstrumentId → Option MarketQuote) (holdings : List InvestmentHolding) :
    Prop where
  cost : decimalSum 0 (holdings.map (·.costBasis)) < moneyBound
  worth : ∀ h ∈ holdings, ∀ q ∈ quotes h.instrument, h.quantity / 10 ^ 8 * q.price < moneyBound
  gain : ∀ h ∈ holdings, ∀ q ∈ quotes h.instrument,
    |gainOver (h.valueAt q) h.costBasis| < ratioBound * h.costBasis
  total : (∀ h ∈ holdings, (quotes h.instrument).isSome) → holdings ≠ [] →
    decimalSum 0 (quotedValues quotes holdings) < moneyBound ∧
      |gainOver (decimalSum 0 (quotedValues quotes holdings))
        (decimalSum 0 (holdings.map (·.costBasis)))| <
          ratioBound * decimalSum 0 (holdings.map (·.costBasis))

/-- What holds of the sums over holdings that can be stored. -/
structure SumsSound (quotes : InstrumentId → Option MarketQuote) (holdings : List InvestmentHolding)
    (t : ValuationTotals) : Prop where
  cost : t.cost = decimalSum 0 (holdings.map (·.costBasis))
  current : t.current = decimalSum 0 (quotedValues quotes holdings)
  costDigits : decimal28 t.cost = t.cost
  currentDigits : decimal28 t.current = t.current
  cost_nonneg : 0 ≤ t.cost
  current_nonneg : 0 ≤ t.current
  le_cost : ∀ h ∈ holdings, h.costBasis ≤ t.cost
  complete : t.pricedCount = holdings.length ↔ ∀ h ∈ holdings, (quotes h.instrument).isSome

theorem sumsSound {quotes : InstrumentId → Option MarketQuote} {holdings : List InvestmentHolding}
    (hs : ∀ h ∈ holdings, h.Storable) {t : ValuationTotals}
    (hcost : t.cost = decimalSum 0 (holdings.map (·.costBasis)))
    (hcurrent : t.current = decimalSum 0 (quotedValues quotes holdings))
    (hcount : t.pricedCount = (quotedValues quotes holdings).length) :
    SumsSound quotes holdings t := by
  have hcosts : ∀ c ∈ holdings.map (·.costBasis), 0 ≤ c := by
    intro c hc
    obtain ⟨h, hh, rfl⟩ := List.mem_map.1 hc
    exact (costBasis_pos (hs h hh)).le
  have hvalues : ∀ v ∈ quotedValues quotes holdings, 0 ≤ v := by
    intro v hv
    obtain ⟨h, -, hq⟩ := List.mem_filterMap.1 hv
    obtain ⟨q, -, rfl⟩ := Option.map_eq_some_iff.1 hq
    exact valueAt_nonneg h q
  have hzero : decimal28 (0 : ℚ) = 0 := significant_zero 10 28
  refine ⟨hcost, hcurrent, ?_, ?_, ?_, ?_, fun h hh => ?_, ?_⟩
  · rw [hcost, decimal28_decimalSum hzero]
  · rw [hcurrent, decimal28_decimalSum hzero]
  · rw [hcost]
    exact le_decimalSum hzero le_rfl hcosts
  · rw [hcurrent]
    exact le_decimalSum hzero le_rfl hvalues
  · rw [hcost]
    exact le_decimalSum_of_mem le_rfl hcosts (List.mem_map_of_mem hh) (decimal28_decimal28 _)
  · rw [hcount, quotedValues, List.filterMap_length_eq_length]
    simp

/-- The valuation of holdings that can be stored completes exactly if the amounts fit. -/
theorem portfolioValuation_completes_iff (enabled : Bool) (fetched : Option MarketQuotes)
    (instrument : InstrumentId → QuotedInstrument) (now : Instant)
    {holdings : List InvestmentHolding} (hs : ∀ h ∈ holdings, h.Storable) :
    (∃ v, portfolioValuation enabled fetched instrument now holdings = .ok v) ↔
      FitsContext (quotesOf enabled fetched) holdings := by
  have hsums : ∀ t, holdings.foldlM (fun (t : ValuationTotals) h =>
      (h.valuation enabled (instrument h.instrument).maxQuoteAgeSeconds now
        (quotesOf enabled fetched h.instrument)).map fun row => t.add h row) {} = .ok t →
      SumsSound (quotesOf enabled fetched) holdings t := by
    intro t ht
    obtain ⟨hcost, hcurrent, hcount⟩ := foldlM_totals ht
    exact sumsSound hs hcost hcurrent (hcount.trans (Nat.zero_add _))
  have hanswer : ∀ t, SumsSound (quotesOf enabled fetched) holdings t →
      ((∃ v, t.answer enabled now holdings.length = .ok v) ↔ t.cost < moneyBound ∧
        (t.pricedCount = holdings.length → 0 < holdings.length → t.current < moneyBound ∧
          |gainOver t.current t.cost| < ratioBound * t.cost)) := by
    intro t ht
    refine answer_ok ht.costDigits ht.cost_nonneg (fun hn => ?_) ht.currentDigits ht.current_nonneg
    obtain ⟨h, hh⟩ := List.exists_mem_of_length_pos hn
    exact (costBasis_pos (hs h hh)).trans_le (ht.le_cost h hh)
  have hrow : (∀ h ∈ holdings, h.costBasis < moneyBound) →
      ∀ h ∈ holdings, ((∃ row, h.valuation enabled (instrument h.instrument).maxQuoteAgeSeconds now
        (quotesOf enabled fetched h.instrument) = .ok row) ↔
        ∀ q ∈ quotesOf enabled fetched h.instrument,
          h.quantity / 10 ^ 8 * q.price < moneyBound ∧
            |gainOver (h.valueAt q) h.costBasis| < ratioBound * h.costBasis) := by
    intro hcosts h hh
    cases hq : quotesOf enabled fetched h.instrument with
    | none => exact iff_of_true ⟨_, rfl⟩ (by simp)
    | some q =>
      rw [valuation_ok (hs h hh) (hcosts h hh)]
      simp
  constructor
  · rintro ⟨v, hv⟩
    unfold portfolioValuation at hv
    simp only [bind, Except.bind] at hv
    split at hv
    · cases hv
    next t ht =>
    have hsound := hsums t ht
    obtain ⟨hcost, htotal⟩ := (hanswer t hsound).1 ⟨v, hv⟩
    have hrows := hrow (fun h hh => (hsound.le_cost h hh).trans_lt hcost)
    have hvalued := foldlM_ok.1 ⟨t, ht⟩
    rw [hsound.cost, hsound.current] at htotal
    refine ⟨hsound.cost ▸ hcost, fun h hh q hq => ?_, fun h hh q hq => ?_, fun hall hne => ?_⟩
    · exact ((hrows h hh).1 (hvalued h hh) q hq).1
    · exact ((hrows h hh).1 (hvalued h hh) q hq).2
    · exact htotal (hsound.complete.2 hall) (List.length_pos_of_ne_nil hne)
  · intro hfits
    have hlast := @sumsSound (quotesOf enabled fetched) holdings hs
      { cost := decimalSum 0 (holdings.map (·.costBasis))
        current := decimalSum 0 (quotedValues (quotesOf enabled fetched) holdings)
        pricedCount := (quotedValues (quotesOf enabled fetched) holdings).length } rfl rfl rfl
    have hrows := hrow fun h hh => (hlast.le_cost h hh).trans_lt hfits.cost
    obtain ⟨t, ht⟩ := foldlM_ok.2 fun h hh =>
      (hrows h hh).2 fun q hq => ⟨hfits.worth h hh q hq, hfits.gain h hh q hq⟩
    have hsound := hsums t ht
    have htotal := hfits.total
    have hcost := hfits.cost
    rw [← hsound.cost] at hcost
    rw [← hsound.cost, ← hsound.current] at htotal
    obtain ⟨v, hv⟩ := (hanswer t hsound).2 ⟨hcost, fun hcount hn =>
      htotal (hsound.complete.1 hcount) (List.ne_nil_of_length_pos hn)⟩
    exact ⟨v, by simp only [portfolioValuation, bind, Except.bind, ht, hv]⟩

/-- Two grams of gold, and what it costs now. -/
def goldHolding : InvestmentHolding :=
  { id := 1, user := 1, instrument := 1, quantity := 2 * 10 ^ 8
    averagePurchasePrice := 100 * 10 ^ 4, fees := 500 }

/-- Gold at 120 pounds. -/
def goldQuote : MarketQuote :=
  { price := 120, priceCurrency := "EGP", unit := "gram", priceType := .spot, observedAt := 0
    source := "Gold desk", price_pos := by norm_num }

theorem portfolioValuation_gold :
    ∃ v, portfolioValuation true (some [(1, goldQuote)]) (fun _ => goldInstrument) 0
      [goldHolding] = .ok v := by
  refine (portfolioValuation_completes_iff true (some [(1, goldQuote)]) (fun _ => goldInstrument) 0
    (by decide)).2 ⟨by decide +kernel, ?_, ?_, fun _ _ => by decide +kernel⟩
  · rintro h hh q hq
    obtain rfl := List.mem_singleton.1 hh
    cases hq
    decide +kernel
  · rintro h hh q hq
    obtain rfl := List.mem_singleton.1 hh
    cases hq
    decide +kernel

/-- A holding of `10^13` units, bought at `10^13` each. -/
theorem hugeHolding_raises :
    ¬∀ (enabled : Bool) (fetched : Option MarketQuotes) (instrument : InstrumentId → QuotedInstrument)
      (now : Instant) (holdings : List InvestmentHolding), (∀ h ∈ holdings, h.Storable) →
      ∃ v, portfolioValuation enabled fetched instrument now holdings = .ok v := by
  intro h
  obtain ⟨v, hv⟩ := h false none (fun _ => goldInstrument) 0
    [{ goldHolding with quantity := 10 ^ 21, averagePurchasePrice := 10 ^ 17 }] (by decide)
  have hraises : (portfolioValuation false none (fun _ => goldInstrument) 0
      [{ goldHolding with quantity := 10 ^ 21, averagePurchasePrice := 10 ^ 17 }]).toOption.isNone :=
    by decide +kernel
  rw [hv] at hraises
  cases hraises

end NbeAdvisor
