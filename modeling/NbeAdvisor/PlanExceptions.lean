import NbeAdvisor.PlanRecalculation

/-!
# When the calculation of a plan raises

The calculation divides by the sum of the targets, and it rounds the cost of a quantity before
it compares it with the target, which raises from `10^26` on. The serializer of an edit bounds
the quantity and the price by themselves, to less than `10^16` each, so the product can have
32 digits (`hugePurchase_raises`). An edit of an accepted plan raises nothing exactly if
the sum of the targets is not zero, or there is one allocation, and the product of a quantity that
the edit gives and the price has at most 28 digits (`update_raises_nothing_iff`).
-/

namespace NbeAdvisor

open Numerals

/-! ## Errors in a row -/

theorem bind_error {α β : Type} {x : Except PlanError α} {k : α → Except PlanError β}
    {e : PlanError} : (x >>= k) = .error e ↔ x = .error e ∨ ∃ a, x = .ok a ∧ k a = .error e := by
  cases x <;> simp [bind, Except.bind]

theorem require_ne_error {p : Prop} [Decidable p] {e e' : PlanError} (he : e ≠ e') :
    require p e ≠ .error e' := by
  unfold require
  split
  · nofun
  · simpa using he

theorem require_bind_error {α : Type} {p : Prop} [Decidable p] {e e' : PlanError}
    {k : Unit → Except PlanError α} (he : e ≠ e') :
    (require p e >>= k) = .error e' ↔ p ∧ k () = .error e' := by
  rw [bind_error, or_iff_right (require_ne_error he)]
  simp only [require_eq_ok]
  constructor
  · rintro ⟨_, h⟩
    exact h
  · exact fun h => ⟨(), h⟩

theorem forM_eq_error {α : Type} {f : α → Except PlanError Unit} {e : PlanError} :
    ∀ {xs : List α}, xs.forM f = .error e → ∃ x ∈ xs, f x = .error e
  | [], h => nomatch h
  | x :: xs, h => by
    rcases bind_error.1 h with hx | ⟨_, -, hxs⟩
    · exact ⟨x, List.mem_cons_self, hx⟩
    · obtain ⟨y, hy, hfy⟩ := forM_eq_error hxs
      exact ⟨y, List.mem_cons_of_mem x hy, hfy⟩

theorem quantizeMoney_eq_error {x : ℚ} {e : PlanError} :
    quantizeMoney x = .error e ↔ ¬|quantize 2 x| < 10 ^ 26 ∧ e = .raises := by
  unfold quantizeMoney
  split
  · next h => simp [h]
  · next h => simp [h, eq_comm]

theorem nextPercentage_eq_error {ctx : ℚ → ℚ} {confirmedAmount used target : ℚ} {last : Bool}
    {e : PlanError} : nextPercentage ctx confirmedAmount used target last = .error e ↔
      last = false ∧ confirmedAmount = 0 ∧ e = .raises := by
  unfold nextPercentage
  split
  · next h => simp [h]
  · next h =>
    split
    · next h' => simp [h, h', eq_comm]
    · next h' => simp [h, h']

/-! ## The serializer -/

section Serializer

variable {ctx : ℚ → ℚ} {now : Instant} {catalogue : List CatalogueInstrument} {allow : Bool}
  {p : ScenarioPayload ℚ} {a : AllocationSnapshot ℚ}

theorem AllocationSnapshot.checkAmounts_raises {confirmedAmount : ℚ}
    (h : a.checkAmounts ctx now allow confirmedAmount = .error .raises) :
    ¬|a.cost ctx| < 10 ^ 26 := by
  obtain ⟨-, h⟩ := (require_bind_error (by simp)).1 h
  obtain ⟨-, h⟩ := (require_bind_error (by simp)).1 h
  obtain ⟨-, h⟩ := (require_bind_error (by simp)).1 h
  rcases bind_error.1 h with hcost | ⟨_, -, h⟩
  · exact (quantizeMoney_eq_error.1 hcost).1
  · obtain ⟨-, h⟩ := (require_bind_error (by simp)).1 h
    exact absurd h (require_ne_error (by simp))

theorem AllocationSnapshot.checkMetadata_raises {instruments : List CatalogueInstrument}
    (h : a.checkMetadata instruments = .error .raises) :
    ∀ i ∈ instruments, i.id ≠ a.instrumentId := by
  unfold checkMetadata at h
  split at h
  · next hnone => simpa using hnone
  · split at h <;> cases h

/-- With costs that can be rounded the serializer rejects or accepts. -/
theorem ScenarioPayload.serialize_ne_raises (hcatalogue : (catalogue.map (·.id)).Nodup)
    (hcosts : ∀ a ∈ p.allocations, |a.cost ctx| < 10 ^ 26) :
    p.serialize ctx now catalogue allow ≠ .error .raises := by
  intro h
  obtain ⟨-, h⟩ := (require_bind_error (by simp)).1 h
  rcases bind_error.1 h with h | ⟨_, -, h⟩
  · obtain ⟨-, h⟩ := (require_bind_error (by simp)).1 h
    obtain ⟨-, h⟩ := (require_bind_error (by simp)).1 h
    obtain ⟨-, h⟩ := (require_bind_error (by simp)).1 h
    obtain ⟨-, h⟩ := (require_bind_error (by simp)).1 h
    rcases bind_error.1 h with h | ⟨_, -, h⟩
    · obtain ⟨a, ha, hraises⟩ := forM_eq_error h
      exact AllocationSnapshot.checkAmounts_raises hraises (hcosts a ha)
    · obtain ⟨-, h⟩ := (require_bind_error (by simp)).1 h
      obtain ⟨-, h⟩ := (require_bind_error (by simp)).1 h
      obtain ⟨hactive, h⟩ := (require_bind_error (by simp)).1 h
      obtain ⟨a, ha, hraises⟩ := forM_eq_error h
      obtain ⟨i, hi, hid⟩ := mem_activeInstruments hcatalogue hactive
        (List.mem_map_of_mem (f := fun a => a.instrumentId) ha)
      exact AllocationSnapshot.checkMetadata_raises hraises i hi hid
  · cases h

end Serializer

/-! ## The calculation -/

section Calculation

variable {ctx : ℚ → ℚ} {now : Instant} {catalogue : List CatalogueInstrument}

/-- The cost of an allocation that comes to its rounding cannot be rounded. -/
def AllocationSnapshot.Overflows (ctx : ℚ → ℚ) (a : AllocationSnapshot ℚ) : Prop :=
  IsMultiple a.quantity a.minimumIncrement ∧ ¬|a.cost ctx| < 10 ^ 26

theorem AllocationSnapshot.Affordable.not_overflows {a : AllocationSnapshot ℚ}
    (h : a.Affordable ctx) : ¬a.Overflows ctx :=
  fun ho => ho.2 h.storable

/-- The loop raises over a zero sum, or over an overflow if no other allocation stops it before. -/
theorem recalculateAllocations_raises {confirmedAmount : ℚ} :
    ∀ {used : ℚ} {as : List (AllocationSnapshot ℚ)},
      as.Pairwise (fun a b => a.Affordable ctx ∨ b.Affordable ctx) →
        (recalculateAllocations ctx confirmedAmount used as = .error .raises ↔
          (2 ≤ as.length ∧ confirmedAmount = 0) ∨ ∃ a ∈ as, a.Overflows ctx)
  | used, [], _ => by simp [recalculateAllocations]
  | used, a :: as, hpair => by
    obtain ⟨ha, has⟩ := List.pairwise_cons.1 hpair
    have hlen : 2 ≤ (a :: as).length ↔ as.isEmpty = false := by
      cases as <;> simp
    by_cases hzero : as.isEmpty = false ∧ confirmedAmount = 0
    · rw [hlen, recalculateAllocations, bind_error, nextPercentage_eq_error]
      exact iff_of_true (Or.inl ⟨hzero.1, hzero.2, rfl⟩) (Or.inl hzero)
    have hpercentage := nextPercentage_eq_ok.2
      ⟨fun hlast hc => hzero ⟨hlast, hc⟩, rfl (a := percentageOf ctx confirmedAmount used
        (quantize 2 a.targetAmount) as.isEmpty)⟩
    have hrest : ¬(2 ≤ as.length ∧ confirmedAmount = 0) := by
      rintro ⟨h, hc⟩
      refine hzero ⟨?_, hc⟩
      cases as with
      | nil => simp at h
      | cons b as => rfl
    have ih : recalculateAllocations ctx confirmedAmount
        (ctx (used + percentageOf ctx confirmedAmount used (quantize 2 a.targetAmount) as.isEmpty))
        as = .error .raises ↔ _ := recalculateAllocations_raises has
    rw [or_iff_right hrest] at ih
    have hcons : (∃ b ∈ a :: as, b.Overflows ctx) ↔
        a.Overflows ctx ∨ ∃ b ∈ as, b.Overflows ctx := by simp
    rw [hlen, or_iff_right hzero, hcons, ← ih, recalculateAllocations, bind_error, hpercentage]
    simp only [reduceCtorEq, false_or, Except.ok.injEq, exists_eq_left']
    rw [require_bind_error (by simp), bind_error, quantizeMoney_eq_error]
    constructor
    · rintro ⟨hmultiple, ⟨hstorable, -⟩ | ⟨_, hcost, h⟩⟩
      · exact Or.inl ⟨hmultiple, hstorable⟩
      · obtain ⟨-, h⟩ := (require_bind_error (by simp)).1 h
        rcases bind_error.1 h with h | ⟨_, -, h⟩
        · exact Or.inr h
        · cases h
    · rintro (h | h)
      · exact ⟨h.1, Or.inl ⟨h.2, rfl⟩⟩
      · obtain ⟨b, hb, hoverflows⟩ := ih.1 h
        have ha' := (ha b hb).resolve_right fun h => h.not_overflows hoverflows
        refine ⟨ha'.multiple, Or.inr ⟨_, quantizeMoney_eq_ok.2 ⟨ha'.storable, rfl⟩, ?_⟩⟩
        exact (require_bind_error (by simp)).2 ⟨ha'.paid, bind_error.2 (Or.inl h)⟩

theorem recalculateSavedPayload_raises {p : ScenarioPayload ℚ}
    (hcatalogue : (catalogue.map (·.id)).Nodup)
    (hpair : p.allocations.Pairwise fun a b => a.Affordable ctx ∨ b.Affordable ctx) :
    recalculateSavedPayload ctx now catalogue p = .error .raises ↔
      (2 ≤ p.allocations.length ∧ p.sumTargets ctx = 0) ∨ ∃ a ∈ p.allocations, a.Overflows ctx := by
  rw [← @recalculateAllocations_raises ctx _ 0 p.allocations hpair]
  unfold recalculateSavedPayload
  rw [require_bind_error (by simp)]
  constructor
  · rintro ⟨-, h⟩
    rcases bind_error.1 h with h | ⟨as, has, h⟩
    · exact h
    · obtain ⟨-, hall, rfl⟩ := recalculateAllocations_eq_ok.1 has
      rcases bind_error.1 h with h | ⟨_, -, h⟩
      · refine absurd h (ScenarioPayload.serialize_ne_raises hcatalogue fun b hb => ?_)
        obtain ⟨a, ha, percentage, rfl⟩ := @ScenarioPayload.mem_recalculated ctx p _ hb
        exact (hall a ha).storable
      · cases h
  · intro h
    refine ⟨?_, bind_error.2 (Or.inl h)⟩
    rintro hnil
    rw [hnil] at h
    cases h

end Calculation

/-! ## Costs of 28 digits -/

theorem decimal28_bounds {x : ℚ} (hx : 0 ≤ x) :
    0 ≤ decimal28 x ∧ decimal28 x ≤ x * (1 + 1 / 10 ^ 27) ∧ x ≤ 2 * decimal28 x := by
  have h := near_decimal28 x
  rw [Near, abs_of_nonneg hx, abs_le] at h
  obtain ⟨h₁, h₂⟩ := h
  norm_num at h₁ h₂ ⊢
  refine ⟨?_, ?_, ?_⟩ <;> linarith

/-- Half a piaster below `10^26` is rounded up, since `10^28` is even. -/
theorem quantize_lt_iff {x : ℚ} : quantize 2 x < 10 ^ 26 ↔ x < 10 ^ 26 - 1 / 200 := by
  have hplaces : HasPlaces 2 ((10 : ℚ) ^ 26) := ⟨10 ^ 28, by norm_num⟩
  constructor
  · intro hlt
    by_contra hge
    rw [not_lt] at hge
    rcases lt_or_ge x (10 ^ 26) with hmiddle | hhuge
    · have hodd : roundHalfEven (x * 10 ^ 2) = (10 ^ 28 - 1 : ℤ) + 1 := by
        refine roundHalfEven_of_odd (by norm_num) ?_ ?_
        · push_cast
          linarith
        · push_cast
          linarith
      rw [quantize, hodd] at hlt
      norm_num at hlt
    · exact (hplaces.le_quantize hhuge).not_gt hlt
  · intro hlt
    have hstep : HasPlaces 2 ((10 : ℚ) ^ 26 - 1 / 10 ^ 2) := hplaces.sub ⟨1, by norm_num⟩
    have := hstep.quantize_le (x := x) (by norm_num at hlt ⊢; linarith)
    norm_num at this ⊢
    linarith

/-- The costs that can be rounded to piasters. -/
theorem storable_iff {x : ℚ} (hx : 0 ≤ x) :
    |quantize 2 (decimal28 x)| < 10 ^ 26 ↔ x < 10 ^ 26 - 1 / 200 := by
  obtain ⟨hpos, hle, -⟩ := decimal28_bounds hx
  rw [abs_of_nonneg (quantize_nonneg hpos)]
  rcases lt_or_ge x (10 ^ 25) with hsmall | hlarge
  · rw [quantize_lt_iff]
    norm_num at hle hsmall ⊢
    exact iff_of_true (by linarith) (by linarith)
  have hx₀ : 0 < x := lt_of_lt_of_le (by norm_num) hlarge
  rcases lt_or_ge x (10 ^ 26) with hmiddle | hhuge
  · have hlog : Int.log 10 |x| = ((28 : ℕ) - 1 : ℤ) - (2 : ℕ) := by
      rw [abs_of_pos hx₀]
      refine le_antisymm (Int.lt_add_one_iff.1 ((Int.lt_zpow_iff_log_lt (by norm_num) hx₀).1 ?_))
        ((Int.zpow_le_iff_le_log (by norm_num) hx₀).1 ?_)
      · exact_mod_cast hmiddle
      · exact_mod_cast hlarge
    have hdigits : decimal28 x = quantize 2 x := significant_eq_quantize hlog
    rw [hdigits, (hasPlaces_quantize 2 x).quantize_eq, quantize_lt_iff]
  · have hlog : (26 : ℤ) ≤ Int.log 10 x := by
      refine (Int.zpow_le_iff_le_log (by norm_num) hx₀).1 ?_
      exact_mod_cast hhuge
    have hdigits : (10 : ℚ) ^ 26 ≤ decimal28 x := by
      calc (10 : ℚ) ^ 26 = ((10 : ℕ) : ℚ) ^ (26 : ℤ) := by norm_num
        _ ≤ ((10 : ℕ) : ℚ) ^ Int.log 10 x := zpow_le_zpow_right₀ (by norm_num) hlog
        _ ≤ decimal28 x := zpow_log_le_significant (by norm_num) (by norm_num) hx₀
    rw [quantize_lt_iff]
    exact iff_of_false (by linarith) (by linarith)

/-- The whole increments that an amount pays, up to the rounding of three operations. -/
theorem wholeSteps_decimal28 {amount price increment : ℚ} (hamount : 0 ≤ amount)
    (hprice : 0 < price) (hincrement : 0 < increment) :
    0 ≤ wholeSteps decimal28 amount price increment ∧
      wholeSteps decimal28 amount price increment * price ≤ amount * (1 + 1 / 10 ^ 27) ^ 3 := by
  have hδ : (0 : ℚ) ≤ 1 + 1 / 10 ^ 27 := by norm_num
  obtain ⟨h₁, hle₁, -⟩ := decimal28_bounds (div_nonneg hamount hprice.le)
  obtain ⟨h₂, hle₂, -⟩ := decimal28_bounds (div_nonneg h₁ hincrement.le)
  have hfloor : (0 : ℚ) ≤ ⌊decimal28 (decimal28 (amount / price) / increment)⌋ :=
    Int.cast_nonneg (Int.floor_nonneg.2 h₂)
  obtain ⟨h₃, hle₃, -⟩ := decimal28_bounds (mul_nonneg hfloor hincrement.le)
  refine ⟨h₃, ?_⟩
  calc wholeSteps decimal28 amount price increment * price
      ≤ ⌊decimal28 (decimal28 (amount / price) / increment)⌋ * increment * (1 + 1 / 10 ^ 27) *
          price := mul_le_mul_of_nonneg_right hle₃ hprice.le
    _ ≤ decimal28 (amount / price) / increment * (1 + 1 / 10 ^ 27) * increment *
          (1 + 1 / 10 ^ 27) * price := by
        have := (Int.floor_le (decimal28 (decimal28 (amount / price) / increment))).trans hle₂
        gcongr
    _ = decimal28 (amount / price) * price * (1 + 1 / 10 ^ 27) ^ 2 := by field_simp
    _ ≤ amount / price * (1 + 1 / 10 ^ 27) * price * (1 + 1 / 10 ^ 27) ^ 2 := by gcongr
    _ = amount * (1 + 1 / 10 ^ 27) ^ 3 := by field_simp

/-- A quantity of whole increments whose product has few digits is a multiple. -/
theorem isMultiple_wholeSteps {amount price increment : ℚ} (hamount : 0 ≤ amount)
    (hprice : 0 < price) (hincrement : 0 < increment) (hplaces : HasPlaces 8 increment)
    (hlt : wholeSteps decimal28 amount price increment < 10 ^ 16) :
    IsMultiple (wholeSteps decimal28 amount price increment) increment := by
  have h₁ := (decimal28_bounds (div_nonneg hamount hprice.le)).1
  have h₂ := (decimal28_bounds (div_nonneg h₁ hincrement.le)).1
  have hfloor : (0 : ℚ) ≤ ⌊decimal28 (decimal28 (amount / price) / increment)⌋ :=
    Int.cast_nonneg (Int.floor_nonneg.2 h₂)
  have hpos := mul_nonneg hfloor hincrement.le
  obtain ⟨-, -, hle⟩ := decimal28_bounds hpos
  have hexact : wholeSteps decimal28 amount price increment =
      ⌊decimal28 (decimal28 (amount / price) / increment)⌋ * increment := by
    refine ((HasPlaces.intCast 0 _).mul hplaces).significant_eq (k := 20) ?_ (by norm_num)
      (by norm_num)
    rw [abs_of_nonneg hpos]
    refine hle.trans ?_
    have : 2 * wholeSteps decimal28 amount price increment ≤ 2 * 10 ^ 16 := by linarith
    exact this.trans (by norm_num)
  rw [hexact, IsMultiple, mul_div_cancel_right₀ _ hincrement.ne', Rat.den_intCast]

/-- What the serializer lets through passes the loop. -/
theorem AllocationSnapshot.AmountsFit.affordable {now : Instant} {allow : Bool}
    {confirmedAmount : ℚ} {a : AllocationSnapshot ℚ}
    (h : a.AmountsFit decimal28 now allow confirmedAmount) (hfit : a.FieldsFit) :
    a.Affordable decimal28 := by
  obtain ⟨hprice, hincrement⟩ := hfit.pos
  have htarget := hfit.targetAmount
  have hquantity := hfit.quantity
  obtain ⟨-, hsteps⟩ := wholeSteps_decimal28 htarget.2.1 hprice hincrement
  have hle : a.quantity ≤ wholeSteps decimal28 a.targetAmount a.unitPrice a.minimumIncrement := by
    rcases h.quantity with heq | ⟨-, hle, -⟩
    · exact heq.le
    · exact hle
  obtain ⟨hcost, hcost', -⟩ := decimal28_bounds (mul_nonneg hquantity.2.1 hprice.le)
  have hpaid : a.cost decimal28 ≤ a.targetAmount := by
    refine htarget.hasPlaces.quantize_le ?_
    have hproduct := (mul_le_mul_of_nonneg_right hle hprice.le).trans hsteps
    have hlt := (le_abs_self _).trans_lt htarget.abs_lt
    have hpos := htarget.2.1
    norm_num at hcost' hproduct hlt hpos ⊢
    linarith
  refine ⟨?_, ?_, by rwa [htarget.hasPlaces.quantize_eq]⟩
  · rcases h.quantity with heq | ⟨-, -, hmultiple⟩
    · have hlt := (le_abs_self _).trans_lt hquantity.abs_lt
      rw [heq] at hlt ⊢
      exact isMultiple_wholeSteps htarget.2.1 hprice hincrement hfit.minimumIncrement.hasPlaces
        (by norm_num at hlt ⊢; exact hlt)
    · exact hmultiple
  · rw [AllocationSnapshot.cost, abs_of_nonneg (quantize_nonneg hcost)]
    have hlt := (le_abs_self _).trans_lt htarget.abs_lt
    exact (hpaid.trans_lt hlt).trans (by norm_num)

/-! ## Edits -/

section Edits

variable {now now₀ : Instant} {catalogue₀ : List CatalogueInstrument} {allow : Bool}
  {p : ScenarioPayload ℚ} {c : AllocationChanges} {x : InstrumentId} {a : AllocationSnapshot ℚ}

/-- Among what an edit leaves, only a quantity that it gives can overflow. -/
theorem AllocationSnapshot.overflows_edit {confirmedAmount : ℚ}
    (h : a.AmountsFit decimal28 now₀ allow confirmedAmount) (hfit : a.FieldsFit)
    (hc : c.FieldsFit) : (a.edit decimal28 now c).Overflows decimal28 ↔
      ∃ k ∈ c.quantity, IsMultiple k a.minimumIncrement ∧
        ¬k * c.unitPrice.getD a.unitPrice < 10 ^ 26 - 1 / 200 := by
  obtain ⟨hprice₀, hincrement⟩ := hfit.pos
  have hprice : 0 < c.unitPrice.getD a.unitPrice := by
    cases hu : c.unitPrice with
    | none => exact hprice₀
    | some u =>
      have := (hc.2.2 u hu).2.1
      norm_num at this
      exact lt_of_lt_of_le (by norm_num) this
  have htarget : 0 ≤ c.targetAmount.getD a.targetAmount ∧
      c.targetAmount.getD a.targetAmount < 10 ^ 12 := by
    cases ht : c.targetAmount with
    | none => exact ⟨hfit.targetAmount.2.1, (le_abs_self _).trans_lt hfit.targetAmount.abs_lt⟩
    | some t =>
      have := (hc.1 t ht).2.1
      norm_num at this
      exact ⟨le_trans (by norm_num) this, (le_abs_self _).trans_lt (hc.1 t ht).abs_lt⟩
  cases hquantity : c.quantity with
  | some k =>
    have hk : 0 ≤ k := le_trans (by norm_num) (hc.2.1 k hquantity).2.1
    simp only [Overflows, cost, edit, hquantity, Option.mem_def, Option.some.injEq,
      exists_eq_left', storable_iff (mul_nonneg hk hprice.le)]
  | none =>
    refine iff_of_false (fun ho => ?_) (by simp)
    by_cases hgiven : c.targetAmount.isSome ∨ c.unitPrice.isSome
    · obtain ⟨hsteps, hle⟩ := wholeSteps_decimal28 htarget.1 hprice hincrement
      refine ho.2 ?_
      simp only [cost, edit, hquantity, if_pos hgiven]
      rw [storable_iff (mul_nonneg hsteps hprice.le)]
      have := htarget.2
      norm_num at hle this ⊢
      linarith
    · rw [not_or, Option.not_isSome_iff_eq_none, Option.not_isSome_iff_eq_none] at hgiven
      refine (h.affordable hfit).not_overflows ?_
      simpa [Overflows, cost, edit, hquantity, hgiven.1, hgiven.2] using ho

theorem ScenarioPayload.Accepted.affordable (h : p.Accepted decimal28 now₀ catalogue₀ allow)
    (ha : a ∈ p.allocations) : a.Affordable decimal28 :=
  (h.amounts a ha).affordable (h.fieldsFit.allocations a ha)

/-- All but the edited allocation pass the loop. -/
theorem ScenarioPayload.Accepted.pairwise_edited (h : p.Accepted decimal28 now₀ catalogue₀ allow) :
    (p.edited decimal28 now x c).allocations.Pairwise fun a b =>
      a.Affordable decimal28 ∨ b.Affordable decimal28 := by
  have hids : (p.edited decimal28 now x c).instrumentIds = p.instrumentIds :=
    Keyed.map_pk_modify fun a ha => ha
  have hnodup := h.nodup
  rw [← hids, instrumentIds, List.Nodup, List.pairwise_map] at hnodup
  have hother : ∀ b ∈ (p.edited decimal28 now x c).allocations, b.instrumentId ≠ x →
      b.Affordable decimal28 := by
    intro b hb hbx
    rcases Keyed.mem_modify.1 hb with ⟨hb, -⟩ | ⟨a, -, ha, rfl⟩
    · exact h.affordable hb
    · exact absurd ha hbx
  refine hnodup.imp_of_mem fun {a b} ha hb hne => ?_
  by_cases hax : a.instrumentId = x
  · exact Or.inr (hother b hb fun hbx => hne (hax.trans hbx.symm))
  · exact Or.inl (hother a ha hax)

theorem ScenarioPayload.Accepted.exists_overflows
    (h : p.Accepted decimal28 now₀ catalogue₀ allow) (hc : c.FieldsFit) :
    (∃ b ∈ (p.edited decimal28 now x c).allocations, b.Overflows decimal28) ↔
      ∃ a ∈ p.allocations, a.instrumentId = x ∧ ∃ k ∈ c.quantity,
        IsMultiple k a.minimumIncrement ∧
          ¬k * c.unitPrice.getD a.unitPrice < 10 ^ 26 - 1 / 200 := by
  constructor
  · rintro ⟨b, hb, ho⟩
    rcases Keyed.mem_modify.1 hb with ⟨hb, -⟩ | ⟨a, ha, hax, rfl⟩
    · exact absurd ho (h.affordable hb).not_overflows
    · exact ⟨a, ha, hax, (AllocationSnapshot.overflows_edit (h.amounts a ha)
        (h.fieldsFit.allocations a ha) hc).1 ho⟩
  · rintro ⟨a, ha, hax, hk⟩
    exact ⟨_, Keyed.mem_modify.2 (Or.inr ⟨a, ha, hax, rfl⟩),
      (AllocationSnapshot.overflows_edit (h.amounts a ha) (h.fieldsFit.allocations a ha) hc).2 hk⟩

theorem ScenarioPayload.sumTargets_eq_zero (hlen : p.allocations.length ≤ 3)
    (h : ∀ a ∈ p.allocations,
      HasPlaces 2 a.targetAmount ∧ 0 ≤ a.targetAmount ∧ a.targetAmount ≤ 10 ^ 12) :
    p.sumTargets decimal28 = 0 ↔ ∀ a ∈ p.allocations, a.targetAmount = 0 := by
  rw [sumTargets_eq_sum hlen h]
  constructor
  · intro hsum a ha
    exact List.all_zero_of_le_zero_le_of_sum_eq_zero (by simpa using fun a ha => (h a ha).2.1) hsum
      (List.mem_map_of_mem ha)
  · intro hzero
    refine List.sum_eq_zero fun t ht => ?_
    obtain ⟨a, ha, rfl⟩ := List.mem_map.1 ht
    exact hzero a ha

/-- The sum of the targets after an edit is zero if they were zero and none is given. -/
theorem ScenarioPayload.Accepted.sumTargets_edited_eq_zero
    (h : p.Accepted decimal28 now₀ catalogue₀ allow) (hc : c.FieldsFit) (ha : a ∈ p.allocations)
    (hax : a.instrumentId = x) : (p.edited decimal28 now x c).sumTargets decimal28 = 0 ↔
      c.targetAmount = none ∧ ∀ b ∈ p.allocations, b.targetAmount = 0 := by
  have hamount : ∀ b ∈ (p.edited decimal28 now x c).allocations, HasPlaces 2 b.targetAmount ∧
      0 ≤ b.targetAmount ∧ b.targetAmount ≤ 10 ^ 12 := by
    intro b hb
    rcases Keyed.mem_modify.1 hb with ⟨hb, -⟩ | ⟨d, hd, -, rfl⟩
    · exact (h.fieldsFit.allocations b hb).targetAmount.amount
    · simp only [AllocationSnapshot.edit]
      cases ht : c.targetAmount with
      | none => exact (h.fieldsFit.allocations d hd).targetAmount.amount
      | some t =>
        have hle : 0 ≤ t := le_trans (by norm_num) (hc.1 t ht).2.1
        exact ⟨(hc.1 t ht).hasPlaces, hle, (le_abs_self t).trans (hc.1 t ht).abs_lt.le⟩
  rw [sumTargets_eq_zero (by simpa [edited, Keyed.modify] using h.fieldsFit.length.2) hamount]
  constructor
  · intro hzero
    have hnone : c.targetAmount = none := by
      have hedit := hzero _ (Keyed.mem_modify.2 (Or.inr ⟨a, ha, hax, rfl⟩))
      cases ht : c.targetAmount with
      | none => rfl
      | some t =>
        have hpos := (hc.1 t ht).2.1
        simp only [AllocationSnapshot.edit, ht, Option.getD_some] at hedit
        rw [hedit] at hpos
        norm_num at hpos
    refine ⟨hnone, fun b hb => ?_⟩
    by_cases hbx : b.instrumentId = x
    · have hedit := hzero _ (Keyed.mem_modify.2 (Or.inr ⟨b, hb, hbx, rfl⟩))
      simpa [AllocationSnapshot.edit, hnone] using hedit
    · exact hzero b (Keyed.mem_modify.2 (Or.inl ⟨hb, hbx⟩))
  · rintro ⟨hnone, hzero⟩ b hb
    rcases Keyed.mem_modify.1 hb with ⟨hb, -⟩ | ⟨d, hd, -, rfl⟩
    · exact hzero b hb
    · simpa [AllocationSnapshot.edit, hnone] using hzero d hd

end Edits

/-- An edit of an accepted plan raises nothing but what a validation raises exactly if, of the
allocation that it is about, a quantity that it gives costs less than `10^26` pounds, to the nearest
piaster, and the sum of several targets is not zero. -/
theorem update_raises_nothing_iff {now₀ : Instant} {catalogue₀ : List CatalogueInstrument}
    {allow : Bool} {p : ScenarioPayload Double} {c : AllocationChanges}
    (hp : p.ofJson.serialize decimal28 now₀ catalogue₀ allow = .ok p.ofJson) (hc : c.FieldsFit)
    {catalogue : List CatalogueInstrument} (hcatalogue : (catalogue.map (·.id)).Nodup)
    (now : Instant) (x : InstrumentId) :
    updateSavedAllocation decimal28 now catalogue p x c ≠ .error .raises ↔
      ∀ a ∈ p.ofJson.allocations, a.instrumentId = x →
        (2 ≤ p.allocations.length →
          c.targetAmount ≠ none ∨ ∃ b ∈ p.ofJson.allocations, b.targetAmount ≠ 0) ∧
        ∀ k ∈ c.quantity, IsMultiple k a.minimumIncrement →
          k * c.unitPrice.getD a.unitPrice < 10 ^ 26 - 1 / 200 := by
  have h := (ScenarioPayload.serialize_iff.1 hp).2
  have hlen : (p.ofJson.edited decimal28 now x c).allocations.length = p.allocations.length := by
    simp [ScenarioPayload.edited, ScenarioPayload.ofJson, ScenarioPayload.map, Keyed.modify]
  have hraises : updateSavedAllocation decimal28 now catalogue p x c = .error .raises ↔
      x ∈ p.instrumentIds ∧ ((2 ≤ p.allocations.length ∧
        (p.ofJson.edited decimal28 now x c).sumTargets decimal28 = 0) ∨
        ∃ b ∈ (p.ofJson.edited decimal28 now x c).allocations, b.Overflows decimal28) := by
    rw [← hlen, ← recalculateSavedPayload_raises hcatalogue h.pairwise_edited]
    exact require_bind_error (by simp [notInPlan])
  rw [Ne, hraises, h.exists_overflows hc]
  constructor
  · intro hno a ha hax
    have hx : x ∈ p.instrumentIds := by
      rw [← p.instrumentIds_ofJson]
      exact List.mem_map.2 ⟨a, ha, hax⟩
    have hzero : (p.ofJson.edited decimal28 now x c).sumTargets decimal28 = 0 ↔ _ :=
      h.sumTargets_edited_eq_zero hc ha hax
    refine ⟨fun h₂ => ?_, fun k hk hmultiple => ?_⟩
    · by_contra hnone
      push Not at hnone
      exact hno ⟨hx, Or.inl ⟨h₂, hzero.2 hnone⟩⟩
    · by_contra hge
      exact hno ⟨hx, Or.inr ⟨a, ha, hax, k, hk, hmultiple, hge⟩⟩
  · rintro hall ⟨hx, ⟨h₂, hsum⟩ | ⟨a, ha, hax, k, hk, hmultiple, hge⟩⟩
    · rw [← p.instrumentIds_ofJson] at hx
      obtain ⟨a, ha, hax⟩ := List.mem_map.1 hx
      obtain ⟨hnone, hzero⟩ := (h.sumTargets_edited_eq_zero hc ha hax).1 hsum
      rcases (hall a ha hax).1 h₂ with hgiven | ⟨b, hb, hne⟩
      · exact hgiven hnone
      · exact hne (hzero b hb)
    · exact hge ((hall a ha hax).2 k hk hmultiple)

/-- A price that the serializer of an edit lets through and no plan could have. -/
def hugePurchase : AllocationChanges :=
  { quantity := some (10 ^ 16 - 1), unitPrice := some (10 ^ 16 - 1) }

/-- Two allocations of nothing, of a confirmed amount of two piasters. -/
def emptyTargets : ScenarioPayload ℚ :=
  { PlanStore.twoParts (PlanStore.goldPart 50 0 0) (PlanStore.fundPart 50 0 0) with
    confirmedAmount := 2 / 100, totalAllocated := 0, totalRemainder := 2 / 100 }

/-- The product of a quantity and a price has too many digits, and a new price divides zero by
zero. -/
theorem hugePurchase_raises :
    hugePurchase.FieldsFit ∧
      PlanStore.moreFund.toJson.ofJson.serialize decimal28 0 [PlanStore.gold, PlanStore.fund] false =
        .ok PlanStore.moreFund.toJson.ofJson ∧
      updateSavedAllocation decimal28 1 [PlanStore.gold, PlanStore.fund] PlanStore.moreFund.toJson 1
        hugePurchase = .error .raises ∧
      emptyTargets.toJson.ofJson.serialize decimal28 0 [PlanStore.gold, PlanStore.fund] false =
        .ok emptyTargets.toJson.ofJson ∧
      updateSavedAllocation decimal28 1 [PlanStore.gold, PlanStore.fund] emptyTargets.toJson 1
        { unitPrice := some 90 } = .error .raises := by
  decide +kernel

/-- A quantity that the target pays. -/
theorem moreFund_raises_nothing :
    updateSavedAllocation decimal28 1 [PlanStore.gold, PlanStore.fund] PlanStore.moreFund.toJson 1
      { quantity := some 7 } ≠ .error .raises :=
  (@update_raises_nothing_iff 0 [PlanStore.gold, PlanStore.fund] false PlanStore.moreFund.toJson
    { quantity := some 7 } (by decide +kernel) (by decide +kernel)
    [PlanStore.gold, PlanStore.fund] (by decide +kernel) 1 1).2 (by decide +kernel)

end NbeAdvisor
