import NbeAdvisor.BudgetProgress

/-!
# Progress towards a savings goal

`SavingsProgressView` sets what has been saved since the goal was created against its target, and
carries the pace so far on to the day on which the target is reached. Neither the sign of the target
nor the dates are bounded by the serializers. The computation comes through with a percentage from
0 to 100 exactly if the target is not negative, or so far below zero that the percentage is rounded
away, and the deadline and the projected day are not after 9999-12-31 (`progress_sound_iff`).
-/

namespace NbeAdvisor

open Numerals

/-- The body of `GoalInputSerializer`. -/
structure GoalInput where
  name : String
  targetAmount : ℚ
  targetMonths : ℤ
  deriving DecidableEq

/-- The body of `GoalUpdateSerializer`, in which a field that is absent stays. -/
structure GoalUpdate where
  name : Option String := none
  targetAmount : Option ℚ := none
  targetMonths : Option ℤ := none
  deriving DecidableEq

/-- A goal, with the day on which it was created. -/
structure Goal where
  name : String
  targetAmount : Numeric 14 2
  timelineMonths : ℤ
  createdAt : Date
  deriving DecidableEq

namespace Goal

/-- What the serializers let through : the target has any sign, and the months no upper bound. -/
def Accepted (g : Goal) : Prop := CharFits 255 g.name ∧ 1 ≤ g.timelineMonths

instance (g : Goal) : Decidable g.Accepted := by
  unfold Accepted
  infer_instance

end Goal

/-- `GoalView.post`, for a user without a goal. -/
def GoalInput.create (createdAt : Date) (i : GoalInput) : Option Goal := do
  let targetAmount ← Numeric.ofRat? 14 2 i.targetAmount
  if CharFits 255 i.name ∧ 1 ≤ i.targetMonths then
    return { name := i.name, targetAmount, timelineMonths := i.targetMonths, createdAt }
  else none

/-- `GoalView.patch`. -/
def Goal.update (g : Goal) (u : GoalUpdate) : Option Goal := do
  let targetAmount ← Numeric.ofRat? 14 2 (u.targetAmount.getD g.targetAmount.value)
  if (∀ s ∈ u.name, CharFits 255 s) ∧ ∀ m ∈ u.targetMonths, 1 ≤ m then
    return { g with
      name := u.name.getD g.name, targetAmount
      timelineMonths := u.targetMonths.getD g.timelineMonths }
  else none

theorem GoalInput.create_accepted {createdAt : Date} {i : GoalInput} {g : Goal}
    (h : i.create createdAt = some g) : g.Accepted := by
  obtain ⟨targetAmount, -, h⟩ := Option.bind_eq_some_iff.1 h
  split at h
  · next hvalid =>
    cases h
    exact hvalid
  · cases h

theorem Goal.update_accepted {g g' : Goal} {u : GoalUpdate} (hg : g.Accepted)
    (h : g.update u = some g') : g'.Accepted := by
  obtain ⟨targetAmount, -, h⟩ := Option.bind_eq_some_iff.1 h
  split at h
  · next hvalid =>
    cases h
    obtain ⟨hname, hmonths⟩ := hvalid
    refine ⟨?_, ?_⟩
    · cases hu : u.name with
      | none => exact hg.1
      | some s => exact hname s hu
    · cases hu : u.targetMonths with
      | none => exact hg.2
      | some m => exact hmonths m hu
  · cases h

/-- The goals that a user can have : one is created, and then edited any number of times. -/
inductive Goal.Reachable (createdAt : Date) : Goal → Prop where
  | created {i : GoalInput} {g : Goal} : i.create createdAt = some g → Reachable createdAt g
  | updated {g g' : Goal} {u : GoalUpdate} : Reachable createdAt g → g.update u = some g' →
      Reachable createdAt g'

/-- Every goal of the table has passed what the serializers check. -/
theorem Goal.Reachable.accepted {createdAt : Date} {g : Goal} (h : Goal.Reachable createdAt g) :
    g.Accepted := by
  induction h with
  | created hi => exact GoalInput.create_accepted hi
  | updated _ hu ih => exact Goal.update_accepted ih hu

/-! ## The computation -/

/-- `_months_elapsed`. -/
def monthsElapsed (startDate endDate : Date) : ℤ :=
  ((endDate.year : ℤ) - startDate.year) * 12 + (endDate.month - startDate.month)

/-- `_saved_so_far` : the net inflow since a day, and never less than zero. -/
def savedSoFar (L : Ledger) (user : UserId) (since : Date) : ℤ :=
  let txns := (L.ofUser user).filter fun t => since ≤ t.transactionDate
  let inflow := totalAmount (txns.filter fun t => t.transactionType = some "credit")
  let outflow := totalAmount (txns.filter fun t => t.isSpend)
  max 0 (inflow - outflow)

namespace Goal

variable (g : Goal) (today : Date)

/-- `_months_remaining`. -/
def monthsRemaining : ℤ := max 0 (g.timelineMonths - monthsElapsed g.createdAt today)

/-- `float(min(Decimal("100"), saved / target * 100)) if target else 0.0`. -/
def percentageComplete (saved : ℤ) : Double :=
  if g.targetAmount.value ≠ 0 then
    Double.ofRat (min 100 (decimal28 (decimal28 ((saved : ℚ) / 100 / g.targetAmount.value) * 100)))
  else Double.ofRat 0

/-- `monthly_rate`. -/
def monthlyRate (saved : ℤ) : ℚ :=
  decimal28 ((saved : ℚ) / 100 / max 1 (monthsElapsed g.createdAt today))

/-- `round(months_needed * 30)`. -/
def daysNeeded (saved : ℤ) : ℤ :=
  let monthsNeeded := Double.ofRat
    (decimal28 (decimal28 (g.targetAmount.value - saved / 100) / g.monthlyRate today saved))
  roundHalfEven (Double.ofRat (monthsNeeded.value * 30)).value

/-- `projected_completion_date`; the outer option is `none` where a date is out of range. -/
def projectedCompletionDate (saved : ℤ) : Option (Option Date) :=
  if g.targetAmount.value ≤ saved / 100 then some (some today)
  else if 0 < g.monthlyRate today saved then (today.addDays (g.daysNeeded today saved)).map some
  else some none

/-- `deadline`. -/
def deadline : Option Date := g.createdAt.addDays (g.timelineMonths * 30)

end Goal

/-- What `SavingsProgressView.get` answers. -/
structure SavingsProgress where
  name : String
  targetAmount : Numeric 14 2
  monthsRemaining : ℤ
  savedSoFar : ℤ
  percentageComplete : Double
  projectedCompletionDate : Option Date
  onTrack : Bool
  deriving DecidableEq

/-- What `_goal_progress` returns. -/
structure GoalProgress where
  name : String
  targetAmount : Numeric 14 2
  monthsRemaining : ℤ
  percentageComplete : Double
  deriving DecidableEq

namespace Goal

variable (L : Ledger) (user : UserId) (today : Date) (g : Goal)

/-- `SavingsProgressView.get`, for a user with a goal; `none` where it raises `OverflowError`. -/
def savingsProgress : Option SavingsProgress := do
  let saved := NbeAdvisor.savedSoFar L user g.createdAt
  let projected ← g.projectedCompletionDate today saved
  let deadline ← g.deadline
  return {
    name := g.name
    targetAmount := g.targetAmount
    monthsRemaining := g.monthsRemaining today
    savedSoFar := saved
    percentageComplete := (g.percentageComplete saved).round 2
    projectedCompletionDate := projected
    onTrack := projected.any (· ≤ deadline) }

/-- `_goal_progress`. -/
def progress : GoalProgress :=
  { name := g.name
    targetAmount := g.targetAmount
    monthsRemaining := g.monthsRemaining today
    percentageComplete :=
      (g.percentageComplete (NbeAdvisor.savedSoFar L user g.createdAt)).round 2 }

end Goal

/-! ## The percentage -/

namespace Goal

variable {g : Goal} {saved : ℤ}

/-- From 0 to 100. -/
def IsPercentage (f : Double) : Prop := 0 ≤ f.value ∧ f.value ≤ 100

theorem isPercentage_ofRat {x : ℚ} (h₀ : 0 ≤ x) (h : x ≤ 100) : IsPercentage (Double.ofRat x) := by
  refine ⟨(significant_nonneg_iff (by norm_num) (by norm_num)).2 h₀, ?_⟩
  have hle := significant_le (b := 2) (p := 53) (m := 100) (k := 0) (by norm_num) (by norm_num)
    (by norm_num) h₀ (by norm_num; exact h)
  norm_num at hle
  exact hle

theorem isPercentage_round {f : Double} (h : IsPercentage f) : IsPercentage (f.round 2) := by
  refine isPercentage_ofRat (quantize_nonneg h.1) ?_
  have hplaces : HasPlaces 2 (100 : ℚ) := by exact_mod_cast HasPlaces.intCast (K := ℚ) 2 100
  exact hplaces.quantize_le (h.2.trans_lt (by norm_num))

/-- A percentage is off by less than its last digits. -/
theorem near_percentage (q : ℚ) :
    Near (1 / 2 ^ 52) (q * 100) (Double.ofRat (decimal28 (decimal28 q * 100))).value := by
  have hquotient : Near _ (q * 100) (decimal28 q * 100) := (near_decimal28 q).mul_right 100
  have hdecimal := hquotient.trans (near_decimal28 _) (by norm_num)
  exact (hdecimal.trans (Double.near_ofRat _) (by norm_num)).mono (by norm_num)

theorem value_div (saved : ℤ) :
    (saved : ℚ) / 100 / g.targetAmount.value = saved / g.targetAmount.coeff := by
  have hvalue : g.targetAmount.value = g.targetAmount.coeff / 100 := by
    rw [Numeric.value]
    norm_num
  rw [hvalue]
  by_cases hzero : g.targetAmount.coeff = 0
  · simp [hzero]
  · have : (g.targetAmount.coeff : ℚ) ≠ 0 := by exact_mod_cast hzero
    field_simp

theorem value_ne_zero_iff : g.targetAmount.value ≠ 0 ↔ g.targetAmount.coeff ≠ 0 := by
  rw [Numeric.value, Ne, div_eq_zero_iff]
  norm_num

theorem isPercentage_of_nonneg (hsaved : 0 ≤ saved) (htarget : 0 ≤ g.targetAmount.coeff) :
    IsPercentage ((g.percentageComplete saved).round 2) := by
  refine isPercentage_round ?_
  unfold percentageComplete
  split
  · have hdiv : (0 : ℚ) ≤ saved / g.targetAmount.coeff :=
      div_nonneg (by exact_mod_cast hsaved) (by exact_mod_cast htarget)
    rw [value_div]
    refine isPercentage_ofRat (le_min (by norm_num) ?_) (min_le_left _ _)
    rw [significant_nonneg_iff (by norm_num) (by norm_num)]
    exact mul_nonneg ((significant_nonneg_iff (by norm_num) (by norm_num)).2 hdiv) (by norm_num)
  · exact isPercentage_ofRat le_rfl (by norm_num)

/-- Below zero, a percentage of less than half of the last place is rounded to zero. -/
theorem isPercentage_round_iff {f : Double} (hf : f.value ≤ 0) :
    IsPercentage (f.round 2) ↔ -(1 / 200) ≤ f.value := by
  have hquantize : quantize 2 f.value ≤ 0 := (HasPlaces.zero 2).quantize_le (by linarith)
  have hle : (f.round 2).value ≤ 100 :=
    (significant_nonpos (by norm_num) (by norm_num) hquantize).trans (by norm_num)
  rw [IsPercentage, and_iff_left hle]
  change 0 ≤ significant 2 53 (quantize 2 f.value) ↔ _
  rw [significant_nonneg_iff (by norm_num) (by norm_num), quantize, le_div_iff₀ (by positivity),
    zero_mul, Int.cast_nonneg_iff, roundHalfEven_nonneg_iff]
  constructor
  · intro h
    linarith
  · intro h
    linarith

theorem percentageComplete_of_neg (hsaved : 0 ≤ saved) (htarget : g.targetAmount.coeff < 0) :
    g.percentageComplete saved =
        Double.ofRat (decimal28 (decimal28 (saved / g.targetAmount.coeff : ℚ) * 100)) ∧
      (g.percentageComplete saved).value ≤ 0 := by
  have hdiv : (saved / g.targetAmount.coeff : ℚ) ≤ 0 :=
    div_nonpos_of_nonneg_of_nonpos (by exact_mod_cast hsaved) (by exact_mod_cast htarget.le)
  have hle : decimal28 (decimal28 (saved / g.targetAmount.coeff : ℚ) * 100) ≤ 0 := by
    refine significant_nonpos (by norm_num) (by norm_num) ?_
    have := significant_nonpos (b := 10) (p := 28) (by norm_num) (by norm_num) hdiv
    linarith
  have hcomplete : g.percentageComplete saved =
      Double.ofRat (decimal28 (decimal28 (saved / g.targetAmount.coeff : ℚ) * 100)) := by
    rw [percentageComplete, if_pos (value_ne_zero_iff.2 htarget.ne), value_div,
      min_eq_right (hle.trans (by norm_num))]
  refine ⟨hcomplete, ?_⟩
  rw [hcomplete]
  exact significant_nonpos (by norm_num) (by norm_num) hle

theorem isPercentage_of_neg (hsaved : 0 ≤ saved) (htarget : g.targetAmount.coeff < 0) :
    IsPercentage ((g.percentageComplete saved).round 2) ↔
      20000 * saved < -g.targetAmount.coeff := by
  obtain ⟨hcomplete, hf⟩ := percentageComplete_of_neg hsaved htarget
  rw [isPercentage_round_iff hf, hcomplete]
  have hfits := (abs_lt.1 g.targetAmount.fits).1
  have hneg : (g.targetAmount.coeff : ℚ) < 0 := by exact_mod_cast htarget
  have hfits' : -(10 : ℚ) ^ 14 < g.targetAmount.coeff := by exact_mod_cast hfits
  obtain ⟨q, hq⟩ : ∃ q : ℚ, q = saved / g.targetAmount.coeff := ⟨_, rfl⟩
  rw [← hq]
  have hq₀ : q ≤ 0 := hq ▸ div_nonpos_of_nonneg_of_nonpos (by exact_mod_cast hsaved) hneg.le
  have hnear := near_percentage q
  rw [Near, abs_of_nonpos (by linarith : q * 100 ≤ 0), abs_le] at hnear
  rcases lt_trichotomy (20000 * saved) (-g.targetAmount.coeff) with hlt | heq | hgt
  · refine iff_of_true ?_ hlt
    have hgap : (20000 : ℚ) * saved + 1 ≤ -g.targetAmount.coeff := by exact_mod_cast hlt
    have hq' : -(1 / 20000) * (1 - 1 / 10 ^ 14) ≤ q := by
      rw [hq, le_div_iff_of_neg hneg]
      norm_num at hfits' ⊢
      linarith
    norm_num at hq' hnear ⊢
    linarith [hnear.1]
  · refine iff_of_false (fun h => ?_) (by omega)
    have hq' : q = -1 / 20000 := by
      have hc : (g.targetAmount.coeff : ℚ) = -(20000 * saved) := by
        have : g.targetAmount.coeff = -(20000 * saved) := by omega
        exact_mod_cast this
      have hs : (saved : ℚ) ≠ 0 := by
        rintro hzero
        rw [hzero] at hc
        linarith
      rw [hq, hc]
      field_simp
    rw [hq'] at h
    exact absurd h (by decide +kernel)
  · refine iff_of_false (fun h => ?_) (by omega)
    have hgap : -(g.targetAmount.coeff : ℚ) + 1 ≤ 20000 * saved := by exact_mod_cast hgt
    have hq' : q ≤ -(1 / 20000) * (1 + 1 / 10 ^ 14) := by
      rw [hq, div_le_iff_of_neg hneg]
      norm_num at hfits' ⊢
      linarith
    norm_num at hq' hnear h ⊢
    linarith [hnear.2]

/-! ## The days -/

variable {today : Date} {L : Ledger} {user : UserId}

theorem savedSoFar_nonneg (L : Ledger) (user : UserId) (since : Date) :
    0 ≤ NbeAdvisor.savedSoFar L user since := le_max_left _ _

theorem monthlyRate_pos_iff : 0 < g.monthlyRate today saved ↔ 0 < saved := by
  have hmonths : (0 : ℚ) < (max 1 (monthsElapsed g.createdAt today) : ℤ) := by
    rw [Int.cast_pos]
    exact lt_max_of_lt_left one_pos
  rw [monthlyRate, significant_pos_iff (by norm_num) (by norm_num), div_pos_iff_of_pos_right hmonths,
    div_pos_iff_of_pos_right (by norm_num), Int.cast_pos]

theorem target_le_iff : g.targetAmount.value ≤ saved / 100 ↔ g.targetAmount.coeff ≤ saved := by
  rw [Numeric.value]
  norm_num
  rw [div_le_div_iff_of_pos_right (by norm_num), Int.cast_le]

theorem daysNeeded_nonneg (h₀ : 0 < saved) (h : saved < g.targetAmount.coeff) :
    0 ≤ g.daysNeeded today saved := by
  have hrate : 0 < g.monthlyRate today saved := monthlyRate_pos_iff.2 h₀
  have hrest : 0 ≤ g.targetAmount.value - saved / 100 := by
    have := target_le_iff.not.2 h.not_ge
    linarith
  have hsig : ∀ {b p : ℕ} {x : ℚ}, 1 < b → 0 < p → 0 ≤ x → 0 ≤ significant b p x :=
    fun hb hp hx => (significant_nonneg_iff hb hp).2 hx
  refine le_roundHalfEven ?_
  rw [Int.cast_zero]
  refine hsig (by norm_num) (by norm_num) (mul_nonneg ?_ (by norm_num))
  refine hsig (by norm_num) (by norm_num) (hsig (by norm_num) (by norm_num) (div_nonneg ?_ hrate.le))
  exact hsig (by norm_num) (by norm_num) hrest

/-- A quotient of a rounded rate, rounded four times more. -/
theorem abs_rounded_days_sub_le {q r rate : ℚ} (hq : 0 < q) (hrate₀ : 0 < rate)
    (hrate : Near (1 / (2 * 10 ^ 27)) r rate) :
    |(roundHalfEven (Double.ofRat ((Double.ofRat (decimal28 (q * r / rate))).value * 30)).value : ℚ) -
      30 * q| ≤ 1 / 2 + 30 * q / 2 ^ 50 := by
  have hquotient : Near (1 / (2 * 10 ^ 27 - 1)) q (q * r / rate) := by
    have h := (hrate.symm (by norm_num) (by norm_num)).mul_right (q / rate)
    rw [mul_div_cancel₀ _ hrate₀.ne', mul_div_left_comm, ← mul_div_assoc] at h
    exact h.mono (by norm_num)
  have hratio := (hquotient.trans (near_decimal28 _) (by norm_num)).trans (Double.near_ofRat _)
    (by norm_num)
  have hnear := ((hratio.mul_right 30).trans (Double.near_ofRat _) (by norm_num)).mono
    (δ := 1 / 2 ^ 50) (by norm_num)
  obtain ⟨w, hw⟩ : ∃ w, w = (Double.ofRat ((Double.ofRat (decimal28 (q * r / rate))).value *
    30)).value := ⟨_, rfl⟩
  rw [← hw] at hnear ⊢
  rw [Near, abs_of_pos (by linarith : 0 < q * 30), mul_comm q] at hnear
  have hround := abs_sub_roundHalfEven w
  rw [abs_sub_comm] at hround
  calc |(roundHalfEven w : ℚ) - 30 * q|
      ≤ |(roundHalfEven w : ℚ) - w| + |w - 30 * q| := abs_sub_le _ _ _
    _ ≤ 1 / 2 + 1 / 2 ^ 50 * (30 * q) := add_le_add hround hnear
    _ = 1 / 2 + 30 * q / 2 ^ 50 := by ring

/-- The pace so far, carried on in months of 30 days, up to the digits of the numbers. -/
theorem abs_daysNeeded_sub_le (h₀ : 0 < saved) (h : saved < g.targetAmount.coeff) :
    |(g.daysNeeded today saved : ℚ) - 30 * ((g.targetAmount.coeff - saved) *
        (max 1 (monthsElapsed g.createdAt today) : ℤ) / saved)| ≤
      1 / 2 + 30 * ((g.targetAmount.coeff - saved) *
        (max 1 (monthsElapsed g.createdAt today) : ℤ) / saved) / 2 ^ 50 := by
  have hm : (0 : ℚ) < (max 1 (monthsElapsed g.createdAt today) : ℤ) := by
    rw [Int.cast_pos]
    exact lt_max_of_lt_left one_pos
  have hs : (0 : ℚ) < saved := by exact_mod_cast h₀
  have hn : (0 : ℚ) < g.targetAmount.coeff - saved := by
    have : (saved : ℚ) < g.targetAmount.coeff := by exact_mod_cast h
    linarith
  unfold daysNeeded
  dsimp only
  generalize hq : (g.targetAmount.coeff - saved : ℚ) *
    (max 1 (monthsElapsed g.createdAt today) : ℤ) / saved = q
  have hq₀ : 0 < q := hq ▸ div_pos (mul_pos hn hm) hs
  have hrest : decimal28 (g.targetAmount.value - saved / 100) =
      (g.targetAmount.coeff - saved) / 100 := by
    have hvalue : g.targetAmount.value - saved / 100 =
        ((g.targetAmount.coeff - saved : ℤ) : ℚ) / 10 ^ 2 := by
      rw [Numeric.value]
      push_cast
      ring
    have hplaces : HasPlaces 2 (g.targetAmount.value - (saved : ℚ) / 100) := ⟨_, hvalue⟩
    have hfits := (abs_lt.1 g.targetAmount.fits).2
    rw [decimal28, hplaces.significant_eq (k := 12) ?_ (by norm_num) (by norm_num), hvalue]
    · push_cast
      norm_num
    · have hfits' : (g.targetAmount.coeff : ℚ) < 10 ^ 14 := by exact_mod_cast hfits
      rw [hvalue, abs_of_pos (by push_cast; positivity), div_le_iff₀ (by norm_num)]
      push_cast
      linarith
  obtain ⟨r, hr⟩ : ∃ r : ℚ, r = saved / 100 / (max 1 (monthsElapsed g.createdAt today) : ℤ) :=
    ⟨_, rfl⟩
  have hr₀ : 0 < r := hr ▸ div_pos (div_pos hs (by norm_num)) hm
  have hqr : (g.targetAmount.coeff - saved : ℚ) / 100 = q * r := by
    rw [← hq, hr]
    field_simp
  rw [hrest, monthlyRate, ← hr, hqr]
  exact abs_rounded_days_sub_le hq₀ ((significant_pos_iff (by norm_num) (by norm_num)).2 hr₀)
    (near_decimal28 r)

theorem deadline_isSome_iff (hg : g.Accepted) : g.deadline.isSome = true ↔
    g.createdAt.toordinal + g.timelineMonths * 30 ≤ Date.maxOrdinal := by
  have hmonths := hg.2
  rw [deadline, Date.addDays_isSome_iff]
  omega

theorem projectedCompletionDate_isSome_iff :
    (g.projectedCompletionDate today saved).isSome = true ↔
      (0 < saved → saved < g.targetAmount.coeff →
        today.toordinal + g.daysNeeded today saved ≤ Date.maxOrdinal) := by
  unfold projectedCompletionDate
  simp only [target_le_iff, monthlyRate_pos_iff]
  split
  · next h => exact iff_of_true rfl fun _ hlt => absurd h hlt.not_ge
  · next h =>
    rw [not_le] at h
    split
    · next hpos =>
      have hdays := @daysNeeded_nonneg g saved today hpos h
      have hday := today.day_valid.1
      have hord : 0 < today.toordinal := Nat.add_pos_right _ hday
      rw [Option.isSome_map, Date.addDays_isSome_iff]
      constructor
      · exact fun hrange _ _ => hrange.2
      · exact fun hrange => ⟨by omega, hrange hpos h⟩
    · next hpos => exact iff_of_true rfl fun h₀ _ => absurd h₀ hpos

theorem savingsProgress_isSome_iff : (g.savingsProgress L user today).isSome = true ↔
    (g.projectedCompletionDate today (NbeAdvisor.savedSoFar L user g.createdAt)).isSome = true ∧
      g.deadline.isSome = true := by
  unfold savingsProgress
  dsimp only
  generalize g.projectedCompletionDate today (NbeAdvisor.savedSoFar L user g.createdAt) = projected
  generalize g.deadline = deadline
  cases projected with
  | none => simp
  | some _ =>
    cases deadline with
    | none => simp
    | some _ => simp

theorem savingsProgress_percentage {r : SavingsProgress}
    (h : g.savingsProgress L user today = some r) : r.percentageComplete =
      (g.percentageComplete (NbeAdvisor.savedSoFar L user g.createdAt)).round 2 := by
  unfold savingsProgress at h
  obtain ⟨_, -, h⟩ := Option.bind_eq_some_iff.1 h
  obtain ⟨_, -, h⟩ := Option.bind_eq_some_iff.1 h
  cases h
  rfl

end Goal

/-- Both views come through, each with a percentage from 0 to 100. -/
def Goal.ProgressSound (L : Ledger) (user : UserId) (today : Date) (g : Goal) : Prop :=
  (∃ r, g.savingsProgress L user today = some r ∧ Goal.IsPercentage r.percentageComplete) ∧
    Goal.IsPercentage (g.progress L user today).percentageComplete

/-- The progress is sound exactly if the target is not negative, or more than 20000 times what is
saved, and the deadline and the projected day are days of the calendar. The projected day is
`30 * (target - saved) * months / saved` days away, up to the rounding of the source's numbers. -/
theorem progress_sound_iff (L : Ledger) (user : UserId) (today : Date) {g : Goal}
    (hg : g.Accepted) :
    (g.ProgressSound L user today ↔
      (0 ≤ g.targetAmount.coeff ∨
        20000 * savedSoFar L user g.createdAt < -g.targetAmount.coeff) ∧
      g.createdAt.toordinal + g.timelineMonths * 30 ≤ Date.maxOrdinal ∧
      (0 < savedSoFar L user g.createdAt → savedSoFar L user g.createdAt < g.targetAmount.coeff →
        today.toordinal + g.daysNeeded today (savedSoFar L user g.createdAt) ≤
          Date.maxOrdinal)) ∧
    ∀ saved : ℤ, 0 < saved → saved < g.targetAmount.coeff →
      |(g.daysNeeded today saved : ℚ) - 30 * ((g.targetAmount.coeff - saved) *
          (max 1 (monthsElapsed g.createdAt today) : ℤ) / saved)| ≤
        1 / 2 + 30 * ((g.targetAmount.coeff - saved) *
          (max 1 (monthsElapsed g.createdAt today) : ℤ) / saved) / 2 ^ 50 := by
  refine ⟨?_, fun saved => Goal.abs_daysNeeded_sub_le⟩
  have hsaved := Goal.savedSoFar_nonneg L user g.createdAt
  have hpercentage : Goal.IsPercentage
      ((g.percentageComplete (savedSoFar L user g.createdAt)).round 2) ↔
        (0 ≤ g.targetAmount.coeff ∨
          20000 * savedSoFar L user g.createdAt < -g.targetAmount.coeff) := by
    by_cases htarget : 0 ≤ g.targetAmount.coeff
    · exact iff_of_true (Goal.isPercentage_of_nonneg hsaved htarget) (Or.inl htarget)
    · rw [or_iff_right htarget]
      exact Goal.isPercentage_of_neg hsaved (not_le.1 htarget)
  rw [← hpercentage, ← Goal.deadline_isSome_iff hg, ← Goal.projectedCompletionDate_isSome_iff]
  constructor
  · rintro ⟨⟨r, hr, -⟩, hprogress⟩
    obtain ⟨hprojected, hdeadline⟩ := Goal.savingsProgress_isSome_iff.1 (by rw [hr]; rfl)
    exact ⟨hprogress, hdeadline, hprojected⟩
  · rintro ⟨hprogress, hdeadline, hprojected⟩
    have hsome : (g.savingsProgress L user today).isSome = true :=
      Goal.savingsProgress_isSome_iff.2 ⟨hprojected, hdeadline⟩
    obtain ⟨r, hr⟩ := Option.isSome_iff_exists.1 hsome
    refine ⟨⟨r, hr, ?_⟩, hprogress⟩
    rw [Goal.savingsProgress_percentage hr]
    exact hprogress

/-- A trip for twelve hundred pounds, in so many months. -/
def trip (timelineMonths : ℤ) : Goal :=
  { name := "Trip", targetAmount := ⟨120000, by decide⟩, timelineMonths
    createdAt := julyDay 1 }

/-- The user asks for it in a year, after having thought of half a year. -/
theorem trip_reachable : Goal.Reachable (julyDay 1) (trip 12) :=
  .updated (u := { targetMonths := some 12 })
    (.created (i := { name := "Trip", targetAmount := 1200, targetMonths := 6 })
      (g := trip 6) (by decide +kernel)) (by decide +kernel)

/-- Money that comes in. -/
def pension (day : Date) : Transaction :=
  { groceries day with category := none, transactionType := "credit" }

/-- With 25 pounds in hand, and a year to go. -/
theorem progress_sound_trip : (trip 12).ProgressSound [pension (julyDay 2)] 1 (julyDay 20) :=
  (progress_sound_iff [pension (julyDay 2)] 1 (julyDay 20) trip_reachable.accepted).1.2
    (by decide +kernel)

/-- A hundred thousand months end after the year 9999. -/
theorem distant_deadline_raises :
    ¬∀ (L : Ledger) (user : UserId) (today : Date) (g : Goal), g.Accepted →
      g.ProgressSound L user today := by
  intro h
  obtain ⟨⟨r, hr, -⟩, -⟩ := h [] 1 (julyDay 1) (trip 100000) (by decide)
  have hnone : (trip 100000).savingsProgress [] 1 (julyDay 1) = none := by decide +kernel
  rw [hnone] at hr
  cases hr

/-- Ten pounds towards minus ten : minus a hundred percent. -/
example : ({ trip 12 with targetAmount := ⟨-1000, by norm_num⟩ } : Goal).percentageComplete 1000 =
    Double.ofRat (-100) := by decide +kernel

end NbeAdvisor
