import NbeAdvisor.Numerals

/-!
# What a decimal context can hold

`quantizeUp?` raises, as `Decimal.quantize` does, where the result has more digits than the
context. A number that an operation has rounded to the digits of the context can be quantized
exactly if it was not within half a unit of the last place of a power of ten
(`isSome_quantizeUp?`).

`decimalSum` adds numbers up in the default context, each sum rounded. What it has passed it
stays above (`le_decimalSum`).
-/

set_option linter.unusedSectionVars false

namespace Numerals

variable {K : Type*} [Field K] [LinearOrder K] [IsStrictOrderedRing K] [FloorRing K]

/-! ## Digits of both signs -/

/-- Rounding is symmetric. -/
theorem roundHalfEven_neg (x : K) : roundHalfEven (-x) = -roundHalfEven x := by
  have hfloor := Int.floor_le x
  have hlt := Int.lt_floor_add_one x
  rcases lt_trichotomy (x - ⌊x⌋) (1 / 2) with hlow | hhalf | hhigh
  · rw [roundHalfEven_eq (x := x) (n := ⌊x⌋) (abs_lt.2 ⟨by linarith, hlow⟩)]
    refine roundHalfEven_eq (abs_lt.2 ⟨?_, ?_⟩)
    · push_cast
      linarith
    · push_cast
      linarith
  · have hneg : ⌊-x⌋ = -⌊x⌋ - 1 := by
      refine Int.floor_eq_iff.2 ⟨?_, ?_⟩
      · push_cast
        linarith
      · push_cast
        linarith
    have hhalf' : -x - ⌊-x⌋ = 1 / 2 := by
      rw [hneg]
      push_cast
      linarith
    rw [roundHalfEven, roundHalfEven, hhalf, hhalf', hneg]
    by_cases heven : ⌊x⌋ % 2 = 0
    · rw [if_neg (by simp; omega), if_pos (Or.inr ⟨rfl, heven⟩)]
      ring
    · rw [if_pos (Or.inr ⟨rfl, by omega⟩), if_neg (by simp; omega)]
      ring
  · have hround : roundHalfEven x = ⌊x⌋ + 1 := by
      refine roundHalfEven_eq (abs_lt.2 ⟨?_, ?_⟩)
      · push_cast
        linarith
      · push_cast
        linarith
    rw [hround]
    refine roundHalfEven_eq (abs_lt.2 ⟨?_, ?_⟩)
    · push_cast
      linarith
    · push_cast
      linarith

section Digits

variable {b p : ℕ}

theorem significant_neg (x : K) : significant b p (-x) = -significant b p x := by
  rw [significant, significant, lastDigit, lastDigit, abs_neg, neg_div, roundHalfEven_neg]
  push_cast
  ring

/-- The sign aside, rounding is of the absolute value. -/
theorem abs_significant (hb : 1 < b) (hp : 0 < p) (x : K) :
    |significant b p x| = significant b p |x| := by
  rcases le_total 0 x with h | h
  · rw [abs_of_nonneg h, abs_of_nonneg ((significant_nonneg_iff hb hp).2 h)]
  · rw [abs_of_nonpos h, abs_of_nonpos (significant_nonpos hb hp h), significant_neg]

/-- A number of at most `p` digits bounds what is rounded from below. -/
theorem le_significant (hb : 1 < b) (hp : 0 < p) {x y : K} (hy : significant b p y = y)
    (h : y ≤ x) (hx : 0 ≤ x) : y ≤ significant b p x := by
  rcases le_or_gt y 0 with hneg | hpos
  · exact hneg.trans ((significant_nonneg_iff hb hp).2 hx)
  have hx₀ := hpos.trans_le h
  have hb₀ : (1 : K) ≤ b := by exact_mod_cast hb.le
  have hlog : Int.log b y ≤ Int.log b x := Int.log_mono_right hpos h
  rcases hlog.eq_or_lt with heq | hlt
  · have hunit : lastDigit b p y = lastDigit b p x := by
      rw [lastDigit, lastDigit, abs_of_pos hpos, abs_of_pos hx₀, heq]
    have hu := lastDigit_pos (p := p) hb x
    rw [← hy, significant, significant, hunit]
    refine mul_le_mul_of_nonneg_right (Int.cast_le.2 (le_roundHalfEven ?_)) hu.le
    rw [le_div_iff₀ hu, ← hunit]
    exact hy.le.trans h
  · calc y ≤ (b : K) ^ (Int.log b y + 1) := (Int.lt_zpow_succ_log_self hb y).le
      _ ≤ (b : K) ^ Int.log b x := zpow_le_zpow_right₀ hb₀ (by omega)
      _ ≤ significant b p x := zpow_log_le_significant hb hp hx₀

end Digits

/-! ## Where a context is left -/

/-- What is rounded to less than an even number. -/
theorem roundHalfEven_lt_iff {x : K} {n : ℤ} (hn : n % 2 = 0) :
    roundHalfEven x < n ↔ x < n - 1 / 2 := by
  constructor
  · intro h
    by_contra hge
    rw [not_lt] at hge
    rcases lt_or_ge x n with hlt | hle
    · have hup : roundHalfEven x = n - 1 + 1 := by
        refine roundHalfEven_of_odd (by omega) ?_ ?_
        · push_cast
          linarith
        · push_cast
          linarith
      omega
    · exact (le_roundHalfEven hle).not_gt h
  · intro h
    have habs := (abs_le.1 (abs_sub_roundHalfEven x)).1
    have hlt : (roundHalfEven x : K) < n := by linarith
    exact Int.cast_lt.1 hlt

/-- Half a unit of the last digit below a power of ten is rounded up to it, as the power is even. -/
theorem significant_lt_pow {p : ℕ} (hp : 0 < p) {m : ℤ} {x : K} (hx : 0 ≤ x) :
    significant 10 p x < 10 ^ m ↔ x < 10 ^ m - 10 ^ (m - p) / 2 := by
  have hten : (0 : K) < 10 := by norm_num
  have hbase : ((10 : ℕ) : K) = 10 := by norm_num
  have hunit : (0 : K) < 10 ^ (m - p) := zpow_pos hten _
  have hstep : (10 : K) ^ m = 10 ^ (m - 1) * 10 := by rw [← zpow_add_one₀ hten.ne', sub_add_cancel]
  have hle : (10 : K) ^ (m - p) ≤ 10 ^ (m - 1) := zpow_le_zpow_right₀ (by norm_num) (by omega)
  rcases lt_or_ge x (10 ^ (m - 1)) with hlow | hhigh
  · refine iff_of_true ?_ (by linarith)
    have hbound := significant_le (b := 10) (p := p) (m := 1) (k := m - 1) (by norm_num) hp
      (by rw [abs_one]; exact one_le_pow₀ (by norm_num)) hx (by rw [hbase]; push_cast; linarith)
    rw [hbase] at hbound
    push_cast at hbound
    linarith
  have hx₀ : 0 < x := lt_of_lt_of_le (zpow_pos hten _) hhigh
  rcases lt_or_ge x (10 ^ m) with hlt | hge
  · have hlog : Int.log 10 |x| = m - 1 := by
      rw [abs_of_pos hx₀]
      refine le_antisymm (Int.lt_add_one_iff.1 ((Int.lt_zpow_iff_log_lt (by norm_num) hx₀).1 ?_))
        ((Int.zpow_le_iff_le_log (by norm_num) hx₀).1 ?_)
      · rw [hbase, sub_add_cancel]
        exact hlt
      · rw [hbase]
        exact hhigh
    have hdigit : lastDigit 10 p x = (10 : K) ^ (m - p) := by
      rw [lastDigit, hlog, hbase]
      congr 1
      ring
    have hpow : (10 : K) ^ m = ((10 ^ p : ℤ) : K) * 10 ^ (m - p) := by
      push_cast
      rw [← zpow_natCast, ← zpow_add₀ hten.ne']
      congr 1
      ring
    have heven : (10 ^ p : ℤ) % 2 = 0 := by
      obtain ⟨q, rfl⟩ : ∃ q, p = q + 1 := ⟨p - 1, by omega⟩
      rw [pow_succ]
      omega
    rw [significant, hdigit, hpow, mul_lt_mul_iff_of_pos_right hunit, Int.cast_lt,
      roundHalfEven_lt_iff heven, div_lt_iff₀ hunit]
    ring_nf
  · refine iff_of_false (not_lt.2 ?_) (by linarith)
    calc (10 : K) ^ m ≤ ((10 : ℕ) : K) ^ Int.log 10 x := by
          rw [hbase]
          refine zpow_le_zpow_right₀ (by norm_num) ?_
          exact (Int.zpow_le_iff_le_log (by norm_num) hx₀).1 (by rw [hbase]; exact hge)
      _ ≤ significant 10 p x := zpow_log_le_significant (by norm_num) hp hx₀

/-- A number that is rounded to the digits of the context can be quantized in it exactly if it is
not within half a unit of the digits that are left before the point. -/
theorem isSome_quantizeUp? {p : ℕ} (hp : 0 < p) (n : ℕ) (x : K) :
    (quantizeUp? p n (significant 10 p x)).isSome = true ↔
      |x| < 10 ^ ((p : ℤ) - n) - 10 ^ (-(n : ℤ)) / 2 := by
  have hten : (0 : K) < 10 := by norm_num
  have hpos : (0 : K) < 10 ^ n := by positivity
  obtain ⟨z, hz⟩ : ∃ z, z = significant 10 p x := ⟨_, rfl⟩
  have hself : significant 10 p |z| = |z| := by
    rw [← abs_significant (by norm_num) hp, hz, significant_significant (by norm_num) hp]
  have hexp : (p : ℤ) - n - p = -(n : ℤ) := by ring
  have hround : (quantizeUp? p n z).isSome = true ↔ |z| * 10 ^ n + 1 / 2 < 10 ^ p := by
    have hfloor : |roundHalfUp (z * 10 ^ n)| < 10 ^ p ↔ |z| * 10 ^ n + 1 / 2 < 10 ^ p := by
      rw [abs_roundHalfUp, abs_mul, abs_of_pos hpos, Int.floor_lt]
      push_cast
      rfl
    rw [← hfloor, quantizeUp?]
    split
    · next h => exact iff_of_true rfl h
    · next h => exact iff_of_false Bool.false_ne_true h
  have hscale : |z| * 10 ^ n + 1 / 2 < 10 ^ p ↔
      |z| < 10 ^ ((p : ℤ) - n) - 10 ^ (-(n : ℤ)) / 2 := by
    have hright : ((10 : K) ^ ((p : ℤ) - n) - 10 ^ (-(n : ℤ)) / 2) * 10 ^ n = 10 ^ p - 1 / 2 := by
      rw [sub_mul, div_mul_eq_mul_div, ← zpow_natCast, ← zpow_add₀ hten.ne', ← zpow_add₀ hten.ne',
        sub_add_cancel, neg_add_cancel, zpow_zero, zpow_natCast]
    rw [← lt_sub_iff_add_lt, ← hright, mul_lt_mul_iff_of_pos_right hpos]
  have hdigits := significant_lt_pow (K := K) hp (m := (p : ℤ) - n) (abs_nonneg z)
  rw [hexp, hself] at hdigits
  have hx := significant_lt_pow (K := K) hp (m := (p : ℤ) - n) (abs_nonneg x)
  rw [hexp, ← abs_significant (by norm_num) hp, ← hz] at hx
  rw [← hz, hround, hscale, ← hdigits, hx]

/-- What comes through is the rounded number. -/
theorem quantizeUp?_eq_some {p n : ℕ} {x y : K} (h : quantizeUp? p n x = some y) :
    y = quantizeUp n x := by
  unfold quantizeUp? at h
  split at h
  · exact (Option.some.inj h).symm
  · cases h

/-- What comes out has no more digits than the context. -/
theorem abs_quantizeUp?_le {p n : ℕ} {x y : K} (h : quantizeUp? p n x = some y) :
    |y| * 10 ^ n ≤ 10 ^ p - 1 := by
  have hpos : (0 : K) < 10 ^ n := by positivity
  obtain rfl := quantizeUp?_eq_some h
  unfold quantizeUp? at h
  split at h
  · next hlt =>
    have hle : |roundHalfUp (x * 10 ^ n)| ≤ 10 ^ p - 1 := by omega
    rw [quantizeUp, abs_div, abs_of_pos hpos, div_mul_cancel₀ _ hpos.ne']
    exact_mod_cast hle
  · cases h

/-! ## Sums -/

/-- The sum, each addition rounded. -/
def decimalSum (s : K) (xs : List K) : K := xs.foldl (fun s x => decimal28 (s + x)) s

@[simp] theorem decimalSum_nil (s : K) : decimalSum s [] = s := rfl

@[simp] theorem decimalSum_cons (s x : K) (xs : List K) :
    decimalSum s (x :: xs) = decimalSum (decimal28 (s + x)) xs := rfl

/-- A number of the context is kept. -/
theorem decimal28_decimal28 (x : K) : decimal28 (decimal28 x) = decimal28 x :=
  significant_significant (by norm_num) (by norm_num) x

theorem decimal28_nonneg {x : K} (h : 0 ≤ x) : 0 ≤ decimal28 x :=
  (significant_nonneg_iff (by norm_num) (by norm_num)).2 h

theorem decimal28_pos {x : K} (h : 0 < x) : 0 < decimal28 x :=
  (significant_pos_iff (by norm_num) (by norm_num)).2 h

section Sums

variable {s : K} {xs : List K}

/-- A sum in the context is of the context. -/
theorem decimal28_decimalSum (hs : decimal28 s = s) (xs : List K) :
    decimal28 (decimalSum s xs) = decimalSum s xs := by
  induction xs generalizing s with
  | nil => exact hs
  | cons x xs ih => exact ih (decimal28_decimal28 _)

/-- It does not fall, where what is added is not negative. -/
theorem le_decimalSum (hs : decimal28 s = s) (hs₀ : 0 ≤ s) (h : ∀ x ∈ xs, 0 ≤ x) :
    s ≤ decimalSum s xs := by
  induction xs generalizing s with
  | nil => exact le_rfl
  | cons x xs ih =>
    have hx := h x List.mem_cons_self
    have hstep : s ≤ decimal28 (s + x) :=
      le_significant (by norm_num) (by norm_num) hs (by linarith) (by linarith)
    refine hstep.trans (ih (decimal28_decimal28 _) (hs₀.trans hstep) fun y hy => ?_)
    exact h y (List.mem_cons_of_mem _ hy)

/-- It is at least each of the numbers, where they have the digits of the context. -/
theorem le_decimalSum_of_mem {y : K} (hs₀ : 0 ≤ s) (h : ∀ x ∈ xs, 0 ≤ x) (hy : y ∈ xs)
    (hdigits : decimal28 y = y) : y ≤ decimalSum s xs := by
  induction xs generalizing s with
  | nil => cases hy
  | cons x xs ih =>
    have hx := h x List.mem_cons_self
    have hnonneg := decimal28_nonneg (add_nonneg hs₀ hx)
    have hrest : ∀ z ∈ xs, 0 ≤ z := fun z hz => h z (List.mem_cons_of_mem _ hz)
    rcases List.mem_cons.1 hy with rfl | hy
    · have hstep : y ≤ decimal28 (s + y) :=
        le_significant (by norm_num) (by norm_num) hdigits (by linarith) (by linarith)
      exact hstep.trans (le_decimalSum (decimal28_decimal28 _) hnonneg hrest)
    · exact ih hnonneg hrest hy

end Sums

end Numerals
