import Mathlib.Data.Int.Log
import Mathlib.Data.Rat.Floor
import Mathlib.Algebra.Order.Field.Power
import Mathlib.Tactic.Linarith
import Mathlib.Tactic.Positivity
import Mathlib.Tactic.NormNum
import Mathlib.Tactic.Ring

/-!
# Decimals and doubles

Rounding to the nearest integer, a half to the even one (`roundHalfEven`), and the two
formats that rest on it : `quantize` keeps a number of decimal places, `significant` a number of
digits in a base, which is what a decimal context and a binary float do after each operation. A
number of few places and of a small amount (`HasPlaces`) comes through both as it was. With
`quantizeUp` a half goes away from zero.

A `Double` is a number of 53 binary digits. `ofRat` rounds to one and `shortest` is the decimal
that it is written as : of the shortest decimals that round to it, the closest. Written and
read again it is the same double (`ofRat_shortest`), and a decimal of at most 15 digits
comes back from the double as it was (`quantize_shortest`). A `Numeric` is a value of a column with
a fixed number of places.
-/

set_option linter.unusedSectionVars false

namespace Numerals

variable {K : Type*} [Field K] [LinearOrder K] [IsStrictOrderedRing K] [FloorRing K]

/-! ## The nearest integer -/

/-- The nearest integer, and of two the even one. -/
def roundHalfEven (x : K) : ℤ :=
  if x - ⌊x⌋ < 1 / 2 ∨ (x - ⌊x⌋ = 1 / 2 ∧ ⌊x⌋ % 2 = 0) then ⌊x⌋ else ⌊x⌋ + 1

/-- Rounding is off by a half at most. -/
theorem abs_sub_roundHalfEven (x : K) : |x - roundHalfEven x| ≤ 1 / 2 := by
  have h₀ := Int.floor_le x
  have h₁ := Int.lt_floor_add_one x
  unfold roundHalfEven
  split
  · next h =>
    rw [abs_of_nonneg (by linarith)]
    rcases h with h | ⟨h, -⟩
    · exact h.le
    · exact h.le
  · next h =>
    rw [not_or, not_lt] at h
    push_cast
    rw [abs_of_nonpos (by linarith)]
    linarith [h.1]

theorem le_roundHalfEven {x : K} {n : ℤ} (h : (n : K) ≤ x) : n ≤ roundHalfEven x := by
  have habs := (abs_le.1 (abs_sub_roundHalfEven x)).2
  have hlt : ((n - 1 : ℤ) : K) < (roundHalfEven x : ℤ) := by
    push_cast
    linarith
  have := Int.cast_lt.1 hlt
  omega

theorem roundHalfEven_le {x : K} {n : ℤ} (h : x ≤ (n : K)) : roundHalfEven x ≤ n := by
  have habs := (abs_le.1 (abs_sub_roundHalfEven x)).1
  have hlt : ((roundHalfEven x : ℤ) : K) < (n + 1 : ℤ) := by
    push_cast
    linarith
  have := Int.cast_lt.1 hlt
  omega

/-- An integer closer than a half is the nearest. -/
theorem roundHalfEven_eq {x : K} {n : ℤ} (h : |x - n| < 1 / 2) : roundHalfEven x = n := by
  have habs := abs_le.1 (abs_sub_roundHalfEven x)
  have hn := abs_lt.1 h
  have h₁ : ((roundHalfEven x : ℤ) : K) < (n + 1 : ℤ) := by
    push_cast
    linarith [habs.1, hn.2]
  have h₂ : ((n - 1 : ℤ) : K) < (roundHalfEven x : ℤ) := by
    push_cast
    linarith [habs.2, hn.1]
  have := Int.cast_lt.1 h₁
  have := Int.cast_lt.1 h₂
  omega

/-- Minus a half is rounded to zero. -/
theorem roundHalfEven_nonneg_iff {x : K} : 0 ≤ roundHalfEven x ↔ -(1 / 2) ≤ x := by
  constructor
  · intro h
    have habs := (abs_le.1 (abs_sub_roundHalfEven x)).1
    have hcast : (0 : K) ≤ roundHalfEven x := by exact_mod_cast h
    linarith
  · intro h
    have hlt := Int.lt_floor_add_one x
    have hfloor : -1 ≤ ⌊x⌋ := by
      rw [Int.le_floor]
      push_cast
      linarith
    unfold roundHalfEven
    split
    · next hround =>
      by_contra hneg
      have hminus : ⌊x⌋ = -1 := by omega
      rw [hminus] at hround
      push_cast at hround
      rcases hround with hround | ⟨-, heven⟩
      · linarith
      · omega
    · omega

/-- A half to an odd one goes up. -/
theorem roundHalfEven_of_odd {x : K} {n : ℤ} (hn : n % 2 = 1) (h : n + 1 / 2 ≤ x)
    (h' : x < n + 1) : roundHalfEven x = n + 1 := by
  have hfloor : ⌊x⌋ = n := Int.floor_eq_iff.2 ⟨by linarith, h'⟩
  unfold roundHalfEven
  rw [hfloor, if_neg]
  rintro (hlt | ⟨-, heven⟩)
  · linarith
  · omega

@[simp] theorem roundHalfEven_intCast (n : ℤ) : roundHalfEven (n : K) = n :=
  roundHalfEven_eq (by simp)

/-! ## Decimal places -/

/-- `x` with `n` decimal places, as `Decimal.quantize` rounds by default. -/
def quantize (n : ℕ) (x : K) : K := roundHalfEven (x * 10 ^ n) / 10 ^ n

/-- What is next to a multiple of the last place is rounded to it. -/
theorem quantize_eq {n : ℕ} {x : K} {z : ℤ} (h : |x - z / 10 ^ n| < 1 / (2 * 10 ^ n)) :
    quantize n x = z / 10 ^ n := by
  have hpos : (0 : K) < 10 ^ n := by positivity
  have hz : |x * 10 ^ n - z| < 1 / 2 := by
    have hmul : x * 10 ^ n - z = (x - z / 10 ^ n) * 10 ^ n := by
      rw [sub_mul, div_mul_cancel₀ _ hpos.ne']
    rw [hmul, abs_mul, abs_of_pos hpos]
    calc |x - z / 10 ^ n| * 10 ^ n < 1 / (2 * 10 ^ n) * 10 ^ n := mul_lt_mul_of_pos_right h hpos
      _ = 1 / 2 := by field_simp
  rw [quantize, roundHalfEven_eq hz]

/-- Rounding is off by half a unit of the last place at most. -/
theorem abs_sub_quantize_le (n : ℕ) (x : K) : |x - quantize n x| ≤ 1 / (2 * 10 ^ n) := by
  have hpos : (0 : K) < 10 ^ n := by positivity
  have hfac : x - quantize n x = (x * 10 ^ n - roundHalfEven (x * 10 ^ n)) / 10 ^ n := by
    rw [quantize]
    field_simp
  rw [hfac, abs_div, abs_of_pos hpos, div_le_div_iff₀ hpos (by positivity)]
  calc |x * 10 ^ n - roundHalfEven (x * 10 ^ n)| * (2 * 10 ^ n) ≤ 1 / 2 * (2 * 10 ^ n) :=
        mul_le_mul_of_nonneg_right (abs_sub_roundHalfEven _) (by positivity)
    _ = 1 * 10 ^ n := by ring

/-! ## A half away from zero -/

/-- The nearest integer, and of two the one farther from zero. -/
def roundHalfUp (x : K) : ℤ := if 0 ≤ x then ⌊x + 1 / 2⌋ else -⌊-x + 1 / 2⌋

/-- The sign aside, a half is rounded up. -/
theorem abs_roundHalfUp (x : K) : |roundHalfUp x| = ⌊|x| + 1 / 2⌋ := by
  have hfloor : 0 ≤ ⌊|x| + 1 / 2⌋ := Int.floor_nonneg.2 (by positivity)
  unfold roundHalfUp
  split
  · next h =>
    rw [abs_of_nonneg h] at hfloor ⊢
    exact abs_of_nonneg hfloor
  · next h =>
    rw [abs_of_neg (not_le.1 h)] at hfloor ⊢
    rw [abs_neg, abs_of_nonneg hfloor]

theorem roundHalfUp_nonneg {x : K} (h : 0 ≤ x) : 0 ≤ roundHalfUp x := by
  rw [roundHalfUp, if_pos h]
  exact Int.floor_nonneg.2 (by positivity)

/-- `x` with `n` decimal places. -/
def quantizeUp (n : ℕ) (x : K) : K := roundHalfUp (x * 10 ^ n) / 10 ^ n

/-- The same in a context of `p` digits, unless the result has more. -/
def quantizeUp? (p n : ℕ) (x : K) : Option K :=
  if |roundHalfUp (x * 10 ^ n)| < 10 ^ p then some (quantizeUp n x) else none

theorem quantizeUp_nonneg {n : ℕ} {x : K} (h : 0 ≤ x) : 0 ≤ quantizeUp n x := by
  have hround : (0 : K) ≤ roundHalfUp (x * 10 ^ n) := by
    exact_mod_cast roundHalfUp_nonneg (by positivity)
  exact div_nonneg hround (by positivity)

/-! ## Significant digits -/

/-- The value of the last of `p` digits of `x` in base `b`. -/
def lastDigit (b p : ℕ) (x : K) : K := (b : K) ^ (Int.log b |x| - (p - 1 : ℤ))

/-- `x` with `p` significant digits in base `b`. -/
def significant (b p : ℕ) (x : K) : K := roundHalfEven (x / lastDigit b p x) * lastDigit b p x

/-- The default context of `decimal` : 28 digits after each operation. -/
abbrev decimal28 (x : K) : K := significant 10 28 x

section Significant

variable {b p : ℕ}

theorem lastDigit_pos (hb : 1 < b) (x : K) : 0 < lastDigit b p x := by
  have : (0 : K) < b := by exact_mod_cast Nat.zero_lt_of_lt hb
  exact zpow_pos this _

/-- Rounding is off by half of the last digit. -/
theorem abs_sub_significant_le_half (hb : 1 < b) (x : K) :
    |x - significant b p x| ≤ lastDigit b p x / 2 := by
  have hu := lastDigit_pos (p := p) hb x
  have hfac : x - significant b p x =
      (x / lastDigit b p x - roundHalfEven (x / lastDigit b p x)) * lastDigit b p x := by
    rw [sub_mul, div_mul_cancel₀ _ hu.ne', significant]
  rw [hfac, abs_mul, abs_of_pos hu]
  calc _ ≤ 1 / 2 * lastDigit b p x :=
        mul_le_mul_of_nonneg_right (abs_sub_roundHalfEven _) hu.le
    _ = lastDigit b p x / 2 := by ring

@[simp] theorem significant_zero (b p : ℕ) : significant b p (0 : K) = 0 := by
  have h : roundHalfEven (0 / lastDigit b p (0 : K)) = 0 := by
    rw [zero_div]
    exact_mod_cast roundHalfEven_intCast (K := K) 0
  rw [significant, h, Int.cast_zero, zero_mul]

/-- The relative error of rounding. -/
theorem abs_sub_significant_le (hb : 1 < b) (hp : 0 < p) (x : K) :
    |x - significant b p x| ≤ |x| / (2 * b ^ (p - 1)) := by
  have hb₀ : (0 : K) < b := by exact_mod_cast Nat.zero_lt_of_lt hb
  rcases eq_or_ne x 0 with rfl | hx
  · simp
  have hle := Int.zpow_log_le_self (R := K) hb (abs_pos.2 hx)
  have hdig : lastDigit b p x ≤ |x| / b ^ (p - 1) := by
    have hexp : Int.log b |x| - (p - 1 : ℤ) = Int.log b |x| - ((p - 1 : ℕ) : ℤ) := by omega
    rw [lastDigit, hexp, zpow_sub₀ hb₀.ne', zpow_natCast]
    gcongr
  calc |x - significant b p x| ≤ lastDigit b p x / 2 := abs_sub_significant_le_half hb x
    _ ≤ |x| / b ^ (p - 1) / 2 := by gcongr
    _ = |x| / (2 * b ^ (p - 1)) := by field_simp

/-- Rounding keeps the place of the first digit. -/
theorem zpow_log_le_significant (hb : 1 < b) (hp : 0 < p) {x : K} (hx : 0 < x) :
    (b : K) ^ Int.log b x ≤ significant b p x := by
  have hb₀ : (0 : K) < b := by exact_mod_cast Nat.zero_lt_of_lt hb
  have hu := lastDigit_pos (p := p) hb x
  have hpow : (b : K) ^ Int.log b x = ((b : ℤ) ^ (p - 1) : ℤ) * lastDigit b p x := by
    rw [lastDigit, abs_of_pos hx]
    push_cast
    rw [← zpow_natCast, ← zpow_add₀ hb₀.ne']
    congr 1
    omega
  rw [hpow, significant]
  refine mul_le_mul_of_nonneg_right (Int.cast_le.2 (le_roundHalfEven ?_)) hu.le
  rw [le_div_iff₀ hu, ← hpow]
  exact Int.zpow_log_le_self hb hx

/-- If the last digit is that of a place, the rounding is one to places. -/
theorem significant_eq_quantize {n : ℕ} {x : K} (h : Int.log 10 |x| = (p - 1 : ℤ) - n) :
    significant 10 p x = quantize n x := by
  have hdigit : lastDigit 10 p x = 1 / 10 ^ n := by
    rw [lastDigit, h, sub_sub_cancel_left, zpow_neg, zpow_natCast, one_div]
    norm_num
  rw [significant, quantize, hdigit, div_div_eq_mul_div, div_one, mul_one_div]

/-- A number of at most `p` digits is a multiple of its last digit. -/
theorem exists_mul_lastDigit (hb : 1 < b) (hp : 0 < p) {m k : ℤ} {x : K}
    (hm : |m| ≤ (b : ℤ) ^ p) (hx : x = m * (b : K) ^ k) : ∃ z : ℤ, x = z * lastDigit b p x := by
  have hb₀ : (0 : K) < b := by exact_mod_cast Nat.zero_lt_of_lt hb
  have habs : |x| = |(m : K)| * (b : K) ^ k := by rw [hx, abs_mul, abs_of_pos (zpow_pos hb₀ k)]
  rcases eq_or_ne m 0 with rfl | hm₀
  · exact ⟨0, by simp [hx]⟩
  have hx₀ : 0 < |x| := by
    rw [habs]
    exact mul_pos (abs_pos.2 (Int.cast_ne_zero.2 hm₀)) (zpow_pos hb₀ k)
  rcases hm.lt_or_eq with hlt | heq
  · have hlog : Int.log b |x| < p + k := by
      rw [← Int.lt_zpow_iff_log_lt hb hx₀, habs, zpow_add₀ hb₀.ne', zpow_natCast]
      gcongr
      exact_mod_cast hlt
    obtain ⟨d, hd⟩ := Int.eq_ofNat_of_zero_le
      (show 0 ≤ k - (Int.log b |x| - (p - 1 : ℤ)) by omega)
    refine ⟨m * (b : ℤ) ^ d, ?_⟩
    have hk : (b : K) ^ k = (b : K) ^ d * lastDigit b p x := by
      rw [lastDigit, ← zpow_natCast, ← zpow_add₀ hb₀.ne']
      congr 1
      omega
    push_cast
    rw [mul_assoc, ← hk, hx]
  · have hlog : Int.log b |x| = p + k := by
      have hpow : |x| = (b : K) ^ ((p : ℤ) + k) := by
        rw [habs, zpow_add₀ hb₀.ne', zpow_natCast]
        congr 1
        exact_mod_cast heq
      rw [hpow, Int.log_zpow hb]
    obtain ⟨d, rfl⟩ : ∃ d : ℕ, p = d + 1 := ⟨p - 1, by omega⟩
    have hpow : (b : K) ^ (d + 1) * (b : K) ^ k = (b : K) ^ d * lastDigit b (d + 1) x := by
      rw [lastDigit, hlog, ← zpow_natCast, ← zpow_natCast, ← zpow_add₀ hb₀.ne',
        ← zpow_add₀ hb₀.ne']
      congr 1
      omega
    rcases (abs_eq (by positivity)).1 heq with hm' | hm'
    · refine ⟨(b : ℤ) ^ d, ?_⟩
      push_cast
      rw [← hpow, hx, hm']
      push_cast
      rfl
    · refine ⟨-(b : ℤ) ^ d, ?_⟩
      push_cast
      rw [neg_mul, ← hpow, hx, hm']
      push_cast
      rw [neg_mul]

/-- What has so few digits is kept. -/
theorem significant_eq_self (hb : 1 < b) (hp : 0 < p) {m k : ℤ} (hm : |m| ≤ (b : ℤ) ^ p) :
    significant b p ((m : K) * (b : K) ^ k) = m * (b : K) ^ k := by
  obtain ⟨x, hx⟩ : ∃ x : K, x = m * (b : K) ^ k := ⟨_, rfl⟩
  rw [← hx]
  obtain ⟨z, hz⟩ := exists_mul_lastDigit hb hp hm hx
  have hdiv : x / lastDigit b p x = z := by
    rw [div_eq_iff (lastDigit_pos hb x).ne']
    exact hz
  rw [significant, hdiv, roundHalfEven_intCast, ← hz]

/-- Rounding is off by less than the number itself, and keeps its sign. -/
theorem abs_sub_significant_le_abs (hb : 1 < b) (hp : 0 < p) (x : K) :
    |x - significant b p x| ≤ |x| / 2 := by
  refine (abs_sub_significant_le hb hp x).trans ?_
  have hone : (1 : K) ≤ (b : K) ^ (p - 1) := one_le_pow₀ (by exact_mod_cast hb.le)
  exact div_le_div_of_nonneg_left (abs_nonneg x) (by norm_num) (by linarith)

theorem significant_nonneg_iff (hb : 1 < b) (hp : 0 < p) {x : K} :
    0 ≤ significant b p x ↔ 0 ≤ x := by
  have h := abs_le.1 (abs_sub_significant_le_abs hb hp x)
  constructor
  · intro hsig
    by_contra hneg
    rw [not_le] at hneg
    rw [abs_of_neg hneg] at h
    linarith [h.1]
  · intro hx
    rw [abs_of_nonneg hx] at h
    linarith [h.2]

theorem significant_nonpos (hb : 1 < b) (hp : 0 < p) {x : K} (hx : x ≤ 0) :
    significant b p x ≤ 0 := by
  have h := abs_le.1 (abs_sub_significant_le_abs hb hp x)
  rw [abs_of_nonpos hx] at h
  linarith [h.1]

theorem significant_pos_iff (hb : 1 < b) (hp : 0 < p) {x : K} :
    0 < significant b p x ↔ 0 < x := by
  constructor
  · intro hsig
    by_contra hx
    exact absurd (significant_nonpos hb hp (not_lt.1 hx)) hsig.not_ge
  · intro hx
    have h := abs_le.1 (abs_sub_significant_le_abs hb hp x)
    rw [abs_of_pos hx] at h
    linarith [h.2]

/-- A number of at most `p` digits still bounds what is rounded. -/
theorem significant_le (hb : 1 < b) (hp : 0 < p) {m k : ℤ} (hm : |m| ≤ (b : ℤ) ^ p) {x : K}
    (hx : 0 ≤ x) (h : x ≤ m * (b : K) ^ k) : significant b p x ≤ m * (b : K) ^ k := by
  rcases hx.eq_or_lt with rfl | hx
  · rwa [significant_zero]
  have hb₀ : (0 : K) < b := by exact_mod_cast Nat.zero_lt_of_lt hb
  have hu := lastDigit_pos (p := p) hb x
  obtain ⟨y, hy⟩ : ∃ y : K, y = m * (b : K) ^ k := ⟨_, rfl⟩
  obtain ⟨z, hz⟩ := exists_mul_lastDigit hb hp hm hy
  rw [← hy] at h ⊢
  have hlog : Int.log b |x| ≤ Int.log b |y| := by
    rw [abs_of_pos hx, abs_of_pos (hx.trans_le h)]
    exact Int.log_mono_right hx h
  obtain ⟨d, hd⟩ := Int.eq_ofNat_of_zero_le
    (show 0 ≤ (Int.log b |y| - (p - 1 : ℤ)) - (Int.log b |x| - (p - 1 : ℤ)) by omega)
  have hmul : y = ((z * (b : ℤ) ^ d : ℤ) : K) * lastDigit b p x := by
    rw [hz]
    push_cast
    rw [mul_assoc, lastDigit, lastDigit, ← zpow_natCast, ← zpow_add₀ hb₀.ne']
    congr 2
    omega
  rw [hmul, significant]
  refine mul_le_mul_of_nonneg_right (Int.cast_le.2 (roundHalfEven_le ?_)) hu.le
  rw [div_le_iff₀ hu, ← hmul]
  exact h

/-- Rounding leaves at most `p` digits. -/
theorem exists_significant (hb : 1 < b) (x : K) :
    ∃ m k : ℤ, |m| ≤ (b : ℤ) ^ p ∧ significant b p x = m * (b : K) ^ k := by
  have hb₀ : (0 : K) < b := by exact_mod_cast Nat.zero_lt_of_lt hb
  refine ⟨_, _, ?_, rfl⟩
  have hu := lastDigit_pos (p := p) hb x
  have hlt : |x / lastDigit b p x| ≤ (b : K) ^ p := by
    rw [abs_div, abs_of_pos hu, div_le_iff₀ hu, lastDigit, ← zpow_natCast, ← zpow_add₀ hb₀.ne']
    have := (Int.lt_zpow_succ_log_self (R := K) hb |x|).le
    rwa [show (p : ℤ) + (Int.log b |x| - (p - 1 : ℤ)) = Int.log b |x| + 1 by omega]
  rw [abs_le] at hlt ⊢
  constructor
  · refine le_roundHalfEven ?_
    push_cast
    exact hlt.1
  · refine roundHalfEven_le ?_
    push_cast
    exact hlt.2

/-- What is rounded once is not rounded again. -/
theorem significant_significant (hb : 1 < b) (hp : 0 < p) (x : K) :
    significant b p (significant b p x) = significant b p x := by
  obtain ⟨m, k, hm, hx⟩ := exists_significant (p := p) hb x
  rw [hx]
  exact significant_eq_self hb hp hm

end Significant

/-! ## Relative errors -/

/-- `y` is `x` up to the part `ε` of it. -/
def Near (ε x y : K) : Prop := |y - x| ≤ ε * |x|

namespace Near

variable {ε δ x y z : K}

/-- A wider bound. -/
theorem mono (h : Near ε x y) (hle : ε ≤ δ) : Near δ x y :=
  le_trans h (mul_le_mul_of_nonneg_right hle (abs_nonneg x))

/-- Relative errors add up, with their product. -/
theorem trans (hxy : Near ε x y) (hyz : Near δ y z) (hδ : 0 ≤ δ) : Near (ε + δ + ε * δ) x z := by
  have hy : |y| ≤ |x| + ε * |x| := by
    have hsub := abs_sub_abs_le_abs_sub y x
    have hx : |y - x| ≤ ε * |x| := hxy
    linarith
  calc |z - x| ≤ |z - y| + |y - x| := abs_sub_le z y x
    _ ≤ δ * (|x| + ε * |x|) + ε * |x| :=
        add_le_add (le_trans hyz (mul_le_mul_of_nonneg_left hy hδ)) hxy
    _ = (ε + δ + ε * δ) * |x| := by ring

/-- The other number is near in turn, by a bit more. -/
theorem symm (h : Near ε x y) (hε : 0 ≤ ε) (hone : ε < 1) : Near (ε / (1 - ε)) y x := by
  have hy : (1 - ε) * |x| ≤ |y| := by
    have hsub := abs_sub_abs_le_abs_sub x y
    have hx : |y - x| ≤ ε * |x| := h
    rw [abs_sub_comm] at hx
    linarith
  rw [Near, abs_sub_comm, div_mul_eq_mul_div, le_div_iff₀ (sub_pos.2 hone)]
  calc |y - x| * (1 - ε) ≤ ε * |x| * (1 - ε) :=
        mul_le_mul_of_nonneg_right h (sub_pos.2 hone).le
    _ = ε * ((1 - ε) * |x|) := by ring
    _ ≤ ε * |y| := mul_le_mul_of_nonneg_left hy hε

/-- A factor leaves relative errors. -/
theorem mul_right (h : Near ε x y) (c : K) : Near ε (x * c) (y * c) := by
  rw [Near, ← sub_mul, abs_mul, abs_mul, ← mul_assoc]
  exact mul_le_mul_of_nonneg_right h (abs_nonneg c)

end Near

/-- Rounding to digits has a small relative error. -/
theorem near_significant {b p : ℕ} (hb : 1 < b) (hp : 0 < p) (x : K) :
    Near (1 / (2 * (b : K) ^ (p - 1))) x (significant b p x) := by
  rw [Near, abs_sub_comm, one_div_mul_eq_div]
  exact abs_sub_significant_le hb hp x

/-- The error of the decimal context. -/
theorem near_decimal28 (x : K) : Near (1 / (2 * 10 ^ 27)) x (decimal28 x) := by
  have h := near_significant (b := 10) (p := 28) (by norm_num) (by norm_num) x
  exact h.mono (by norm_num)

/-! ## Numbers of a few places -/

/-- A number of at most `n` decimal places. -/
def HasPlaces (n : ℕ) (x : K) : Prop := ∃ z : ℤ, x = z / 10 ^ n

/-- What is rounded to places has them. -/
theorem hasPlaces_quantize (n : ℕ) (x : K) : HasPlaces n (quantize n x) := ⟨_, rfl⟩

/-- Places are told by the denominator. -/
theorem hasPlaces_iff_den {n : ℕ} {x : ℚ} : HasPlaces n x ↔ (x * 10 ^ n).den = 1 := by
  have hpos : (10 : ℚ) ^ n ≠ 0 := by positivity
  constructor
  · rintro ⟨z, rfl⟩
    rw [div_mul_cancel₀ _ hpos, Rat.den_intCast]
  · intro h
    exact ⟨(x * 10 ^ n).num, by rw [(Rat.den_eq_one_iff _).1 h, mul_div_cancel_right₀ _ hpos]⟩

namespace HasPlaces

variable {m n k p : ℕ} {x y : K}

theorem zero (n : ℕ) : HasPlaces n (0 : K) := ⟨0, by simp⟩

theorem intCast (n : ℕ) (z : ℤ) : HasPlaces n (z : K) := by
  refine ⟨z * 10 ^ n, ?_⟩
  push_cast
  rw [mul_div_cancel_right₀ _ (by positivity)]

theorem add (hx : HasPlaces n x) (hy : HasPlaces n y) : HasPlaces n (x + y) := by
  obtain ⟨a, rfl⟩ := hx
  obtain ⟨b, rfl⟩ := hy
  exact ⟨a + b, by push_cast; rw [add_div]⟩

theorem sub (hx : HasPlaces n x) (hy : HasPlaces n y) : HasPlaces n (x - y) := by
  obtain ⟨a, rfl⟩ := hx
  obtain ⟨b, rfl⟩ := hy
  exact ⟨a - b, by push_cast; rw [sub_div]⟩

/-- Places add up in a product. -/
theorem mul (hx : HasPlaces m x) (hy : HasPlaces n y) : HasPlaces (m + n) (x * y) := by
  obtain ⟨a, rfl⟩ := hx
  obtain ⟨b, rfl⟩ := hy
  exact ⟨a * b, by push_cast; rw [pow_add, div_mul_div_comm]⟩

/-- What has the places is kept. -/
theorem quantize_eq (h : HasPlaces n x) : quantize n x = x := by
  obtain ⟨z, rfl⟩ := h
  exact Numerals.quantize_eq (by simp)

/-- With few places and of a small amount, it has few digits. -/
theorem significant_eq (h : HasPlaces n x) (hx : |x| ≤ 10 ^ k) (hp : n + k ≤ p) (hp₀ : 0 < p) :
    significant 10 p x = x := by
  obtain ⟨z, rfl⟩ := h
  have hpos : (0 : K) < 10 ^ n := by positivity
  rw [abs_div, abs_of_pos hpos, div_le_iff₀ hpos, ← pow_add] at hx
  have hz : |z| ≤ ((10 : ℕ) : ℤ) ^ p := by
    have hzk : |z| ≤ (10 : ℤ) ^ (k + n) := by exact_mod_cast hx
    exact hzk.trans (pow_le_pow_right₀ (by norm_num) (by omega))
  have hform : (z : K) / 10 ^ n = z * ((10 : ℕ) : K) ^ (-(n : ℤ)) := by
    rw [zpow_neg, zpow_natCast, div_eq_mul_inv]
    norm_num
  rw [hform]
  exact significant_eq_self (by norm_num) hp₀ hz

/-- Between two of them there is at least a unit of the last place. -/
theorem add_le_of_lt (hx : HasPlaces n x) (hy : HasPlaces n y) (h : x < y) :
    x + 1 / 10 ^ n ≤ y := by
  obtain ⟨a, rfl⟩ := hx
  obtain ⟨b, rfl⟩ := hy
  have hpos : (0 : K) < 10 ^ n := by positivity
  rw [div_lt_div_iff_of_pos_right hpos] at h
  rw [← add_div, div_le_div_iff_of_pos_right hpos]
  exact_mod_cast Int.add_one_le_iff.2 (Int.cast_lt.1 h)

/-- Rounding does not pass a number that has the places. -/
theorem le_quantize (hy : HasPlaces n y) (h : y ≤ x) : y ≤ quantize n x := by
  obtain ⟨z, rfl⟩ := hy
  have hpos : (0 : K) < 10 ^ n := by positivity
  have hle : z ≤ roundHalfEven (x * 10 ^ n) := le_roundHalfEven ((div_le_iff₀ hpos).1 h)
  rw [quantize]
  gcongr

/-- Less than half a unit is rounded away. -/
theorem quantize_le (hy : HasPlaces n y) (h : x < y + 1 / (2 * 10 ^ n)) : quantize n x ≤ y := by
  by_contra hlt
  have hstep := hy.add_le_of_lt (hasPlaces_quantize n x) (not_le.1 hlt)
  have hround := (abs_le.1 (abs_sub_quantize_le n x)).1
  have hunit : (1 : K) / 10 ^ n = 1 / (2 * 10 ^ n) + 1 / (2 * 10 ^ n) := by field_simp; norm_num
  linarith

end HasPlaces

theorem quantize_nonneg {n : ℕ} {x : K} (hx : 0 ≤ x) : 0 ≤ quantize n x :=
  (HasPlaces.zero n).le_quantize hx


/-! ## Doubles -/

/-- A binary float of 53 digits, by its value. Its exponent is not bounded here. -/
structure Double where
  value : ℚ
  isDouble : significant 2 53 value = value

namespace Double

@[ext] theorem ext {f g : Double} (h : f.value = g.value) : f = g := by
  cases f
  cases g
  congr

instance : DecidableEq Double := fun f g =>
  decidable_of_iff (f.value = g.value) ⟨ext, fun h => by rw [h]⟩

/-- `float`, the nearest double. -/
def ofRat (x : ℚ) : Double :=
  ⟨significant 2 53 x, significant_significant (by norm_num) (by norm_num) x⟩

/-- `round(f, n)`, the double next to the nearest decimal. -/
def round (n : ℕ) (f : Double) : Double := ofRat (quantize n f.value)

/-- The decimals of `n` digits next to a number, the nearest first. -/
def decimalsOf (n : ℕ) (x : ℚ) : List ℚ :=
  let d := lastDigit 10 n x
  [significant 10 n x, ⌊x / d⌋ * d, (⌊x / d⌋ + 1) * d]

/-- `repr`, as a number. 17 digits tell all doubles apart. -/
def shortest (f : Double) : ℚ :=
  (((List.range 17).flatMap fun n => decimalsOf (n + 1) f.value).find? fun d => ofRat d = f).getD
    f.value

@[simp] theorem ofRat_value (f : Double) : ofRat f.value = f := ext f.isDouble

/-- Written and read again. -/
@[simp] theorem ofRat_shortest (f : Double) : ofRat f.shortest = f := by
  unfold shortest
  cases h : ((List.range 17).flatMap fun n => decimalsOf (n + 1) f.value).find?
      fun d => ofRat d = f with
  | none => exact f.ofRat_value
  | some d => simpa using List.find?_some h

/-- The error of a double. -/
theorem near_ofRat (x : ℚ) : Near (1 / 2 ^ 53) x (ofRat x).value :=
  near_significant (b := 2) (p := 53) (by norm_num) (by norm_num) x |>.mono (by norm_num)

/-- What is read is close to what was written. -/
theorem abs_shortest_sub_le (x : ℚ) : |(ofRat x).shortest - x| ≤ |x| / 2 ^ 51 := by
  have hshortest := near_ofRat (ofRat x).shortest
  rw [ofRat_shortest] at hshortest
  have hnear := ((near_ofRat x).trans (hshortest.symm (by norm_num) (by norm_num))
    (by norm_num)).mono (δ := 1 / 2 ^ 51) (by norm_num)
  rwa [Near, one_div_mul_eq_div] at hnear

/-- A decimal of at most 15 digits comes back. -/
theorem quantize_shortest {n : ℕ} {z : ℤ} (hz : |z| < 10 ^ 15) :
    quantize n (ofRat (z / 10 ^ n)).shortest = z / 10 ^ n := by
  refine quantize_eq ((abs_shortest_sub_le _).trans_lt ?_)
  have hpos : (0 : ℚ) < 10 ^ n := by positivity
  have hz' : |(z : ℚ)| < 10 ^ 15 := by exact_mod_cast hz
  rw [abs_div, abs_of_pos hpos, div_div, div_lt_div_iff₀ (by positivity) (by positivity)]
  have h : |(z : ℚ)| * 2 < 2 ^ 51 := by
    norm_num at hz' ⊢
    linarith
  calc |(z : ℚ)| * (2 * 10 ^ n) = |(z : ℚ)| * 2 * 10 ^ n := by ring
    _ < 2 ^ 51 * 10 ^ n := mul_lt_mul_of_pos_right h hpos
    _ = 1 * (10 ^ n * 2 ^ 51) := by ring

end Double

/-! ## Columns of decimals -/

/-- A value of a column `NUMERIC(p, n)` : `p` digits in all, `n` of them after the point. -/
structure Numeric (p n : ℕ) where
  coeff : ℤ
  fits : |coeff| < 10 ^ p
  deriving DecidableEq

namespace Numeric

variable {p n q m : ℕ}

/-- The number in the column. -/
def value (x : Numeric p n) : ℚ := x.coeff / 10 ^ n

instance : Zero (Numeric p n) := ⟨⟨0, by positivity⟩⟩

@[simp] theorem value_zero : (0 : Numeric p n).value = 0 := by
  have hcoeff : (0 : Numeric p n).coeff = 0 := rfl
  simp [value, hcoeff]

/-- The number as a value of the column, if it is one. -/
def ofRat? (p n : ℕ) (x : ℚ) : Option (Numeric p n) :=
  if h : (x * 10 ^ n).den = 1 ∧ |(x * 10 ^ n).num| < 10 ^ p then some ⟨(x * 10 ^ n).num, h.2⟩
  else none

/-- A column takes back what it holds. -/
theorem ofRat?_value (x : Numeric p n) : ofRat? p n x.value = some x := by
  have hpos : (10 : ℚ) ^ n ≠ 0 := by positivity
  have hx : x.value * 10 ^ n = x.coeff := div_mul_cancel₀ _ hpos
  unfold ofRat?
  simp only [hx, Rat.den_intCast, Rat.num_intCast, true_and, dif_pos x.fits]

/-- What a column takes is the number itself. -/
theorem ofRat?_eq_some {x : ℚ} {y : Numeric p n} : ofRat? p n x = some y ↔ y.value = x := by
  constructor
  · intro h
    unfold ofRat? at h
    split at h
    · next hx =>
      obtain rfl := Option.some.inj h
      have hnum : ((x * 10 ^ n).num : ℚ) = x * 10 ^ n := (Rat.den_eq_one_iff _).1 hx.1
      rw [value, hnum, mul_div_cancel_right₀ _ (by positivity)]
    · cases h
  · rintro rfl
    exact ofRat?_value y

/-- Rounding does not pass a value of the column. -/
theorem quantize_le {x : ℚ} {y : Numeric p n} (h : x ≤ y.value) : quantize n x ≤ y.value := by
  have hpos : (0 : ℚ) < 10 ^ n := by positivity
  have hle : roundHalfEven (x * 10 ^ n) ≤ y.coeff := roundHalfEven_le ((le_div_iff₀ hpos).1 h)
  rw [quantize, value]
  gcongr

/-- Rounding does not pass a number of the column. -/
theorem le_quantize {x : ℚ} {y : Numeric p n} (h : y.value ≤ x) : y.value ≤ quantize n x := by
  have hpos : (0 : ℚ) < 10 ^ n := by positivity
  have hle : y.coeff ≤ roundHalfEven (x * 10 ^ n) := le_roundHalfEven ((div_le_iff₀ hpos).1 h)
  rw [quantize, value]
  gcongr

/-- A rounded number is one if it is not too large. -/
theorem isSome_ofRat?_quantize (x : ℚ) :
    (ofRat? p n (quantize n x)).isSome = true ↔ |quantize n x| * 10 ^ n < 10 ^ p := by
  have hpos : (0 : ℚ) < 10 ^ n := by positivity
  have hx : quantize n x * 10 ^ n = roundHalfEven (x * 10 ^ n) := div_mul_cancel₀ _ hpos.ne'
  have habs : |quantize n x| * 10 ^ n = (|roundHalfEven (x * 10 ^ n)| : ℤ) := by
    rw [← abs_of_pos hpos, ← abs_mul, abs_of_pos hpos, hx]
    push_cast
    rfl
  rw [habs]
  unfold ofRat?
  simp only [hx, Rat.den_intCast, Rat.num_intCast, true_and]
  split
  · next h =>
    refine iff_of_true rfl ?_
    exact_mod_cast h
  · next h =>
    refine iff_of_false Bool.false_ne_true fun hlt => h ?_
    exact_mod_cast hlt

/-- The product of two of them has at most `p + q` digits. -/
theorem significant_mul {k : ℕ} (hk : p + q ≤ k) (hk₀ : 0 < k) (x : Numeric p n) (y : Numeric q m)
    (d : ℕ) : significant 10 k (x.value * y.value / 10 ^ d) = x.value * y.value / 10 ^ d := by
  have hprod : x.value * y.value / 10 ^ d =
      ((x.coeff * y.coeff : ℤ) : ℚ) * ((10 : ℕ) : ℚ) ^ (-((n + m + d : ℕ) : ℤ)) := by
    rw [value, value, zpow_neg, zpow_natCast]
    push_cast
    field_simp
    ring
  have hle : |x.coeff * y.coeff| ≤ ((10 : ℕ) : ℤ) ^ k := by
    rw [abs_mul]
    calc |x.coeff| * |y.coeff| ≤ 10 ^ p * 10 ^ q :=
          mul_le_mul x.fits.le y.fits.le (abs_nonneg _) (by positivity)
      _ = 10 ^ (p + q) := (pow_add _ _ _).symm
      _ ≤ 10 ^ k := pow_le_pow_right₀ (by norm_num) hk
  rw [hprod]
  exact significant_eq_self (by norm_num) hk₀ hle

/-- What is read from a double. -/
def ofDouble? (p n : ℕ) (f : Double) : Option (Numeric p n) := ofRat? p n (quantize n f.shortest)

/-- A value of at most 15 digits comes back from the double it was written as. -/
theorem ofDouble?_ofRat (hp : p ≤ 15) (x : Numeric p n) :
    ofDouble? p n (Double.ofRat x.value) = some x := by
  have hz : |x.coeff| < 10 ^ 15 := x.fits.trans_le (pow_le_pow_right₀ (by norm_num) hp)
  have hback : quantize n (Double.ofRat x.value).shortest = x.value := Double.quantize_shortest hz
  rw [ofDouble?, hback, ofRat?_value]

end Numeric

end Numerals
