import NbeAdvisor.Calendar

/-!
# Days between dates

`toordinal`, and the sum of a date and a `timedelta` of whole days, which is undefined outside of
the years `1` to `9999`. `ofOrdinal` finds a date for every number of a day that there is
(`ofOrdinal_toordinal`), so a sum is defined exactly if its number is in range
(`addDays_isSome_iff`).
-/

namespace NbeAdvisor

/-- The months depend on the year by its leap day. -/
theorem daysInMonth_congr {year year' : ℕ} (h : isLeap year = isLeap year') :
    daysInMonth year = daysInMonth year' := by
  funext m
  unfold daysInMonth
  rw [h]

namespace Date

/-- The number of 9999-12-31. -/
def maxOrdinal : ℕ := 3652059

/-- `date.toordinal`. -/
def toordinal (d : Date) : ℕ := daysBeforeYear d.year + daysBeforeMonth d.year d.month + d.day

/-- `date + timedelta(days=..)`, `none` where it raises `OverflowError`. -/
def addDays (d : Date) (days : ℤ) : Option Date :=
  if 0 < d.toordinal + days ∧ d.toordinal + days ≤ maxOrdinal then
    ofOrdinal (d.toordinal + days).toNat
  else none

/-- `(d - e).days`. -/
def daysSince (d e : Date) : ℤ := d.toordinal - e.toordinal

/-- There are two calendars of a year : what holds of both, by the days in and before their
months, holds of every year. -/
theorem of_calendars {P : (ℕ → ℕ) → (ℕ → ℕ) → Prop} (year : ℕ)
    (h₁ : P (daysInMonth 1) (daysBeforeMonth 1)) (h₄ : P (daysInMonth 4) (daysBeforeMonth 4)) :
    P (daysInMonth year) (daysBeforeMonth year) := by
  have hcongr : ∀ rep, isLeap year = isLeap rep → P (daysInMonth rep) (daysBeforeMonth rep) →
      P (daysInMonth year) (daysBeforeMonth year) := by
    intro rep h
    have hbefore : daysBeforeMonth year = daysBeforeMonth rep := by
      funext m
      unfold daysBeforeMonth
      rw [daysInMonth_congr h]
    rw [hbefore, daysInMonth_congr h]
    exact id
  cases hleap : isLeap year with
  | false => exact hcongr 1 (by rw [hleap]; decide) h₁
  | true => exact hcongr 4 (by rw [hleap]; decide) h₄

/-- The month of the day `n` of a year, from zero. -/
def monthOfDay (before : ℕ → ℕ) (n : ℕ) : ℕ :=
  ((List.range 13).filter fun m => 1 ≤ m ∧ before m ≤ n).length

/-- The month of a day, and the day in it. -/
theorem day_in_month (year : ℕ) : ∀ n < 365,
    daysBeforeMonth year (monthOfDay (daysBeforeMonth year) n) ≤ n ∧
      n - daysBeforeMonth year (monthOfDay (daysBeforeMonth year) n) + 1 ≤
        daysInMonth year (monthOfDay (daysBeforeMonth year) n) :=
  of_calendars (P := fun days before => ∀ n < 365, before (monthOfDay before n) ≤ n ∧
    n - before (monthOfDay before n) + 1 ≤ days (monthOfDay before n)) year
    (by decide +kernel) (by decide +kernel)

/-- No month ends after the year. -/
theorem daysBeforeMonth_add_le (year : ℕ) :
    ∀ m ≤ 12, daysBeforeMonth year m + daysInMonth year m ≤ 366 :=
  of_calendars (P := fun days before => ∀ m ≤ 12, before m + days m ≤ 366) year
    (by decide) (by decide)

theorem le_daysBeforeMonth (year : ℕ) : ∀ m ≤ 12, 2 ≤ m → 31 ≤ daysBeforeMonth year m :=
  of_calendars (P := fun _ before => ∀ m ≤ 12, 2 ≤ m → 31 ≤ before m) year
    (by decide) (by decide)

theorem daysBeforeMonth_december {year : ℕ} (h : isLeap year = true) :
    daysBeforeMonth year 12 = 335 := by
  have hdays : daysInMonth year 2 = 29 := by simp [daysInMonth, h]
  have hall := of_calendars (P := fun days before => days 2 = 29 → before 12 = 335) year
    (by decide) (by decide)
  exact hall hdays

/-- The days before a year whose number is given by cycles. -/
theorem daysBeforeYear_cycles {a b c d : ℕ} (hb : b ≤ 3) (hc : c ≤ 24) (hd : d ≤ 3) :
    daysBeforeYear (a * 400 + 1 + b * 100 + c * 4 + d) =
      a * 146097 + b * 36524 + c * 1461 + d * 365 := by
  unfold daysBeforeYear
  omega

/-- A valid date is the date. -/
theorem ofYmd_eq_some {year month day : ℕ} (hyear : 1 ≤ year ∧ year ≤ 9999)
    (hday : 1 ≤ day ∧ day ≤ daysInMonth year month) :
    ofYmd year month day = some ⟨year, month, day, hyear, hday⟩ := dif_pos ⟨hyear, hday⟩

/-- Every number of a day is that of a date. -/
theorem ofOrdinal_toordinal {n : ℕ} (hn : 1 ≤ n) (hmax : n ≤ maxOrdinal) :
    ∃ d, ofOrdinal n = some d ∧ d.toordinal = n := by
  unfold maxOrdinal at hmax
  unfold ofOrdinal
  dsimp only
  generalize ha : (n - 1) / 146097 = a
  generalize hr : (n - 1) % 146097 = r
  generalize hb : r / 36524 = b
  generalize hs : r % 36524 = s
  generalize hc : s / 1461 = c
  generalize hu : s % 1461 = u
  generalize hd : u / 365 = d
  generalize hv : u % 365 = v
  split
  · next hlast =>
    obtain ⟨y, hy, hdays, hleap⟩ : ∃ y, a * 400 + 1 + b * 100 + c * 4 + d - 1 = y ∧
        daysBeforeYear y + 366 = n ∧ isLeap y = true := by
      refine ⟨_, rfl, ?_, ?_⟩
      · rcases hlast with hd4 | hb4
        · have hyear : a * 400 + 1 + b * 100 + c * 4 + d - 1 =
              a * 400 + 1 + b * 100 + c * 4 + 3 := by omega
          rw [hyear, daysBeforeYear_cycles (by omega) (by omega) (by omega)]
          omega
        · have hyear : a * 400 + 1 + b * 100 + c * 4 + d - 1 =
              a * 400 + 1 + 3 * 100 + 24 * 4 + 3 := by omega
          rw [hyear, daysBeforeYear_cycles (by omega) (by omega) (by omega)]
          omega
      · unfold isLeap
        simp only [Bool.and_eq_true, Bool.or_eq_true, beq_iff_eq, bne_iff_ne]
        omega
    have hday : 1 ≤ 31 ∧ 31 ≤ daysInMonth y 12 := ⟨by decide, le_rfl⟩
    rw [hy]
    refine ⟨_, ofYmd_eq_some (by omega) hday, ?_⟩
    unfold toordinal
    dsimp only
    rw [daysBeforeMonth_december hleap]
    omega
  · next hlast =>
    obtain ⟨hle, hin⟩ := day_in_month (a * 400 + 1 + b * 100 + c * 4 + d) v (by omega)
    unfold monthOfDay at hle hin
    have hyear : 1 ≤ a * 400 + 1 + b * 100 + c * 4 + d ∧
        a * 400 + 1 + b * 100 + c * 4 + d ≤ 9999 := by omega
    refine ⟨_, ofYmd_eq_some hyear ⟨by omega, hin⟩, ?_⟩
    unfold toordinal
    dsimp only
    rw [daysBeforeYear_cycles (by omega) (by omega) (by omega)]
    omega

/-- No date is after the last. -/
theorem toordinal_le (d : Date) : d.toordinal ≤ maxOrdinal := by
  have hyear := d.year_valid
  have hday := d.day_valid
  have hmonth := daysBeforeMonth_add_le d.year d.month d.month_le
  unfold toordinal daysBeforeYear maxOrdinal
  by_cases hlast : d.year = 9999
  · have hleap : isLeap d.year = false := by rw [hlast]; decide
    have hfeb : daysInMonth d.year 2 = 28 := by simp [daysInMonth, hleap]
    have hall := of_calendars (P := fun days before => days 2 = 28 →
      ∀ m ≤ 12, before m + days m ≤ 365) d.year (by decide) (by decide)
    have := hall hfeb d.month d.month_le
    omega
  · omega

/-- A sum is a date if it is within the calendar. -/
theorem addDays_isSome_iff {d : Date} {days : ℤ} : (d.addDays days).isSome = true ↔
    0 < d.toordinal + days ∧ d.toordinal + days ≤ maxOrdinal := by
  unfold addDays
  constructor
  · intro h
    split at h
    · assumption
    · cases h
  · intro h
    rw [if_pos h]
    obtain ⟨e, he, -⟩ := @ofOrdinal_toordinal (d.toordinal + days).toNat (by omega) (by omega)
    rw [he]
    rfl

/-- Days are added to the ordinal. -/
theorem toordinal_addDays {d e : Date} {days : ℤ} (h : d.addDays days = some e) :
    (e.toordinal : ℤ) = d.toordinal + days := by
  have hrange := addDays_isSome_iff.1 (by rw [h]; rfl)
  rw [addDays, if_pos hrange] at h
  obtain ⟨e', he', hord⟩ := @ofOrdinal_toordinal (d.toordinal + days).toNat (by omega) (by omega)
  rw [he', Option.some.injEq] at h
  rw [← h, hord]
  omega

end Date

end NbeAdvisor
