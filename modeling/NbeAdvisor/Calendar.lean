import Mathlib.Order.Lattice
import Mathlib.Order.Defs.LinearOrder
import Mathlib.Order.Basic

/-!
# Calendar dates

Python's `date` with the parts of it the ledger and the statement pipeline use : the
order (`min` and `max` of a batch), `isoformat`, and `fromisoformat` in the four forms
it accepts (calendar and week dates, with and without hyphens). A `Date` carries the
proof that its month and day exist, so no function here can build another one.
-/

namespace NbeAdvisor

/-- `calendar.isleap`. -/
def isLeap (year : ℕ) : Bool :=
  year % 4 == 0 && (year % 100 != 0 || year % 400 == 0)

/-- Days of a month, `0` for a month that does not exist. -/
def daysInMonth (year : ℕ) : ℕ → ℕ
  | 2 => if isLeap year then 29 else 28
  | 4 | 6 | 9 | 11 => 30
  | 1 | 3 | 5 | 7 | 8 | 10 | 12 => 31
  | _ => 0

/-- A `date` : years `1` to `9999`, and a day its month has. -/
structure Date where
  year : ℕ
  month : ℕ
  day : ℕ
  year_valid : 1 ≤ year ∧ year ≤ 9999
  day_valid : 1 ≤ day ∧ day ≤ daysInMonth year month
  deriving DecidableEq, Repr

namespace Date

/-- `date(year, month, day)`, `none` where it raises `ValueError`. -/
def ofYmd (year month day : ℕ) : Option Date :=
  if h : (1 ≤ year ∧ year ≤ 9999) ∧ 1 ≤ day ∧ day ≤ daysInMonth year month then
    some ⟨year, month, day, h.1, h.2⟩
  else none

theorem month_le (d : Date) : d.month ≤ 12 := by
  have hd := d.day_valid
  by_contra h
  have h0 : daysInMonth d.year d.month = 0 := by
    unfold daysInMonth
    split <;> omega
  omega

theorem day_le (d : Date) : d.day ≤ 31 := by
  have hd := d.day_valid
  have h31 : daysInMonth d.year d.month ≤ 31 := by
    unfold daysInMonth
    split <;> first | (split <;> omega) | omega
  omega

/-- Year, month and day as the digits of one number : dates compare as these do. -/
def code (d : Date) : ℕ := (d.year * 100 + d.month) * 100 + d.day

/-- A date is told by its year, month and day. -/
theorem code_injective : Function.Injective code := by
  rintro ⟨y, m, d, hy, hd⟩ ⟨y', m', d', hy', hd'⟩ h
  have hm := month_le ⟨y, m, d, hy, hd⟩
  have hm' := month_le ⟨y', m', d', hy', hd'⟩
  have hd31 := day_le ⟨y, m, d, hy, hd⟩
  have hd31' := day_le ⟨y', m', d', hy', hd'⟩
  simp only [code] at h hm hm' hd31 hd31'
  obtain rfl : y = y' := by omega
  obtain rfl : m = m' := by omega
  obtain rfl : d = d' := by omega
  rfl

instance : LinearOrder Date := LinearOrder.lift' code code_injective

/-! ## ISO 8601 -/

/-- Days before the first of January of `year`. -/
def daysBeforeYear (year : ℕ) : ℕ :=
  (year - 1) * 365 + (year - 1) / 4 - (year - 1) / 100 + (year - 1) / 400

/-- Days of `year` before the first of `month`. -/
def daysBeforeMonth (year month : ℕ) : ℕ :=
  (List.range month).foldl (fun days m => days + daysInMonth year m) 0

/-- `date.fromordinal` : the date whose proleptic Gregorian ordinal is `n`, by the
400-, 100-, 4- and 1-year cycles. -/
def ofOrdinal (n : ℕ) : Option Date :=
  let n := n - 1
  let n400 := n / 146097
  let n := n % 146097
  let n100 := n / 36524
  let n := n % 36524
  let n4 := n / 1461
  let n := n % 1461
  let n1 := n / 365
  let n := n % 365
  let year := n400 * 400 + 1 + n100 * 100 + n4 * 4 + n1
  if n1 = 4 ∨ n100 = 4 then ofYmd (year - 1) 12 31
  else
    let month := ((List.range 13).filter fun m => 1 ≤ m ∧ daysBeforeMonth year m ≤ n).length
    ofYmd year month (n - daysBeforeMonth year month + 1)

/-- Ordinal of the Monday that starts week 1 of an ISO year. -/
def isoWeek1Monday (year : ℕ) : ℕ :=
  let firstDay := daysBeforeYear year + 1
  let firstWeekday := (firstDay + 6) % 7
  if 3 < firstWeekday then firstDay - firstWeekday + 7 else firstDay - firstWeekday

/-- `date.fromisocalendar`. Week 53 exists in the years that start on a Thursday, and in
the leap years that start on a Wednesday. -/
def ofIsoCalendar (year week day : ℕ) : Option Date :=
  let firstWeekday := (daysBeforeYear year + 1) % 7
  let hasWeek53 := firstWeekday = 4 ∨ (firstWeekday = 3 ∧ isLeap year)
  if (1 ≤ year ∧ year ≤ 9999) ∧ (1 ≤ week ∧ (week ≤ 52 ∨ week = 53 ∧ hasWeek53)) ∧
      1 ≤ day ∧ day ≤ 7 then
    ofOrdinal (isoWeek1Monday year + (week - 1) * 7 + (day - 1))
  else none

/-- The number a list of ASCII digits spells. -/
def number : List Char → Option ℕ :=
  List.foldl (fun acc c => acc.bind fun n =>
    if '0' ≤ c ∧ c ≤ '9' then some (n * 10 + (c.toNat - 48)) else none) (some 0)

/-- `date(year, month, day)` of three digit groups. -/
def ofDigits (y m d : List Char) : Option Date := do
  ofYmd (← number y) (← number m) (← number d)

/-- `date.fromisocalendar` of a year, a week and a day. -/
def ofWeekDigits (y w d : List Char) : Option Date := do
  ofIsoCalendar (← number y) (← number w) (← number d)

/-- `date.fromisoformat`, `none` where it raises `ValueError` : `YYYY-MM-DD`, `YYYYMMDD`,
`YYYY-Www-D`, `YYYYWwwD`, and a week without a day is its Monday. -/
def fromisoformat (s : String) : Option Date :=
  match s.toList with
  | [y1, y2, y3, y4, '-', 'W', w1, w2, '-', d] => ofWeekDigits [y1, y2, y3, y4] [w1, w2] [d]
  | [y1, y2, y3, y4, '-', m1, m2, '-', d1, d2] => ofDigits [y1, y2, y3, y4] [m1, m2] [d1, d2]
  | [y1, y2, y3, y4, '-', 'W', w1, w2] => ofWeekDigits [y1, y2, y3, y4] [w1, w2] ['1']
  | [y1, y2, y3, y4, 'W', w1, w2, d] => ofWeekDigits [y1, y2, y3, y4] [w1, w2] [d]
  | [y1, y2, y3, y4, 'W', w1, w2] => ofWeekDigits [y1, y2, y3, y4] [w1, w2] ['1']
  | [y1, y2, y3, y4, m1, m2, d1, d2] => ofDigits [y1, y2, y3, y4] [m1, m2] [d1, d2]
  | _ => none

example : (fromisoformat "2026-07-01").map code = some 20260701 := by decide
example : (fromisoformat "2026-W27-3").map code = some 20260701 := by decide
example : fromisoformat "2026-02-29" = none := by decide

end Date

end NbeAdvisor
