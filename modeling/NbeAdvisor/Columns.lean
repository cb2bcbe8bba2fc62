import NbeAdvisor.Records
import Mathlib.Data.List.Basic

/-!
# What the columns of the database take

PostgreSQL keeps no NUL in a text. A `varchar(n)` column refuses a text that is longer than its
width, unless all that is beyond the width is blanks. These it cuts without a word (`cutBlanks`), so
that a row may hold another text than the one that was sent, and a lookup with the text that was
sent does not find it. A text that fits is kept as it is (`TextFits.cut_eq`).

`jsonb` takes a JSON text whose strings can be made texts of the database: no escape in it is that
of NUL or of one half of a surrogate pair without the other.
-/

namespace NbeAdvisor

/-- A text that a `text` column takes. -/
def TextStorable (s : String) : Prop := Char.ofNat 0 ∉ s.toList

instance (s : String) : Decidable (TextStorable s) := by
  unfold TextStorable
  infer_instance

/-- A text that a `varchar(n)` column takes and keeps as it is. -/
def TextFits (n : ℕ) (s : String) : Prop := s.toList.length ≤ n ∧ TextStorable s

instance (n : ℕ) (s : String) : Decidable (TextFits n s) := by
  unfold TextFits
  infer_instance

/-- What a `varchar(n)` column makes of a text : the blanks beyond its width are cut. -/
def cutBlanks (n : ℕ) (s : String) : String :=
  if (s.toList.drop n).all (· = ' ') then String.ofList (s.toList.take n) else s

/-- Within the width nothing is cut. -/
theorem cutBlanks_of_length {n : ℕ} {s : String} (h : s.toList.length ≤ n) : cutBlanks n s = s := by
  rw [cutBlanks, List.drop_eq_nil_of_le h, if_pos List.all_nil, List.take_of_length_le h,
    String.ofList_toList]

/-- What fits is kept. -/
theorem TextFits.cut_eq {n : ℕ} {s : String} (h : TextFits n s) : cutBlanks n s = s :=
  cutBlanks_of_length h.1

/-- The same for a nullable column. -/
theorem map_cutBlanks_of_fits {n : ℕ} {o : Option String} (h : ∀ s ∈ o, TextFits n s) :
    o.map (cutBlanks n) = o := by
  cases o with
  | none => rfl
  | some s => exact congrArg some (h s rfl).cut_eq

/-- What was cut is not cut again. -/
theorem cutBlanks_cutBlanks (n : ℕ) (s : String) : cutBlanks n (cutBlanks n s) = cutBlanks n s := by
  by_cases h : (s.toList.drop n).all (· = ' ') = true
  · refine cutBlanks_of_length ?_
    rw [cutBlanks, if_pos h, String.toList_ofList, List.length_take]
    exact Nat.min_le_left _ _
  · have hsame : cutBlanks n s = s := if_neg h
    rw [hsame, hsame]

/-- A `varchar(n)` column takes the text, cut or as it is. -/
def TextTakes (n : ℕ) (s : String) : Prop := TextFits n (cutBlanks n s)

instance (n : ℕ) (s : String) : Decidable (TextTakes n s) :=
  inferInstanceAs (Decidable (TextFits n (cutBlanks n s)))

/-- What fits is taken. -/
theorem TextFits.takes {n : ℕ} {s : String} (h : TextFits n s) : TextTakes n s := by
  rw [TextTakes, h.cut_eq]
  exact h

/-- `CharField(max_length=n)`, of a text that has no blanks around. -/
def CharFits (n : ℕ) (s : String) : Prop := s ≠ "" ∧ TextFits n s

instance (n : ℕ) (s : String) : Decidable (CharFits n s) := by
  unfold CharFits
  infer_instance

/-- An amount that a `numeric(14, 2)` column takes. -/
def AmountFits (a : ℤ) : Prop := a.natAbs < 10 ^ 14

instance (a : ℤ) : Decidable (AmountFits a) := by
  unfold AmountFits
  infer_instance

/-! ## JSON texts -/

/-- The value of a hexadecimal digit. -/
def hexDigit (c : Char) : ℕ :=
  if c.isDigit then c.toNat - '0'.toNat
  else if 'a' ≤ c ∧ c ≤ 'f' then c.toNat - 'a'.toNat + 10
  else c.toNat - 'A'.toNat + 10

/-- The code unit of an escape with these digits. -/
def codeUnit (digits : List Char) : ℕ := digits.foldl (fun n c => 16 * n + hexDigit c) 0

/-- The lexer of `jsonb` over the rest of a JSON text. `high` says that the first half of a
surrogate pair has just been read. -/
def jsonbScan (high : Bool) : List Char → Bool
  | '\\' :: 'u' :: a :: b :: c :: d :: l =>
    let unit := codeUnit [a, b, c, d]
    if 0xd800 ≤ unit ∧ unit < 0xdc00 then !high && jsonbScan true l
    else if 0xdc00 ≤ unit ∧ unit < 0xe000 then high && jsonbScan false l
    else !high && unit ≠ 0 && jsonbScan false l
  | '\\' :: _ :: l => !high && jsonbScan false l
  | _ :: l => !high && jsonbScan false l
  | [] => !high

/-- `jsonb` takes the JSON text. -/
def JsonbTakes (text : String) : Prop := jsonbScan false text.toList = true

instance (text : String) : Decidable (JsonbTakes text) := by
  unfold JsonbTakes
  infer_instance

/-- An escape of NUL, and half a surrogate pair. -/
example : (["\"a\\u0000\"", "\"\\ud83d\"", "\"\\ud83d\\ude00\"", "\"\\\\u0000\""].map fun text =>
    decide (JsonbTakes text)) = [false, false, true, true] := by
  decide

end NbeAdvisor
