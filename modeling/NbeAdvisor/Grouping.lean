import Mathlib.Algebra.BigOperators.Group.List.Basic
import Mathlib.Data.List.Dedup

/-!
# Sums over groups

The rows with one key are a group, and a row without a key is in none. `totals` has every key
there is once, with the sum over its group. Distinct keys share no rows, so their sums add up to
that of all rows with one of the keys (`sum_total`).
-/

namespace Grouping

variable {α κ M : Type*} [DecidableEq κ] [AddCommMonoid M] (key : α → Option κ) (amount : α → M)

/-- The sum over the rows with the key `k`. -/
def total (xs : List α) (k : κ) : M := ((xs.filter fun x => key x = some k).map amount).sum

/-- The keys and their sums. -/
def totals (xs : List α) : List (κ × M) :=
  (xs.filterMap key).dedup.map fun k => (k, total key amount xs k)

variable {key amount} {xs : List α} {ks : List κ} {k : κ} {m : M}

/-- The groups are those of the items, each with its total. -/
theorem mem_totals : (k, m) ∈ totals key amount xs ↔
    (∃ x ∈ xs, key x = some k) ∧ m = total key amount xs k := by
  simp only [totals, List.mem_map, List.mem_dedup, List.mem_filterMap, Prod.mk.injEq]
  constructor
  · rintro ⟨_, hx, rfl, rfl⟩
    exact ⟨hx, rfl⟩
  · rintro ⟨hx, rfl⟩
    exact ⟨k, hx, rfl, rfl⟩

/-- The totals of some groups add up to what is in them. -/
theorem sum_total (hks : ks.Nodup) : (ks.map (total key amount xs)).sum =
    ((xs.filter fun x => (key x).any (· ∈ ks)).map amount).sum := by
  induction ks with
  | nil =>
    rw [List.filter_eq_nil_iff.2 fun x _ => by simp]
    rfl
  | cons k ks ih =>
    obtain ⟨hk, hks⟩ := List.nodup_cons.1 hks
    rw [List.map_cons, List.sum_cons, ih hks, total,
      ← List.sum_map_filter_add_sum_map_filter_not (fun x => key x = some k) amount
        (xs.filter fun x => (key x).any (· ∈ k :: ks)), List.filter_filter, List.filter_filter]
    congr 3
    · refine List.filter_congr fun x _ => ?_
      cases hx : key x with
      | none => simp
      | some j => by_cases hj : j = k <;> simp [hj]
    · refine List.filter_congr fun x _ => ?_
      cases hx : key x with
      | none => simp
      | some j =>
        by_cases hj : j = k
        · subst hj
          simp [hk]
        · simp [hj]

/-- All groups together are the rows with a key. -/
theorem sum_totals : ((totals key amount xs).map Prod.snd).sum =
    ((xs.filter fun x => (key x).isSome).map amount).sum := by
  rw [totals, List.map_map]
  change ((xs.filterMap key).dedup.map (total key amount xs)).sum = _
  rw [sum_total (List.nodup_dedup _)]
  congr 2
  refine List.filter_congr fun x hx => ?_
  cases hk : key x with
  | none => rfl
  | some k =>
    simp only [Option.any_some, Option.isSome_some, decide_eq_true_eq, List.mem_dedup]
    exact List.mem_filterMap.2 ⟨x, hx, hk⟩

end Grouping
