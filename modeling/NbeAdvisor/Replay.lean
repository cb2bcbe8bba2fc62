import Mathlib.Algebra.BigOperators.Group.List.Basic
import Mathlib.Data.List.Sort
import Mathlib.Order.Lattice
import Mathlib.Order.RelClasses

/-!
# Running totals that are stated now and then

A log whose entries have a time, a movement and sometimes the total that they lead to. `replay` goes
through the entries in order : a stated total replaces the running one, any other entry moves it.
`since` starts from the latest stated total and adds the movements of all later entries, in any
order. With distinct times the two agree (`since_eq_replay`).
-/

set_option linter.unusedSectionVars false

namespace Replay

variable {α κ M : Type*} [LinearOrder κ] [AddCommMonoid M]

section Replay

variable (stated : α → Option M) (movement : α → M)

/-- The total after an entry. -/
def step (total : M) (x : α) : M := (stated x).getD (total + movement x)

/-- The total after some entries, one after the other. -/
def replay (total : M) (xs : List α) : M := xs.foldl (step stated movement) total

variable {stated movement} {total : M} {xs ys : List α} {a : α}

/-- A replay goes on from where it has come to. -/
theorem replay_append : replay stated movement total (xs ++ ys) =
    replay stated movement (replay stated movement total xs) ys :=
  List.foldl_append

/-- Without stated totals the movements add up. -/
theorem replay_of_unstated (h : ∀ x ∈ xs, stated x = none) :
    replay stated movement total xs = total + (xs.map movement).sum := by
  induction xs generalizing total with
  | nil => simp [replay]
  | cons x xs ih =>
    obtain ⟨hx, hxs⟩ := List.forall_mem_cons.1 h
    have hstep : step stated movement total x = total + movement x := by simp [step, hx]
    rw [replay, List.foldl_cons, hstep]
    change replay stated movement _ xs = _
    rw [ih hxs, List.map_cons, List.sum_cons, add_assoc]

/-- What came before a stated total does not matter. -/
theorem replay_of_stated {m : M} (ha : stated a = some m) (hys : ∀ y ∈ ys, stated y = none) :
    replay stated movement total (xs ++ a :: ys) = m + (ys.map movement).sum := by
  have hstep : ∀ t, step stated movement t a = m := fun t => by simp [step, ha]
  rw [replay_append]
  change replay stated movement (step stated movement _ a) ys = _
  rw [hstep, replay_of_unstated hys]

end Replay

section Since

variable (time : α → κ) (stated : α → Option M) (movement : α → M)

/-- The latest entry that states a total. -/
def latest (xs : List α) : Option α :=
  ((xs.filter fun x => (stated x).isSome).mergeSort fun x y => time y ≤ time x).head?

/-- The latest stated total with the movements after it, or all movements. -/
def since (xs : List α) : M :=
  match latest time stated xs with
  | none => (xs.map movement).sum
  | some a => (stated a).getD 0 + ((xs.filter fun x => time a < time x).map movement).sum

variable {time stated movement} {xs ys : List α} {a : α}

/-- No item is the latest if none states a total. -/
theorem latest_eq_none : latest time stated xs = none ↔ ∀ x ∈ xs, stated x = none := by
  rw [latest, List.head?_eq_none_iff, ← List.length_eq_zero_iff, List.length_mergeSort,
    List.length_eq_zero_iff, List.filter_eq_nil_iff]
  simp

/-- The latest item states a total, and no later one does. -/
theorem latest_eq_some (h : latest time stated xs = some a) :
    a ∈ xs ∧ (stated a).isSome = true ∧
      ∀ x ∈ xs, (stated x).isSome = true → time x ≤ time a := by
  have hsorted : ((xs.filter fun x => (stated x).isSome).mergeSort
      fun x y => time y ≤ time x).Pairwise fun x y => time y ≤ time x :=
    List.pairwise_mergeSort' (Order.Preimage time (· ≥ ·)) _
  have hmem : ∀ x, x ∈ (xs.filter fun x => (stated x).isSome).mergeSort
      (fun x y => time y ≤ time x) ↔ x ∈ xs ∧ (stated x).isSome = true := fun x => by
    rw [List.mem_mergeSort, List.mem_filter]
  obtain ⟨rest, hrest⟩ := List.head?_eq_some_iff.1 h
  have ha := (hmem a).1 (hrest ▸ List.mem_cons_self)
  refine ⟨ha.1, ha.2, fun x hx hstated => ?_⟩
  have hx' := (hmem x).2 ⟨hx, hstated⟩
  rw [hrest] at hx' hsorted
  rcases List.mem_cons.1 hx' with rfl | hx'
  · exact le_rfl
  · exact (List.pairwise_cons.1 hsorted).1 x hx'

/-- With distinct times the anchored total is that of the entries in order. -/
theorem since_eq_replay (h : (xs.map time).Nodup) (hys : ys.Perm xs)
    (hsorted : ys.Pairwise fun x y => time x ≤ time y) :
    since time stated movement xs = replay stated movement 0 ys := by
  have hstrict : ys.Pairwise fun x y => time x < time y := by
    have hne : ys.Pairwise fun x y => time x ≠ time y :=
      List.pairwise_map.1 ((hys.map time).nodup_iff.2 h)
    exact hsorted.imp₂ (fun x y hle hne => lt_of_le_of_ne hle hne) hne
  unfold since
  cases ha : latest time stated xs with
  | none =>
    have hnone := latest_eq_none.1 ha
    rw [replay_of_unstated fun x hx => hnone x (hys.mem_iff.1 hx), zero_add]
    exact ((hys.map movement).sum_eq).symm
  | some a =>
    obtain ⟨hmem, hsome, hlast⟩ := latest_eq_some ha
    obtain ⟨m, hm⟩ := Option.isSome_iff_exists.1 hsome
    obtain ⟨before, after, rfl⟩ := List.append_of_mem (hys.mem_iff.2 hmem)
    obtain ⟨-, hrest, hbefore⟩ := List.pairwise_append.1 hstrict
    have hafter := (List.pairwise_cons.1 hrest).1
    have hunstated : ∀ y ∈ after, stated y = none := by
      intro y hy
      by_contra hstated
      have hle := hlast y (hys.mem_iff.1 (by simp [hy])) (Option.isSome_iff_ne_none.2 hstated)
      exact absurd (hafter y hy) hle.not_gt
    have hlater : (before ++ a :: after).filter (fun x => time a < time x) = after := by
      rw [List.filter_append, List.filter_cons_of_neg (by simp),
        List.filter_eq_nil_iff.2 fun x hx => by
          simpa using (hbefore x hx a List.mem_cons_self).le,
        List.filter_eq_self.2 fun y hy => by simpa using hafter y hy, List.nil_append]
    rw [replay_of_stated hm hunstated]
    change (stated a).getD 0 + _ = _
    rw [hm, Option.getD_some]
    congr 1
    have hperm := (hys.filter fun x => time a < time x).map movement
    rw [hlater] at hperm
    exact hperm.sum_eq.symm

end Since

end Replay
