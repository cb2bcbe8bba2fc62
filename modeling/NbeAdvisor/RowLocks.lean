import Mathlib.Logic.Function.Basic
import Mathlib.Data.Nat.Notation

/-!
# Row locks

Which thread holds the lock of each row, if any does. A thread may lock a row that is free or
its own (`Free`), and gives up all its locks at once at the end of its transaction. A lock
that a thread holds stays with it through what the others do (`acquire_of_ne`,
`release_of_ne`), and no other holds it.
-/

namespace RowLocks

variable {κ : Type*}

/-- The number of the thread that holds the lock of a row. -/
abbrev Locks (κ : Type*) := κ → Option ℕ

/-- No thread but `i` holds the lock. -/
def Free (l : Locks κ) (k : κ) (i : ℕ) : Prop := ∀ j ∈ l k, j = i

instance (l : Locks κ) (k : κ) (i : ℕ) : Decidable (Free l k i) :=
  inferInstanceAs (Decidable (∀ j ∈ l k, j = i))

/-- A thread has the lock. -/
def acquire [DecidableEq κ] (l : Locks κ) (k : κ) (i : ℕ) : Locks κ := Function.update l k (some i)

/-- The locks without those of `i`. -/
def release (l : Locks κ) (i : ℕ) : Locks κ := fun k => (l k).filter fun j => j ≠ i

variable {l : Locks κ} {k k' : κ} {i j : ℕ}

/-- Nobody else has a lock that is free. -/
theorem Free.not_held (h : Free l k i) (hj : j ≠ i) : l k ≠ some j := fun hk => hj (h j hk)

/-- Who has a lock that is free for a thread is the thread. -/
theorem Free.eq (h : Free l k i) (hj : l k = some j) : j = i := h j hj

section Acquire

variable [DecidableEq κ]

@[simp] theorem acquire_self (l : Locks κ) (k : κ) (i : ℕ) : acquire l k i k = some i := by
  rw [acquire, Function.update_self]

/-- A thread keeps the locks it has. -/
theorem acquire_of_held (h : l k' = some i) : acquire l k i k' = some i := by
  by_cases hk : k' = k
  · rw [hk, acquire_self]
  · rwa [acquire, Function.update_of_ne hk]

/-- So do the others. -/
theorem acquire_of_ne (hfree : Free l k i) (hj : j ≠ i) (h : l k' = some j) :
    acquire l k i k' = some j := by
  by_cases hk : k' = k
  · exact absurd (hk ▸ h) (hfree.not_held hj)
  · rwa [acquire, Function.update_of_ne hk]

/-- What is free stays so, for the thread that locks. -/
theorem Free.acquire (h : Free l k' i) : Free (acquire l k i) k' i := by
  intro j hj
  by_cases hk : k' = k
  · rw [hk, acquire_self] at hj
    exact (Option.some.inj hj).symm
  · rw [RowLocks.acquire, Function.update_of_ne hk] at hj
    exact h j hj

end Acquire

/-- A thread that nobody else is in the way of leaves no lock. -/
theorem release_of_free (h : ∀ k, Free l k i) : release l i = fun _ => none := by
  funext k
  rw [release, Option.filter_eq_none_iff]
  intro j hj
  simpa using h k j hj

/-- What others have is not released. -/
theorem release_of_ne (hj : j ≠ i) (h : l k = some j) : release l i k = some j := by
  rw [release, h]
  exact Option.filter_eq_some_iff.2 ⟨rfl, by simpa using hj⟩

end RowLocks
