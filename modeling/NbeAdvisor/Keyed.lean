import Mathlib.Data.List.Count
import Mathlib.Data.List.Nodup
import Mathlib.Data.List.Perm.Basic

/-!
# Tables that insert a row only if its key is absent

A `Table` says how items become rows and what identifies both. `absorb` looks the key of
an item up and makes a row for it only if no row has it; `absorbAll` does so item after
item, each lookup in the table that the items before it have extended.

`firsts` are the items that make a row : the first of each key that was not there.
`map_absorbAll` reads off anything that a row has from its item, and the rest follows from
it : which keys there are afterwards and how many rows each has (`count_absorbAll`), that
this does not depend on the order of the items or on how they are cut into batches, and
when every item makes a row of its own (`firsts_eq_self`).

A row that is written in place of another keeps the keys distinct if no third row has its
key (`nodup_map_write`).

`modify` is an update of the rows with a given primary key, and `freshKey` a primary key
that none has.
-/

namespace Keyed

variable {ρ α κ : Type*}

/-- Items that become rows, and the keys of both. A row may depend on the table it is added
to, as a fresh identifier does; its key may not. -/
structure Table (ρ α κ : Type*) where
  key : ρ → κ
  keyOf : α → κ
  make : List ρ → α → ρ
  key_make : ∀ rows a, key (make rows a) = keyOf a

namespace Table

variable [DecidableEq κ] (T : Table ρ α κ)

/-- The table after one item. -/
def absorb (rows : List ρ) (a : α) : List ρ :=
  if T.keyOf a ∈ rows.map T.key then rows else rows ++ [T.make rows a]

/-- The table after the items of a list, in order. -/
def absorbAll : List ρ → List α → List ρ
  | rows, [] => rows
  | rows, a :: as => absorbAll (T.absorb rows a) as

/-- The items that make a row, where the keys `seen` are there already. -/
def firsts : List κ → List α → List α
  | _, [] => []
  | seen, a :: as =>
    if T.keyOf a ∈ seen then firsts seen as else a :: firsts (seen ++ [T.keyOf a]) as

variable {T} {rows : List ρ} {as bs : List α} {a : α} {k : κ} {seen : List κ}

/-- An item whose key is there adds nothing. -/
theorem absorb_of_mem (h : T.keyOf a ∈ rows.map T.key) : T.absorb rows a = rows := if_pos h

/-- An item with a new key adds its row. -/
theorem absorb_of_not_mem (h : T.keyOf a ∉ rows.map T.key) :
    T.absorb rows a = rows ++ [T.make rows a] := if_neg h

@[simp] theorem absorbAll_nil : T.absorbAll rows [] = rows := rfl

@[simp] theorem absorbAll_cons :
    T.absorbAll rows (a :: as) = T.absorbAll (T.absorb rows a) as := rfl

/-- To absorb one list after another is to absorb both at once. -/
theorem absorbAll_append (rows : List ρ) (as bs : List α) :
    T.absorbAll rows (as ++ bs) = T.absorbAll (T.absorbAll rows as) bs := by
  induction as generalizing rows with
  | nil => rfl
  | cons a as ih => exact ih _

/-- What a row takes from its item, in a table after `as` : what the rows had, then what
the first items of the new keys have. -/
theorem map_absorbAll {β : Type*} {f : ρ → β} {g : α → β}
    (hf : ∀ rows a, f (T.make rows a) = g a) (rows : List ρ) (as : List α) :
    (T.absorbAll rows as).map f = rows.map f ++ (T.firsts (rows.map T.key) as).map g := by
  induction as generalizing rows with
  | nil => simp [firsts]
  | cons a as ih =>
    rw [absorbAll_cons, ih]
    by_cases h : T.keyOf a ∈ rows.map T.key
    · rw [absorb_of_mem h, firsts, if_pos h]
    · rw [absorb_of_not_mem h, firsts, if_neg h]
      simp [hf, T.key_make]

/-- The rows that were there stay, in front. -/
theorem prefix_absorbAll (rows : List ρ) (as : List α) : rows <+: T.absorbAll rows as := by
  induction as generalizing rows with
  | nil => exact List.prefix_rfl
  | cons a as ih =>
    refine List.IsPrefix.trans ?_ (ih _)
    unfold absorb
    split
    · exact List.prefix_rfl
    · exact List.prefix_append _ _

/-- What holds of the rows, and of them with any new row, holds after the items. -/
theorem absorbAll_induct {P : List ρ → Prop} (as : List α) (h : P rows)
    (hmake : ∀ rows a, T.keyOf a ∉ rows.map T.key → P rows → P (rows ++ [T.make rows a])) :
    P (T.absorbAll rows as) := by
  induction as generalizing rows with
  | nil => exact h
  | cons a as ih =>
    refine ih ?_
    by_cases hk : T.keyOf a ∈ rows.map T.key
    · rwa [absorb_of_mem hk]
    · rw [absorb_of_not_mem hk]
      exact hmake rows a hk h

/-- Items whose keys are all there change nothing. -/
theorem absorbAll_of_forall_mem (h : ∀ a ∈ as, T.keyOf a ∈ rows.map T.key) :
    T.absorbAll rows as = rows := by
  induction as with
  | nil => rfl
  | cons a as ih =>
    rw [absorbAll_cons, absorb_of_mem (h a List.mem_cons_self)]
    exact ih fun b hb => h b (List.mem_cons_of_mem _ hb)

/-! ## The first items of the new keys -/

/-- The first items of a list that goes on are those of its start, and those of the rest that are
new. -/
theorem firsts_append (seen : List κ) (as bs : List α) : T.firsts seen (as ++ bs) =
    T.firsts seen as ++ T.firsts (seen ++ (T.firsts seen as).map T.keyOf) bs := by
  induction as generalizing seen with
  | nil => simp [firsts]
  | cons a as ih =>
    rw [List.cons_append, firsts, firsts]
    split
    · exact ih seen
    · rw [ih, List.cons_append, List.map_cons, List.append_assoc, List.singleton_append]

/-- A key that was there adds no first item. -/
theorem firsts_snoc_of_mem (h : T.keyOf a ∈ seen ++ (T.firsts seen as).map T.keyOf) :
    T.firsts seen (as ++ [a]) = T.firsts seen as := by
  rw [firsts_append, firsts, if_pos h, firsts, List.append_nil]

/-- A new key adds its item. -/
theorem firsts_snoc_of_not_mem (h : T.keyOf a ∉ seen ++ (T.firsts seen as).map T.keyOf) :
    T.firsts seen (as ++ [a]) = T.firsts seen as ++ [a] := by
  rw [firsts_append, firsts, if_neg h, firsts]

/-- The keys of the first items are those that were not seen. -/
theorem mem_map_firsts :
    k ∈ (T.firsts seen as).map T.keyOf ↔ k ∉ seen ∧ k ∈ as.map T.keyOf := by
  induction as generalizing seen with
  | nil => simp [firsts]
  | cons a as ih =>
    unfold firsts
    split
    · next h =>
      rw [ih, List.map_cons, List.mem_cons]
      constructor
      · exact fun hk => ⟨hk.1, Or.inr hk.2⟩
      · rintro ⟨hs, rfl | hk⟩
        · exact (hs h).elim
        · exact ⟨hs, hk⟩
    · next h =>
      rw [List.map_cons, List.map_cons, List.mem_cons, List.mem_cons, ih]
      by_cases hk : k = T.keyOf a
      · simp [hk, h]
      · simp [hk]

/-- First items have distinct keys. -/
theorem nodup_map_firsts (seen : List κ) (as : List α) :
    ((T.firsts seen as).map T.keyOf).Nodup := by
  induction as generalizing seen with
  | nil => exact List.nodup_nil
  | cons a as ih =>
    unfold firsts
    split
    · exact ih _
    · rw [List.map_cons, List.nodup_cons]
      refine ⟨fun h => ?_, ih _⟩
      exact (mem_map_firsts.1 h).1 (by simp)

/-- Every item makes a row of its own exactly if no key is there and none comes twice. -/
theorem firsts_eq_self :
    T.firsts seen as = as ↔ (as.map T.keyOf).Nodup ∧ ∀ a ∈ as, T.keyOf a ∉ seen := by
  constructor
  · intro h
    have hmem : ∀ a ∈ as, T.keyOf a ∈ (T.firsts seen as).map T.keyOf := by
      intro a ha
      rw [h]
      exact List.mem_map_of_mem ha
    refine ⟨?_, fun a ha => (mem_map_firsts.1 (hmem a ha)).1⟩
    rw [← h]
    exact nodup_map_firsts seen as
  · rintro ⟨hnd, hseen⟩
    induction as generalizing seen with
    | nil => rfl
    | cons a as ih =>
      rw [List.map_cons, List.nodup_cons] at hnd
      rw [firsts, if_neg (hseen a List.mem_cons_self), ih hnd.2]
      intro b hb
      rw [List.mem_append, List.mem_singleton, not_or]
      refine ⟨hseen b (List.mem_cons_of_mem _ hb), fun he => hnd.1 ?_⟩
      rw [← he]
      exact List.mem_map_of_mem hb

/-! ## Keys afterwards -/

/-- What is absorbed are the first items, in their order. -/
theorem keys_absorbAll (rows : List ρ) (as : List α) : (T.absorbAll rows as).map T.key =
    rows.map T.key ++ (T.firsts (rows.map T.key) as).map T.keyOf :=
  map_absorbAll T.key_make rows as

/-- Every key is there afterwards, and no other. -/
theorem mem_keys_absorbAll :
    k ∈ (T.absorbAll rows as).map T.key ↔ k ∈ rows.map T.key ∨ k ∈ as.map T.keyOf := by
  rw [keys_absorbAll, List.mem_append, mem_map_firsts]
  by_cases h : k ∈ rows.map T.key
  · simp only [h, true_or]
  · simp only [h, not_false_eq_true, true_and]

/-- A key that was there keeps its rows, a new one of the items has one row. -/
theorem count_absorbAll (rows : List ρ) (as : List α) (k : κ) :
    ((T.absorbAll rows as).map T.key).count k =
      if k ∈ rows.map T.key then (rows.map T.key).count k
      else if k ∈ as.map T.keyOf then 1 else 0 := by
  rw [keys_absorbAll, List.count_append]
  split
  · next h =>
    rw [List.count_eq_zero.2 fun hk => (mem_map_firsts.1 hk).1 h, Nat.add_zero]
  · next h =>
    rw [List.count_eq_zero.2 h, Nat.zero_add]
    split
    · next hk =>
      exact List.count_eq_one_of_mem (nodup_map_firsts _ _) (mem_map_firsts.2 ⟨h, hk⟩)
    · next hk =>
      exact List.count_eq_zero.2 fun hm => hk (mem_map_firsts.1 hm).2

/-- The rows of each key do not depend on the order or the repetition of the items. -/
theorem count_absorbAll_congr (h : ∀ k, k ∈ as.map T.keyOf ↔ k ∈ bs.map T.keyOf) (k : κ) :
    ((T.absorbAll rows as).map T.key).count k = ((T.absorbAll rows bs).map T.key).count k := by
  simp only [count_absorbAll, h k]

/-- A table without a key twice gets none. -/
theorem nodup_keys_absorbAll (h : (rows.map T.key).Nodup) :
    ((T.absorbAll rows as).map T.key).Nodup := by
  rw [keys_absorbAll, List.nodup_append]
  refine ⟨h, nodup_map_firsts _ _, ?_⟩
  rintro k hk _ hk' rfl
  exact (mem_map_firsts.1 hk').1 hk

end Table

/-! ## Rows written in place -/

/-- A row is written in place of the one with its identifier. If no other row has its key,
the keys stay distinct. -/
theorem nodup_map_write {ι : Type*} [DecidableEq ι] {ident : ρ → ι} {key : ρ → κ} {rows : List ρ}
    {r : ρ} (hid : (rows.map ident).Nodup) (hkey : (rows.map key).Nodup)
    (hr : ∀ u ∈ rows, ident u ≠ ident r → key u ≠ key r) :
    ((rows.map fun u => if ident u = ident r then r else u).map key).Nodup := by
  rw [List.Nodup, List.pairwise_map] at hid hkey
  rw [List.Nodup, List.pairwise_map, List.pairwise_map]
  refine (hid.and hkey).imp_of_mem fun {u v} hu hv huv => ?_
  obtain ⟨hne, hk⟩ := huv
  by_cases hui : ident u = ident r
  · have hvi : ident v ≠ ident r := fun hvi => hne (hui.trans hvi.symm)
    rw [if_pos hui, if_neg hvi]
    exact (hr v hv hvi).symm
  · rw [if_neg hui]
    split
    · exact hr u hu hui
    · exact hk

/-! ## Rows under a primary key -/

/-- A row is told by its primary key. -/
theorem eq_of_pk {pk : ρ → κ} {rows : List ρ} {r u : ρ} (hnd : (rows.map pk).Nodup)
    (hr : r ∈ rows) (hu : u ∈ rows) (h : pk r = pk u) : r = u :=
  List.inj_on_of_nodup_map hnd hr hu h

/-- Rows that all have one primary key are one row. -/
theorem length_filter_le_one {pk : ρ → κ} {rows : List ρ} {p : ρ → Bool}
    (hnd : (rows.map pk).Nodup)
    (h : ∀ r ∈ rows, ∀ u ∈ rows, p r → p u → pk r = pk u) : (rows.filter p).length ≤ 1 := by
  have hsub : ((rows.filter p).map pk).Nodup := hnd.sublist (List.filter_sublist.map pk)
  match hf : rows.filter p with
  | [] => simp
  | [r] => simp
  | r :: u :: rest =>
    have hr : r ∈ rows ∧ p r := List.mem_filter.1 (hf ▸ by simp)
    have hu : u ∈ rows ∧ p u := List.mem_filter.1 (hf ▸ by simp)
    rw [hf, List.map_cons, List.map_cons] at hsub
    exact ((List.nodup_cons.1 hsub).1 (by simp [h r hr.1 u hu.1 hr.2 hu.2])).elim

/-- A search that only the rows with one primary key satisfy finds the row with it. -/
theorem find?_of_pk {pk : ρ → κ} {rows : List ρ} {r : ρ} {p : ρ → Bool} (hnd : (rows.map pk).Nodup)
    (hr : r ∈ rows) (hp : p r) (h : ∀ u ∈ rows, p u → pk u = pk r) : rows.find? p = some r := by
  cases hf : rows.find? p with
  | none => exact absurd hp (List.find?_eq_none.1 hf r hr)
  | some u =>
    have hu := List.mem_of_find?_eq_some hf
    rw [eq_of_pk hnd hu hr (h u hu (List.find?_some hf))]

/-- `f` applied to the rows with primary key `k`. -/
def modify [DecidableEq κ] (pk : ρ → κ) (k : κ) (f : ρ → ρ) (rows : List ρ) : List ρ :=
  rows.map fun r => if pk r = k then f r else r

section Modify

variable [DecidableEq κ] {pk : ρ → κ} {k : κ} {f : ρ → ρ} {rows : List ρ} {r u : ρ}

/-- The rows after an update of one key. -/
theorem mem_modify : r ∈ modify pk k f rows ↔
    (r ∈ rows ∧ pk r ≠ k) ∨ ∃ u ∈ rows, pk u = k ∧ f u = r := by
  unfold modify
  rw [List.mem_map]
  constructor
  · rintro ⟨u, hu, rfl⟩
    by_cases hk : pk u = k
    · exact Or.inr ⟨u, hu, hk, by rw [if_pos hk]⟩
    · rw [if_neg hk]
      exact Or.inl ⟨hu, hk⟩
  · rintro (⟨hr, hk⟩ | ⟨u, hu, hk, rfl⟩)
    · exact ⟨r, hr, if_neg hk⟩
    · exact ⟨u, hu, if_pos hk⟩

/-- Every row of the table is there afterwards, with `f` applied or not. -/
theorem exists_mem_modify (hr : r ∈ rows) : ∃ u ∈ modify pk k f rows, u = r ∨ (pk r = k ∧ u = f r) := by
  by_cases hk : pk r = k
  · exact ⟨f r, mem_modify.2 (Or.inr ⟨r, hr, hk, rfl⟩), Or.inr ⟨hk, rfl⟩⟩
  · exact ⟨r, mem_modify.2 (Or.inl ⟨hr, hk⟩), Or.inl rfl⟩

/-- An update that leaves `g` alone. -/
theorem map_modify {β : Type*} {g : ρ → β} (hf : ∀ r, g (f r) = g r) :
    (modify pk k f rows).map g = rows.map g := by
  unfold modify
  rw [List.map_map]
  refine List.map_congr_left fun r _ => ?_
  rw [Function.comp_apply]
  split
  · exact hf r
  · rfl

/-- An update leaves the primary keys. -/
theorem map_pk_modify (hf : ∀ r, pk r = k → pk (f r) = k) :
    (modify pk k f rows).map pk = rows.map pk := by
  unfold modify
  rw [List.map_map]
  refine List.map_congr_left fun r _ => ?_
  rw [Function.comp_apply]
  split
  · next hr => rw [hf r hr, hr]
  · rfl

/-- Two updates of one key are one. -/
theorem modify_modify {g : ρ → ρ} (hf : ∀ r, pk (f r) = pk r) :
    modify pk k g (modify pk k f rows) = modify pk k (g ∘ f) rows := by
  unfold modify
  rw [List.map_map]
  refine List.map_congr_left fun r _ => ?_
  rw [Function.comp_apply]
  by_cases hr : pk r = k
  · rw [if_pos hr, if_pos hr, if_pos ((hf r).trans hr), Function.comp_apply]
  · rw [if_neg hr, if_neg hr, if_neg hr]

/-- A search that the update does not mislead finds the same row, updated. -/
theorem find?_modify {p : ρ → Bool} (h : ∀ r ∈ rows, pk r = k → p (f r) = p r) :
    (modify pk k f rows).find? p = (rows.find? p).map fun r => if pk r = k then f r else r := by
  unfold modify
  induction rows with
  | nil => rfl
  | cons r rows ih =>
    have hrest := ih fun u hu => h u (List.mem_cons_of_mem _ hu)
    have hp : p (if pk r = k then f r else r) = p r := by
      split
      · next hk => exact h r List.mem_cons_self hk
      · rfl
    rw [List.map_cons, List.find?_cons, List.find?_cons, hp, hrest]
    cases p r <;> rfl

/-- Rows outside `p` are changed, and stay outside. -/
theorem filter_modify {p : ρ → Bool} (h : ∀ r ∈ rows, pk r = k → p r = false ∧ p (f r) = false) :
    (modify pk k f rows).filter p = rows.filter p := by
  unfold modify
  induction rows with
  | nil => rfl
  | cons r rows ih =>
    have hrest := ih fun u hu => h u (List.mem_cons_of_mem _ hu)
    rw [List.map_cons, List.filter_cons, List.filter_cons, hrest]
    by_cases hk : pk r = k
    · obtain ⟨hr, hfr⟩ := h r List.mem_cons_self hk
      rw [if_pos hk, hr, hfr, if_neg Bool.false_ne_true, if_neg Bool.false_ne_true]
    · rw [if_neg hk]

end Modify

/-- A primary key above those of the list. -/
def freshKey (ids : List ℕ) : ℕ := ids.foldr max 0 + 1

theorem le_foldr_max {ids : List ℕ} {n : ℕ} (h : n ∈ ids) : n ≤ ids.foldr max 0 := by
  induction ids with
  | nil => simp at h
  | cons m ids ih =>
    rcases List.mem_cons.1 h with rfl | h
    · exact Nat.le_max_left _ _
    · exact Nat.le_trans (ih h) (Nat.le_max_right _ _)

/-- The key is fresh. -/
theorem freshKey_notMem (ids : List ℕ) : freshKey ids ∉ ids := fun h =>
  absurd (le_foldr_max h) (Nat.not_le.2 (Nat.lt_succ_self _))

/-- No row has the fresh key. -/
theorem ne_freshKey (pk : ρ → ℕ) {rows : List ρ} {r : ρ} (hr : r ∈ rows) :
    pk r ≠ freshKey (rows.map pk) := fun h =>
  freshKey_notMem (rows.map pk) (h ▸ List.mem_map_of_mem hr)

/-- A row that differs from all others can be added. -/
theorem nodup_map_snoc {β : Type*} {g : ρ → β} {rows : List ρ} {r : ρ} (h : (rows.map g).Nodup)
    (hr : ∀ u ∈ rows, g u ≠ g r) : ((rows ++ [r]).map g).Nodup := by
  rw [List.map_append, List.map_singleton, List.nodup_append]
  refine ⟨h, by simp, fun x hx y hy => ?_⟩
  obtain ⟨u, hu, rfl⟩ := List.mem_map.1 hx
  rw [List.mem_singleton.1 hy]
  exact hr u hu

end Keyed
