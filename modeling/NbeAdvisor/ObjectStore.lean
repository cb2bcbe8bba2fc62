import Mathlib.Data.List.Sort
import Mathlib.Order.Lattice

/-!
# Objects under keys

A bucket of an object store : `put`, `get`, `deleteKeys`, and `page`, which lists the keys of a kind
in order, a page at a time, from the one after a given key.

A `Sweep` deletes the objects of a kind page by page. Others may put and delete objects meanwhile.
As long as nobody puts an object of the kind, none of those that the sweep has gone over is there
(`Sweep.Clears`), and so none at all at its end.
-/

namespace ObjectStore

variable {κ β : Type*}

/-- Keys with their objects. -/
abbrev Objects (κ β : Type*) := List (κ × β)

section Store

variable [DecidableEq κ] {s : Objects κ β} {k j : κ} {v : β} {ks : List κ}

/-- The object of a key. -/
def get (s : Objects κ β) (k : κ) : Option β := (s.find? fun x => x.1 = k).map Prod.snd

/-- The object of a key is written. -/
def put (s : Objects κ β) (k : κ) (v : β) : Objects κ β := s.filter (fun x => x.1 ≠ k) ++ [(k, v)]

/-- The objects of the keys are deleted. -/
def deleteKeys (s : Objects κ β) (ks : List κ) : Objects κ β := s.filter fun x => x.1 ∉ ks

@[simp] theorem get_put_self : get (put s k v) k = some v := by
  have hnone : (s.filter fun x => x.1 ≠ k).find? (fun x => x.1 = k) = none := by
    rw [List.find?_eq_none]
    intro x hx
    simpa using (List.mem_filter.1 hx).2
  rw [get, put, List.find?_append, hnone]
  simp

/-- A write leaves the other objects. -/
theorem get_put_ne (h : j ≠ k) : get (put s k v) j = get s j := by
  have hfind : (s.filter fun x => x.1 ≠ k).find? (fun x => x.1 = j) =
      s.find? fun x => x.1 = j := by
    rw [List.find?_filter]
    refine congrArg (List.find? · s) (funext fun x => ?_)
    by_cases hx : x.1 = j
    · simp [hx, h]
    · simp [hx]
  rw [get, put, List.find?_append, hfind]
  simp [Ne.symm h, get]

/-- A deletion leaves the objects of other keys. -/
theorem get_deleteKeys_ne (h : j ∉ ks) : get (deleteKeys s ks) j = get s j := by
  rw [get, deleteKeys, List.find?_filter, get]
  refine congrArg (Option.map Prod.snd) (congrArg (List.find? · s) (funext fun x => ?_))
  by_cases hx : x.1 = j
  · simp [hx, h]
  · simp [hx]

theorem mem_keys_put : j ∈ (put s k v).map Prod.fst ↔ j = k ∨ j ∈ s.map Prod.fst := by
  rw [put, List.map_append, List.mem_append]
  by_cases hj : j = k <;> simp [hj]

theorem mem_keys_deleteKeys :
    j ∈ (deleteKeys s ks).map Prod.fst ↔ j ∈ s.map Prod.fst ∧ j ∉ ks := by
  simp only [deleteKeys, List.mem_map, List.mem_filter, decide_eq_true_eq]
  constructor
  · rintro ⟨x, ⟨hx, hks⟩, rfl⟩
    exact ⟨⟨x, hx, rfl⟩, hks⟩
  · rintro ⟨⟨x, hx, rfl⟩, hks⟩
    exact ⟨x, ⟨hx, hks⟩, rfl⟩

/-- A key without an object is not listed. -/
theorem get_eq_none_iff : get s k = none ↔ k ∉ s.map Prod.fst := by
  rw [get, Option.map_eq_none_iff, List.find?_eq_none]
  simp only [List.mem_map, decide_eq_true_eq]
  exact ⟨fun h ⟨x, hx, hk⟩ => h x hx hk, fun h x hx hk => h ⟨x, hx, hk⟩⟩

end Store

/-! ## Pages of keys -/

section Pages

variable [LinearOrder κ]

/-- The keys of a kind that come after the given one, in order. -/
def matching (kind : κ → Bool) (after : Option κ) (s : Objects κ β) : List κ :=
  ((s.map Prod.fst).filter fun k => kind k && after.all (· < k)).mergeSort (· ≤ ·)

/-- A page of at most so many keys. -/
def page (n : ℕ) (kind : κ → Bool) (after : Option κ) (s : Objects κ β) : List κ :=
  (matching kind after s).take n

/-- The last key of the page, if keys come after it. -/
def continuation (n : ℕ) (kind : κ → Bool) (after : Option κ) (s : Objects κ β) : Option κ :=
  if n < (matching kind after s).length then (page n kind after s).getLast? else none

variable {n : ℕ} {kind : κ → Bool} {after : Option κ} {s : Objects κ β} {k : κ}

/-- What can be on a page. -/
theorem mem_matching : k ∈ matching kind after s ↔
    k ∈ s.map Prod.fst ∧ kind k = true ∧ ∀ a ∈ after, a < k := by
  rw [matching, List.mem_mergeSort, List.mem_filter, Bool.and_eq_true]
  cases after <;> simp

/-- A page has objects of its kind. -/
theorem mem_of_mem_page (h : k ∈ page n kind after s) : kind k = true :=
  (mem_matching.1 (List.mem_of_mem_take h)).2.1

/-- What can be on a page comes in order. -/
theorem pairwise_matching (kind : κ → Bool) (after : Option κ) (s : Objects κ β) :
    (matching kind after s).Pairwise (· ≤ ·) := by
  have hsorted := @List.pairwise_mergeSort κ (fun a b => decide (a ≤ b))
    (by simpa using fun a b c => le_trans) (by simpa using le_total)
    ((s.map Prod.fst).filter fun k => kind k && after.all (· < k))
  exact hsorted.imp fun h => of_decide_eq_true h

/-- A key of the kind is on the page, or comes after its last one. -/
theorem mem_page_or_after (hn : 0 < n) (hk : k ∈ matching kind after s) :
    k ∈ page n kind after s ∨ ∃ a, continuation n kind after s = some a ∧ a < k := by
  by_cases hpage : k ∈ page n kind after s
  · exact Or.inl hpage
  right
  have hsplit := List.take_append_drop n (matching kind after s)
  have hdrop : k ∈ (matching kind after s).drop n := by
    rw [← hsplit, List.mem_append] at hk
    exact hk.resolve_left hpage
  have hlong : n < (matching kind after s).length := by
    by_contra hle
    rw [List.drop_eq_nil_of_le (Nat.le_of_not_lt hle)] at hdrop
    exact nomatch hdrop
  have hne : page n kind after s ≠ [] := by
    intro hnil
    have hlen := congrArg List.length hnil
    rw [page, List.length_take, List.length_nil] at hlen
    omega
  refine ⟨(page n kind after s).getLast hne, ?_, ?_⟩
  · rw [continuation, if_pos hlong, List.getLast?_eq_some_getLast hne]
  · have hle : (page n kind after s).getLast hne ≤ k := by
      have hpairs := pairwise_matching kind after s
      rw [← hsplit, List.pairwise_append] at hpairs
      exact hpairs.2.2 _ (List.getLast_mem hne) k hdrop
    exact lt_of_le_of_ne hle fun heq => hpage (heq ▸ List.getLast_mem hne)

/-! ## Deleting page by page -/

/-- The page that comes next, and where the one after it starts. -/
inductive Sweep (κ : Type*) where
  | listing (after : Option κ)
  | deleting (keys : List κ) (next : Option κ)
  | done
  deriving DecidableEq

namespace Sweep

/-- The sweep lists from the first key on. -/
def start : Sweep κ := .listing none

/-- One request of a sweep : it lists a page, or deletes the page that it has listed. -/
def step (n : ℕ) (kind : κ → Bool) (s : Objects κ β) : Sweep κ → Option (Objects κ β × Sweep κ)
  | listing after =>
    some (s, deleting (page n kind after s) (continuation n kind after s))
  | deleting keys next =>
    some (deleteKeys s keys, match next with
      | none => done
      | some k => listing (some k))
  | done => none

/-- The next step asks the object store for something. -/
def calls : Sweep κ → Bool
  | listing _ => true
  | deleting keys _ => !keys.isEmpty
  | done => false

/-- No object of the kind is there that the sweep has gone over. -/
def Clears (kind : κ → Bool) (s : Objects κ β) : Sweep κ → Prop
  | listing after => ∀ k ∈ s.map Prod.fst, kind k = true → ∀ a ∈ after, a < k
  | deleting keys next => (∀ k ∈ keys, kind k = true) ∧
      ∀ k ∈ s.map Prod.fst, kind k = true → k ∈ keys ∨ ∃ a, next = some a ∧ a < k
  | done => ∀ k ∈ s.map Prod.fst, kind k = false

variable {s' : Objects κ β} {w w' : Sweep κ} {v : β}

/-- At its start a sweep has everything before it. -/
theorem clears_start (kind : κ → Bool) (s : Objects κ β) : Clears kind s start :=
  fun _ _ _ _ ha => nomatch ha

/-- Objects may go, and objects of other kinds may come. -/
theorem Clears.mono (h : Clears kind s w)
    (hs : ∀ k ∈ s'.map Prod.fst, kind k = true → k ∈ s.map Prod.fst) : Clears kind s' w := by
  cases w with
  | listing after => exact fun k hk hkind => h k (hs k hk hkind) hkind
  | deleting keys next => exact ⟨h.1, fun k hk hkind => h.2 k (hs k hk hkind) hkind⟩
  | done =>
    refine fun k hk => Bool.eq_false_iff.2 fun hkind => ?_
    exact Bool.eq_false_iff.1 (h k (hs k hk hkind)) hkind

/-- A step of a sweep leaves nothing behind. -/
theorem Clears.next (hn : 0 < n) (h : Clears kind s w) (hs : w.step n kind s = some (s', w')) :
    Clears kind s' w' := by
  cases w with
  | listing after =>
    cases hs
    refine ⟨fun k hk => mem_of_mem_page hk, fun k hk hkind => ?_⟩
    exact mem_page_or_after hn (mem_matching.2 ⟨hk, hkind, h k hk hkind⟩)
  | deleting keys next =>
    cases hs
    have hrest : ∀ k ∈ (deleteKeys s keys).map Prod.fst, kind k = true →
        ∃ a, next = some a ∧ a < k := by
      intro k hk hkind
      obtain ⟨hmem, hnot⟩ := mem_keys_deleteKeys.1 hk
      exact (h.2 k hmem hkind).resolve_left hnot
    cases next with
    | none =>
      refine fun k hk => Bool.eq_false_iff.2 fun hkind => ?_
      obtain ⟨a, ha, -⟩ := hrest k hk hkind
      exact nomatch ha
    | some b =>
      rintro k hk hkind a ⟨rfl⟩
      obtain ⟨a', ha', hlt⟩ := hrest k hk hkind
      cases ha'
      exact hlt
  | done => exact nomatch hs

/-- A step takes away objects of the kind only. -/
theorem get_step (h : Clears kind s w) (hs : w.step n kind s = some (s', w')) (hk : kind k = false) :
    get s' k = get s k := by
  cases w with
  | listing after =>
    cases hs
    rfl
  | deleting keys next =>
    cases hs
    exact get_deleteKeys_ne fun hmem => Bool.false_ne_true (hk.symm.trans (h.1 k hmem))
  | done => exact nomatch hs

/-- An object that is there after a step was there before. -/
theorem get_of_step (hs : w.step n kind s = some (s', w')) (hk : get s' k = some v) :
    get s k = some v := by
  cases w with
  | listing after =>
    cases hs
    exact hk
  | deleting keys next =>
    cases hs
    by_cases hmem : k ∈ keys
    · have hnot : k ∉ (deleteKeys s keys).map Prod.fst := fun h => (mem_keys_deleteKeys.1 h).2 hmem
      rw [get_eq_none_iff.2 hnot] at hk
      exact nomatch hk
    · exact (get_deleteKeys_ne hmem).symm.trans hk
  | done => exact nomatch hs

/-- A sweep makes no objects. -/
theorem keys_step (hs : w.step n kind s = some (s', w')) :
    ∀ k ∈ s'.map Prod.fst, k ∈ s.map Prod.fst := by
  cases w with
  | listing after =>
    cases hs
    exact fun k hk => hk
  | deleting keys next =>
    cases hs
    exact fun k hk => (mem_keys_deleteKeys.1 hk).1
  | done => exact nomatch hs

end Sweep

end Pages

end ObjectStore
