import NbeAdvisor.BudgetAmounts

/-!
# Earlier plans from the history

A PATCH of the budget puts a snapshot of the plan into the history before it changes anything.
The snapshot has the allocations, with their numbers as doubles, from which they can be read
(`Budget.read_snapshot`). It has neither the name nor the template, which a PATCH can change
too : two runs that differ in an earlier name end with the same history and the same plan
(`no_planBefore`). If every PATCH leaves the name and the template as they are, each earlier plan
is what `planBefore` reads from the history and the current plan (`planBefore_patched`).
-/

namespace NbeAdvisor

open Numerals

/-- What a plan says. -/
structure BudgetPlan where
  name : String
  selectedTemplateKey : Option String
  allocations : List (String × Numeric 5 2 × Numeric 14 2)
  deriving DecidableEq

/-- The plan of the budget, to be compared with another. -/
def Budget.plan (b : Budget) : BudgetPlan :=
  { name := b.name, selectedTemplateKey := b.selectedTemplateKey
    allocations := b.allocations.map fun a =>
      (a.category.name, a.allocatedPercentage, a.allocatedAmount) }

/-! ## Reading a snapshot -/

/-- The logged numbers, back in the columns that they come from. -/
def PreviousAllocation.read (a : PreviousAllocation) :
    Option (String × Numeric 5 2 × Numeric 14 2) := do
  let allocatedPercentage ← Numeric.ofDouble? 5 2 a.allocatedPercentage
  let allocatedAmount ← Numeric.ofDouble? 14 2 a.allocatedAmount
  return (a.category, allocatedPercentage, allocatedAmount)

/-- The plan before the change that a row of the history is about, from the row and the plan as
it is now. -/
def planBefore (history : List BudgetHistory) (b : Budget) (k : ℕ) : Option BudgetPlan := do
  let row ← history[k]?
  let allocations ← row.previousValues.mapM (·.read)
  return { name := b.name, selectedTemplateKey := b.selectedTemplateKey, allocations }

/-- The allocations come back from the doubles. -/
theorem Budget.read_snapshot (b : Budget) :
    b.snapshot.mapM (·.read) = some b.plan.allocations := by
  unfold Budget.snapshot Budget.plan
  dsimp only
  induction b.allocations with
  | nil => rfl
  | cons a as ih =>
    have ha : PreviousAllocation.read
          { category := a.category.name
            allocatedPercentage := Double.ofRat a.allocatedPercentage.value
            allocatedAmount := Double.ofRat a.allocatedAmount.value } =
        some (a.category.name, a.allocatedPercentage, a.allocatedAmount) := by
      rw [PreviousAllocation.read, Numeric.ofDouble?_ofRat (by norm_num),
        Numeric.ofDouble?_ofRat (by norm_num)]
      rfl
    rw [List.map_cons, List.mapM_cons, ha, ih]
    rfl

/-! ## Runs of changes -/

namespace BudgetStore

/-- The store after the PATCHes of a list. -/
def patched : BudgetStore → List (Instant × Option BudgetBody) → BudgetStore
  | s, [] => s
  | s, r :: rs => patched (s.handle r.1 (.patch r.2)).1 rs

/-- Every PATCH of a list satisfies `P` where it comes in. -/
def Along (P : BudgetStore → Instant × Option BudgetBody → Prop) :
    BudgetStore → List (Instant × Option BudgetBody) → Prop
  | _, [] => True
  | s, r :: rs => P s r ∧ Along P (s.handle r.1 (.patch r.2)).1 rs

/-- The PATCH is answered with success. -/
def Succeeds (s : BudgetStore) (r : Instant × Option BudgetBody) : Prop :=
  (s.handle r.1 (.patch r.2)).2.Success

instance (s : BudgetStore) (r : Instant × Option BudgetBody) : Decidable (s.Succeeds r) :=
  inferInstanceAs (Decidable (s.handle r.1 (.patch r.2)).2.Success)

/-- The name and the template that it names are those of the plan. -/
def Keeps (s : BudgetStore) (r : Instant × Option BudgetBody) : Prop :=
  ∀ b ∈ s.budget, ∀ w ∈ r.2,
    (∀ n ∈ w.name, n = b.name) ∧ ∀ k ∈ w.selectedTemplateKey, k = b.selectedTemplateKey

variable {s : BudgetStore} {r : Instant × Option BudgetBody} {b b' : Budget}
  {p q rs : List (Instant × Option BudgetBody)}
  {P : BudgetStore → Instant × Option BudgetBody → Prop}

/-- The last requests act on what the first have left. -/
theorem patched_append (s : BudgetStore) (p q : List (Instant × Option BudgetBody)) :
    s.patched (p ++ q) = (s.patched p).patched q := by
  induction p generalizing s with
  | nil => rfl
  | cons r p ih => exact ih _

/-- What holds along a run holds along its start. -/
theorem Along.take (h : Along P s (p ++ q)) : Along P s p := by
  induction p generalizing s with
  | nil => trivial
  | cons r p ih => exact ⟨h.1, ih h.2⟩

/-- And along its rest. -/
theorem Along.drop (h : Along P s (p ++ q)) : Along P (s.patched p) q := by
  induction p generalizing s with
  | nil => exact h
  | cons r p ih => exact ih h.2

end BudgetStore

/-- The serializer takes the name and the template over. -/
theorem BudgetBody.validated_ok {categories : List Category} {w : BudgetBody} {data : BudgetData}
    (h : w.validated categories = .ok data) :
    data.name = w.name ∧ data.selectedTemplateKey = w.selectedTemplateKey := by
  unfold BudgetBody.validated validateAllocationsSum100 at h
  dsimp only at h
  split at h
  · cases h
  split at h
  · cases h
    exact ⟨rfl, rfl⟩
  split at h
  · cases h
  split at h <;> cases h
  exact ⟨rfl, rfl⟩

namespace BudgetStore

variable {s : BudgetStore} {r : Instant × Option BudgetBody} {b b' : Budget}
  {p q rs : List (Instant × Option BudgetBody)}

/-- A PATCH that is refused does not succeed. -/
theorem validated_error {categories : List Category} {w : BudgetBody} {a : BudgetAnswer}
    (h : w.validated categories = .error a) : ¬a.Success := by
  unfold BudgetBody.validated validateAllocationsSum100 at h
  dsimp only at h
  split at h
  · cases h
    decide
  split at h
  · cases h
  split at h
  · cases h
    decide
  split at h <;> cases h
  rintro (h | h) <;> cases h

/-- What a PATCH does to the history, the name and the template. -/
theorem succeeds_patch (h : s.Succeeds r) : ∃ b w b' row, s.budget = some b ∧ r.2 = some w ∧
    (s.handle r.1 (.patch r.2)).1.budget = some b' ∧
    (s.handle r.1 (.patch r.2)).1.history = s.history ++ [row] ∧ row.previousValues = b.snapshot ∧
    b'.name = w.name.getD b.name ∧
    b'.selectedTemplateKey = w.selectedTemplateKey.getD b.selectedTemplateKey := by
  obtain ⟨now, body⟩ := r
  unfold Succeeds at h
  unfold handle accept at h ⊢
  dsimp only at h ⊢
  cases hb : s.budget with
  | none =>
    rw [hb] at h
    rcases h with h | h <;> cases h
  | some b =>
    cases body with
    | none =>
      rw [hb] at h
      rcases h with h | h <;> cases h
    | some w =>
      simp only [hb, Option.isNone_some, Bool.false_eq_true, if_false, Option.elim] at h ⊢
      cases hw : w.validated s.categories with
      | error a =>
        rw [hw] at h
        exact absurd h (validated_error hw)
      | ok data =>
        obtain ⟨hname, hkey⟩ := BudgetBody.validated_ok hw
        have hname' := congrArg (fun n => n.getD b.name) hname
        have hkey' := congrArg (fun k => k.getD b.selectedTemplateKey) hkey
        unfold change
        dsimp only
        cases data.allocations with
        | none => exact ⟨b, w, _, _, rfl, rfl, rfl, rfl, rfl, hname', hkey'⟩
        | some items =>
          have hclear := Budget.clear_applyAllocations s.income items (b.update now data).clear
          exact ⟨b, w, _, _, rfl, rfl, rfl, rfl, rfl, (congrArg Budget.name hclear).trans hname',
            (congrArg Budget.selectedTemplateKey hclear).trans hkey'⟩

/-- A run of successful PATCHes adds a row each to the history. -/
theorem history_patched (h : Along Succeeds s rs) :
    ∃ rows, (s.patched rs).history = s.history ++ rows ∧ rows.length = rs.length := by
  induction rs generalizing s with
  | nil => exact ⟨[], by simp [patched], rfl⟩
  | cons r rs ih =>
    obtain ⟨_, _, _, row, _, _, _, hhistory, _⟩ := succeeds_patch h.1
    obtain ⟨rows, hrows, hlength⟩ := ih h.2
    refine ⟨row :: rows, ?_, by rw [List.length_cons, hlength, List.length_cons]⟩
    rw [patched, hrows, hhistory, List.append_assoc, List.singleton_append]

/-- PATCHes that leave the name and the template. -/
theorem name_patched (h : Along (fun s r => s.Succeeds r ∧ s.Keeps r) s rs)
    (hb : s.budget = some b) : ∃ b', (s.patched rs).budget = some b' ∧ b'.name = b.name ∧
      b'.selectedTemplateKey = b.selectedTemplateKey := by
  induction rs generalizing s b with
  | nil => exact ⟨b, hb, rfl, rfl⟩
  | cons r rs ih =>
    obtain ⟨a, w, b', _, ha, hw, hb', _, _, hname, hkey⟩ := succeeds_patch h.1.1
    obtain rfl := Option.some.inj (ha.symm.trans hb)
    obtain ⟨hkname, hkkey⟩ := h.1.2 a ha w hw
    obtain ⟨c, hc, hcname, hckey⟩ := ih h.2 hb'
    refine ⟨c, hc, hcname.trans (hname.trans ?_), hckey.trans (hkey.trans ?_)⟩
    · cases hn : w.name with
      | none => rfl
      | some n => exact hkname n hn
    · cases hk : w.selectedTemplateKey with
      | none => rfl
      | some k => exact hkkey k hk

/-- What is weaker holds along it too. -/
theorem Along.mono {P Q : BudgetStore → Instant × Option BudgetBody → Prop}
    (hPQ : ∀ s r, P s r → Q s r) (h : Along P s rs) : Along Q s rs := by
  induction rs generalizing s with
  | nil => trivial
  | cons r rs ih => exact ⟨hPQ _ _ h.1, ih h.2⟩

/-- In a run of successful PATCHes that leave the name and the template, each earlier plan is read
from its row of the history and the plan at the end. -/
theorem planBefore_patched (h : Along (fun s r => s.Succeeds r ∧ s.Keeps r) s (p ++ r :: q))
    (hb : (s.patched p).budget = some b) (hb' : (s.patched (p ++ r :: q)).budget = some b') :
    planBefore (s.patched (p ++ r :: q)).history b' (s.history.length + p.length) =
      some b.plan := by
  have hrest := h.drop
  obtain ⟨a, _, _, row, ha, _, _, hrow, hsnapshot, _⟩ := succeeds_patch hrest.1.1
  obtain rfl := Option.some.inj (ha.symm.trans hb)
  obtain ⟨c, hc, hname, hkey⟩ := name_patched hrest ha
  rw [patched_append] at hb' ⊢
  obtain rfl := Option.some.inj (hc.symm.trans hb')
  obtain ⟨before, hbefore, hlength⟩ := history_patched (h.take.mono fun _ _ h => h.1)
  obtain ⟨after, hafter, -⟩ := history_patched (hrest.2.mono fun _ _ h => h.1)
  have hget : ((s.patched p).patched (r :: q)).history[s.history.length + p.length]? = some row := by
    rw [patched, hafter, hrow, hbefore, ← hlength, ← List.length_append, List.append_assoc,
      List.getElem?_append_right (le_refl _)]
    simp
  unfold planBefore
  rw [hget]
  simp only [Option.bind_eq_bind, Option.bind_some, hsnapshot, Budget.read_snapshot, hname, hkey]
  rfl

/-! ## A renamed plan -/

/-- The store after a POST of a plan with a name, half for food and half for rent. -/
def posted (name : String) : BudgetStore :=
  (twoCategories.handle 0 (.post (some { foodAndRent with name := some name }))).1

/-- A PATCH of the name. -/
def rename : Instant × Option BudgetBody := (1, some { name := some "Ours" })

/-- No function of the history and the current plan has all earlier plans : two plans with
different names are the same after they are renamed, and so is what the history says. -/
theorem no_planBefore : ¬∃ f : List BudgetHistory → Option Budget → ℕ → Option BudgetPlan,
    ∀ s rs, s.history = [] → Along Succeeds s rs → ∀ p r q, rs = p ++ r :: q →
      f (s.patched rs).history (s.patched rs).budget p.length =
        (s.patched p).budget.map Budget.plan := by
  rintro ⟨f, hf⟩
  have hrenamed : ∀ name, name = "Mine" ∨ name = "Yours" →
      (posted name).history = [] ∧ (posted name).Succeeds rename := by
    rintro name (rfl | rfl) <;> decide +kernel
  have hplan : ∀ name, name = "Mine" ∨ name = "Yours" →
      f ((posted name).patched [rename]).history ((posted name).patched [rename]).budget 0 =
        (posted name).budget.map Budget.plan := fun name hname =>
    hf (posted name) [rename] (hrenamed name hname).1 ⟨(hrenamed name hname).2, trivial⟩ []
      rename [] rfl
  have hmine := hplan "Mine" (Or.inl rfl)
  have hyours := hplan "Yours" (Or.inr rfl)
  have hsame : (posted "Mine").patched [rename] = (posted "Yours").patched [rename] := by
    decide +kernel
  rw [hsame, hyours] at hmine
  exact absurd hmine (by decide +kernel)

/-- A PATCH of the allocations, with the name that the plan has. -/
def allForFood : Instant × Option BudgetBody :=
  (1, some { name := some "Mine", allocations := some [⟨"food", 100⟩] })

/-- The plan before it, from the history. -/
theorem planBefore_allForFood : ∃ b b', (posted "Mine").budget = some b ∧
    ((posted "Mine").patched [allForFood]).budget = some b' ∧ b.plan ≠ b'.plan ∧
      planBefore ((posted "Mine").patched [allForFood]).history b' 0 = some b.plan := by
  have hsome : ∃ b ∈ (posted "Mine").budget,
      ∃ b' ∈ ((posted "Mine").patched [allForFood]).budget, b.plan ≠ b'.plan ∧
        (posted "Mine").history.length = 0 := by decide +kernel
  obtain ⟨b, hb, b', hb', hne, hlength⟩ := hsome
  have hsucceeds : (posted "Mine").Succeeds allForFood := by decide +kernel
  have hkeeps : (posted "Mine").Keeps allForFood := by
    have hname : ∀ b ∈ (posted "Mine").budget, "Mine" = b.name := by decide +kernel
    rintro b hb _ ⟨⟩
    refine ⟨?_, fun k hk => by cases hk⟩
    rintro _ ⟨⟩
    exact hname b hb
  have h := planBefore_patched (s := posted "Mine") (p := []) (r := allForFood) (q := [])
    ⟨⟨hsucceeds, hkeeps⟩, trivial⟩ hb hb'
  rw [hlength] at h
  exact ⟨b, b', hb, hb', hne, h⟩

end BudgetStore

end NbeAdvisor
