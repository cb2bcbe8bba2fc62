import Mathlib.Data.List.Basic
import Mathlib.Data.List.Induction
import Mathlib.Tactic.Basic

/-!
# Threads over a shared store

A `System` says what one atomic step of a thread does to a store that all threads
share, on an answer of its surroundings, and which threads may join from outside.
A `Pool` is the store with every thread that has ever been started, by number. `Run`
is any interleaving of steps and arrivals, each of which meets a side condition `ok`;
with the trivial condition it is every interleaving. `exec` runs a given one, which is a
`Run` if its actions meet the condition (`Run.of_exec_meets`).

`Run.invariant` is the invariant rule, and `Everywhere.next` proves its premise for what
holds of the store and of each thread in it. `Run.strengthen` lets one invariant use
another. `AtMostOne` is mutual exclusion : at most one
thread of the pool satisfies a predicate, and its lemmas follow the four ways in which
a step can move the predicate between threads (keep, take when free, drop, hand over to
a thread it starts).

`Alone` is a single thread with nobody else, over the list of answers it was given,
`Drives` says that some answers take it to a given end, and `Settles` that all its runs
come to an end with a given outcome.
-/

namespace Interleave

variable {σ τ ρ : Type*}

/-- What thread number `i` does in local state `t` on the answer `r`: the new store, its
new local state and the threads it starts. `none` if the step is not enabled. -/
structure System (σ τ ρ : Type*) where
  step : ℕ → σ → τ → ρ → Option (σ × τ × List τ)
  /-- The threads that may join from outside. -/
  arrives : τ → Prop

/-- The store and the threads started so far. -/
structure Pool (σ τ : Type*) where
  store : σ
  threads : List τ

/-- A thread joins, or thread `i` takes a step on the answer `r`. -/
inductive Action (τ ρ : Type*) where
  | arrive (t : τ)
  | run (i : ℕ) (r : ρ)

namespace System

variable (S : System σ τ ρ)

/-- One action of the pool. -/
inductive Next (p : Pool σ τ) : Action τ ρ → Pool σ τ → Prop where
  | arrive {t : τ} : S.arrives t → Next p (.arrive t) ⟨p.store, p.threads ++ [t]⟩
  | run {i : ℕ} {r : ρ} {t t' : τ} {s' : σ} {new : List τ} : p.threads[i]? = some t →
      S.step i p.store t r = some (s', t', new) →
      Next p (.run i r) ⟨s', p.threads.set i t' ++ new⟩

/-- Any interleaving whose actions all meet `ok` in the pool they are taken in. -/
inductive Run (ok : Pool σ τ → Action τ ρ → Prop) : Pool σ τ → Pool σ τ → Prop where
  | refl (p : Pool σ τ) : Run ok p p
  | tail {p q r : Pool σ τ} {a : Action τ ρ} : Run ok p q → ok q a → S.Next q a r → Run ok p r

/-- The pool after the actions of a list, if they are all enabled. -/
def exec [DecidablePred S.arrives] : List (Action τ ρ) → Pool σ τ → Option (Pool σ τ)
  | [], p => some p
  | .arrive t :: as, p =>
    if S.arrives t then exec as ⟨p.store, p.threads ++ [t]⟩ else none
  | .run i r :: as, p =>
    match p.threads[i]? with
    | none => none
    | some t =>
      match S.step i p.store t r with
      | none => none
      | some (s', t', new) => exec as ⟨s', p.threads.set i t' ++ new⟩

/-- Each action of a list meets `ok` in the pool that those before it lead to. -/
def Meets [DecidablePred S.arrives] (ok : Pool σ τ → Action τ ρ → Prop) :
    List (Action τ ρ) → Pool σ τ → Prop
  | [], _ => True
  | a :: as, p => ok p a ∧ ∀ q ∈ S.exec [a] p, Meets ok as q

instance [DecidablePred S.arrives] (ok : Pool σ τ → Action τ ρ → Prop)
    [∀ p a, Decidable (ok p a)] : ∀ as p, Decidable (S.Meets ok as p)
  | [], _ => .isTrue trivial
  | a :: as, p =>
    have : ∀ q, Decidable (Meets S ok as q) := instDecidableMeets ok as
    inferInstanceAs (Decidable (ok p a ∧ ∀ q ∈ S.exec [a] p, Meets S ok as q))

theorem meets_of_forall [DecidablePred S.arrives] {ok : Pool σ τ → Action τ ρ → Prop}
    {as : List (Action τ ρ)} (h : ∀ a ∈ as, ∀ p, ok p a) (p : Pool σ τ) : S.Meets ok as p := by
  induction as generalizing p with
  | nil => trivial
  | cons a as ih =>
    exact ⟨h a List.mem_cons_self p, fun q _ => ih (fun b hb => h b (List.mem_cons_of_mem _ hb)) q⟩

theorem meets_true [DecidablePred S.arrives] (as : List (Action τ ρ)) (p : Pool σ τ) :
    S.Meets (fun _ _ => True) as p :=
  meets_of_forall S (fun _ _ _ => trivial) p

variable {S} {ok : Pool σ τ → Action τ ρ → Prop} {p q r : Pool σ τ}

/-- One executed action is a step. -/
theorem next_of_exec [DecidablePred S.arrives] {a : Action τ ρ} (h : S.exec [a] p = some q) :
    S.Next p a q := by
  cases a with
  | arrive t =>
    by_cases ht : S.arrives t
    · obtain rfl : ⟨p.store, p.threads ++ [t]⟩ = q := by simpa [exec, ht] using h
      exact .arrive ht
    · simp [exec, ht] at h
  | run i r =>
    cases hi : p.threads[i]? with
    | none => simp [exec, hi] at h
    | some t =>
      cases hs : S.step i p.store t r with
      | none => simp [exec, hi, hs] at h
      | some x =>
        obtain ⟨s', t', new⟩ := x
        obtain rfl : ⟨s', p.threads.set i t' ++ new⟩ = q := by simpa [exec, hi, hs] using h
        exact .run hi hs

namespace Run

/-- Runs follow each other. -/
theorem trans (h : S.Run ok p q) (h' : S.Run ok q r) : S.Run ok p r := by
  induction h' with
  | refl => exact h
  | tail _ hok hn ih => exact ih.tail hok hn

/-- A step and a run are a run. -/
theorem head {a : Action τ ρ} (hok : ok p a) (hn : S.Next p a q) (h : S.Run ok q r) :
    S.Run ok p r :=
  trans ((Run.refl p).tail hok hn) h

/-- What every action that meets `ok` preserves holds at the end of every run. -/
theorem invariant {I : Pool σ τ → Prop}
    (hstep : ∀ p q a, I p → ok p a → S.Next p a q → I q) (h : S.Run ok p q) (hp : I p) : I q := by
  induction h with
  | refl => exact hp
  | tail _ hok hn ih => exact hstep _ _ _ ih hok hn

/-- A run may take for granted in every pool what its actions preserve. -/
theorem strengthen {J : Pool σ τ → Prop} (hstep : ∀ p q a, J p → ok p a → S.Next p a q → J q)
    (h : S.Run ok p q) (hp : J p) : S.Run (fun p a => ok p a ∧ J p) p q := by
  induction h with
  | refl => exact .refl _
  | tail h hok hn ih => exact ih.tail ⟨hok, h.invariant hstep hp⟩ hn

/-- A reflexive and transitive relation that every action respects, in pools that satisfy
an invariant, relates the ends of every run. -/
theorem relates {I : Pool σ τ → Prop} {R : Pool σ τ → Pool σ τ → Prop} (hrefl : ∀ p, R p p)
    (htrans : ∀ p q r, R p q → R q r → R p r)
    (hinv : ∀ p q a, I p → ok p a → S.Next p a q → I q)
    (hstep : ∀ p q a, I p → ok p a → S.Next p a q → R p q) (h : S.Run ok p q) (hp : I p) :
    R p q := by
  induction h with
  | refl => exact hrefl _
  | tail h hok hn ih => exact htrans _ _ _ ih (hstep _ _ _ (h.invariant hinv hp) hok hn)

/-- The actions of an executed list are a run, if each meets `ok` where it is taken. -/
theorem of_exec_meets [DecidablePred S.arrives] :
    ∀ {as : List (Action τ ρ)} {p q : Pool σ τ}, S.Meets ok as p → S.exec as p = some q →
      S.Run ok p q
  | [], p, q, _, h => by
    obtain rfl : p = q := by simpa [exec] using h
    exact .refl p
  | .arrive t :: as, p, q, ⟨hok, hrest⟩, h => by
    by_cases ht : S.arrives t
    · rw [exec, if_pos ht] at h
      exact head hok (.arrive ht) (of_exec_meets (hrest _ (by simp [exec, ht])) h)
    · simp [exec, ht] at h
  | .run i r :: as, p, q, ⟨hok, hrest⟩, h => by
    cases hi : p.threads[i]? with
    | none => simp [exec, hi] at h
    | some t =>
      cases hs : S.step i p.store t r with
      | none => simp [exec, hi, hs] at h
      | some x =>
        obtain ⟨s', t', new⟩ := x
        simp only [exec, hi, hs] at h
        exact head hok (.run hi hs) (of_exec_meets (hrest _ (by simp [exec, hi, hs])) h)

/-- What is executed is a run. -/
theorem of_exec [DecidablePred S.arrives] {as : List (Action τ ρ)} (h : S.exec as p = some q) :
    S.Run (fun _ _ => True) p q :=
  of_exec_meets (meets_true S as p) h

end Run

end System

/-! ## The threads after a step -/

/-- The threads after thread `i` has moved to `t'` and started `new`. -/
theorem getElem?_set_append {ts new : List τ} {i j : ℕ} {t' u : τ} (hi : i < ts.length)
    (h : (ts.set i t' ++ new)[j]? = some u) :
    (j = i ∧ u = t') ∨ (j ≠ i ∧ ts[j]? = some u) ∨ (ts.length ≤ j ∧ u ∈ new) := by
  rcases Nat.lt_or_ge j ts.length with hj | hj
  · rw [List.getElem?_append_left (by simpa using hj)] at h
    by_cases hji : j = i
    · subst hji
      rw [List.getElem?_set_self hi, Option.some.injEq] at h
      exact Or.inl ⟨rfl, h.symm⟩
    · rw [List.getElem?_set_ne (Ne.symm hji)] at h
      exact Or.inr (Or.inl ⟨hji, h⟩)
  · rw [List.getElem?_append_right (by simpa using hj)] at h
    exact Or.inr (Or.inr ⟨hj, List.mem_of_getElem? h⟩)

/-- After its step a thread is what the step made of it. -/
theorem getElem?_set_append_self {ts new : List τ} {i : ℕ} {t' : τ} (hi : i < ts.length) :
    (ts.set i t' ++ new)[i]? = some t' := by
  rw [List.getElem?_append_left (by simpa using hi), List.getElem?_set_self hi]

/-- The other threads stay what they are. -/
theorem getElem?_set_append_ne {ts new : List τ} {i j : ℕ} {t' u : τ} (hji : j ≠ i)
    (h : ts[j]? = some u) : (ts.set i t' ++ new)[j]? = some u := by
  have hj := (List.getElem?_eq_some_iff.1 h).1
  rw [List.getElem?_append_left (by simpa using hj), List.getElem?_set_ne hji.symm, h]

theorem getElem?_snoc {ts : List τ} {t u : τ} {j : ℕ} (h : (ts ++ [t])[j]? = some u) :
    ts[j]? = some u ∨ (j = ts.length ∧ u = t) := by
  rcases Nat.lt_or_ge j ts.length with hj | hj
  · rw [List.getElem?_append_left hj] at h
    exact Or.inl h
  · rw [List.getElem?_append_right hj] at h
    have hj' : j - ts.length = 0 := by
      by_contra hne
      rw [List.getElem?_eq_none (by simp; omega)] at h
      simp at h
    rw [hj'] at h
    exact Or.inr ⟨by omega, by simpa using h.symm⟩

/-- What holds of every thread still does, if it holds of the one that moved, of those it
started, and the others keep it in the new store. -/
theorem forall_set_append {I : τ → Prop} {ts new : List τ} {i : ℕ} {t' : τ} (hi : i < ts.length)
    (hself : I t') (hnew : ∀ u ∈ new, I u)
    (hother : ∀ (j : ℕ) (u : τ), j ≠ i → ts[j]? = some u → I u) :
    ∀ (j : ℕ) (u : τ), (ts.set i t' ++ new)[j]? = some u → I u := by
  intro j u h
  rcases getElem?_set_append hi h with ⟨-, rfl⟩ | ⟨hj, hu⟩ | ⟨-, hu⟩
  · exact hself
  · exact hother j u hj hu
  · exact hnew u hu

/-! ## Invariants of the store and of each thread -/

/-- `I` holds of the store, and `K` of every thread in it. -/
structure Everywhere (I : σ → Prop) (K : ℕ → σ → τ → Prop) (p : Pool σ τ) : Prop where
  store : I p.store
  threads : ∀ (i : ℕ) (t : τ), p.threads[i]? = some t → K i p.store t

/-- A step keeps `I`, brings its own thread and those it starts into `K`, and leaves the
others there. -/
theorem Everywhere.next {S : System σ τ ρ} {I : σ → Prop} {K : ℕ → σ → τ → Prop} {p q : Pool σ τ}
    {a : Action τ ρ} (hp : Everywhere I K p) (hn : S.Next p a q)
    (harrive : ∀ t, a = .arrive t → S.arrives t → K p.threads.length p.store t)
    (hstep : ∀ i r t s' t' new, a = .run i r → p.threads[i]? = some t →
      S.step i p.store t r = some (s', t', new) → I s' ∧ K i s' t' ∧
        (∀ j u, p.threads.length ≤ j → u ∈ new → K j s' u) ∧
        ∀ j u, j ≠ i → p.threads[j]? = some u → K j s' u) : Everywhere I K q := by
  cases hn with
  | @arrive t ht =>
    refine ⟨hp.store, fun j u hj => ?_⟩
    rcases getElem?_snoc hj with hj | ⟨rfl, rfl⟩
    · exact hp.threads j u hj
    · exact harrive u rfl ht
  | @run i r t t' s' new hi hs =>
    obtain ⟨hI, hself, hnew, hothers⟩ := hstep i r t s' t' new rfl hi hs
    refine ⟨hI, fun j u hj => ?_⟩
    rcases getElem?_set_append (List.getElem?_eq_some_iff.1 hi).1 hj with
      ⟨rfl, rfl⟩ | ⟨hji, hj⟩ | ⟨hlen, hu⟩
    · exact hself
    · exact hothers j u hji hj
    · exact hnew j u hlen hu

/-! ## Mutual exclusion -/

/-- At most one of the threads satisfies `P`. -/
def AtMostOne (P : τ → Prop) (ts : List τ) : Prop :=
  ∀ (i j : ℕ) (t u : τ), ts[i]? = some t → ts[j]? = some u → P t → P u → i = j

namespace AtMostOne

variable {P : τ → Prop} {ts new : List τ} {i : ℕ} {t t' : τ}

/-- Nobody, so not two. -/
theorem nil (P : τ → Prop) : AtMostOne P [] := by
  intro i j t u hi
  simp at hi

/-- A stronger property has no more threads. -/
theorem mono {Q : τ → Prop} (h : AtMostOne P ts) (hQ : ∀ t, Q t → P t) : AtMostOne Q ts :=
  fun i j t u hi hj ht hu => h i j t u hi hj (hQ t ht) (hQ u hu)

/-- A thread outside `P` joins. -/
theorem snoc (h : AtMostOne P ts) (ht : ¬P t) : AtMostOne P (ts ++ [t]) := by
  intro i j a b hi hj ha hb
  rcases getElem?_snoc hi with hi | ⟨-, rfl⟩
  · rcases getElem?_snoc hj with hj | ⟨-, rfl⟩
    · exact h i j a b hi hj ha hb
    · exact (ht hb).elim
  · exact (ht ha).elim

/-- The thread that moves is in `P` afterwards only if it was before. -/
theorem keep (h : AtMostOne P ts) (hi : ts[i]? = some t) (hP : P t' → P t)
    (hnew : ∀ u ∈ new, ¬P u) : AtMostOne P (ts.set i t' ++ new) := by
  have hlt : i < ts.length := (List.getElem?_eq_some_iff.1 hi).1
  intro j k a b hj hk ha hb
  rcases getElem?_set_append hlt hj with ⟨rfl, rfl⟩ | ⟨-, hj'⟩ | ⟨-, hmem⟩
  · rcases getElem?_set_append hlt hk with ⟨rfl, -⟩ | ⟨-, hk⟩ | ⟨-, hmem⟩
    · rfl
    · exact h _ _ _ _ hi hk (hP ha) hb
    · exact (hnew _ hmem hb).elim
  · rcases getElem?_set_append hlt hk with ⟨rfl, rfl⟩ | ⟨-, hk⟩ | ⟨-, hmem⟩
    · exact h _ _ _ _ hj' hi ha (hP hb)
    · exact h _ _ _ _ hj' hk ha hb
    · exact (hnew _ hmem hb).elim
  · exact (hnew _ hmem ha).elim

/-- The thread that moves takes `P` while nobody else has it. -/
theorem take (hi : ts[i]? = some t) (hfree : ∀ (j : ℕ) (u : τ), j ≠ i → ts[j]? = some u → ¬P u)
    (hnew : ∀ u ∈ new, ¬P u) : AtMostOne P (ts.set i t' ++ new) := by
  have hlt : i < ts.length := (List.getElem?_eq_some_iff.1 hi).1
  have only : ∀ (j : ℕ) (u : τ), (ts.set i t' ++ new)[j]? = some u → P u → j = i := by
    intro j u hj hu
    rcases getElem?_set_append hlt hj with ⟨rfl, -⟩ | ⟨hji, hj⟩ | ⟨-, hmem⟩
    · rfl
    · exact (hfree j u hji hj hu).elim
    · exact (hnew u hmem hu).elim
  intro j k a b hj hk ha hb
  rw [only j a hj ha, only k b hk hb]

/-- The thread in `P` leaves it to a thread it starts. -/
theorem handOver (h : AtMostOne P ts) (hi : ts[i]? = some t) (hP : P t) (ht' : ¬P t') {u : τ} :
    AtMostOne P (ts.set i t' ++ [u]) := by
  have hlt : i < ts.length := (List.getElem?_eq_some_iff.1 hi).1
  have only : ∀ (j : ℕ) (v : τ), (ts.set i t' ++ [u])[j]? = some v → P v → j = ts.length := by
    intro j v hj hv
    rcases getElem?_snoc hj with hj | ⟨hj, -⟩
    · rw [← List.append_nil (ts.set i t')] at hj
      rcases getElem?_set_append hlt hj with ⟨rfl, rfl⟩ | ⟨hji, hj⟩ | ⟨-, hmem⟩
      · exact (ht' hv).elim
      · exact (hji (h _ _ _ _ hj hi hv hP)).elim
      · simp at hmem
    · simpa using hj
  intro j k a b hj hk ha hb
  rw [only j a hj ha, only k b hk hb]

end AtMostOne

/-! ## One thread alone -/

/-- The thread after the answers of a list, if they are all fit. -/
def drive (step : σ → τ → ρ → Option (σ × τ)) : List ρ → σ × τ → Option (σ × τ)
  | [], c => some c
  | r :: rs, c => (step c.1 c.2 r).bind (drive step rs)

/-- Some answers take the thread from `c` to `d`. -/
def Drives (step : σ → τ → ρ → Option (σ × τ)) (c d : σ × τ) : Prop := ∃ rs, drive step rs c = some d

namespace Drives

variable {step : σ → τ → ρ → Option (σ × τ)} {c d e : σ × τ}

/-- No step drives at all. -/
theorem refl (step : σ → τ → ρ → Option (σ × τ)) (c : σ × τ) : Drives step c c := ⟨[], rfl⟩

/-- A step and what is driven after it. -/
theorem head {s : σ} {t : τ} (r : ρ) (h : step s t r = some c) (h' : Drives step c d) :
    Drives step (s, t) d := by
  obtain ⟨rs, hrs⟩ := h'
  exact ⟨r :: rs, by rw [drive, h]; exact hrs⟩

/-- What is driven follows on what was. -/
theorem trans (h : Drives step c d) (h' : Drives step d e) : Drives step c e := by
  obtain ⟨rs, hrs⟩ := h
  induction rs generalizing c with
  | nil =>
    obtain rfl : c = d := by simpa [drive] using hrs
    exact h'
  | cons r rs ih =>
    obtain ⟨c', hstep, hrest⟩ := Option.bind_eq_some_iff.1 hrs
    exact head r hstep (ih hrest)

end Drives

/-- A thread runs with nobody else, on the answers of the list, each allowed by `ok`. -/
inductive Alone (step : σ → τ → ρ → Option (σ × τ)) (ok : σ → τ → ρ → Prop) :
    σ × τ → List ρ → σ × τ → Prop where
  | nil (c : σ × τ) : Alone step ok c [] c
  | cons {s s' : σ} {t t' : τ} {r : ρ} {rs : List ρ} {c : σ × τ} : ok s t r →
      step s t r = some (s', t') → Alone step ok (s', t') rs c → Alone step ok (s, t) (r :: rs) c

namespace Alone

variable {step : σ → τ → ρ → Option (σ × τ)} {ok ok' : σ → τ → ρ → Prop} {c d e : σ × τ}
  {rs rs' : List ρ}

/-- The side condition may use that the answer is one of the list. -/
theorem mono_mem (h : Alone step ok c rs d) (hok : ∀ r ∈ rs, ∀ s t, ok s t r → ok' s t r) :
    Alone step ok' c rs d := by
  induction h with
  | nil => exact .nil _
  | cons h hs _ ih =>
    exact .cons (hok _ List.mem_cons_self _ _ h) hs
      (ih fun r hr => hok r (List.mem_cons_of_mem _ hr))

/-- What `drive` executes is a run of the thread alone. -/
theorem of_drive : ∀ {rs : List ρ} {c : σ × τ}, (∀ r ∈ rs, ∀ s t, ok s t r) →
    drive step rs c = some d → Alone step ok c rs d
  | [], c, _, h => by
    obtain rfl : c = d := by simpa [drive] using h
    exact .nil c
  | r :: rs, (s, t), hok, h => by
    obtain ⟨⟨s', t'⟩, hs, hd⟩ := Option.bind_eq_some_iff.1 h
    exact .cons (hok r List.mem_cons_self s t) hs
      (of_drive (fun r' hr => hok r' (List.mem_cons_of_mem _ hr)) hd)

/-- Runs alone follow each other. -/
theorem trans (h : Alone step ok c rs d) (h' : Alone step ok d rs' e) :
    Alone step ok c (rs ++ rs') e := by
  induction h with
  | nil => exact h'
  | cons hok hs _ ih => exact .cons hok hs (ih h')

/-- What every allowed step preserves holds at the end. -/
theorem invariant {I : σ → τ → Prop}
    (hstep : ∀ s t r s' t', I s t → ok s t r → step s t r = some (s', t') → I s' t')
    (h : Alone step ok c rs d) (hc : I c.1 c.2) : I d.1 d.2 := by
  induction h with
  | nil => exact hc
  | cons hok hs _ ih => exact ih (hstep _ _ _ _ _ hc hok hs)

/-- A measure that every allowed step decreases bounds the length of the run. -/
theorem length_le {I : σ → τ → Prop} {fuel : σ → τ → ℕ}
    (hinv : ∀ s t r s' t', I s t → ok s t r → step s t r = some (s', t') → I s' t')
    (hfuel : ∀ s t r s' t', I s t → ok s t r → step s t r = some (s', t') →
      fuel s' t' < fuel s t)
    (h : Alone step ok c rs d) (hc : I c.1 c.2) : rs.length + fuel d.1 d.2 ≤ fuel c.1 c.2 := by
  induction h with
  | nil => simp
  | cons hok hs _ ih =>
    have hlt := hfuel _ _ _ _ _ hc hok hs
    have hle := ih (hinv _ _ _ _ _ hc hok hs)
    simp only [List.length_cons] at hlt hle ⊢
    omega

end Alone

/-- Every run of the thread comes to an end, there in `Q`: the runs are bounded, one that
is not `final` has an allowed step, and one that is final satisfies `Q`. -/
structure Settles (step : σ → τ → ρ → Option (σ × τ)) (ok : σ → τ → ρ → Prop) (final : τ → Prop)
    (Q : σ → Prop) (c : σ × τ) : Prop where
  bounded : ∃ n, ∀ rs d, Alone step ok c rs d → rs.length ≤ n
  goesOn : ∀ rs s t, Alone step ok c rs (s, t) → ¬final t → ∃ r x, ok s t r ∧ step s t r = some x
  ends : ∀ rs s t, Alone step ok c rs (s, t) → final t → Q s

namespace Settles

variable {step : σ → τ → ρ → Option (σ × τ)} {ok : σ → τ → ρ → Prop} {final : τ → Prop}
  {Q : σ → Prop} {c : σ × τ}

/-- The rule for `Settles` : an invariant, a measure that every step decreases, a step at
every state that is not final, and `Q` at those that are. -/
theorem of_invariant {I : σ → τ → Prop} {m : σ → τ → ℕ}
    (hinv : ∀ s t r s' t', I s t → ok s t r → step s t r = some (s', t') → I s' t')
    (hdec : ∀ s t r s' t', I s t → ok s t r → step s t r = some (s', t') →
      m s' t' < m s t)
    (hgo : ∀ s t, I s t → ¬final t → ∃ r x, ok s t r ∧ step s t r = some x)
    (hend : ∀ s t, I s t → final t → Q s) (hc : I c.1 c.2) : Settles step ok final Q c where
  bounded := ⟨m c.1 c.2, fun _ _ h => Nat.le_trans (Nat.le_add_right _ _) (h.length_le hinv hdec hc)⟩
  goesOn _ _ _ h hn := hgo _ _ (h.invariant hinv hc) hn
  ends _ _ _ h hf := hend _ _ (h.invariant hinv hc) hf

/-- What settles, settles from any point of a run. -/
theorem after (h : Settles step ok final Q c) {rs : List ρ} {d : σ × τ}
    (hrun : Alone step ok c rs d) : Settles step ok final Q d where
  bounded := by
    obtain ⟨n, hn⟩ := h.bounded
    refine ⟨n, fun rs' d' h' => ?_⟩
    have hle := hn _ _ (hrun.trans h')
    rw [List.length_append] at hle
    omega
  goesOn _ _ _ h' := h.goesOn _ _ _ (hrun.trans h')
  ends _ _ _ h' := h.ends _ _ _ (hrun.trans h')

/-- There is a run to the end. -/
theorem exists_end (h : Settles step ok final Q c) :
    ∃ rs s t, Alone step ok c rs (s, t) ∧ final t ∧ Q s := by
  obtain ⟨n, hn⟩ := h.bounded
  by_contra hno
  have hlong : ∀ m, ∃ rs d, Alone step ok c rs d ∧ rs.length = m := by
    intro m
    induction m with
    | zero => exact ⟨[], c, .nil c, rfl⟩
    | succ m ih =>
      obtain ⟨rs, ⟨s, t⟩, hrun, hlen⟩ := ih
      have hnf : ¬final t := fun hf => hno ⟨rs, s, t, hrun, hf, h.ends _ _ _ hrun hf⟩
      obtain ⟨r, ⟨s', t'⟩, hok, hs⟩ := h.goesOn _ _ _ hrun hnf
      exact ⟨rs ++ [r], (s', t'), hrun.trans (.cons hok hs (.nil _)), by simp [hlen]⟩
  obtain ⟨rs, d, hrun, hlen⟩ := hlong (n + 1)
  have := hn rs d hrun
  omega

end Settles

/-! ## One request after another -/

/-- What holds at first, and after a request exactly if the request meets a condition, holds all
along exactly if every request meets it. -/
theorem forall_prefix_iff {α : Type*} {P : List α → Prop} {keeps : List α → α → Prop}
    (hstart : P []) (hstep : ∀ as a, P as → (P (as ++ [a]) ↔ keeps as a)) (as : List α) :
    (∀ as', as' <+: as → P as') ↔ ∀ as' a, as' ++ [a] <+: as → keeps as' a := by
  constructor
  · intro h as' a hpre
    exact (hstep as' a (h as' ((List.prefix_append as' [a]).trans hpre))).1 (h (as' ++ [a]) hpre)
  · intro h as' hpre
    induction as' using List.reverseRecOn with
    | nil => exact hstart
    | append_singleton as' a ih =>
      exact (hstep as' a (ih ((List.prefix_append as' [a]).trans hpre))).2 (h as' a hpre)

end Interleave
