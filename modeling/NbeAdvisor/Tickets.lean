import NbeAdvisor.Interleave
import Mathlib.Data.Int.Notation

/-!
# Values that are taken once

Entries keep values under tickets, each until a time. `set` puts a value under a ticket, and
`getdel` takes it away in one step, as the commands of a key-value server with these names do.

A `Desk` says what each thread of a pool has minted and redeemed. If every ticket that is minted is
new, and a thread redeems a ticket only by taking it from the entries (`Desk.Uses`), then what is
redeemed is what one thread has minted, and no two threads redeem one ticket
(`Desk.Accounted.next`).
-/

namespace Tickets

open Interleave

variable {κ ν σ τ ρ : Type*}

/-- A value, and the time from which it is gone. -/
structure Entry (κ ν : Type*) where
  ticket : κ
  value : ν
  expiresAt : ℤ
  deriving DecidableEq

section Entries

variable [DecidableEq κ] {entries : List (Entry κ ν)} {k : κ} {v : ν} {e : Entry κ ν} {now : ℤ}

/-- A ticket is stored, in place of what it was. -/
def set (entries : List (Entry κ ν)) (k : κ) (v : ν) (expiresAt : ℤ) : List (Entry κ ν) :=
  entries.filter (fun e => e.ticket ≠ k) ++ [⟨k, v, expiresAt⟩]

/-- The value under the ticket, unless it has expired, and the entries without it. -/
def getdel (entries : List (Entry κ ν)) (now : ℤ) (k : κ) : Option ν × List (Entry κ ν) :=
  ((entries.find? fun e => e.ticket = k ∧ now < e.expiresAt).map Entry.value,
    entries.filter fun e => e.ticket ≠ k)

/-- What is stored was there or is the new ticket. -/
theorem mem_set {expiresAt : ℤ} (h : e ∈ set entries k v expiresAt) :
    e ∈ entries ∨ e = ⟨k, v, expiresAt⟩ :=
  (List.mem_append.1 h).imp List.mem_of_mem_filter List.mem_singleton.1

/-- What is left was there, and is another ticket. -/
theorem mem_getdel (h : e ∈ (getdel entries now k).2) : e ∈ entries ∧ e.ticket ≠ k := by
  obtain ⟨hmem, hne⟩ := List.mem_filter.1 h
  exact ⟨hmem, by simpa using hne⟩

/-- What is redeemed was there and has not expired. -/
theorem getdel_eq_some (h : (getdel entries now k).1 = some v) :
    ∃ e ∈ entries, e.ticket = k ∧ e.value = v ∧ now < e.expiresAt := by
  obtain ⟨e, he, rfl⟩ := Option.map_eq_some_iff.1 h
  have hp : e.ticket = k ∧ now < e.expiresAt := by simpa using List.find?_some he
  exact ⟨e, List.mem_of_find?_eq_some he, hp.1, rfl, hp.2⟩

end Entries

/-! ## Threads that mint and redeem -/

/-- The entries in the store, and the ticket with its value that a thread has minted and that it
has redeemed. -/
structure Desk (κ ν σ τ : Type*) where
  entries : σ → List (Entry κ ν)
  minted : τ → Option (κ × ν)
  redeemed : τ → Option (κ × ν)

namespace Desk

variable (D : Desk κ ν σ τ)

/-- A thread that has to do with no ticket yet. -/
def Blank (t : τ) : Prop := D.minted t = none ∧ D.redeemed t = none

/-- The ticket is new in the pool. -/
def Fresh (p : Pool σ τ) (k : κ) : Prop := ∀ u ∈ p.threads, ∀ v, D.minted u ≠ some (k, v)

/-- An entry was minted by a thread and redeemed by none. What was redeemed was minted. No ticket
is minted twice, and none is redeemed twice. -/
structure Accounted (p : Pool σ τ) : Prop where
  entry : ∀ e ∈ D.entries p.store, (∃ t ∈ p.threads, D.minted t = some (e.ticket, e.value)) ∧
    ∀ t ∈ p.threads, ∀ v, D.redeemed t ≠ some (e.ticket, v)
  redeemed : ∀ t ∈ p.threads, ∀ k v, D.redeemed t = some (k, v) →
    ∃ u ∈ p.threads, D.minted u = some (k, v)
  mintedOnce : ∀ k, AtMostOne (fun t => ∃ v, D.minted t = some (k, v)) p.threads
  redeemedOnce : ∀ k, AtMostOne (fun t => ∃ v, D.redeemed t = some (k, v)) p.threads

variable {D} {S : System σ τ ρ} {p q : Pool σ τ} {a : Action τ ρ} {t t' u : τ} {s' : σ} {k : κ}
  {v : ν}

/-- Without tickets all are accounted for. -/
theorem accounted_nil {s : σ} (h : D.entries s = []) : D.Accounted ⟨s, []⟩ where
  entry e he := by simp [h] at he
  redeemed t ht := by simp at ht
  mintedOnce k := .nil _
  redeemedOnce k := .nil _

/-- Who comes in without a ticket changes nothing. -/
theorem Accounted.arrive (h : D.Accounted p) (ht : D.Blank t) :
    D.Accounted ⟨p.store, p.threads ++ [t]⟩ where
  entry e he := by
    obtain ⟨⟨u, hu, hm⟩, hnone⟩ := h.entry e he
    refine ⟨⟨u, List.mem_append_left _ hu, hm⟩, fun w hw v => ?_⟩
    rcases List.mem_append.1 hw with hw | hw
    · exact hnone w hw v
    · obtain rfl := List.mem_singleton.1 hw
      simp [ht.2]
  redeemed w hw k v hr := by
    rcases List.mem_append.1 hw with hw | hw
    · obtain ⟨u, hu, hm⟩ := h.redeemed w hw k v hr
      exact ⟨u, List.mem_append_left _ hu, hm⟩
    · obtain rfl := List.mem_singleton.1 hw
      simp [ht.2] at hr
  mintedOnce k := (h.mintedOnce k).snoc (by simp [ht.1])
  redeemedOnce k := (h.redeemedOnce k).snoc (by simp [ht.2])

section Steps

variable [DecidableEq κ] (D)

/-- What a step of a thread may do to the tickets. -/
inductive Uses (p : Pool σ τ) (t : τ) (s' : σ) (t' : τ) : Prop where
  | keeps : D.entries s' ⊆ D.entries p.store → D.minted t' = D.minted t →
      D.redeemed t' = D.redeemed t → Uses p t s' t'
  | mints (k : κ) (v : ν) (expiresAt : ℤ) : D.Fresh p k → D.minted t = none →
      D.minted t' = some (k, v) → D.redeemed t' = D.redeemed t →
      D.entries s' = set (D.entries p.store) k v expiresAt → Uses p t s' t'
  | redeems (now : ℤ) (k : κ) (v : ν) : D.redeemed t = none → D.redeemed t' = some (k, v) →
      D.minted t' = D.minted t → (getdel (D.entries p.store) now k).1 = some v →
      D.entries s' = (getdel (D.entries p.store) now k).2 → Uses p t s' t'

variable {D}

/-- What a thread has minted it has minted. -/
theorem Uses.minted (h : D.Uses p t s' t') (ht : D.minted t = some (k, v)) :
    D.minted t' = some (k, v) := by
  cases h with
  | keeps hsub hm => exact hm.trans ht
  | mints k' v' expiresAt hfresh hnone => simp [hnone] at ht
  | redeems now k' v' hnone hr hm => exact hm.trans ht

/-- What a thread has redeemed it has redeemed. -/
theorem Uses.redeemed (h : D.Uses p t s' t') (ht : D.redeemed t = some (k, v)) :
    D.redeemed t' = some (k, v) := by
  cases h with
  | keeps hsub hm hr => exact hr.trans ht
  | mints k' v' expiresAt hfresh hnone hm hr => exact hr.trans ht
  | redeems now k' v' hnone => simp [hnone] at ht

theorem mem_set_append {ts new : List τ} {i : ℕ} (h : u ∈ ts.set i t' ++ new) :
    u = t' ∨ u ∈ ts ∨ u ∈ new := by
  rcases List.mem_append.1 h with h | h
  · exact (List.mem_or_eq_of_mem_set h).symm.imp_right Or.inl
  · exact Or.inr (Or.inr h)

/-- What a thread has minted, it or the one that it has become is there after the step. -/
theorem Uses.exists_minted {new : List τ} {i : ℕ} (huse : D.Uses p t s' t')
    (hi : p.threads[i]? = some t) (hu : u ∈ p.threads) (hm : D.minted u = some (k, v)) :
    ∃ w ∈ p.threads.set i t' ++ new, D.minted w = some (k, v) := by
  obtain ⟨j, hj⟩ := List.mem_iff_getElem?.1 hu
  by_cases hji : j = i
  · subst hji
    obtain rfl : u = t := Option.some.inj (hj.symm.trans hi)
    have hlt := (List.getElem?_eq_some_iff.1 hi).1
    exact ⟨t', List.mem_of_getElem? (getElem?_set_append_self hlt), huse.minted hm⟩
  · exact ⟨u, List.mem_of_getElem? (getElem?_set_append_ne hji hj), hm⟩

/-- A step that uses the store as it should keeps the tickets accounted for. -/
theorem Accounted.run {new : List τ} {i : ℕ} (h : D.Accounted p) (hi : p.threads[i]? = some t)
    (huse : D.Uses p t s' t') (hnew : ∀ u ∈ new, D.Blank u) :
    D.Accounted ⟨s', p.threads.set i t' ++ new⟩ := by
  have ht := List.mem_of_getElem? hi
  have hkeepMinted : ∀ k, (∀ v, D.minted t' = some (k, v) → D.minted t = some (k, v)) →
      AtMostOne (fun t => ∃ v, D.minted t = some (k, v)) (p.threads.set i t' ++ new) :=
    fun k hk => (h.mintedOnce k).keep hi (fun ⟨v, hv⟩ => ⟨v, hk v hv⟩)
      fun u hu => by simp [(hnew u hu).1]
  have hkeepRedeemed : ∀ k, (∀ v, D.redeemed t' = some (k, v) → D.redeemed t = some (k, v)) →
      AtMostOne (fun t => ∃ v, D.redeemed t = some (k, v)) (p.threads.set i t' ++ new) :=
    fun k hk => (h.redeemedOnce k).keep hi (fun ⟨v, hv⟩ => ⟨v, hk v hv⟩)
      fun u hu => by simp [(hnew u hu).2]
  have hredeemed : (∀ k v, D.redeemed t' = some (k, v) → D.redeemed t = some (k, v) ∨
      ∃ u ∈ p.threads, D.minted u = some (k, v)) → ∀ w ∈ p.threads.set i t' ++ new, ∀ k v,
      D.redeemed w = some (k, v) → ∃ u ∈ p.threads.set i t' ++ new, D.minted u = some (k, v) := by
    intro hself w hw k v hr
    rcases mem_set_append hw with rfl | hw | hw
    · rcases hself k v hr with hold | ⟨u, hu, hm⟩
      · obtain ⟨u, hu, hm⟩ := h.redeemed t ht k v hold
        exact huse.exists_minted hi hu hm
      · exact huse.exists_minted hi hu hm
    · obtain ⟨u, hu, hm⟩ := h.redeemed w hw k v hr
      exact huse.exists_minted hi hu hm
    · simp [(hnew w hw).2] at hr
  have hentry : ∀ e ∈ D.entries p.store, (∀ v, D.redeemed t' ≠ some (e.ticket, v)) →
      (∃ w ∈ p.threads.set i t' ++ new, D.minted w = some (e.ticket, e.value)) ∧
        ∀ w ∈ p.threads.set i t' ++ new, ∀ v, D.redeemed w ≠ some (e.ticket, v) := by
    intro e he hself
    obtain ⟨⟨u, hu, hm⟩, hnone⟩ := h.entry e he
    refine ⟨huse.exists_minted hi hu hm, fun w hw v => ?_⟩
    rcases mem_set_append hw with rfl | hw | hw
    · exact hself v
    · exact hnone w hw v
    · simp [(hnew w hw).2]
  cases huse with
  | keeps hsub hm hr =>
    refine ⟨fun e he => ?_, hredeemed fun k v hv => Or.inl (hr ▸ hv), fun k => ?_, fun k => ?_⟩
    · exact hentry e (hsub he) fun v => hr ▸ (h.entry e (hsub he)).2 t ht v
    · exact hkeepMinted k fun v hv => hm ▸ hv
    · exact hkeepRedeemed k fun v hv => hr ▸ hv
  | mints k₀ v₀ expiresAt hfresh hnone hm hr hset =>
    have hlt := (List.getElem?_eq_some_iff.1 hi).1
    refine ⟨fun e he => ?_, hredeemed fun k v hv => Or.inl (hr ▸ hv), fun k => ?_, fun k => ?_⟩
    · rcases mem_set (hset ▸ he) with he | rfl
      · exact hentry e he fun v => hr ▸ (h.entry e he).2 t ht v
      · refine ⟨⟨t', List.mem_of_getElem? (getElem?_set_append_self hlt), hm⟩, fun w hw v hw' => ?_⟩
        have hnobody : ∀ u ∈ p.threads, D.redeemed u ≠ some (k₀, v) := by
          intro u hu hu'
          obtain ⟨x, hx, hxm⟩ := h.redeemed u hu _ _ hu'
          exact hfresh x hx v hxm
        rcases mem_set_append hw with rfl | hw | hw
        · exact hnobody t ht (hr ▸ hw')
        · exact hnobody w hw hw'
        · simp [(hnew w hw).2] at hw'
    · by_cases hk : k = k₀
      · subst hk
        refine .take hi (fun j u _ hj => ?_) fun u hu => by simp [(hnew u hu).1]
        rintro ⟨v, hv⟩
        exact hfresh u (List.mem_of_getElem? hj) v hv
      · refine hkeepMinted k fun v hv => ?_
        rw [hm] at hv
        cases hv
        exact absurd rfl hk
    · exact hkeepRedeemed k fun v hv => hr ▸ hv
  | redeems now k₀ v₀ hnone hr hm hval hrest =>
    obtain ⟨e₀, he₀, hk₀, hv₀, -⟩ := getdel_eq_some hval
    have hself : ∀ k v, D.redeemed t' = some (k, v) → k = k₀ ∧ v = v₀ := by
      intro k v hv
      rw [hr] at hv
      cases hv
      exact ⟨rfl, rfl⟩
    refine ⟨fun e he => ?_, hredeemed fun k v hv => ?_, fun k => ?_, fun k => ?_⟩
    · obtain ⟨hold, hne⟩ := mem_getdel (hrest ▸ he)
      exact hentry e hold fun v hv => hne (hself _ _ hv).1
    · obtain ⟨rfl, rfl⟩ := hself k v hv
      subst hk₀ hv₀
      exact Or.inr (h.entry e₀ he₀).1
    · exact hkeepMinted k fun v hv => hm ▸ hv
    · by_cases hk : k = k₀
      · subst hk hk₀
        refine .take hi (fun j u _ hj => ?_) fun u hu => by simp [(hnew u hu).2]
        rintro ⟨v, hv⟩
        exact (h.entry e₀ he₀).2 u (List.mem_of_getElem? hj) v hv
      · exact hkeepRedeemed k fun v hv => absurd (hself k v hv).1 hk

/-- Arrivals have to do with no ticket, and steps use them as they may. -/
theorem Accounted.next (h : D.Accounted p) (hn : S.Next p a q)
    (harrive : ∀ t, S.arrives t → D.Blank t)
    (hstep : ∀ i r t s' t' new, a = .run i r → p.threads[i]? = some t →
      S.step i p.store t r = some (s', t', new) → D.Uses p t s' t' ∧ ∀ u ∈ new, D.Blank u) :
    D.Accounted q := by
  cases hn with
  | @arrive t ht => exact h.arrive (harrive t ht)
  | @run i r t t' s' new hi hs =>
    obtain ⟨huse, hnew⟩ := hstep i r t s' t' new rfl hi hs
    exact h.run hi huse hnew

end Steps

end Desk

end Tickets
