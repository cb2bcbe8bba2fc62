import NbeAdvisor.PlanLinks

/-!
# The terms of an allocation after its purchase, an archiving or an edit

The edit and the removal of an allocation write the payload of a plan only while it is not
archived and the allocation is not purchased, and keep the terms of all others. The save from the
widget checks none of this : it puts the payload that comes in over the plan of the message
(`moreGold_overwrites`).

A save respects a plan if it brings the terms that the plan has for every allocation which is
purchased or which the user has edited, and the whole payload if the plan is archived
(`Respects`). In a run whose accepted saves all do, the terms of a purchased allocation never
change, the payload of an archived plan does not, and an edit stands until the user edits or
removes the allocation (`run_keeps_terms`). `Rewrites` says what a request can do to the payload of
one plan, and `run_keeps` goes from one request to a run.
-/

namespace NbeAdvisor

open Numerals

/-- The request edits or removes the allocation. -/
def PlanRequest.Changes (id : ScenarioId) (x : InstrumentId) : PlanRequest → Prop
  | .edit _ id' x' _ => id' = id ∧ x' = x
  | .remove _ id' x' => id' = id ∧ x' = x
  | _ => False

namespace PlanStore

/-- The allocations, by plan, that the user has edited and not removed since. -/
abbrev Edits := List (ScenarioId × InstrumentId)

/-- A save respects what a purchase, an archiving or an edit has settled in the plan. -/
structure Respects (s : PlanStore) (e : Edits) (c : PlanScenario) (p : ScenarioPayload Double) :
    Prop where
  archived : c.status = .archived → p = c.payload
  settled : ∀ x, s.Purchased c.id x ∨ (c.id, x) ∈ e → p.terms x = c.payload.terms x

variable (ctx : ℚ → ℚ)

/-- The request is not refused. -/
def Accepts (s : PlanStore) (r : Instant × PlanRequest) : Prop :=
  (s.handle ctx r.1 r.2).toOption.isSome = true

/-- The request is refused, or it is not a save over a plan, or one that respects it. -/
def Harmless (s : PlanStore) (e : Edits) (r : Instant × PlanRequest) : Prop :=
  ∀ user conversation m p c, r.2 = .saveWidget user conversation m (some (some p)) →
    s.Accepts ctx r → s.savedFrom m = some c → s.Respects e c p.toJson

/-- The edits that stand after a request. -/
def editsAfter (s : PlanStore) (e : Edits) (r : Instant × PlanRequest) : Edits :=
  match s.handle ctx r.1 r.2, r.2 with
  | .ok _, .edit _ id x _ => (id, x) :: e
  | .ok _, .remove _ id x => e.filter fun y => y ≠ (id, x)
  | _, _ => e

/-- The edits that stand after the requests of a list. -/
def standingEdits : PlanStore → Edits → List (Instant × PlanRequest) → Edits
  | _, e, [] => e
  | s, e, r :: rs => standingEdits (s.after ctx r) (s.editsAfter ctx e r) rs

/-- Every request of a list is harmless where it comes in. -/
def AllHarmless : PlanStore → Edits → List (Instant × PlanRequest) → Prop
  | _, _, [] => True
  | s, e, r :: rs => s.Harmless ctx e r ∧ AllHarmless (s.after ctx r) (s.editsAfter ctx e r) rs

variable {ctx} {now : Instant} {s s' : PlanStore} {e : Edits} {c d : PlanScenario}
  {id : ScenarioId} {x : InstrumentId} {r : PlanRequest} {q : List (Instant × PlanRequest)}

/-! ## One request -/

/-- What a request can do to the payload of a plan. -/
inductive Rewrites (s : PlanStore) (c : PlanScenario) : PlanRequest → ScenarioPayload Double → Prop
    where
  | kept (r : PlanRequest) : Rewrites s c r c.payload
  | overwritten (user : UserId) (conversation : ConversationId) {m : MessageId}
      (p : ScenarioPayload ℚ) : s.savedFrom m = some c →
      Rewrites s c (.saveWidget user conversation m (some (some p))) p.toJson
  | edited (user : UserId) {x : InstrumentId} (u : Option AllocationChanges)
      {q : ScenarioPayload Double} : s.Pending c x →
      (∀ y, y ≠ x → q.terms y = c.payload.terms y) → Rewrites s c (.edit user c.id x u) q
  | removed (user : UserId) {x : InstrumentId} {q : ScenarioPayload Double} : s.Pending c x →
      (∀ y, y ≠ x → q.terms y = c.payload.terms y) → Rewrites s c (.remove user c.id x) q

/-- A plan after the plan with an identifier got a payload. -/
theorem payload_setPayload {q : ScenarioPayload Double} (hs : s.Consistent) (hc : c ∈ s.scenarios)
    (hd : d ∈ (s.setPayload id q).scenarios) (h : d.id = c.id) :
    (c.id = id ∧ d.payload = q) ∨ d.payload = c.payload := by
  rcases Keyed.mem_modify.1 hd with ⟨hd, -⟩ | ⟨d, hd', hid, rfl⟩
  · exact Or.inr (congrArg _ (hs.eq_of_id hd hc h))
  · exact Or.inl ⟨h.symm.trans hid, rfl⟩

theorem Moves.rewrites (hm : s.Moves ctx now r s') (hs : s.Consistent) (hc : c ∈ s.scenarios)
    (hd : d ∈ s'.scenarios) (hid : d.id = c.id) : s.Rewrites c r d.payload := by
  have hsame : d ∈ s.scenarios → s.Rewrites c r d.payload := by
    intro hd
    rw [hs.eq_of_id hd hc hid]
    exact .kept r
  cases hm with
  | planCreated user conversation _ _ =>
    rcases List.mem_append.1 hd with hd | hd
    · exact hsame hd
    · have hnew : d.id = s.nextScenario := by rw [List.mem_singleton.1 hd]
      exact absurd (hid.symm.trans hnew) (hs.used c hc).ne
  | planOverwritten user conversation _ hfrom =>
    rcases payload_setPayload hs hc hd hid with ⟨hcid, hp⟩ | hp
    · rw [hp]
      rw [← hs.eq_of_id hc (List.mem_of_find?_eq_some hfrom) hcid] at hfrom
      exact .overwritten user conversation _ hfrom
    · rw [hp]
      exact .kept _
  | edited user hpending hq =>
    rcases payload_setPayload hs hc hd hid with ⟨hcid, hp⟩ | hp
    · rw [hp]
      obtain rfl := hs.eq_of_id hc hpending.mem hcid
      exact .edited user _ hpending fun y hy =>
        updateSavedAllocation_terms (hs.sound c hc) hq hy
    · rw [hp]
      exact .kept _
  | removed user hpending hq _ =>
    rcases payload_setPayload hs hc hd hid with ⟨hcid, hp⟩ | hp
    · rw [hp]
      obtain rfl := hs.eq_of_id hc hpending.mem hcid
      exact .removed user hpending fun y hy =>
        removeSavedAllocation_terms (hs.sound c hc) hq hy
    · rw [hp]
      exact .kept _
  | updated =>
    rcases Keyed.mem_modify.1 hd with ⟨hd, -⟩ | ⟨d, hd', -, rfl⟩
    · exact hsame hd
    · rw [← hs.eq_of_id hd' hc hid]
      exact .kept _
  | emptied => exact hsame (List.mem_of_mem_filter hd)
  | deleted => exact hsame (List.mem_of_mem_filter hd)
  | unchanged => exact hsame hd
  | purchased => exact hsame hd

theorem Moves.lt_nextScenario (hm : s.Moves ctx now r s') (h : id < s.nextScenario) :
    id < s'.nextScenario := by
  cases hm with
  | planCreated => exact h.trans (Nat.lt_succ_self _)
  | _ => exact h

/-- A plan that is gone does not come back. -/
theorem Moves.gone (hm : s.Moves ctx now r s') (hlt : id < s.nextScenario)
    (hne : ∀ c ∈ s.scenarios, c.id ≠ id) : ∀ c ∈ s'.scenarios, c.id ≠ id := by
  have hmodify : ∀ {k} {f : PlanScenario → PlanScenario}, (∀ c, (f c).id = c.id) →
      ∀ c ∈ Keyed.modify PlanScenario.id k f s.scenarios, c.id ≠ id := by
    intro k f hf c hc
    rcases Keyed.mem_modify.1 hc with ⟨hc, -⟩ | ⟨d, hd, -, rfl⟩
    · exact hne c hc
    · rw [hf d]
      exact hne d hd
  cases hm with
  | planCreated =>
    intro c hc
    rcases List.mem_append.1 hc with hc | hc
    · exact hne c hc
    · rw [List.mem_singleton.1 hc]
      exact hlt.ne'
  | planOverwritten | edited | removed | updated => exact hmodify fun _ => rfl
  | emptied | deleted => exact fun c hc => hne c (List.mem_of_mem_filter hc)
  | unchanged | purchased => exact hne

/-- A purchase is recorded as long as the plan is there. -/
theorem Moves.purchased_mono (hm : s.Moves ctx now r s') (hd : d ∈ s'.scenarios)
    (hx : s.Purchased d.id x) : s'.Purchased d.id x := by
  have hdelete : ∀ k, d ∈ (s.deletePlan k).scenarios → (s.deletePlan k).Purchased d.id x := by
    intro k hd
    obtain ⟨y, hy, hkey⟩ := List.mem_map.1 hx
    have hne : d.id ≠ k := by simpa using (List.mem_filter.1 hd).2
    have hscenario : y.scenario = d.id := congrArg Prod.fst hkey
    exact List.mem_map.2 ⟨y, List.mem_filter.2 ⟨hy, by simpa [hscenario] using hne⟩, hkey⟩
  cases hm with
  | purchased =>
    obtain ⟨y, hy, hkey⟩ := List.mem_map.1 hx
    exact List.mem_map.2 ⟨y, List.mem_append_left _ hy, hkey⟩
  | emptied | deleted => exact hdelete _ hd
  | _ => exact hx

/-! ## Runs -/

theorem gone_run (hlt : id < s.nextScenario) (hne : ∀ c ∈ s.scenarios, c.id ≠ id) :
    ∀ c ∈ (s.run ctx q).scenarios, c.id ≠ id := by
  induction q generalizing s with
  | nil => exact hne
  | cons r q ih =>
    have hm := after_moves ctx s r
    exact ih (hm.lt_nextScenario hlt) (hm.gone hlt hne)

/-- A plan that is there at the end of a run is there after each request. -/
theorem exists_of_run (hs : s.Consistent) (r : Instant × PlanRequest) (hc : c ∈ s.scenarios)
    (hd : d ∈ ((s.after ctx r).run ctx q).scenarios) (hid : d.id = c.id) :
    ∃ a ∈ (s.after ctx r).scenarios, a.id = c.id := by
  by_contra hno
  have hlt := (after_moves ctx s r).lt_nextScenario (hs.used c hc)
  exact gone_run hlt (fun a ha h => hno ⟨a, ha, h⟩) d hd hid

/-- What of a plan no request of a run changes : `P` says, of a store, its edits and the requests
that are to come, why not. -/
theorem run_keeps {α : Type} (f : PlanScenario → α) (id : ScenarioId)
    (P : PlanStore → Edits → List (Instant × PlanRequest) → Prop)
    (hstep : ∀ s e r q, s.Consistent → s.Harmless ctx e r → P s e (r :: q) →
      ∀ c ∈ s.scenarios, c.id = id → ∀ d ∈ (s.after ctx r).scenarios, d.id = id →
        f d = f c ∧ P (s.after ctx r) (s.editsAfter ctx e r) q) :
    ∀ (q : List (Instant × PlanRequest)) (s : PlanStore) (e : Edits), s.Consistent →
      s.AllHarmless ctx e q → P s e q → ∀ c ∈ s.scenarios, c.id = id →
        ∀ d ∈ (s.run ctx q).scenarios, d.id = id → f d = f c
  | [], s, e, hs, _, _, c, hc, hcid, d, hd, hdid => by
    rw [hs.eq_of_id hd hc (hdid.trans hcid.symm)]
  | r :: q, s, e, hs, ⟨hr, hq⟩, hP, c, hc, hcid, d, hd, hdid => by
    obtain ⟨a, ha, haid⟩ := exists_of_run hs r hc hd (hdid.trans hcid.symm)
    obtain ⟨hfa, hPa⟩ := hstep s e r q hs hr hP c hc hcid a ha (haid.trans hcid)
    have hs' := (after_moves ctx s r).consistent hs
    exact (run_keeps f id P hstep q _ _ hs' hq hPa a ha (haid.trans hcid) d hd hdid).trans hfa

/-! ## What stands -/

/-- What a harmless request does to a plan. -/
theorem Harmless.rewrites {r : Instant × PlanRequest} (hr : s.Harmless ctx e r)
    (hs : s.Consistent) (hc : c ∈ s.scenarios) (hd : d ∈ (s.after ctx r).scenarios)
    (hid : d.id = c.id) : d.payload = c.payload ∨ s.Respects e c d.payload ∨
      ∃ x, r.2.Changes c.id x ∧ s.Pending c x ∧ ∀ y, y ≠ x → d.payload.terms y = c.payload.terms y := by
  have hrw := (after_moves ctx s r).rewrites hs hc hd hid
  by_cases haccepts : s.Accepts ctx r
  · obtain ⟨now, r⟩ := r
    generalize d.payload = p at hrw
    cases hrw with
    | kept => exact Or.inl rfl
    | overwritten user conversation p hfrom =>
      exact Or.inr (Or.inl (hr user conversation _ p c rfl haccepts hfrom))
    | edited user u hpending hterms =>
      exact Or.inr (Or.inr ⟨_, ⟨rfl, rfl⟩, hpending, hterms⟩)
    | removed user hpending hterms =>
      exact Or.inr (Or.inr ⟨_, ⟨rfl, rfl⟩, hpending, hterms⟩)
  · have hsame : s.after ctx r = s := by
      unfold Accepts at haccepts
      unfold after
      split
      · rfl
      · next h => exact absurd (by rw [h]; rfl) haccepts
    rw [hsame] at hd
    rw [hs.eq_of_id hd hc hid]
    exact Or.inl rfl

theorem Harmless.terms_eq {r : Instant × PlanRequest} (hr : s.Harmless ctx e r)
    (hs : s.Consistent) (hc : c ∈ s.scenarios) (hd : d ∈ (s.after ctx r).scenarios)
    (hid : d.id = c.id)
    (hx : s.Purchased c.id x ∨ ((c.id, x) ∈ e ∧ ¬r.2.Changes c.id x)) :
    d.payload.terms x = c.payload.terms x := by
  rcases hr.rewrites hs hc hd hid with h | h | ⟨y, hy, hpending, hterms⟩
  · rw [h]
  · exact h.settled x (hx.imp_right And.left)
  · refine hterms x fun hxy => ?_
    subst hxy
    exact hx.elim hpending.pending fun h => h.2 hy

theorem Harmless.payload_eq {r : Instant × PlanRequest} (hr : s.Harmless ctx e r)
    (hs : s.Consistent) (hc : c ∈ s.scenarios) (hd : d ∈ (s.after ctx r).scenarios)
    (hid : d.id = c.id) (harchived : c.status = .archived) : d.payload = c.payload := by
  rcases hr.rewrites hs hc hd hid with h | h | ⟨y, -, hpending, -⟩
  · exact h
  · exact h.archived harchived
  · rw [hpending.saved] at harchived
    cases harchived

/-- An edit stands unless the request edits or removes the allocation. -/
theorem mem_editsAfter {r : Instant × PlanRequest} (hx : (id, x) ∈ e) (hr : ¬r.2.Changes id x) :
    (id, x) ∈ s.editsAfter ctx e r := by
  unfold editsAfter
  split
  · exact List.mem_cons_of_mem _ hx
  · next h =>
    refine List.mem_filter.2 ⟨hx, ?_⟩
    rw [h] at hr
    exact decide_eq_true fun heq =>
      hr ⟨(congrArg Prod.fst heq).symm, (congrArg Prod.snd heq).symm⟩
  · exact hx

/-- The requests after the first ones, from where these lead. -/
theorem AllHarmless.drop {p : List (Instant × PlanRequest)} (h : s.AllHarmless ctx e (p ++ q)) :
    (s.run ctx p).AllHarmless ctx (s.standingEdits ctx e p) q := by
  induction p generalizing s e with
  | nil => exact h
  | cons r p ih => exact ih h.2

/-- In a run from a store without plans whose saves over a plan all respect it, what is read of a
plan after `p` and then after `q` : the terms of a purchased allocation are the same, so is the
payload if the plan is archived throughout, and so are the terms of an allocation whose edit stands
and that no request of `q` edits or removes. -/
theorem run_keeps_terms (ctx : ℚ → ℚ) {s : PlanStore}
    (hids : (s.messages.map PlanMessage.id).Nodup) (hscenarios : s.scenarios = [])
    (hpurchases : s.purchases = []) {p q : List (Instant × PlanRequest)}
    (h : s.AllHarmless ctx [] (p ++ q)) {c d : PlanScenario} (hc : c ∈ (s.run ctx p).scenarios)
    (hd : d ∈ (s.run ctx (p ++ q)).scenarios) (hid : d.id = c.id) :
    (∀ x, (s.run ctx p).Purchased c.id x → d.payload.terms x = c.payload.terms x) ∧
      ((∀ q₁ q₂, q₁ ++ q₂ = q → ∀ a ∈ (s.run ctx (p ++ q₁)).scenarios, a.id = c.id →
        a.status = .archived) → d.payload = c.payload) ∧
      ∀ x, (c.id, x) ∈ s.standingEdits ctx [] p → (∀ r ∈ q, ¬r.2.Changes c.id x) →
        d.payload.terms x = c.payload.terms x := by
  have hs : (s.run ctx p).Consistent := (Consistent.of_empty hids hscenarios hpurchases).run p
  have hd' : d ∈ ((s.run ctx p).run ctx q).scenarios := by rwa [← run_append]
  refine ⟨fun x hx => ?_, fun harchived => ?_, fun x hx hq => ?_⟩
  · refine run_keeps (fun c => c.payload.terms x) c.id (fun s _ _ => s.Purchased c.id x) ?_ q _ _
      hs h.drop hx c hc rfl d hd' hid
    intro s e r q hs hr hx a ha haid b hb hbid
    refine ⟨hr.terms_eq hs ha hb (hbid.trans haid.symm) (Or.inl (by rwa [haid])), ?_⟩
    rw [← hbid] at hx ⊢
    exact (after_moves ctx s r).purchased_mono hb hx
  · refine run_keeps (fun c => c.payload) c.id
      (fun s _ q => ∀ q₁ q₂, q₁ ++ q₂ = q → ∀ a ∈ (s.run ctx q₁).scenarios, a.id = c.id →
        a.status = .archived) ?_ q _ _ hs h.drop ?_ c hc rfl d hd' hid
    · intro s e r q hs hr harchived a ha haid b hb hbid
      refine ⟨hr.payload_eq hs ha hb (hbid.trans haid.symm) (harchived [] _ rfl a ha haid), ?_⟩
      exact fun q₁ q₂ hq => harchived (r :: q₁) q₂ (by rw [List.cons_append, hq])
    · intro q₁ q₂ hq
      rw [← run_append]
      exact harchived q₁ q₂ hq
  · refine run_keeps (fun c => c.payload.terms x) c.id
      (fun _ e q => (c.id, x) ∈ e ∧ ∀ r ∈ q, ¬r.2.Changes c.id x) ?_ q _ _
      hs h.drop ⟨hx, hq⟩ c hc rfl d hd' hid
    intro s e r q hs hr ⟨hx, hq⟩ a ha haid b hb hbid
    have hnot := hq r List.mem_cons_self
    refine ⟨hr.terms_eq hs ha hb (hbid.trans haid.symm) (Or.inr (by rw [haid]; exact ⟨hx, hnot⟩)),
      mem_editsAfter hx hnot, fun r hr => hq r (List.mem_cons_of_mem _ hr)⟩

/-! ## Saves that do not respect the plan, and one that does -/

/-- The plan with more of the fund is saved. -/
def saveMoreFund : PlanRequest := .saveWidget 1 4 5 (some (some moreFund))

/-- The plan with more gold is saved. -/
def saveMoreGold : PlanRequest := .saveWidget 1 4 5 (some (some moreGold))

/-- The day of the purchase. -/
def boughtOn : Date :=
  { year := 2024, month := 9, day := 23, year_valid := by decide, day_valid := by decide }

/-- The planned gold is bought as planned. -/
def buyGold : PlanRequest :=
  .purchase { user := 1, scenarioId := 0, instrumentId := 1, body := some {
    quantity := 720000000, unitPrice := 1000000, purchasedAt := boughtOn
    quantity_pos := Nat.succ_pos _, unitPrice_pos := Nat.succ_pos _ } }

/-- Saved, the gold bought, and archived. -/
def boughtAndArchived : List (Instant × PlanRequest) :=
  [(0, saveMoreFund), (1, buyGold), (2, .update 1 0 (some { status := some .archived }))]

/-- A save with more gold changes the terms of the gold that is bought, and the payload of the
archived plan. A save of the widget as it was takes back the edit of the user. -/
theorem moreGold_overwrites :
    (∃ c ∈ (proposed.run decimalContext boughtAndArchived).scenarios,
      ∃ d ∈ (proposed.run decimalContext (boughtAndArchived ++ [(3, saveMoreGold)])).scenarios,
        d.id = c.id ∧ (proposed.run decimalContext boughtAndArchived).Purchased c.id 1 ∧
          c.status = .archived ∧ d.status = .archived ∧ d.payload.terms 1 ≠ c.payload.terms 1) ∧
      ∃ c ∈ (proposed.run decimalContext editedPlan).scenarios,
        ∃ d ∈ (proposed.run decimalContext (editedPlan ++ [(3, saveMoreFund)])).scenarios,
          d.id = c.id ∧ (c.id, 1) ∈ proposed.standingEdits decimalContext [] editedPlan ∧
            d.payload.terms 1 ≠ c.payload.terms 1 := by
  constructor <;> decide +kernel

/-- The first save again, which is what the plan has, and an edit of the fund. -/
def saveAgain : List (Instant × PlanRequest) :=
  [(3, saveMoreFund), (4, .edit 1 0 2 (some { quantity := some 1 }))]

/-- The terms of the gold that is bought stay. -/
theorem saveAgain_keeps_terms :
    ∃ c ∈ (proposed.run decimalContext [(0, saveMoreFund), (1, buyGold)]).scenarios,
      ∃ d ∈ (proposed.run decimalContext
          ([(0, saveMoreFund), (1, buyGold)] ++ saveAgain)).scenarios,
        d.payload ≠ c.payload ∧ d.payload.terms 1 = c.payload.terms 1 := by
  have hother : ∀ {s : PlanStore} {e : Edits} {r : Instant × PlanRequest},
      (∀ user conversation m body, r.2 ≠ .saveWidget user conversation m body) →
        s.Harmless decimalContext e r :=
    fun hr user conversation m p c h => absurd h (hr user conversation m _)
  have hagain : ∀ c ∈ (proposed.run decimalContext [(0, saveMoreFund), (1, buyGold)]).savedFrom 5,
      moreFund.toJson = c.payload := by decide +kernel
  have hharmless : proposed.AllHarmless decimalContext []
      ([(0, saveMoreFund), (1, buyGold)] ++ saveAgain) := by
    refine ⟨?_, hother (by simp [buyGold]), ?_, hother (by simp), trivial⟩
    · rintro user conversation m p c ⟨⟩ _ ⟨⟩
    · rintro user conversation m p c ⟨⟩ _ hc
      have heq := hagain c hc
      exact ⟨fun _ => heq, fun x _ => by rw [heq]⟩
  obtain ⟨c, hc, d, hd, hid, hbought, hne⟩ :
      ∃ c ∈ (proposed.run decimalContext [(0, saveMoreFund), (1, buyGold)]).scenarios,
        ∃ d ∈ (proposed.run decimalContext
            ([(0, saveMoreFund), (1, buyGold)] ++ saveAgain)).scenarios, d.id = c.id ∧
          (proposed.run decimalContext [(0, saveMoreFund), (1, buyGold)]).Purchased c.id 1 ∧
          d.payload ≠ c.payload := by decide +kernel
  exact ⟨c, hc, d, hd, hne, (run_keeps_terms decimalContext (by decide) rfl rfl hharmless hc hd
    hid).1 1 hbought⟩

end PlanStore

end NbeAdvisor
