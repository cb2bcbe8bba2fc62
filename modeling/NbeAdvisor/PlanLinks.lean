import NbeAdvisor.SavedPlans

/-!
# A plan between its purchases and its widget

The requests of a user on plans, one after the other, from a store that has none. In every
store they lead to (`Consistent`), the instruments of a plan are distinct, the purchased ones are
among them, and they are among those of the widget that the plan was saved from. A save from the
widget takes the instruments of the widget, so it loses no purchase, an edit keeps the
instruments, and a removal takes away one that is not purchased.

`Consistent` is kept by each write (`Consistent.setWidget`, `Consistent.createPlan`,
`Consistent.setPayload`, ..), by each request (`Moves.consistent`), and along a run
(`Consistent.run`).
-/

namespace NbeAdvisor

open Numerals

namespace PlanStore

variable {ctx : ℚ → ℚ} {now : Instant} {s s' : PlanStore} {c d : PlanScenario} {id : ScenarioId}
  {m : MessageId} {x : InstrumentId} {r : PlanRequest}

/-- Ids are distinct, every plan is of a message that has its instruments, and purchases are of
instruments of their plans. -/
structure Consistent (s : PlanStore) : Prop where
  messageIds : (s.messages.map PlanMessage.id).Nodup
  ids : (s.scenarios.map PlanScenario.id).Nodup
  used : ∀ c ∈ s.scenarios, c.id < s.nextScenario
  sound : ∀ c ∈ s.scenarios, c.payload.Sound
  source : ∀ c ∈ s.scenarios, ∃ u ∈ s.messages, c.sourceMessage = some u.id ∧
    c.payload.instrumentIds ⊆ u.instrumentIds
  plan : ∀ id x, s.Purchased id x → ∃ c ∈ s.scenarios, c.id = id ∧ x ∈ c.payload.instrumentIds

namespace Consistent

theorem eq_of_id (hs : s.Consistent) (hc : c ∈ s.scenarios) (hd : d ∈ s.scenarios)
    (h : c.id = d.id) : c = d :=
  Keyed.eq_of_pk hs.ids hc hd h

/-- A purchase is of an allocation of the plan. -/
theorem bought (hs : s.Consistent) (hc : c ∈ s.scenarios) (hx : s.Purchased c.id x) :
    x ∈ c.payload.instrumentIds := by
  obtain ⟨d, hd, hid, hxd⟩ := hs.plan c.id x hx
  rwa [← hs.eq_of_id hd hc hid]

/-- The widget that a plan was saved from. -/
theorem subset_source (hs : s.Consistent) (hc : c ∈ s.scenarios) {u : PlanMessage}
    (hu : u ∈ s.messages) (h : c.sourceMessage = some u.id) :
    c.payload.instrumentIds ⊆ u.instrumentIds := by
  obtain ⟨v, hv, hsource, hsub⟩ := hs.source c hc
  rwa [Keyed.eq_of_pk hs.messageIds hu hv (Option.some.inj (h.symm.trans hsource))]

/-- A store without plans. -/
theorem of_empty (hids : (s.messages.map PlanMessage.id).Nodup) (hscenarios : s.scenarios = [])
    (hpurchases : s.purchases = []) : s.Consistent where
  messageIds := hids
  ids := by simp [hscenarios]
  used := by simp [hscenarios]
  sound := by simp [hscenarios]
  source := by simp [hscenarios]
  plan := by simp [Purchased, hpurchases]

/-! ## The writes -/

theorem setWidget (hs : s.Consistent) {p : ScenarioPayload ℚ} (h : s.Saves m p) :
    (s.setWidget m p.toJson).Consistent where
  messageIds := by
    have hsame : (s.setWidget m p.toJson).messages.map PlanMessage.id =
        s.messages.map PlanMessage.id := Keyed.map_pk_modify fun u hu => hu
    rw [hsame]
    exact hs.messageIds
  ids := hs.ids
  used := hs.used
  sound := hs.sound
  plan := hs.plan
  source c hc := by
    obtain ⟨u, hu, hsource, hsub⟩ := hs.source c hc
    by_cases hm : u.id = m
    · refine ⟨_, Keyed.mem_modify.2 (Or.inr ⟨u, hu, hm, rfl⟩), hsource, fun x hx => ?_⟩
      obtain ⟨v, hv, hid, hids⟩ := h.widget
      obtain rfl := Keyed.eq_of_pk hs.messageIds hu hv (hm.trans hid.symm)
      simpa [PlanMessage.instrumentIds, PlanWidget.instrumentIds] using (hids x).2 (hsub hx)
    · exact ⟨u, Keyed.mem_modify.2 (Or.inl ⟨hu, hm⟩), hsource, hsub⟩

theorem createPlan (hs : s.Consistent) {p : ScenarioPayload ℚ} (user : UserId) (h : s.Saves m p) :
    (s.createPlan user m p.toJson).Consistent where
  messageIds := hs.messageIds
  ids := Keyed.nodup_map_snoc hs.ids fun c hc => (hs.used c hc).ne
  used c hc := by
    rcases List.mem_append.1 hc with hc | hc
    · exact (hs.used c hc).trans (Nat.lt_succ_self _)
    · rw [List.mem_singleton.1 hc]
      exact Nat.lt_succ_self _
  sound c hc := by
    rcases List.mem_append.1 hc with hc | hc
    · exact hs.sound c hc
    · rw [List.mem_singleton.1 hc]
      exact h.sound
  source c hc := by
    rcases List.mem_append.1 hc with hc | hc
    · exact hs.source c hc
    · obtain ⟨u, hu, rfl, hids⟩ := h.widget
      rw [List.mem_singleton.1 hc]
      exact ⟨u, hu, rfl, fun x hx => (hids x).1 (by simpa using hx)⟩
  plan id x hx := by
    obtain ⟨c, hc, h⟩ := hs.plan id x hx
    exact ⟨c, List.mem_append_left _ hc, h⟩

/-- An update of a plan that leaves what is purchased among the instruments of the plan, and
these among those of the widget. -/
theorem modify (hs : s.Consistent) (id : ScenarioId) {f : PlanScenario → PlanScenario}
    (hf : ∀ c, (f c).id = c.id ∧ (f c).sourceMessage = c.sourceMessage)
    (hsound : ∀ c ∈ s.scenarios, c.id = id → (f c).payload.Sound)
    (hbought : ∀ c ∈ s.scenarios, c.id = id → ∀ x, s.Purchased c.id x →
      x ∈ (f c).payload.instrumentIds)
    (hsource : ∀ c ∈ s.scenarios, c.id = id → ∀ u ∈ s.messages, c.sourceMessage = some u.id →
      (f c).payload.instrumentIds ⊆ u.instrumentIds) :
    { s with scenarios := Keyed.modify PlanScenario.id id f s.scenarios }.Consistent where
  messageIds := hs.messageIds
  ids := by
    rw [Keyed.map_pk_modify fun d hd => (hf d).1.trans hd]
    exact hs.ids
  used d hd := by
    rcases Keyed.mem_modify.1 hd with ⟨hd, -⟩ | ⟨c, hc, -, rfl⟩
    · exact hs.used d hd
    · rw [(hf c).1]
      exact hs.used c hc
  sound d hd := by
    rcases Keyed.mem_modify.1 hd with ⟨hd, -⟩ | ⟨c, hc, hid, rfl⟩
    · exact hs.sound d hd
    · exact hsound c hc hid
  source d hd := by
    rcases Keyed.mem_modify.1 hd with ⟨hd, -⟩ | ⟨c, hc, hid, rfl⟩
    · exact hs.source d hd
    · obtain ⟨u, hu, h, -⟩ := hs.source c hc
      exact ⟨u, hu, (hf c).2.trans h, hsource c hc hid u hu h⟩
  plan id' x hx := by
    obtain ⟨c, hc, rfl, h⟩ := hs.plan id' x hx
    by_cases hid : c.id = id
    · exact ⟨f c, Keyed.mem_modify.2 (Or.inr ⟨c, hc, hid, rfl⟩), (hf c).1, hbought c hc hid x hx⟩
    · exact ⟨c, Keyed.mem_modify.2 (Or.inl ⟨hc, hid⟩), rfl, h⟩

theorem setPayload (hs : s.Consistent) (hc : c ∈ s.scenarios) {q : ScenarioPayload Double}
    (hsound : q.Sound) (hbought : ∀ x, s.Purchased c.id x → x ∈ q.instrumentIds)
    (hsource : ∀ u ∈ s.messages, c.sourceMessage = some u.id →
      q.instrumentIds ⊆ u.instrumentIds) : (s.setPayload c.id q).Consistent := by
  refine hs.modify c.id (fun _ => ⟨rfl, rfl⟩) (fun _ _ _ => hsound) (fun d hd hid => ?_)
    fun d hd hid => ?_
  · rw [hs.eq_of_id hd hc hid]
    exact hbought
  · rw [hs.eq_of_id hd hc hid]
    exact hsource

theorem updatePlan (hs : s.Consistent) (id : ScenarioId) (u : ScenarioUpdate) :
    (s.updatePlan id u).Consistent :=
  hs.modify id (fun _ => ⟨rfl, rfl⟩) (fun c hc _ => hs.sound c hc)
    (fun c hc _ _ hx => hs.bought (c := c) hc hx)
    fun c hc _ _ hv hsource => hs.subset_source (c := c) hc hv hsource

theorem deletePlan (hs : s.Consistent) (id : ScenarioId) : (s.deletePlan id).Consistent where
  messageIds := hs.messageIds
  ids := hs.ids.sublist (List.filter_sublist.map _)
  used c hc := hs.used c (List.mem_of_mem_filter hc)
  sound c hc := hs.sound c (List.mem_of_mem_filter hc)
  source c hc := hs.source c (List.mem_of_mem_filter hc)
  plan id' x hx := by
    obtain ⟨y, hy, hkey⟩ := List.mem_map.1 hx
    obtain ⟨hy, hne⟩ := List.mem_filter.1 hy
    obtain ⟨c, hc, rfl, h⟩ := hs.plan id' x (List.mem_map.2 ⟨y, hy, hkey⟩)
    have hscenario : y.scenario = c.id := congrArg Prod.fst hkey
    exact ⟨c, List.mem_filter.2 ⟨hc, by simpa [hscenario] using hne⟩, rfl, h⟩

theorem recordPurchase (hs : s.Consistent) (hc : c ∈ s.scenarios) (w : HoldingWrite)
    {y : AllocationPurchase} (hkey : y.key = (c.id, x)) (hx : x ∈ c.payload.instrumentIds) :
    (s.recordPurchase w y).Consistent where
  messageIds := hs.messageIds
  ids := hs.ids
  used := hs.used
  sound := hs.sound
  source := hs.source
  plan id x' hx' := by
    obtain ⟨z, hz, hz'⟩ := List.mem_map.1 hx'
    rcases List.mem_append.1 hz with hz | hz
    · exact hs.plan id x' (List.mem_map.2 ⟨z, hz, hz'⟩)
    · rw [List.mem_singleton.1 hz, hkey] at hz'
      obtain ⟨rfl, rfl⟩ := Prod.mk.inj hz'
      exact ⟨c, hc, rfl, hx⟩

end Consistent

/-! ## The requests -/

theorem Moves.consistent (h : s.Moves ctx now r s') (hs : s.Consistent) : s'.Consistent := by
  cases h with
  | unchanged => exact hs
  | planCreated user conversation hsaves _ =>
    exact (hs.createPlan user hsaves).setWidget ⟨hsaves.sound, hsaves.widget⟩
  | @planOverwritten user conversation m p c hsaves hfrom =>
    have hc := List.mem_of_find?_eq_some hfrom
    have hsource : c.sourceMessage = some m := by simpa using List.find?_some hfrom
    have hids : ∀ u ∈ s.messages, c.sourceMessage = some u.id →
        ∀ x, x ∈ p.instrumentIds ↔ x ∈ u.instrumentIds := by
      intro u hu h
      obtain ⟨v, hv, rfl, hids⟩ := hsaves.widget
      rwa [Keyed.eq_of_pk hs.messageIds hu hv (Option.some.inj (h.symm.trans hsource))]
    have hset : (s.setPayload c.id p.toJson).Consistent := by
      refine hs.setPayload hc hsaves.sound (fun x hx => ?_) fun u hu h x hx => ?_
      · obtain ⟨u, hu, h, hsub⟩ := hs.source c hc
        simpa using (hids u hu h x).2 (hsub (hs.bought hc hx))
      · exact (hids u hu h x).1 (by simpa using hx)
    exact hset.setWidget ⟨hsaves.sound, hsaves.widget⟩
  | purchased w hpending hx hkey => exact hs.recordPurchase hpending.mem w hkey hx
  | @edited user c x u q hpending hq =>
    obtain ⟨hsound, -, hids⟩ := updateSavedAllocation_ids hq
    refine hs.setPayload hpending.mem hsound (fun y hy => ?_) fun v hv h => ?_
    · rw [hids]
      exact hs.bought hpending.mem hy
    · rw [hids]
      exact hs.subset_source hpending.mem hv h
  | @removed user c x q hpending hq _ =>
    obtain ⟨hsound, hids⟩ := (removeSavedAllocation_ids hq).2.2 q rfl
    refine hs.setPayload hpending.mem hsound (fun y hy => ?_) fun v hv h y hy => ?_
    · have hne : y ≠ x := fun hyx => hpending.pending (hyx ▸ hy)
      rw [hids]
      simp [hs.bought hpending.mem hy, hne]
    · rw [hids] at hy
      exact hs.subset_source hpending.mem hv h (List.mem_of_mem_filter hy)
  | emptied => exact hs.deletePlan _
  | updated => exact hs.updatePlan _ _
  | deleted => exact hs.deletePlan _

theorem Consistent.run (hs : s.Consistent) (rs : List (Instant × PlanRequest)) :
    (s.run ctx rs).Consistent := by
  induction rs generalizing s with
  | nil => exact hs
  | cons r rs ih => exact ih ((after_moves ctx s r).consistent hs)

/-- Only a purchase changes the holdings. -/
theorem Moves.holdings_eq (h : s.Moves ctx now r s') (hr : ∀ p, r ≠ .purchase p) :
    s'.holdings = s.holdings := by
  cases h with
  | purchased => exact absurd rfl (hr _)
  | _ => rfl

/-- A removal deletes the plan exactly if what remains of it is purchased. -/
theorem Consistent.removed_iff (hs : s.Consistent) {user : UserId} {t : PlanStatus}
    (h : s.removeAllocation ctx now user id x = .ok (s', t)) :
    (∀ c ∈ s'.scenarios, c.id ≠ id) ↔ ∀ c ∈ s.scenarios, c.id = id →
      ∀ y ∈ c.payload.instrumentIds, y ≠ x → s.Purchased id y := by
  obtain ⟨c, hpending, rfl, ⟨rfl, hall⟩ | ⟨q, rfl, hq, hnot⟩⟩ := removeAllocation_ok h
  · refine iff_of_true (fun d hd => by simpa using (List.mem_filter.1 hd).2) fun d hd hid => ?_
    rwa [hs.eq_of_id hd hpending.mem hid]
  · refine iff_of_false (fun hnone => ?_) fun hall => hnot fun y hy => ?_
    · exact hnone _ (Keyed.mem_modify.2 (Or.inr ⟨c, hpending.mem, rfl, rfl⟩)) rfl
    · rw [((removeSavedAllocation_ids hq).2.2 q rfl).2] at hy
      have hy' : y ∈ c.payload.instrumentIds ∧ y ≠ x := by simpa using hy
      exact hall c hpending.mem rfl y hy'.1 hy'.2

/-- After any requests from a store without plans, the purchased instruments of a plan are among
its own, which are distinct and among those of the widget it was saved from. A removal that
succeeds deletes the plan exactly if nothing that remains is unpurchased, and a request that is
not a purchase leaves the holdings. -/
theorem run_keeps_plans_linked (ctx : ℚ → ℚ) {s : PlanStore}
    (hids : (s.messages.map PlanMessage.id).Nodup) (hscenarios : s.scenarios = [])
    (hpurchases : s.purchases = []) (rs : List (Instant × PlanRequest)) :
    (∀ c ∈ (s.run ctx rs).scenarios, c.payload.instrumentIds.Nodup ∧
        (∀ x, (s.run ctx rs).Purchased c.id x → x ∈ c.payload.instrumentIds) ∧
        ∃ u ∈ (s.run ctx rs).messages, c.sourceMessage = some u.id ∧
          c.payload.instrumentIds ⊆ u.instrumentIds) ∧
      (∀ now user id x s' t,
        (s.run ctx rs).handle ctx now (.remove user id x) = .ok (s', t) →
          ((∀ c ∈ s'.scenarios, c.id ≠ id) ↔ ¬∃ c ∈ (s.run ctx rs).scenarios, c.id = id ∧
            ∃ y ∈ c.payload.instrumentIds, y ≠ x ∧ ¬(s.run ctx rs).Purchased id y)) ∧
      ∀ now r, (∀ p, r ≠ .purchase p) →
        ((s.run ctx rs).after ctx (now, r)).holdings = (s.run ctx rs).holdings := by
  have hs : (s.run ctx rs).Consistent := (Consistent.of_empty hids hscenarios hpurchases).run rs
  refine ⟨fun c hc => ⟨(hs.sound c hc).nodup, fun x hx => hs.bought hc hx, hs.source c hc⟩,
    fun now user id x s' t h => ?_, fun now r hr => (after_moves ctx _ (now, r)).holdings_eq hr⟩
  rw [hs.removed_iff h]
  push Not
  rfl

/-! ## A plan of two instruments -/

/-- Gold by the hundredth of a gram. -/
def gold : CatalogueInstrument :=
  { id := 1, minimumIncrement := 10 ^ 6, code := "gold-24k-gram-egp", assetClass := .gold
    unit := "gram_24k", priceType := .spot }

/-- An exchange-traded fund. -/
def fund : CatalogueInstrument :=
  { id := 2, minimumIncrement := 10 ^ 8, code := "egx30-etf", assetClass := .fund
    unit := "fund_unit", priceType := .marketPrice }

/-- `percentage` of 1200 pounds in gold at 100 pounds. -/
def goldPart (percentage targetAmount quantity : ℚ) : AllocationSnapshot ℚ :=
  { instrumentId := 1, instrumentCode := gold.code, displayName := "24K Gold", assetClass := .gold
    unitPrice := 100, unit := gold.unit, priceType := .spot, minimumIncrement := 1 / 100
    observedAt := 0, source := "Live gold source", mode := .live, targetAmount, quantity
    percentage, actualAllocatedAmount := targetAmount, unallocatedRemainder := 0 }

/-- The rest in the fund, at 240 pounds. -/
def fundPart (percentage targetAmount quantity : ℚ) : AllocationSnapshot ℚ :=
  { instrumentId := 2, instrumentCode := fund.code, displayName := "EGX30 ETF", assetClass := .fund
    unitPrice := 240, unit := fund.unit, priceType := .marketPrice, minimumIncrement := 1
    observedAt := 0, source := "Official fund price", mode := .mock, targetAmount, quantity
    percentage, actualAllocatedAmount := targetAmount, unallocatedRemainder := 0 }

/-- A saved plan for 1200 pounds in two parts. -/
def twoParts (a b : AllocationSnapshot ℚ) : ScenarioPayload ℚ :=
  { confirmedAmount := 1200, allocations := [a, b], totalAllocated := 1200, totalRemainder := 0
    disclaimer := "Illustrative only.", saved := true }

/-- 720 pounds of gold, or 960. -/
def moreFund : ScenarioPayload ℚ := twoParts (goldPart 60 720 (72 / 10)) (fundPart 40 480 2)

/-- Four fifths in gold. -/
def moreGold : ScenarioPayload ℚ := twoParts (goldPart 80 960 (96 / 10)) (fundPart 20 240 1)

/-- A message with the plan as the model proposes it. -/
def proposed : PlanStore :=
  { messages := [{
      id := 5, conversation := 4, user := 1
      widget := some (.investmentPlan (some { moreFund with saved := false })) }]
    catalogue := [gold, fund] }

/-- Saved, and the gold edited. -/
def editedPlan : List (Instant × PlanRequest) :=
  [(0, .saveWidget 1 4 5 (some (some moreFund))), (1, .edit 1 0 1 (some { quantity := some 7 }))]

/-- Two instruments are in the plan after a save and an edit, and it is there after a removal of
the fund. -/
theorem editedPlan_linked :
    (((proposed.run decimalContext editedPlan).scenarios.map fun c => c.payload.instrumentIds) =
        [[1, 2]] ∧
      ∀ c ∈ (proposed.run decimalContext editedPlan).scenarios, c.payload.instrumentIds.Nodup) ∧
      ∃ s' t, (proposed.run decimalContext editedPlan).handle decimalContext 2 (.remove 1 0 2) =
          .ok (s', t) ∧
        ((∀ c ∈ s'.scenarios, c.id ≠ 0) ↔
          ¬∃ c ∈ (proposed.run decimalContext editedPlan).scenarios, c.id = 0 ∧
            ∃ y ∈ c.payload.instrumentIds, y ≠ 2 ∧
              ¬(proposed.run decimalContext editedPlan).Purchased 0 y) := by
  have h := run_keeps_plans_linked decimalContext (s := proposed) (by decide) rfl rfl editedPlan
  refine ⟨⟨by decide +kernel, fun c hc => (h.1 c hc).1⟩, ?_⟩
  have hok : ((proposed.run decimalContext editedPlan).handle decimalContext 2
      (.remove 1 0 2)).toOption.isSome = true := by decide +kernel
  obtain ⟨⟨s', t⟩, hr⟩ := exists_ok hok
  exact ⟨s', t, hr, h.2.1 2 1 0 2 s' t hr⟩

end PlanStore

end NbeAdvisor
