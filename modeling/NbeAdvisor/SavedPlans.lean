import NbeAdvisor.PlanPayload

/-!
# Requests on saved plans

Each request run to completion. A PATCH of an investment-plan widget saves its payload as a plan,
or over the plan that the message has (`saveWidget`). The views on a plan record a purchase of
an allocation, edit one, remove one, rename or archive the plan and delete it. All of them are
atomic, so a request that is refused leaves the store as it was.

`PlanStore.Moves` says what a request can do to the store, and later results split on it only.
A purchase run alone through its statements is the one here (`confirmPurchase_alone`).
-/

namespace NbeAdvisor

open Numerals Interleave RowLocks

/-! ## The rows -/

/-- `Message.widget_json` : the payload as its serializer reads it, if it can. -/
inductive PlanWidget where
  | investmentPlan (payload : Option (ScenarioPayload ℚ))
  | other
  deriving DecidableEq

/-- A message of a conversation of the user. -/
structure PlanMessage where
  id : MessageId
  conversation : ConversationId
  user : UserId
  fromAssistant : Bool := true
  widget : Option PlanWidget := none
  deriving DecidableEq

/-- A row of `SavedInvestmentScenario`, with its payload. -/
structure PlanScenario where
  id : ScenarioId
  user : UserId
  sourceMessage : Option MessageId
  title : String := "Investment scenario"
  status : ScenarioStatus := .saved
  payload : ScenarioPayload Double
  deriving DecidableEq

/-- The validated fields of a rename or a change of status. -/
structure ScenarioUpdate where
  title : Option String := none
  status : Option ScenarioStatus := none
  deriving DecidableEq

/-- `nextScenario` is the primary key that the next plan gets, and no plan has had. -/
structure PlanStore where
  messages : List PlanMessage := []
  scenarios : List PlanScenario := []
  catalogue : List CatalogueInstrument := []
  holdings : List InvestmentHolding := []
  purchases : List AllocationPurchase := []
  nextScenario : ScenarioId := 0

/-- The instruments of the plan in the widget. -/
def PlanWidget.instrumentIds : PlanWidget → List InstrumentId
  | investmentPlan payload => (payload.map (·.instrumentIds)).getD []
  | other => []

/-- The instruments of the plan in the message. -/
def PlanMessage.instrumentIds (m : PlanMessage) : List InstrumentId :=
  (m.widget.map (·.instrumentIds)).getD []

/-- A plan as the purchases see it. -/
def PlanScenario.toSaved (c : PlanScenario) : SavedInvestmentScenario :=
  { id := c.id, user := c.user, status := c.status, allocationIds := c.payload.instrumentIds }

namespace PlanStore

variable (s : PlanStore)

/-- The tables as the purchases see them. -/
def portfolio : PortfolioStore :=
  { scenarios := s.scenarios.map (·.toSaved), holdings := s.holdings, purchases := s.purchases
    instruments := s.catalogue.map (·.toInvestmentInstrument) }

/-- `get_object_or_404(SavedInvestmentScenario, id=.., user=..)`. -/
def ownScenario (user : UserId) (id : ScenarioId) : Except PlanError PlanScenario :=
  match s.scenarios.find? fun c => c.id = id ∧ c.user = user with
  | none => .error .notFound
  | some c => .ok c

/-- The assistant's message in a conversation of the user. -/
def ownMessage (user : UserId) (conversation : ConversationId) (id : MessageId) :
    Except PlanError PlanMessage :=
  match s.messages.find? fun m =>
      m.id = id ∧ m.conversation = conversation ∧ m.user = user ∧ m.fromAssistant = true with
  | none => .error .notFound
  | some m => .ok m

/-- `filter(source_message=message).first()`. -/
def savedFrom (m : MessageId) : Option PlanScenario :=
  s.scenarios.find? fun c => c.sourceMessage = some m

/-- A purchase of the allocation is recorded. -/
def Purchased (id : ScenarioId) (x : InstrumentId) : Prop :=
  (id, x) ∈ s.purchases.map AllocationPurchase.key

instance (id : ScenarioId) (x : InstrumentId) : Decidable (s.Purchased id x) :=
  inferInstanceAs (Decidable ((id, x) ∈ s.purchases.map AllocationPurchase.key))

/-! ## The writes -/

/-- `title` and `status` are saved. -/
def updatePlan (id : ScenarioId) (u : ScenarioUpdate) : PlanStore :=
  { s with
    scenarios := Keyed.modify PlanScenario.id id
      (fun c => { c with title := u.title.getD c.title, status := u.status.getD c.status })
      s.scenarios }

/-- The widget of the message is saved with the payload. -/
def setWidget (m : MessageId) (q : ScenarioPayload Double) : PlanStore :=
  { s with
    messages := Keyed.modify PlanMessage.id m
      (fun u => { u with widget := some (.investmentPlan (some q.ofJson)) }) s.messages }

/-- A plan is created of the message. -/
def createPlan (user : UserId) (m : MessageId) (q : ScenarioPayload Double) : PlanStore :=
  { s with
    scenarios :=
      s.scenarios ++ [{ id := s.nextScenario, user, sourceMessage := some m, payload := q }]
    nextScenario := s.nextScenario + 1 }

/-- The payload of a plan is saved. -/
def setPayload (id : ScenarioId) (q : ScenarioPayload Double) : PlanStore :=
  { s with scenarios := Keyed.modify PlanScenario.id id (fun c => { c with payload := q }) s.scenarios }

/-- The row goes, and its purchases with it. -/
def deletePlan (id : ScenarioId) : PlanStore :=
  { s with
    scenarios := s.scenarios.filter fun c => c.id ≠ id
    purchases := s.purchases.filter fun x => x.scenario ≠ id }

/-- A purchase is recorded, and its holding written. -/
def recordPurchase (w : HoldingWrite) (x : AllocationPurchase) : PlanStore :=
  { s with holdings := w.apply s.holdings, purchases := s.purchases ++ [x] }

end PlanStore

/-! ## The views -/

/-- How a request that is not refused is answered. -/
inductive PlanStatus where
  | ok
  | created
  | noContent
  deriving DecidableEq

/-- A body that a serializer takes field by field, if it does. -/
def fieldsOf {α : Type} : Option α → Except PlanError α
  | none => .error .fields
  | some a => .ok a

theorem fieldsOf_ok {α : Type} {b : Option α} {a : α} : fieldsOf b = .ok a ↔ b = some a := by
  cases b <;> simp [fieldsOf]

namespace PlanStore

variable (ctx : ℚ → ℚ) (now : Instant) (s : PlanStore)

/-- What `MessageWidgetView.patch` writes for a plan, over the one of the message if there is
one. -/
def savePlan (user : UserId) (m : MessageId) (q : ScenarioPayload Double) : PlanStore :=
  match s.savedFrom m with
  | none => (s.createPlan user m q).setWidget m q
  | some c => (s.setPayload c.id q).setWidget m q

/-- `MessageWidgetView.patch`. -/
def saveWidget (user : UserId) (conversation : ConversationId) (id : MessageId)
    (body : Option (Option (ScenarioPayload ℚ))) : Except PlanError (PlanStore × PlanStatus) := do
  let m ← s.ownMessage user conversation id
  require (m.widget ≠ none) (.invalid "widget" "This message has no widget to update.")
  let payload ← fieldsOf body
  match m.widget with
  | some (.investmentPlan original) =>
    let q ← validateSavedPayload ctx now s.catalogue payload original
    return (s.savePlan user id q, .ok)
  | _ => return (s, .ok)

/-- What a confirmation writes to the holdings. -/
def holdingWrite (r : PurchaseRequest) (b : PurchaseBody) : Except PlanError HoldingWrite :=
  let w := match s.portfolio.ownHolding r.user r.instrumentId with
    | none => .create (r.newHolding b (Keyed.freshKey (s.holdings.map InvestmentHolding.id)))
    | some h => .save (h.merge ctx b)
  if w.holding.Storable then .ok w else .error .raises

/-- `SavedInvestmentAllocationPurchaseView.post`. -/
def confirmPurchase (r : PurchaseRequest) : Except PlanError (PlanStore × PlanStatus) := do
  let c ← s.ownScenario r.user r.scenarioId
  require (c.status = .saved) (.invalid "scenario" "Restore this plan before recording a purchase.")
  require (r.instrumentId ∈ c.payload.instrumentIds) notInPlan
  let b ← fieldsOf r.body
  if s.Purchased r.scenarioId r.instrumentId then return (s, .ok)
  match s.catalogue.find? fun i => i.id = r.instrumentId with
  | none => .error .notFound
  | some instrument =>
    require (b.quantity % instrument.minimumIncrement = 0) (.increments instrument.increment)
    let w ← s.holdingWrite ctx r b
    let x := r.newPurchase b w (Keyed.freshKey (s.purchases.map AllocationPurchase.id))
    return (s.recordPurchase w x, .created)

/-- What `SavedInvestmentAllocationUpdateView` checks before it changes an allocation. -/
def pendingAllocation (user : UserId) (id : ScenarioId) (x : InstrumentId) :
    Except PlanError PlanScenario := do
  let c ← s.ownScenario user id
  require (c.status = .saved) (.invalid "scenario" "Restore this plan before editing it.")
  require (¬s.Purchased id x) (.invalid "instrument_id"
    "This investment is already owned. Edit it under Owned investments.")
  return c

/-- `SavedInvestmentAllocationUpdateView.patch`. -/
def editAllocation (user : UserId) (id : ScenarioId) (x : InstrumentId)
    (body : Option AllocationChanges) : Except PlanError (PlanStore × PlanStatus) := do
  let c ← s.pendingAllocation user id x
  let changes ← fieldsOf body
  require changes.FieldsFit .fields
  require (changes ≠ {})
    (.invalid "non_field_errors" "Change the planned amount, quantity, or price.")
  let q ← updateSavedAllocation ctx now s.catalogue c.payload x changes
  return (s.setPayload id q, .ok)

/-- `SavedInvestmentAllocationUpdateView.delete`. -/
def removeAllocation (user : UserId) (id : ScenarioId) (x : InstrumentId) :
    Except PlanError (PlanStore × PlanStatus) := do
  let c ← s.pendingAllocation user id x
  match ← removeSavedAllocation ctx now s.catalogue c.payload x with
  | none => return (s.deletePlan id, .noContent)
  | some q =>
    if ∀ y ∈ q.instrumentIds, s.Purchased id y then return (s.deletePlan id, .noContent)
    return (s.setPayload id q, .noContent)

/-- `SavedInvestmentScenarioDetailView.patch`. -/
def updateScenario (user : UserId) (id : ScenarioId) (body : Option ScenarioUpdate) :
    Except PlanError (PlanStore × PlanStatus) := do
  let _ ← s.ownScenario user id
  let u ← fieldsOf body
  require (u ≠ {}) (.invalid "non_field_errors" "Provide a title or status to update.")
  return (s.updatePlan id u, .ok)

/-- `SavedInvestmentScenarioDetailView.delete`. -/
def deleteScenario (user : UserId) (id : ScenarioId) : Except PlanError (PlanStore × PlanStatus) := do
  let _ ← s.ownScenario user id
  return (s.deletePlan id, .noContent)

end PlanStore

/-! ## Runs -/

/-- The requests about plans. -/
inductive PlanRequest where
  | saveWidget (user : UserId) (conversation : ConversationId) (id : MessageId)
      (body : Option (Option (ScenarioPayload ℚ)))
  | purchase (r : PurchaseRequest)
  | edit (user : UserId) (id : ScenarioId) (x : InstrumentId) (body : Option AllocationChanges)
  | remove (user : UserId) (id : ScenarioId) (x : InstrumentId)
  | update (user : UserId) (id : ScenarioId) (body : Option ScenarioUpdate)
  | delete (user : UserId) (id : ScenarioId)
  deriving DecidableEq

namespace PlanStore

variable (ctx : ℚ → ℚ)

/-- The view of a request. -/
def handle (now : Instant) (s : PlanStore) :
    PlanRequest → Except PlanError (PlanStore × PlanStatus)
  | .saveWidget user conversation id body => s.saveWidget ctx now user conversation id body
  | .purchase r => s.confirmPurchase ctx r
  | .edit user id x body => s.editAllocation ctx now user id x body
  | .remove user id x => s.removeAllocation ctx now user id x
  | .update user id body => s.updateScenario user id body
  | .delete user id => s.deleteScenario user id

/-- The store after a request that comes in at a given time. -/
def after (s : PlanStore) (r : Instant × PlanRequest) : PlanStore :=
  match s.handle ctx r.1 r.2 with
  | .error _ => s
  | .ok (s', _) => s'

/-- The store after the requests of a list. -/
def run : PlanStore → List (Instant × PlanRequest) → PlanStore
  | s, [] => s
  | s, r :: rs => run (s.after ctx r) rs

/-! ## What a request can do -/

/-- A save from the widget has passed its checks : the payload is sound, for the instruments of
the message's widget. -/
structure Saves (s : PlanStore) (id : MessageId) (p : ScenarioPayload ℚ) : Prop where
  sound : p.toJson.Sound
  widget : ∃ m ∈ s.messages, m.id = id ∧ ∀ x, x ∈ p.instrumentIds ↔ x ∈ m.instrumentIds

/-- The allocation is of a plan that is not archived, and not purchased. -/
structure Pending (s : PlanStore) (c : PlanScenario) (x : InstrumentId) : Prop where
  mem : c ∈ s.scenarios
  saved : c.status = .saved
  pending : ¬s.Purchased c.id x

/-- What a request can do to the store, by what it finds. -/
inductive Moves (ctx : ℚ → ℚ) (now : Instant) (s : PlanStore) : PlanRequest → PlanStore → Prop where
  | unchanged (r : PlanRequest) : Moves ctx now s r s
  | planCreated (user : UserId) (conversation : ConversationId) {id : MessageId}
      {p : ScenarioPayload ℚ} : s.Saves id p → s.savedFrom id = none →
      Moves ctx now s (.saveWidget user conversation id (some (some p)))
        ((s.createPlan user id p.toJson).setWidget id p.toJson)
  | planOverwritten (user : UserId) (conversation : ConversationId) {id : MessageId}
      {p : ScenarioPayload ℚ} {c : PlanScenario} : s.Saves id p → s.savedFrom id = some c →
      Moves ctx now s (.saveWidget user conversation id (some (some p)))
        ((s.setPayload c.id p.toJson).setWidget id p.toJson)
  | purchased {r : PurchaseRequest} {c : PlanScenario} (w : HoldingWrite) {x : AllocationPurchase} :
      s.Pending c r.instrumentId → r.instrumentId ∈ c.payload.instrumentIds →
      x.key = (c.id, r.instrumentId) → Moves ctx now s (.purchase r) (s.recordPurchase w x)
  | edited (user : UserId) {c : PlanScenario} {x : InstrumentId} {u : AllocationChanges}
      {q : ScenarioPayload Double} : s.Pending c x →
      updateSavedAllocation ctx now s.catalogue c.payload x u = .ok q →
      Moves ctx now s (.edit user c.id x (some u)) (s.setPayload c.id q)
  | removed (user : UserId) {c : PlanScenario} {x : InstrumentId} {q : ScenarioPayload Double} :
      s.Pending c x → removeSavedAllocation ctx now s.catalogue c.payload x = .ok (some q) →
      (¬∀ y ∈ q.instrumentIds, s.Purchased c.id y) →
      Moves ctx now s (.remove user c.id x) (s.setPayload c.id q)
  | emptied (user : UserId) {c : PlanScenario} {x : InstrumentId} : s.Pending c x →
      (∀ y ∈ c.payload.instrumentIds, y ≠ x → s.Purchased c.id y) →
      Moves ctx now s (.remove user c.id x) (s.deletePlan c.id)
  | updated (user : UserId) (id : ScenarioId) (u : ScenarioUpdate) :
      Moves ctx now s (.update user id (some u)) (s.updatePlan id u)
  | deleted (user : UserId) (id : ScenarioId) : Moves ctx now s (.delete user id) (s.deletePlan id)

section Handlers

variable {ctx : ℚ → ℚ} {now : Instant} {s s' : PlanStore} {t : PlanStatus} {user : UserId}

theorem ownScenario_ok {id : ScenarioId} {c : PlanScenario} (h : s.ownScenario user id = .ok c) :
    c ∈ s.scenarios ∧ c.id = id ∧ c.user = user := by
  unfold ownScenario at h
  split at h
  · cases h
  next d hd =>
    cases h
    have hc := List.find?_some hd
    rw [decide_eq_true_eq] at hc
    exact ⟨List.mem_of_find?_eq_some hd, hc⟩

theorem ownMessage_ok {conversation : ConversationId} {id : MessageId} {m : PlanMessage}
    (h : s.ownMessage user conversation id = .ok m) : m ∈ s.messages ∧ m.id = id := by
  unfold ownMessage at h
  split at h
  · cases h
  next d hd =>
    cases h
    have hm := List.find?_some hd
    rw [decide_eq_true_eq] at hm
    exact ⟨List.mem_of_find?_eq_some hd, hm.1⟩

theorem saveWidget_moves {conversation : ConversationId} {id : MessageId}
    {body : Option (Option (ScenarioPayload ℚ))}
    (h : s.saveWidget ctx now user conversation id body = .ok (s', t)) :
    s.Moves ctx now (.saveWidget user conversation id body) s' := by
  obtain ⟨m, hm, h⟩ := bind_ok.1 h
  obtain ⟨hmem, hid⟩ := ownMessage_ok hm
  obtain ⟨-, h⟩ := require_bind_ok.1 h
  obtain ⟨payload, hbody, h⟩ := bind_ok.1 h
  rw [fieldsOf_ok.1 hbody]
  split at h
  · next original hw =>
    obtain ⟨q, hq, h⟩ := bind_ok.1 h
    obtain ⟨p, o, rfl, rfl, rfl, hsound, hids⟩ := validateSavedPayload_ok hq
    have hsaves : s.Saves id p := by
      refine ⟨hsound, m, hmem, hid, fun x => (hids x).trans ?_⟩
      simp [PlanMessage.instrumentIds, hw, PlanWidget.instrumentIds]
    obtain ⟨rfl, -⟩ := Prod.mk.inj (Except.ok.inj h)
    unfold savePlan
    split
    · next hnone => exact .planCreated user conversation hsaves hnone
    · next c hsome => exact .planOverwritten user conversation hsaves hsome
  · cases h
    exact .unchanged _

theorem confirmPurchase_moves {r : PurchaseRequest} (h : s.confirmPurchase ctx r = .ok (s', t)) :
    s.Moves ctx now (.purchase r) s' := by
  obtain ⟨c, hc, h⟩ := bind_ok.1 h
  obtain ⟨hmem, hid, -⟩ := ownScenario_ok hc
  obtain ⟨hsaved, h⟩ := require_bind_ok.1 h
  obtain ⟨hx, h⟩ := require_bind_ok.1 h
  obtain ⟨b, -, h⟩ := bind_ok.1 h
  split at h
  · cases h
    exact .unchanged _
  next hnot =>
    split at h
    · cases h
    obtain ⟨-, h⟩ := require_bind_ok.1 h
    obtain ⟨w, -, h⟩ := bind_ok.1 h
    obtain ⟨rfl, -⟩ := Prod.mk.inj (Except.ok.inj h)
    rw [← hid] at hnot
    exact .purchased w ⟨hmem, hsaved, hnot⟩ hx (by rw [hid]; rfl)

theorem pendingAllocation_ok {id : ScenarioId} {x : InstrumentId} {c : PlanScenario}
    (h : s.pendingAllocation user id x = .ok c) : s.Pending c x ∧ c.id = id := by
  obtain ⟨c', hc, h⟩ := bind_ok.1 h
  obtain ⟨hmem, hid, -⟩ := ownScenario_ok hc
  obtain ⟨hsaved, h⟩ := require_bind_ok.1 h
  obtain ⟨hnot, h⟩ := require_bind_ok.1 h
  obtain rfl := Except.ok.inj h
  rw [← hid] at hnot
  exact ⟨⟨hmem, hsaved, hnot⟩, hid⟩

theorem editAllocation_moves {id : ScenarioId} {x : InstrumentId} {body : Option AllocationChanges}
    (h : s.editAllocation ctx now user id x body = .ok (s', t)) :
    s.Moves ctx now (.edit user id x body) s' := by
  obtain ⟨c, hc, h⟩ := bind_ok.1 h
  obtain ⟨hpending, rfl⟩ := pendingAllocation_ok hc
  obtain ⟨u, hbody, h⟩ := bind_ok.1 h
  obtain rfl := fieldsOf_ok.1 hbody
  obtain ⟨-, h⟩ := require_bind_ok.1 h
  obtain ⟨-, h⟩ := require_bind_ok.1 h
  obtain ⟨q, hq, h⟩ := bind_ok.1 h
  obtain ⟨rfl, -⟩ := Prod.mk.inj (Except.ok.inj h)
  exact .edited user hpending hq

/-- A removal deletes the plan if all that remains is purchased, and else writes what remains. -/
theorem removeAllocation_ok {id : ScenarioId} {x : InstrumentId}
    (h : s.removeAllocation ctx now user id x = .ok (s', t)) : ∃ c, s.Pending c x ∧ c.id = id ∧
      ((s' = s.deletePlan id ∧ ∀ y ∈ c.payload.instrumentIds, y ≠ x → s.Purchased id y) ∨
        ∃ q, s' = s.setPayload id q ∧ removeSavedAllocation ctx now s.catalogue c.payload x =
          .ok (some q) ∧ ¬∀ y ∈ q.instrumentIds, s.Purchased id y) := by
  obtain ⟨c, hc, h⟩ := bind_ok.1 h
  obtain ⟨hpending, hid⟩ := pendingAllocation_ok hc
  obtain ⟨r, hr, h⟩ := bind_ok.1 h
  obtain ⟨-, hnil, hids⟩ := removeSavedAllocation_ids hr
  refine ⟨c, hpending, hid, ?_⟩
  split at h
  · obtain ⟨rfl, -⟩ := Prod.mk.inj (Except.ok.inj h)
    refine Or.inl ⟨rfl, fun y hy hne => ?_⟩
    have hmem : y ∈ c.payload.instrumentIds.filter (· ≠ x) := by simp [hy, hne]
    rw [hnil rfl] at hmem
    cases hmem
  next q =>
    split at h
    · next hall =>
      obtain ⟨rfl, -⟩ := Prod.mk.inj (Except.ok.inj h)
      refine Or.inl ⟨rfl, fun y hy hne => hall y ?_⟩
      rw [(hids q rfl).2]
      simp [hy, hne]
    · next hnot =>
      obtain ⟨rfl, -⟩ := Prod.mk.inj (Except.ok.inj h)
      exact Or.inr ⟨q, rfl, hr, hnot⟩

theorem removeAllocation_moves {id : ScenarioId} {x : InstrumentId}
    (h : s.removeAllocation ctx now user id x = .ok (s', t)) :
    s.Moves ctx now (.remove user id x) s' := by
  obtain ⟨c, hpending, rfl, ⟨rfl, hall⟩ | ⟨q, rfl, hq, hnot⟩⟩ := removeAllocation_ok h
  · exact .emptied user hpending hall
  · exact .removed user hpending hq hnot

theorem updateScenario_moves {id : ScenarioId} {body : Option ScenarioUpdate}
    (h : s.updateScenario user id body = .ok (s', t)) : s.Moves ctx now (.update user id body) s' := by
  obtain ⟨-, -, h⟩ := bind_ok.1 h
  obtain ⟨u, hbody, h⟩ := bind_ok.1 h
  obtain rfl := fieldsOf_ok.1 hbody
  obtain ⟨-, h⟩ := require_bind_ok.1 h
  obtain ⟨rfl, -⟩ := Prod.mk.inj (Except.ok.inj h)
  exact .updated user id u

theorem deleteScenario_moves {id : ScenarioId} (h : s.deleteScenario user id = .ok (s', t)) :
    s.Moves ctx now (.delete user id) s' := by
  obtain ⟨-, -, h⟩ := bind_ok.1 h
  obtain ⟨rfl, -⟩ := Prod.mk.inj (Except.ok.inj h)
  exact .deleted user id

end Handlers

/-! ## A purchase run alone -/

section Alone

variable {ctx : ℚ → ℚ} {s s' : PlanStore} {t : PlanStatus} {r : PurchaseRequest} {b : PurchaseBody}
  {w : HoldingWrite} {l : Locks RowKey} {i : ℕ}

theorem find?_portfolio {c : PlanScenario} (h : s.ownScenario r.user r.scenarioId = .ok c) :
    s.portfolio.scenarios.find? (fun c => c.id = r.scenarioId ∧ c.user = r.user) =
      some c.toSaved := by
  unfold ownScenario at h
  split at h
  · cases h
  next d hd =>
    cases h
    rw [portfolio, List.find?_map]
    exact congrArg (Option.map PlanScenario.toSaved) hd

/-- The statements on the holding. -/
theorem holdingWrite_alone (hw : s.holdingWrite ctx r b = .ok w) (hfree : ∀ k, Free l k i) :
    ∃ l', (∀ k, Free l' k i) ∧
      Drives (PurchaseStage.step ctx i r) ({ s.portfolio with locks := l }, .lockHolding b)
        ({ s.portfolio with locks := l' }, .createPurchase b w) := by
  have hfind : PurchaseStage.step ctx i r { s.portfolio with locks := l } (.lockHolding b) .done =
      match s.portfolio.ownHolding r.user r.instrumentId with
      | none => some ({ s.portfolio with locks := l }, .createHolding b)
      | some h =>
        if Free l (.holding h.id) i then
          some ({ s.portfolio with locks := acquire l (.holding h.id) i }, .saveHolding b h)
        else none := rfl
  cases hown : s.portfolio.ownHolding r.user r.instrumentId with
  | none =>
    have hkey : (r.user, r.instrumentId) ∉ s.holdings.map InvestmentHolding.key := by
      intro hmem
      obtain ⟨h, hh, hk⟩ := List.mem_map.1 hmem
      exact List.find?_eq_none.1 hown h hh (by simpa using hk)
    simp only [holdingWrite, hown] at hw hfind
    split at hw <;> cases hw
    next hstorable =>
      have hcreate : PurchaseStage.step ctx i r { s.portfolio with locks := l } (.createHolding b)
          (.inserted (Keyed.freshKey (s.holdings.map InvestmentHolding.id))) = some (_, _) :=
        (if_neg (Keyed.freshKey_notMem _)).trans (if_neg fun h => h.elim hkey fun h => h hstorable)
      exact ⟨l, hfree, .head .done hfind (.head _ hcreate (.refl _ _))⟩
  | some h =>
    simp only [holdingWrite, hown, if_pos (hfree _)] at hw hfind
    split at hw <;> cases hw
    next hstorable =>
      have hmerge : PurchaseStage.step ctx i r
          { s.portfolio with locks := acquire l (.holding h.id) i } (.saveHolding b h) .done =
            some (_, _) := if_pos hstorable
      exact ⟨_, fun k => (hfree k).acquire, .head .done hfind (.head _ hmerge (.refl _ _))⟩

/-- A purchase run alone through its statements ends in the store that the view leaves. -/
theorem confirmPurchase_alone (i : ℕ) (h : s.confirmPurchase ctx r = .ok (s', t)) :
    Drives (PurchaseStage.step ctx i r) (s.portfolio, .lockScenario)
      (s'.portfolio, .answered (if t = .created then .created else .ok)) := by
  obtain ⟨c, hc, h⟩ := bind_ok.1 h
  obtain ⟨hsaved, h⟩ := require_bind_ok.1 h
  obtain ⟨hx, h⟩ := require_bind_ok.1 h
  obtain ⟨b, hb, h⟩ := bind_ok.1 h
  have hfree : ∀ k, Free s.portfolio.locks k i := by rintro k j ⟨⟩
  have hcheck : PurchaseStage.check r c.toSaved = .findPurchase b := by
    rw [PurchaseStage.check, if_neg (by simp [PlanScenario.toSaved, hsaved, hx]), fieldsOf_ok.1 hb]
    rfl
  have hplan : PurchaseStage.step ctx i r s.portfolio .lockScenario .done =
      some (s.portfolio.lock (.scenario r.scenarioId) i, .findPurchase b) := by
    rw [PurchaseStage.step, find?_portfolio hc, ← hcheck]
    exact if_pos (hfree _)
  have hfree := fun k => (hfree k).acquire (k := .scenario r.scenarioId)
  refine .head _ hplan ?_
  split at h
  · next hbought =>
    obtain ⟨rfl, rfl⟩ := Prod.mk.inj (Except.ok.inj h)
    refine .head .done (if_pos hbought) (.head .done rfl ?_)
    rw [PortfolioStore.unlock, PortfolioStore.lock, release_of_free hfree]
    exact .refl _ _
  next hnot =>
    split at h
    · cases h
    next instrument hinstrument =>
    obtain ⟨hsteps, h⟩ := require_bind_ok.1 h
    obtain ⟨w, hw, h⟩ := bind_ok.1 h
    obtain ⟨rfl, rfl⟩ := Prod.mk.inj (Except.ok.inj h)
    have hfound : PurchaseStage.step ctx i r (s.portfolio.lock (.scenario r.scenarioId) i)
        (.getInstrument b) .done =
          some (s.portfolio.lock (.scenario r.scenarioId) i, .lockUser b) := by
      have hcatalogue : (s.portfolio.lock (.scenario r.scenarioId) i).instruments.find?
          (·.id = r.instrumentId) = some instrument.toInvestmentInstrument := by
        rw [PortfolioStore.lock, portfolio, List.find?_map]
        exact congrArg (Option.map CatalogueInstrument.toInvestmentInstrument) hinstrument
      rw [PurchaseStage.step, hcatalogue]
      exact if_pos hsteps
    have huser : PurchaseStage.step ctx i r (s.portfolio.lock (.scenario r.scenarioId) i)
        (.lockUser b) .done =
          some ((s.portfolio.lock (.scenario r.scenarioId) i).lock (.user r.user) i,
            .lockHolding b) := by
      rw [PurchaseStage.step]
      exact if_pos (hfree (.user r.user))
    obtain ⟨l, hl, hholding⟩ :=
      holdingWrite_alone hw fun k => (hfree k).acquire (k := .user r.user)
    let x := r.newPurchase b w (Keyed.freshKey (s.purchases.map AllocationPurchase.id))
    have hcreate : PurchaseStage.step ctx i r { s.portfolio with locks := l } (.createPurchase b w)
        (.inserted (Keyed.freshKey (s.purchases.map AllocationPurchase.id))) =
          some ({ s.portfolio with locks := l }, .commit w x) :=
      (if_neg (Keyed.freshKey_notMem _)).trans (if_neg hnot)
    have hcommit : PurchaseStage.step ctx i r { s.portfolio with locks := l } (.commit w x) .done =
        some ((s.recordPurchase w x).portfolio, .answered .created) := by
      rw [PurchaseStage.step, PortfolioStore.unlock, PortfolioStore.commit, release_of_free hl]
      rfl
    exact .head .done (if_neg hnot) (.head _ hfound (.head _ huser
      (hholding.trans (.head _ hcreate (.head _ hcommit (.refl _ _))))))

end Alone

theorem handle_moves {ctx : ℚ → ℚ} {now : Instant} {s s' : PlanStore} {r : PlanRequest}
    {t : PlanStatus} (h : s.handle ctx now r = .ok (s', t)) : s.Moves ctx now r s' := by
  cases r with
  | saveWidget user conversation id body => exact saveWidget_moves h
  | purchase r => exact confirmPurchase_moves h
  | edit user id x body => exact editAllocation_moves h
  | remove user id x => exact removeAllocation_moves h
  | update user id body => exact updateScenario_moves h
  | delete user id => exact deleteScenario_moves h

theorem after_moves (ctx : ℚ → ℚ) (s : PlanStore) (r : Instant × PlanRequest) :
    s.Moves ctx r.1 r.2 (s.after ctx r) := by
  unfold after
  split
  · exact .unchanged _
  · next h => exact handle_moves h

theorem run_append (ctx : ℚ → ℚ) (s : PlanStore) (p q : List (Instant × PlanRequest)) :
    s.run ctx (p ++ q) = (s.run ctx p).run ctx q := by
  induction p generalizing s with
  | nil => rfl
  | cons r p ih => exact ih _

end PlanStore

end NbeAdvisor
