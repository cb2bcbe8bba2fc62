import NbeAdvisor.Interleave
import NbeAdvisor.RowLocks
import NbeAdvisor.LedgerViews
import Mathlib.Data.Int.Log
import Mathlib.Data.Rat.Floor

/-!
# Holdings, and the requests that write them

A purchase confirmation (`SavedInvestmentAllocationPurchaseView.post`) and an edit of a holding
(`InvestmentHoldingDetailView.update`), one database statement at a time. The confirmation is
one transaction : it locks the row of the plan, then the row of the user, then the holding if
there is one, and what it writes is seen by others when it commits. The edit reads without a
lock and saves every column of its copy, a statement of its own that waits for the lock of
the row.

Amounts are counted in the last digit of their columns : quantities in units of `10⁻⁸`, prices
of `10⁻⁴`, fees of `10⁻²`. `ctx` is the rounding of the decimal context after each operation,
which is `decimalContext` unless it is set to something else.
-/

namespace NbeAdvisor

open Interleave RowLocks

/-- The key of a saved plan. -/
abbrev ScenarioId := ℕ
/-- The key of an instrument. -/
abbrev InstrumentId := ℕ
/-- The key of a holding. -/
abbrev HoldingId := ℕ
/-- The key of a recorded purchase. -/
abbrev PurchaseId := ℕ

/-! ## The rows -/

/-- `SavedInvestmentScenario.Status`. -/
inductive ScenarioStatus where
  | saved
  | archived
  deriving DecidableEq

/-- A plan, with the `instrument_id` of each allocation of its payload. -/
structure SavedInvestmentScenario where
  id : ScenarioId
  user : UserId
  status : ScenarioStatus := .saved
  allocationIds : List InstrumentId
  deriving DecidableEq

/-- `InvestmentInstrument`, by what a confirmation reads. -/
structure InvestmentInstrument where
  id : InstrumentId
  minimumIncrement : ℕ
  isActive : Bool := true
  deriving DecidableEq

/-- `InvestmentHolding`. -/
structure InvestmentHolding where
  id : HoldingId
  user : UserId
  instrument : InstrumentId
  quantity : ℕ
  averagePurchasePrice : ℕ
  fees : ℕ := 0
  purchasedAt : Option Date := none
  deriving DecidableEq

/-- `SavedInvestmentAllocationPurchase`. -/
structure AllocationPurchase where
  id : PurchaseId
  scenario : ScenarioId
  instrument : InstrumentId
  holding : HoldingId
  quantity : ℕ
  unitPrice : ℕ
  fees : ℕ
  purchasedAt : Date
  deriving DecidableEq

namespace InvestmentHolding

/-- The unique key of a holding. -/
def key (h : InvestmentHolding) : UserId × InstrumentId := (h.user, h.instrument)

/-- What no save changes. -/
def ident (h : InvestmentHolding) : HoldingId × UserId × InstrumentId := (h.id, h.key)

/-- The columns can hold the row, and it meets the check constraints. -/
def Storable (h : InvestmentHolding) : Prop :=
  (0 < h.quantity ∧ h.quantity < 10 ^ 24) ∧
    (0 < h.averagePurchasePrice ∧ h.averagePurchasePrice < 10 ^ 20) ∧ h.fees < 10 ^ 20

instance (h : InvestmentHolding) : Decidable h.Storable := by
  unfold Storable
  infer_instance

end InvestmentHolding

/-- The unique key of a purchase. -/
def AllocationPurchase.key (x : AllocationPurchase) : ScenarioId × InstrumentId :=
  (x.scenario, x.instrument)

/-! ## The requests -/

/-- The validated body of a confirmation. -/
structure PurchaseBody where
  quantity : ℕ
  unitPrice : ℕ
  fees : ℕ := 0
  purchasedAt : Date
  quantity_pos : 0 < quantity
  unitPrice_pos : 0 < unitPrice
  deriving DecidableEq

/-- There is no `body` if the serializer rejects it. -/
structure PurchaseRequest where
  user : UserId
  scenarioId : ScenarioId
  instrumentId : InstrumentId
  body : Option PurchaseBody
  deriving DecidableEq

/-- The fields of an edit, as its serializer validates each by itself. -/
structure HoldingBody where
  instrument : Option InstrumentId := none
  quantity : Option ℕ := none
  averagePurchasePrice : Option ℕ := none
  fees : Option ℕ := none
  purchasedAt : Option (Option Date) := none
  deriving DecidableEq

/-- There is no `body` if the serializer rejects one of its fields. -/
structure EditRequest where
  user : UserId
  holdingId : HoldingId
  body : Option HoldingBody
  deriving DecidableEq

/-! ## The weighted average -/

/-- The default context of `decimal` : 28 significant digits, a half to the even one. -/
def decimalContext (x : ℚ) : ℚ :=
  let unit := (10 : ℚ) ^ (Int.log 10 x - 27)
  let digits := ⌊x / unit⌋
  let rest := x / unit - digits
  (if rest < 1 / 2 ∨ (rest = 1 / 2 ∧ digits % 2 = 0) then digits else digits + 1) * unit

namespace InvestmentHolding

/-- The `weighted_price` of a holding and a purchase, `ROUND_HALF_UP`. -/
def weightedPrice (ctx : ℚ → ℚ) (h : InvestmentHolding) (b : PurchaseBody) : ℕ :=
  let previousPurchaseCost := ctx (h.quantity * h.averagePurchasePrice)
  let cost := ctx (previousPurchaseCost + ctx (b.quantity * b.unitPrice))
  ⌊ctx (cost / (h.quantity + b.quantity : ℕ)) + 1 / 2⌋₊

/-- The assignments to a holding that is there already. -/
def merge (ctx : ℚ → ℚ) (h : InvestmentHolding) (b : PurchaseBody) : InvestmentHolding :=
  { h with
    quantity := h.quantity + b.quantity
    averagePurchasePrice := h.weightedPrice ctx b
    fees := h.fees + b.fees
    purchasedAt := some (h.purchasedAt.elim b.purchasedAt (min b.purchasedAt)) }

/-- `save(update_fields=[..])` of the copy `h` onto the row. -/
def saveMerged (row h : InvestmentHolding) : InvestmentHolding :=
  { row with
    quantity := h.quantity, averagePurchasePrice := h.averagePurchasePrice
    fees := h.fees, purchasedAt := h.purchasedAt }

/-- The assignments of `serializer.save()`. -/
def edit (h : InvestmentHolding) (body : HoldingBody) : InvestmentHolding :=
  { h with
    quantity := body.quantity.getD h.quantity
    averagePurchasePrice := body.averagePurchasePrice.getD h.averagePurchasePrice
    fees := body.fees.getD h.fees
    purchasedAt := body.purchasedAt.getD h.purchasedAt }

end InvestmentHolding

/-! ## The store -/

/-- What can be locked. -/
inductive RowKey where
  | scenario (id : ScenarioId)
  | user (id : UserId)
  | holding (id : HoldingId)
  deriving DecidableEq

/-- What has been committed, and the row locks. -/
structure PortfolioStore where
  scenarios : List SavedInvestmentScenario := []
  instruments : List InvestmentInstrument := []
  holdings : List InvestmentHolding := []
  purchases : List AllocationPurchase := []
  locks : Locks RowKey := fun _ => none

/-- What a confirmation has written to the holdings and not committed. -/
inductive HoldingWrite where
  | create (h : InvestmentHolding)
  | save (h : InvestmentHolding)
  deriving DecidableEq

namespace HoldingWrite

/-- The row that is written. -/
def holding : HoldingWrite → InvestmentHolding
  | create h | save h => h

/-- The holdings once it is committed. -/
def apply (holdings : List InvestmentHolding) : HoldingWrite → List InvestmentHolding
  | create h => holdings ++ [h]
  | save h => Keyed.modify InvestmentHolding.id h.id (·.saveMerged h) holdings

end HoldingWrite

namespace PortfolioStore

/-- The thread gets the lock of a row. -/
def lock (s : PortfolioStore) (k : RowKey) (i : ℕ) : PortfolioStore :=
  { s with locks := acquire s.locks k i }

/-- The end of a transaction. -/
def unlock (s : PortfolioStore) (i : ℕ) : PortfolioStore := { s with locks := release s.locks i }

/-- `filter(user=.., instrument=..).first()`. -/
def ownHolding (s : PortfolioStore) (user : UserId) (instrument : InstrumentId) :
    Option InvestmentHolding :=
  s.holdings.find? fun h => h.key = (user, instrument)

/-- The two rows of a purchase are written. -/
def commit (s : PortfolioStore) (w : HoldingWrite) (x : AllocationPurchase) : PortfolioStore :=
  { s with holdings := w.apply s.holdings, purchases := s.purchases ++ [x] }

/-- `instance.save()` : all columns of the copy. No request here deletes the row. -/
def saveHolding (s : PortfolioStore) (copy : InvestmentHolding) : PortfolioStore :=
  { s with holdings := Keyed.modify InvestmentHolding.id copy.id (fun _ => copy) s.holdings }

end PortfolioStore

/-! ## One statement at a time -/

/-- How a request is answered : created, a confirmation that repeats one, or not at all. -/
inductive PortfolioAnswer where
  | created
  | ok
  | error (e : ApiError)
  deriving DecidableEq

/-- How a statement turns out, with the primary key of a row it inserts. -/
inductive PortfolioReply where
  | done
  | inserted (id : ℕ)
  | raises
  deriving DecidableEq

/-- The next statement of a confirmation. -/
inductive PurchaseStage where
  | lockScenario
  | findPurchase (b : PurchaseBody)
  | getInstrument (b : PurchaseBody)
  | lockUser (b : PurchaseBody)
  | lockHolding (b : PurchaseBody)
  | createHolding (b : PurchaseBody)
  | saveHolding (b : PurchaseBody) (h : InvestmentHolding)
  | createPurchase (b : PurchaseBody) (w : HoldingWrite)
  | commit (w : HoldingWrite) (x : AllocationPurchase)
  /-- The transaction ends with nothing written. -/
  | leave (x : PortfolioAnswer)
  | answered (x : PortfolioAnswer)
  deriving DecidableEq

/-- The next statement of an edit. -/
inductive EditStage where
  | loading
  | saving (copy : InvestmentHolding)
  | reloading (id : HoldingId)
  | answered (x : PortfolioAnswer)
  deriving DecidableEq

/-- Confirmations of purchases, and edits of holdings. -/
inductive PortfolioTask where
  | purchase (r : PurchaseRequest) (t : PurchaseStage)
  | edit (r : EditRequest) (t : EditStage)
  deriving DecidableEq

namespace PurchaseRequest

/-- The holding that a first purchase creates. -/
def newHolding (r : PurchaseRequest) (b : PurchaseBody) (id : HoldingId) : InvestmentHolding :=
  { id, user := r.user, instrument := r.instrumentId, quantity := b.quantity
    averagePurchasePrice := b.unitPrice, fees := b.fees, purchasedAt := some b.purchasedAt }

/-- The row that records the purchase. -/
def newPurchase (r : PurchaseRequest) (b : PurchaseBody) (w : HoldingWrite) (id : PurchaseId) :
    AllocationPurchase :=
  { id, scenario := r.scenarioId, instrument := r.instrumentId, holding := w.holding.id
    quantity := b.quantity, unitPrice := b.unitPrice, fees := b.fees, purchasedAt := b.purchasedAt }

end PurchaseRequest

namespace PurchaseStage

/-- An exception leaves the transaction. -/
def fail (e : ApiError) : PurchaseStage := leave (.error e)

/-- The checks of the plan and of the body. -/
def check (r : PurchaseRequest) (scenario : SavedInvestmentScenario) : PurchaseStage :=
  if scenario.status ≠ .saved ∨ r.instrumentId ∉ scenario.allocationIds then fail .validation
  else r.body.elim (fail .validation) findPurchase

/-- One statement of a confirmation. `none` where it waits for a lock. -/
def step (ctx : ℚ → ℚ) (i : ℕ) (r : PurchaseRequest) (s : PortfolioStore) :
    PurchaseStage → PortfolioReply → Option (PortfolioStore × PurchaseStage)
  | answered _, _ => none
  | leave x, _ => some (s.unlock i, answered x)
  | _, .raises => some (s, fail .serverError)
  | lockScenario, .done =>
    match s.scenarios.find? fun c => c.id = r.scenarioId ∧ c.user = r.user with
    | none => some (s, fail .notFound)
    | some scenario =>
      if Free s.locks (.scenario r.scenarioId) i then
        some (s.lock (.scenario r.scenarioId) i, check r scenario)
      else none
  | findPurchase b, .done =>
    if (r.scenarioId, r.instrumentId) ∈ s.purchases.map AllocationPurchase.key then
      some (s, leave .ok)
    else some (s, getInstrument b)
  | getInstrument b, .done =>
    match s.instruments.find? (·.id = r.instrumentId) with
    | none => some (s, fail .notFound)
    | some instrument =>
      if b.quantity % instrument.minimumIncrement = 0 then some (s, lockUser b)
      else some (s, fail .validation)
  | lockUser b, .done =>
    if Free s.locks (.user r.user) i then some (s.lock (.user r.user) i, lockHolding b) else none
  | lockHolding b, .done =>
    match s.ownHolding r.user r.instrumentId with
    | none => some (s, createHolding b)
    | some h =>
      if Free s.locks (.holding h.id) i then some (s.lock (.holding h.id) i, saveHolding b h)
      else none
  | createHolding b, .inserted id =>
    let h := r.newHolding b id
    if id ∈ s.holdings.map InvestmentHolding.id then none
    else if h.key ∈ s.holdings.map InvestmentHolding.key ∨ ¬h.Storable then
      some (s, fail .serverError)
    else some (s, createPurchase b (.create h))
  | saveHolding b h, .done =>
    if (h.merge ctx b).Storable then some (s, createPurchase b (.save (h.merge ctx b)))
    else some (s, fail .serverError)
  | createPurchase b w, .inserted id =>
    let x := r.newPurchase b w id
    if id ∈ s.purchases.map AllocationPurchase.id then none
    else if x.key ∈ s.purchases.map AllocationPurchase.key then some (s, fail .serverError)
    else some (s, commit w x)
  | commit w x, .done => some ((s.commit w x).unlock i, answered .created)
  | _, _ => none

end PurchaseStage

namespace EditStage

/-- `InvestmentHoldingWriteSerializer.validate`, with the lookup of the instrument that the
body names. -/
def Valid (s : PortfolioStore) (h : InvestmentHolding) (body : HoldingBody) : Prop :=
  (∀ id ∈ body.instrument, id = h.instrument ∧ ∃ x ∈ s.instruments, x.id = id ∧ x.isActive = true) ∧
    ∀ q ∈ body.quantity, ∀ x ∈ s.instruments, x.id = h.instrument → q % x.minimumIncrement = 0

instance (s : PortfolioStore) (h : InvestmentHolding) (body : HoldingBody) :
    Decidable (Valid s h body) := by
  unfold Valid
  infer_instance

/-- `self.get_object()`. -/
def ownRow (r : EditRequest) (s : PortfolioStore) : Option InvestmentHolding :=
  s.holdings.find? fun h => h.id = r.holdingId ∧ h.user = r.user

/-- One statement of an edit. `none` where it waits for a lock. -/
def step (i : ℕ) (r : EditRequest) (s : PortfolioStore) :
    EditStage → PortfolioReply → Option (PortfolioStore × EditStage)
  | answered _, _ => none
  | _, .raises => some (s, answered (.error .serverError))
  | loading, .done =>
    match ownRow r s with
    | none => some (s, answered (.error .notFound))
    | some h =>
      match r.body with
      | none => some (s, answered (.error .validation))
      | some body =>
        if Valid s h body then some (s, saving (h.edit body))
        else some (s, answered (.error .validation))
  | saving copy, .done =>
    if ¬Free s.locks (.holding copy.id) i then none
    else if copy.Storable then some (s.saveHolding copy, reloading copy.id)
    else some (s, answered (.error .serverError))
  | reloading _, .done => some (s, answered .ok)
  | _, _ => none

end EditStage

/-- One statement of a request. -/
def PortfolioTask.step (ctx : ℚ → ℚ) (i : ℕ) (s : PortfolioStore) :
    PortfolioTask → PortfolioReply → Option (PortfolioStore × PortfolioTask × List PortfolioTask)
  | purchase r t, x => (t.step ctx i r s x).map fun (s', t') => (s', purchase r t', [])
  | edit r t, x => (t.step i r s x).map fun (s', t') => (s', edit r t', [])

/-! ## What a step can be -/

/-- The steps of a confirmation that go on or commit, by what they find, and those that give
up. -/
inductive PurchaseStage.Moves (ctx : ℚ → ℚ) (i : ℕ) (r : PurchaseRequest) (s : PortfolioStore) :
    PurchaseStage → PortfolioStore → PurchaseStage → Prop where
  | left (x : PortfolioAnswer) : Moves ctx i r s (.leave x) (s.unlock i) (.answered x)
  | gaveUp (t : PurchaseStage) (x : PortfolioAnswer) : Moves ctx i r s t s (.leave x)
  | planLocked {scenario : SavedInvestmentScenario} : Free s.locks (.scenario r.scenarioId) i →
      Moves ctx i r s .lockScenario (s.lock (.scenario r.scenarioId) i) (.check r scenario)
  | notRecorded (b : PurchaseBody) :
      (r.scenarioId, r.instrumentId) ∉ s.purchases.map AllocationPurchase.key →
      Moves ctx i r s (.findPurchase b) s (.getInstrument b)
  | instrumentFound (b : PurchaseBody) : Moves ctx i r s (.getInstrument b) s (.lockUser b)
  | userLocked (b : PurchaseBody) : Free s.locks (.user r.user) i →
      Moves ctx i r s (.lockUser b) (s.lock (.user r.user) i) (.lockHolding b)
  | noHolding (b : PurchaseBody) : s.ownHolding r.user r.instrumentId = none →
      Moves ctx i r s (.lockHolding b) s (.createHolding b)
  | holdingLocked (b : PurchaseBody) {h : InvestmentHolding} :
      s.ownHolding r.user r.instrumentId = some h → Free s.locks (.holding h.id) i →
      Moves ctx i r s (.lockHolding b) (s.lock (.holding h.id) i) (.saveHolding b h)
  | holdingCreated (b : PurchaseBody) {id : HoldingId} : id ∉ s.holdings.map InvestmentHolding.id →
      Moves ctx i r s (.createHolding b) s (.createPurchase b (.create (r.newHolding b id)))
  | holdingMerged (b : PurchaseBody) (h : InvestmentHolding) :
      Moves ctx i r s (.saveHolding b h) s (.createPurchase b (.save (h.merge ctx b)))
  | purchaseCreated (b : PurchaseBody) (w : HoldingWrite) (id : PurchaseId) :
      Moves ctx i r s (.createPurchase b w) s (.commit w (r.newPurchase b w id))
  | committed (w : HoldingWrite) (x : AllocationPurchase) :
      Moves ctx i r s (.commit w x) ((s.commit w x).unlock i) (.answered .created)

theorem PurchaseStage.step_moves {ctx : ℚ → ℚ} {i : ℕ} {r : PurchaseRequest} {s s' : PortfolioStore}
    {t t' : PurchaseStage} {x : PortfolioReply} (hs : t.step ctx i r s x = some (s', t')) :
    t.Moves ctx i r s s' t' := by
  unfold PurchaseStage.step at hs
  dsimp only at hs
  split at hs
  · cases hs
  · cases hs
    exact .left _
  · cases hs
    exact .gaveUp _ _
  · split at hs
    · cases hs
      exact .gaveUp _ _
    · split at hs <;> cases hs
      next hfree => exact .planLocked hfree
  · split at hs <;> cases hs
    · exact .gaveUp _ _
    · next hnot => exact .notRecorded _ hnot
  · split at hs
    · cases hs
      exact .gaveUp _ _
    · split at hs <;> cases hs
      · exact .instrumentFound _
      · exact .gaveUp _ _
  · split at hs <;> cases hs
    next hfree => exact .userLocked _ hfree
  · split at hs
    · next hnone =>
      cases hs
      exact .noHolding _ hnone
    · next h hsome =>
      split at hs <;> cases hs
      next hfree => exact .holdingLocked _ hsome hfree
  · split at hs
    · cases hs
    · next hfresh =>
      split at hs <;> cases hs
      · exact .gaveUp _ _
      · exact .holdingCreated _ hfresh
  · split at hs <;> cases hs
    · exact .holdingMerged _ _
    · exact .gaveUp _ _
  · split at hs
    · cases hs
    · split at hs <;> cases hs
      · exact .gaveUp _ _
      · exact .purchaseCreated _ _ _
  · cases hs
    exact .committed _ _
  · cases hs

/-- The steps of an edit. -/
inductive EditStage.Moves (i : ℕ) (r : EditRequest) (s : PortfolioStore) :
    EditStage → PortfolioStore → EditStage → Prop where
  | answered (t : EditStage) (x : PortfolioAnswer) : Moves i r s t s (.answered x)
  | loaded {h : InvestmentHolding} (body : HoldingBody) : EditStage.ownRow r s = some h →
      r.body = some body → Moves i r s .loading s (.saving (h.edit body))
  | saved {copy : InvestmentHolding} : Free s.locks (.holding copy.id) i →
      Moves i r s (.saving copy) (s.saveHolding copy) (.reloading copy.id)

theorem EditStage.step_moves {i : ℕ} {r : EditRequest} {s s' : PortfolioStore} {t t' : EditStage}
    {x : PortfolioReply} (hs : t.step i r s x = some (s', t')) : t.Moves i r s s' t' := by
  unfold EditStage.step at hs
  split at hs
  · cases hs
  · cases hs
    exact .answered _ _
  · split at hs
    · cases hs
      exact .answered _ _
    · next h hown =>
      split at hs
      · cases hs
        exact .answered _ _
      · next body hbody =>
        split at hs <;> cases hs
        · exact .loaded body hown hbody
        · exact .answered _ _
  · split at hs
    · cases hs
    · next hfree =>
      split at hs <;> cases hs
      · exact .saved (not_not.1 hfree)
      · exact .answered _ _
  · cases hs
    exact .answered _ _
  · cases hs

section Tasks

variable {ctx : ℚ → ℚ} {i : ℕ} {s s' : PortfolioStore} {u : PortfolioTask} {x : PortfolioReply}
  {new : List PortfolioTask}

theorem PortfolioTask.step_purchase {r : PurchaseRequest} {t : PurchaseStage}
    (hs : (purchase r t).step ctx i s x = some (s', u, new)) :
    new = [] ∧ ∃ t', u = purchase r t' ∧ t.Moves ctx i r s s' t' := by
  simp only [step, Option.map_eq_some_iff, Prod.exists, Prod.mk.injEq] at hs
  obtain ⟨s₁, t', hs, rfl, rfl, rfl⟩ := hs
  exact ⟨rfl, t', rfl, PurchaseStage.step_moves hs⟩

theorem PortfolioTask.step_edit {e : EditRequest} {t : EditStage}
    (hs : (edit e t).step ctx i s x = some (s', u, new)) :
    new = [] ∧ ∃ t', u = edit e t' ∧ t.Moves i e s s' t' := by
  simp only [step, Option.map_eq_some_iff, Prod.exists, Prod.mk.injEq] at hs
  obtain ⟨s₁, t', hs, rfl, rfl, rfl⟩ := hs
  exact ⟨rfl, t', rfl, EditStage.step_moves hs⟩

end Tasks

end NbeAdvisor
