import NbeAdvisor.Portfolio

/-!
# Purchase confirmations at once

Any number of confirmations of one user, with retries and with plans that name the same
instrument. A confirmation decides whether the purchase is recorded already under the lock of
the plan, and what it adds to under the lock of the user, and holds both until it commits. So
what it has read is what it commits to (`Knows`), and each commit adds its purchase to the
holding of the instrument and to nothing else (`AddsUp`).

The books are of any amount of a holding that purchases add to (`Adds`), and they also stand
what an edit saves, if that leaves the amount of the row as it is.
-/

namespace NbeAdvisor

open Interleave RowLocks

/-! ## What the tables satisfy -/

/-- The unique keys. -/
structure PortfolioStore.Constraints (s : PortfolioStore) : Prop where
  ids : (s.holdings.map InvestmentHolding.id).Nodup
  keys : (s.holdings.map InvestmentHolding.key).Nodup
  purchases : (s.purchases.map AllocationPurchase.key).Nodup

section Tables

variable {s : PortfolioStore} {user : UserId} {ins : InstrumentId} {h copy : InvestmentHolding}
  {x : AllocationPurchase}

theorem ownHolding_eq_none :
    s.ownHolding user ins = none ↔ (user, ins) ∉ s.holdings.map InvestmentHolding.key := by
  simp [PortfolioStore.ownHolding, List.mem_map]

theorem ownHolding_eq_some (hown : s.ownHolding user ins = some h) :
    h ∈ s.holdings ∧ h.key = (user, ins) :=
  ⟨List.mem_of_find?_eq_some hown, by simpa using List.find?_some hown⟩

theorem ownHolding_create : (s.commit (.create h) x).ownHolding user ins =
    (s.ownHolding user ins).or (if h.key = (user, ins) then some h else none) := by
  simp only [PortfolioStore.ownHolding, PortfolioStore.commit, HoldingWrite.apply,
    List.find?_append, List.find?_singleton, decide_eq_true_eq]

theorem ownHolding_save : (s.commit (.save h) x).ownHolding user ins =
    (s.ownHolding user ins).map fun row => if row.id = h.id then row.saveMerged h else row :=
  Keyed.find?_modify fun _ _ _ => rfl

theorem ownHolding_saveHolding (hkey : ∀ row ∈ s.holdings, row.id = copy.id → row.key = copy.key) :
    (s.saveHolding copy).ownHolding user ins =
      (s.ownHolding user ins).map fun row => if row.id = copy.id then copy else row :=
  Keyed.find?_modify fun row hrow hid => by rw [hkey row hrow hid]

/-- The row that a copy was read from, as far as no save changes it. -/
theorem PortfolioStore.Constraints.ident_eq (hs : s.Constraints)
    (hcopy : copy.ident ∈ s.holdings.map InvestmentHolding.ident) :
    ∀ row ∈ s.holdings, row.id = copy.id → row.ident = copy.ident := by
  intro row hrow hid
  obtain ⟨row', hrow', heq⟩ := List.mem_map.1 hcopy
  have hid' : row.id = row'.id := hid.trans (congrArg Prod.fst heq).symm
  rw [Keyed.eq_of_pk hs.ids hrow hrow' hid', heq]

/-- A save of a copy leaves what identifies the rows. -/
theorem idents_saveHolding (h : ∀ row ∈ s.holdings, row.id = copy.id → row.ident = copy.ident) :
    (s.saveHolding copy).holdings.map InvestmentHolding.ident =
      s.holdings.map InvestmentHolding.ident := by
  unfold PortfolioStore.saveHolding Keyed.modify
  rw [List.map_map]
  refine List.map_congr_left fun row hrow => ?_
  rw [Function.comp_apply]
  split
  · next hid => exact (h row hrow hid).symm
  · rfl

theorem idents_save : (s.commit (.save h) x).holdings.map InvestmentHolding.ident =
    s.holdings.map InvestmentHolding.ident :=
  Keyed.map_modify fun _ => rfl

end Tables

/-! ## What a confirmation knows -/

namespace PurchaseStage

/-- It has found what it is about to write to as it still is. -/
def Writes (ctx : ℚ → ℚ) (i : ℕ) (r : PurchaseRequest) (s : PortfolioStore) (b : PurchaseBody) :
    HoldingWrite → Prop
  | .create h => s.ownHolding r.user r.instrumentId = none ∧
      h.id ∉ s.holdings.map InvestmentHolding.id ∧ ∃ id, h = r.newHolding b id
  | .save h' => ∃ h, s.ownHolding r.user r.instrumentId = some h ∧
      s.locks (.holding h.id) = some i ∧ h' = h.merge ctx b

/-- What a stage has found holds still. -/
def Sees (ctx : ℚ → ℚ) (i : ℕ) (r : PurchaseRequest) (s : PortfolioStore) : PurchaseStage → Prop
  | createHolding _ => s.ownHolding r.user r.instrumentId = none
  | saveHolding _ h => s.ownHolding r.user r.instrumentId = some h ∧
      s.locks (.holding h.id) = some i
  | createPurchase b w => Writes ctx i r s b w
  | commit w x => ∃ b id, x = r.newPurchase b w id ∧ Writes ctx i r s b w
  | _ => True

/-- The row of the plan is locked. -/
def LocksPlan : PurchaseStage → Prop
  | lockScenario | leave _ | answered _ => False
  | _ => True

/-- The lookup of the purchase has found none. -/
def Unrecorded : PurchaseStage → Prop
  | lockScenario | findPurchase _ | leave _ | answered _ => False
  | _ => True

/-- The row of the user is locked. -/
def LocksUser : PurchaseStage → Prop
  | lockHolding _ | createHolding _ | saveHolding _ _ | createPurchase _ _ | commit _ _ => True
  | _ => False

/-- What a confirmation relies on, with the locks that make it lasting. -/
structure Knows (ctx : ℚ → ℚ) (i : ℕ) (r : PurchaseRequest) (s : PortfolioStore)
    (t : PurchaseStage) : Prop where
  plan : t.LocksPlan → s.locks (.scenario r.scenarioId) = some i
  unrecorded : t.Unrecorded →
    (r.scenarioId, r.instrumentId) ∉ s.purchases.map AllocationPurchase.key
  user : t.LocksUser → s.locks (.user r.user) = some i
  sees : t.Sees ctx i r s

end PurchaseStage

/-- An edit is about to save a copy of a row of its user that is there. -/
def EditStage.Knows (e : EditRequest) (s : PortfolioStore) : EditStage → Prop
  | saving copy => copy.ident ∈ s.holdings.map InvestmentHolding.ident ∧ copy.user = e.user
  | _ => True

/-- All requests are of one user. -/
def PortfolioTask.Knows (ctx : ℚ → ℚ) (user : UserId) (i : ℕ) (s : PortfolioStore) :
    PortfolioTask → Prop
  | purchase r t => r.user = user ∧ t.Knows ctx i r s
  | edit e t => e.user = user ∧ t.Knows e s

/-- What a step of thread `i` leaves to the others. -/
structure PortfolioStore.Leaves (user : UserId) (i : ℕ) (s s' : PortfolioStore) : Prop where
  locks : ∀ j k, j ≠ i → s.locks k = some j → s'.locks k = some j
  purchases : ∀ x ∈ s'.purchases, x ∈ s.purchases ∨ s.locks (.scenario x.scenario) = some i
  idents : s.holdings.map InvestmentHolding.ident <+: s'.holdings.map InvestmentHolding.ident
  added : s'.holdings.map InvestmentHolding.ident = s.holdings.map InvestmentHolding.ident ∨
    s.locks (.user user) = some i
  own : ∀ ins h, s.ownHolding user ins = some h →
    s'.ownHolding user ins = some h ∨ Free s.locks (.holding h.id) i

/-! ## What the others keep -/

section Leaves

variable {ctx : ℚ → ℚ} {user : UserId} {i j : ℕ} {s s' : PortfolioStore} {ins : InstrumentId}
  {h : InvestmentHolding}

theorem ids_eq_map_idents (s : PortfolioStore) :
    s.holdings.map InvestmentHolding.id = (s.holdings.map InvestmentHolding.ident).map Prod.fst := by
  rw [List.map_map]
  rfl

theorem keys_eq_map_idents (s : PortfolioStore) :
    s.holdings.map InvestmentHolding.key = (s.holdings.map InvestmentHolding.ident).map Prod.snd := by
  rw [List.map_map]
  rfl

namespace PortfolioStore.Leaves

theorem of_tables (hh : s'.holdings = s.holdings) (hp : s'.purchases = s.purchases)
    (hl : ∀ j k, j ≠ i → s.locks k = some j → s'.locks k = some j) : s.Leaves user i s' where
  locks := hl
  purchases x hx := Or.inl (hp ▸ hx)
  idents := hh ▸ List.prefix_rfl
  added := Or.inl (by rw [hh])
  own ins h hown := Or.inl (by rwa [ownHolding, hh])

theorem refl (s : PortfolioStore) : s.Leaves user i s := of_tables rfl rfl fun _ _ _ h => h

/-- While another thread has the row of the user, no holding is added. -/
theorem idents_eq (hl : s.Leaves user i s') (hj : j ≠ i) (huser : s.locks (.user user) = some j) :
    s'.holdings.map InvestmentHolding.ident = s.holdings.map InvestmentHolding.ident := by
  rcases hl.added with heq | hi
  · exact heq
  · exact absurd (Option.some.inj (huser.symm.trans hi)) hj

theorem own_none (hl : s.Leaves user i s') (hj : j ≠ i) (huser : s.locks (.user user) = some j)
    (h : s.ownHolding user ins = none) : s'.ownHolding user ins = none := by
  rw [ownHolding_eq_none, keys_eq_map_idents] at h ⊢
  rwa [hl.idents_eq hj huser]

/-- While another thread has locked a holding, it stays as it is. -/
theorem own_some (hl : s.Leaves user i s') (hj : j ≠ i) (hown : s.ownHolding user ins = some h)
    (hlock : s.locks (.holding h.id) = some j) : s'.ownHolding user ins = some h := by
  rcases hl.own ins h hown with heq | hfree
  · exact heq
  · exact absurd (hfree.eq hlock) hj

end PortfolioStore.Leaves

theorem PurchaseStage.Writes.mono {r : PurchaseRequest} {b : PurchaseBody} {w : HoldingWrite}
    (hw : Writes ctx j r s b w) (hl : s.Leaves r.user i s') (hj : j ≠ i)
    (huser : s.locks (.user r.user) = some j) : Writes ctx j r s' b w := by
  cases w with
  | create h =>
    obtain ⟨hnone, hfresh, hnew⟩ := hw
    refine ⟨hl.own_none hj huser hnone, ?_, hnew⟩
    rwa [ids_eq_map_idents, hl.idents_eq hj huser, ← ids_eq_map_idents]
  | save h' =>
    obtain ⟨h, hown, hlock, hmerge⟩ := hw
    exact ⟨h, hl.own_some hj hown hlock, hl.locks j _ hj hlock, hmerge⟩

theorem PurchaseStage.Knows.mono {r : PurchaseRequest} {t : PurchaseStage} (h : t.Knows ctx j r s)
    (hl : s.Leaves r.user i s') (hj : j ≠ i) : t.Knows ctx j r s' where
  plan ht := hl.locks j _ hj (h.plan ht)
  unrecorded ht hmem := by
    obtain ⟨x, hx, hkey⟩ := List.mem_map.1 hmem
    rcases hl.purchases x hx with hold | hlock
    · exact h.unrecorded ht (List.mem_map.2 ⟨x, hold, hkey⟩)
    · have hscenario : x.scenario = r.scenarioId := congrArg Prod.fst hkey
      have hplan := h.plan (by cases t <;> trivial)
      rw [hscenario, hplan] at hlock
      exact hj (Option.some.inj hlock)
  user ht := hl.locks j _ hj (h.user ht)
  sees := by
    have hsees := h.sees
    cases t with
    | createHolding b => exact hl.own_none hj (h.user trivial) hsees
    | saveHolding b h₀ => exact ⟨hl.own_some hj hsees.1 hsees.2, hl.locks j _ hj hsees.2⟩
    | createPurchase b w => exact Writes.mono hsees hl hj (h.user trivial)
    | commit w x =>
      obtain ⟨b, id, hx, hw⟩ := hsees
      exact ⟨b, id, hx, hw.mono hl hj (h.user trivial)⟩
    | lockScenario | findPurchase b | getInstrument b | lockUser b | lockHolding b | leave x
    | answered x => trivial

theorem PortfolioTask.Knows.mono {u : PortfolioTask} (h : u.Knows ctx user j s)
    (hl : s.Leaves user i s') (hj : j ≠ i) : u.Knows ctx user j s' := by
  cases u with
  | purchase r t =>
    obtain ⟨rfl, h⟩ := h
    exact ⟨rfl, h.mono hl hj⟩
  | edit e t =>
    cases t with
    | saving copy => exact ⟨h.1, hl.idents.subset h.2.1, h.2.2⟩
    | loading | reloading id | answered x => exact ⟨h.1, trivial⟩

end Leaves

/-! ## What a step does -/

section Steps

variable {ctx : ℚ → ℚ} {i : ℕ} {s s' : PortfolioStore} {r : PurchaseRequest} {b : PurchaseBody}
  {w : HoldingWrite} {x : AllocationPurchase}

theorem PortfolioStore.Constraints.of_tables (hs : s.Constraints) (hh : s'.holdings = s.holdings)
    (hp : s'.purchases = s.purchases) : s'.Constraints :=
  ⟨hh ▸ hs.ids, hh ▸ hs.keys, hp ▸ hs.purchases⟩

theorem PortfolioStore.Constraints.commit (hs : s.Constraints) (hw : PurchaseStage.Writes ctx i r s b w)
    (hx : x.key ∉ s.purchases.map AllocationPurchase.key) : (s.commit w x).Constraints where
  ids := by
    cases w with
    | create h =>
      refine Keyed.nodup_map_snoc hs.ids fun row hrow hid => ?_
      exact hw.2.1 (List.mem_map.2 ⟨row, hrow, hid⟩)
    | save h =>
      rw [ids_eq_map_idents, idents_save, ← ids_eq_map_idents]
      exact hs.ids
  keys := by
    cases w with
    | create h =>
      obtain ⟨hnone, -, id, rfl⟩ := hw
      rw [ownHolding_eq_none] at hnone
      refine Keyed.nodup_map_snoc hs.keys fun row hrow hkey => ?_
      exact hnone (List.mem_map.2 ⟨row, hrow, hkey⟩)
    | save h =>
      rw [keys_eq_map_idents, idents_save, ← keys_eq_map_idents]
      exact hs.keys
  purchases := Keyed.nodup_map_snoc hs.purchases fun y hy hkey => hx (List.mem_map.2 ⟨y, hy, hkey⟩)

/-- A commit touches the plan, the user and the holding that it has locked. -/
theorem PortfolioStore.Leaves.commit (hw : PurchaseStage.Writes ctx i r s b w)
    (hplan : s.locks (.scenario x.scenario) = some i) (huser : s.locks (.user r.user) = some i) :
    s.Leaves r.user i ((s.commit w x).unlock i) where
  locks j k hj hk := release_of_ne hj hk
  purchases y hy := by
    rcases List.mem_append.1 hy with hy | hy
    · exact Or.inl hy
    · exact Or.inr (List.mem_singleton.1 hy ▸ hplan)
  idents := by
    cases w with
    | create h =>
      refine ⟨[h.ident], ?_⟩
      change _ = (s.holdings ++ [h]).map InvestmentHolding.ident
      rw [List.map_append, List.map_singleton]
    | save h => exact (idents_save (x := x)).symm ▸ List.prefix_rfl
  added := Or.inr huser
  own ins h₀ hown := by
    change (s.commit w x).ownHolding r.user ins = some h₀ ∨ _
    cases w with
    | create h =>
      rw [ownHolding_create, hown]
      exact Or.inl rfl
    | save h' =>
      obtain ⟨h, -, hlock, rfl⟩ := hw
      rw [ownHolding_save, hown, Option.map_some]
      by_cases hid : h₀.id = h.id
      · refine Or.inr fun j hj => ?_
        rw [hid, hlock] at hj
        exact (Option.some.inj hj).symm
      · exact Or.inl (congrArg some (if_neg hid))

namespace PurchaseStage

theorem Knows.of_leave (x : PortfolioAnswer) : (leave x).Knows ctx i r s :=
  ⟨fun h => h.elim, fun h => h.elim, fun h => h.elim, trivial⟩

theorem Knows.of_answered (x : PortfolioAnswer) : (answered x).Knows ctx i r s :=
  ⟨fun h => h.elim, fun h => h.elim, fun h => h.elim, trivial⟩

theorem check_knows (scenario : SavedInvestmentScenario)
    (hplan : s.locks (.scenario r.scenarioId) = some i) : (check r scenario).Knows ctx i r s := by
  unfold check
  split
  · exact .of_leave _
  · cases r.body with
    | none => exact .of_leave _
    | some b => exact ⟨fun _ => hplan, fun h => h.elim, fun h => h.elim, trivial⟩

/-- A step keeps the tables in order, what the others know, and what the confirmation goes on
with. -/
theorem Moves.keeps {t t' : PurchaseStage} (hs : s.Constraints) (hk : t.Knows ctx i r s)
    (hm : t.Moves ctx i r s s' t') :
    s'.Constraints ∧ s.Leaves r.user i s' ∧ t'.Knows ctx i r s' := by
  have locked : ∀ {k : RowKey}, Free s.locks k i → s.Leaves r.user i (s.lock k i) :=
    fun hfree => .of_tables rfl rfl fun _ _ hj hk => acquire_of_ne hfree hj hk
  have held : ∀ {k k' : RowKey}, s.locks k' = some i → (s.lock k i).locks k' = some i :=
    fun h => acquire_of_held h
  cases hm with
  | left x =>
    exact ⟨hs.of_tables rfl rfl, .of_tables rfl rfl fun _ _ hj hk => release_of_ne hj hk, .of_answered x⟩
  | gaveUp t x => exact ⟨hs, .refl s, .of_leave x⟩
  | planLocked hfree =>
    exact ⟨hs.of_tables rfl rfl, locked hfree, check_knows _ (acquire_self _ _ _)⟩
  | notRecorded b hnot => exact ⟨hs, .refl s, hk.plan, fun _ => hnot, fun h => h.elim, trivial⟩
  | instrumentFound b => exact ⟨hs, .refl s, hk.plan, hk.unrecorded, fun h => h.elim, trivial⟩
  | userLocked b hfree =>
    exact ⟨hs.of_tables rfl rfl, locked hfree, fun _ => held (hk.plan trivial), hk.unrecorded,
      fun _ => acquire_self _ _ _, trivial⟩
  | noHolding b hnone => exact ⟨hs, .refl s, hk.plan, hk.unrecorded, hk.user, hnone⟩
  | holdingLocked b hown hfree =>
    exact ⟨hs.of_tables rfl rfl, locked hfree, fun _ => held (hk.plan trivial), hk.unrecorded,
      fun _ => held (hk.user trivial), hown, acquire_self _ _ _⟩
  | holdingCreated b hfresh =>
    exact ⟨hs, .refl s, hk.plan, hk.unrecorded, hk.user, hk.sees, hfresh, _, rfl⟩
  | holdingMerged b h =>
    exact ⟨hs, .refl s, hk.plan, hk.unrecorded, hk.user, h, hk.sees.1, hk.sees.2, rfl⟩
  | purchaseCreated b w id =>
    exact ⟨hs, .refl s, hk.plan, hk.unrecorded, hk.user, b, id, rfl, hk.sees⟩
  | committed w x =>
    obtain ⟨b, id, rfl, hw⟩ := hk.sees
    have hnew : (r.newPurchase b w id).key ∉ s.purchases.map AllocationPurchase.key :=
      hk.unrecorded trivial
    exact ⟨(hs.commit hw hnew).of_tables rfl rfl,
      .commit hw (hk.plan trivial) (hk.user trivial), .of_answered _⟩

end PurchaseStage

theorem EditStage.Moves.keeps {user : UserId} {e : EditRequest} {t t' : EditStage}
    (hs : s.Constraints) (hk : t.Knows e s) (hm : t.Moves i e s s' t') :
    s'.Constraints ∧ s.Leaves user i s' ∧ t'.Knows e s' := by
  cases hm with
  | answered t x => exact ⟨hs, .refl s, trivial⟩
  | loaded body hown hbody =>
    have hfound := List.find?_some hown
    exact ⟨hs, .refl s, List.mem_map.2 ⟨_, List.mem_of_find?_eq_some hown, rfl⟩,
      (of_decide_eq_true hfound).2⟩
  | @saved copy hfree =>
    have hident := hs.ident_eq hk.1
    have hidents := idents_saveHolding hident
    refine ⟨⟨?_, ?_, hs.purchases⟩, ⟨fun _ _ _ h => h, fun _ hx => Or.inl hx, ?_, Or.inl hidents, ?_⟩,
      trivial⟩
    · rw [ids_eq_map_idents, hidents, ← ids_eq_map_idents]
      exact hs.ids
    · rw [keys_eq_map_idents, hidents, ← keys_eq_map_idents]
      exact hs.keys
    · exact hidents ▸ List.prefix_rfl
    · intro ins h hown
      rw [ownHolding_saveHolding fun row hrow hid => congrArg Prod.snd (hident row hrow hid), hown,
        Option.map_some]
      by_cases hid : h.id = copy.id
      · exact Or.inr (hid ▸ hfree)
      · exact Or.inl (congrArg some (if_neg hid))

end Steps

/-! ## The books -/

/-- Of a holding, an amount that each purchase adds to. -/
structure Adds (ctx : ℚ → ℚ) (m : InvestmentHolding → ℕ) (μ : AllocationPurchase → ℕ) : Prop where
  create : ∀ (r : PurchaseRequest) (b : PurchaseBody) (w : HoldingWrite) (id : HoldingId)
    (id' : PurchaseId), m (r.newHolding b id) = μ (r.newPurchase b w id')
  merge : ∀ (h : InvestmentHolding) (r : PurchaseRequest) (b : PurchaseBody) (w : HoldingWrite)
    (id' : PurchaseId), m (h.merge ctx b) = m h + μ (r.newPurchase b w id')

theorem adds_quantity (ctx : ℚ → ℚ) :
    Adds ctx InvestmentHolding.quantity AllocationPurchase.quantity :=
  ⟨fun _ _ _ _ _ => rfl, fun _ _ _ _ _ => rfl⟩

theorem adds_fees (ctx : ℚ → ℚ) : Adds ctx InvestmentHolding.fees AllocationPurchase.fees :=
  ⟨fun _ _ _ _ _ => rfl, fun _ _ _ _ _ => rfl⟩

/-- The amount that a user holds of an instrument, none without a holding. -/
def PortfolioStore.total (s : PortfolioStore) (m : InvestmentHolding → ℕ) (user : UserId)
    (ins : InstrumentId) : ℕ := (s.ownHolding user ins).elim 0 m

/-- The sum over the purchases of an instrument. -/
def recorded (μ : AllocationPurchase → ℕ) (xs : List AllocationPurchase) (ins : InstrumentId) : ℕ :=
  ((xs.filter fun x => x.instrument = ins).map μ).sum

/-- Since `s₀` purchases have been recorded, and of each instrument what they say was added. -/
def AddsUp (m : InvestmentHolding → ℕ) (μ : AllocationPurchase → ℕ) (user : UserId)
    (s₀ s : PortfolioStore) : Prop :=
  ∃ xs, s.purchases = s₀.purchases ++ xs ∧
    ∀ ins, s.total m user ins = s₀.total m user ins + recorded μ xs ins

section AddsUp

variable {ctx : ℚ → ℚ} {m : InvestmentHolding → ℕ} {μ : AllocationPurchase → ℕ} {user : UserId}
  {i : ℕ} {s₀ s s' : PortfolioStore} {ins : InstrumentId}

theorem AddsUp.refl (s : PortfolioStore) : AddsUp m μ user s s :=
  ⟨[], (List.append_nil _).symm, fun _ => rfl⟩

theorem AddsUp.of_total (hp : s'.purchases = s.purchases)
    (ht : ∀ ins, s'.total m user ins = s.total m user ins) : AddsUp m μ user s s' :=
  ⟨[], hp.trans (List.append_nil _).symm, ht⟩

theorem recorded_append (xs ys : List AllocationPurchase) :
    recorded μ (xs ++ ys) ins = recorded μ xs ins + recorded μ ys ins := by
  unfold recorded
  rw [List.filter_append, List.map_append, List.sum_append]

theorem recorded_singleton (x : AllocationPurchase) :
    recorded μ [x] ins = if x.instrument = ins then μ x else 0 := by
  unfold recorded
  split
  · next hx => simp [hx]
  · next hx => simp [hx]

theorem AddsUp.trans (h : AddsUp m μ user s₀ s) (h' : AddsUp m μ user s s') :
    AddsUp m μ user s₀ s' := by
  obtain ⟨xs, hxs, htotal⟩ := h
  obtain ⟨ys, hys, htotal'⟩ := h'
  refine ⟨xs ++ ys, by rw [hys, hxs, List.append_assoc], fun ins => ?_⟩
  rw [htotal', htotal, recorded_append, Nat.add_assoc]

/-- A commit adds its purchase to the holding of the instrument. -/
theorem total_commit {r : PurchaseRequest} {b : PurchaseBody} {w : HoldingWrite} {id : PurchaseId}
    (ha : Adds ctx m μ) (hs : s.Constraints) (hw : PurchaseStage.Writes ctx i r s b w) :
    (s.commit w (r.newPurchase b w id)).total m r.user ins =
      s.total m r.user ins + if r.instrumentId = ins then μ (r.newPurchase b w id) else 0 := by
  unfold PortfolioStore.total
  cases w with
  | create h =>
    obtain ⟨hnone, -, id', rfl⟩ := hw
    rw [ownHolding_create]
    by_cases hins : r.instrumentId = ins
    · have hkey : (r.newHolding b id').key = (r.user, ins) := congrArg (Prod.mk r.user) hins
      rw [← hins, hnone, if_pos rfl, hins, if_pos hkey]
      exact (ha.create r b _ id' id).trans (Nat.zero_add _).symm
    · have hkey : (r.newHolding b id').key ≠ (r.user, ins) := fun h => hins (congrArg Prod.snd h)
      rw [if_neg hins, if_neg hkey, Option.or_none]
      rfl
  | save h' =>
    obtain ⟨h, hown, -, rfl⟩ := hw
    rw [ownHolding_save]
    by_cases hins : r.instrumentId = ins
    · have hid : h.id = (h.merge ctx b).id := rfl
      rw [← hins, hown, Option.map_some, if_pos hid, if_pos rfl]
      exact ha.merge h r b _ id
    · rw [if_neg hins, Nat.add_zero]
      cases hother : s.ownHolding r.user ins with
      | none => rfl
      | some h₀ =>
        have hid : h₀.id ≠ (h.merge ctx b).id := by
          intro hid
          have heq := Keyed.eq_of_pk hs.ids (ownHolding_eq_some hother).1 (ownHolding_eq_some hown).1 hid
          have hkey := (ownHolding_eq_some hother).2.symm.trans (heq ▸ (ownHolding_eq_some hown).2)
          exact hins (congrArg Prod.snd hkey).symm
        rw [Option.map_some, if_neg hid]

/-- A save that leaves the amount of its row leaves the totals. -/
theorem total_saveHolding {copy : InvestmentHolding}
    (hident : ∀ row ∈ s.holdings, row.id = copy.id → row.ident = copy.ident)
    (hm : ∀ row ∈ s.holdings, row.id = copy.id → m row = m copy) :
    (s.saveHolding copy).total m user ins = s.total m user ins := by
  unfold PortfolioStore.total
  rw [ownHolding_saveHolding fun row hrow hid => congrArg Prod.snd (hident row hrow hid)]
  cases hown : s.ownHolding user ins with
  | none => rfl
  | some h =>
    by_cases hid : h.id = copy.id
    · rw [Option.map_some, if_pos hid]
      exact (hm h (ownHolding_eq_some hown).1 hid).symm
    · rw [Option.map_some, if_neg hid]

/-- The edit that is about to be saved leaves the amount of its row as it is. -/
def PortfolioTask.Keeps (m : InvestmentHolding → ℕ) (s : PortfolioStore) : PortfolioTask → Prop
  | edit _ (.saving copy) => ∀ row ∈ s.holdings, row.id = copy.id → m row = m copy
  | _ => True

/-- A step keeps the tables in order, what the others know, and what the task goes on with. -/
theorem PortfolioTask.step_knows {t t' : PortfolioTask} {x : PortfolioReply}
    {new : List PortfolioTask} (hs : s.Constraints) (hk : t.Knows ctx user i s)
    (hstep : t.step ctx i s x = some (s', t', new)) :
    s'.Constraints ∧ s.Leaves user i s' ∧ t'.Knows ctx user i s' ∧ new = [] := by
  cases t with
  | purchase r t =>
    obtain ⟨rfl, hk⟩ := hk
    obtain ⟨rfl, t', rfl, hm⟩ := PortfolioTask.step_purchase hstep
    obtain ⟨hs', hl, hk'⟩ := hm.keeps hs hk
    exact ⟨hs', hl, ⟨rfl, hk'⟩, rfl⟩
  | edit e t =>
    obtain ⟨huser, hk⟩ := hk
    obtain ⟨rfl, t', rfl, hm⟩ := PortfolioTask.step_edit hstep
    obtain ⟨hs', hl, hk'⟩ := hm.keeps hs hk
    exact ⟨hs', hl, ⟨huser, hk'⟩, rfl⟩

/-- A step adds what it records, unless it saves another amount than its row has. -/
theorem PortfolioTask.step_addsUp {t t' : PortfolioTask} {x : PortfolioReply}
    {new : List PortfolioTask} (ha : Adds ctx m μ) (hs : s.Constraints) (hk : t.Knows ctx user i s)
    (hkeep : t.Keeps m s) (hstep : t.step ctx i s x = some (s', t', new)) :
    AddsUp m μ user s s' := by
  cases t with
  | purchase r t =>
    obtain ⟨rfl, hk⟩ := hk
    obtain ⟨-, t', -, hm⟩ := PortfolioTask.step_purchase hstep
    cases hm with
    | committed w x =>
      obtain ⟨b, id, rfl, hw⟩ := hk.sees
      refine ⟨[r.newPurchase b w id], rfl, fun ins => ?_⟩
      rw [recorded_singleton]
      exact total_commit ha hs hw
    | _ => exact .of_total rfl fun _ => rfl
  | edit e t =>
    obtain ⟨-, hk⟩ := hk
    obtain ⟨-, t', -, hm⟩ := PortfolioTask.step_edit hstep
    cases hm with
    | saved hfree => exact .of_total rfl fun _ => total_saveHolding (hs.ident_eq hk.1) hkeep
    | answered | loaded => exact .refl s

end AddsUp

/-! ## Runs -/

/-- Requests from outside, as far as `arrives` lets them in. -/
def portfolioSystem (ctx : ℚ → ℚ) (arrives : PortfolioTask → Prop) :
    System PortfolioStore PortfolioTask PortfolioReply where
  step i s t x := t.step ctx i s x
  arrives := arrives

instance (ctx : ℚ → ℚ) (arrives : PortfolioTask → Prop) [DecidablePred arrives] :
    DecidablePred (portfolioSystem ctx arrives).arrives :=
  inferInstanceAs (DecidablePred arrives)

/-- Every edit leaves the amount of its row as it is. -/
def EditsKeep (m : InvestmentHolding → ℕ) (p : Pool PortfolioStore PortfolioTask) :
    Action PortfolioTask PortfolioReply → Prop
  | .run i _ => ∀ t ∈ p.threads[i]?, t.Keeps m p.store
  | .arrive _ => True

/-- The tables are in order, and every task knows what it relies on. -/
def InOrder (ctx : ℚ → ℚ) (user : UserId) : Pool PortfolioStore PortfolioTask → Prop :=
  Everywhere PortfolioStore.Constraints fun i s t => t.Knows ctx user i s

section Runs

variable {ctx : ℚ → ℚ} {arrives : PortfolioTask → Prop} {user : UserId}
  {m : InvestmentHolding → ℕ} {μ : AllocationPurchase → ℕ} {p q : Pool PortfolioStore PortfolioTask}
  {ok : Pool PortfolioStore PortfolioTask → Action PortfolioTask PortfolioReply → Prop}

theorem InOrder.start {s : PortfolioStore} (hs : s.Constraints) : InOrder ctx user ⟨s, []⟩ :=
  ⟨hs, by simp⟩

theorem InOrder.next {a : Action PortfolioTask PortfolioReply}
    (harrive : ∀ t, arrives t → ∀ i s, t.Knows ctx user i s)
    (hn : (portfolioSystem ctx arrives).Next p a q) (hp : InOrder ctx user p) : InOrder ctx user q := by
  refine Everywhere.next hp hn (fun t _ ht => harrive t ht _ _) fun i x t s' t' new hact hi hstep => ?_
  subst hact
  obtain ⟨hs, hl, hk, rfl⟩ := PortfolioTask.step_knows hp.store (hp.threads i t hi) hstep
  exact ⟨hs, hk, by simp, fun j u hj hu => (hp.threads j u hu).mono hl hj⟩

theorem InOrder.run (harrive : ∀ t, arrives t → ∀ i s, t.Knows ctx user i s)
    (hrun : (portfolioSystem ctx arrives).Run ok p q) (hp : InOrder ctx user p) :
    InOrder ctx user q :=
  hrun.invariant (fun _ _ _ hp _ hn => hp.next harrive hn) hp

/-- What is recorded in a run is added, if every edit leaves the amount of its row. -/
theorem InOrder.addsUp (ha : Adds ctx m μ) (harrive : ∀ t, arrives t → ∀ i s, t.Knows ctx user i s)
    (hok : ∀ p a, ok p a → EditsKeep m p a) (hrun : (portfolioSystem ctx arrives).Run ok p q)
    (hp : InOrder ctx user p) : AddsUp m μ user p.store q.store := by
  refine hrun.relates (I := InOrder ctx user) (R := fun p q => AddsUp m μ user p.store q.store)
    (fun p => .refl p.store) (fun _ _ _ => AddsUp.trans)
    (fun _ _ _ hp _ hn => hp.next harrive hn) (fun p q a hp hpok hn => ?_) hp
  cases hn with
  | arrive ht => exact .refl p.store
  | run hi hstep =>
    exact PortfolioTask.step_addsUp ha hp.store (hp.threads _ _ hi) (hok _ _ hpok _ hi) hstep

end Runs

/-- A confirmation of the user that has just come in. -/
def PortfolioTask.ConfirmsFor (user : UserId) : PortfolioTask → Prop
  | purchase r .lockScenario => r.user = user
  | _ => False

instance (user : UserId) : DecidablePred (PortfolioTask.ConfirmsFor user) := fun t => by
  unfold PortfolioTask.ConfirmsFor
  split <;> infer_instance

theorem PortfolioTask.ConfirmsFor.knows {ctx : ℚ → ℚ} {user : UserId} {t : PortfolioTask}
    (h : t.ConfirmsFor user) (i : ℕ) (s : PortfolioStore) : t.Knows ctx user i s := by
  unfold ConfirmsFor at h
  split at h
  · exact ⟨h, fun h => h.elim, fun h => h.elim, fun h => h.elim, trivial⟩
  · exact h.elim

/-- The task is a confirmation. -/
def PortfolioTask.IsPurchase : PortfolioTask → Prop
  | purchase _ _ => True
  | edit _ _ => False

/-- Where only confirmations come in, there are no edits. -/
theorem next_isPurchase {ctx : ℚ → ℚ} {user : UserId} {p q : Pool PortfolioStore PortfolioTask}
    {a : Action PortfolioTask PortfolioReply} (hp : ∀ t ∈ p.threads, t.IsPurchase)
    (hn : (portfolioSystem ctx (PortfolioTask.ConfirmsFor user)).Next p a q) :
    ∀ t ∈ q.threads, t.IsPurchase := by
  cases hn with
  | @arrive t ht =>
    intro u hu
    rcases List.mem_append.1 hu with hu | hu
    · exact hp u hu
    · rw [List.mem_singleton.1 hu]
      cases t with
      | purchase r t => trivial
      | edit r t => exact ht.elim
  | @run i x t t' s' new hi hs =>
    have ht := hp t (List.mem_of_getElem? hi)
    cases t with
    | edit r t => exact ht.elim
    | purchase r t =>
      obtain ⟨rfl, t', rfl, -⟩ := PortfolioTask.step_purchase hs
      intro u hu
      rw [List.append_nil] at hu
      rcases List.mem_or_eq_of_mem_set hu with hu | rfl
      · exact hp u hu
      · trivial

/-- In every interleaving of confirmations of one user, no purchase is recorded twice, and
the quantity and the fees of each holding are what they were with what was recorded. -/
theorem purchases_addUp {ctx : ℚ → ℚ} {user : UserId} {s : PortfolioStore}
    {q : Pool PortfolioStore PortfolioTask} (hs : s.Constraints)
    (hrun : (portfolioSystem ctx (PortfolioTask.ConfirmsFor user)).Run (fun _ _ => True) ⟨s, []⟩ q) :
    (q.store.purchases.map fun x => (x.scenario, x.instrument)).Nodup ∧
      ∃ xs, q.store.purchases = s.purchases ++ xs ∧ ∀ ins,
        q.store.total InvestmentHolding.quantity user ins =
            s.total InvestmentHolding.quantity user ins + recorded AllocationPurchase.quantity xs ins ∧
          q.store.total InvestmentHolding.fees user ins =
            s.total InvestmentHolding.fees user ins + recorded AllocationPurchase.fees xs ins := by
  have hrun' := hrun.strengthen (J := fun p => ∀ t ∈ p.threads, t.IsPurchase)
    (fun _ _ _ hp _ hn => next_isPurchase hp hn) (by simp)
  have hkeep : ∀ (m : InvestmentHolding → ℕ) (p : Pool PortfolioStore PortfolioTask)
      (a : Action PortfolioTask PortfolioReply), (True ∧ ∀ t ∈ p.threads, t.IsPurchase) →
      EditsKeep m p a := by
    rintro m p (t | ⟨i, x⟩) ⟨-, hp⟩
    · trivial
    · intro t hi
      have ht := hp t (List.mem_of_getElem? hi)
      cases t with
      | purchase r t => trivial
      | edit r t => exact ht.elim
  have hstart : InOrder ctx user ⟨s, []⟩ := .start hs
  have hend := hstart.run (fun _ ht => ht.knows) hrun
  obtain ⟨xs, hxs, hquantity⟩ :=
    hstart.addsUp (adds_quantity ctx) (fun _ ht => ht.knows) (hkeep _) hrun'
  obtain ⟨xs', hxs', hfees⟩ := hstart.addsUp (adds_fees ctx) (fun _ ht => ht.knows) (hkeep _) hrun'
  obtain rfl : xs = xs' := List.append_cancel_left (hxs.symm.trans hxs')
  exact ⟨hend.store.purchases, xs, hxs, fun ins => ⟨hquantity ins, hfees ins⟩⟩

/-- Two plans of one user with the same instrument, and no holding of it. -/
def twoPlans : PortfolioStore where
  scenarios := [{ id := 1, user := 1, allocationIds := [5] }, { id := 2, user := 1, allocationIds := [5] }]
  instruments := [{ id := 5, minimumIncrement := 1000000 }]

/-- The first of August 2025. -/
def boughtAt : Date := ⟨2025, 8, 1, by decide, by decide⟩

/-- 1.25 at 110 with a fee of 3.50. -/
def firstPurchase : PurchaseRequest :=
  ⟨1, 1, 5, some ⟨125000000, 1100000, 350, boughtAt, by decide, by decide⟩⟩

/-- 2 at 120. -/
def secondPurchase : PurchaseRequest :=
  ⟨1, 2, 5, some ⟨200000000, 1200000, 0, boughtAt, by decide, by decide⟩⟩

/-- The second one and a retry of the first run into its locks. -/
def twoPlansAndRetry : List (Action PortfolioTask PortfolioReply) :=
  [.arrive (.purchase firstPurchase .lockScenario), .arrive (.purchase secondPurchase .lockScenario),
    .arrive (.purchase firstPurchase .lockScenario), .run 0 .done, .run 1 .done, .run 0 .done,
    .run 1 .done, .run 0 .done, .run 1 .done, .run 0 .done, .run 0 .done, .run 0 (.inserted 1),
    .run 0 (.inserted 1), .run 0 .done, .run 1 .done, .run 1 .done, .run 2 .done, .run 1 .done,
    .run 2 .done, .run 1 (.inserted 2), .run 2 .done, .run 1 .done]

theorem purchases_addUp_twoPlans : ∃ q : Pool PortfolioStore PortfolioTask,
    q.threads = [.purchase firstPurchase (.answered .created),
      .purchase secondPurchase (.answered .created), .purchase firstPurchase (.answered .ok)] ∧
    (q.store.purchases.map fun x => (x.scenario, x.instrument)).Nodup ∧
      ∃ xs, q.store.purchases = twoPlans.purchases ++ xs ∧ ∀ ins,
        q.store.total InvestmentHolding.quantity 1 ins =
            twoPlans.total InvestmentHolding.quantity 1 ins +
              recorded AllocationPurchase.quantity xs ins ∧
          q.store.total InvestmentHolding.fees 1 ins =
            twoPlans.total InvestmentHolding.fees 1 ins + recorded AllocationPurchase.fees xs ins := by
  have hexec : ∃ q ∈ (portfolioSystem decimalContext (PortfolioTask.ConfirmsFor 1)).exec
      twoPlansAndRetry ⟨twoPlans, []⟩,
      q.threads = [.purchase firstPurchase (.answered .created),
        .purchase secondPurchase (.answered .created), .purchase firstPurchase (.answered .ok)] := by
    decide +kernel
  obtain ⟨q, hq, hthreads⟩ := hexec
  exact ⟨q, hthreads, purchases_addUp (s := twoPlans) ⟨by decide, by decide, by decide⟩ (.of_exec hq)⟩

end NbeAdvisor
