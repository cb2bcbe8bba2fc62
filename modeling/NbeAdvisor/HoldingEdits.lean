import NbeAdvisor.Purchases

/-!
# Purchases and edits of the same holding

An edit reads a holding without a lock and later saves every column of its copy, also those
that its body does not name. A purchase that commits in between is overwritten, though the
edit waits for its lock (`edit_losesPurchase`).

If every edit finds the quantity that it has read when it saves, then all that was purchased
is part of the holdings, in any interleaving of confirmations and edits that name no quantity
(`edits_keepPurchases`). For one edit among any number of confirmations this is exact : what
was purchased is there at the end if and only if the save has found the quantity that was
read (`purchases_kept_iff`).
-/

namespace NbeAdvisor

open Interleave RowLocks

/-- A confirmation, or an edit of a holding that does not name the quantity, of the user. -/
def PortfolioTask.ConfirmsOrEdits (user : UserId) : PortfolioTask → Prop
  | purchase r .lockScenario => r.user = user
  | edit e .loading => e.user = user ∧ ∀ body ∈ e.body, body.quantity = none
  | _ => False

instance (user : UserId) : DecidablePred (PortfolioTask.ConfirmsOrEdits user) := fun t => by
  cases t with
  | purchase r t => cases t <;> unfold PortfolioTask.ConfirmsOrEdits <;> infer_instance
  | edit e t => cases t <;> unfold PortfolioTask.ConfirmsOrEdits <;> infer_instance

theorem PortfolioTask.ConfirmsOrEdits.knows {ctx : ℚ → ℚ} {user : UserId} {t : PortfolioTask}
    (h : t.ConfirmsOrEdits user) (i : ℕ) (s : PortfolioStore) : t.Knows ctx user i s := by
  unfold ConfirmsOrEdits at h
  split at h
  · exact ⟨h, fun h => h.elim, fun h => h.elim, fun h => h.elim, trivial⟩
  · exact ⟨h.1, trivial⟩
  · exact h.elim

instance (m : InvestmentHolding → ℕ) (s : PortfolioStore) (t : PortfolioTask) :
    Decidable (t.Keeps m s) := by
  unfold PortfolioTask.Keeps
  split <;> infer_instance

instance (m : InvestmentHolding → ℕ) (p : Pool PortfolioStore PortfolioTask) :
    DecidablePred (EditsKeep m p)
  | .run i _ => inferInstanceAs (Decidable (∀ t ∈ p.threads[i]?, t.Keeps m p.store))
  | .arrive _ => .isTrue trivial

/-- In every interleaving of confirmations and edits of one user in which each edit that saves
finds the quantity that it has read, the holdings have grown by what was purchased. -/
theorem edits_keepPurchases {ctx : ℚ → ℚ} {user : UserId} {s : PortfolioStore}
    {q : Pool PortfolioStore PortfolioTask} (hs : s.Constraints)
    (hrun : (portfolioSystem ctx (PortfolioTask.ConfirmsOrEdits user)).Run
      (EditsKeep InvestmentHolding.quantity) ⟨s, []⟩ q) :
    AddsUp InvestmentHolding.quantity AllocationPurchase.quantity user s q.store :=
  (InOrder.start hs).addsUp (adds_quantity ctx) (fun _ ht => ht.knows) (fun _ _ h => h) hrun

/-- Ten units of an instrument, and a plan to buy more of it. -/
def heldStore : PortfolioStore where
  scenarios := [{ id := 1, user := 1, allocationIds := [5] }]
  instruments := [{ id := 5, minimumIncrement := 1000000 }]
  holdings := [{ id := 3, user := 1, instrument := 5, quantity := 1000000000
                 averagePurchasePrice := 1000000 }]

/-- A PATCH of the average price. -/
def priceEdit : PortfolioTask :=
  .edit ⟨1, 3, some { averagePurchasePrice := some 1200000 }⟩ .loading

/-- The confirmation and the edit come in. -/
def bothArrive : List (Action PortfolioTask PortfolioReply) :=
  [.arrive (.purchase firstPurchase .lockScenario), .arrive priceEdit]

/-- The statements of the confirmation. -/
def confirmation : List (Action PortfolioTask PortfolioReply) :=
  List.replicate 6 (.run 0 .done) ++ [.run 0 (.inserted 1), .run 0 .done]

/-- The edit reads and saves after the commit. -/
theorem edits_keepPurchases_after : ∃ q : Pool PortfolioStore PortfolioTask,
    q.store.total InvestmentHolding.quantity 1 5 = 1125000000 ∧
      AddsUp InvestmentHolding.quantity AllocationPurchase.quantity 1 heldStore q.store := by
  have hexec : ∃ q ∈ (portfolioSystem decimalContext (PortfolioTask.ConfirmsOrEdits 1)).exec
      (bothArrive ++ confirmation ++ List.replicate 3 (.run 1 .done)) ⟨heldStore, []⟩,
      q.store.total InvestmentHolding.quantity 1 5 = 1125000000 := by
    decide +kernel
  obtain ⟨q, hq, htotal⟩ := hexec
  have hrun : (portfolioSystem decimalContext (PortfolioTask.ConfirmsOrEdits 1)).Run
      (EditsKeep InvestmentHolding.quantity) ⟨heldStore, []⟩ q :=
    .of_exec_meets (by decide +kernel) hq
  exact ⟨q, htotal, edits_keepPurchases ⟨by decide, by decide, by decide⟩ hrun⟩

/-! ## One edit, exactly -/

/-- The task does not save an edit next. -/
def PortfolioTask.SavesNothing : PortfolioTask → Prop
  | edit _ (.saving _) => False
  | _ => True

instance : DecidablePred PortfolioTask.SavesNothing := fun t => by
  unfold PortfolioTask.SavesNothing
  split <;> infer_instance

/-- No edit is saved. -/
def NoSave (p : Pool PortfolioStore PortfolioTask) : Action PortfolioTask PortfolioReply → Prop
  | .run i _ => ∀ t ∈ p.threads[i]?, t.SavesNothing
  | .arrive _ => True

instance (p : Pool PortfolioStore PortfolioTask) : DecidablePred (NoSave p)
  | .run i _ => inferInstanceAs (Decidable (∀ t ∈ p.threads[i]?, t.SavesNothing))
  | .arrive _ => .isTrue trivial

theorem NoSave.editsKeep {m : InvestmentHolding → ℕ} {p : Pool PortfolioStore PortfolioTask}
    {a : Action PortfolioTask PortfolioReply} (h : NoSave p a) : EditsKeep m p a := by
  cases a with
  | arrive t => trivial
  | run i x =>
    intro t ht
    have hnot := h t ht
    cases t with
    | purchase r t => trivial
    | edit e t =>
      cases t with
      | saving copy => exact hnot.elim
      | loading | reloading id | answered x => trivial

section Exactly

variable {ctx : ℚ → ℚ} {m : InvestmentHolding → ℕ} {user : UserId} {s : PortfolioStore}
  {p p' q : Pool PortfolioStore PortfolioTask} {i : ℕ} {e : EditRequest} {copy : InvestmentHolding}

/-- A save of a copy changes the total, unless its row has the amount of the copy. -/
theorem total_saveHolding_iff (hs : s.Constraints) (hk : (EditStage.saving copy).Knows e s) :
    (s.saveHolding copy).total m copy.user copy.instrument =
        s.total m copy.user copy.instrument ↔
      ∀ row ∈ s.holdings, row.id = copy.id → m row = m copy := by
  have hident := hs.ident_eq hk.1
  obtain ⟨row, hrow, heq⟩ := List.mem_map.1 hk.1
  have hid : row.id = copy.id := congrArg Prod.fst heq
  have hkey : row.key = copy.key := congrArg Prod.snd heq
  have hown : s.ownHolding copy.user copy.instrument = some row :=
    Keyed.find?_of_pk hs.keys hrow (decide_eq_true hkey) fun u hu hp =>
      (of_decide_eq_true hp).trans hkey.symm
  have hsaved : (s.saveHolding copy).ownHolding copy.user copy.instrument = some copy := by
    rw [ownHolding_saveHolding fun row hrow hid => congrArg Prod.snd (hident row hrow hid), hown,
      Option.map_some, if_pos hid]
  rw [PortfolioStore.total, PortfolioStore.total, hsaved, hown]
  constructor
  · intro h u hu huid
    rw [Keyed.eq_of_pk hs.ids hu hrow (huid.trans hid.symm)]
    exact h.symm
  · intro h
    exact (h row hrow hid).symm

/-- Between two stretches that add up, what adds up throughout leaves the totals. -/
theorem addsUp_of_save {μ : AllocationPurchase → ℕ} {s₁ s₂ s₃ : PortfolioStore}
    (h₁ : AddsUp m μ user s s₁) (hp : s₂.purchases = s₁.purchases) (h₂ : AddsUp m μ user s₂ s₃)
    (h : AddsUp m μ user s s₃) (ins : InstrumentId) : s₂.total m user ins = s₁.total m user ins := by
  obtain ⟨xs, hxs, htotal⟩ := h₁
  obtain ⟨ys, hys, htotal'⟩ := h₂
  obtain ⟨zs, hzs, hsum⟩ := h
  have hall : s.purchases ++ zs = s.purchases ++ (xs ++ ys) := by
    rw [← hzs, hys, hp, hxs, List.append_assoc]
  obtain rfl := List.append_cancel_left hall
  have hins := hsum ins
  rw [htotal', recorded_append, ← Nat.add_assoc, ← htotal] at hins
  exact Nat.add_right_cancel hins

theorem saves_store {arrives : PortfolioTask → Prop}
    (hi : p.threads[i]? = some (.edit e (.saving copy)))
    (hsave : (portfolioSystem ctx arrives).Next p (.run i .done) p')
    (hsaved : p'.threads[i]? = some (.edit e (.reloading copy.id))) :
    p'.store = p.store.saveHolding copy := by
  cases hsave with
  | @run i x t t' s' new hi' hstep =>
    have hlt := (List.getElem?_eq_some_iff.1 hi).1
    rw [getElem?_set_append_self hlt, Option.some.injEq] at hsaved
    rw [hi, Option.some.injEq] at hi'
    subst hi' hsaved
    obtain ⟨-, t', heq, hm⟩ := @PortfolioTask.step_edit ctx _ _ _ _ _ _ _ _ hstep
    cases heq
    cases hm with
    | saved hfree => rfl

/-- In a run in which one edit is saved, what was purchased is part of the holdings at the end
if and only if the save has found the quantity that the edit had read. -/
theorem purchases_kept_iff (hs : s.Constraints)
    (hbefore : (portfolioSystem ctx (PortfolioTask.ConfirmsOrEdits user)).Run NoSave ⟨s, []⟩ p)
    (hi : p.threads[i]? = some (.edit e (.saving copy)))
    (hsave : (portfolioSystem ctx (PortfolioTask.ConfirmsOrEdits user)).Next p (.run i .done) p')
    (hsaved : p'.threads[i]? = some (.edit e (.reloading copy.id)))
    (hafter : (portfolioSystem ctx (PortfolioTask.ConfirmsOrEdits user)).Run NoSave p' q) :
    AddsUp InvestmentHolding.quantity AllocationPurchase.quantity user s q.store ↔
      ∀ row ∈ p.store.holdings, row.id = copy.id → row.quantity = copy.quantity := by
  have harrive : ∀ t, PortfolioTask.ConfirmsOrEdits user t → ∀ i s, t.Knows ctx user i s :=
    fun _ ht => ht.knows
  have hstart : InOrder ctx user ⟨s, []⟩ := .start hs
  have horder := hstart.run harrive hbefore
  have horder' := horder.next harrive hsave
  have hadds := hstart.addsUp (adds_quantity ctx) harrive (fun _ _ h => h.editsKeep) hbefore
  have hadds' := horder'.addsUp (adds_quantity ctx) harrive (fun _ _ h => h.editsKeep) hafter
  obtain ⟨huser, hk⟩ := horder.threads i _ hi
  have hstore : p'.store = p.store.saveHolding copy := saves_store hi hsave hsaved
  have hpurchases : p'.store.purchases = p.store.purchases := by rw [hstore]; rfl
  constructor
  · intro h
    have htotal := addsUp_of_save hadds hpurchases hadds' h copy.instrument
    rw [hstore, ← huser, ← hk.2] at htotal
    exact (total_saveHolding_iff horder.store hk).1 htotal
  · intro hrow
    have hkept : AddsUp InvestmentHolding.quantity AllocationPurchase.quantity user p.store p'.store := by
      refine .of_total hpurchases fun ins => ?_
      rw [hstore]
      exact total_saveHolding (horder.store.ident_eq hk.1) hrow
    exact (hadds.trans hkept).trans hadds'

end Exactly

/-! ## An edit that overwrites a purchase -/

/-- The request has been answered. -/
def PortfolioTask.Finished : PortfolioTask → Prop
  | purchase _ (.answered _) | edit _ (.answered _) => True
  | _ => False

instance : DecidablePred PortfolioTask.Finished := fun t => by
  unfold PortfolioTask.Finished
  split <;> infer_instance

/-- The edit reads the holding before the confirmation, which then commits. -/
def editReadsFirst : List (Action PortfolioTask PortfolioReply) :=
  bothArrive ++ [.run 1 .done] ++ confirmation

/-- The edit saves after the commit. -/
theorem edit_losesPurchase :
    ¬∀ (user : UserId) (s : PortfolioStore) (q : Pool PortfolioStore PortfolioTask), s.Constraints →
      (portfolioSystem decimalContext (PortfolioTask.ConfirmsOrEdits user)).Run (fun _ _ => True)
        ⟨s, []⟩ q → (∀ t ∈ q.threads, t.Finished) →
      AddsUp InvestmentHolding.quantity AllocationPurchase.quantity user s q.store := by
  intro h
  let S := portfolioSystem decimalContext (PortfolioTask.ConfirmsOrEdits 1)
  let copy : InvestmentHolding :=
    { id := 3, user := 1, instrument := 5, quantity := 1000000000, averagePurchasePrice := 1200000 }
  have hexec : ∃ p ∈ S.exec editReadsFirst ⟨heldStore, []⟩, ∃ p' ∈ S.exec [.run 1 .done] p,
      ∃ q ∈ S.exec [.run 1 .done] p', S.Meets NoSave [.run 1 .done] p' ∧
        p.threads[1]? = some (.edit ⟨1, 3, some { averagePurchasePrice := some 1200000 }⟩
          (.saving copy)) ∧
        p'.threads[1]? = some (.edit ⟨1, 3, some { averagePurchasePrice := some 1200000 }⟩
          (.reloading copy.id)) ∧
        (∀ t ∈ q.threads, t.Finished) ∧
        ¬∀ row ∈ p.store.holdings, row.id = copy.id → row.quantity = copy.quantity := by
    decide +kernel
  obtain ⟨p, hp, p', hp', q, hq, hmeets, hi, hsaved, hfinished, hrow⟩ := hexec
  have hs : heldStore.Constraints := ⟨by decide, by decide, by decide⟩
  have hrun := (System.Run.of_exec hp).trans ((System.Run.of_exec hp').trans (.of_exec hq))
  exact hrow ((purchases_kept_iff hs (.of_exec_meets (by decide +kernel) hp) hi
    (System.next_of_exec hp') hsaved (.of_exec_meets hmeets hq)).1
    (h 1 heldStore q hs hrun hfinished))

end NbeAdvisor
