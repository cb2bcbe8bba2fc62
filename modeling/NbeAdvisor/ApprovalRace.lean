import NbeAdvisor.LedgerViews
import NbeAdvisor.Pipeline

/-!
# Approvals of one statement at once

`StatementTransactionApprovalView.post` one database statement at a time. What the atomic
block inserts is `uncommitted` until it commits with the status : its own lookups see it,
those of others do not, and an insert of another block that hits it through the unique
constraint waits. Alone it is the approval of `LedgerViews` (`Approval.alone`).

The status is checked before the block, so that two approvals may both pass the check. If
every commit still finds the statement normalized, one approval at most succeeds, and the
ledger ends with the rows of its batch and no other new row (`approvals_once`). Otherwise
the unique constraint decides, and with a null merchant both succeed
(`doubleClick_duplicates`).
-/

namespace NbeAdvisor

open Interleave

/-- The database of a statement, with the rows that open transactions have inserted, each
with the number of its thread. -/
structure ApprovalStore extends PipelineStore where
  ledger : Ledger := []
  uncommitted : List (ℕ × Transaction) := []
  deriving DecidableEq

namespace ApprovalStore

variable {w : ApprovalStore} {i j : ℕ} {t : Transaction}

/-- The uncommitted rows of a thread. -/
def own (w : ApprovalStore) (i : ℕ) : Ledger :=
  (w.uncommitted.filter fun x => x.1 = i).map Prod.snd

/-- What the lookups of a thread see. -/
def visible (w : ApprovalStore) (i : ℕ) : Ledger := w.ledger ++ w.own i

/-- An insert in the transaction of thread `i`, of the row as the columns cut it. It waits while
another open transaction has a row that the unique constraint sets against it. -/
def insert (w : ApprovalStore) (i : ℕ) (d : TransactionDraft) :
    Option (Except DbError Transaction) :=
  if ¬d.cut.Fits then some (.error .dataError)
  else if d.cut.key.Enforced ∧ d.cut.key ∈ (w.visible i).keys then some (.error .integrityError)
  else if d.cut.key.Enforced ∧ ∃ x ∈ w.uncommitted, x.2.key = d.cut.key then none
  else some (.ok ⟨d.cut, Ledger.freshId (w.ledger ++ w.uncommitted.map Prod.snd)⟩)

/-- The transaction of thread `i` holds a new row. -/
def hold (w : ApprovalStore) (i : ℕ) (t : Transaction) : ApprovalStore :=
  { w with uncommitted := w.uncommitted ++ [(i, t)] }

/-- Its rows are gone. -/
def rollback (w : ApprovalStore) (i : ℕ) : ApprovalStore :=
  { w with uncommitted := w.uncommitted.filter fun x => x.1 ≠ i }

/-- Its rows and the status are there for all. -/
def commit (w : ApprovalStore) (i : ℕ) : ApprovalStore :=
  { w.rollback i with statement := w.statement.approve, ledger := w.visible i }

/-- `save(update_fields=["account"])` of the copy `s`. -/
def saveAccount (w : ApprovalStore) (s : StatementFile) : ApprovalStore :=
  { w with statement := { w.statement with account := s.account } }

/-- An inserted row is the draft as it is stored. -/
theorem insert_ok {d : TransactionDraft} (h : w.insert i d = some (.ok t)) :
    ∃ id, t = ⟨d.cut, id⟩ := by
  unfold insert at h
  split at h
  · cases h
  split at h
  · cases h
  split at h
  · cases h
  · cases h
    exact ⟨_, rfl⟩

/-- What the thread has inserted. -/
theorem own_hold_self : (w.hold i t).own i = w.own i ++ [t] := by
  simp [own, hold]

/-- The others have not. -/
theorem own_hold_ne (h : j ≠ i) : (w.hold i t).own j = w.own j := by
  simp [own, hold, h.symm]

/-- After a rollback nothing of the thread is left. -/
theorem own_rollback_self : (w.rollback i).own i = [] := by
  simp [own, rollback]

/-- The others keep what they have inserted. -/
theorem own_rollback_ne (h : j ≠ i) : (w.rollback i).own j = w.own j := by
  simp only [own, rollback, List.filter_filter]
  congr 1
  refine List.filter_congr fun x _ => ?_
  by_cases hx : x.1 = j
  · simp [hx, h]
  · simp [hx]

end ApprovalStore

/-! ## The view -/

/-- The locals of the view once it has an account. -/
structure ApprovalFrame where
  statement : StatementFile
  account : BankAccount
  submitted : List TransactionApprovalItem
  resolved : List ApprovalResult := []
  deriving DecidableEq

namespace ApprovalFrame

/-- The columns of the row that the item is created as. -/
def draft (tax : Taxonomy) (f : ApprovalFrame) (row : TransactionApprovalItem) : TransactionDraft :=
  row.draft tax f.statement f.account

/-- The serializer has let the rows through. -/
def Checked (f : ApprovalFrame) : Prop := ∀ row ∈ f.submitted, row.Validated

/-- The rows that the batch asks for. -/
def drafts (tax : Taxonomy) (f : ApprovalFrame) : List TransactionDraft :=
  f.submitted.map (f.draft tax)

/-- The item is added to what the response tells. -/
def resolve (f : ApprovalFrame) (row : TransactionApprovalItem)
    (transactionId duplicateOf : Option TransactionId) : ApprovalFrame :=
  { f with resolved := f.resolved ++ [row.resolved transactionId duplicateOf] }

end ApprovalFrame

/-- An approval, at its next statement or call. -/
inductive Approval where
  | arrived (user : UserId) (accountId : Option AccountId)
      (transactions : List TransactionApprovalItem)
  | findingAccount (statement : StatementFile) (accountId : Option AccountId)
      (submitted : List TransactionApprovalItem)
  | savingAccount (f : ApprovalFrame)
  /-- The lookup for the first of `rest`, or the commit if there is none. -/
  | lookingUp (f : ApprovalFrame) (rest : List TransactionApprovalItem)
  | inserting (f : ApprovalFrame) (row : TransactionApprovalItem)
      (rest : List TransactionApprovalItem)
  | embedding (f : ApprovalFrame)
  | succeeded (f : ApprovalFrame)
  | refused (e : ApiError)
  deriving DecidableEq

/-- How a statement or call turns out. -/
inductive ApprovalReply where
  | done
  | aiServiceError
  | raises
  deriving DecidableEq, Repr

namespace ApprovalFrame

/-- `assert_account_mutable`, then the atomic block. -/
def enter (f : ApprovalFrame) : Approval :=
  match f.account.assertAccountMutable with
  | .error e => .refused (.businessRule e)
  | .ok () => .lookingUp f f.submitted

/-- After the block, the new rows are embedded. -/
def leave (f : ApprovalFrame) : Approval :=
  if f.resolved.any fun row => row.transactionId.isSome then .embedding f else .succeeded f

end ApprovalFrame

namespace Approval

/-- The request has been answered. -/
def Ended : Approval → Prop
  | succeeded _ | refused _ => True
  | _ => False

instance : DecidablePred Ended
  | succeeded _ | refused _ => .isTrue trivial
  | arrived _ _ _ | findingAccount _ _ _ | savingAccount _ | lookingUp _ _ | inserting _ _ _
  | embedding _ => .isFalse id

/-- Answered with success. -/
def Succeeded : Approval → Prop
  | succeeded _ => True
  | _ => False

instance : DecidablePred Succeeded
  | succeeded _ => .isTrue trivial
  | arrived _ _ _ | findingAccount _ _ _ | savingAccount _ | lookingUp _ _ | inserting _ _ _
  | embedding _ | refused _ => .isFalse id

/-- One statement or call of the view. -/
def step (tax : Taxonomy) (i : ℕ) (w : ApprovalStore) :
    Approval → ApprovalReply → Option (ApprovalStore × Approval)
  | arrived user accountId transactions, .done =>
    if w.statement.user ≠ user then some (w, .refused .notFound)
    else
      match awaitsApproval w.statement with
      | .error e => some (w, .refused e)
      | .ok () =>
        if ¬∀ row ∈ transactions, row.Valid then some (w, .refused .validation)
        else
          some (w, .findingAccount w.statement accountId
            (transactions.map TransactionApprovalItem.validated))
  | findingAccount statement accountId submitted, .done =>
    match statement.confirmAccount w.accounts accountId with
    | .error e => some (w, .refused e)
    | .ok (confirmed, account) =>
      if accountId.isSome then some (w, .savingAccount ⟨confirmed, account, submitted, []⟩)
      else some (w, ApprovalFrame.enter ⟨confirmed, account, submitted, []⟩)
  | savingAccount f, .done => some (w.saveAccount f.statement, f.enter)
  | lookingUp f [], .done => some (w.commit i, f.leave)
  | lookingUp f (row :: rest), .done =>
    match (w.visible i).lookup (f.draft tax row).key with
    | some existing => some (w, .lookingUp (f.resolve row none existing.id) rest)
    | none => some (w, .inserting f row rest)
  | inserting f row rest, .done =>
    match w.insert i (f.draft tax row) with
    | none => none
    | some (.error e) => some (w.rollback i, .refused (.database e))
    | some (.ok created) =>
      some (w.hold i created, .lookingUp (f.resolve row created.id none) rest)
  | embedding f, .done | embedding f, .aiServiceError => some (w, .succeeded f)
  | embedding _, .raises => some (w, .refused .serverError)
  | arrived _ _ _, .raises | findingAccount _ _ _, .raises | savingAccount _, .raises =>
    some (w, .refused .serverError)
  | lookingUp _ _, .raises | inserting _ _ _, .raises =>
    some (w.rollback i, .refused .serverError)
  | _, _ => none

end Approval

/-! ## What a step can be -/

namespace Approval

/-- The atomic block is ahead. -/
def BeforeBlock : Approval → Prop
  | arrived _ _ _ | findingAccount _ _ _ | savingAccount _ => True
  | _ => False

/-- The atomic block is open. -/
def InBlock : Approval → Prop
  | lookingUp _ _ | inserting _ _ _ => True
  | _ => False

/-- The approval has committed. -/
def Committed : Approval → Prop
  | embedding _ | succeeded _ => True
  | _ => False

/-- The step is the commit of the block. -/
def commits : Approval → ApprovalReply → Bool
  | lookingUp _ [], .done => true
  | _, _ => false

/-- The embedding raises something other than an `AIServiceError`, so that the rows are
committed and the response is lost. -/
def losesResponse : Approval → ApprovalReply → Bool
  | embedding _, .raises => true
  | _, _ => false

/-- The commit is behind the last row. -/
theorem commits_iff {t : Approval} {r : ApprovalReply} :
    t.commits r = true ↔ r = .done ∧ ∃ f, t = .lookingUp f [] := by
  constructor
  · intro h
    unfold commits at h
    split at h
    · exact ⟨rfl, _, rfl⟩
    · cases h
  · rintro ⟨rfl, f, rfl⟩
    rfl

/-- The steps of an approval by what they do to the store. -/
inductive Moves (tax : Taxonomy) (i : ℕ) (w : ApprovalStore) :
    Approval → ApprovalReply → ApprovalStore → Approval → Prop where
  | refuse {t : Approval} {r : ApprovalReply} (e : ApiError) : t.BeforeBlock →
      Moves tax i w t r w (.refused e)
  | check (user : UserId) (accountId : Option AccountId)
      (transactions : List TransactionApprovalItem) : w.statement.status = .normalized →
      (∀ row ∈ transactions, row.Valid) →
      Moves tax i w (.arrived user accountId transactions) .done w
        (.findingAccount w.statement accountId
          (transactions.map TransactionApprovalItem.validated))
  | find (statement : StatementFile) (accountId : Option AccountId) (f : ApprovalFrame) :
      Moves tax i w (.findingAccount statement accountId f.submitted) .done w (.savingAccount f)
  | enter (statement : StatementFile) (accountId : Option AccountId) (f : ApprovalFrame) :
      Moves tax i w (.findingAccount statement accountId f.submitted) .done w f.enter
  | save (f : ApprovalFrame) :
      Moves tax i w (.savingAccount f) .done (w.saveAccount f.statement) f.enter
  | skip (f : ApprovalFrame) {row : TransactionApprovalItem}
      {rest : List TransactionApprovalItem} (id : TransactionId) :
      (f.draft tax row).key ∈ (w.visible i).keys →
      Moves tax i w (.lookingUp f (row :: rest)) .done w
        (.lookingUp (f.resolve row none id) rest)
  | miss (f : ApprovalFrame) {row : TransactionApprovalItem}
      {rest : List TransactionApprovalItem} : (f.draft tax row).key ∉ (w.visible i).keys →
      Moves tax i w (.lookingUp f (row :: rest)) .done w (.inserting f row rest)
  | insert (f : ApprovalFrame) (row : TransactionApprovalItem)
      (rest : List TransactionApprovalItem) (id : TransactionId) :
      Moves tax i w (.inserting f row rest) .done (w.hold i ⟨(f.draft tax row).cut, id⟩)
        (.lookingUp (f.resolve row id none) rest)
  | rollback {t : Approval} {r : ApprovalReply} (e : ApiError) : t.InBlock → t.commits r = false →
      Moves tax i w t r (w.rollback i) (.refused e)
  | commit (f : ApprovalFrame) : Moves tax i w (.lookingUp f []) .done (w.commit i) f.leave
  | succeed (f : ApprovalFrame) (r : ApprovalReply) :
      Moves tax i w (.embedding f) r w (.succeeded f)
  | fail (f : ApprovalFrame) : Moves tax i w (.embedding f) .raises w (.refused .serverError)

variable {tax : Taxonomy} {i : ℕ} {w w' : ApprovalStore} {t t' : Approval} {r : ApprovalReply}

/-- Every statement of an approval is one of its moves. -/
theorem step_moves (hs : t.step tax i w r = some (w', t')) : Moves tax i w t r w' t' := by
  unfold step at hs
  split at hs
  case h_1 user accountId transactions =>
    split at hs
    · cases hs
      exact .refuse _ trivial
    split at hs
    · cases hs
      exact .refuse _ trivial
    next hcheck =>
    split at hs
    · cases hs
      exact .refuse _ trivial
    · next hvalid =>
      cases hs
      refine .check user accountId transactions ?_ (not_not.1 hvalid)
      by_contra hno
      simp [awaitsApproval, hno] at hcheck
  case h_2 statement accountId submitted =>
    split at hs
    · cases hs
      exact .refuse _ trivial
    next confirmed account _ =>
    split at hs
    · cases hs
      exact .find statement accountId ⟨confirmed, account, submitted, []⟩
    · cases hs
      exact .enter statement accountId ⟨confirmed, account, submitted, []⟩
  case h_3 f =>
    cases hs
    exact .save f
  case h_4 f =>
    cases hs
    exact .commit f
  case h_5 f row rest =>
    split at hs
    · next hk =>
      cases hs
      exact .skip f _ (Ledger.mem_keys_of_lookup hk)
    · next hk =>
      cases hs
      exact .miss f (Ledger.lookup_eq_none.1 hk)
  case h_6 f row rest =>
    split at hs
    · cases hs
    · cases hs
      exact .rollback _ trivial rfl
    · next created hins =>
      cases hs
      obtain ⟨id, rfl⟩ := ApprovalStore.insert_ok hins
      exact .insert f row rest id
  case h_7 f =>
    cases hs
    exact .succeed f _
  case h_8 f =>
    cases hs
    exact .succeed f _
  case h_9 f =>
    cases hs
    exact .fail f
  case h_10 | h_11 | h_12 =>
    cases hs
    exact .refuse _ trivial
  case h_13 f rest =>
    cases hs
    exact .rollback _ trivial (by cases rest <;> rfl)
  case h_14 =>
    cases hs
    exact .rollback _ trivial rfl
  case h_15 => cases hs

/-- The atomic block begins, or the approval is refused. -/
theorem enter_cases (f : ApprovalFrame) :
    (∃ e, f.enter = .refused e) ∨ f.enter = .lookingUp f f.submitted := by
  unfold ApprovalFrame.enter
  split
  · exact Or.inl ⟨_, rfl⟩
  · exact Or.inr rfl

/-- A step other than the commit of thread `i` leaves the ledger, the status and what other
threads hold. -/
structure Private (i : ℕ) (w w' : ApprovalStore) : Prop where
  ledger : w'.ledger = w.ledger
  status : w'.statement.status = w.statement.status
  own : ∀ j, j ≠ i → w'.own j = w.own j

/-- What the commit does. -/
theorem Moves.of_commits (h : Moves tax i w t r w' t') (hc : t.commits r = true) :
    ∃ f, t = .lookingUp f [] ∧ w' = w.commit i ∧ t' = f.leave := by
  obtain ⟨rfl, f, rfl⟩ := commits_iff.1 hc
  cases h with
  | commit f => exact ⟨f, rfl, rfl, rfl⟩
  | refuse e hb => exact hb.elim
  | rollback e hb hno => cases hno

/-- Before it nobody else sees anything. -/
theorem Moves.private (h : Moves tax i w t r w' t') (hc : t.commits r = false) : Private i w w' := by
  cases h with
  | commit f => cases hc
  | insert f row rest id => exact ⟨rfl, rfl, fun _ hj => ApprovalStore.own_hold_ne hj⟩
  | rollback e => exact ⟨rfl, rfl, fun _ hj => ApprovalStore.own_rollback_ne hj⟩
  | save f => exact ⟨rfl, rfl, fun _ _ => rfl⟩
  | refuse | check | find | enter | skip | miss | succeed | fail => exact ⟨rfl, rfl, fun _ _ => rfl⟩

/-- Behind the commit there is no way back. -/
theorem leave_committed (f : ApprovalFrame) : f.leave = .embedding f ∨ f.leave = .succeeded f := by
  unfold ApprovalFrame.leave
  split
  · exact Or.inl rfl
  · exact Or.inr rfl

end Approval

/-! ## Alone -/

namespace ApprovalStore

variable {w : ApprovalStore} {i : ℕ} {M : Ledger}

/-- What only one thread has inserted is its own. -/
theorem own_of_uncommitted (h : w.uncommitted = M.map (Prod.mk i)) : w.own i = M := by
  simp [own, h, List.filter_map, Function.comp_def]

/-- With no other transaction open, the insert is `create`. -/
theorem insert_alone (h : w.uncommitted = M.map (Prod.mk i)) (d : TransactionDraft) :
    w.insert i d = some (Ledger.create (w.ledger ++ M) d) := by
  have hids : w.uncommitted.map Prod.snd = M := by simp [h, Function.comp_def]
  have hconflict : (∃ x ∈ w.uncommitted, x.2.key = d.cut.key) →
      d.cut.key ∈ Ledger.keys (w.ledger ++ M) := by
    rintro ⟨x, hx, hk⟩
    rw [Ledger.keys_append, List.mem_append]
    refine Or.inr (List.mem_map.2 ⟨x.2, ?_, hk⟩)
    rw [← hids]
    exact List.mem_map_of_mem hx
  unfold insert Ledger.create visible
  rw [own_of_uncommitted h, hids]
  split
  · rfl
  split
  · rfl
  next hno =>
  rw [if_neg fun hc => hno ⟨hc.1, hconflict hc.2⟩]

/-- Its rollback leaves nothing uncommitted. -/
theorem rollback_alone (h : w.uncommitted = M.map (Prod.mk i)) :
    w.rollback i = { w with uncommitted := [] } := by
  simp [rollback, h]

end ApprovalStore

namespace Approval

variable {tax : Taxonomy} {i : ℕ}

/-- The response, once there is one. -/
def answer : Approval → Option (Except ApiError (List ApprovalResult))
  | succeeded f => some (.ok f.resolved)
  | refused e => some (.error e)
  | _ => none

/-- The embedding does not fail the approval. -/
theorem leave_alone (w : ApprovalStore) (f : ApprovalFrame) :
    Drives (step tax i) (w, f.leave) (w, .succeeded f) := by
  rcases leave_committed f with hf | hf <;> rw [hf]
  · exact .head .done rfl (.refl _ _)
  · exact .refl _ _

/-- Where the atomic block leaves the store and the view. -/
def blockEnd (w : ApprovalStore) (f : ApprovalFrame) :
    Except DbError (Ledger × List ApprovalResult) → ApprovalStore × Approval
  | .ok (L, resolved) =>
    ({ w with statement := w.statement.approve, ledger := L, uncommitted := [] },
      .succeeded { f with resolved })
  | .error e => ({ w with uncommitted := [] }, .refused (.database e))

/-- The end of the block, after an item that is resolved. -/
theorem blockEnd_resolve (w : ApprovalStore) (f : ApprovalFrame) (row : TransactionApprovalItem)
    (transactionId duplicateOf : Option TransactionId)
    (result : Except DbError (Ledger × List ApprovalResult)) :
    blockEnd w (f.resolve row transactionId duplicateOf) result = blockEnd w f result := by
  cases result <;> rfl

/-- The end of the block does not depend on what is held. -/
theorem blockEnd_hold (w : ApprovalStore) (t : Transaction) (f : ApprovalFrame)
    (result : Except DbError (Ledger × List ApprovalResult)) :
    blockEnd (w.hold i t) f result = blockEnd w f result := by
  cases result <;> rfl

/-- Undisturbed the block comes to what the loop computes. -/
theorem block_alone : ∀ (rows : List TransactionApprovalItem) (w : ApprovalStore)
    (f : ApprovalFrame) (M : Ledger), w.uncommitted = M.map (Prod.mk i) →
    Drives (step tax i) (w, .lookingUp f rows) (blockEnd w f
      (approveRows tax f.statement f.account (w.ledger ++ M, f.resolved) rows))
  | [], w, f, M, h => by
    refine .head .done rfl ?_
    have hcommit : (w.commit i, Approval.succeeded f) = blockEnd w f (.ok (w.ledger ++ M, f.resolved)) := by
      rw [ApprovalStore.commit, ApprovalStore.visible, ApprovalStore.own_of_uncommitted h,
        ApprovalStore.rollback_alone h]
      rfl
    rw [approveRows, ← hcommit]
    exact leave_alone _ f
  | row :: rows, w, f, M, h => by
    have hvis : w.visible i = w.ledger ++ M := by
      rw [ApprovalStore.visible, ApprovalStore.own_of_uncommitted h]
    cases hk : Ledger.lookup (w.ledger ++ M) (f.draft tax row).key with
    | some existing =>
      have hstep : step tax i w (.lookingUp f (row :: rows)) .done =
          some (w, .lookingUp (f.resolve row none existing.id) rows) := by
        rw [step, hvis, hk]
      have hrest := block_alone rows w (f.resolve row none existing.id) M h
      rw [blockEnd_resolve] at hrest
      rw [approveRows_skip rows hk]
      exact .head .done hstep hrest
    | none =>
      have hmiss : step tax i w (.lookingUp f (row :: rows)) .done = some (w, .inserting f row rows) := by
        rw [step, hvis, hk]
      have hins := ApprovalStore.insert_alone h (f.draft tax row)
      cases hc : Ledger.create (w.ledger ++ M) (f.draft tax row) with
      | error e =>
        have hstep : step tax i w (.inserting f row rows) .done =
            some (w.rollback i, .refused (.database e)) := by
          rw [step, hins, hc]
        rw [ApprovalStore.rollback_alone h] at hstep
        rw [approveRows_error rows hk hc]
        exact .head .done hmiss (.head .done hstep (.refl _ _))
      | ok created =>
        have hhold : (w.hold i created).uncommitted = (M ++ [created]).map (Prod.mk i) := by
          simp [ApprovalStore.hold, h]
        have hstep : step tax i w (.inserting f row rows) .done =
            some (w.hold i created, .lookingUp (f.resolve row created.id none) rows) := by
          rw [step, hins, hc]
        have hrest := block_alone rows (w.hold i created) (f.resolve row created.id none)
          (M ++ [created]) hhold
        rw [blockEnd_resolve, blockEnd_hold] at hrest
        rw [approveRows_create rows hk hc, List.append_assoc]
        exact .head .done hmiss (.head .done hstep hrest)

/-- The account is found, and saved if the body names it. -/
theorem find_alone {w : ApprovalStore} {accountId : Option AccountId} {f : ApprovalFrame}
    (h : w.statement.confirmAccount w.accounts accountId = .ok (f.statement, f.account))
    (hf : f.resolved = []) :
    Drives (step tax i) (w, .findingAccount w.statement accountId f.submitted)
      ({ w with statement := f.statement }, f.enter) := by
  obtain ⟨hc, hnone⟩ := StatementFile.confirmAccount_ok h
  have hframe : (⟨f.statement, f.account, f.submitted, []⟩ : ApprovalFrame) = f := by rw [← hf]
  cases accountId with
  | none =>
    have hstep : step tax i w (.findingAccount w.statement none f.submitted) .done =
        some (w, f.enter) := by
      simp [step, h, hframe]
    rw [hnone rfl]
    exact .head .done hstep (.refl _ _)
  | some id =>
    have hstep : step tax i w (.findingAccount w.statement (some id) f.submitted) .done =
        some (w, .savingAccount f) := by
      simp [step, h, hframe]
    have hsave : step tax i w (.savingAccount f) .done =
        some ({ w with statement := f.statement }, f.enter) := by
      rw [step, ApprovalStore.saveAccount, ← hc]
    exact .head .done hstep (.head .done hsave (.refl _ _))

/-- Alone, the steps are `approveTransactions`. -/
theorem alone (tax : Taxonomy) (i : ℕ) {w : ApprovalStore} (hw : w.uncommitted = [])
    {accountId : Option AccountId} {transactions : List TransactionApprovalItem}
    {s : StatementFile} {L : Ledger} {response : Except ApiError (List ApprovalResult)}
    (h : approveTransactions tax w.accounts w.statement w.ledger accountId transactions =
      (s, L, response)) :
    ∃ t, t.answer = some response ∧
      Drives (step tax i) (w, .arrived w.statement.user accountId transactions)
        ({ w with statement := s, ledger := L }, t) := by
  unfold approveTransactions at h
  split at h
  · next e hcheck =>
    cases h
    exact ⟨.refused e, rfl, .head .done (by simp [step, hcheck]) (.refl _ _)⟩
  next hcheck =>
  split at h
  · next hvalid =>
    cases h
    refine ⟨.refused .validation, rfl, .head .done (?_ : _ = some (w, _)) (.refl _ _)⟩
    simp only [step, hcheck, if_pos hvalid]
    simp
  next hvalid =>
  have harrived : step tax i w (.arrived w.statement.user accountId transactions) .done =
      some (w, .findingAccount w.statement accountId
        (transactions.map TransactionApprovalItem.validated)) := by
    simp only [step, hcheck, if_neg hvalid]
    simp
  split at h
  · next e hfind =>
    cases h
    refine ⟨.refused e, rfl, .head .done harrived (.head .done ?_ (.refl _ _))⟩
    simp only [step, hfind]
  next confirmed account hfind =>
  have hentered := Drives.head .done harrived (@find_alone tax i w accountId
    ⟨confirmed, account, transactions.map TransactionApprovalItem.validated, []⟩ hfind rfl)
  split at h
  · next e hmut =>
    cases h
    refine ⟨.refused (.businessRule e), rfl, ?_⟩
    rwa [ApprovalFrame.enter, hmut] at hentered
  next hmut =>
  have hblock := @block_alone tax i
    (transactions.map TransactionApprovalItem.validated) { w with statement := confirmed }
    ⟨confirmed, account, transactions.map TransactionApprovalItem.validated, []⟩ [] hw
  rw [ApprovalFrame.enter, hmut] at hentered
  have hend := hentered.trans hblock
  rw [List.append_nil] at hend
  split at h
  · next e hrows =>
    cases h
    refine ⟨.refused (.database e), rfl, ?_⟩
    rw [hrows, blockEnd, ← hw] at hend
    exact hend
  · next L' resolved hrows =>
    cases h
    refine ⟨.succeeded
      ⟨confirmed, account, transactions.map TransactionApprovalItem.validated, resolved⟩, rfl, ?_⟩
    rw [hrows, blockEnd, ← hw] at hend
    exact hend

end Approval

/-- Approvals of one statement, any number of which may be posted at any time. -/
def approvalSystem (tax : Taxonomy) : System ApprovalStore Approval ApprovalReply where
  step i w t r := (Approval.step tax i w t r).map fun x => (x.1, x.2, [])
  arrives t := ∃ user accountId transactions, t = .arrived user accountId transactions

instance (tax : Taxonomy) : DecidablePred (approvalSystem tax).arrives
  | .arrived user accountId transactions => .isTrue ⟨user, accountId, transactions, rfl⟩
  | .findingAccount _ _ _ | .savingAccount _ | .lookingUp _ _ | .inserting _ _ _ | .embedding _
  | .succeeded _ | .refused _ => .isFalse (by rintro ⟨_, _, _, h⟩; cases h)

/-- An approval commits while the statement is still normalized, as it was at its check, and
an embedding of committed rows fails with an `AIServiceError` if it fails. -/
def CommitsInTime (p : Pool ApprovalStore Approval) : Action Approval ApprovalReply → Prop
  | .run i r => ∀ t ∈ p.threads[i]?,
      (t.commits r = true → p.store.statement.status = .normalized) ∧ t.losesResponse r = false
  | .arrive _ => True

instance (p : Pool ApprovalStore Approval) : DecidablePred (CommitsInTime p)
  | .run i r => inferInstanceAs (Decidable (∀ t ∈ p.threads[i]?,
      (t.commits r = true → p.store.statement.status = .normalized) ∧ t.losesResponse r = false))
  | .arrive _ => .isTrue trivial

/-! ## One approval succeeds -/

section Race

variable {tax : Taxonomy} {L own : Ledger} {f : ApprovalFrame} {row : TransactionApprovalItem}
  {done : List TransactionApprovalItem}

/-- The rows `own` are those that the items `done` add to the ledger `L`. -/
def Inserted (tax : Taxonomy) (L own : Ledger) (f : ApprovalFrame)
    (done : List TransactionApprovalItem) : Prop :=
  own.drafts = Ledger.ledgerTable.firsts L.keys (done.map (f.draft tax))

/-- The keys that the ledger and the batch have by now. -/
theorem Inserted.keys (h : Inserted tax L own f done) : L.keys ++ (Ledger.ledgerTable.firsts L.keys
    (done.map (f.draft tax))).map Ledger.ledgerTable.keyOf = Ledger.keys (L ++ own) := by
  rw [← h, Ledger.keys_append]
  exact congrArg _ own.keys_drafts

/-- An item that is there inserts nothing. -/
theorem Inserted.skip (h : Inserted tax L own f done)
    (hk : (f.draft tax row).key ∈ Ledger.keys (L ++ own)) : Inserted tax L own f (done ++ [row]) := by
  unfold Inserted
  rw [List.map_append, List.map_singleton, Keyed.Table.firsts_snoc_of_mem (h.keys ▸ hk)]
  exact h

/-- A new item inserts its row. -/
theorem Inserted.snoc (h : Inserted tax L own f done)
    (hk : (f.draft tax row).key ∉ Ledger.keys (L ++ own)) (id : TransactionId) :
    Inserted tax L (own ++ [⟨f.draft tax row, id⟩]) f (done ++ [row]) := by
  unfold Inserted
  rw [List.map_append, List.map_singleton, Keyed.Table.firsts_snoc_of_not_mem (h.keys ▸ hk),
    Ledger.drafts_append, h]
  rfl

/-- Each key of the batch has one row afterwards, unless it had several. -/
theorem Inserted.count (h : Inserted tax L own f done) {k : TransactionKey}
    (hk : k ∈ done.map fun row => (f.draft tax row).key) (hL : L.keys.count k ≤ 1) :
    (Ledger.keys (L ++ own)).count k = 1 := by
  have hkeys : Ledger.keys (L ++ own) =
      Ledger.keys (Ledger.ledgerTable.absorbAll L (done.map (f.draft tax))) := by
    rw [← h.keys]
    exact (Keyed.Table.keys_absorbAll (T := Ledger.ledgerTable) L _).symm
  rw [hkeys, Ledger.count_keys_absorbAll]
  split
  · next hmem =>
    have := List.count_pos_iff.2 hmem
    omega
  · rw [if_pos]
    rw [List.map_map]
    exact hk

/-- What an approval has inserted while none has committed. -/
def Approval.Holds (tax : Taxonomy) (L own : Ledger) : Approval → Prop
  | lookingUp f rest => f.Checked ∧ ∃ done, f.submitted = done ++ rest ∧ Inserted tax L own f done
  | inserting f row rest => f.Checked ∧ ∃ done, f.submitted = done ++ row :: rest ∧
      Inserted tax L own f done ∧ (f.draft tax row).key ∉ Ledger.keys (L ++ own)
  | embedding _ | succeeded _ => False
  | findingAccount _ _ submitted => own = [] ∧ ∀ row ∈ submitted, row.Validated
  | savingAccount f => own = [] ∧ f.Checked
  | arrived _ _ _ | refused _ => own = []

/-- At its start the block has inserted nothing. -/
theorem Approval.enter_holds (hf : f.Checked) : f.enter.Holds tax L [] := by
  rcases enter_cases f with ⟨e, he⟩ | he <;> rw [he]
  · rfl
  · exact ⟨hf, [], rfl, rfl⟩

/-- While the block is ahead, nothing is inserted. -/
theorem Approval.Holds.of_beforeBlock {t : Approval} (h : t.Holds tax L own) (hb : t.BeforeBlock) :
    own = [] := by
  cases t with
  | arrived user accountId transactions => exact h
  | findingAccount statement accountId submitted => exact h.1
  | savingAccount f => exact h.1
  | lookingUp | inserting | embedding | succeeded | refused => exact hb.elim

/-- A step keeps it, other than the commit. -/
theorem Approval.Moves.holds {i : ℕ} {w w' : ApprovalStore} {t t' : Approval} {r : ApprovalReply}
    (h : Moves tax i w t r w' t') (ht : t.Holds tax w.ledger (w.own i))
    (hc : t.commits r = false) : t'.Holds tax w.ledger (w'.own i) := by
  cases h with
  | refuse e hb => exact ht.of_beforeBlock hb
  | check user accountId transactions hn hvalid =>
    refine ⟨ht, fun row hrow => ?_⟩
    obtain ⟨raw, hraw, rfl⟩ := List.mem_map.1 hrow
    exact ⟨raw, hvalid raw hraw, rfl⟩
  | find statement accountId f => exact ht
  | enter statement accountId f =>
    rw [ht.1]
    exact enter_holds ht.2
  | save f =>
    have hown : (w.saveAccount f.statement).own i = [] := ht.1
    rw [hown]
    exact enter_holds ht.2
  | skip f id hk =>
    obtain ⟨hf, done, hsub, hins⟩ := ht
    exact ⟨hf, done ++ [_], by rw [List.append_assoc]; exact hsub, hins.skip hk⟩
  | miss f hk =>
    obtain ⟨hf, done, hsub, hins⟩ := ht
    exact ⟨hf, done, hsub, hins, hk⟩
  | insert f row rest id =>
    obtain ⟨hf, done, hsub, hins, hk⟩ := ht
    have hrow : row ∈ f.submitted := by
      rw [hsub]
      exact List.mem_append_right _ List.mem_cons_self
    have hcut : (f.draft tax row).cut = f.draft tax row :=
      (hf row hrow).draft_cut tax f.statement f.account
    refine ⟨hf, done ++ [row], by rw [List.append_assoc]; exact hsub, ?_⟩
    rw [ApprovalStore.own_hold_self, hcut]
    exact hins.snoc hk id
  | rollback e hb => exact ApprovalStore.own_rollback_self
  | commit f => cases hc
  | succeed f r => exact ht.elim
  | fail f => exact ht.elim

/-- No approval has committed. -/
structure Undecided (tax : Taxonomy) (L : Ledger) (p : Pool ApprovalStore Approval) : Prop where
  status : p.store.statement.status = .normalized
  ledger : p.store.ledger = L
  holds : ∀ (j : ℕ) (t : Approval), p.threads[j]? = some t → t.Holds tax L (p.store.own j)
  nobody : ∀ j, p.threads.length ≤ j → p.store.own j = []

/-- Approval `i` has committed the batch of `f`, and no other has. -/
structure Decided (tax : Taxonomy) (L : Ledger) (p : Pool ApprovalStore Approval) (i : ℕ)
    (f : ApprovalFrame) : Prop where
  status : p.store.statement.status = .approved
  winner : p.threads[i]? = some (.embedding f) ∨ p.threads[i]? = some (.succeeded f)
  only : ∀ (j : ℕ) (t : Approval), p.threads[j]? = some t → t.Committed → j = i
  ledger : ∃ created, p.store.ledger = L ++ created ∧ Inserted tax L created f f.submitted

/-- A step that ends in a committed approval starts in one, or is the commit. -/
theorem Approval.Moves.committed {i : ℕ} {w w' : ApprovalStore} {t t' : Approval}
    {r : ApprovalReply} (h : Moves tax i w t r w' t') (hc : t.commits r = false)
    (ht' : t'.Committed) : t.Committed := by
  cases h with
  | enter statement accountId f =>
    rcases enter_cases f with ⟨e, he⟩ | he <;> rw [he] at ht' <;> exact ht'.elim
  | save f => rcases enter_cases f with ⟨e, he⟩ | he <;> rw [he] at ht' <;> exact ht'.elim
  | commit f => cases hc
  | succeed f r => trivial
  | refuse | check | find | skip | miss | insert | rollback | fail => exact ht'.elim

/-- The winner goes on to its success. -/
theorem Approval.Moves.winner {i : ℕ} {w w' : ApprovalStore} {t t' : Approval}
    {r : ApprovalReply} (h : Moves tax i w t r w' t') (ht : t = .embedding f ∨ t = .succeeded f)
    (hr : t.losesResponse r = false) : t' = .embedding f ∨ t' = .succeeded f := by
  rcases ht with rfl | rfl
  · cases h with
    | succeed f r => exact Or.inr rfl
    | fail f => cases hr
    | refuse e hb => exact hb.elim
    | rollback e hb => exact hb.elim
  · cases h with
    | refuse e hb => exact hb.elim
    | rollback e hb => exact hb.elim

variable {p q : Pool ApprovalStore Approval} {act : Action Approval ApprovalReply}

/-- An approval is posted, or one takes a step. -/
theorem approvalSystem_next (hn : (approvalSystem tax).Next p act q) :
    (∃ t, act = .arrive t ∧ (approvalSystem tax).arrives t ∧ q = ⟨p.store, p.threads ++ [t]⟩) ∨
    ∃ i r t w' t', act = .run i r ∧ p.threads[i]? = some t ∧ Approval.Moves tax i p.store t r w' t' ∧
      q = ⟨w', p.threads.set i t' ++ []⟩ := by
  cases hn with
  | arrive ht => exact Or.inl ⟨_, rfl, ht, rfl⟩
  | run hi hs =>
    obtain ⟨⟨w₁, t₁⟩, hstep, heq⟩ := Option.map_eq_some_iff.1 hs
    obtain ⟨rfl, rfl, rfl⟩ := by simpa using heq
    exact Or.inr ⟨_, _, _, _, _, rfl, hi, Approval.step_moves hstep, rfl⟩

/-- A step decides, or leaves it open. -/
theorem Undecided.next (h : Undecided tax L p) (hn : (approvalSystem tax).Next p act q) :
    Undecided tax L q ∨ ∃ i f, Decided tax L q i f := by
  rcases approvalSystem_next hn with ⟨t, rfl, ⟨user, accountId, transactions, rfl⟩, rfl⟩ |
    ⟨i, r, t, w', t', rfl, hi, hmoves, rfl⟩
  · refine Or.inl ⟨h.status, h.ledger, fun j u hj => ?_, fun j hj => h.nobody j ?_⟩
    · rcases getElem?_snoc hj with hj | ⟨rfl, rfl⟩
      · exact h.holds j u hj
      · exact h.nobody _ (Nat.le_refl _)
    · simp at hj
      omega
  have hlt : i < p.threads.length := (List.getElem?_eq_some_iff.1 hi).1
  have hold := h.holds i t hi
  cases hc : t.commits r
  case true =>
    obtain ⟨f, rfl, rfl, rfl⟩ := hmoves.of_commits hc
    obtain ⟨-, done, hsub, hins⟩ := hold
    rw [List.append_nil] at hsub
    refine Or.inr ⟨i, f, rfl, ?_, fun j u hj hu => ?_, p.store.own i, ?_, hsub ▸ hins⟩
    · rcases Approval.leave_committed f with hf | hf <;> simp [hf, hlt]
    · rcases getElem?_set_append hlt hj with ⟨rfl, -⟩ | ⟨-, hj⟩ | ⟨-, hmem⟩
      · rfl
      · have hu' := h.holds j u hj
        cases u <;> first | exact hu.elim | exact hu'.elim
      · simp at hmem
    · exact congrArg (· ++ p.store.own i) h.ledger
  case false =>
    have hpriv := hmoves.private hc
    rw [← h.ledger] at hold
    have hself := hmoves.holds hold hc
    rw [h.ledger] at hself
    refine Or.inl ⟨hpriv.status.trans h.status, hpriv.ledger.trans h.ledger, fun j u hj => ?_,
      fun j hj => ?_⟩
    · rcases getElem?_set_append hlt hj with ⟨rfl, rfl⟩ | ⟨hji, hj⟩ | ⟨-, hmem⟩
      · exact hself
      · rw [hpriv.own j hji]
        exact h.holds j u hj
      · simp at hmem
    · rw [List.append_nil, List.length_set] at hj
      rw [hpriv.own j (by omega)]
      exact h.nobody j hj

/-- Once decided it stays so. -/
theorem Decided.next {i : ℕ} (h : Decided tax L p i f) (hok : CommitsInTime p act)
    (hn : (approvalSystem tax).Next p act q) : Decided tax L q i f := by
  rcases approvalSystem_next hn with ⟨t, rfl, ⟨user, accountId, transactions, rfl⟩, rfl⟩ |
    ⟨j, r, t, w', t', rfl, hj, hmoves, rfl⟩
  · have hlt : i < p.threads.length := by
      rcases h.winner with hi | hi <;> exact (List.getElem?_eq_some_iff.1 hi).1
    refine ⟨h.status, ?_, fun k u hk hu => ?_, h.ledger⟩
    · rw [List.getElem?_append_left hlt]
      exact h.winner
    · rcases getElem?_snoc hk with hk | ⟨-, rfl⟩
      · exact h.only k u hk hu
      · exact hu.elim
  have hlt : j < p.threads.length := (List.getElem?_eq_some_iff.1 hj).1
  obtain ⟨hstatus, hresponse⟩ := hok t hj
  have hc : t.commits r = false := by
    by_contra hc
    have hs := hstatus (by simpa using hc)
    rw [h.status] at hs
    cases hs
  have hpriv := hmoves.private hc
  refine ⟨hpriv.status.trans h.status, ?_, fun k u hk hu => ?_, ?_⟩
  · rw [List.append_nil]
    by_cases hji : j = i
    · subst hji
      have ht : t = .embedding f ∨ t = .succeeded f := by
        rcases h.winner with hw | hw
        · exact Or.inl (Option.some.inj (hj.symm.trans hw))
        · exact Or.inr (Option.some.inj (hj.symm.trans hw))
      simpa [hlt] using hmoves.winner ht hresponse
    · rw [List.getElem?_set_ne hji]
      exact h.winner
  · rcases getElem?_set_append hlt hk with ⟨rfl, rfl⟩ | ⟨-, hk⟩ | ⟨-, hmem⟩
    · exact h.only _ t hj (hmoves.committed hc hu)
    · exact h.only k u hk hu
    · simp at hmem
  · rw [hpriv.ledger]
    exact h.ledger

/-- Approvals of a normalized statement, in any interleaving in which every commit is in
time : one at most is answered with success. If all are answered, the ledger has got the
rows of its batch, with one row for each of its keys, and no other row. -/
theorem approvals_once {w : ApprovalStore} (hw : w.statement.status = .normalized)
    (hu : w.uncommitted = []) (hrun : (approvalSystem tax).Run CommitsInTime ⟨w, []⟩ q) :
    AtMostOne Approval.Succeeded q.threads ∧ ((∀ t ∈ q.threads, t.Ended) →
      ((∀ t ∈ q.threads, ¬t.Succeeded) ∧ q.store.ledger = w.ledger) ∨
      ∃ f created, .succeeded f ∈ q.threads ∧ q.store.ledger = w.ledger ++ created ∧
        Inserted tax w.ledger created f f.submitted ∧
        ∀ k ∈ (f.drafts tax).map TransactionDraft.key, w.ledger.keys.count k ≤ 1 →
          q.store.ledger.keys.count k = 1) := by
  have hstart : Undecided tax w.ledger ⟨w, []⟩ :=
    ⟨hw, rfl, fun j t hj => by simp at hj, fun j _ => by simp [ApprovalStore.own, hu]⟩
  have h : Undecided tax w.ledger q ∨ ∃ i f, Decided tax w.ledger q i f := by
    refine hrun.invariant (I := fun p => Undecided tax w.ledger p ∨ ∃ i f, Decided tax w.ledger p i f)
      (fun p q act hp hok hn => ?_) (Or.inl hstart)
    rcases hp with hp | ⟨i, f, hp⟩
    · exact hp.next hn
    · exact Or.inr ⟨i, f, hp.next hok hn⟩
  have hcommitted : ∀ t : Approval, t.Succeeded → t.Committed := by
    intro t ht
    cases t <;> first | exact ht.elim | trivial
  rcases h with h | ⟨i, f, h⟩
  · have hnone : ∀ (j : ℕ) (t : Approval), q.threads[j]? = some t → ¬t.Succeeded := by
      intro j t hj ht
      have hold := h.holds j t hj
      cases t <;> first | exact ht.elim | exact hold.elim
    refine ⟨fun j k t u hj hk ht _ => (hnone j t hj ht).elim, fun _ => Or.inl ⟨fun t ht => ?_, h.ledger⟩⟩
    obtain ⟨j, hj⟩ := List.getElem?_of_mem ht
    exact hnone j t hj
  · refine ⟨fun j k t u hj hk ht hu => ?_, fun hend => ?_⟩
    · rw [h.only j t hj (hcommitted t ht), h.only k u hk (hcommitted u hu)]
    · obtain ⟨created, hL, hins⟩ := h.ledger
      refine Or.inr ⟨f, created, ?_, hL, hins, fun k hk hcount => ?_⟩
      · rcases h.winner with hi | hi
        · exact (hend _ (List.mem_of_getElem? hi)).elim
        · exact List.mem_of_getElem? hi
      · rw [hL]
        refine hins.count ?_ hcount
        rwa [ApprovalFrame.drafts, List.map_map] at hk

end Race

/-- A statement under review, and a purchase on it whose merchant was not read. -/
def reviewed : ApprovalStore :=
  { statement := { id := 3, user := 1, account := some 7, status := .normalized }
    accounts := [cashAccount] }

/-- A purchase of which neither a merchant nor a category was read. -/
def unreadPurchase : TransactionApprovalItem :=
  { transactionDate := paymentDay, amount := 6500, transactionType := "debit" }

/-- The user confirms, and confirms again after the answer. -/
theorem approvals_once_again :
    ∃ q, (approvalSystem noTaxonomy).Run CommitsInTime ⟨reviewed, []⟩ q ∧
      AtMostOne Approval.Succeeded q.threads := by
  have hexec : ∃ q ∈ (approvalSystem noTaxonomy).exec
      [.arrive (.arrived 1 none [unreadPurchase]), .run 0 .done, .run 0 .done, .run 0 .done,
        .run 0 .done, .run 0 .done, .run 0 .aiServiceError,
        .arrive (.arrived 1 none [unreadPurchase]), .run 1 .done] ⟨reviewed, []⟩, True := by
    decide
  obtain ⟨q, hq, -⟩ := hexec
  have hrun : (approvalSystem noTaxonomy).Run CommitsInTime ⟨reviewed, []⟩ q :=
    .of_exec_meets (by decide) hq
  exact ⟨q, hrun, (approvals_once (w := reviewed) rfl rfl hrun).1⟩

/-- A double click : both requests pass the check, and neither sees the row of the other. -/
theorem doubleClick_duplicates :
    ¬∀ (tax : Taxonomy) (w : ApprovalStore) (q : Pool ApprovalStore Approval),
      w.statement.status = .normalized → w.uncommitted = [] →
      (∃ a ∈ w.accounts, w.statement.account = some a.id ∧ a.isSynced = false) →
      (approvalSystem tax).Run (fun _ _ => True) ⟨w, []⟩ q → (∀ t ∈ q.threads, t.Ended) →
      AtMostOne Approval.Succeeded q.threads ∧ ∀ f, .succeeded f ∈ q.threads →
        ∀ k ∈ (f.drafts tax).map TransactionDraft.key, w.ledger.keys.count k ≤ 1 →
          q.store.ledger.keys.count k = 1 := by
  intro h
  have hexec : ∃ q ∈ (approvalSystem noTaxonomy).exec
      [.arrive (.arrived 1 none [unreadPurchase]), .arrive (.arrived 1 none [unreadPurchase]),
        .run 0 .done, .run 1 .done, .run 0 .done, .run 1 .done, .run 0 .done, .run 1 .done,
        .run 0 .done, .run 1 .done, .run 0 .done, .run 1 .done, .run 0 .done, .run 1 .done]
      ⟨reviewed, []⟩, (∀ t ∈ q.threads, t.Ended) ∧
      ∃ t ∈ q.threads[0]?, ∃ u ∈ q.threads[1]?, t.Succeeded ∧ u.Succeeded := by
    decide
  obtain ⟨q, hq, hend, t, ht, u, hu, hts, hus⟩ := hexec
  obtain ⟨hone, -⟩ := h noTaxonomy reviewed q rfl rfl ⟨cashAccount, by decide, rfl, rfl⟩
    (.of_exec hq) hend
  exact absurd (hone 0 1 t u ht hu hts hus) (by decide)

end NbeAdvisor
