import NbeAdvisor.ApprovalRace

/-!
# Retries, chains and approvals at once

One statement with any number of requests that advance it, chains and approvals on it, one
database statement each at a time. `advance_statement_to` reads the row, checks it, saves
the flag and enqueues the chain, and any other party can act between two of these; the
upload is such a request that has read the row it created.

The flag is meant to let one party own the statement : the request from its guards to the
enqueue, then its chain up to the final write (`Party.Owner`). It does not show between the
guards and the save, nor between two phases of a chain, which clears it after the first. If
no request passes its guards at these moments (`AdvancesAlone`), there is one owner at most
(`Exclusive`), and the status never goes back (`pipelineSafe`). Otherwise two chains can
run, and the slower one takes an approved statement back to `extracted`
(`overlap_unsafe`).
-/

namespace NbeAdvisor

open Interleave

/-! ## The parties -/

/-- `StatementDetailView.patch`, or the advance of an upload, at its next statement. -/
inductive Advance where
  | arrived (user : UserId) (target : AdvanceTarget)
  /-- The guards have passed on a copy of the row. -/
  | saving (statement : StatementFile) (target : AdvanceTarget)
  | enqueueing (target : AdvanceTarget)
  | answered (response : Except ApiError Unit)
  deriving DecidableEq

/-- Who reads and writes the statement. -/
inductive Party where
  | advance (a : Advance)
  | chain (c : Chain)
  | approval (a : Approval)
  deriving DecidableEq

/-- What a party is answered. A save or an enqueue of a request goes through, or raises. -/
inductive PartyReply where
  | advance (goesThrough : Bool)
  | chain (r : Reply)
  | approval (r : ApprovalReply)
  deriving DecidableEq

namespace Advance

/-- One statement of the request, with the chain that it starts. -/
def step (w : ApprovalStore) : Advance → Bool → Option (ApprovalStore × Advance × List Chain)
  | arrived user target, true =>
    if w.statement.user ≠ user then some (w, .answered (.error .notFound), [])
    else
      match w.statement.validateAdvance target.status with
      | .error e => some (w, .answered (.error (.businessRule e)), [])
      | .ok _ => some (w, .saving w.statement.markProcessing target, [])
  | saving s target, true =>
    some ({ w with statement := w.statement.saveProcessing s }, .enqueueing target, [])
  | enqueueing target, true => some (w, .answered (.ok ()), [.queued target.task])
  | arrived _ _, false | saving _ _, false | enqueueing _, false =>
    some (w, .answered (.error .serverError), [])
  | answered _, _ => none

end Advance

namespace Party

/-- One step of a party, with the chains that it queues. -/
def step (tax : Taxonomy) (i : ℕ) (w : ApprovalStore) :
    Party → PartyReply → Option (ApprovalStore × Party × List Party)
  | advance a, .advance r => (a.step w r).map fun x => (x.1, .advance x.2.1, x.2.2.map .chain)
  | chain c, .chain r =>
    (c.step w.toPipelineStore r).map fun x => ({ w with toPipelineStore := x.1 }, .chain x.2, [])
  | approval a, .approval r => (a.step tax i w r).map fun x => (x.1, .approval x.2, [])
  | _, _ => none

/-- The requests. Chains are started by them. -/
def Requests : Party → Prop
  | advance (.arrived _ _) | approval (.arrived _ _ _) => True
  | _ => False

instance : DecidablePred Requests
  | advance (.arrived _ _) | approval (.arrived _ _ _) => .isTrue trivial
  | advance (.saving _ _) | advance (.enqueueing _) | advance (.answered _) | chain _
  | approval (.findingAccount _ _ _) | approval (.savingAccount _) | approval (.lookingUp _ _)
  | approval (.inserting _ _ _) | approval (.embedding _) | approval (.succeeded _)
  | approval (.refused _) => .isFalse id

end Party

/-- Any requests may join at any time. -/
def overlapSystem (tax : Taxonomy) : System ApprovalStore Party PartyReply where
  step := Party.step tax
  arrives := Party.Requests

instance (tax : Taxonomy) : DecidablePred (overlapSystem tax).arrives :=
  inferInstanceAs (DecidablePred Party.Requests)

/-- Alone, a request that passes its guards leaves the flag on the row and its chain queued. -/
theorem advance_alone (tax : Taxonomy) {w : ApprovalStore} {target : AdvanceTarget} {n : ℕ}
    (h : w.statement.validateAdvance target.status = .ok n) :
    (overlapSystem tax).exec [.run 0 (.advance true), .run 0 (.advance true), .run 0 (.advance true)]
        ⟨w, [.advance (.arrived w.statement.user target)]⟩ =
      some ⟨{ w with statement := w.statement.markProcessing },
        [.advance (.answered (.ok ())), .chain (.queued target.task)]⟩ := by
  have hread : (overlapSystem tax).step 0 w (.advance (.arrived w.statement.user target))
      (.advance true) = some (w, .advance (.saving w.statement.markProcessing target), []) := by
    simp [overlapSystem, Party.step, Advance.step, h]
  simp only [System.exec, List.getElem?_cons_zero, hread]
  rfl

/-- The chain is between its first read and its final write. -/
def Chain.Between : Chain → Prop
  | queued t => 0 < t.retries
  | running p _ => p ≠ .publish
  | ended => False

instance : DecidablePred Chain.Between
  | .queued t => inferInstanceAs (Decidable (0 < t.retries))
  | .running p _ => inferInstanceAs (Decidable (p ≠ .publish))
  | .ended => .isFalse id

namespace Party

/-- A chain between its first read and its final write. -/
def Between : Party → Prop
  | chain c => c.Between
  | _ => False

/-- A request between its guards and its save, or a chain between its first read and its
final write. -/
def Underway : Party → Prop
  | advance (.saving _ _) => True
  | chain c => c.Between
  | _ => False

instance : DecidablePred Underway
  | advance (.saving _ _) => .isTrue trivial
  | chain c => inferInstanceAs (Decidable c.Between)
  | advance (.arrived _ _) | advance (.enqueueing _) | advance (.answered _) | approval _ =>
    .isFalse id

/-- The step takes a request past its guards. -/
def passesGuards (w : ApprovalStore) : Party → PartyReply → Bool
  | advance (.arrived user target), .advance true =>
    w.statement.user = user ∧ (w.statement.validateAdvance target.status).isOk
  | _, _ => false

end Party

/-- A request passes its guards only while no party is underway. -/
def AdvancesAlone (p : Pool ApprovalStore Party) : Action Party PartyReply → Prop
  | .run i r => ∀ t ∈ p.threads[i]?, t.passesGuards p.store r = true →
      ∀ u ∈ p.threads, ¬u.Underway
  | .arrive _ => True

instance (p : Pool ApprovalStore Party) : DecidablePred (AdvancesAlone p)
  | .run i r => inferInstanceAs (Decidable (∀ t ∈ p.threads[i]?,
      t.passesGuards p.store r = true → ∀ u ∈ p.threads, ¬u.Underway))
  | .arrive _ => .isTrue trivial

/-- What should hold between any two pools of a run : the status has not gone back, an
approved statement is still approved, and in the later one at most one chain is between its
first read and its final write. -/
structure PipelineSafe (p q : Pool ApprovalStore Party) : Prop where
  forward : p.store.statement.status.rank ≤ q.store.statement.status.rank
  approved : p.store.statement.status = .approved → q.store.statement.status = .approved
  one : AtMostOne Party.Between q.threads

/-! ## What a chain does to the status -/

section Chain

variable {w w' : PipelineStore} {row row' : StatementFile} {c c' : Chain} {r : Reply}
  {target : AdvanceTarget}

/-- The chain may write the row again. -/
def Chain.Busy : Chain → Prop
  | queued _ => True
  | running p _ => p ≠ .publish
  | ended => False

/-- A chain between its reads and writes is busy. -/
theorem Chain.Between.busy (h : c.Between) : c.Busy := by
  cases c with
  | queued t => trivial
  | running p f => exact h
  | ended => exact h

/-- A chain past its final write leaves the row, and ends. -/
theorem Chain.step_not_busy (h : ¬c.Busy) (hs : c.step w r = some (w', c')) :
    w'.statement = w.statement ∧ ¬c'.Busy := by
  cases Chain.step_moves hs with
  | started t => exact (h trivial).elim
  | @runs p f _ _ _ hs =>
    obtain rfl : p = .publish := not_not.1 h
    cases Frame.step_moves hs with
    | published => exact ⟨rfl, id⟩
    | raised exc hraises => exact hraises.elim
    | malformed exc hcall | callFailed exc hcall => rcases hcall with h | h <;> cases h

/-- No step of a run lowers the status. -/
theorem Frame.step_rank {f : Frame} {p : Point} (h : p.Agrees w.statement f)
    (hs : f.step w p r = some (w', c')) : w.statement.status.rank ≤ w'.statement.status.rank := by
  cases Frame.step_moves hs with
  | extracted hcopy =>
    subst hcopy
    rw [h.2.1]
    exact Nat.zero_le _
  | normalized r hcopy =>
    subst hcopy
    rw [h.2.1]
    exact Nat.le_succ 1
  | _ => exact Nat.le_refl _

/-- A chain that has the row to itself takes its status forward. -/
theorem Chain.step_rank (h : c.Agrees w.statement) (hs : c.step w r = some (w', c')) :
    w.statement.status.rank ≤ w'.statement.status.rank := by
  cases Chain.step_moves hs with
  | started t => exact Nat.le_refl _
  | runs hs => exact Frame.step_rank h hs

/-- A chain relies on two columns of the row. -/
theorem Chain.Agrees.congr (h : c.Agrees row) (hs : row'.status = row.status)
    (hp : row'.isProcessing = row.isProcessing) : c.Agrees row' := by
  cases c with
  | queued t => simpa only [Chain.Agrees, hs, hp] using h
  | running p f =>
    have hpoint : p.Agrees row' f ↔ p.Agrees row f := by
      cases p <;> simp only [Point.Agrees, hs, hp]
    exact hpoint.2 h
  | ended => trivial

/-- Once the statement is normalized, a chain relies on nothing. -/
theorem Chain.Agrees.settled (h : c.Agrees row) (ht : c.Targets target.status)
    (h2 : 2 ≤ row.status.rank) : c.Agrees row' := by
  have hle := target.rank_le
  cases c with
  | queued t =>
    obtain ⟨-, hlt⟩ := h
    rw [show t.targetStatus = target.status from ht] at hlt
    omega
  | running p f =>
    replace ht : f.task.targetStatus = target.status := ht
    replace h : p.Agrees row f := h
    change p.Agrees row' f
    cases p with
    | notify r => exact h
    | refresh exc => trivial
    | saveError exc => trivial
    | publish => trivial
    | getClient =>
      have hlt := h.2.1
      rw [ht] at hlt
      omega
    | retry =>
      have hlt := h.2
      rw [ht] at hlt
      omega
    | saveProcessing phase =>
      rw [h.1] at h2
      cases phase <;> simp [Phase.source] at h2
    | submit phase | poll phase | saveFailed phase reason =>
      rw [h.2.1] at h2
      cases phase <;> simp [Phase.source] at h2
    | createOcrResult r | saveExtracted | getAccount r | createAccount r | createNormalized r
    | saveNormalized r =>
      rw [h.2.1] at h2
      simp at h2
  | ended => trivial

end Chain

/-! ## What an approval does to the row -/

namespace Approval

/-- The approval has passed its check and may write the row. -/
def Checked : Approval → Prop
  | findingAccount _ _ _ | savingAccount _ | lookingUp _ _ | inserting _ _ _ => True
  | _ => False

variable {tax : Taxonomy} {i : ℕ} {w w' : ApprovalStore} {t t' : Approval} {r : ApprovalReply}

/-- Status and flag stay, or the approval commits. -/
theorem Moves.statement (h : Moves tax i w t r w' t') :
    (w'.statement.status = w.statement.status ∧
      w'.statement.isProcessing = w.statement.isProcessing) ∨
    (t.Checked ∧ w'.statement.status = .approved) := by
  cases h with
  | commit f => exact Or.inr ⟨trivial, rfl⟩
  | refuse | check | find | enter | save | skip | miss | insert | rollback | succeed | fail =>
    exact Or.inl ⟨rfl, rfl⟩

/-- An approval is checked only while the statement is normalized. -/
theorem Moves.checked (h : Moves tax i w t r w' t') (ht' : t'.Checked) :
    t.Checked ∨ w.statement.status = .normalized := by
  cases h with
  | check user accountId transactions hn => exact Or.inr hn
  | find | enter | save | skip | miss | insert => exact Or.inl trivial
  | commit f => exact Or.inl trivial
  | refuse | rollback | succeed | fail => exact ht'.elim

end Approval

/-! ## One owner -/

namespace Party

variable {row row' : StatementFile} {t : Party}

/-- The party whose flag it is, or is about to be. -/
def Owner : Party → Prop
  | advance (.saving _ _) | advance (.enqueueing _) => True
  | chain c => c.Busy
  | _ => False

/-- What a party relies on of the row. -/
def Agrees (row : StatementFile) : Party → Prop
  | advance (.saving s target) => s.isProcessing = true ∧ row.status.rank < target.status.rank
  | advance (.enqueueing target) => row.isProcessing = true ∧ row.status.rank < target.status.rank
  | advance _ => True
  | chain c => c.Agrees row ∧ ∃ target : AdvanceTarget, c.Targets target.status
  | approval a => a.Checked → 2 ≤ row.status.rank

/-- Who is between its reads and writes owns the flag. -/
theorem Between.owner (h : t.Between) : t.Owner := by
  cases t with
  | chain c => exact Chain.Between.busy h
  | advance a => exact h.elim
  | approval a => exact h.elim

/-- A party that is not the owner bears what the owner does to the row. -/
theorem Agrees.of_not_owner (h : t.Agrees row) (ho : ¬t.Owner)
    (hrank : row.status.rank ≤ row'.status.rank) : t.Agrees row' := by
  cases t with
  | advance a =>
    cases a with
    | arrived user target => trivial
    | saving s target => exact (ho trivial).elim
    | enqueueing target => exact (ho trivial).elim
    | answered response => trivial
  | chain c =>
    refine ⟨?_, h.2⟩
    cases c with
    | queued t => exact (ho trivial).elim
    | running p f =>
      obtain rfl : p = .publish := not_not.1 ho
      trivial
    | ended => trivial
  | approval a => exact fun ha => (h ha).trans hrank

/-- Every party bears what an approval does to the row. -/
theorem Agrees.of_approval (h : t.Agrees row)
    (hrow : (row'.status = row.status ∧ row'.isProcessing = row.isProcessing) ∨
      (2 ≤ row.status.rank ∧ row'.status = .approved)) : t.Agrees row' := by
  rcases hrow with ⟨hs, hp⟩ | ⟨h2, happ⟩
  · cases t with
    | advance a =>
      cases a with
      | arrived user target => trivial
      | saving s target => exact ⟨h.1, hs ▸ h.2⟩
      | enqueueing target => exact ⟨hp ▸ h.1, hs ▸ h.2⟩
      | answered response => trivial
    | chain c => exact ⟨h.1.congr hs hp, h.2⟩
    | approval a => simpa only [Agrees, hs] using h
  · cases t with
    | advance a =>
      cases a with
      | arrived user target => trivial
      | saving s target =>
        have hle := target.rank_le
        have hlt := h.2
        omega
      | enqueueing target =>
        have hle := target.rank_le
        have hlt := h.2
        omega
      | answered response => trivial
    | chain c =>
      obtain ⟨hc, target, ht⟩ := h
      exact ⟨hc.settled ht h2, target, ht⟩
    | approval a =>
      intro _
      rw [happ]
      exact Nat.le_succ 2

end Party

variable {tax : Taxonomy} {p q : Pool ApprovalStore Party}

/-- The flag does its work : one owner at most, and every party can rely on the row. -/
structure Exclusive (p : Pool ApprovalStore Party) : Prop where
  one : AtMostOne Party.Owner p.threads
  agrees : ∀ (i : ℕ) (t : Party), p.threads[i]? = some t → t.Agrees p.store.statement

/-- The owner, or a party that leaves the row alone, takes a step. -/
theorem Exclusive.step {i : ℕ} {t t' : Party} {w' : ApprovalStore} {new : List Party}
    (h : Exclusive p) (hi : p.threads[i]? = some t)
    (hrow : t.Owner ∨ w'.statement = p.store.statement)
    (hrank : p.store.statement.status.rank ≤ w'.statement.status.rank)
    (hone : AtMostOne Party.Owner (p.threads.set i t' ++ new)) (hself : t'.Agrees w'.statement)
    (hnew : ∀ u ∈ new, u.Agrees w'.statement) : Exclusive ⟨w', p.threads.set i t' ++ new⟩ := by
  refine ⟨hone, forall_set_append (List.getElem?_eq_some_iff.1 hi).1 hself hnew fun j u hj hu => ?_⟩
  rcases hrow with ho | hsame
  · exact (h.agrees j u hu).of_not_owner (fun hu' => hj (h.one j i u t hu hi hu' ho)) hrank
  · rw [hsame]
    exact h.agrees j u hu

/-- A step that makes no new owner and leaves the row alone. -/
theorem Exclusive.idle {i : ℕ} {t t' : Party} (h : Exclusive p) (hi : p.threads[i]? = some t)
    (ho : t'.Owner → t.Owner) (hself : t'.Agrees p.store.statement) :
    Exclusive ⟨p.store, p.threads.set i t' ++ []⟩ :=
  h.step hi (Or.inr rfl) (Nat.le_refl _) (h.one.keep hi ho (by simp)) hself (by simp)

/-- Where the guards pass and no party is underway, nobody owns the statement. -/
theorem Exclusive.free (h : Exclusive p)
    (hflag : p.store.statement.isProcessing = false) (hunder : ∀ u ∈ p.threads, ¬u.Underway) :
    ∀ (j : ℕ) (u : Party), p.threads[j]? = some u → ¬u.Owner := by
  intro j u hj ho
  have hagr := h.agrees j u hj
  have hun := hunder u (List.mem_of_getElem? hj)
  cases u with
  | advance a =>
    cases a with
    | arrived user target => exact ho
    | saving s target => exact hun trivial
    | enqueueing target =>
      rw [hagr.1] at hflag
      cases hflag
    | answered response => exact ho
  | chain c =>
    cases c with
    | queued t =>
      rw [hagr.1.1] at hflag
      cases hflag
    | running p f => exact hun ho
    | ended => exact ho
  | approval a => exact ho

/-- A step of a PATCH keeps the invariant. -/
theorem Exclusive.advance {i : ℕ} {a a' : Advance} {r : Bool} {w' : ApprovalStore}
    {chains : List Chain} (h : Exclusive p) (hi : p.threads[i]? = some (.advance a))
    (hok : Party.passesGuards p.store (.advance a) (.advance r) = true →
      ∀ u ∈ p.threads, ¬u.Underway)
    (hs : a.step p.store r = some (w', a', chains)) :
    Exclusive ⟨w', p.threads.set i (.advance a') ++ chains.map .chain⟩ ∧
      p.store.statement.status.rank ≤ w'.statement.status.rank := by
  unfold Advance.step at hs
  split at hs
  case h_1 user target =>
    split at hs
    · cases hs
      exact ⟨h.idle hi id trivial, Nat.le_refl _⟩
    next huser =>
    split at hs
    · cases hs
      exact ⟨h.idle hi id trivial, Nat.le_refl _⟩
    · next n hguards =>
      cases hs
      obtain ⟨hflag, hrank, -⟩ := StatementFile.validateAdvance_ok.1 hguards
      have hunder := hok (by simpa [Party.passesGuards, hguards, Except.isOk, Except.toBool] using huser)
      have hfree := h.free hflag hunder
      exact ⟨h.step hi (Or.inr rfl) (Nat.le_refl _)
        (.take hi (fun j u _ hj => hfree j u hj) (by simp)) ⟨rfl, hrank⟩ (by simp), Nat.le_refl _⟩
  case h_2 s target =>
    cases hs
    obtain ⟨hmark, hrank⟩ := h.agrees i _ hi
    exact ⟨h.step hi (Or.inl trivial) (Nat.le_refl _) (h.one.keep hi (fun _ => trivial) (by simp))
      ⟨hmark, hrank⟩ (by simp), Nat.le_refl _⟩
  case h_3 target =>
    cases hs
    obtain ⟨hflag, hrank⟩ := h.agrees i _ hi
    refine ⟨h.step hi (Or.inr rfl) (Nat.le_refl _) (h.one.handOver hi trivial id) trivial ?_,
      Nat.le_refl _⟩
    intro u hu
    rw [List.map_singleton, List.mem_singleton] at hu
    subst hu
    exact ⟨⟨hflag, hrank⟩, target, rfl⟩
  case h_4 | h_5 | h_6 =>
    cases hs
    exact ⟨h.idle hi (fun ho => ho.elim) trivial, Nat.le_refl _⟩
  case h_7 => cases hs

/-- So does a step of a chain. -/
theorem Exclusive.chain {i : ℕ} {c c' : Chain} {r : Reply} {w' : PipelineStore}
    (h : Exclusive p) (hi : p.threads[i]? = some (.chain c))
    (hs : c.step p.store.toPipelineStore r = some (w', c')) :
    Exclusive ⟨{ p.store with toPipelineStore := w' }, p.threads.set i (.chain c') ++ []⟩ ∧
      p.store.statement.status.rank ≤ w'.statement.status.rank := by
  obtain ⟨hagr, target, htgt⟩ := h.agrees i _ hi
  have hrank := Chain.step_rank hagr hs
  have hself : (Party.chain c').Agrees w'.statement :=
    ⟨Chain.step_agrees hagr hs, target, Chain.step_targets htgt hs⟩
  refine ⟨?_, hrank⟩
  by_cases hb : c.Busy
  · exact h.step hi (Or.inl hb) hrank (h.one.keep hi (fun _ => hb) (by simp)) hself (by simp)
  · obtain ⟨hrow, hb'⟩ := Chain.step_not_busy hb hs
    exact h.step hi (Or.inr hrow) hrank (h.one.keep hi (fun hb => (hb' hb).elim) (by simp)) hself
      (by simp)

/-- So does a step of an approval. -/
theorem Exclusive.approval {i : ℕ} {a a' : Approval} {r : ApprovalReply} {w' : ApprovalStore}
    (h : Exclusive p) (hi : p.threads[i]? = some (.approval a))
    (hs : Approval.Moves tax i p.store a r w' a') :
    Exclusive ⟨w', p.threads.set i (.approval a') ++ []⟩ ∧
      p.store.statement.status.rank ≤ w'.statement.status.rank := by
  have hchecked : a.Checked → 2 ≤ p.store.statement.status.rank := h.agrees i _ hi
  have hrow : (w'.statement.status = p.store.statement.status ∧
      w'.statement.isProcessing = p.store.statement.isProcessing) ∨
      (2 ≤ p.store.statement.status.rank ∧ w'.statement.status = .approved) :=
    hs.statement.imp_right fun hc => ⟨hchecked hc.1, hc.2⟩
  have hrank : p.store.statement.status.rank ≤ w'.statement.status.rank := by
    rcases hrow with ⟨hsame, -⟩ | ⟨-, happ⟩
    · rw [hsame]
    · rw [happ]
      cases p.store.statement.status <;> simp
  refine ⟨⟨h.one.keep hi id (by simp), ?_⟩, hrank⟩
  refine forall_set_append (List.getElem?_eq_some_iff.1 hi).1 (fun ha' => ?_) (by simp)
    fun j u _ hu => (h.agrees j u hu).of_approval hrow
  refine Nat.le_trans ?_ hrank
  rcases hs.checked ha' with ha | hn
  · exact hchecked ha
  · rw [hn]
    exact Nat.le_refl 2

/-- And any step of the pool. -/
theorem Exclusive.next {act : Action Party PartyReply} (h : Exclusive p)
    (hok : AdvancesAlone p act) (hn : (overlapSystem tax).Next p act q) :
    Exclusive q ∧ p.store.statement.status.rank ≤ q.store.statement.status.rank := by
  cases hn with
  | @arrive t ht =>
    refine ⟨⟨h.one.snoc fun ho => ?_, fun j u hj => ?_⟩, Nat.le_refl _⟩
    · cases t with
      | advance a => cases a <;> first | exact ht.elim | exact ho.elim
      | chain c => exact ht.elim
      | approval a => exact ho
    · rcases getElem?_snoc hj with hj | ⟨-, rfl⟩
      · exact h.agrees j u hj
      · cases u with
        | advance a => cases a <;> first | exact ht.elim | trivial
        | chain c => exact ht.elim
        | approval a => cases a <;> first | exact ht.elim | exact fun ha => ha.elim
  | @run i r t t' w' new hi hs =>
    replace hs : Party.step tax i p.store t r = some (w', t', new) := hs
    unfold Party.step at hs
    split at hs
    · next a r =>
      obtain ⟨⟨w₁, a', chains⟩, hstep, heq⟩ := Option.map_eq_some_iff.1 hs
      cases heq
      exact h.advance hi (hok _ hi) hstep
    · next c r =>
      obtain ⟨⟨w₁, c'⟩, hstep, heq⟩ := Option.map_eq_some_iff.1 hs
      cases heq
      exact h.chain hi hstep
    · next a r =>
      obtain ⟨⟨w₁, a'⟩, hstep, heq⟩ := Option.map_eq_some_iff.1 hs
      cases heq
      exact h.approval hi (Approval.step_moves hstep)
    · cases hs

/-- In every interleaving from a statement that no party is at work on, the pipeline is safe
if every request that passes its guards is alone. -/
theorem pipelineSafe {w : ApprovalStore} (hp : (overlapSystem tax).Run AdvancesAlone ⟨w, []⟩ p)
    (hq : (overlapSystem tax).Run AdvancesAlone p q) : PipelineSafe p q := by
  have hnext : ∀ p q act, Exclusive p → AdvancesAlone p act → (overlapSystem tax).Next p act q →
      Exclusive q ∧ p.store.statement.status.rank ≤ q.store.statement.status.rank :=
    fun p q act h hok hn => h.next hok hn
  have hinv : ∀ p q act, Exclusive p → AdvancesAlone p act → (overlapSystem tax).Next p act q →
      Exclusive q := fun p q act h hok hn => (hnext p q act h hok hn).1
  have hstart : Exclusive (⟨w, []⟩ : Pool ApprovalStore Party) :=
    ⟨.nil _, fun i t hi => by simp at hi⟩
  have hexcl : Exclusive p := hp.invariant hinv hstart
  have hrank : p.store.statement.status.rank ≤ q.store.statement.status.rank :=
    hq.relates (R := fun p q => p.store.statement.status.rank ≤ q.store.statement.status.rank)
      (fun _ => Nat.le_refl _) (fun _ _ _ h h' => Nat.le_trans h h') hinv
      (fun p q act h hok hn => (hnext p q act h hok hn).2) hexcl
  refine ⟨hrank, fun happ => ?_, ?_⟩
  · rw [happ] at hrank
    revert hrank
    cases q.store.statement.status <;> simp
  · exact (hq.invariant hinv hexcl).one.mono fun t ht => ht.owner

/-! ## Two retries at once -/

/-- A statement whose first chain has failed. -/
def failedUpload : ApprovalStore :=
  { statement := { id := 3, user := 1, account := some 7, failedPhase := some .extraction
                   failureReason := some "AI service job failed" }
    accounts := [cashAccount] }

/-- A retry, its chain, and a second retry that is refused while the chain is at work. -/
theorem pipelineSafe_retry :
    ∃ q, (overlapSystem noTaxonomy).Run AdvancesAlone ⟨failedUpload, []⟩ q ∧
      PipelineSafe ⟨failedUpload, []⟩ q := by
  have hexec : ∃ q ∈ (overlapSystem noTaxonomy).exec
      [.arrive (.advance (.arrived 1 .normalized)), .run 0 (.advance true), .run 0 (.advance true),
        .run 0 (.advance true), .run 1 (.chain .done), .run 1 (.chain .done),
        .run 1 (.chain (.submission (some "job-1"))),
        .arrive (.advance (.arrived 1 .normalized)), .run 2 (.advance true)]
      ⟨failedUpload, []⟩, True := by
    decide
  obtain ⟨q, hq, -⟩ := hexec
  have hrun : (overlapSystem noTaxonomy).Run AdvancesAlone ⟨failedUpload, []⟩ q :=
    .of_exec_meets (by decide) hq
  exact ⟨q, hrun, pipelineSafe (.refl _) hrun⟩

/-- The answers that take a chain through its extraction up to the save. -/
def extractionReplies (jobId : String) : List Reply :=
  [.done, .done, .submission jobId,
    .job (.succeeded (.extraction ⟨"ocr/3.json", "mineru", 1⟩)), .done]

/-- The answers that take it on from that save to the end. -/
def normalizationReplies (jobId : String) : List Reply :=
  [.done, .done, .submission jobId,
    .job (.succeeded (.normalization ⟨⟨none, none, []⟩, "mock"⟩)), .done, .done, .done, .done]

/-- The steps of a chain that is so answered. -/
def chainActions (i : ℕ) (rs : List Reply) : List (Action Party PartyReply) :=
  rs.map fun r => .run i (.chain r)

/-- Two retries read the row before either saves the flag. One chain gets to the review and
the statement is approved; then the other saves its extraction. -/
theorem overlap_unsafe :
    ¬∀ (tax : Taxonomy) (w : ApprovalStore) (p q : Pool ApprovalStore Party),
      (overlapSystem tax).Run (fun _ _ => True) ⟨w, []⟩ p →
      (overlapSystem tax).Run (fun _ _ => True) p q → PipelineSafe p q := by
  intro h
  have hexec : ∃ p ∈ (overlapSystem noTaxonomy).exec
      ([.arrive (.advance (.arrived 1 .normalized)), .arrive (.advance (.arrived 1 .normalized)),
        .run 0 (.advance true), .run 1 (.advance true), .run 0 (.advance true),
        .run 1 (.advance true), .run 0 (.advance true), .run 1 (.advance true)] ++
        chainActions 3 (extractionReplies "job-1") ++ chainActions 2 (extractionReplies "job-2") ++
        chainActions 2 (normalizationReplies "job-3") ++
        [.arrive (.approval (.arrived 1 none [])), .run 4 (.approval .done),
          .run 4 (.approval .done), .run 4 (.approval .done)]) ⟨failedUpload, []⟩,
      p.store.statement.status = .approved ∧
      ∃ q ∈ (overlapSystem noTaxonomy).exec [.run 3 (.chain .done)] p,
        q.store.statement.status = .extracted := by
    decide
  obtain ⟨p, hp, happ, q, hq, hext⟩ := hexec
  have hsafe := h noTaxonomy failedUpload p q (.of_exec hp) (.of_exec hq)
  rw [hsafe.approved happ] at hext
  cases hext

end NbeAdvisor
