import NbeAdvisor.TaskRun
import Mathlib.Logic.Relation

/-!
# The processing flag and the tasks outstanding

`is_processing` is saved by the request before it enqueues the task, and cleared by the
task. Every later request is refused while it is on, so it should be on only while a task
for the statement is queued or scheduled. The service here is every statement with the
tasks outstanding; a request or a run of a task is one event.

Each exit of the task clears the flag or schedules the next run (`Frame.step_quits`),
except the one where `get_client()` raises. So the flag has its task as long as every
enqueue goes through and every client is built (`processing_outstanding`). An upload that
cannot reach the broker leaves a statement that refuses every retry from then on
(`processing_stuck`).
-/

namespace NbeAdvisor

open Interleave

/-! ## Exits of the task -/

/-- Where the task is about to leave, the flag is off. -/
def Point.Quits (row : StatementFile) : Point → Prop
  | .notify _ | .publish => row.isProcessing = false
  | _ => True

/-- Where the chain is about to leave, or has left, the flag is off. -/
def Chain.Quits (row : StatementFile) : Chain → Prop
  | .queued _ => True
  | .running p _ => p.Quits row
  | .ended => row.isProcessing = false

section Quits

variable {row : StatementFile} {f : Frame} {phase : Phase}

/-- A run leaves with the flag off. -/
theorem leave_quits (h : row.isProcessing = false) : f.leave.Quits row := by
  unfold Frame.leave
  split <;> exact h

@[simp] theorem call_quits : (f.call phase).Quits row := by
  rcases call_cases f phase with ⟨-, h⟩ | ⟨-, h⟩ <;> rw [h] <;> trivial

/-- The head of the loop leaves only with the flag off. -/
theorem loopHead_quits (h : f.loopHead = f.leave → row.isProcessing = false) :
    f.loopHead.Quits row := by
  rcases loopHead_cases f with ⟨hl, -⟩ | ⟨phase, -, -, hl | ⟨-, hl⟩⟩
  · rw [hl]
    exact leave_quits (h hl)
  · rw [hl]
    trivial
  · rw [hl]
    exact call_quits

@[simp] theorem polled_quits (state : JobState) : (f.polled phase state).Quits row := by
  rcases polled_cases f phase state with
    ⟨r, -, h⟩ | ⟨r, -, h | h⟩ | ⟨exc, h⟩ | ⟨reason, h⟩ | ⟨-, h⟩ <;> rw [h] <;> trivial

end Quits

/-- A statement short of the target is not where the loop stops. -/
theorem loopHead_ne_leave {f : Frame} (h2 : f.task.targetStatus.rank ≤ 2)
    (h : f.statement.status.rank < f.task.targetStatus.rank) : f.loopHead ≠ f.leave := by
  obtain ⟨phase, hphase⟩ := exists_source_of_rank (Nat.lt_of_lt_of_le h h2)
  unfold Frame.loopHead Frame.leave Frame.call
  rw [if_pos h, hphase, phaseForStatus_source]
  dsimp only
  split <;> split <;> (try split) <;> simp

/-- A step keeps it so. -/
theorem Frame.step_quits {w w' : PipelineStore} {f : Frame} {p : Point} {r : Reply} {c : Chain}
    (h2 : f.task.targetStatus.rank ≤ 2) (ha : p.Agrees w.statement f) (hr : r ≠ .noClient)
    (h : p.Quits w.statement) (hs : f.step w p r = some (w', c)) : c.Quits w'.statement := by
  cases Frame.step_moves hs with
  | client =>
    refine loopHead_quits fun hl => absurd hl (loopHead_ne_leave h2 ?_)
    rw [ha.2.2.1]
    exact ha.2.1
  | noClient => exact absurd rfl hr
  | processing => exact call_quits
  | polled phase state => exact polled_quits state
  | extracted hcopy =>
    subst hcopy
    exact loopHead_quits fun _ => rfl
  | normalized r hcopy =>
    subst hcopy
    rfl
  | notified r => exact loopHead_quits fun _ => h
  | failed phase reason hcopy | recorded exc hcopy =>
    subst hcopy
    exact leave_quits rfl
  | published => exact h
  | raised | malformed | callFailed | noOcrRun | submitted | ocrResult | noAccount | oneAccount
  | accounts | newAccount | normalizedRecord | retried | refused | refreshed => trivial

/-- What a run leaves behind on a row that is its own : the flag is on with the next run
scheduled, or off. -/
theorem TaskRun.keeps_flag {w w' : PipelineStore} {task : Task} {rs : List Reply} {c : Chain}
    (h : TaskRun w task rs w' c) (h2 : task.targetStatus.rank ≤ 2)
    (ha : (Chain.queued task).Agrees w.statement) (hr : .noClient ∉ rs) :
    c.Agrees w'.statement ∧ c.Targets task.targetStatus ∧ c.Quits w'.statement := by
  have hrun : Alone Chain.bodyStep (fun _ _ r => r ≠ .noClient) (w, Chain.start w task) rs (w', c) :=
    h.runs.mono_mem fun r hmem _ _ _ hrnc => hr (hrnc ▸ hmem)
  refine hrun.invariant (I := fun v c => c.Agrees v.statement ∧ c.Targets task.targetStatus ∧
    c.Quits v.statement) ?_ ⟨⟨ha.1, ha.2, rfl, ha.1⟩, rfl, trivial⟩
  rintro v c r v' c' ⟨hagr, htgt, hquit⟩ hok hs
  cases c with
  | running p f =>
    have hf : f.task.targetStatus = task.targetStatus := htgt
    exact ⟨Frame.step_agrees hagr hs, Frame.step_targets hf hs,
      Frame.step_quits (hf ▸ h2) hagr hok hquit hs⟩
  | queued t => simp [Chain.bodyStep] at hs
  | ended => simp [Chain.bodyStep] at hs

/-! ## The service, one event at a time -/

/-- Every statement by its id, the accounts, and the tasks that are queued or scheduled. -/
structure Service where
  statements : StatementId → Option StatementRows
  accounts : List BankAccount
  outstanding : List (StatementId × Task)

/-- What can happen to it. A request says whether its `.delay` goes through; a task that
runs says what it is answered. -/
inductive Event where
  | upload (id : StatementId) (user : UserId) (target : AdvanceTarget) (enqueued : Bool)
  | patch (id : StatementId) (user : UserId) (target : AdvanceTarget) (enqueued : Bool)
  | task (i : ℕ) (rs : List Reply)

namespace Service

/-- The statement of an id is these rows. -/
def save (s : Service) (id : StatementId) (rows : StatementRows) : Service :=
  { s with statements := Function.update s.statements id (some rows) }

/-- A task is enqueued. -/
def delay (s : Service) (id : StatementId) (task : Task) : Service :=
  { s with outstanding := s.outstanding ++ [(id, task)] }

/-- `advance_statement_to`. A `.delay` that raises fails the request after the save. -/
def advanceStatementTo (s : Service) (id : StatementId) (rows : StatementRows)
    (target : AdvanceTarget) (enqueued : Bool) : Except BusinessRuleError Service := do
  let _ ← rows.statement.validateAdvance target.status
  let s := s.save id { rows with statement := rows.statement.markProcessing }
  return if enqueued then s.delay id target.task else s

/-- The database and the outbound calls as the task sees them. -/
def storeOf (s : Service) (rows : StatementRows) : PipelineStore :=
  { toStatementRows := rows, accounts := s.accounts }

/-- The service after the run that took entry `i` of the outstanding tasks. -/
def finish (s : Service) (i : ℕ) (id : StatementId) (w : PipelineStore) (next : List Task) :
    Service where
  statements := Function.update s.statements id (some w.toStatementRows)
  accounts := w.accounts
  outstanding := s.outstanding.eraseIdx i ++ next.map (id, ·)

/-- One event, from start to end. An upload takes an id that is not in use; a request that is
refused, or that asks for someone else's statement, changes nothing. -/
def handle (s : Service) : Event → Option Service
  | .upload id user target enqueued =>
    match s.statements id with
    | some _ => none
    | none =>
      let rows : StatementRows := { statement := { id, user } }
      match (s.save id rows).advanceStatementTo id rows target enqueued with
      | .ok s' => some s'
      | .error _ => some (s.save id rows)
  | .patch id user target enqueued =>
    match s.statements id with
    | none => some s
    | some rows =>
      if rows.statement.user = user then
        match s.advanceStatementTo id rows target enqueued with
        | .ok s' => some s'
        | .error _ => some s
      else some s
  | .task i rs =>
    match s.outstanding[i]? with
    | none => none
    | some (id, t) =>
      match s.statements id with
      | none => some { s with outstanding := s.outstanding.eraseIdx i }
      | some rows =>
        match drive Chain.bodyStep rs (s.storeOf rows, Chain.start (s.storeOf rows) t) with
        | some (w, .queued t') => some (s.finish i id w [t'])
        | some (w, .ended) => some (s.finish i id w [])
        | _ => none

/-- From nothing uploaded, any events that meet `ok`. -/
inductive Reachable (ok : Service → Event → Prop) : Service → Prop where
  | start (accounts : List BankAccount) : Reachable ok ⟨fun _ => none, accounts, []⟩
  | step {s s' : Service} {e : Event} : Reachable ok s → ok s e → s.handle e = some s' →
      Reachable ok s'

/-- A statement that is processing has a task outstanding. -/
def FlagHasTask (s : Service) : Prop :=
  ∀ id rows, s.statements id = some rows → rows.statement.isProcessing = true →
    ∃ t, (id, t) ∈ s.outstanding

/-- An outstanding task is the only one for its statement, which is processing and short of
the target. -/
structure Sound (s : Service) : Prop where
  tasks : ∀ id t, (id, t) ∈ s.outstanding → ∃ rows, s.statements id = some rows ∧
    (Chain.queued t).Agrees rows.statement ∧ t.targetStatus.rank ≤ 2
  once : s.outstanding.Pairwise (·.1 ≠ ·.1)
  flags : s.FlagHasTask

/-- The request gets past the guards, to `.delay`. -/
def Accepts (s : Service) (id : StatementId) (user : UserId) (target : AdvanceTarget) : Prop :=
  ∃ rows n, s.statements id = some rows ∧ rows.statement.user = user ∧
    rows.statement.validateAdvance target.status = .ok n

/-- The `.delay` of a request that comes to it, and the client of a run, go through. -/
def GoesThrough (s : Service) : Event → Prop
  | .upload _ _ _ enqueued => enqueued = true
  | .patch id user target enqueued => s.Accepts id user target → enqueued = true
  | .task _ rs => .noClient ∉ rs

end Service

/-- Entries of distinct keys : the others have another key than the one taken out. -/
theorem ne_of_mem_eraseIdx {α β : Type*} {l : List (α × β)} (h : l.Pairwise (·.1 ≠ ·.1)) {i : ℕ}
    {a : α} {b : β} (hi : l[i]? = some (a, b)) {x : α × β} (hx : x ∈ l.eraseIdx i) : x.1 ≠ a := by
  obtain ⟨j, hj, hjx⟩ := List.mem_eraseIdx_iff_getElem?.1 hx
  obtain ⟨hi', hia⟩ := List.getElem?_eq_some_iff.1 hi
  obtain ⟨hj', hjx⟩ := List.getElem?_eq_some_iff.1 hjx
  rw [List.pairwise_iff_getElem] at h
  rcases Nat.lt_or_gt_of_ne hj with hlt | hgt
  · have := h j i hj' hi' hlt
    rwa [hjx, hia] at this
  · have := h i j hi' hj' hgt
    rw [hjx, hia] at this
    exact this.symm

namespace Service

variable {s s' : Service} {id : StatementId} {rows : StatementRows}

/-- A statement that is not processing has no task. -/
theorem Sound.ne_of_idle (h : s.Sound) (hrows : s.statements id = some rows)
    (hidle : rows.statement.isProcessing = false) {x : StatementId × Task}
    (hx : x ∈ s.outstanding) : x.1 ≠ id := by
  rintro rfl
  obtain ⟨rows', hrows', hagr, -⟩ := h.tasks x.1 x.2 hx
  obtain rfl : rows = rows' := Option.some.inj (hrows.symm.trans hrows')
  exact absurd (hidle.symm.trans hagr.1) (by decide)

/-- A new statement is idle. -/
theorem Sound.saveNew (h : s.Sound) (hnone : s.statements id = none)
    (hidle : rows.statement.isProcessing = false) : (s.save id rows).Sound where
  tasks id' t hmem := by
    obtain ⟨rows', hrows', hagr⟩ := h.tasks id' t hmem
    have hne : id' ≠ id := by
      rintro rfl
      rw [hnone] at hrows'
      cases hrows'
    exact ⟨rows', by simpa [save, Function.update_of_ne hne] using hrows', hagr⟩
  once := h.once
  flags id' rows' hrows' hproc := by
    by_cases hid : id' = id
    · subst hid
      obtain rfl : rows = rows' := by simpa [save] using hrows'
      exact absurd (hidle.symm.trans hproc) (by decide)
    · exact h.flags id' rows' (by simpa [save, Function.update_of_ne hid] using hrows') hproc

/-- The guards pass on an idle statement short of the target, and then the flag is saved. -/
theorem advanceStatementTo_ok {target : AdvanceTarget} {enqueued : Bool}
    (h : s.advanceStatementTo id rows target enqueued = .ok s') :
    rows.statement.isProcessing = false ∧ rows.statement.status.rank < target.status.rank ∧
      s' = if enqueued then
          (s.save id { rows with statement := rows.statement.markProcessing }).delay id target.task
        else s.save id { rows with statement := rows.statement.markProcessing } := by
  unfold advanceStatementTo at h
  cases hv : rows.statement.validateAdvance target.status with
  | error e =>
    rw [hv] at h
    cases h
  | ok n =>
    obtain ⟨hidle, hlt, -⟩ := StatementFile.validateAdvance_ok.1 hv
    rw [hv] at h
    exact ⟨hidle, hlt, (Except.ok.inj h).symm⟩

/-- The guards, the save and the enqueue : the flag goes on together with its task. -/
theorem Sound.advance (h : s.Sound) (hrows : s.statements id = some rows) {target : AdvanceTarget}
    (hadv : s.advanceStatementTo id rows target true = .ok s') : s'.Sound := by
  obtain ⟨hidle, hlt, hs'⟩ := advanceStatementTo_ok hadv
  rw [if_pos rfl] at hs'
  subst hs'
  refine ⟨fun id' t hmem => ?_, ?_, fun id' rows' hrows' hproc => ?_⟩
  · rcases List.mem_append.1 hmem with hmem | hmem
    · obtain ⟨rows', hrows', hagr⟩ := h.tasks id' t hmem
      have hne : id' ≠ id := h.ne_of_idle hrows hidle hmem
      exact ⟨rows', by simpa [delay, save, Function.update_of_ne hne] using hrows', hagr⟩
    · obtain ⟨rfl, rfl⟩ := by simpa using hmem
      exact ⟨{ rows with statement := rows.statement.markProcessing }, by simp [delay, save],
        ⟨rfl, hlt⟩, target.rank_le⟩
  · refine List.pairwise_append.2 ⟨h.once, List.pairwise_singleton _ _, ?_⟩
    intro x hx y hy
    rw [List.mem_singleton.1 hy]
    exact h.ne_of_idle hrows hidle hx
  · by_cases hid : id' = id
    · exact ⟨target.task, by simp [delay, hid]⟩
    · obtain ⟨t, ht⟩ := h.flags id' rows'
        (by simpa [delay, save, Function.update_of_ne hid] using hrows') hproc
      exact ⟨t, List.mem_append_left _ ht⟩

/-- A run that took its task out puts the next one in, or leaves the flag off. -/
theorem Sound.finish (h : s.Sound) {i : ℕ} {t : Task} {w : PipelineStore} {next : List Task}
    (hi : s.outstanding[i]? = some (id, t)) (hone : next.length ≤ 1)
    (hnext : ∀ t' ∈ next, (Chain.queued t').Agrees w.statement ∧ t'.targetStatus.rank ≤ 2)
    (hidle : next = [] → w.statement.isProcessing = false) : (s.finish i id w next).Sound := by
  refine ⟨fun id' t' hmem => ?_, ?_, fun id' rows' hrows' hproc => ?_⟩
  · rcases List.mem_append.1 hmem with hmem | hmem
    · have hne : id' ≠ id := ne_of_mem_eraseIdx h.once hi hmem
      obtain ⟨rows', hrows', hagr⟩ := h.tasks id' t' (List.mem_of_mem_eraseIdx hmem)
      exact ⟨rows', by simpa [Service.finish, Function.update_of_ne hne] using hrows', hagr⟩
    · obtain ⟨t'', ht'', heq⟩ := List.mem_map.1 hmem
      obtain ⟨rfl, rfl⟩ := Prod.mk.inj heq
      exact ⟨_, by simp [Service.finish], hnext _ ht''⟩
  · refine List.pairwise_append.2 ⟨h.once.eraseIdx i, ?_, ?_⟩
    · rcases next with _ | ⟨t', _ | ⟨t'', l⟩⟩
      · simp
      · simp
      · simp at hone
    · intro x hx y hy
      obtain ⟨t', -, rfl⟩ := List.mem_map.1 hy
      exact ne_of_mem_eraseIdx h.once hi hx
  · by_cases hid : id' = id
    · subst hid
      obtain rfl : w.toStatementRows = rows' := by simpa [Service.finish] using hrows'
      rcases next with _ | ⟨t', l⟩
      · exact absurd ((hidle rfl).symm.trans hproc) (by decide)
      · exact ⟨t', by simp [Service.finish]⟩
    · obtain ⟨t', ht'⟩ := h.flags id' rows'
        (by simpa [Service.finish, Function.update_of_ne hid] using hrows') hproc
      obtain ⟨j, hj⟩ := List.getElem?_of_mem ht'
      refine ⟨t', List.mem_append_left _ (List.mem_eraseIdx_iff_getElem?.2 ⟨j, ?_, hj⟩)⟩
      rintro rfl
      exact hid (Prod.mk.inj (Option.some.inj (hj.symm.trans hi))).1

/-- Every event that goes through keeps the flags and the tasks together. -/
theorem Sound.handle (h : s.Sound) {e : Event} (hok : s.GoesThrough e)
    (hs : s.handle e = some s') : s'.Sound := by
  cases e with
  | upload id user target enqueued =>
    obtain rfl : enqueued = true := hok
    simp only [Service.handle] at hs
    split at hs
    · cases hs
    · next hnone =>
      have hnew : (s.save id { statement := { id, user } }).Sound := h.saveNew hnone rfl
      split at hs
      · next hadv =>
        obtain rfl := Option.some.inj hs
        exact hnew.advance (by simp [save]) hadv
      · obtain rfl := Option.some.inj hs
        exact hnew
  | patch id user target enqueued =>
    simp only [Service.handle] at hs
    split at hs
    · obtain rfl := Option.some.inj hs
      exact h
    · next rows hrows =>
      split at hs
      · next huser =>
        split at hs
        · next hadv =>
          obtain rfl := Option.some.inj hs
          obtain ⟨hidle, hlt, -⟩ := advanceStatementTo_ok hadv
          obtain rfl : enqueued = true :=
            hok ⟨rows, _, hrows, huser, StatementFile.validateAdvance_ok.2 ⟨hidle, hlt, rfl⟩⟩
          exact h.advance hrows hadv
        · obtain rfl := Option.some.inj hs
          exact h
      · obtain rfl := Option.some.inj hs
        exact h
  | task i rs =>
    simp only [Service.handle] at hs
    split at hs
    · cases hs
    · next id t hi =>
      obtain ⟨rows, hrows, hagr, h2⟩ := h.tasks id t (List.mem_of_getElem? hi)
      rw [hrows] at hs
      simp only at hs
      split at hs
      · next w t' hd =>
        obtain rfl := Option.some.inj hs
        obtain ⟨hagr', htgt, -⟩ := TaskRun.keeps_flag (c := .queued t')
          ⟨.of_drive (fun _ _ _ _ => trivial) hd, trivial⟩ h2 hagr hok
        refine h.finish hi le_rfl (fun t'' ht'' => ?_) (by simp)
        obtain rfl := List.mem_singleton.1 ht''
        have htgt' : t''.targetStatus = t.targetStatus := htgt
        exact ⟨hagr', htgt' ▸ h2⟩
      · next w hd =>
        obtain rfl := Option.some.inj hs
        obtain ⟨-, -, hquit⟩ := TaskRun.keeps_flag (c := .ended)
          ⟨.of_drive (fun _ _ _ _ => trivial) hd, trivial⟩ h2 hagr hok
        exact h.finish hi (Nat.zero_le _) (by simp) fun _ => hquit
      · cases hs

/-- As long as every enqueue goes through and every client is built, a statement that is
processing has its task, in every state that uploads, retries and task runs can reach. -/
theorem processing_outstanding (h : Reachable GoesThrough s) : s.FlagHasTask := by
  have hsound : s.Sound := by
    induction h with
    | start accounts => exact ⟨by simp, .nil, by simp [FlagHasTask]⟩
    | step _ hok hs ih => exact ih.handle hok hs
  exact hsound.flags

/-- An upload whose task has not run yet. -/
theorem processing_outstanding_upload :
    FlagHasTask
      { statements := Function.update
          (Function.update (fun _ => none) 7 (some { statement := { id := 7, user := 1 } })) 7
          (some { statement := { id := 7, user := 1, isProcessing := true } })
        accounts := []
        outstanding := [(7, { targetStatus := .normalized })] } :=
  processing_outstanding
    (.step (e := .upload 7 1 .normalized true) (.start []) rfl rfl)

/-- An upload whose `.delay` raises leaves the flag on and nothing to clear it. -/
theorem processing_stuck : ¬∀ s, Reachable (fun _ _ => True) s → s.FlagHasTask := by
  intro h
  have hreach : Reachable (fun _ _ => True) _ :=
    .step (e := .upload 7 1 .normalized false) (.start []) trivial rfl
  obtain ⟨t, ht⟩ := h _ hreach 7 { statement := { id := 7, user := 1, isProcessing := true } } rfl rfl
  cases ht

end Service

end NbeAdvisor
