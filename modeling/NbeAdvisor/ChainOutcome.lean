import NbeAdvisor.Pipeline

/-!
# A chain alone, from its first read to its end

A chain that has its statement to itself keeps the rows consistent at every write : a
status that claims an artifact has it (`StatementRows.Consistent`). It works the phases
off in order, each submitted before it is finished and never again after
(`PhaseRun`). It comes to an end within a bound on its steps (`Chain.fuel`), and there
the statement has either reached the target with nothing recorded against it, or stopped
short of it with a reason and the phase to retry (`chain_outcome`).

The rows it starts from are those an upload made or an earlier chain left, whatever that
chain met with (`StatementRows.Left`).
-/

namespace NbeAdvisor

open Interleave

/-! ## Consistent rows -/

/-- A status has its artifact, and the phase recorded as failed is the one that runs from
the status. -/
structure StatementRows.Consistent (w : StatementRows) : Prop where
  ocr : 1 ≤ w.statement.status.rank → w.ocrResults ≠ []
  records : 2 ≤ w.statement.status.rank → w.normalizedRecords ≠ []
  failed : w.statement.failedPhase = none ∨
    w.statement.failedPhase = w.statement.status.phaseForStatus

/-- What a point has made sure of before it writes a status. -/
def Point.Ensures (w : StatementRows) (f : Frame) : Point → Prop
  | .saveExtracted => w.ocrResults ≠ []
  | .saveNormalized _ => w.normalizedRecords ≠ []
  | .saveError _ => f.statement = w.statement
  | _ => True

/-- What the next point of a chain relies on. -/
def Chain.Ensures (w : StatementRows) : Chain → Prop
  | .running p f => p.Ensures w f
  | _ => True

section Ensures

variable {w : StatementRows} {f : Frame} {phase : Phase}

@[simp] theorem leave_ensures : f.leave.Ensures w := by
  unfold Frame.leave
  split <;> trivial

@[simp] theorem raise_ensures (exc : String) : (f.raise exc).Ensures w := trivial

@[simp] theorem call_ensures : (f.call phase).Ensures w := by
  rcases call_cases f phase with ⟨-, h⟩ | ⟨-, h⟩ <;> rw [h] <;> trivial

@[simp] theorem loopHead_ensures : f.loopHead.Ensures w := by
  rcases loopHead_cases f with ⟨h, -⟩ | ⟨phase, -, -, h | ⟨-, h⟩⟩
  · simp [h]
  · rw [h]
    trivial
  · simp [h]

@[simp] theorem polled_ensures (state : JobState) : (f.polled phase state).Ensures w := by
  rcases polled_cases f phase state with ⟨r, -, h⟩ | ⟨r, -, h | h⟩ | ⟨exc, h⟩ | ⟨reason, h⟩ | ⟨-, h⟩
    <;> rw [h] <;> trivial

end Ensures

theorem StatementRows.Consistent.of_status {w v : StatementRows} (h : w.Consistent)
    (hs : v.statement.status = w.statement.status)
    (hp : v.statement.failedPhase = w.statement.failedPhase)
    (ho : w.ocrResults ≠ [] → v.ocrResults ≠ [])
    (hn : w.normalizedRecords ≠ [] → v.normalizedRecords ≠ []) : v.Consistent where
  ocr hr := ho (h.ocr (hs ▸ hr))
  records hr := hn (h.records (hs ▸ hr))
  failed := by rw [hs, hp]; exact h.failed

theorem Frame.step_consistent {w w' : PipelineStore} {f : Frame} {p : Point} {r : Reply} {c : Chain}
    (ha : p.Agrees w.statement f) (he : p.Ensures w.toStatementRows f)
    (hc : w.toStatementRows.Consistent) (hs : f.step w p r = some (w', c)) :
    w'.toStatementRows.Consistent ∧ c.Ensures w'.toStatementRows := by
  cases Frame.step_moves hs with
  | client | notified => exact ⟨hc.of_status rfl rfl id id, loopHead_ensures⟩
  | processing => exact ⟨hc.of_status rfl rfl id id, call_ensures⟩
  | polled phase state => exact ⟨hc.of_status rfl rfl id id, polled_ensures state⟩
  | ocrResult r =>
    exact ⟨hc.of_status rfl rfl (by simp) id, by simp [Chain.Ensures, Point.Ensures]⟩
  | normalizedRecord r =>
    exact ⟨hc.of_status rfl rfl id (by simp), by simp [Chain.Ensures, Point.Ensures]⟩
  | extracted hcopy =>
    subst hcopy
    exact ⟨⟨fun _ => he, fun hr => absurd (show 2 ≤ 1 from hr) (by decide), Or.inl rfl⟩,
      loopHead_ensures⟩
  | normalized r hcopy =>
    subst hcopy
    have hx : w.ocrResults ≠ [] := hc.ocr (by rw [ha.2.1]; decide)
    exact ⟨⟨fun _ => hx, fun _ => he, Or.inl rfl⟩, trivial⟩
  | failed phase reason hcopy =>
    subst hcopy
    refine ⟨⟨hc.ocr, hc.records, Or.inr ?_⟩, leave_ensures⟩
    have hstat : w.statement.status = phase.source := ha.2.1
    simp [StatementFile.saveFailure, StatementFile.failPhase, hstat]
  | refreshed exc => exact ⟨hc, rfl⟩
  | recorded exc hcopy =>
    subst hcopy
    refine ⟨⟨hc.ocr, hc.records, ?_⟩, leave_ensures⟩
    have hrow : f.statement = w.statement := he
    rcases hc.failed with h | h <;>
      simp [StatementFile.saveFailure, StatementFile.recordError, hrow, h]
  | raised | malformed | accounts | refused => exact ⟨hc, raise_ensures _⟩
  | noClient | callFailed | noOcrRun | submitted | noAccount | oneAccount | newAccount | retried
  | published => exact ⟨hc.of_status rfl rfl id id, trivial⟩

/-! ## The phases in order -/

/-- From the status `start`, phases are submitted and polled at the status they start
from, and finished once they have been submitted. -/
inductive PhaseRun (start : StatementStatus) : List PhaseEvent → StatementStatus → Prop where
  | nil : PhaseRun start [] start
  | submitted {log : List PhaseEvent} {p : Phase} : PhaseRun start log p.source →
      PhaseRun start (log ++ [.submitted p]) p.source
  | polled {log : List PhaseEvent} {p : Phase} : PhaseRun start log p.source →
      PhaseRun start (log ++ [.polled p]) p.source
  | finished {log : List PhaseEvent} {p : Phase} : PhaseRun start log p.source →
      .submitted p ∈ log → PhaseRun start (log ++ [.finished p]) p.result

namespace PhaseRun

variable {start s : StatementStatus} {log : List PhaseEvent} {p : Phase}

/-- A finished phase is behind the status. -/
theorem rank_of_finished (h : PhaseRun start log s) (hp : .finished p ∈ log) :
    p.source.rank < s.rank := by
  induction h with
  | nil => simp at hp
  | submitted _ ih | polled _ ih =>
    rcases List.mem_append.1 hp with hp | hp
    · exact ih hp
    · simp at hp
  | finished _ _ ih =>
    rcases List.mem_append.1 hp with hp | hp
    · have := ih hp
      simp only [Phase.rank_result]
      omega
    · obtain rfl : p = _ := by simpa using hp
      simp

/-- No phase is skipped. -/
theorem finished_of_rank (h : PhaseRun start log s) (hstart : start.rank ≤ p.source.rank)
    (hs : p.source.rank < s.rank) : .finished p ∈ log := by
  induction h with
  | nil => omega
  | submitted _ ih | polled _ ih => exact List.mem_append_left _ (ih hs)
  | @finished log q _ _ ih =>
    rw [Phase.rank_result] at hs
    rcases Nat.lt_or_ge p.source.rank q.source.rank with hlt | hge
    · exact List.mem_append_left _ (ih hlt)
    · have hr : p.source.rank = q.source.rank := by omega
      obtain rfl := Phase.source_injective (StatementStatus.rank_injective hr)
      simp

/-- The last event of a log is the finish of a phase, or comes after it. -/
theorem eq_or_after {l₁ l₂ : List PhaseEvent} {e : PhaseEvent}
    (h : log ++ [e] = l₁ ++ .finished p :: l₂) : (log = l₁ ∧ e = .finished p ∧ l₂ = []) ∨
      ∃ l₃, log = l₁ ++ .finished p :: l₃ ∧ l₂ = l₃ ++ [e] := by
  rcases List.eq_nil_or_concat l₂ with rfl | ⟨l₃, e', rfl⟩
  · obtain ⟨hlog, he⟩ := List.append_inj' h rfl
    exact Or.inl ⟨hlog, List.singleton_inj.1 he, rfl⟩
  · rw [List.concat_eq_append] at h ⊢
    rw [← List.cons_append, ← List.append_assoc] at h
    obtain ⟨hlog, he⟩ := List.append_inj' h rfl
    obtain rfl := List.singleton_inj.1 he
    exact Or.inr ⟨l₃, hlog, rfl⟩

/-- A phase is submitted before it is finished, and not again. -/
theorem submitted_once (h : PhaseRun start log s) {l₁ l₂ : List PhaseEvent}
    (hl : log = l₁ ++ .finished p :: l₂) : .submitted p ∈ l₁ ∧ .submitted p ∉ l₂ := by
  induction h generalizing l₂ with
  | nil => simp at hl
  | @submitted log q hrun ih =>
    rcases eq_or_after hl with ⟨-, he, -⟩ | ⟨l₃, hlog, rfl⟩
    · cases he
    · refine ⟨(ih hlog).1, fun hin => ?_⟩
      rcases List.mem_append.1 hin with hin | hin
      · exact (ih hlog).2 hin
      · obtain rfl : p = q := by simpa using hin
        exact absurd (hrun.rank_of_finished (by simp [hlog])) (lt_irrefl _)
  | polled _ ih =>
    rcases eq_or_after hl with ⟨-, he, -⟩ | ⟨l₃, hlog, rfl⟩
    · cases he
    · exact ⟨(ih hlog).1, by simpa using (ih hlog).2⟩
  | finished _ hsub ih =>
    rcases eq_or_after hl with ⟨rfl, he, rfl⟩ | ⟨l₃, hlog, rfl⟩
    · obtain rfl := PhaseEvent.finished.inj he
      exact ⟨hsub, List.not_mem_nil⟩
    · exact ⟨(ih hlog).1, by simpa using (ih hlog).2⟩

end PhaseRun

/-- The phase a point works on has been submitted, and so has the phase of a job that a run
resumes. -/
def Point.Underway (log : List PhaseEvent) (row : StatementFile) (f : Frame) : Point → Prop
  | .getClient | .saveProcessing _ =>
    f.task.jobId ≠ none → ∀ p : Phase, row.status = p.source → .submitted p ∈ log
  | .poll p => .submitted p ∈ log
  | .createOcrResult _ | .saveExtracted => .submitted .extraction ∈ log
  | .getAccount _ | .createAccount _ | .createNormalized _ | .saveNormalized _ =>
    .submitted .normalization ∈ log
  | .retry => ∀ p : Phase, row.status = p.source → .submitted p ∈ log
  | _ => True

/-- The same for a chain, and a queued retry. -/
def Chain.Underway (log : List PhaseEvent) (row : StatementFile) : Chain → Prop
  | .queued t => t.jobId ≠ none → ∀ p : Phase, row.status = p.source → .submitted p ∈ log
  | .running p f => p.Underway log row f
  | .ended => True

section Underway

variable {log : List PhaseEvent} {row : StatementFile} {f : Frame} {phase : Phase}

@[simp] theorem leave_underway : f.leave.Underway log row := by
  unfold Frame.leave
  split <;> trivial

theorem call_underway (h : f.task.jobId ≠ none → .submitted phase ∈ log) :
    (f.call phase).Underway log row := by
  rcases call_cases f phase with ⟨-, hc⟩ | ⟨hj, hc⟩ <;> rw [hc]
  · trivial
  · exact h hj

theorem loopHead_underway (hs : f.statement.status = row.status)
    (h : f.task.jobId ≠ none → ∀ p : Phase, row.status = p.source → .submitted p ∈ log) :
    f.loopHead.Underway log row := by
  rcases loopHead_cases f with ⟨hl, -⟩ | ⟨phase, hp, -, hl | ⟨-, hl⟩⟩ <;> rw [hl]
  · exact leave_underway
  · exact h
  · exact call_underway fun hj => h hj phase (hs ▸ hp)

theorem polled_underway (hrow : row.status = phase.source) (h : .submitted phase ∈ log)
    (state : JobState) : (f.polled phase state).Underway log row := by
  rcases polled_cases f phase state with
    ⟨r, rfl, hp⟩ | ⟨r, rfl, hp | hp⟩ | ⟨exc, hp⟩ | ⟨reason, hp⟩ | ⟨-, hp⟩ <;> rw [hp]
  · exact h
  · exact h
  · exact h
  · trivial
  · trivial
  · intro p hq
    obtain rfl := Phase.source_injective (hq.symm.trans hrow)
    exact h

end Underway

theorem logPhase_snoc {w : PipelineStore} {before log : List PhaseEvent}
    (h : w.phaseLog = before ++ log) (e : PhaseEvent) :
    (w.logPhase e).phaseLog = before ++ (log ++ [e]) := by
  rw [PipelineStore.logPhase_phaseLog, h, List.append_assoc]

/-- Since the log was `before`, the chain has worked phases off in order, and is at one
that it has submitted. -/
def Chain.InOrder (before : List PhaseEvent) (start : StatementStatus) (w : PipelineStore)
    (c : Chain) : Prop :=
  ∃ log, w.phaseLog = before ++ log ∧ PhaseRun start log w.statement.status ∧
    c.Underway log w.statement

theorem Frame.step_inOrder {before : List PhaseEvent} {start : StatementStatus}
    {w w' : PipelineStore} {f : Frame} {p : Point} {r : Reply} {c : Chain}
    (ha : p.Agrees w.statement f) (h : (Chain.running p f).InOrder before start w)
    (hs : f.step w p r = some (w', c)) : c.InOrder before start w' := by
  obtain ⟨log, hlog, hrun, hu⟩ := h
  cases Frame.step_moves hs with
  | client => exact ⟨log, hlog, hrun, loopHead_underway ha.2.2.1 hu⟩
  | processing phase hcopy =>
    subst hcopy
    exact ⟨log, hlog, hrun, call_underway fun hj => hu hj phase ha.1⟩
  | @submitted phase jobId hocr =>
    have hstat : w.statement.status = phase.source := ha.2.1
    refine ⟨log ++ [.submitted phase], ?_, ?_, ?_⟩
    · exact logPhase_snoc hlog _
    · rw [hstat] at hrun
      exact hstat ▸ hrun.submitted
    · simp [Chain.Underway, Point.Underway]
  | polled phase state =>
    have hstat : w.statement.status = phase.source := ha.2.1
    refine ⟨log ++ [.polled phase], ?_, ?_,
      polled_underway hstat (List.mem_append_left _ hu) state⟩
    · exact logPhase_snoc hlog _
    · rw [hstat] at hrun
      exact hstat ▸ hrun.polled
  | extracted hcopy =>
    subst hcopy
    refine ⟨log ++ [.finished .extraction], ?_, ?_, ?_⟩
    · exact logPhase_snoc hlog _
    · rw [ha.2.1] at hrun
      exact PhaseRun.finished (p := .extraction) hrun hu
    · exact loopHead_underway rfl fun hj => absurd rfl hj
  | normalized r hcopy =>
    subst hcopy
    refine ⟨log ++ [.finished .normalization], ?_, ?_, trivial⟩
    · exact logPhase_snoc hlog _
    · rw [ha.2.1] at hrun
      exact PhaseRun.finished (p := .normalization) hrun hu
  | notified r =>
    rw [loopHead_normalized (f := f.nextPhase f.statement) ha]
    exact ⟨log, hlog, hrun, leave_underway⟩
  | retried exc hle => exact ⟨log, hlog, hrun, fun _ => hu⟩
  | ocrResult | noAccount | oneAccount | newAccount | normalizedRecord =>
    exact ⟨log, hlog, hrun, hu⟩
  | failed | recorded => exact ⟨log, hlog, hrun, leave_underway⟩
  | noClient | raised | malformed | callFailed | noOcrRun | accounts | refused | refreshed
  | published => exact ⟨log, hlog, hrun, trivial⟩

/-! ## The end of a chain -/

/-- The statements and calls that a run can still make before it ends or is rescheduled. -/
def Point.fuel : Point → ℕ
  | .getClient => 38
  | .saveProcessing .extraction => 30
  | .submit .extraction => 29
  | .poll .extraction => 28
  | .createOcrResult _ => 27
  | .saveExtracted => 26
  | .saveProcessing .normalization => 22
  | .submit .normalization => 21
  | .poll .normalization => 20
  | .getAccount _ => 19
  | .createAccount _ => 18
  | .createNormalized _ => 17
  | .saveNormalized _ => 16
  | .notify _ => 15
  | .retry => 10
  | .saveFailed _ _ => 9
  | .refresh _ => 8
  | .saveError _ => 7
  | .publish => 6

/-- The event is the last statement of a run. -/
example : Point.publish.fuel = 6 := by simp only [Point.fuel]

/-- What `max_retries` leaves to the runs after this one. -/
def Task.fuel (t : Task) : ℕ := 40 * (maxPollAttempts + 1 - t.retries)

/-- A bound on the steps a chain can still take. -/
def Chain.fuel : Chain → ℕ
  | .queued t => t.fuel + 39
  | .running p f => f.task.fuel + p.fuel
  | .ended => 0

section Fuel

variable {f : Frame} {phase : Phase}

/-- What leaving a run still costs. -/
theorem leave_fuel : f.leave.fuel ≤ f.task.fuel + 6 := by
  unfold Frame.leave
  split <;> simp [Chain.fuel, Point.fuel]

/-- The handler of an exception needs less than any point that can raise. -/
theorem raise_fuel {p : Point} (exc : String) (h : 8 < p.fuel) :
    (f.raise exc).fuel < (Chain.running p f).fuel :=
  Nat.add_lt_add_left h _

/-- A point that can raise has more to go than the handler. -/
theorem Point.Raises.fuel {p : Point} (h : p.Raises) : 8 < p.fuel := by
  cases p with
  | saveProcessing phase => cases phase <;> simp [Point.fuel]
  | getClient | submit | poll | retry | refresh | saveError | publish => exact h.elim
  | _ => simp [Point.fuel]

/-- So has a point that calls the AI service. -/
theorem Point.Calls.fuel {p : Point} (h : p.Calls phase) : 9 < p.fuel := by
  rcases h with rfl | rfl <;> cases phase <;> simp [Point.fuel]

/-- A call is on its way to the submission. -/
theorem call_fuel : (f.call phase).fuel ≤ f.task.fuel + (Point.submit phase).fuel := by
  rcases call_cases f phase with ⟨-, h⟩ | ⟨-, h⟩ <;> rw [h]
  · exact le_rfl
  · cases phase <;> simp [Chain.fuel, Point.fuel]

/-- From the loop head a run goes on at most with the phase of the status. -/
theorem loopHead_fuel {n : ℕ} (hn : 6 ≤ n)
    (h : ∀ phase : Phase, f.statement.status = phase.source → (Point.saveProcessing phase).fuel ≤ n) :
    f.loopHead.fuel ≤ f.task.fuel + n := by
  rcases loopHead_cases f with ⟨hl, -⟩ | ⟨phase, hp, -, hl | ⟨-, hl⟩⟩ <;> rw [hl]
  · exact leave_fuel.trans (Nat.add_le_add_left hn _)
  · exact Nat.add_le_add_left (h phase hp) _
  · refine call_fuel.trans (Nat.add_le_add_left (le_trans ?_ (h phase hp)) _)
    cases phase <;> simp [Point.fuel]

/-- A poll comes nearer to the end. -/
theorem polled_fuel (state : JobState) :
    (f.polled phase state).fuel < f.task.fuel + (Point.poll phase).fuel := by
  rcases polled_cases f phase state with
    ⟨r, rfl, h⟩ | ⟨r, rfl, h | h⟩ | ⟨exc, h⟩ | ⟨reason, h⟩ | ⟨-, h⟩ <;> rw [h]
  · simp [Chain.fuel, Point.fuel]
  · simp [Chain.fuel, Point.fuel]
  · simp [Chain.fuel, Point.fuel]
  · exact raise_fuel exc (by cases phase <;> simp [Point.fuel])
  · cases phase <;> simp [Chain.fuel, Point.fuel]
  · cases phase <;> simp [Chain.fuel, Point.fuel]

end Fuel

/-- So does every step of a run. -/
theorem Frame.step_fuel {w w' : PipelineStore} {f : Frame} {p : Point} {r : Reply} {c : Chain}
    (ha : p.Agrees w.statement f) (hs : f.step w p r = some (w', c)) :
    c.fuel < (Chain.running p f).fuel := by
  cases Frame.step_moves hs with
  | client =>
    refine Nat.lt_of_le_of_lt (loopHead_fuel (n := 30) (by decide) ?_) (by simp [Chain.fuel, Point.fuel])
    rintro (_ | _) - <;> simp [Point.fuel]
  | processing phase hcopy =>
    subst hcopy
    refine Nat.lt_of_le_of_lt call_fuel ?_
    cases phase <;> simp [Chain.fuel, Point.fuel]
  | raised exc hp => exact raise_fuel exc hp.fuel
  | malformed exc hcall => exact raise_fuel exc (Nat.lt_of_succ_lt hcall.fuel)
  | callFailed exc hcall => exact Nat.add_lt_add_left hcall.fuel _
  | @submitted phase jobId hocr => cases phase <;> simp [Chain.fuel, Point.fuel, Task.fuel]
  | polled phase state => exact polled_fuel state
  | extracted hcopy =>
    subst hcopy
    refine Nat.lt_of_le_of_lt (loopHead_fuel (n := 22) (by decide) ?_)
      (by simp [Chain.fuel, Point.fuel, Task.fuel, Frame.nextPhase])
    rintro (_ | _) hp
    · cases hp
    · simp [Point.fuel]
  | notified r =>
    rw [loopHead_normalized (f := f.nextPhase f.statement) ha]
    exact Nat.lt_of_le_of_lt leave_fuel
      (by simp [Chain.fuel, Point.fuel, Task.fuel, Frame.nextPhase])
  | failed | recorded => exact Nat.lt_of_le_of_lt leave_fuel (by simp [Chain.fuel, Point.fuel])
  | retried exc hle =>
    simp only [Chain.fuel, Point.fuel, Task.fuel, Frame.retryTask]
    omega
  | accounts | refused => exact raise_fuel _ (by simp [Point.fuel])
  | noClient | noOcrRun | ocrResult | noAccount | oneAccount | newAccount | normalizedRecord
  | normalized | refreshed | published => simp [Chain.fuel, Point.fuel]

/-- And every step of a chain. -/
theorem Chain.step_fuel {w w' : PipelineStore} {c c' : Chain} {r : Reply}
    (ha : c.Agrees w.statement) (hs : c.step w r = some (w', c')) : c'.fuel < c.fuel := by
  cases Chain.step_moves hs with
  | started t => simp [Chain.fuel, Point.fuel]
  | runs hs => exact Frame.step_fuel ha hs

/-! ## The outcome -/

namespace StatementFile

/-- The statement is at its target, with nothing recorded against it. -/
structure Reached (s : StatementFile) (target : StatementStatus) : Prop where
  status : s.status = target
  failureReason : s.failureReason = none
  failedPhase : s.failedPhase = none
  isProcessing : s.isProcessing = false

/-- The statement is short of its target, with a reason and the phase to retry. -/
structure Stopped (s : StatementFile) (start target : StatementStatus) : Prop where
  start_le : start.rank ≤ s.status.rank
  lt_target : s.status.rank < target.rank
  failureReason : s.failureReason ≠ none
  failedPhase : ∃ phase : Phase, s.failedPhase = some phase ∧ s.status = phase.source
  isProcessing : s.isProcessing = false

/-- What has reached its target has not stopped before it. -/
theorem Reached.not_stopped {s : StatementFile} {start target : StatementStatus}
    (h : s.Reached target) : ¬s.Stopped start target := by
  intro hs
  have := hs.lt_target
  rw [h.status] at this
  exact lt_irrefl _ this

end StatementFile

/-- The surroundings that a chain counts on : the client is built, a retry within the limit
is scheduled, and the email goes out. Everything else may raise. -/
def Obliging (_ : PipelineStore) : Chain → Reply → Prop
  | .running .getClient _, r => r ≠ .noClient
  | .running .retry _, .retry scheduled _ => scheduled = true
  | .running (.notify _) _, r => r = .done
  | _, _ => True

/-- What a point is heading for, from the status `start` to the target. -/
def Point.Heads (start target : StatementStatus) (row : StatementFile) : Point → Prop
  | .notify _ => row.Reached target
  | .publish => row.Reached target ∨ row.Stopped start target
  | _ => start.rank ≤ row.status.rank ∧ row.status.rank < target.rank

/-- The chain works towards the target, or has ended there or where it stopped. -/
def Chain.Heads (start target : StatementStatus) (row : StatementFile) : Chain → Prop
  | .queued t => t.targetStatus = target ∧
      start.rank ≤ row.status.rank ∧ row.status.rank < target.rank
  | .running p f => f.task.targetStatus = target ∧ p.Heads start target row
  | .ended => row.Reached target ∨ row.Stopped start target

section Heads

variable {start target : StatementStatus} {row : StatementFile} {f : Frame} {phase : Phase}

/-- A run that leaves has come to its end. -/
theorem leave_heads (ht : f.task.targetStatus = target)
    (h : row.Reached target ∨ row.Stopped start target) : f.leave.Heads start target row := by
  unfold Frame.leave
  split
  · exact h
  · exact ⟨ht, h⟩

/-- A call heads for the target. -/
theorem call_heads (ht : f.task.targetStatus = target)
    (h : start.rank ≤ row.status.rank ∧ row.status.rank < target.rank) :
    (f.call phase).Heads start target row := by
  rcases call_cases f phase with ⟨-, hc⟩ | ⟨-, hc⟩ <;> rw [hc] <;> exact ⟨ht, h⟩

/-- The head of the loop heads for the target, or is there. -/
theorem loopHead_heads (ht : f.task.targetStatus = target) (h2 : target.rank ≤ 2)
    (hs : f.statement.status = row.status) (hstart : start.rank ≤ row.status.rank)
    (h : target.rank ≤ row.status.rank → row.Reached target) :
    f.loopHead.Heads start target row := by
  rcases loopHead_cases f with ⟨hl, hend⟩ | ⟨phase, hp, hlt, hl⟩
  · rw [hl]
    refine leave_heads ht (Or.inl (h ?_))
    rw [ht, hs] at hend
    rcases hend with hend | hnone
    · exact hend
    · refine Nat.le_of_not_lt fun hlt => ?_
      obtain ⟨phase, hphase⟩ := exists_source_of_rank (Nat.lt_of_lt_of_le hlt h2)
      rw [hphase, phaseForStatus_source] at hnone
      cases hnone
  · rw [ht] at hlt
    rw [hp] at hs
    rcases hl with hl | ⟨-, hl⟩ <;> rw [hl]
    · exact ⟨ht, hstart, hs ▸ hlt⟩
    · exact call_heads ht ⟨hstart, hs ▸ hlt⟩

/-- A poll heads for the target. -/
theorem polled_heads (ht : f.task.targetStatus = target)
    (h : start.rank ≤ row.status.rank ∧ row.status.rank < target.rank) (state : JobState) :
    (f.polled phase state).Heads start target row := by
  rcases polled_cases f phase state with
    ⟨r, -, hp⟩ | ⟨r, -, hp | hp⟩ | ⟨exc, hp⟩ | ⟨reason, hp⟩ | ⟨-, hp⟩ <;> rw [hp] <;> exact ⟨ht, h⟩

end Heads

/-- A step of a run goes on to. -/
theorem Frame.step_heads {start target : StatementStatus} {w w' : PipelineStore} {f : Frame}
    {p : Point} {r : Reply} {c : Chain} (h2 : target.rank ≤ 2) (ha : p.Agrees w.statement f)
    (he : p.Ensures w.toStatementRows f) (hc : w.toStatementRows.Consistent)
    (h : (Chain.running p f).Heads start target w.statement) (hok : Obliging w (.running p f) r)
    (hs : f.step w p r = some (w', c)) : c.Heads start target w'.statement := by
  obtain ⟨ht, hp⟩ := h
  cases Frame.step_moves hs with
  | client =>
    exact loopHead_heads ht h2 ha.2.2.1 hp.1 fun hge => absurd hp.2 (Nat.not_lt.2 hge)
  | noClient => exact absurd rfl hok
  | processing phase hcopy =>
    subst hcopy
    exact call_heads ht hp
  | @raised p exc hraises =>
    cases p with
    | notify r => cases hok
    | getClient | submit | poll | retry | refresh | saveError | publish => exact hraises.elim
    | _ => exact ⟨ht, hp⟩
  | malformed exc hcall => rcases hcall with rfl | rfl <;> exact ⟨ht, hp⟩
  | callFailed exc hcall => rcases hcall with rfl | rfl <;> exact ⟨ht, hp⟩
  | polled phase state => exact polled_heads ht hp state
  | extracted hcopy =>
    subst hcopy
    have hstart : start.rank ≤ 1 := by
      have := hp.1
      rw [ha.2.1] at this
      exact Nat.le_succ_of_le this
    refine loopHead_heads ht h2 rfl hstart fun hge => ⟨?_, rfl, rfl, rfl⟩
    have h0 : 0 < target.rank := ht ▸ ha.2.2
    have h1 : target.rank ≤ 1 := hge
    exact StatementStatus.rank_injective (show 1 = target.rank by omega)
  | normalized r hcopy =>
    subst hcopy
    refine ⟨ht, ?_, rfl, rfl, rfl⟩
    have h1 : 1 < target.rank := ht ▸ ha.2.2
    exact StatementStatus.rank_injective (show 2 = target.rank by omega)
  | notified r =>
    rw [loopHead_normalized (f := f.nextPhase f.statement) ha]
    exact leave_heads ht (Or.inl hp)
  | failed phase reason hcopy =>
    subst hcopy
    exact leave_heads ht (Or.inr ⟨hp.1, hp.2, by
      simp [StatementFile.saveFailure, StatementFile.failPhase], ⟨phase, rfl, ha.2.1⟩, rfl⟩)
  | recorded exc hcopy =>
    subst hcopy
    have hrow : f.statement = w.statement := he
    obtain ⟨phase, hphase⟩ := exists_source_of_rank (Nat.lt_of_lt_of_le hp.2 h2)
    refine leave_heads ht (Or.inr ⟨hp.1, hp.2, ?_, ⟨phase, ?_, hphase⟩, rfl⟩)
    · simp [StatementFile.saveFailure, StatementFile.recordError]
    · rcases hc.failed with hf | hf <;>
        simp [StatementFile.saveFailure, StatementFile.recordError, hrow, hf, hphase]
  | published => exact hp
  | noOcrRun | submitted | ocrResult | noAccount | oneAccount | accounts | newAccount
  | normalizedRecord | retried | refused | refreshed => exact ⟨ht, hp⟩

/-! ## Chains on the rows of earlier chains -/

/-- What a chain with the statement to itself keeps at every step. -/
structure Chain.Sound (before : List PhaseEvent) (start : StatementStatus) (w : PipelineStore)
    (c : Chain) : Prop where
  agrees : c.Agrees w.statement
  ensures : c.Ensures w.toStatementRows
  consistent : w.toStatementRows.Consistent
  inOrder : c.InOrder before start w

/-- A step keeps the invariant. -/
theorem Chain.Sound.step {before : List PhaseEvent} {start : StatementStatus} {w w' : PipelineStore}
    {c c' : Chain} {r : Reply} (h : c.Sound before start w) (hs : c.step w r = some (w', c')) :
    c'.Sound before start w' := by
  have ha := Chain.step_agrees h.agrees hs
  cases Chain.step_moves hs with
  | started t => exact ⟨ha, trivial, h.consistent, h.inOrder⟩
  | runs hs =>
    obtain ⟨hc, he⟩ := Frame.step_consistent h.agrees h.ensures h.consistent hs
    exact ⟨ha, he, hc, Frame.step_inOrder h.agrees h.inOrder hs⟩

/-- The store once `advance_statement_to` has saved the flag. -/
def PipelineStore.markProcessing (w : PipelineStore) : PipelineStore :=
  w.withStatement w.statement.markProcessing

/-- A queued task has it. -/
theorem Chain.Sound.start {w : PipelineStore} {target : AdvanceTarget}
    (hc : w.toStatementRows.Consistent) (h : w.statement.status.rank < target.status.rank) :
    (Chain.queued target.task).Sound w.phaseLog w.statement.status w.markProcessing where
  agrees := ⟨rfl, h⟩
  ensures := trivial
  consistent := hc.of_status rfl rfl id id
  inOrder := ⟨[], (List.append_nil _).symm, .nil, fun hj => absurd rfl hj⟩

/-- The rows of a statement as an upload, or a chain on such rows, left them. The chain may
have met with anything. -/
inductive StatementRows.Left : StatementRows → Prop where
  | upload (id : StatementId) (user : UserId) : Left { statement := { id, user } }
  | chain {w w' : PipelineStore} {target : AdvanceTarget} {rs : List Reply} :
      Left w.toStatementRows → w.statement.status.rank < target.status.rank →
      Alone Chain.step (fun _ _ _ => True) (w.markProcessing, .queued target.task) rs (w', .ended) →
      Left w'.toStatementRows

/-- What a chain leaves is consistent. -/
theorem StatementRows.Left.consistent {v : StatementRows} (h : v.Left) : v.Consistent := by
  induction h with
  | upload id user =>
    exact ⟨fun h => absurd (show 1 ≤ 0 from h) (by decide),
      fun h => absurd (show 2 ≤ 0 from h) (by decide), Or.inl rfl⟩
  | @chain w w' target rs _ hlt hrun ih =>
    have hsound := hrun.invariant (I := fun v c => Chain.Sound w.phaseLog w.statement.status v c)
      (fun _ _ _ _ _ h _ hs => h.step hs) (Chain.Sound.start ih hlt)
    exact hsound.consistent

/-- A chain that has not ended always has a next step. -/
theorem Chain.exists_step (w : PipelineStore) {c : Chain} (hc : c ≠ .ended) :
    ∃ r x, Obliging w c r ∧ c.step w r = some x := by
  cases c with
  | queued t => exact ⟨.done, _, trivial, rfl⟩
  | ended => exact absurd rfl hc
  | running p f =>
    cases p with
    | getClient => exact ⟨.done, _, by simp [Obliging], rfl⟩
    | submit phase => exact ⟨.raises "timeout", _, trivial, rfl⟩
    | poll phase => exact ⟨.job .pending, _, trivial, rfl⟩
    | getAccount r => exact ⟨.raises "timeout", _, trivial, rfl⟩
    | notify r => exact ⟨.done, _, rfl, rfl⟩
    | retry =>
      refine ⟨.retry true "Can't retry", ?_⟩
      simp only [Chain.step, Frame.step]
      split <;> exact ⟨_, rfl, rfl⟩
    | _ => exact ⟨.done, _, trivial, rfl⟩

/-- One chain alone, on a statement short of its target whose rows an upload or an earlier
chain left. At every write, a status has its artifact, every phase between the first
status and the current one has been finished, and each phase is submitted before it is
finished and not again. And the chain ends, either at the target with nothing recorded, or
short of it with a reason and the phase that starts from there. -/
theorem chain_outcome {w : PipelineStore} {target : AdvanceTarget}
    (hleft : w.toStatementRows.Left) (hlt : w.statement.status.rank < target.status.rank) :
    (∀ rs w' c, Alone Chain.step Obliging (w.markProcessing, .queued target.task) rs (w', c) →
      (StatementStatus.extracted.rank ≤ w'.statement.status.rank → w'.ocrResults ≠ []) ∧
      (StatementStatus.normalized.rank ≤ w'.statement.status.rank → w'.normalizedRecords ≠ []) ∧
      ∃ log, w'.phaseLog = w.phaseLog ++ log ∧
        (∀ p : Phase, w.statement.status.rank ≤ p.source.rank →
          p.source.rank < w'.statement.status.rank → .finished p ∈ log) ∧
        ∀ (p : Phase) (l₁ l₂ : List PhaseEvent), log = l₁ ++ .finished p :: l₂ →
          .submitted p ∈ l₁ ∧ .submitted p ∉ l₂) ∧
    Settles Chain.step Obliging (· = .ended)
      (fun w' =>
        (w'.statement.Reached target.status ∨
          w'.statement.Stopped w.statement.status target.status) ∧
        ¬(w'.statement.Reached target.status ∧
          w'.statement.Stopped w.statement.status target.status))
      (w.markProcessing, .queued target.task) := by
  have hsound := Chain.Sound.start hleft.consistent hlt
  constructor
  · intro rs w' c hrun
    have h := hrun.invariant (I := fun v c => Chain.Sound w.phaseLog w.statement.status v c)
      (fun _ _ _ _ _ h _ hs => h.step hs) hsound
    obtain ⟨log, hlog, hphases, -⟩ := h.inOrder
    exact ⟨h.consistent.ocr, h.consistent.records, log, hlog,
      fun p => hphases.finished_of_rank, fun p l₁ l₂ => hphases.submitted_once⟩
  · refine Settles.of_invariant (m := fun _ c => c.fuel) (I := fun v c =>
      Chain.Sound w.phaseLog w.statement.status v c ∧
        c.Heads w.statement.status target.status v.statement) ?_ ?_ ?_ ?_
      ⟨hsound, rfl, le_rfl, hlt⟩
    · rintro v c r v' c' ⟨h, hh⟩ hok hs
      refine ⟨h.step hs, ?_⟩
      cases Chain.step_moves hs with
      | started t => exact hh
      | runs hs => exact Frame.step_heads target.rank_le h.agrees h.ensures h.consistent hh hok hs
    · rintro v c r v' c' ⟨h, -⟩ - hs
      exact Chain.step_fuel h.agrees hs
    · rintro v c - hc
      exact Chain.exists_step v hc
    · rintro v c ⟨-, hh⟩ rfl
      exact ⟨hh, fun hboth => hboth.1.not_stopped hboth.2⟩

/-- The chain of an upload. -/
theorem chain_outcome_upload :
    Settles Chain.step Obliging (· = .ended)
      (fun w' => (w'.statement.Reached .normalized ∨ w'.statement.Stopped .uploaded .normalized) ∧
        ¬(w'.statement.Reached .normalized ∧ w'.statement.Stopped .uploaded .normalized))
      ({ statement := { id := 1, user := 1, isProcessing := true } },
        .queued { targetStatus := .normalized }) :=
  (@chain_outcome { statement := { id := 1, user := 1 } } .normalized (.upload 1 1) (by decide)).2

end NbeAdvisor
