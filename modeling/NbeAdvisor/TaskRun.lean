import NbeAdvisor.Pipeline

/-!
# One run of the task, and the event it publishes

A run goes from the read of the row to the end of the task or to a message for the next
run. While it runs alone, the copy of the row in memory has the columns of the event as
the row has them, except between an exception and the handler's reload
(`Frame.step_inSync`).

The `finally` block publishes unless `retry_pending` is set, and the flag is set before
`self.retry` is called. So a run reports its outcome exactly if no `self.retry` in it is
refused and `get_client()`, which is called outside the `try`, returns
(`TaskRun.reportsOutcome_iff`). A refused retry ends the chain with a failure on the row
and nobody told (`refusedRetry_silent`).
-/

namespace NbeAdvisor

open Interleave

/-! ## The copy in memory -/

/-- Outside the moment between an exception and the reload, the event that the copy in
memory gives is the row's. -/
def Chain.InSync (row : StatementFile) : Chain → Prop
  | .running (.refresh _) _ => True
  | .running _ f => f.statement.event = row.event
  | _ => True

section InSync

variable {row : StatementFile} {f : Frame} {phase : Phase}

/-- A run that leaves tells of the row as it is. -/
theorem leave_inSync (h : f.statement.event = row.event) : f.leave.InSync row := by
  unfold Frame.leave
  split
  · trivial
  · exact h

@[simp] theorem raise_inSync (exc : String) : (f.raise exc).InSync row := trivial

/-- So does a call. -/
theorem call_inSync (h : f.statement.event = row.event) : (f.call phase).InSync row := by
  rcases call_cases f phase with ⟨-, hc⟩ | ⟨-, hc⟩ <;> rw [hc] <;> exact h

/-- So does the head of the loop. -/
theorem loopHead_inSync (h : f.statement.event = row.event) : f.loopHead.InSync row := by
  rcases loopHead_cases f with ⟨hl, -⟩ | ⟨phase, -, -, hl | ⟨-, hl⟩⟩ <;> rw [hl]
  · exact leave_inSync h
  · exact h
  · exact call_inSync h

/-- So does a poll. -/
theorem polled_inSync (h : f.statement.event = row.event) (state : JobState) :
    (f.polled phase state).InSync row := by
  rcases polled_cases f phase state with
    ⟨r, -, hp⟩ | ⟨r, -, hp | hp⟩ | ⟨exc, hp⟩ | ⟨reason, hp⟩ | ⟨-, hp⟩ <;> rw [hp]
  · exact h
  · exact h
  · exact h
  · exact raise_inSync exc
  · exact h
  · exact h

end InSync

/-- A step keeps the copy in step with the row. -/
theorem Frame.step_inSync {w w' : PipelineStore} {f : Frame} {p : Point} {r : Reply} {c : Chain}
    (h : (Chain.running p f).InSync w.statement) (hs : f.step w p r = some (w', c)) :
    c.InSync w'.statement := by
  cases Frame.step_moves hs with
  | client | notified => exact loopHead_inSync h
  | processing phase hcopy =>
    subst hcopy
    refine call_inSync ?_
    simp only [Chain.InSync, StatementFile.event, StatementStatusEvent.mk.injEq] at h
    simp [StatementFile.event, StatementFile.saveProcessing, h]
  | callFailed exc hcall => rcases hcall with rfl | rfl <;> exact h
  | polled phase state => exact polled_inSync h state
  | extracted hcopy =>
    subst hcopy
    refine loopHead_inSync ?_
    simp only [Chain.InSync, StatementFile.event, StatementStatusEvent.mk.injEq] at h
    simp [Frame.nextPhase, StatementFile.event, StatementFile.saveExtracted,
      StatementFile.saveFailure, StatementFile.finalizeExtraction, h]
  | normalized r hcopy =>
    subst hcopy
    simp only [Chain.InSync, StatementFile.event, StatementStatusEvent.mk.injEq] at h
    simp [Chain.InSync, StatementFile.event, StatementFile.saveNormalized,
      StatementFile.saveExtracted, StatementFile.saveFailure, StatementFile.finalizeNormalization, h]
  | failed phase reason hcopy =>
    subst hcopy
    refine leave_inSync ?_
    simp only [Chain.InSync, StatementFile.event, StatementStatusEvent.mk.injEq] at h
    simp [StatementFile.event, StatementFile.saveFailure, StatementFile.failPhase, h]
  | refreshed exc => rfl
  | recorded exc hcopy =>
    subst hcopy
    refine leave_inSync ?_
    simp only [Chain.InSync, StatementFile.event, StatementStatusEvent.mk.injEq] at h
    simp [StatementFile.event, StatementFile.saveFailure, StatementFile.recordError, h]
  | noOcrRun | submitted | ocrResult | noAccount | oneAccount | newAccount | normalizedRecord =>
    exact h
  | raised | malformed | accounts | refused => exact raise_inSync _
  | noClient | retried | published => trivial

/-! ## Runs -/

namespace Chain

/-- A run of `task` that has read the row. -/
def start (w : PipelineStore) (task : Task) : Chain :=
  .running .getClient { task, statement := w.statement }

/-- A step within one run : a queued task does not start its next one. -/
def bodyStep (w : PipelineStore) : Chain → Reply → Option (PipelineStore × Chain)
  | .running p f, r => f.step w p r
  | _, _ => none

/-- The run is over. -/
def RunOver : Chain → Prop
  | .running _ _ => False
  | _ => True

end Chain

/-- A run of `task` alone, from the store `w` to the store `w'`, on the replies `rs`. It
leaves `c` : the task for the next run, or the end. -/
structure TaskRun (w : PipelineStore) (task : Task) (rs : List Reply) (w' : PipelineStore)
    (c : Chain) : Prop where
  runs : Alone Chain.bodyStep (fun _ _ _ => True) (w, Chain.start w task) rs (w', c)
  runOver : c.RunOver

/-- What a client that listens is told : one event with the persisted columns at the end,
nothing when the task is rescheduled. -/
def ReportsOutcome (w w' : PipelineStore) : Chain → Prop
  | .ended => w'.events = w.events ++ [w'.statement.event]
  | _ => w'.events = w.events

/-! ## Silent runs -/

/-- A reply after which the run publishes nothing although it is not rescheduled :
`get_client()` raises, or `self.retry` raises something other than `Retry`. -/
def Reply.Silences (retries : ℕ) : Reply → Prop
  | .noClient => True
  | .retry scheduled _ => ¬(retries + 1 ≤ maxPollAttempts ∧ scheduled = true)
  | _ => False

/-- `retry_pending` is set only from the call of `self.retry` on. -/
def Point.Tidy (f : Frame) : Point → Prop
  | .retry => f.retryPending = true
  | .refresh _ | .saveError _ => True
  | _ => f.retryPending = false

/-- The run has been refused a retry. -/
def Point.Silent (f : Frame) : Point → Prop
  | .retry => False
  | _ => f.retryPending = true

/-- What a step with the reply `r`, from a point that is `silent` or not, tells a client,
and what it means for the rest of the run. -/
def StepReports (w w' : PipelineStore) (retries : ℕ) (silenced : Prop) : Chain → Prop
  | .running p f => w'.events = w.events ∧ f.task.retries = retries ∧ p.Tidy f ∧
      (p.Silent f ↔ silenced)
  | .queued _ => w'.events = w.events ∧ ¬silenced
  | .ended => (silenced → w'.events = w.events) ∧
      (¬silenced → w'.events = w.events ++ [w'.statement.event])

section StepReports

variable {w w' : PipelineStore} {f : Frame} {phase : Phase} {retries : ℕ} {silenced : Prop}

/-- A run that leaves publishes its event next, unless it is silenced. -/
theorem leave_reports (he : w'.events = w.events) (hr : f.task.retries = retries)
    (hs : f.retryPending = true ↔ silenced) : StepReports w w' retries silenced f.leave := by
  unfold Frame.leave
  split
  · next h => exact ⟨fun _ => he, fun hn => absurd (hs.1 h) hn⟩
  · next h => exact ⟨he, hr, by simpa [Point.Tidy] using h, hs⟩

/-- So does one that raises. -/
theorem raise_reports (he : w'.events = w.events) (hr : f.task.retries = retries)
    (hs : f.retryPending = true ↔ silenced) (exc : String) :
    StepReports w w' retries silenced (f.raise exc) :=
  ⟨he, hr, trivial, hs⟩

variable (hp : f.retryPending = false) (hn : ¬silenced)
include hp hn

/-- No retry is pending, and the run is not silenced. -/
theorem pending_iff : f.retryPending = true ↔ silenced := by simp [hp, hn]

/-- A call publishes nothing yet. -/
theorem call_reports (he : w'.events = w.events) (hr : f.task.retries = retries) :
    StepReports w w' retries silenced (f.call phase) := by
  rcases call_cases f phase with ⟨-, hc⟩ | ⟨-, hc⟩ <;> rw [hc] <;>
    exact ⟨he, hr, hp, pending_iff hp hn⟩

/-- Nor does the head of the loop, before it leaves. -/
theorem loopHead_reports (he : w'.events = w.events) (hr : f.task.retries = retries) :
    StepReports w w' retries silenced f.loopHead := by
  rcases loopHead_cases f with ⟨hl, -⟩ | ⟨phase, -, -, hl | ⟨-, hl⟩⟩ <;> rw [hl]
  · exact leave_reports he hr (pending_iff hp hn)
  · exact ⟨he, hr, hp, pending_iff hp hn⟩
  · exact call_reports hp hn he hr

/-- Nor does a poll. -/
theorem polled_reports (he : w'.events = w.events) (hr : f.task.retries = retries)
    (state : JobState) : StepReports w w' retries silenced (f.polled phase state) := by
  have hi := pending_iff hp hn
  rcases polled_cases f phase state with
    ⟨r, -, hc⟩ | ⟨r, -, hc | hc⟩ | ⟨exc, hc⟩ | ⟨reason, hc⟩ | ⟨-, hc⟩ <;> rw [hc]
  · exact ⟨he, hr, hp, hi⟩
  · exact ⟨he, hr, hp, hi⟩
  · exact ⟨he, hr, hp, hi⟩
  · exact raise_reports he hr hi exc
  · exact ⟨he, hr, hp, hi⟩
  · exact ⟨he, hr, rfl, by simp [Point.Silent, hn]⟩

end StepReports

/-- Before the call of `self.retry`, a run is silent if the flag is set. -/
theorem Point.silent_iff {p : Point} {f : Frame} (h : p.Raises ∨ ∃ phase, p.Calls phase) :
    p.Silent f ↔ f.retryPending = true := by
  cases p with
  | retry => rcases h with h | ⟨phase, h | h⟩ <;> cases h
  | _ => rfl

theorem not_silenced {f : Frame} (h : f.retryPending = false) : ¬(f.retryPending = true ∨ False) := by
  simp [h]

/-- Every step reports as its point and reply say. -/
theorem Frame.step_reports {w w' : PipelineStore} {f : Frame} {p : Point} {r : Reply} {c : Chain}
    (h : (Chain.running p f).InSync w.statement) (ht : p.Tidy f)
    (hs : f.step w p r = some (w', c)) :
    StepReports w w' f.task.retries (p.Silent f ∨ r.Silences f.task.retries) c := by
  cases Frame.step_moves hs with
  | retried exc hle => exact ⟨rfl, by simp [Point.Silent, Reply.Silences, hle]⟩
  | refused exc hbad =>
    have hpending : f.retryPending = true := ht
    exact raise_reports rfl rfl (iff_of_true hpending (Or.inr hbad)) _
  | refreshed exc => exact ⟨rfl, rfl, trivial, by simp [Point.Silent, Reply.Silences]⟩
  | recorded exc hcopy => exact leave_reports rfl rfl (by simp [Point.Silent, Reply.Silences])
  | noClient => exact ⟨fun _ => rfl, fun hn => (hn (Or.inr trivial)).elim⟩
  | published =>
    have hp : f.retryPending = false := ht
    have hsync : f.statement.event = w.statement.event := h
    refine ⟨fun hn => by simp [Point.Silent, Reply.Silences, hp] at hn, fun _ => ?_⟩
    rw [hsync]
  | raised exc hraises =>
    exact raise_reports rfl rfl (by simp [Point.silent_iff (Or.inl hraises), Reply.Silences]) exc
  | malformed exc hcall =>
    exact raise_reports rfl rfl (by simp [Point.silent_iff (Or.inr ⟨_, hcall⟩), Reply.Silences]) exc
  | accounts r exc => exact raise_reports rfl rfl (by simp [Point.Silent, Reply.Silences]) exc
  | callFailed exc hcall =>
    rcases hcall with rfl | rfl <;> exact ⟨rfl, rfl, ht, pending_iff ht (not_silenced ht)⟩
  | client | extracted | notified => exact loopHead_reports ht (not_silenced ht) rfl rfl
  | processing => exact call_reports ht (not_silenced ht) rfl rfl
  | polled phase state => exact polled_reports ht (not_silenced ht) rfl rfl state
  | failed => exact leave_reports rfl rfl (pending_iff (f := f) ht (not_silenced ht))
  | noOcrRun | submitted | ocrResult | noAccount | oneAccount | newAccount | normalizedRecord
  | normalized => exact ⟨rfl, rfl, ht, pending_iff (f := f) ht (not_silenced ht)⟩

/-! ## What a run reports -/

/-- Only the events and what silences count. -/
theorem StepReports.congr {w v w' : PipelineStore} {retries : ℕ} {silenced silenced' : Prop}
    {c : Chain} (he : v.events = w.events) (hs : silenced' ↔ silenced)
    (h : StepReports v w' retries silenced' c) : StepReports w w' retries silenced c := by
  cases c <;> simpa only [StepReports, he, hs] using h

/-- From any point, the rest of a run reports unless it is silenced before or on the way. -/
theorem run_reports {x y : PipelineStore × Chain} {rs : List Reply}
    (h : Alone Chain.bodyStep (fun _ _ _ => True) x rs y) (hy : y.2.RunOver) :
    ∀ {p : Point} {f : Frame}, x.2 = .running p f → x.2.InSync x.1.statement → p.Tidy f →
      StepReports x.1 y.1 f.task.retries
        (p.Silent f ∨ ∃ r ∈ rs, r.Silences f.task.retries) y.2 := by
  induction h with
  | nil c =>
    intro p f hc
    rw [hc] at hy
    exact hy.elim
  | @cons w v t c r rs d _ hstep hrest ih =>
    intro p f hc hsync ht
    obtain rfl : t = .running p f := hc
    have hr := Frame.step_reports hsync ht hstep
    have hsync' := Frame.step_inSync hsync hstep
    cases c with
    | running p' f' =>
      obtain ⟨he, hret, ht', hsil⟩ := hr
      refine (hret ▸ ih hy rfl hsync' ht').congr he ?_
      rw [hsil, List.exists_mem_cons_iff, or_assoc]
    | queued t =>
      cases hrest with
      | nil => simpa using hr
      | cons _ hs _ => simp [Chain.bodyStep] at hs
    | ended =>
      cases hrest with
      | nil => simpa using hr
      | cons _ hs _ => simp [Chain.bodyStep] at hs

/-- A run that is over has reported its outcome unless a reply silenced it. -/
theorem TaskRun.reports {w w' : PipelineStore} {task : Task} {rs : List Reply} {c : Chain}
    (h : TaskRun w task rs w' c) :
    StepReports w w' task.retries (∃ r ∈ rs, r.Silences task.retries) c := by
  have hrun := run_reports h.runs h.runOver rfl rfl rfl
  exact hrun.congr rfl (by simp [Point.Silent])

/-- A run of the task, on any row and with any answers, publishes one event with the
persisted columns at its end, and none when it is rescheduled, if and only if
`get_client()` returns and every `self.retry` it calls is within `max_retries` and taken by
the broker. -/
theorem TaskRun.reportsOutcome_iff {w w' : PipelineStore} {task : Task} {rs : List Reply}
    {c : Chain} (h : TaskRun w task rs w' c) :
    ReportsOutcome w w' c ↔ Reply.noClient ∉ rs ∧ ∀ scheduled exc,
      Reply.retry scheduled exc ∈ rs → task.retries + 1 ≤ maxPollAttempts ∧ scheduled = true := by
  have hsil : (Reply.noClient ∉ rs ∧ ∀ scheduled exc, Reply.retry scheduled exc ∈ rs →
      task.retries + 1 ≤ maxPollAttempts ∧ scheduled = true) ↔
      ¬∃ r ∈ rs, r.Silences task.retries := by
    constructor
    · rintro ⟨hc, hr⟩ ⟨r, hmem, hs⟩
      cases r with
      | noClient => exact hc hmem
      | retry scheduled exc => exact hs (hr scheduled exc hmem)
      | done | raises | submission | job | malformed => exact hs
    · intro hn
      refine ⟨fun hc => hn ⟨_, hc, trivial⟩, fun scheduled exc hmem => ?_⟩
      by_contra hbad
      exact hn ⟨_, hmem, hbad⟩
  rw [hsil]
  have hr := h.reports
  cases c with
  | queued t => exact ⟨fun _ => hr.2, fun _ => hr.1⟩
  | running p f => exact h.runOver.elim
  | ended =>
    refine ⟨fun ho hs => ?_, hr.2⟩
    have hlen := congrArg List.length ((hr.1 hs).symm.trans ho)
    simp at hlen

/-- A statement on its way to normalization, as the upload left it. -/
def busyStatement (status : StatementStatus) : StatementFile :=
  { id := 1, user := 1, status, isProcessing := true }

/-- A job that fails. -/
theorem TaskRun.reportsOutcome_failedJob :
    ReportsOutcome { statement := busyStatement .uploaded }
      { statement := (busyStatement .uploaded).failPhase .extraction "OCR engine timed out"
        events := [((busyStatement .uploaded).failPhase .extraction "OCR engine timed out").event]
        phaseLog := [.polled .extraction] }
      .ended :=
  (@TaskRun.reportsOutcome_iff { statement := busyStatement .uploaded } _
    { targetStatus := .normalized, jobId := some "job-1", pollAttempt := 3, retries := 3 }
    [.done, .job (.failed (some "OCR engine timed out")), .done, .done] .ended
    ⟨.of_drive (fun _ _ _ _ => trivial) (by decide), trivial⟩).2 (by simp)

/-- The normalization job of a chain whose extraction took 240 polls is still running at
its second poll. Celery refuses the 241st retry of the chain; the failure is on the row,
and the client that was told to wait is never told. -/
theorem refusedRetry_silent :
    ¬∀ (w w' : PipelineStore) (task : Task) (rs : List Reply) (c : Chain),
      TaskRun w task rs w' c → Reply.noClient ∉ rs → ReportsOutcome w w' c := by
  intro h
  let task : Task :=
    { targetStatus := .normalized, jobId := some "job-2", pollAttempt := 1, retries := 240 }
  have hr := h { statement := busyStatement .extracted }
    { statement := (busyStatement .extracted).recordError "Can't retry"
      phaseLog := [.polled .normalization] } task
    [.done, .job .pending, .retry true "Can't retry", .done, .done] .ended
    ⟨.of_drive (fun _ _ _ _ => trivial) (by decide), trivial⟩ (by decide)
  exact absurd hr (by simp [ReportsOutcome])

end NbeAdvisor
