import NbeAdvisor.Columns
import NbeAdvisor.Interleave

/-!
# The statement pipeline task

`process_statement_pipeline`, one database statement or outside call at a time. A chain
is the task as it lives through its runs : queued (first or by `self.retry`), running at
a `Point`, or ended. A point is the next statement or call of the body; the pure code
between two of them (the loop test, the assignments to the in-memory row) belongs to the
step before. The answers of the AI service, of the database and of the broker are the
`Reply` of the surroundings, so any of them may raise where the code can see it raise.

Two statements and one read have no raising reply : the first read of the row, and the
`refresh_from_db` and `save` of the outer exception handler, which is the last resort of
the code itself.

`Chain.step` is the body, and `Frame.Moves` its steps as a relation, from which every
invariant below is derived. `Chain.Agrees` is what each point of a chain that has the row
to itself relies on : the copy in memory agrees with the row in the columns that decide.
`Chain.step_agrees` keeps it on every reply. What the chain does to the rows, and how it
ends, is built on it in the later modules.
-/

namespace NbeAdvisor

open Interleave

/-- `POLL_INTERVAL_SECONDS`. -/
def pollIntervalSeconds : ℕ := 15

/-- `MAX_POLL_ATTEMPTS`, both the bound on `poll_attempt` and the `max_retries` of
`self.retry`. -/
def maxPollAttempts : ℕ := 240

/-! ## What the AI service answers -/

/-- `result` of an extraction job. -/
structure ExtractionResult where
  storageKey : String
  ocrEngine : String
  confidenceScore : ℚ
  deriving DecidableEq

/-- `result` of a normalization job. -/
structure NormalizationResult where
  normalizedJson : NormalizedJson
  modelUsed : String
  deriving DecidableEq

/-- The result of a job, by its phase. -/
inductive JobResult where
  | extraction (r : ExtractionResult)
  | normalization (r : NormalizationResult)
  deriving DecidableEq

/-- `state` of a job with what comes with it. Any state other than the two terminal ones
is polled again. -/
inductive JobState where
  | succeeded (result : JobResult)
  | failed (error : Option String)
  | pending
  deriving DecidableEq

/-- What the surroundings answer at a point. -/
inductive Reply where
  /-- The statement or call went through. -/
  | done
  /-- It raised, with this `str(exc)`. -/
  | raises (exc : String)
  /-- `get_client()` raised. -/
  | noClient
  /-- A submission was accepted : its `job_id`, which JSON may give as null. -/
  | submission (jobId : Option String)
  | job (state : JobState)
  /-- The response lacks a key that the code reads outside its inner `try`. -/
  | malformed (exc : String)
  /-- The broker takes the retry message, or does not and `self.retry` raises. -/
  | retry (scheduled : Bool) (exc : String)
  deriving DecidableEq

/-! ## What the task writes and sends -/

/-- The payload of a `statement_status` event, with the user it goes to. -/
structure StatementStatusEvent where
  user : UserId
  statementId : StatementId
  status : StatementStatus
  isProcessing : Bool
  failureReason : Option String
  failedPhase : Option Phase
  deriving DecidableEq, Repr

/-- The event of the statement as it is. -/
def StatementFile.event (s : StatementFile) : StatementStatusEvent :=
  ⟨s.user, s.id, s.status, s.isProcessing, s.failureReason, s.failedPhase⟩

/-- A mail to a user. -/
structure Email where
  user : UserId
  subject : String
  body : String
  deriving DecidableEq, Repr

/-- What a chain has done about a phase : handed it to the AI service, read the state of
its job, or written its result and status. -/
inductive PhaseEvent where
  | submitted (p : Phase)
  | polled (p : Phase)
  | finished (p : Phase)
  deriving DecidableEq, Repr

/-- The database as the pipeline sees it, and what has left the process : published
events, emails, and what was done about the phases. -/
structure PipelineStore extends StatementRows where
  accounts : List BankAccount := []
  events : List StatementStatusEvent := []
  emails : List Email := []
  phaseLog : List PhaseEvent := []
  deriving DecidableEq

namespace StatementFile

/-- The assignments of `_finalize_extraction_phase`. -/
def finalizeExtraction (s : StatementFile) : StatementFile :=
  { s with status := .extracted, failureReason := none, failedPhase := none, isProcessing := false }

/-- The assignments of `_finalize_normalization_phase`. An empty batch leaves the two
dates as they were. -/
def finalizeNormalization (s : StatementFile) (n : NormalizedJson) : StatementFile :=
  let transactionDates := n.transactions.map NormalizedTransaction.transactionDate
  { s with
    status := .normalized, failureReason := none, failedPhase := none, isProcessing := false
    startTransactionDate := transactionDates.min?.or s.startTransactionDate
    lastTransactionDate := transactionDates.max?.or s.lastTransactionDate }

/-- The assignments of `_fail_phase`. -/
def failPhase (s : StatementFile) (phase : Phase) (reason : String) : StatementFile :=
  { s with failureReason := some reason, failedPhase := some phase, isProcessing := false }

/-- The assignments of the outer exception handler. -/
def recordError (s : StatementFile) (exc : String) : StatementFile :=
  { s with
    isProcessing := false, failureReason := some exc
    failedPhase := s.failedPhase.or s.status.phaseForStatus }

/-- The assignment of `advance_statement_to`. -/
def markProcessing (s : StatementFile) : StatementFile := { s with isProcessing := true }

/-- `save(update_fields=["is_processing"])` of the copy `s` onto the row. -/
def saveProcessing (row s : StatementFile) : StatementFile :=
  { row with isProcessing := s.isProcessing }

/-- `save(update_fields=["failure_reason", "failed_phase", "is_processing"])`. -/
def saveFailure (row s : StatementFile) : StatementFile :=
  { row with
    failureReason := s.failureReason, failedPhase := s.failedPhase, isProcessing := s.isProcessing }

/-- The save of `_finalize_extraction_phase`. -/
def saveExtracted (row s : StatementFile) : StatementFile :=
  { row.saveFailure s with status := s.status }

/-- The save of `_finalize_normalization_phase`. -/
def saveNormalized (row s : StatementFile) : StatementFile :=
  { row.saveExtracted s with
    account := s.account
    startTransactionDate := s.startTransactionDate, lastTransactionDate := s.lastTransactionDate }

end StatementFile

/-! ## The task -/

/-- The arguments a task is queued with, and its `self.request.retries`. -/
structure Task where
  targetStatus : StatementStatus
  jobId : Option String := none
  pollAttempt : ℕ := 0
  retries : ℕ := 0
  deriving DecidableEq, Repr

/-- The task as `advance_statement_to` first queues it. -/
def AdvanceTarget.task (target : AdvanceTarget) : Task := { targetStatus := target.status }

/-- The locals of a run : its arguments, of which the loop updates `job_id` and
`poll_attempt`, the copy of the row in memory, and `retry_pending`. -/
structure Frame where
  task : Task
  statement : StatementFile
  retryPending : Bool := false
  deriving DecidableEq

/-- The next statement or call of a run. -/
inductive Point where
  | getClient
  | saveProcessing (phase : Phase)
  | submit (phase : Phase)
  | poll (phase : Phase)
  | createOcrResult (r : ExtractionResult)
  | saveExtracted
  | getAccount (r : NormalizationResult)
  | createAccount (r : NormalizationResult)
  | createNormalized (r : NormalizationResult)
  | saveNormalized (r : NormalizationResult)
  | notify (r : NormalizationResult)
  | saveFailed (phase : Phase) (reason : String)
  | retry
  | refresh (exc : String)
  | saveError (exc : String)
  | publish
  deriving DecidableEq

/-- A task of a statement, queued, at a point or over. -/
inductive Chain where
  | queued (task : Task)
  | running (point : Point) (frame : Frame)
  | ended
  deriving DecidableEq

namespace Frame

/-- The `finally` block. -/
def leave (f : Frame) : Chain :=
  if f.retryPending then .ended else .running .publish f

/-- An exception reaches the outer handler, which first reloads the row. -/
def raise (f : Frame) (exc : String) : Chain := .running (.refresh exc) f

/-- The job is submitted unless the run resumes one. -/
def call (f : Frame) (phase : Phase) : Chain :=
  match f.task.jobId with
  | none => .running (.submit phase) f
  | some _ => .running (.poll phase) f

/-- The head of the `while` loop, up to its first statement. -/
def loopHead (f : Frame) : Chain :=
  if f.statement.status.rank < f.task.targetStatus.rank then
    match f.statement.status.phaseForStatus with
    | none => f.leave
    | some phase =>
      if f.statement.isProcessing then f.call phase else .running (.saveProcessing phase) f
  else f.leave

/-- `job_id, poll_attempt = None, 0`, then the next turn of the loop with the row as the
finalizer left it. -/
def nextPhase (f : Frame) (s : StatementFile) : Frame :=
  { f with task := { f.task with jobId := none, pollAttempt := 0 }, statement := s }

/-- The finalizer of a phase, up to its first statement. A result of the other phase
lacks the key that the finalizer reads first. -/
def finalize (f : Frame) : Phase → JobResult → Chain
  | .extraction, .extraction r => .running (.createOcrResult r) f
  | .extraction, .normalization _ => f.raise "'prefix'"
  | .normalization, .normalization r =>
    if f.statement.account = none then .running (.getAccount r) f
    else .running (.createNormalized r) f
  | .normalization, .extraction _ => f.raise "'normalized_json'"

/-- The reason recorded when the poll budget of a job is used up. -/
def budgetReason (f : Frame) : String :=
  "AI service job " ++ f.task.jobId.getD "None" ++ " did not complete after " ++
    toString maxPollAttempts ++ " polls (" ++ toString (maxPollAttempts * pollIntervalSeconds) ++ "s)"

/-- `status.get("error") or "AI service job failed"`. -/
def errorReason (error : Option String) : String :=
  match error with
  | none | some "" => "AI service job failed"
  | some e => e

/-- A poll that found the job neither succeeded nor failed. -/
def pollAgain (f : Frame) (phase : Phase) : Chain :=
  if maxPollAttempts ≤ f.task.pollAttempt then .running (.saveFailed phase f.budgetReason) f
  else .running .retry { f with retryPending := true }

/-- What a poll of the job leads to. -/
def polled (f : Frame) (phase : Phase) : JobState → Chain
  | .succeeded result => f.finalize phase result
  | .failed error => .running (.saveFailed phase (errorReason error)) f
  | .pending => f.pollAgain phase

/-- The task that `self.retry` queues. -/
def retryTask (f : Frame) : Task :=
  { f.task with pollAttempt := f.task.pollAttempt + 1, retries := f.task.retries + 1 }

end Frame

namespace NormalizedJson

/-- `normalized.get("bank_name") or "Unknown Bank"`. -/
def bankNameOrUnknown (n : NormalizedJson) : String :=
  match n.bankName with
  | none | some "" => "Unknown Bank"
  | some b => b

/-- `normalized.get("account_number") or "unknown"`. -/
def accountNumberOrUnknown (n : NormalizedJson) : String :=
  match n.accountNumber with
  | none | some "" => "unknown"
  | some a => a

end NormalizedJson

namespace PipelineStore

/-- The lookup of `BankAccount.objects.get_or_create`. -/
def accountsMatching (w : PipelineStore) (user : UserId) (n : NormalizedJson) : List BankAccount :=
  w.accounts.filter fun a =>
    a.user = user ∧ a.bankName = n.bankNameOrUnknown ∧ a.accountNumber = n.accountNumberOrUnknown

/-- A primary key no account has. -/
def freshAccountId (w : PipelineStore) : AccountId :=
  (w.accounts.map BankAccount.id).foldr max 0 + 1

/-- The account that `get_or_create` makes, as the columns keep it. -/
def newAccount (w : PipelineStore) (user : UserId) (n : NormalizedJson) : BankAccount :=
  { id := w.freshAccountId, user, bankName := cutBlanks 255 n.bankNameOrUnknown
    accountNumber := cutBlanks 50 n.accountNumberOrUnknown }

/-- The statement row after an update. -/
def withStatement (w : PipelineStore) (s : StatementFile) : PipelineStore :=
  { w with statement := s }

@[simp] theorem withStatement_statement (w : PipelineStore) (s : StatementFile) :
    (w.withStatement s).statement = s := rfl
@[simp] theorem withStatement_ocrResults (w : PipelineStore) (s : StatementFile) :
    (w.withStatement s).ocrResults = w.ocrResults := rfl
@[simp] theorem withStatement_normalizedRecords (w : PipelineStore) (s : StatementFile) :
    (w.withStatement s).normalizedRecords = w.normalizedRecords := rfl
@[simp] theorem withStatement_events (w : PipelineStore) (s : StatementFile) :
    (w.withStatement s).events = w.events := rfl
@[simp] theorem withStatement_phaseLog (w : PipelineStore) (s : StatementFile) :
    (w.withStatement s).phaseLog = w.phaseLog := rfl

/-- What is logged of a phase. -/
def logPhase (w : PipelineStore) (e : PhaseEvent) : PipelineStore :=
  { w with phaseLog := w.phaseLog ++ [e] }

@[simp] theorem logPhase_toStatementRows (w : PipelineStore) (e : PhaseEvent) :
    (w.logPhase e).toStatementRows = w.toStatementRows := rfl
@[simp] theorem logPhase_events (w : PipelineStore) (e : PhaseEvent) :
    (w.logPhase e).events = w.events := rfl
@[simp] theorem logPhase_phaseLog (w : PipelineStore) (e : PhaseEvent) :
    (w.logPhase e).phaseLog = w.phaseLog ++ [e] := rfl

end PipelineStore

/-- The email of `_finalize_normalization_phase`. -/
def readyEmail (user : UserId) (r : NormalizationResult) : Email :=
  { user, subject := "Your statement is ready to review"
    body := toString r.normalizedJson.transactions.length ++
      " transaction(s) were found in your uploaded statement and are ready to review in the app." }

/-- The message of the `AttributeError` on a statement without an OCR result. -/
def noOcrRunReason : String := "'NoneType' object has no attribute 'id'"

/-- The `MultipleObjectsReturned` message of `get_or_create`. -/
def multipleAccountsReason (n : ℕ) : String :=
  "get() returned more than one BankAccount -- it returned " ++ toString n ++ "!"

/-- One statement or call of a run. `none` where the reply does not fit the point. The client is
made outside the `try`, so that nothing follows if this fails, no handler and no event. A retry
raises past `max_retries`, and if the broker refuses it. -/
def Frame.step (w : PipelineStore) (f : Frame) : Point → Reply → Option (PipelineStore × Chain)
  | .getClient, .done => some (w, f.loopHead)
  | .getClient, .noClient => some (w, .ended)
  | .saveProcessing phase, .done =>
    let s := { f.statement with isProcessing := true }
    some (w.withStatement (w.statement.saveProcessing s), { f with statement := s }.call phase)
  | .saveProcessing _, .raises exc => some (w, f.raise exc)
  | .submit phase, .submission jobId =>
    if phase = .normalization ∧ w.ocrResults = [] then
      some (w, .running (.saveFailed phase noOcrRunReason) f)
    else
      some (w.logPhase (.submitted phase),
        .running (.poll phase) { f with task := { f.task with jobId } })
  | .submit phase, .raises exc => some (w, .running (.saveFailed phase exc) f)
  | .submit _, .malformed exc => some (w, f.raise exc)
  | .poll phase, .job state => some (w.logPhase (.polled phase), f.polled phase state)
  | .poll phase, .raises exc => some (w, .running (.saveFailed phase exc) f)
  | .poll _, .malformed exc => some (w, f.raise exc)
  | .createOcrResult r, .done =>
    some ({ w with ocrResults := w.ocrResults ++ [⟨r.storageKey, r.ocrEngine, r.confidenceScore⟩] },
      .running .saveExtracted f)
  | .createOcrResult _, .raises exc => some (w, f.raise exc)
  | .saveExtracted, .done =>
    let s := f.statement.finalizeExtraction
    some ((w.withStatement (w.statement.saveExtracted s)).logPhase (.finished .extraction),
      (f.nextPhase s).loopHead)
  | .saveExtracted, .raises exc => some (w, f.raise exc)
  | .getAccount r, .done =>
    match w.accountsMatching f.statement.user r.normalizedJson with
    | [] => some (w, .running (.createAccount r) f)
    | [a] =>
      some (w, .running (.createNormalized r)
        { f with statement := { f.statement with account := some a.id } })
    | matching => some (w, f.raise (multipleAccountsReason matching.length))
  | .getAccount _, .raises exc => some (w, f.raise exc)
  | .createAccount r, .done =>
    let a := w.newAccount f.statement.user r.normalizedJson
    some ({ w with accounts := w.accounts ++ [a] }, .running (.createNormalized r)
      { f with statement := { f.statement with account := some a.id } })
  | .createAccount _, .raises exc => some (w, f.raise exc)
  | .createNormalized r, .done =>
    some ({ w with normalizedRecords := w.normalizedRecords ++ [⟨r.normalizedJson, r.modelUsed⟩] },
      .running (.saveNormalized r) f)
  | .createNormalized _, .raises exc => some (w, f.raise exc)
  | .saveNormalized r, .done =>
    let s := f.statement.finalizeNormalization r.normalizedJson
    some ((w.withStatement (w.statement.saveNormalized s)).logPhase (.finished .normalization),
      .running (.notify r) { f with statement := s })
  | .saveNormalized _, .raises exc => some (w, f.raise exc)
  | .notify r, .done =>
    some ({ w with emails := w.emails ++ [readyEmail f.statement.user r] },
      (f.nextPhase f.statement).loopHead)
  | .notify _, .raises exc => some (w, f.raise exc)
  | .saveFailed phase reason, .done =>
    let s := f.statement.failPhase phase reason
    some (w.withStatement (w.statement.saveFailure s), { f with statement := s }.leave)
  | .saveFailed _ _, .raises exc => some (w, f.raise exc)
  | .retry, .retry scheduled exc =>
    if f.task.retries + 1 ≤ maxPollAttempts ∧ scheduled then some (w, .queued f.retryTask)
    else some (w, f.raise exc)
  | .refresh exc, .done => some (w, .running (.saveError exc) { f with statement := w.statement })
  | .saveError exc, .done =>
    let s := f.statement.recordError exc
    some (w.withStatement (w.statement.saveFailure s), { f with statement := s }.leave)
  | .publish, .done => some ({ w with events := w.events ++ [f.statement.event] }, .ended)
  | _, _ => none

/-- One step of a chain. A queued task starts by reading the row. -/
def Chain.step (w : PipelineStore) : Chain → Reply → Option (PipelineStore × Chain)
  | .queued t, .done => some (w, .running .getClient { task := t, statement := w.statement })
  | .running p f, r => f.step w p r
  | _, _ => none

/-! ## What a step can be -/

/-- The database statements and the email, whose exceptions reach the outer handler. -/
def Point.Raises : Point → Prop
  | .getClient | .submit _ | .poll _ | .retry | .refresh _ | .saveError _ | .publish => False
  | _ => True

/-- The calls of the AI service in a phase. -/
def Point.Calls (phase : Phase) (p : Point) : Prop := p = .submit phase ∨ p = .poll phase

/-- The steps of a run, by what they do to the store and where they lead. -/
inductive Frame.Moves (w : PipelineStore) (f : Frame) :
    Point → Reply → PipelineStore → Chain → Prop where
  | client : Moves w f .getClient .done w f.loopHead
  | noClient : Moves w f .getClient .noClient w .ended
  | processing (phase : Phase) {s : StatementFile} :
      s = { f.statement with isProcessing := true } →
      Moves w f (.saveProcessing phase) .done (w.withStatement (w.statement.saveProcessing s))
        ({ f with statement := s }.call phase)
  | raised {p : Point} (exc : String) : p.Raises → Moves w f p (.raises exc) w (f.raise exc)
  | malformed {p : Point} {phase : Phase} (exc : String) : p.Calls phase →
      Moves w f p (.malformed exc) w (f.raise exc)
  | callFailed {p : Point} {phase : Phase} (exc : String) : p.Calls phase →
      Moves w f p (.raises exc) w (.running (.saveFailed phase exc) f)
  | noOcrRun (jobId : Option String) : w.ocrResults = [] →
      Moves w f (.submit .normalization) (.submission jobId) w
        (.running (.saveFailed .normalization noOcrRunReason) f)
  | submitted {phase : Phase} (jobId : Option String) :
      ¬(phase = .normalization ∧ w.ocrResults = []) →
      Moves w f (.submit phase) (.submission jobId) (w.logPhase (.submitted phase))
        (.running (.poll phase) { f with task := { f.task with jobId } })
  | polled (phase : Phase) (state : JobState) :
      Moves w f (.poll phase) (.job state) (w.logPhase (.polled phase)) (f.polled phase state)
  | ocrResult (r : ExtractionResult) :
      Moves w f (.createOcrResult r) .done
        { w with ocrResults := w.ocrResults ++ [⟨r.storageKey, r.ocrEngine, r.confidenceScore⟩] }
        (.running .saveExtracted f)
  | extracted {s : StatementFile} : s = f.statement.finalizeExtraction →
      Moves w f .saveExtracted .done
        ((w.withStatement (w.statement.saveExtracted s)).logPhase (.finished .extraction))
        (f.nextPhase s).loopHead
  | noAccount (r : NormalizationResult) :
      w.accountsMatching f.statement.user r.normalizedJson = [] →
      Moves w f (.getAccount r) .done w (.running (.createAccount r) f)
  | oneAccount (r : NormalizationResult) {a : BankAccount} :
      w.accountsMatching f.statement.user r.normalizedJson = [a] →
      Moves w f (.getAccount r) .done w (.running (.createNormalized r)
        { f with statement := { f.statement with account := some a.id } })
  | accounts (r : NormalizationResult) (exc : String) :
      1 < (w.accountsMatching f.statement.user r.normalizedJson).length →
      Moves w f (.getAccount r) .done w (f.raise exc)
  | newAccount (r : NormalizationResult) {a : BankAccount} :
      a = w.newAccount f.statement.user r.normalizedJson →
      Moves w f (.createAccount r) .done { w with accounts := w.accounts ++ [a] }
        (.running (.createNormalized r)
          { f with statement := { f.statement with account := some a.id } })
  | normalizedRecord (r : NormalizationResult) :
      Moves w f (.createNormalized r) .done
        { w with normalizedRecords := w.normalizedRecords ++ [⟨r.normalizedJson, r.modelUsed⟩] }
        (.running (.saveNormalized r) f)
  | normalized (r : NormalizationResult) {s : StatementFile} :
      s = f.statement.finalizeNormalization r.normalizedJson →
      Moves w f (.saveNormalized r) .done
        ((w.withStatement (w.statement.saveNormalized s)).logPhase (.finished .normalization))
        (.running (.notify r) { f with statement := s })
  | notified (r : NormalizationResult) :
      Moves w f (.notify r) .done { w with emails := w.emails ++ [readyEmail f.statement.user r] }
        (f.nextPhase f.statement).loopHead
  | failed (phase : Phase) (reason : String) {s : StatementFile} :
      s = f.statement.failPhase phase reason →
      Moves w f (.saveFailed phase reason) .done (w.withStatement (w.statement.saveFailure s))
        { f with statement := s }.leave
  | retried (exc : String) : f.task.retries + 1 ≤ maxPollAttempts →
      Moves w f .retry (.retry true exc) w (.queued f.retryTask)
  | refused {scheduled : Bool} (exc : String) :
      ¬(f.task.retries + 1 ≤ maxPollAttempts ∧ scheduled = true) →
      Moves w f .retry (.retry scheduled exc) w (f.raise exc)
  | refreshed (exc : String) :
      Moves w f (.refresh exc) .done w (.running (.saveError exc) { f with statement := w.statement })
  | recorded (exc : String) {s : StatementFile} : s = f.statement.recordError exc →
      Moves w f (.saveError exc) .done (w.withStatement (w.statement.saveFailure s))
        { f with statement := s }.leave
  | published :
      Moves w f .publish .done { w with events := w.events ++ [f.statement.event] } .ended

theorem Frame.step_moves {w w' : PipelineStore} {f : Frame} {p : Point} {r : Reply} {c : Chain}
    (hs : f.step w p r = some (w', c)) : f.Moves w p r w' c := by
  cases p <;> cases r <;>
    simp only [Frame.step, reduceCtorEq, Option.some.injEq, Prod.mk.injEq] at hs
  case submit.submission phase jobId =>
    split at hs <;> cases hs
    · next h =>
      obtain ⟨rfl, hnil⟩ := h
      exact .noOcrRun jobId hnil
    · next h => exact .submitted jobId h
  case getAccount.done r =>
    split at hs <;> cases hs
    · next h => exact .noAccount r h
    · next h => exact .oneAccount r h
    · next hnil hone =>
      refine .accounts r _ ?_
      rcases hm : w.accountsMatching f.statement.user r.normalizedJson with _ | ⟨a, _ | ⟨b, l⟩⟩
      · exact absurd hm hnil
      · exact absurd hm (hone a)
      · simp
  case retry.retry scheduled exc =>
    split at hs <;> cases hs
    · next h =>
      obtain ⟨hle, rfl⟩ := h
      exact .retried exc hle
    · next h => exact .refused exc h
  all_goals obtain ⟨rfl, rfl⟩ := hs
  case getClient.done => exact .client
  case getClient.noClient => exact .noClient
  case saveProcessing.done => exact .processing _ rfl
  case submit.raises => exact .callFailed _ (Or.inl rfl)
  case submit.malformed => exact .malformed _ (Or.inl rfl)
  case poll.raises => exact .callFailed _ (Or.inr rfl)
  case poll.malformed => exact .malformed _ (Or.inr rfl)
  case poll.job => exact .polled _ _
  case createOcrResult.done => exact .ocrResult _
  case saveExtracted.done => exact .extracted rfl
  case createAccount.done => exact .newAccount _ rfl
  case createNormalized.done => exact .normalizedRecord _
  case saveNormalized.done => exact .normalized _ rfl
  case notify.done => exact .notified _
  case saveFailed.done => exact .failed _ _ rfl
  case refresh.done => exact .refreshed _
  case saveError.done => exact .recorded _ rfl
  case publish.done => exact .published
  all_goals exact .raised _ trivial

/-- A step of a chain starts a run that reads the row, or is one of its run. -/
inductive Chain.Moves (w : PipelineStore) : Chain → Reply → PipelineStore → Chain → Prop where
  | started (t : Task) :
      Moves w (.queued t) .done w (.running .getClient { task := t, statement := w.statement })
  | runs {p : Point} {f : Frame} {r : Reply} {w' : PipelineStore} {c : Chain} :
      f.step w p r = some (w', c) → Moves w (.running p f) r w' c

theorem Chain.step_moves {w w' : PipelineStore} {c c' : Chain} {r : Reply}
    (hs : c.step w r = some (w', c')) : c.Moves w r w' c' := by
  unfold Chain.step at hs
  split at hs
  · cases hs
    exact .started _
  · exact .runs hs
  · cases hs

/-! ## What each point knows of the row -/

/-- What a point relies on of the status and the flag of the row, and of their copies in
memory. From the email on, the chain writes no status, so it relies on nothing. -/
def Point.Agrees (row : StatementFile) (f : Frame) : Point → Prop
  | .getClient => row.isProcessing = true ∧ row.status.rank < f.task.targetStatus.rank ∧
      f.statement.status = row.status ∧ f.statement.isProcessing = true
  | .saveProcessing phase => row.status = phase.source ∧ f.statement.status = phase.source ∧
      phase.source.rank < f.task.targetStatus.rank
  | .submit phase | .poll phase | .saveFailed phase _ => row.isProcessing = true ∧
      row.status = phase.source ∧ f.statement.status = phase.source ∧
      phase.source.rank < f.task.targetStatus.rank
  | .createOcrResult _ | .saveExtracted => row.isProcessing = true ∧
      row.status = .uploaded ∧ 0 < f.task.targetStatus.rank
  | .getAccount _ | .createAccount _ | .createNormalized _ | .saveNormalized _ =>
      row.isProcessing = true ∧ row.status = .extracted ∧ 1 < f.task.targetStatus.rank
  | .notify _ => f.statement.status = .normalized
  | .retry => row.isProcessing = true ∧ row.status.rank < f.task.targetStatus.rank
  | .refresh _ | .saveError _ | .publish => True

namespace Chain

/-- A chain that has the row to itself up to the email. While it waits, the flag is on
and the target ahead. -/
def Agrees (row : StatementFile) : Chain → Prop
  | .queued t => row.isProcessing = true ∧ row.status.rank < t.targetStatus.rank
  | .running p f => p.Agrees row f
  | .ended => True

/-- The target of a chain, while it has not ended. -/
def Targets (target : StatementStatus) : Chain → Prop
  | .queued t => t.targetStatus = target
  | .running _ f => f.task.targetStatus = target
  | .ended => True

end Chain

section Agrees

variable {row : StatementFile} {f : Frame} {phase : Phase}

/-- The head of the loop leaves it, or goes on with the phase of the status. -/
theorem loopHead_cases (f : Frame) :
    (f.loopHead = f.leave ∧ (f.task.targetStatus.rank ≤ f.statement.status.rank ∨
      f.statement.status.phaseForStatus = none)) ∨
    ∃ phase : Phase, f.statement.status = phase.source ∧
      phase.source.rank < f.task.targetStatus.rank ∧
      (f.loopHead = .running (.saveProcessing phase) f ∨
        f.statement.isProcessing = true ∧ f.loopHead = f.call phase) := by
  unfold Frame.loopHead
  split
  · next ht =>
    split
    · next hn => exact Or.inl ⟨rfl, Or.inr hn⟩
    · next phase hph =>
      rw [phaseForStatus_eq_some] at hph
      refine Or.inr ⟨phase, hph, hph ▸ ht, ?_⟩
      split
      · next hproc => exact Or.inr ⟨hproc, rfl⟩
      · exact Or.inl rfl
  · next ht => exact Or.inl ⟨rfl, Or.inl (Nat.le_of_not_lt ht)⟩

/-- No phase runs from `normalized`. -/
theorem loopHead_normalized (h : f.statement.status = .normalized) : f.loopHead = f.leave := by
  simp [Frame.loopHead, h, StatementStatus.phaseForStatus]

/-- A run that resumes a job polls it, another submits one. -/
theorem call_cases (f : Frame) (phase : Phase) :
    (f.task.jobId = none ∧ f.call phase = .running (.submit phase) f) ∨
    (f.task.jobId ≠ none ∧ f.call phase = .running (.poll phase) f) := by
  unfold Frame.call
  split
  · next h => exact Or.inl ⟨h, rfl⟩
  · next h => exact Or.inr ⟨by simp [h], rfl⟩

/-- A poll leads to the finalizer of its phase, to the handler, to a recorded failure or
to a retry. -/
theorem polled_cases (f : Frame) (phase : Phase) (state : JobState) :
    (∃ r, phase = .extraction ∧ f.polled phase state = .running (.createOcrResult r) f) ∨
    (∃ r, phase = .normalization ∧ (f.polled phase state = .running (.getAccount r) f ∨
      f.polled phase state = .running (.createNormalized r) f)) ∨
    (∃ exc, f.polled phase state = f.raise exc) ∨
    (∃ reason, f.polled phase state = .running (.saveFailed phase reason) f) ∨
    (state = .pending ∧ f.polled phase state = .running .retry { f with retryPending := true }) := by
  cases state with
  | succeeded result =>
    cases phase <;> rcases result with r | r
    · exact Or.inl ⟨r, rfl, rfl⟩
    · exact Or.inr (Or.inr (Or.inl ⟨_, rfl⟩))
    · exact Or.inr (Or.inr (Or.inl ⟨_, rfl⟩))
    · refine Or.inr (Or.inl ⟨r, rfl, ?_⟩)
      simp only [Frame.polled, Frame.finalize]
      split
      · exact Or.inl rfl
      · exact Or.inr rfl
  | failed error => exact Or.inr (Or.inr (Or.inr (Or.inl ⟨_, rfl⟩)))
  | pending =>
    by_cases h : maxPollAttempts ≤ f.task.pollAttempt
    · exact Or.inr (Or.inr (Or.inr (Or.inl ⟨_, if_pos h⟩)))
    · exact Or.inr (Or.inr (Or.inr (Or.inr ⟨rfl, if_neg h⟩)))

@[simp] theorem leave_agrees : f.leave.Agrees row := by
  unfold Frame.leave
  split <;> simp [Chain.Agrees, Point.Agrees]

@[simp] theorem raise_agrees (exc : String) : (f.raise exc).Agrees row := trivial

theorem call_agrees (hp : row.isProcessing = true) (hs : row.status = phase.source)
    (hm : f.statement.status = phase.source) (ht : phase.source.rank < f.task.targetStatus.rank) :
    (f.call phase).Agrees row := by
  rcases call_cases f phase with ⟨-, hc⟩ | ⟨-, hc⟩ <;> rw [hc] <;> exact ⟨hp, hs, hm, ht⟩

theorem loopHead_agrees (hs : f.statement.status = row.status)
    (hp : f.statement.isProcessing = true → row.isProcessing = true) :
    f.loopHead.Agrees row := by
  rcases loopHead_cases f with ⟨hl, -⟩ | ⟨phase, hm, ht, hl | ⟨hproc, hl⟩⟩ <;> rw [hl]
  · exact leave_agrees
  · exact ⟨hs ▸ hm, hm, ht⟩
  · exact call_agrees (hp hproc) (hs ▸ hm) hm ht

theorem polled_agrees (h : (Point.poll phase).Agrees row f) (state : JobState) :
    (f.polled phase state).Agrees row := by
  obtain ⟨hp, hs, hm, ht⟩ := h
  rcases polled_cases f phase state with
    ⟨r, rfl, hpoll⟩ | ⟨r, rfl, hpoll | hpoll⟩ | ⟨exc, hpoll⟩ | ⟨reason, hpoll⟩ | ⟨-, hpoll⟩ <;>
    rw [hpoll]
  · exact ⟨hp, hs, ht⟩
  · exact ⟨hp, hs, ht⟩
  · exact ⟨hp, hs, ht⟩
  · exact raise_agrees exc
  · exact ⟨hp, hs, hm, ht⟩
  · exact ⟨hp, hs ▸ ht⟩

end Agrees

/-- A step of the chain keeps what its points rely on, whatever the reply. -/
theorem Frame.step_agrees {w w' : PipelineStore} {f : Frame} {p : Point} {r : Reply} {c : Chain}
    (h : p.Agrees w.statement f) (hs : f.step w p r = some (w', c)) : c.Agrees w'.statement := by
  cases Frame.step_moves hs with
  | client => exact loopHead_agrees h.2.2.1 fun _ => h.1
  | processing phase hcopy =>
    subst hcopy
    exact call_agrees rfl h.1 h.2.1 h.2.2
  | callFailed exc hcall => rcases hcall with rfl | rfl <;> exact h
  | polled phase state => exact polled_agrees h state
  | extracted hcopy =>
    subst hcopy
    refine loopHead_agrees rfl fun hproc => ?_
    simp [Frame.nextPhase, StatementFile.finalizeExtraction] at hproc
  | normalized r hcopy =>
    subst hcopy
    rfl
  | notified r =>
    rw [loopHead_normalized (f := f.nextPhase f.statement) h]
    exact leave_agrees
  | noOcrRun | submitted | ocrResult | noAccount | oneAccount | newAccount | normalizedRecord
  | retried => exact h
  | raised | malformed | accounts | refused => exact raise_agrees _
  | failed | recorded => exact leave_agrees
  | noClient | refreshed | published => trivial

theorem Chain.step_agrees {w w' : PipelineStore} {c c' : Chain} {r : Reply}
    (h : c.Agrees w.statement) (hs : c.step w r = some (w', c')) : c'.Agrees w'.statement := by
  cases Chain.step_moves hs with
  | started t => exact ⟨h.1, h.2, rfl, h.1⟩
  | runs hs => exact Frame.step_agrees h hs

/-! ## The target of a chain -/

section Targets

variable {target : StatementStatus} {f : Frame} {phase : Phase}

theorem leave_targets (h : f.task.targetStatus = target) : f.leave.Targets target := by
  unfold Frame.leave
  split
  · trivial
  · exact h

theorem call_targets (h : f.task.targetStatus = target) : (f.call phase).Targets target := by
  rcases call_cases f phase with ⟨-, hc⟩ | ⟨-, hc⟩ <;> rw [hc] <;> exact h

theorem loopHead_targets (h : f.task.targetStatus = target) : f.loopHead.Targets target := by
  rcases loopHead_cases f with ⟨hl, -⟩ | ⟨phase, -, -, hl | ⟨-, hl⟩⟩ <;> rw [hl]
  · exact leave_targets h
  · exact h
  · exact call_targets h

theorem polled_targets (h : f.task.targetStatus = target) (state : JobState) :
    (f.polled phase state).Targets target := by
  rcases polled_cases f phase state with
    ⟨r, -, hp⟩ | ⟨r, -, hp | hp⟩ | ⟨exc, hp⟩ | ⟨reason, hp⟩ | ⟨-, hp⟩ <;> rw [hp] <;> exact h

end Targets

/-- A chain keeps its target. -/
theorem Frame.step_targets {w w' : PipelineStore} {f : Frame} {p : Point} {r : Reply} {c : Chain}
    {target : StatementStatus} (h : f.task.targetStatus = target)
    (hs : f.step w p r = some (w', c)) : c.Targets target := by
  cases Frame.step_moves hs with
  | client | extracted | notified => exact loopHead_targets h
  | processing => exact call_targets h
  | polled phase state => exact polled_targets h state
  | failed | recorded => exact leave_targets h
  | noClient | published => trivial
  | _ => exact h

theorem Chain.step_targets {w w' : PipelineStore} {c c' : Chain} {r : Reply}
    {target : StatementStatus} (h : c.Targets target) (hs : c.step w r = some (w', c')) :
    c'.Targets target := by
  cases Chain.step_moves hs with
  | started t => exact h
  | runs hs => exact Frame.step_targets h hs

end NbeAdvisor
