import NbeAdvisor.ChainOutcome

/-!
# Two counters on one poll loop

`poll_attempt` counts the polls of a job and starts again with the next phase.
`self.retry` is called with the same `MAX_POLL_ATTEMPTS` as `max_retries`, and Celery
counts the retries of the whole chain against it. A phase that succeeds on its `k`th poll
takes `k - 1` retries, so a chain over both phases has `k₁ + k₂ - 2` of them to make out of
one budget. It ends normalized exactly if they fit (`pollBudget_iff`), and two jobs that
are each within their own budget can be too slow together (`pollBudget_shared`).
-/

namespace NbeAdvisor

open Interleave

/-- The phase whose finalizer reads the result. -/
def JobResult.phase : JobResult → Phase
  | .extraction _ => .extraction
  | .normalization _ => .normalization

/-- How often the chain has read the job state of a phase. -/
def PipelineStore.polls (w : PipelineStore) (p : Phase) : ℕ := w.phaseLog.count (.polled p)

@[simp] theorem polls_logPhase_self (w : PipelineStore) (p : Phase) :
    (w.logPhase (.polled p)).polls p = w.polls p + 1 := by
  simp [PipelineStore.polls]

@[simp] theorem polls_logPhase_polled (w : PipelineStore) {p q : Phase} (h : p ≠ q) :
    (w.logPhase (.polled p)).polls q = w.polls q := by
  simp [PipelineStore.polls, h]

@[simp] theorem polls_logPhase_submitted (w : PipelineStore) (p q : Phase) :
    (w.logPhase (.submitted p)).polls q = w.polls q := by
  simp [PipelineStore.polls]

@[simp] theorem polls_logPhase_finished (w : PipelineStore) (p q : Phase) :
    (w.logPhase (.finished p)).polls q = w.polls q := by
  simp [PipelineStore.polls]

/-- No call raises, and the job of each phase reports success on its `k`th poll. -/
def Prompt (k : Phase → ℕ) (w : PipelineStore) : Chain → Reply → Prop
  | .running (.submit _) _, r => ∃ jobId, r = .submission (some jobId)
  | .running (.poll phase) _, r =>
    if w.polls phase + 1 < k phase then r = .job .pending
    else ∃ result : JobResult, result.phase = phase ∧ r = .job (.succeeded result)
  | .running .retry _, r => ∃ exc, r = .retry true exc
  | _, r => r = .done

/-- Jobs that succeed in time are obliging. -/
theorem Prompt.obliging {k : Phase → ℕ} {w : PipelineStore} {c : Chain} {r : Reply}
    (h : Prompt k w c r) : Obliging w c r := by
  cases c with
  | queued t => trivial
  | ended => trivial
  | running p f =>
    cases p with
    | getClient =>
      obtain rfl : r = .done := h
      simp [Obliging]
    | notify => exact h
    | retry =>
      obtain ⟨exc, rfl⟩ := h
      rfl
    | _ => trivial

/-- Nothing that a prompt chain is answered is an exception. -/
theorem Prompt.no_exception {k : Phase → ℕ} {w : PipelineStore} {c : Chain} {r : Reply}
    (h : Prompt k w c r) (exc : String) : r ≠ .raises exc ∧ r ≠ .malformed exc := by
  unfold Prompt at h
  split at h
  · obtain ⟨jobId, rfl⟩ := h
    simp
  · split at h
    · subst h
      simp
    · obtain ⟨result, -, rfl⟩ := h
      simp
  · obtain ⟨exc, rfl⟩ := h
    simp
  · subst h
    simp

/-- No two accounts of the statement's user answer the lookup of `get_or_create`, which then does
not raise. -/
def PipelineStore.AccountsDistinct (w : PipelineStore) : Prop :=
  ∀ n, (w.accountsMatching w.statement.user n).length ≤ 1

/-! ## The user of the statement -/

/-- The copy of a run has this user. -/
def Chain.CopyOf (user : UserId) : Chain → Prop
  | .running _ f => f.statement.user = user
  | _ => True

section CopyOf

variable {user : UserId} {f : Frame}

/-- Who leaves keeps the user of its copy. -/
theorem leave_copyOf (h : f.statement.user = user) : f.leave.CopyOf user := by
  unfold Frame.leave
  split
  · trivial
  · exact h

/-- So does a call. -/
theorem call_copyOf (phase : Phase) (h : f.statement.user = user) :
    (f.call phase).CopyOf user := by
  rcases call_cases f phase with ⟨-, hc⟩ | ⟨-, hc⟩ <;> rw [hc] <;> exact h

/-- So does the head of the loop. -/
theorem loopHead_copyOf (h : f.statement.user = user) : f.loopHead.CopyOf user := by
  rcases loopHead_cases f with ⟨hl, -⟩ | ⟨phase, -, -, hl | ⟨-, hl⟩⟩ <;> rw [hl]
  · exact leave_copyOf h
  · exact h
  · exact call_copyOf phase h

/-- So does a poll. -/
theorem polled_copyOf (phase : Phase) (state : JobState) (h : f.statement.user = user) :
    (f.polled phase state).CopyOf user := by
  rcases polled_cases f phase state with
    ⟨r, -, hl⟩ | ⟨r, -, hl | hl⟩ | ⟨exc, hl⟩ | ⟨reason, hl⟩ | ⟨-, hl⟩ <;> rw [hl] <;> exact h

/-- No step changes the user of the row or of a copy. -/
theorem Frame.step_user {w w' : PipelineStore} {p : Point} {r : Reply} {c : Chain}
    (h : f.statement.user = w.statement.user) (hs : f.step w p r = some (w', c)) :
    w'.statement.user = w.statement.user ∧ c.CopyOf w.statement.user := by
  cases Frame.step_moves hs with
  | client => exact ⟨rfl, loopHead_copyOf h⟩
  | processing phase hcopy =>
    subst hcopy
    exact ⟨rfl, call_copyOf phase h⟩
  | polled phase state => exact ⟨rfl, polled_copyOf phase state h⟩
  | extracted hcopy =>
    subst hcopy
    exact ⟨rfl, loopHead_copyOf h⟩
  | normalized r hcopy =>
    subst hcopy
    exact ⟨rfl, h⟩
  | notified r => exact ⟨rfl, loopHead_copyOf h⟩
  | failed phase reason hcopy =>
    subst hcopy
    exact ⟨rfl, leave_copyOf h⟩
  | recorded exc hcopy =>
    subst hcopy
    exact ⟨rfl, leave_copyOf h⟩
  | noClient | retried | published => exact ⟨rfl, trivial⟩
  | refreshed => exact ⟨rfl, rfl⟩
  | raised | malformed | callFailed | noOcrRun | submitted | ocrResult | noAccount | oneAccount
  | accounts | newAccount | normalizedRecord | refused => exact ⟨rfl, h⟩

/-- No step changes the user of the statement. -/
theorem Chain.step_user {w w' : PipelineStore} {c c' : Chain} {r : Reply}
    (h : c.CopyOf w.statement.user) (hs : c.step w r = some (w', c')) :
    w'.statement.user = w.statement.user ∧ c'.CopyOf w.statement.user := by
  cases Chain.step_moves hs with
  | started t => exact ⟨rfl, rfl⟩
  | runs hs => exact Frame.step_user h hs

end CopyOf

/-! ## The retries a chain has used -/

/-- The retries that the phases before `p` took. -/
def retriesBehind (k : Phase → ℕ) : Phase → ℕ
  | .extraction => 0
  | .normalization => k .extraction - 1

/-- The chain is at phase `p`, of whose job it has read the state `n` times, and has
scheduled every retry so far. -/
structure AwaitsJob (k : Phase → ℕ) (w : PipelineStore) (t : Task) (p : Phase) (n : ℕ) : Prop where
  status : w.statement.status = p.source
  polls : w.polls p = n
  short : n < k p
  untouched : p = .extraction → w.polls .normalization = 0
  retries : t.retries = retriesBehind k p + t.pollAttempt
  scheduled : t.retries ≤ maxPollAttempts
  distinct : w.AccountsDistinct

/-- The retries of both phases fit into the budget. -/
def Fits (k : Phase → ℕ) : Prop := k .extraction + k .normalization ≤ maxPollAttempts + 2

/-- Where the chain is with its two counters. -/
def Point.OnTrack (k : Phase → ℕ) (w : PipelineStore) (f : Frame) : Point → Prop
  | .getClient => ∃ p, AwaitsJob k w f.task p f.task.pollAttempt
  | .saveProcessing p | .submit p | .poll p => AwaitsJob k w f.task p f.task.pollAttempt
  | .createOcrResult _ | .saveExtracted => f.task.retries + 1 = k .extraction ∧
      f.task.retries ≤ maxPollAttempts ∧ w.polls .normalization = 0 ∧ w.AccountsDistinct
  | .getAccount _ => Fits k ∧ w.AccountsDistinct
  | .createAccount _ | .createNormalized _ | .saveNormalized _ => Fits k
  | .notify _ => w.statement.status = .normalized ∧ Fits k
  | .saveFailed _ _ => False
  | .retry => ∃ p, AwaitsJob k w f.task p (f.task.pollAttempt + 1)
  | .refresh _ | .saveError _ => w.statement.status ≠ .normalized ∧ ¬Fits k
  | .publish => w.statement.status = .normalized ↔ Fits k

/-- The same for a chain, and for what it has come to at its end. -/
def Chain.OnTrack (k : Phase → ℕ) (w : PipelineStore) : Chain → Prop
  | .queued t => ∃ p, AwaitsJob k w t p t.pollAttempt
  | .running p f => p.OnTrack k w f
  | .ended => w.statement.status = .normalized ↔ Fits k

section OnTrack

variable {k : Phase → ℕ} {w : PipelineStore} {f : Frame} {phase : Phase}

/-- A run that leaves has come to what the budget says. -/
theorem leave_onTrack (h : w.statement.status = .normalized ↔ Fits k) : f.leave.OnTrack k w := by
  unfold Frame.leave
  split <;> exact h

/-- A call is at its phase. -/
theorem call_onTrack (h : AwaitsJob k w f.task phase f.task.pollAttempt) :
    (f.call phase).OnTrack k w := by
  rcases call_cases f phase with ⟨-, hc⟩ | ⟨-, hc⟩ <;> rw [hc] <;> exact h

/-- On the way to `normalized`, the loop goes on with the phase of the status. -/
theorem loopHead_onTrack (ht : f.task.targetStatus = .normalized)
    (hs : f.statement.status = w.statement.status)
    (h : AwaitsJob k w f.task phase f.task.pollAttempt) : f.loopHead.OnTrack k w := by
  have hsrc : f.statement.status = phase.source := hs.trans h.status
  rcases loopHead_cases f with ⟨-, hend | hnone⟩ | ⟨p, hp, -, hl⟩
  · rw [ht, hsrc] at hend
    cases phase <;> exact absurd hend (by decide)
  · rw [hsrc, phaseForStatus_source] at hnone
    cases hnone
  · obtain rfl := Phase.source_injective (hp.symm.trans hsrc)
    rcases hl with hl | ⟨-, hl⟩ <;> rw [hl]
    · exact h
    · exact call_onTrack h

/-- A poll that finds the job running leaves another one to make; one that finds it done
leaves the phase with `k - 1` retries more. -/
theorem polled_onTrack (hk : ∀ p, k p ≤ maxPollAttempts) {state : JobState}
    (h : AwaitsJob k w f.task phase f.task.pollAttempt)
    (hok : Prompt k w (.running (.poll phase) f) (.job state)) :
    (f.polled phase state).OnTrack k (w.logPhase (.polled phase)) := by
  have hkp := hk phase
  have hshort := h.short
  have hret := h.retries
  simp only [Prompt, h.polls] at hok
  split at hok
  · next hlt =>
    cases hok
    have hpoll : f.polled phase .pending = .running .retry { f with retryPending := true } :=
      if_neg (by omega)
    rw [hpoll]
    refine ⟨phase, h.status, ?_, hlt, ?_, h.retries, h.scheduled, h.distinct⟩
    · rw [polls_logPhase_self, h.polls]
    · rintro rfl
      rw [polls_logPhase_polled _ (by decide)]
      exact h.untouched rfl
  · next hlt =>
    obtain ⟨result, hphase, hstate⟩ := hok
    cases hstate
    have hle := h.scheduled
    rcases result with r | r <;> obtain rfl := hphase
    · simp only [JobResult.phase, retriesBehind] at hshort hret hlt hkp
      refine ⟨?_, h.scheduled, ?_, h.distinct⟩
      · show f.task.retries + 1 = k .extraction
        omega
      · rw [polls_logPhase_polled _ (by simp [JobResult.phase])]
        exact h.untouched rfl
    · simp only [JobResult.phase, retriesBehind] at hshort hret hlt hkp
      have hfits : Fits k := by
        unfold Fits
        omega
      simp only [JobResult.phase, Frame.polled, Frame.finalize]
      split
      · exact ⟨hfits, h.distinct⟩
      · exact hfits

/-- The next phase starts with as many retries used as the extraction took. -/
theorem AwaitsJob.normalization (hk : 1 ≤ k .normalization) {s : StatementFile}
    (hs : s.status = .extracted) (h : Point.saveExtracted.OnTrack k w f) :
    AwaitsJob k ((w.withStatement (w.statement.saveExtracted s)).logPhase (.finished .extraction))
      (f.nextPhase s).task .normalization 0 := by
  obtain ⟨hret, hsched, hpolls, hdist⟩ := h
  have hnext : f.task.retries = retriesBehind k .normalization + 0 := by
    simp only [retriesBehind]
    omega
  refine ⟨hs, ?_, hk, fun hp => absurd hp (by decide), hnext, hsched, hdist⟩
  rw [polls_logPhase_finished]
  exact hpolls

end OnTrack

/-- A step of a run counts as the budget does. -/
theorem Frame.step_onTrack {k : Phase → ℕ} (hk : ∀ p, 1 ≤ k p ∧ k p ≤ maxPollAttempts)
    {w w' : PipelineStore} {f : Frame} {p : Point} {r : Reply} {c : Chain}
    (ha : p.Agrees w.statement f) (hc : w.toStatementRows.Consistent)
    (ht : f.task.targetStatus = .normalized) (huser : f.statement.user = w.statement.user)
    (h : p.OnTrack k w f) (hok : Prompt k w (.running p f) r) (hs : f.step w p r = some (w', c)) :
    c.OnTrack k w' := by
  cases Frame.step_moves hs with
  | client =>
    obtain ⟨p, hp⟩ := h
    exact loopHead_onTrack ht ha.2.2.1 hp
  | processing phase hcopy =>
    subst hcopy
    exact call_onTrack (f := { f with statement := _ })
      ⟨h.status, h.polls, h.short, h.untouched, h.retries, h.scheduled, h.distinct⟩
  | noOcrRun jobId hnil =>
    exact absurd hnil (hc.ocr (by rw [h.status]; decide))
  | @submitted phase jobId hocr =>
    obtain ⟨jobId, heq⟩ := hok
    cases heq
    exact ⟨h.status, by simp [h.polls], h.short, fun hp => by simp [h.untouched hp], h.retries,
      h.scheduled, h.distinct⟩
  | polled phase state => exact polled_onTrack (fun p => (hk p).2) h hok
  | extracted hcopy =>
    subst hcopy
    exact loopHead_onTrack ht rfl (AwaitsJob.normalization (hk .normalization).1 rfl h)
  | noAccount r hnone => exact h.1
  | oneAccount r hone => exact h.1
  | accounts r exc hmany => exact absurd (huser ▸ h.2 _) (Nat.not_le.2 hmany)
  | normalized r hcopy =>
    subst hcopy
    exact ⟨rfl, h⟩
  | notified r =>
    rw [loopHead_normalized (f := f.nextPhase f.statement) ha]
    exact leave_onTrack (iff_of_true h.1 h.2)
  | failed => exact h.elim
  | retried exc hle =>
    obtain ⟨phase, hp⟩ := h
    have hret := hp.retries
    exact ⟨phase, hp.status, hp.polls, hp.short, hp.untouched, by
      simp only [Frame.retryTask]; omega, hle, hp.distinct⟩
  | refused exc hbad =>
    obtain ⟨exc, heq⟩ := hok
    cases heq
    obtain ⟨phase, hp⟩ := h
    have hshort := hp.short
    have hret := hp.retries
    have hkp := (hk phase).2
    have hover : maxPollAttempts < f.task.retries + 1 := by simpa using hbad
    cases phase with
    | extraction =>
      simp only [retriesBehind] at hret
      omega
    | normalization =>
      simp only [retriesBehind] at hret
      refine ⟨by rw [hp.status]; decide, ?_⟩
      unfold Fits
      omega
  | recorded => exact leave_onTrack (iff_of_false h.1 h.2)
  | ocrResult | newAccount | normalizedRecord | refreshed | published => exact h
  | noClient => cases hok
  | raised exc | callFailed exc => exact ((hok.no_exception exc).1 rfl).elim
  | malformed exc => exact ((hok.no_exception exc).2 rfl).elim

/-! ## The budget -/

/-- What a run to `normalized` is to end in : that status, and no failure recorded. -/
def EndsNormalized (w : PipelineStore) : Prop :=
  w.statement.status = .normalized ∧ w.statement.failureReason = none ∧
    w.statement.failedPhase = none

/-- A prompt chain always has a next step. -/
theorem Prompt.exists_step {k : Phase → ℕ} {w : PipelineStore} {c : Chain} (hc : c ≠ .ended) :
    ∃ r x, Prompt k w c r ∧ c.step w r = some x := by
  cases c with
  | queued t => exact ⟨.done, _, rfl, rfl⟩
  | ended => exact absurd rfl hc
  | running p f =>
    cases p with
    | submit phase =>
      refine ⟨.submission (some "job"), ?_⟩
      simp only [Chain.step, Frame.step]
      split <;> exact ⟨_, ⟨_, rfl⟩, rfl⟩
    | poll phase =>
      by_cases h : w.polls phase + 1 < k phase
      · exact ⟨.job .pending, _, by simp [Prompt, h], rfl⟩
      · have hresult : ∃ result : JobResult, result.phase = phase := by
          cases phase with
          | extraction => exact ⟨.extraction ⟨"ocr/1/", "mineru", 0⟩, rfl⟩
          | normalization => exact ⟨.normalization ⟨⟨none, none, []⟩, "model"⟩, rfl⟩
        obtain ⟨result, hresult⟩ := hresult
        exact ⟨.job (.succeeded result), _, by simp [Prompt, h, hresult], rfl⟩
    | getAccount r =>
      refine ⟨.done, ?_⟩
      simp only [Chain.step, Frame.step]
      split <;> exact ⟨_, rfl, rfl⟩
    | retry =>
      refine ⟨.retry true "Can't retry", ?_⟩
      simp only [Chain.step, Frame.step]
      split <;> exact ⟨_, ⟨_, rfl⟩, rfl⟩
    | _ => exact ⟨.done, _, rfl, rfl⟩

/-- The store of a chain that starts alone. -/
def startStore (rows : StatementRows) (accounts : List BankAccount) : PipelineStore :=
  { toStatementRows := rows, accounts }

/-- Every chain with prompt jobs ends, and normalized exactly if the retries fit. -/
theorem promptChain_settles {k : Phase → ℕ} (hk : ∀ p, 1 ≤ k p ∧ k p ≤ maxPollAttempts)
    {rows : StatementRows} {accounts : List BankAccount} (hleft : rows.Left)
    (hup : rows.statement.status = .uploaded) (hdist : (startStore rows accounts).AccountsDistinct) :
    Settles Chain.step (Prompt k) (· = .ended) (fun w' => EndsNormalized w' ↔ Fits k)
      ((startStore rows accounts).markProcessing, .queued AdvanceTarget.normalized.task) := by
  have hlt : rows.statement.status.rank < AdvanceTarget.normalized.status.rank := by
    rw [hup]
    decide
  refine Settles.of_invariant (m := fun _ c => c.fuel) (I := fun v c =>
    c.Sound [] rows.statement.status v ∧
      c.Heads rows.statement.status .normalized v.statement ∧ c.CopyOf v.statement.user ∧
        c.OnTrack k v) ?_ ?_ ?_ ?_
    ⟨Chain.Sound.start (w := startStore rows accounts) hleft.consistent hlt, ⟨rfl, le_rfl, hlt⟩,
      trivial, .extraction, hup, rfl, (hk .extraction).1, fun _ => rfl, rfl, Nat.zero_le _, hdist⟩
  · rintro v c r v' c' ⟨h, hh, huser, ht⟩ hok hs
    obtain ⟨hrow, hcopy⟩ := Chain.step_user huser hs
    refine ⟨h.step hs, ?_, hrow ▸ hcopy, ?_⟩
    · cases Chain.step_moves hs with
      | started t => exact hh
      | runs hs =>
        exact Frame.step_heads AdvanceTarget.normalized.rank_le h.agrees h.ensures h.consistent hh
          hok.obliging hs
    · cases Chain.step_moves hs with
      | started t => exact ht
      | runs hs => exact Frame.step_onTrack hk h.agrees h.consistent hh.1 huser ht hok hs
  · rintro v c r v' c' ⟨h, -, -⟩ - hs
    exact Chain.step_fuel h.agrees hs
  · rintro v c - hc
    exact Prompt.exists_step hc
  · rintro v c ⟨-, hh, -, ht⟩ rfl
    constructor
    · exact fun he => ht.1 he.1
    · intro hfits
      rcases hh with hreach | hstop
      · exact ⟨hreach.status, hreach.failureReason, hreach.failedPhase⟩
      · have hlt := hstop.lt_target
        rw [ht.2 hfits] at hlt
        exact absurd hlt (lt_irrefl _)

/-- A chain from `uploaded` to `normalized`, with nothing raised and each job done within
its poll budget, ends normalized with no failure recorded if and only if the two jobs
together take at most two polls more than one of them may. -/
theorem pollBudget_iff {k : Phase → ℕ} (hk : ∀ p, 1 ≤ k p ∧ k p ≤ maxPollAttempts)
    {rows : StatementRows} {accounts : List BankAccount} (hleft : rows.Left)
    (hup : rows.statement.status = .uploaded) (hdist : (startStore rows accounts).AccountsDistinct) :
    Settles Chain.step (Prompt k) (· = .ended) EndsNormalized
        ((startStore rows accounts).markProcessing, .queued AdvanceTarget.normalized.task) ↔
      k .extraction + k .normalization ≤ maxPollAttempts + 2 := by
  have h := promptChain_settles hk hleft hup hdist
  constructor
  · intro hends
    obtain ⟨rs, w', c, hrun, hc, he⟩ := hends.exists_end
    exact (h.ends rs w' c hrun hc).1 he
  · intro hfits
    exact ⟨h.bounded, h.goesOn, fun rs w' c hrun hc => (h.ends rs w' c hrun hc).2 hfits⟩

/-- Without accounts there are no two of one name and number. -/
theorem startStore_nil_distinct (rows : StatementRows) :
    (startStore rows []).AccountsDistinct := by
  intro n
  simp [startStore, PipelineStore.accountsMatching]

/-- Five polls for each job. -/
theorem pollBudget_five :
    Settles Chain.step (Prompt fun _ => 5) (· = .ended) EndsNormalized
      ((startStore { statement := { id := 1, user := 1 } } []).markProcessing,
        .queued AdvanceTarget.normalized.task) :=
  (pollBudget_iff (fun _ => by decide) (.upload 1 1) rfl (startStore_nil_distinct _)).2 (by decide)

/-- An extraction that is done at its 240th poll leaves one retry : a normalization that is
done at its 3rd poll comes too late. -/
theorem pollBudget_shared :
    ¬∀ (k : Phase → ℕ) (rows : StatementRows) (accounts : List BankAccount),
      (∀ p, 1 ≤ k p ∧ k p ≤ maxPollAttempts) → rows.Left → rows.statement.status = .uploaded →
      (startStore rows accounts).AccountsDistinct →
      Settles Chain.step (Prompt k) (· = .ended) EndsNormalized
        ((startStore rows accounts).markProcessing, .queued AdvanceTarget.normalized.task) := by
  intro h
  let k : Phase → ℕ := fun p => if p = .extraction then 240 else 3
  have hk : ∀ p, 1 ≤ k p ∧ k p ≤ maxPollAttempts := by
    rintro (_ | _) <;> decide
  have hdist := startStore_nil_distinct { statement := { id := 1, user := 1 } }
  obtain ⟨rs, w', c, hrun, hc, he⟩ := (h k _ [] hk (.upload 1 1) rfl hdist).exists_end
  have hfits : Fits k := ((promptChain_settles hk (.upload 1 1) rfl hdist).ends rs w' c hrun hc).1 he
  exact absurd (show 240 + 3 ≤ 242 from hfits) (by decide)

end NbeAdvisor
