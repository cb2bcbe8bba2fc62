import NbeAdvisor.AccountViews
import NbeAdvisor.Pipeline
import Mathlib.Data.List.MinMax

/-!
# Consent and the AI service

A user grants and revokes consent to data processing, uploads statements, asks for the
pipeline to go on with one (PATCH), and sends chat messages. The permissions of a view are
checked first, and what was consented at that moment is the `Acceptance` that the request
carries along : through its handler, into the task it enqueues, and through the retries of
that task, up to the calls of the AI service.

The views of an upload and of a message append `HasDataProcessingConsent` to their
permissions, the view of a PATCH does not. So the calls are all from requests accepted with
an active consent (`submissions_consented`) if the guards of `validate_advance` refuse every
PATCH that was accepted without one. After a revoke, a PATCH of a statement whose first run
failed is enough to send it (`patch_submits`), and so is any other that the guards let
through, whatever else is going on (`advancesUnconsented_submits`).
-/

namespace NbeAdvisor

open Interleave

/-- The key of a consent record. -/
abbrev ConsentId := ℕ

/-! ## Consent -/

/-- `ConsentRecord`. -/
structure ConsentRecord where
  id : ConsentId
  user : UserId
  consentType : String
  policyVersion : String
  grantedAt : Option ℕ := none
  revokedAt : Option ℕ := none
  createdAt : ℕ
  deriving DecidableEq

/-- `User.has_active_consent`. Of records created at one time the database may return any,
here the first. -/
def hasActiveConsent (consents : List ConsentRecord) (user : UserId) (consentType : String) : Bool :=
  let latestConsent := (consents.filter fun c => c.user = user ∧ c.consentType = consentType).argmax
    ConsentRecord.createdAt
  latestConsent.any fun c => c.grantedAt.isSome && c.revokedAt.isNone

/-- `HasDataProcessingConsent.message`. -/
def consentRequired : String := "Data processing consent is required for this action."

/-- A request that has passed the permissions of its view : whose it is, and whether the
consent was active then. -/
structure Acceptance where
  user : UserId
  consented : Bool
  deriving DecidableEq

/-- The calls that hand the data of a user to the AI service. -/
inductive AiCall where
  | submitProcessJob (statement : StatementId)
  | submitNormalizeJob (statement : StatementId)
  | streamChat (conversation : ConversationId) (user : UserId) (message : String)
  deriving DecidableEq

/-- A call with the request that it goes back to. -/
structure Submission where
  acceptance : Acceptance
  call : AiCall
  deriving DecidableEq

/-! ## Conversations -/

/-- `Conversation`, by its user. -/
structure Conversation where
  id : ConversationId
  user : UserId
  deriving DecidableEq

/-- `Message.sender`. -/
inductive Sender where
  | user
  | assistant
  deriving DecidableEq

/-- An entry of `thinking_steps`. -/
inductive ThinkingStep where
  | tool (callId tool status : String)
  | agent (agent : String)
  deriving DecidableEq

/-- `Message`, with the references of its rows. -/
structure Message where
  id : MessageId
  conversation : ConversationId
  sender : Sender
  content : String
  widgetJson : Option String := none
  suggestionsJson : Option (List String) := none
  thinkingJson : Option (List ThinkingStep) := none
  references : List (String × String) := []
  deriving DecidableEq

/-- The data of a `done` envelope. -/
structure ChatResult where
  content : String
  widget : Option String := none
  suggestions : List String := []
  references : List (String × String) := []
  deriving DecidableEq

/-- An envelope of `stream_chat`. -/
inductive ChatEnvelope where
  | token (data : String)
  | toolCall (callId tool status : String)
  | agentSelected (agent : String)
  | done (result : ChatResult)
  | error (message : Option String)
  deriving DecidableEq

/-- What is published to the user about a conversation. -/
inductive ChatEvent where
  | chatToken (data : String)
  | chatToolStatus (callId tool status : String)
  | chatAgentSelected (agent : String)
  | chatMessage (m : Message)
  | chatError (message : String)
  deriving DecidableEq

/-- `generate_chat_reply` : about to read its conversation and message, to call the AI
service, to read the next envelope, to save the reply, or at its end. -/
inductive ChatReply where
  | loading (conversation : ConversationId) (message : MessageId)
  | calling (conversation : Conversation) (content : String)
  | streaming (conversation : Conversation) (steps : List ThinkingStep)
  | saving (conversation : Conversation) (result : ChatResult) (steps : List ThinkingStep)
  | ended
  deriving DecidableEq

/-- What the surroundings answer to it. -/
inductive ChatAnswer where
  | done
  | envelope (e : ChatEnvelope)
  /-- The stream is over. -/
  | exhausted
  /-- An `AIServiceError`. -/
  | raises (exc : String)
  /-- Any other exception, which the task lets through. -/
  | crashes
  | saved (id : MessageId)
  deriving DecidableEq

/-! ## The store -/

/-- The tables, with what was published and what was sent to the AI service. -/
structure ConsentStore where
  consents : List ConsentRecord := []
  statements : StatementId → Option StatementRows := fun _ => none
  accounts : List BankAccount := []
  conversations : List Conversation := []
  messages : List Message := []
  chatEvents : List (UserId × ConversationId × ChatEvent) := []
  submissions : List Submission := []

namespace ConsentStore

/-- `self.get_object()` of `StatementDetailView`. -/
def ownStatement (s : ConsentStore) (user : UserId) (id : StatementId) : Option StatementRows :=
  (s.statements id).filter fun rows => rows.statement.user = user

/-- The statement of an id is replaced by these rows. -/
def saveRows (s : ConsentStore) (id : StatementId) (rows : Option StatementRows) : ConsentStore :=
  { s with statements := Function.update s.statements id rows }

/-- `save(update_fields=["is_processing"])` of a copy of the row. -/
def saveProcessing (s : ConsentStore) (copy : StatementFile) : ConsentStore :=
  s.saveRows copy.id ((s.statements copy.id).map fun rows =>
    { rows with statement := rows.statement.saveProcessing copy })

/-- A consent record is created. -/
def addConsent (s : ConsentStore) (c : ConsentRecord) : ConsentStore :=
  { s with consents := s.consents ++ [c] }

/-- A message is created. -/
def addMessage (s : ConsentStore) (m : Message) : ConsentStore :=
  { s with messages := s.messages ++ [m] }

/-- An event of a conversation is published to its user. -/
def publish (s : ConsentStore) (c : Conversation) (e : ChatEvent) : ConsentStore :=
  { s with chatEvents := s.chatEvents ++ [(c.user, c.id, e)] }

/-- Calls of the AI service go out. -/
def submit (s : ConsentStore) (a : Acceptance) (calls : List AiCall) : ConsentStore :=
  { s with submissions := s.submissions ++ calls.map (Submission.mk a) }

/-- What a chain sees of the store. -/
def storeOf (s : ConsentStore) (rows : StatementRows) : PipelineStore :=
  { toStatementRows := rows, accounts := s.accounts }

/-- What a step of a chain leaves behind. -/
def finish (s : ConsentStore) (id : StatementId) (w : PipelineStore) : ConsentStore :=
  { s.saveRows id (some w.toStatementRows) with accounts := w.accounts }

@[simp] theorem submit_submissions (s : ConsentStore) (a : Acceptance) (calls : List AiCall) :
    (s.submit a calls).submissions = s.submissions ++ calls.map (Submission.mk a) := rfl
@[simp] theorem finish_submissions (s : ConsentStore) (id : StatementId) (w : PipelineStore) :
    (s.finish id w).submissions = s.submissions := rfl

end ConsentStore

/-! ## The tasks -/

/-- The AI calls in the next step of a chain. The normalization of a statement without an
OCR result fails before its call. -/
def Chain.aiCalls (id : StatementId) (rows : StatementRows) : Chain → List AiCall
  | .running (.submit .extraction) _ => [.submitProcessJob id]
  | .running (.submit .normalization) _ =>
    if rows.ocrResults = [] then [] else [.submitNormalizeJob id]
  | _ => []

/-- `envelope["data"].get("message", ..)`. -/
def chatFailure (message : Option String) : String := message.getD "AI service chat failed"

namespace ChatReply

/-- The first `next` of `stream_chat` is the call. -/
def aiCalls : ChatReply → List AiCall
  | calling c content => [.streamChat c.id c.user content]
  | _ => []

/-- An envelope of the stream, up to the statement after it. -/
def receive (s : ConsentStore) (c : Conversation) (steps : List ThinkingStep) :
    ChatEnvelope → ConsentStore × ChatReply
  | .token data => (s.publish c (.chatToken data), streaming c steps)
  | .toolCall callId tool status =>
    (s.publish c (.chatToolStatus callId tool status),
      streaming c (steps ++ [.tool callId tool status]))
  | .agentSelected agent =>
    (s.publish c (.chatAgentSelected agent), streaming c (steps ++ [.agent agent]))
  | .done result => (s, saving c result steps)
  | .error message => (s.publish c (.chatError (chatFailure message)), ended)

/-- One statement or call of `generate_chat_reply`. -/
def step (s : ConsentStore) : ChatReply → ChatAnswer → Option (ConsentStore × ChatReply)
  | ended, _ => none
  | _, .crashes => some (s, ended)
  | loading conversation message, .done =>
    match s.conversations.find? (·.id = conversation), s.messages.find? (·.id = message) with
    | some c, some m => some (s, calling c m.content)
    | _, _ => some (s, ended)
  | calling c _, .done => some (s, streaming c [])
  | calling c _, .raises exc | streaming c _, .raises exc =>
    some (s.publish c (.chatError exc), ended)
  | streaming c steps, .envelope e => some (receive s c steps e)
  | streaming c _, .exhausted =>
    some (s.publish c (.chatError "AI service chat ended without a result"), ended)
  | saving c result steps, .saved id =>
    if id ∈ s.messages.map (·.id) then none
    else
      let m : Message :=
        { id, conversation := c.id, sender := .assistant, content := result.content
          widgetJson := result.widget, suggestionsJson := some result.suggestions
          thinkingJson := if steps = [] then none else some steps, references := result.references }
      some ((s.addMessage m).publish c (.chatMessage m), ended)
  | _, _ => none

end ChatReply

/-! ## The requests -/

/-- The requests, by their bodies. -/
inductive ConsentRequest where
  | grantConsent (consentType policyVersion : JsonValue)
  | revokeConsent (id : ConsentId)
  | uploadStatement (target : Option AdvanceTarget)
  | patchStatement (id : StatementId) (target : AdvanceTarget)
  | sendMessage (conversation : ConversationId) (content : JsonValue)
  deriving DecidableEq

/-- The views whose `get_permissions` appends `HasDataProcessingConsent`. -/
def ConsentRequest.needsConsent : ConsentRequest → Bool
  | uploadStatement _ | sendMessage _ _ => true
  | grantConsent _ _ | revokeConsent _ | patchStatement _ _ => false

/-- What the views answer. -/
inductive Answer where
  | ok
  | forbidden (message : String)
  | error (e : ApiError)
  deriving DecidableEq

/-- A request or a task : about to be checked against the permissions, to run the next
statement of its handler or of the task, or over. -/
inductive Activity where
  | request (user : UserId) (r : ConsentRequest)
  | accepted (a : Acceptance) (r : ConsentRequest)
  | revoking (a : Acceptance) (target : ConsentRecord)
  | advancing (a : Acceptance) (copy : StatementFile) (target : AdvanceTarget)
  | delayPipeline (a : Acceptance) (id : StatementId) (target : AdvanceTarget)
  | messaging (a : Acceptance) (c : Conversation) (content : String)
  | delayReply (a : Acceptance) (conversation : ConversationId) (message : MessageId)
  | pipeline (a : Acceptance) (id : StatementId) (c : Chain)
  | reply (a : Acceptance) (t : ChatReply)
  | answered (x : Answer)
  deriving DecidableEq

/-- What the surroundings answer : a statement went through, with the fresh key and the
times it wrote, the broker took a task or did not, and what the tasks are told. -/
inductive ConsentReply where
  | done
  | recorded (id : ConsentId) (now createdAt : ℕ)
  /-- The upload is stored under a fresh id, or there is no file, or it is invalid, a
  duplicate, or could not be stored. -/
  | stored (id : StatementId)
  | notStored (e : ApiError)
  | messageSaved (id : MessageId)
  | broker (up : Bool)
  | pipeline (r : Reply)
  | chat (r : ChatAnswer)
  deriving DecidableEq

namespace Activity

/-- `advance_statement_to`, up to its first statement. -/
def advanceStatementTo (a : Acceptance) (copy : StatementFile) (target : AdvanceTarget) : Activity :=
  match copy.validateAdvance target.status with
  | .error e => answered (.error (.businessRule e))
  | .ok _ => advancing a copy.markProcessing target

/-- The first statement of a handler. -/
def handle (s : ConsentStore) (a : Acceptance) :
    ConsentRequest → ConsentReply → Option (ConsentStore × Activity)
  | .grantConsent consentType policyVersion, .recorded id now createdAt =>
    match charField 50 consentType, charField 20 policyVersion with
    | some consentType, some policyVersion =>
      if id ∈ s.consents.map (·.id) then none
      else some (s.addConsent
        { id, user := a.user, consentType, policyVersion, grantedAt := some now, createdAt },
        answered .ok)
    | _, _ => some (s, answered (.error .validation))
  | .revokeConsent id, .done =>
    match s.consents.find? fun c => c.id = id ∧ c.user = a.user with
    | none => some (s, answered (.error .notFound))
    | some target => some (s, revoking a target)
  | .uploadStatement target, .stored id =>
    match s.statements id with
    | some _ => none
    | none =>
      let statement : StatementFile := { id, user := a.user }
      some (s.saveRows id (some { statement }),
        advanceStatementTo a statement (target.getD .normalized))
  | .uploadStatement _, .notStored e => some (s, answered (.error e))
  | .patchStatement id target, .done =>
    match s.ownStatement a.user id with
    | none => some (s, answered (.error .notFound))
    | some rows => some (s, advanceStatementTo a rows.statement target)
  | .sendMessage conversation content, .done =>
    match s.conversations.find? fun c => c.id = conversation ∧ c.user = a.user with
    | none => some (s, answered (.error .notFound))
    | some c =>
      match charField 4000 content with
      | none => some (s, answered (.error .validation))
      | some content => some (s, messaging a c content)
  | _, _ => none

/-- One step of a request or a task : the store, where it stands, and the task it enqueues. The run
of a statement that is gone ends where it reads the row. -/
def step (s : ConsentStore) :
    Activity → ConsentReply → Option (ConsentStore × Activity × List Activity)
  | request user r, .done =>
    let a : Acceptance := ⟨user, hasActiveConsent s.consents user "data_processing"⟩
    if r.needsConsent ∧ a.consented = false then
      some (s, answered (.forbidden consentRequired), [])
    else some (s, accepted a r, [])
  | accepted a r, x => (handle s a r x).map fun (s', t) => (s', t, [])
  | revoking a target, .recorded id now createdAt =>
    if id ∈ s.consents.map (·.id) then none
    else some (s.addConsent
      { id, user := a.user, consentType := target.consentType, policyVersion := target.policyVersion
        revokedAt := some now, createdAt }, answered .ok, [])
  | advancing a copy target, .done =>
    some (s.saveProcessing copy, delayPipeline a copy.id target, [])
  | delayPipeline a id target, .broker up =>
    if up then some (s, answered .ok, [pipeline a id (.queued target.task)])
    else some (s, answered (.error .serverError), [])
  | messaging a c content, .messageSaved id =>
    if id ∈ s.messages.map (·.id) then none
    else some (s.addMessage { id, conversation := c.id, sender := .user, content },
      delayReply a c.id id, [])
  | delayReply a conversation message, .broker up =>
    if up then some (s, answered .ok, [reply a (.loading conversation message)])
    else some (s, answered (.error .serverError), [])
  | pipeline a id c, .pipeline r =>
    match s.statements id with
    | none => some (s, pipeline a id .ended, [])
    | some rows =>
      (c.step (s.storeOf rows) r).map fun (w, c') =>
        ((s.finish id w).submit a (c.aiCalls id rows), pipeline a id c', [])
  | reply a t, .chat r =>
    (t.step s r).map fun (s', t') => (s'.submit a t.aiCalls, reply a t', [])
  | _, _ => none

/-- A request that is still to be checked. -/
def Arrives : Activity → Prop
  | request _ _ => True
  | _ => False

instance : DecidablePred Arrives := fun t => by
  unfold Arrives
  split <;> infer_instance

end Activity

/-- Requests come in at any time, and they and their tasks take steps in any order. -/
def consentSystem : System ConsentStore Activity ConsentReply where
  step _ := Activity.step
  arrives := Activity.Arrives

instance : DecidablePred consentSystem.arrives :=
  fun t => inferInstanceAs (Decidable t.Arrives)

/-- No request that was accepted without an active consent has led to a submission. -/
def SubmissionsConsented (s : ConsentStore) : Prop :=
  ∀ x ∈ s.submissions, x.acceptance.consented = true

/-- A PATCH that was accepted without an active consent and that its guards let through. -/
def Activity.AdvancesUnconsented (s : ConsentStore) : Activity → Prop
  | accepted a (.patchStatement id target) => a.consented = false ∧
      ∃ rows ∈ s.ownStatement a.user id,
        (rows.statement.validateAdvance target.status).isOk = true
  | _ => False

instance (s : ConsentStore) (t : Activity) : Decidable (t.AdvancesUnconsented s) := by
  unfold Activity.AdvancesUnconsented
  split <;> infer_instance

/-- A step that calls nobody. -/
theorem SubmissionsConsented.of_submissions {s s' : ConsentStore} (h : SubmissionsConsented s)
    (hs : s'.submissions = s.submissions) : SubmissionsConsented s' := by
  unfold SubmissionsConsented
  rwa [hs]

/-- A call under consent. -/
theorem SubmissionsConsented.submit {s : ConsentStore} {a : Acceptance} {calls : List AiCall}
    (h : SubmissionsConsented s) (ha : a.consented = true) :
    SubmissionsConsented (s.submit a calls) := by
  intro x hx
  rw [ConsentStore.submit_submissions, List.mem_append, List.mem_map] at hx
  rcases hx with hx | ⟨call, -, rfl⟩
  · exact h x hx
  · exact ha

/-- The guards refuse every PATCH that was accepted without an active consent. -/
def RefusesUnconsented (p : Pool ConsentStore Activity) : Action Activity ConsentReply → Prop
  | .run i _ => ∀ t ∈ p.threads[i]?, ¬t.AdvancesUnconsented p.store
  | .arrive _ => True

instance (p : Pool ConsentStore Activity) : DecidablePred (RefusesUnconsented p)
  | .run i _ => inferInstanceAs (Decidable (∀ t ∈ p.threads[i]?, ¬t.AdvancesUnconsented p.store))
  | .arrive _ => .isTrue trivial

/-! ## What leads to a submission -/

section Consented

variable {s s' : ConsentStore} {a : Acceptance}

/-- An event of a reply is no call. -/
theorem ChatReply.receive_submissions (c : Conversation) (steps : List ThinkingStep)
    (e : ChatEnvelope) : (ChatReply.receive s c steps e).1.submissions = s.submissions := by
  cases e <;> rfl

/-- The task itself writes nothing to the log of the submissions. -/
theorem ChatReply.step_submissions {t t' : ChatReply} {r : ChatAnswer}
    (hs : t.step s r = some (s', t')) : s'.submissions = s.submissions := by
  unfold ChatReply.step at hs
  split at hs
  · cases hs
  · cases hs
    rfl
  · split at hs <;> cases hs <;> rfl
  · cases hs
    rfl
  · cases hs
    rfl
  · cases hs
    rfl
  · next c steps e =>
    rw [Option.some.injEq] at hs
    have h := receive_submissions (s := s) c steps e
    rwa [hs] at h
  · cases hs
    rfl
  · split at hs <;> cases hs
    rfl
  · cases hs

namespace Activity

/-- What has passed a gate, and all that a PATCH or a task leads to, was accepted with an
active consent. -/
def Consented : Activity → Prop
  | request _ _ | revoking _ _ | answered _ => True
  | accepted a r => r.needsConsent = true → a.consented = true
  | advancing a _ _ | delayPipeline a _ _ | messaging a _ _ | delayReply a _ _
  | pipeline a _ _ | reply a _ => a.consented = true

/-- A request that the guards refuse without consent. -/
theorem advanceStatementTo_consented {copy : StatementFile} {target : AdvanceTarget}
    (h : (copy.validateAdvance target.status).isOk = true → a.consented = true) :
    (advanceStatementTo a copy target).Consented := by
  unfold advanceStatementTo
  split
  · trivial
  · next hok => exact h (by rw [hok]; rfl)

/-- A handler calls nobody, and hands its consent on. -/
theorem handle_consented {r : ConsentRequest} {x : ConsentReply} {t : Activity}
    (h : (accepted a r).Consented) (hok : ¬(accepted a r).AdvancesUnconsented s)
    (hs : handle s a r x = some (s', t)) : s'.submissions = s.submissions ∧ t.Consented := by
  unfold handle at hs
  split at hs
  · split at hs
    · split at hs <;> cases hs
      exact ⟨rfl, trivial⟩
    · cases hs
      exact ⟨rfl, trivial⟩
  · split at hs <;> cases hs <;> exact ⟨rfl, trivial⟩
  · split at hs <;> cases hs
    exact ⟨rfl, advanceStatementTo_consented fun _ => h rfl⟩
  · cases hs
    exact ⟨rfl, trivial⟩
  · next id target =>
    split at hs <;> cases hs
    · exact ⟨rfl, trivial⟩
    · next rows hrows =>
      refine ⟨rfl, advanceStatementTo_consented fun hval => ?_⟩
      by_contra hc
      exact hok ⟨by simpa using hc, rows, hrows, hval⟩
  · split at hs
    · cases hs
      exact ⟨rfl, trivial⟩
    · split at hs <;> cases hs
      · exact ⟨rfl, trivial⟩
      · exact ⟨rfl, h rfl⟩
  · cases hs

/-- A step submits only for a request that was accepted with an active consent, and leads on
to nothing else. -/
theorem step_consented {t t' : Activity} {x : ConsentReply} {new : List Activity}
    (hlog : SubmissionsConsented s) (h : t.Consented) (hok : ¬t.AdvancesUnconsented s)
    (hs : t.step s x = some (s', t', new)) :
    SubmissionsConsented s' ∧ t'.Consented ∧ ∀ u ∈ new, u.Consented := by
  unfold step at hs
  split at hs
  · next user r =>
    dsimp only at hs
    split at hs <;> cases hs
    · exact ⟨hlog, trivial, by simp⟩
    · next hgate => exact ⟨hlog, fun hr => by simpa [hr] using hgate, by simp⟩
  · next a r x =>
    rw [Option.map_eq_some_iff] at hs
    obtain ⟨⟨s₁, t₁⟩, hhandle, hs⟩ := hs
    cases hs
    obtain ⟨hsub, ht⟩ := handle_consented h hok hhandle
    exact ⟨hlog.of_submissions hsub, ht, by simp⟩
  · split at hs <;> cases hs
    exact ⟨hlog, trivial, by simp⟩
  · cases hs
    exact ⟨hlog, h, by simp⟩
  · split at hs <;> cases hs
    · refine ⟨hlog, trivial, fun u hu => ?_⟩
      rw [List.mem_singleton.1 hu]
      exact h
    · exact ⟨hlog, trivial, by simp⟩
  · split at hs <;> cases hs
    exact ⟨hlog, h, by simp⟩
  · split at hs <;> cases hs
    · refine ⟨hlog, trivial, fun u hu => ?_⟩
      rw [List.mem_singleton.1 hu]
      exact h
    · exact ⟨hlog, trivial, by simp⟩
  · next a id c r =>
    split at hs
    · cases hs
      exact ⟨hlog, h, by simp⟩
    · rw [Option.map_eq_some_iff] at hs
      obtain ⟨⟨w, c'⟩, -, hs⟩ := hs
      cases hs
      exact ⟨(hlog.of_submissions (ConsentStore.finish_submissions s id w)).submit h, h, by simp⟩
  · next a t r =>
    rw [Option.map_eq_some_iff] at hs
    obtain ⟨⟨s₁, t₁⟩, hreply, hs⟩ := hs
    cases hs
    exact ⟨(hlog.of_submissions (ChatReply.step_submissions hreply)).submit h, h, by simp⟩
  · cases hs

end Activity

end Consented

/-! ## Submissions under consent -/

/-- In every interleaving of requests and tasks, from a store in which nothing has been
submitted, if the guards refuse each PATCH that was accepted without an active consent. -/
theorem submissions_consented {s : ConsentStore} {q : Pool ConsentStore Activity}
    (hs : s.submissions = []) (hrun : consentSystem.Run RefusesUnconsented ⟨s, []⟩ q) :
    SubmissionsConsented q.store := by
  have h := hrun.invariant (I := Everywhere SubmissionsConsented fun _ _ t => t.Consented)
    (fun p q b hp hok hn => ?_) ⟨by simp [SubmissionsConsented, hs], by simp⟩
  · exact h.store
  refine hp.next hn (fun t _ ht => ?_) fun i x t s' t' new hb hi hstep => ?_
  · cases t <;> trivial
  subst hb
  obtain ⟨hlog, ht, hnew⟩ := Activity.step_consented hp.store (hp.threads i t hi) (hok t hi) hstep
  exact ⟨hlog, ht, fun _ u _ hu => hnew u hu, fun j u _ hj => hp.threads j u hj⟩

/-! ## An unconsented PATCH gets there -/

section Reaches

variable {p : Pool ConsentStore Activity} {i : ℕ} {a : Acceptance} {id : StatementId}
  {target : AdvanceTarget} {rows : StatementRows}

/-- A step is a run. -/
theorem run_step {t t' : Activity} {s' : ConsentStore} {new : List Activity} (x : ConsentReply)
    (hi : p.threads[i]? = some t) (hs : t.step p.store x = some (s', t', new)) :
    consentSystem.Run (fun _ _ => True) p ⟨s', p.threads.set i t' ++ new⟩ :=
  (System.Run.refl p).tail trivial (.run hi hs)

/-- A step that enqueues nothing. -/
theorem exists_run_step {t t' : Activity} {s' : ConsentStore} (x : ConsentReply)
    (hi : p.threads[i]? = some t) (hs : t.step p.store x = some (s', t', [])) :
    ∃ q, consentSystem.Run (fun _ _ => True) p q ∧ q.store = s' ∧ q.threads[i]? = some t' :=
  ⟨_, run_step x hi hs, rfl, getElem?_set_append_self (List.getElem?_eq_some_iff.1 hi).1⟩

/-- A step of a chain that leaves the rows of its statement as they are. -/
theorem run_chain {w : PipelineStore} {c c' : Chain} {r : Reply}
    (hi : p.threads[i]? = some (.pipeline a id c)) (hrows : p.store.statements id = some rows)
    (hs : c.step (p.store.storeOf rows) r = some (w, c')) (hw : w.toStatementRows = rows) :
    ∃ q, consentSystem.Run (fun _ _ => True) p q ∧ q.threads[i]? = some (.pipeline a id c') ∧
      q.store.statements id = some rows ∧
      ∀ call ∈ c.aiCalls id rows, ⟨a, call⟩ ∈ q.store.submissions := by
  have hstep : (Activity.pipeline a id c).step p.store (.pipeline r) =
      some ((p.store.finish id w).submit a (c.aiCalls id rows), .pipeline a id c', []) := by
    simp [Activity.step, hrows, hs]
  obtain ⟨q, hrun, hstore, hq⟩ := exists_run_step _ hi hstep
  refine ⟨q, hrun, hq, ?_, fun call hcall => ?_⟩
  · simp [hstore, ConsentStore.submit, ConsentStore.finish, ConsentStore.saveRows, hw]
  · rw [hstore]
    exact List.mem_append_right _ (List.mem_map_of_mem hcall)

/-- The task of a waiting statement submits it, unless it has been extracted without an OCR
result. -/
theorem chain_submits (hi : p.threads[i]? = some (.pipeline a id (.queued target.task)))
    (hrows : p.store.statements id = some rows) (hproc : rows.statement.isProcessing = true)
    (hrank : rows.statement.status.rank < target.status.rank)
    (hocr : rows.statement.status = .extracted → rows.ocrResults ≠ []) :
    ∃ q, consentSystem.Run (fun _ _ => True) p q ∧ ∃ x ∈ q.store.submissions, x.acceptance = a := by
  obtain ⟨phase, hphase⟩ := exists_source_of_rank (Nat.lt_of_lt_of_le hrank target.rank_le)
  let f : Frame := { task := target.task, statement := rows.statement }
  have hloop : f.loopHead = .running (.submit phase) f := by
    have hlt : phase.source.rank < target.status.rank := hphase ▸ hrank
    simp [f, Frame.loopHead, Frame.call, AdvanceTarget.task, hphase, hproc, hlt]
  have hcall : ∃ call, call ∈ (Chain.running (.submit phase) f).aiCalls id rows := by
    cases phase with
    | extraction => exact ⟨_, List.mem_singleton.2 rfl⟩
    | normalization => exact ⟨.submitNormalizeJob id, by simp [Chain.aiCalls, hocr hphase]⟩
  obtain ⟨q₁, hrun₁, hi₁, hrows₁, -⟩ := run_chain (r := .done) hi hrows rfl rfl
  obtain ⟨q₂, hrun₂, hi₂, hrows₂, -⟩ := run_chain (r := .done) hi₁ hrows₁ rfl rfl
  change q₂.threads[i]? = some (.pipeline a id f.loopHead) at hi₂
  rw [hloop] at hi₂
  obtain ⟨q₃, hrun₃, -, -, hsub⟩ := run_chain (r := .raises "timeout") hi₂ hrows₂ rfl rfl
  obtain ⟨call, hmem⟩ := hcall
  exact ⟨q₃, (hrun₁.trans hrun₂).trans hrun₃, _, hsub call hmem, rfl⟩

/-- The guards return the status. -/
theorem validateAdvance_of_isOk {copy : StatementFile}
    (hval : (copy.validateAdvance target.status).isOk = true) :
    ∃ s, copy.validateAdvance target.status = .ok s := by
  cases hv : copy.validateAdvance target.status with
  | error e => simp [hv, Except.isOk, Except.toBool] at hval
  | ok s => exact ⟨s, rfl⟩

/-- A PATCH that passes its guards marks the statement and enqueues the task. -/
theorem patch_enqueues (hi : p.threads[i]? = some (.accepted a (.patchStatement id target)))
    (hown : p.store.ownStatement a.user id = some rows) (hid : rows.statement.id = id)
    (hval : (rows.statement.validateAdvance target.status).isOk = true) :
    ∃ (q : Pool ConsentStore Activity) (j : ℕ), consentSystem.Run (fun _ _ => True) p q ∧
      q.threads[j]? = some (.pipeline a id (.queued target.task)) ∧
      q.store.statements id = some { rows with statement := rows.statement.markProcessing } := by
  let copy := rows.statement.markProcessing
  have hrows : p.store.statements id = some rows := (Option.filter_eq_some_iff.1 hown).1
  have hcopy : copy.id = id := hid
  have hpatch : (Activity.accepted a (.patchStatement id target)).step p.store .done =
      some (p.store, .advancing a copy target, []) := by
    obtain ⟨_, hv⟩ := validateAdvance_of_isOk hval
    simp [Activity.step, Activity.handle, Activity.advanceStatementTo, hown, hv, copy]
  have hsave : ∀ s : ConsentStore, (Activity.advancing a copy target).step s .done =
      some (s.saveProcessing copy, .delayPipeline a id target, []) := by
    intro s
    rw [← hcopy]
    rfl
  have hdelay : ∀ s : ConsentStore, (Activity.delayPipeline a id target).step s (.broker true) =
      some (s, .answered .ok, [.pipeline a id (.queued target.task)]) := fun _ => rfl
  obtain ⟨q₁, hrun₁, hs₁, hi₁⟩ := exists_run_step .done hi hpatch
  obtain ⟨q₂, hrun₂, hs₂, hi₂⟩ := exists_run_step .done hi₁ (hsave q₁.store)
  refine ⟨_, _, (hrun₁.trans hrun₂).trans (run_step _ hi₂ (hdelay q₂.store)),
    List.getElem?_concat_length, ?_⟩
  have hupdate : (p.store.saveProcessing copy).statements id =
      some { rows with statement := rows.statement.saveProcessing copy } := by
    simp [ConsentStore.saveProcessing, ConsentStore.saveRows, hcopy, hrows]
  rw [hs₂, hs₁, hupdate]
  rfl

/-- A PATCH that was accepted without an active consent and passes its guards can go on to a
submission, whatever else is going on. -/
theorem advancesUnconsented_submits
    (hi : p.threads[i]? = some (.accepted a (.patchStatement id target)))
    (hc : a.consented = false) (hown : p.store.ownStatement a.user id = some rows)
    (hid : rows.statement.id = id)
    (hval : (rows.statement.validateAdvance target.status).isOk = true)
    (hocr : rows.statement.status = .extracted → rows.ocrResults ≠ []) :
    ∃ q, consentSystem.Run (fun _ _ => True) p q ∧ ¬SubmissionsConsented q.store := by
  obtain ⟨q, j, hrun, hj, hrows⟩ := patch_enqueues hi hown hid hval
  obtain ⟨_, hv⟩ := validateAdvance_of_isOk hval
  have hrank : rows.statement.status.rank < target.status.rank :=
    (StatementFile.validateAdvance_ok.1 hv).2.1
  obtain ⟨q', hrun', x, hx, hxa⟩ := chain_submits hj hrows rfl hrank hocr
  refine ⟨q', hrun.trans hrun', fun h => ?_⟩
  have hconsented := h x hx
  rw [hxa, hc] at hconsented
  cases hconsented

end Reaches

/-- A user grants the consent and uploads a statement, whose first run fails. -/
def uploadUnderConsent : List (Action Activity ConsentReply) :=
  [.arrive (.request 1 (.grantConsent (.text "data_processing") (.text "v1"))),
    .run 0 .done, .run 0 (.recorded 1 10 10), .arrive (.request 1 (.uploadStatement none)),
    .run 1 .done, .run 1 (.stored 7), .run 1 .done, .run 1 (.broker true),
    .run 2 (.pipeline .done), .run 2 (.pipeline .done), .run 2 (.pipeline (.raises "timeout")),
    .run 2 (.pipeline .done), .run 2 (.pipeline .done)]

/-- The user then withdraws the consent and sends a PATCH, which its permissions let through. -/
def patchAfterRevoke : List (Action Activity ConsentReply) :=
  uploadUnderConsent ++
    [.arrive (.request 1 (.revokeConsent 1)), .run 3 .done, .run 3 .done, .run 3 (.recorded 2 20 20),
      .arrive (.request 1 (.patchStatement 7 .normalized)), .run 4 .done]

/-- An upload under consent is submitted. -/
theorem submissions_consented_upload : ∃ q : Pool ConsentStore Activity,
    q.store.submissions = [⟨⟨1, true⟩, .submitProcessJob 7⟩] ∧ SubmissionsConsented q.store := by
  have hexec : ∃ q ∈ consentSystem.exec uploadUnderConsent ⟨{}, []⟩,
      q.store.submissions = [⟨⟨1, true⟩, .submitProcessJob 7⟩] := by
    decide
  obtain ⟨q, hq, hsub⟩ := hexec
  exact ⟨q, hsub, submissions_consented (s := {}) rfl (.of_exec_meets (by decide) hq)⟩

/-- The PATCH passes, and the statement is submitted after the consent was withdrawn. -/
theorem patch_submits :
    ¬∀ (s : ConsentStore) (q : Pool ConsentStore Activity), s.submissions = [] →
      consentSystem.Run (fun _ _ => True) ⟨s, []⟩ q → SubmissionsConsented q.store := by
  intro h
  have hexec : ∃ p ∈ consentSystem.exec patchAfterRevoke ⟨{}, []⟩,
      p.threads[4]? = some (.accepted ⟨1, false⟩ (.patchStatement 7 .normalized)) ∧
        ∃ rows ∈ p.store.ownStatement 1 7, rows.statement.id = 7 ∧
          (rows.statement.validateAdvance .normalized).isOk = true ∧
          rows.statement.status ≠ .extracted := by
    decide
  obtain ⟨p, hp, hi, rows, hown, hid, hval, hstatus⟩ := hexec
  obtain ⟨q, hrun, hq⟩ := advancesUnconsented_submits hi rfl hown hid hval
    fun hextracted => absurd hextracted hstatus
  exact hq (h {} q rfl ((System.Run.of_exec hp).trans hrun))

end NbeAdvisor
