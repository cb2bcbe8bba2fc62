import NbeAdvisor.ChatRelay

/-!
# The envelopes of the chat service

`ChatReply` has the task that answers a message with the envelopes as the chat service means them,
and `generateChatReply` has it over JSON. On the JSON of such envelopes both publish the same events
and keep the same steps (`reads_json`), so that they end in the same error (`ended_json`).
-/

namespace NbeAdvisor

open Generators

/-! ## Their JSON -/

/-- The step as JSON. -/
def ThinkingStep.json : ThinkingStep → Json
  | .tool callId name status => .object
    [("kind", .text "tool"), ("call_id", .text callId), ("tool", .text name),
      ("status", .text status)]
  | .agent name => .object [("kind", .text "agent"), ("agent", .text name)]

/-- The data of a `done` envelope. -/
def ChatResult.json (widgetJson : String → Json) (result : ChatResult) : Json := .object
  [("content", .text result.content), ("widget", result.widget.elim .null widgetJson),
    ("references", .array (result.references.map fun ref =>
      .object [("target_type", .text ref.1), ("target_id", .text ref.2)])),
    ("suggestions", .array (result.suggestions.map .text))]

/-- The envelope as JSON. -/
def ChatEnvelope.json (widgetJson : String → Json) : ChatEnvelope → Json
  | .token data => .object [("event", .text "token"), ("data", .text data)]
  | .toolCall callId tool status => .object
    [("event", .text "tool_call"), ("data", .object
      [("call_id", .text callId), ("tool", .text tool), ("status", .text status)])]
  | .agentSelected agent => .object
    [("event", .text "agent_selected"), ("data", .object [("agent", .text agent)])]
  | .done result => .object [("event", .text "done"), ("data", result.json widgetJson)]
  | .error message => .object
    [("event", .text "error"), ("data", .object (message.toList.map fun m => ("message", .text m)))]

/-- What is published of an event, unless it is a message. -/
def loopEvent (c : Conversation) : ChatEvent → Option (UserId × SseEvent)
  | .chatToken data => some (chatEvent c "chat_token" [("data", .text data)])
  | .chatToolStatus callId tool status => some (chatEvent c "chat_tool_status"
    [("call_id", .text callId), ("tool", .text tool), ("status", .text status)])
  | .chatAgentSelected agent => some (chatEvent c "chat_agent_selected" [("agent", .text agent)])
  | .chatMessage _ => none
  | .chatError message => some (chatError c message)

/-! ## One envelope -/

/-- The loop over JSON is where the task is, and has published its events. It raises the error that
the task has published at its end. -/
def ChatReply.Matches (widgetJson : String → Json) (c : Conversation)
    (events : List (UserId × SseEvent)) (r : Relay) :
    ChatReply → Signal Json RelayError → Prop
  | .streaming c' steps, .next =>
    c' = c ∧ r.thinkingSteps = steps.map ThinkingStep.json ∧ r.published = events
  | .saving c' result steps, .leave data =>
    c' = c ∧ r.thinkingSteps = steps.map ThinkingStep.json ∧ r.published = events ∧
      data = result.json widgetJson
  | .ended, .raise (.aiServiceError message) =>
    r.published ++ [chatError c message] = events
  | _, _ => False

section Envelopes

variable {host : ChatHost} {c : Conversation} {s s' : ConsentStore} {r : Relay}
  {steps : List ThinkingStep} {t t' : ChatReply} {widgetJson : String → Json}

/-- An envelope as JSON does what it does by its kind. -/
theorem receive_json (host : ChatHost) (c : Conversation) (s : ConsentStore)
    (widgetJson : String → Json) (hsteps : r.thinkingSteps = steps.map ThinkingStep.json)
    (e : ChatEnvelope) :
    ∃ new : List ChatEvent, (ChatReply.receive s c steps e).1.chatEvents =
        s.chatEvents ++ new.map (fun event => (c.user, c.id, event)) ∧
      ChatReply.Matches widgetJson c (r.published ++ new.filterMap (loopEvent c))
        (r.receive host c (e.json widgetJson)).1 (ChatReply.receive s c steps e).2
        (r.receive host c (e.json widgetJson)).2 := by
  cases e with
  | token data => exact ⟨[.chatToken data], rfl, rfl, hsteps, rfl⟩
  | toolCall callId tool status =>
    refine ⟨[.chatToolStatus callId tool status], rfl, rfl, ?_, rfl⟩
    rw [List.map_append, ← hsteps]
    rfl
  | agentSelected agent =>
    refine ⟨[.chatAgentSelected agent], rfl, rfl, ?_, rfl⟩
    rw [List.map_append, ← hsteps]
    rfl
  | done result => exact ⟨[], by simp [ChatReply.receive], rfl, hsteps, by simp; rfl, rfl⟩
  | error message =>
    refine ⟨[.chatError (chatFailure message)], rfl, ?_⟩
    cases message <;> exact rfl

/-! ## A run -/

/-- The task reads these envelopes, one after the other. -/
inductive ChatReply.Reads :
    ConsentStore → ChatReply → List ChatEnvelope → ConsentStore → ChatReply → Prop
  | nil {s : ConsentStore} {t : ChatReply} : Reads s t [] s t
  | cons {s s₁ s₂ : ConsentStore} {t t₁ t₂ : ChatReply} {e : ChatEnvelope}
    {es : List ChatEnvelope} (step : t.step s (.envelope e) = some (s₁, t₁))
    (rest : Reads s₁ t₁ es s₂ t₂) : Reads s t (e :: es) s₂ t₂

/-- The loop over the JSON of these envelopes, and then over `g`, comes to where the task does. -/
def ChatReply.Follows (host : ChatHost) (widgetJson : String → Json) (c : Conversation)
    (r : Relay) (es : List ChatEnvelope) (g : Generator Json RelayError) (s s' : ConsentStore)
    (t' : ChatReply) : Prop :=
  ∃ (new : List ChatEvent) (r' : Relay) (signal : Signal Json RelayError),
    s'.chatEvents = s.chatEvents ++ new.map (fun event => (c.user, c.id, event)) ∧
      ChatReply.Matches widgetJson c (r.published ++ new.filterMap (loopEvent c)) r' t' signal ∧
      Generator.At (Relay.receive host c) g
        ((Generator.prepend (es.map (ChatEnvelope.json widgetJson)) g).consume
          (Relay.receive host c) r) r' signal

variable {es : List ChatEnvelope}

/-- So does a stream. -/
theorem reads_json (h : ChatReply.Reads s (.streaming c steps) es s' t')
    (hsteps : r.thinkingSteps = steps.map ThinkingStep.json) (host : ChatHost)
    (widgetJson : String → Json) (g : Generator Json RelayError) :
    ChatReply.Follows host widgetJson c r es g s s' t' := by
  induction es generalizing s steps r with
  | nil =>
    cases h
    exact ⟨[], r, .next, by simp, ⟨rfl, hsteps, by simp⟩, rfl⟩
  | cons e es ih =>
    rcases h with - | ⟨hstep, hrest⟩
    rename_i s₁ t₁
    obtain ⟨new, hnew, hmatches⟩ := receive_json host c s widgetJson hsteps e
    rw [show ChatReply.receive s c steps e = (s₁, t₁) from Option.some.inj hstep] at hnew hmatches
    have hat := Generator.consume_at (Relay.receive host c) r (e.json widgetJson)
      (.prepend (es.map (ChatEnvelope.json widgetJson)) g)
    rcases hreceive : r.receive host c (e.json widgetJson) with ⟨r₁, signal⟩
    rw [hreceive] at hmatches hat
    have hend : (∀ e', t₁.step s₁ (.envelope e') = none) → signal ≠ .next →
        ChatReply.Follows host widgetJson c r (e :: es) g s s' t' := by
      intro hno hne
      cases hrest with
      | nil => exact ⟨new, r₁, signal, hnew, hmatches, hat⟩
      | cons hstep' _ => exact nomatch hstep'.symm.trans (hno _)
    match t₁, signal with
    | .streaming c' steps₁, .next =>
      obtain ⟨rfl, hsteps₁, hpublished⟩ := hmatches
      obtain ⟨new', r', signal, hnew', hmatches', hat'⟩ := ih hrest hsteps₁
      refine ⟨new ++ new', r', signal, ?_, ?_, ?_⟩
      · rw [hnew', hnew, List.map_append, List.append_assoc]
      · rwa [List.filterMap_append, ← List.append_assoc, ← hpublished]
      · rw [List.map_cons, Generator.prepend_cons, hat]
        exact hat'
    | .saving _ _ _, .leave _ => exact hend (fun _ => rfl) nofun
    | .ended, .raise _ => exact hend (fun _ => rfl) nofun

/-! ## Its errors -/

/-- Task and relay have published the same events, and the relay has changed nothing else. -/
def SameEvents (c : Conversation) (s s' : ConsentStore) (store store' : ChatStore) : Prop :=
  ∃ new : List ChatEvent,
    s'.chatEvents = s.chatEvents ++ new.map (fun event => (c.user, c.id, event)) ∧
      store' = { store with published := store.published ++ new.filterMap (loopEvent c) }

/-- They fail alike at an `error` envelope. -/
theorem ended_json (h : ChatReply.Reads s (.streaming c []) es s' .ended) (host : ChatHost)
    (widgetJson : String → Json) (store : ChatStore) (g : Generator Json RelayError) :
    SameEvents c s s' store
      (generateChatReply host c store
        (.prepend (es.map (ChatEnvelope.json widgetJson)) g)).store := by
  obtain ⟨new, r, signal, hnew, hmatches, hat⟩ :=
    reads_json (r := { published := store.published }) h rfl host widgetJson g
  match signal with
  | .raise (.aiServiceError message) =>
    obtain ⟨unread, hat⟩ := hat
    refine ⟨new, hnew, ?_⟩
    rw [generateChatReply, hat, ← show r.published ++ _ = _ from hmatches]

/-- They fail alike where the stream breaks off. -/
theorem cut_json {s₁ : ConsentStore} {g : Generator Json RelayError} {answer : ChatAnswer}
    (h : ChatReply.Reads s (.streaming c []) es s₁ (.streaming c steps))
    (hanswer : g = .returns ∧ answer = .exhausted ∨
      ∃ exc, g = .raises (.aiServiceError exc) ∧ answer = .raises exc)
    (hstep : ChatReply.step s₁ (.streaming c steps) answer = some (s', t')) (host : ChatHost)
    (widgetJson : String → Json) (store : ChatStore) :
    SameEvents c s s' store
      (generateChatReply host c store
        (.prepend (es.map (ChatEnvelope.json widgetJson)) g)).store := by
  obtain ⟨new, r, signal, hnew, hmatches, hat⟩ :=
    reads_json (r := { published := store.published }) h rfl host widgetJson g
  match signal with
  | .next =>
    obtain ⟨-, -, hpublished⟩ := hmatches
    obtain ⟨message, hevents, hstore⟩ : ∃ message,
        s'.chatEvents = s₁.chatEvents ++ [(c.user, c.id, .chatError message)] ∧
          (generateChatReply host c store
            (.prepend (es.map (ChatEnvelope.json widgetJson)) g)).store =
              { store with published := r.published ++ [chatError c message] } := by
      rw [generateChatReply, show _ = _ from hat]
      rcases hanswer with ⟨rfl, rfl⟩ | ⟨exc, rfl, rfl⟩
      · cases hstep
        exact ⟨"AI service chat ended without a result", rfl, rfl⟩
      · cases hstep
        exact ⟨exc, rfl, rfl⟩
    refine ⟨new ++ [.chatError message], ?_, ?_⟩
    · rw [hevents, hnew, List.append_assoc, List.map_append]
      rfl
    · rw [hstore, hpublished, List.append_assoc, List.filterMap_append]
      rfl

end Envelopes

end NbeAdvisor
