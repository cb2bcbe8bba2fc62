import NbeAdvisor.ConsentGate
import NbeAdvisor.Generators
import NbeAdvisor.JsonValues
import NbeAdvisor.Numerals

/-!
# The relay of a chat reply

`generate_chat_reply` goes over the envelopes that `stream_chat` yields. It publishes each token,
tool call and agent to the user as it comes, keeps the tool calls and the agents as thinking steps,
and stops at a `done` envelope, whose data it saves as the message of the assistant. An `error`
envelope raises `AIServiceError`, and the loop may end without either.
-/

namespace NbeAdvisor

open Generators

/-! ## What is read of an envelope -/

/-- An exception in the task. -/
inductive RelayError where
  | aiServiceError (message : String)
  | keyError (key : String)
  | typeError
  | attributeError
  | valueError
  | recursionError
  /-- A value that Django or the database does not take. -/
  | refused
  deriving DecidableEq

namespace Json

/-- `j[key]`. -/
def item (key : String) : Json → Except RelayError Json
  | object fields =>
    match fields.lookup key with
    | some value => .ok value
    | none => .error (.keyError key)
  | _ => .error .typeError

/-- `j.get(key, default)`. -/
def get (j : Json) (key : String) (default : Json) : Except RelayError Json :=
  match j with
  | object fields => .ok ((fields.lookup key).getD default)
  | _ => .error .attributeError

/-- `for x in j`. -/
def elements : Json → Except RelayError (List Json)
  | array items => .ok items
  | object fields => .ok (fields.map fun f => text f.1)
  | text s => .ok (s.toList.map fun c => text (String.singleton c))
  | _ => .error .typeError

end Json

/-- The fields of `envelope["data"]` with these keys. -/
def readFields (keys : List String) (envelope : Json) :
    Except RelayError (List (String × Json)) := do
  let data ← envelope.item "data"
  keys.mapM fun key => do return (key, ← data.item key)

/-- The argument of the `AIServiceError` for an `error` envelope. -/
def readFailure (envelope : Json) : Except RelayError Json := do
  let data ← envelope.item "data"
  data.get "message" (.text "AI service chat failed")

/-! ## The rows -/

/-- `Message`, as the task saves it. A null is the null of the column. -/
structure MessageRow where
  id : MessageId
  conversation : ConversationId
  sender : Sender
  content : String
  stage : String := "general"
  widgetJson : Json
  suggestionsJson : Json
  thinkingJson : Json

/-- `MessageReference`. -/
structure ReferenceRow where
  message : MessageId
  targetType : String
  targetId : ℕ

/-- An event of `publish_user_event`. -/
structure SseEvent where
  event : String
  data : Json

/-- What the task reads and writes. The bus has the events with the user they are published to. -/
structure ChatStore where
  messages : List MessageRow := []
  references : List ReferenceRow := []
  lastMessageAt : Instant := 0
  published : List (UserId × SseEvent) := []

/-- What the task runs on. -/
structure ChatHost extends Readers where
  /-- The readings of `time.monotonic`, one after the other. -/
  monotonic : ℕ → Instant
  now : Instant
  /-- The values that a `jsonb` column takes. -/
  storesJson : Json → Bool
  /-- The order in which the database returns rows. -/
  listed : List ReferenceRow → List ReferenceRow

namespace ChatHost

variable (host : ChatHost)

/-- What a `text` column holds of a value, if it takes it. -/
def storedText (value : Json) : Option String :=
  match value with
  | .null => none
  | _ => if TextStorable (host.str value) then some (host.str value) else none

/-- `UUIDField.to_python`, which takes an integer for the number of a UUID. -/
def storedUuid : Json → Option ℕ
  | .text s => host.uuid s
  | .number shown _ => shown.toNat?.filter (· < 2 ^ 128)
  | .bool b => some (if b then 1 else 0)
  | _ => none

end ChatHost

/-- `publish_user_event(conversation.user_id, event, {"conversation_id": .., ..})`. -/
def chatEvent (c : Conversation) (event : String) (fields : List (String × Json)) :
    UserId × SseEvent :=
  (c.user, ⟨event, .object (("conversation_id", .text (toString c.id)) :: fields)⟩)

/-! ## The loop -/

/-- What the loop changes. -/
structure Relay where
  published : List (UserId × SseEvent)
  thinkingSteps : List Json := []
  thinkingStartedAt : Option Instant := none

namespace Relay

/-- One event more has been published to the user of the conversation. -/
def publish (r : Relay) (c : Conversation) (event : String) (fields : List (String × Json)) :
    Relay :=
  { r with published := r.published ++ [chatEvent c event fields] }

/-- `if thinking_started_at is None: thinking_started_at = time.monotonic()`. -/
def startThinking (host : ChatHost) (r : Relay) : Relay :=
  { r with thinkingStartedAt := some (r.thinkingStartedAt.getD (host.monotonic 0)) }

/-- A step is kept and published. -/
def think (host : ChatHost) (c : Conversation) (r : Relay) (kind event : String)
    (keys : List String) (envelope : Json) : Relay × Signal Json RelayError :=
  let r := r.startThinking host
  match readFields keys envelope with
  | .error e => (r, .raise e)
  | .ok fields =>
    let step : Json := .object (("kind", .text kind) :: fields)
    ({ r with thinkingSteps := r.thinkingSteps ++ [step] }.publish c event fields, .next)

/-- The body of the loop. A `done` envelope leaves it with its data. -/
def receive (host : ChatHost) (c : Conversation) (r : Relay) (envelope : Json) :
    Relay × Signal Json RelayError :=
  match envelope.item "event" with
  | .error e => (r, .raise e)
  | .ok event =>
    if event.isText "token" then
      match envelope.item "data" with
      | .error e => (r, .raise e)
      | .ok data => (r.publish c "chat_token" [("data", data)], .next)
    else if event.isText "tool_call" then
      r.think host c "tool" "chat_tool_status" ["call_id", "tool", "status"] envelope
    else if event.isText "agent_selected" then
      r.think host c "agent" "chat_agent_selected" ["agent"] envelope
    else if event.isText "done" then
      match envelope.item "data" with
      | .error e => (r, .raise e)
      | .ok result => (r, .leave result)
    else if event.isText "error" then
      match readFailure envelope with
      | .error e => (r, .raise e)
      | .ok message => (r, .raise (.aiServiceError (host.str message)))
    else (r, .next)

end Relay

/-- `thinking_json` of these steps, between two readings of the clock in microseconds. -/
def thinkingJson (steps : List Json) (startedAt now : Instant) : Json :=
  let duration : ℤ := Numerals.roundHalfEven ((now - startedAt : ℚ) / 1000)
  .object [("steps", .array steps), ("duration_ms", .number (toString duration) (duration = 0))]

/-- `thinking_json`, or `None`. -/
def Relay.thinking (host : ChatHost) (r : Relay) : Json :=
  match r.thinkingSteps, r.thinkingStartedAt with
  | step :: steps, some startedAt => thinkingJson (step :: steps) startedAt (host.monotonic 1)
  | _, _ => .null

/-! ## The reply -/

/-- `result.get("suggestions") or []`. -/
def readSuggestions (result : Json) : Except RelayError Json := do
  let suggestions ← result.get "suggestions" .null
  return if suggestions.truthy then suggestions else .array []

/-- `ref["target_type"], ref["target_id"]`. -/
def readReference (ref : Json) : Except RelayError (Json × Json) := do
  return (← ref.item "target_type", ← ref.item "target_id")

/-- `Message.objects.create`, unless the database refuses the row. -/
def createMessage (host : ChatHost) (c : Conversation) (messages : List MessageRow)
    (content widget suggestions thinking : Json) : Except RelayError MessageRow :=
  match host.storedText content with
  | none => .error .refused
  | some text =>
    if host.storesJson widget ∧ host.storesJson suggestions ∧ host.storesJson thinking then
      .ok
        { id := Keyed.freshKey (messages.map (·.id)), conversation := c.id, sender := .assistant
          content := text, widgetJson := widget, suggestionsJson := suggestions
          thinkingJson := thinking }
    else .error .refused

/-- The message of a result, with its content as it came. -/
def replyMessage (host : ChatHost) (c : Conversation) (messages : List MessageRow)
    (thinking result : Json) : Except RelayError (Json × MessageRow) := do
  let content ← result.item "content"
  let widget ← result.item "widget"
  let suggestions ← readSuggestions result
  return (content, ← createMessage host c messages content widget suggestions thinking)

/-- `for ref in result["references"]`. -/
def readReferences (result : Json) : Except RelayError (List Json) := do
  let references ← result.item "references"
  references.elements

/-- `Message.add_reference`, as the columns keep it, unless the database refuses the row. -/
def addReference (host : ChatHost) (message : MessageId) (target : Json × Json) :
    Except RelayError ReferenceRow :=
  match host.storedText target.1, host.storedUuid target.2 with
  | some targetType, some targetId =>
    if TextTakes 50 targetType then .ok { message, targetType := cutBlanks 50 targetType, targetId }
    else .error .refused
  | _, _ => .error .refused

/-- The loop over the references : the rows with those that it has added, and the exception that
ends it early. -/
def addReferences (host : ChatHost) (message : MessageId) :
    List ReferenceRow → List Json → List ReferenceRow × Option RelayError
  | rows, [] => (rows, none)
  | rows, ref :: refs =>
    match readReference ref >>= addReference host message with
    | .ok row => addReferences host message (rows ++ [row]) refs
    | .error e => (rows, some e)

/-- The event with the message, as it was saved. -/
def chatMessage (host : ChatHost) (c : Conversation) (m : MessageRow) (content : Json)
    (references : List ReferenceRow) : UserId × SseEvent :=
  chatEvent c "chat_message"
    [("id", .text (toString m.id)), ("content", content),
      ("widget", if m.widgetJson.truthy then m.widgetJson
        else .object [("type", .null), ("payload", .null)]),
      ("references", .array ((host.listed (references.filter fun r => r.message = m.id)).map
        fun r => .object
          [("target_type", .text r.targetType), ("target_id", .text (toString r.targetId))])),
      ("suggestions", if m.suggestionsJson.truthy then m.suggestionsJson else .array []),
      ("thinking", m.thinkingJson)]

/-- The event in place of a message. -/
def chatError (c : Conversation) (message : String) : UserId × SseEvent :=
  chatEvent c "chat_error" [("message", .text message)]

/-- What follows a loop that has a result. -/
def saveReply (host : ChatHost) (c : Conversation) (s : ChatStore) (thinking result : Json) :
    ChatStore × Option RelayError :=
  match replyMessage host c s.messages thinking result with
  | .error e => (s, some e)
  | .ok (content, m) =>
    let s := { s with messages := s.messages ++ [m] }
    match readReferences result with
    | .error e => (s, some e)
    | .ok refs =>
      match addReferences host m.id s.references refs with
      | (references, some e) => ({ s with references }, some e)
      | (references, none) =>
        ({ s with
            references, lastMessageAt := host.now
            published := s.published ++ [chatMessage host c m content references] }, none)

/-- How the task ends : what it leaves, the exception that it lets through, and what it has not
read of the stream. -/
structure ChatRun where
  store : ChatStore
  raised : Option RelayError := none
  unread : Generator Json RelayError

/-- `generate_chat_reply`, once it has its rows. -/
def generateChatReply (host : ChatHost) (c : Conversation) (s : ChatStore)
    (stream : Generator Json RelayError) : ChatRun :=
  let (r, loopEnd, unread) := stream.consume (Relay.receive host c) { published := s.published }
  let s := { s with published := r.published }
  let fail (message : String) : ChatRun :=
    { store := { s with published := s.published ++ [chatError c message] }, unread }
  match loopEnd with
  | .exhausted | .left .null => fail "AI service chat ended without a result"
  | .raised (.aiServiceError message) => fail message
  | .raised e => { store := s, raised := some e, unread }
  | .left result =>
    let (s, raised) := saveReply host c s (r.thinking host) result
    { store := s, raised, unread }

/-! ## What the relay is meant to do -/

namespace Json

/-- The value at a key, null if there is none. -/
def field (key : String) : Json → Json
  | object fields => getField fields key
  | _ => null

/-- The envelope has this event. -/
def isEvent (name : String) (envelope : Json) : Bool := (envelope.field "event").isText name

/-- A field of the data of an envelope. -/
def datum (envelope : Json) (key : String) : Json := (envelope.field "data").field key

/-- The envelope ends the reply. -/
def isTerminal (envelope : Json) : Bool := envelope.isEvent "done" || envelope.isEvent "error"

end Json

/-- The event that an envelope is relayed as. -/
def relayed (c : Conversation) (envelope : Json) : Option (UserId × SseEvent) :=
  if envelope.isEvent "token" then
    some (chatEvent c "chat_token" [("data", envelope.field "data")])
  else if envelope.isEvent "tool_call" then
    some (chatEvent c "chat_tool_status"
      [("call_id", envelope.datum "call_id"), ("tool", envelope.datum "tool"),
        ("status", envelope.datum "status")])
  else if envelope.isEvent "agent_selected" then
    some (chatEvent c "chat_agent_selected" [("agent", envelope.datum "agent")])
  else none

/-- The thinking step of an envelope. -/
def thinkingStep (envelope : Json) : Option Json :=
  if envelope.isEvent "tool_call" then
    some (.object
      [("kind", .text "tool"), ("call_id", envelope.datum "call_id"),
        ("tool", envelope.datum "tool"), ("status", envelope.datum "status")])
  else if envelope.isEvent "agent_selected" then
    some (.object [("kind", .text "agent"), ("agent", envelope.datum "agent")])
  else none

/-- The data of the envelope are an object with these keys. -/
def Carries (keys : List String) (envelope : Json) : Prop :=
  ∃ fields, envelope.item "data" = .ok (.object fields) ∧ ∀ key ∈ keys, (fields.lookup key).isSome

/-- The envelope has the fields of its event, and the data of a `done` envelope are as `P` says. -/
structure Shaped (P : Json → Prop) (envelope : Json) : Prop where
  event : ∃ event, envelope.item "event" = .ok event
  token : envelope.isEvent "token" → ∃ data, envelope.item "data" = .ok data
  toolCall : envelope.isEvent "tool_call" → Carries ["call_id", "tool", "status"] envelope
  agentSelected : envelope.isEvent "agent_selected" → Carries ["agent"] envelope
  done : envelope.isEvent "done" → ∃ result, envelope.item "data" = .ok result ∧ P result
  error : envelope.isEvent "error" → Carries [] envelope

/-- The data of a `done` envelope have the fields that are read. -/
structure ReplyFields (result : Json) : Prop where
  content : ∃ content, result.item "content" = .ok content
  widget : ∃ widget, result.item "widget" = .ok widget
  references : ∃ refs, readReferences result = .ok refs ∧
    ∀ ref ∈ refs, ∃ target, readReference ref = .ok target

/-- The database takes the message and its references. -/
structure Persists (host : ChatHost) (thinking result : Json) : Prop where
  content : ∀ content, result.item "content" = .ok content → (host.storedText content).isSome
  widget : ∀ widget, result.item "widget" = .ok widget → host.storesJson widget
  suggestions : ∀ suggestions, readSuggestions result = .ok suggestions →
    host.storesJson suggestions
  thinking : host.storesJson thinking
  references : ∀ refs, readReferences result = .ok refs → ∀ ref ∈ refs, ∀ target,
    readReference ref = .ok target → ∃ row, addReference host 0 target = .ok row

/-- `thinking_json` of the steps of a run. -/
def thinkingOf (host : ChatHost) (steps : List Json) : Json :=
  if steps.isEmpty then .null else thinkingJson steps (host.monotonic 0) (host.monotonic 1)

/-- The state of the loop after an envelope that does not end it. -/
def Relay.relay (host : ChatHost) (c : Conversation) (r : Relay) (envelope : Json) : Relay :=
  { published := r.published ++ (relayed c envelope).toList
    thinkingSteps := r.thinkingSteps ++ (thinkingStep envelope).toList
    thinkingStartedAt :=
      if (thinkingStep envelope).isSome then some (r.thinkingStartedAt.getD (host.monotonic 0))
      else r.thinkingStartedAt }

/-! ## Lists of readings -/

section MapM

variable {α β ε : Type} {f : α → Except ε β} {g : α → β} {xs : List α}

/-- Where all goes through the list does. -/
theorem mapM_eq_ok (h : ∀ x ∈ xs, f x = .ok (g x)) : xs.mapM f = .ok (xs.map g) := by
  induction xs with
  | nil => rfl
  | cons x xs ih =>
    rw [List.mapM_cons, h x List.mem_cons_self, ih fun y hy => h y (List.mem_cons_of_mem x hy)]
    rfl

/-- All are read, or it is the exception of one of them. -/
theorem mapM_cases (f : α → Except ε β) (xs : List α) :
    (∃ ys, xs.mapM f = .ok ys) ∧ (∀ x ∈ xs, ∃ y, f x = .ok y) ∨
      ∃ x ∈ xs, ∃ e, f x = .error e ∧ xs.mapM f = .error e := by
  induction xs with
  | nil => exact Or.inl ⟨⟨[], rfl⟩, by simp⟩
  | cons x xs ih =>
    rw [List.mapM_cons]
    cases hx : f x with
    | error e => exact Or.inr ⟨x, List.mem_cons_self, e, hx, rfl⟩
    | ok y =>
      rcases ih with ⟨⟨ys, hys⟩, hall⟩ | ⟨z, hz, e, he, herror⟩
      · refine Or.inl ⟨⟨y :: ys, by rw [hys]; rfl⟩, fun z hz => ?_⟩
        rcases List.mem_cons.1 hz with rfl | hz
        · exact ⟨y, hx⟩
        · exact hall z hz
      · exact Or.inr ⟨z, List.mem_cons_of_mem x hz, e, he, by rw [herror]; rfl⟩

end MapM

/-! ## One envelope -/

section Receive

variable {host : ChatHost} {c : Conversation} {r : Relay} {envelope j value : Json} {e : RelayError}
  {keys : List String} {key m : String} {fields : List (String × Json)}

/-- A value is a text if it is that text. -/
theorem Json.isText_iff {s : String} : j.isText s = true ↔ j = .text s := by
  cases j <;> simp [isText]

/-- `data[key]` is a field of an object. -/
theorem Json.item_eq_ok (h : j.item key = .ok value) :
    ∃ fields, j = object fields ∧ fields.lookup key = some value := by
  unfold item at h
  split at h
  · split at h <;> cases h
    exact ⟨_, rfl, by assumption⟩
  · cases h

/-- Where the key is there `get` finds it. -/
theorem Json.field_eq (h : j.item key = .ok value) : j.field key = value := by
  obtain ⟨fields, rfl, hlookup⟩ := item_eq_ok h
  rw [field, getField, hlookup, Option.getD_some]

/-- A key that is there. -/
theorem Json.item_object (h : (fields.lookup key).isSome) :
    (Json.object fields).item key = .ok (getField fields key) := by
  obtain ⟨value, hvalue⟩ := Option.isSome_iff_exists.1 h
  simp only [item, getField, hvalue, Option.getD_some]

/-- A missing key is no error of the AI service. -/
theorem Json.item_error (h : j.item key = .error e) : e ≠ .aiServiceError m := by
  unfold item at h
  split at h
  · split at h <;> cases h
    exact nofun
  · cases h
    exact nofun

/-- The keys are all there, or one is missing. -/
theorem mapM_item (data : Json) (keys : List String) :
    (∀ key ∈ keys, ∃ value, data.item key = .ok value) ∧
        (keys.mapM fun key => do return (key, ← data.item key)) =
          .ok (keys.map fun key => (key, data.field key)) ∨
      ∃ key ∈ keys, ∃ e, data.item key = .error e ∧
        (keys.mapM fun key => do return (key, ← data.item key)) = .error e := by
  rcases mapM_cases (fun key => do return (key, ← data.item key)) keys with
    ⟨-, hall⟩ | ⟨key, hkey, e, he, herror⟩
  · have hitem : ∀ key ∈ keys, data.item key = .ok (data.field key) := fun key hkey => by
      obtain ⟨_, hok⟩ := hall key hkey
      cases hvalue : data.item key with
      | error e =>
        rw [hvalue] at hok
        cases hok
      | ok value => rw [Json.field_eq hvalue]
    refine Or.inl ⟨fun key hkey => ⟨_, hitem key hkey⟩, mapM_eq_ok fun key hkey => ?_⟩
    rw [hitem key hkey]
    rfl
  · refine Or.inr ⟨key, hkey, e, ?_, herror⟩
    cases hvalue : data.item key with
    | error e' =>
      rw [hvalue] at he
      cases he
      rfl
    | ok value =>
      rw [hvalue] at he
      cases he

/-- The fields are read exactly if the data carry them. -/
theorem readFields_cases (hkeys : keys ≠ []) (envelope : Json) :
    (Carries keys envelope ∧
        readFields keys envelope = .ok (keys.map fun key => (key, envelope.datum key))) ∨
      (¬Carries keys envelope ∧ ∃ e, readFields keys envelope = .error e ∧
        ∀ m, e ≠ .aiServiceError m) := by
  unfold readFields Carries
  cases hdata : envelope.item "data" with
  | error e => exact Or.inr ⟨by simp, e, rfl, fun m => Json.item_error hdata⟩
  | ok data =>
    have hdatum : ∀ key, envelope.datum key = data.field key := fun key => by
      rw [Json.datum, Json.field_eq hdata]
    simp only [hdatum]
    rcases mapM_item data keys with ⟨hall, hok⟩ | ⟨key, hkey, e, he, herror⟩
    · obtain ⟨key, hkey⟩ := List.exists_mem_of_ne_nil keys hkeys
      obtain ⟨value, hvalue⟩ := hall key hkey
      obtain ⟨fields, rfl, -⟩ := Json.item_eq_ok hvalue
      refine Or.inl ⟨⟨fields, rfl, fun k hk => ?_⟩, hok⟩
      obtain ⟨v, hv⟩ := hall k hk
      obtain ⟨_, hfields, hlookup⟩ := Json.item_eq_ok hv
      cases hfields
      rw [hlookup, Option.isSome_some]
    · refine Or.inr ⟨?_, e, herror, fun m => Json.item_error he⟩
      rintro ⟨fields, hfields, hall⟩
      cases hfields
      rw [Json.item_object (hall key hkey)] at he
      cases he

/-- So is the failure, of data that are an object. -/
theorem readFailure_cases (envelope : Json) :
    (Carries [] envelope ∧ ∃ message, readFailure envelope = .ok message) ∨
      (¬Carries [] envelope ∧ ∃ e, readFailure envelope = .error e ∧
        ∀ m, e ≠ .aiServiceError m) := by
  unfold readFailure Carries
  cases hdata : envelope.item "data" with
  | error e => exact Or.inr ⟨by simp, e, rfl, fun m => Json.item_error hdata⟩
  | ok data =>
    cases data with
    | object fields =>
      exact Or.inl ⟨⟨fields, rfl, by simp⟩,
        (fields.lookup "message").getD (.text "AI service chat failed"), rfl⟩
    | _ => exact Or.inr ⟨by simp, .attributeError, rfl, nofun⟩

/-- A tool call or an agent. -/
theorem think_cases (hkeys : keys ≠ []) (host : ChatHost) (c : Conversation) (r : Relay)
    (kind event : String) (envelope : Json) :
    (Carries keys envelope ∧
        r.think host c kind event keys envelope =
          ({ published := r.published ++
              [chatEvent c event (keys.map fun key => (key, envelope.datum key))]
             thinkingSteps := r.thinkingSteps ++
              [.object (("kind", .text kind) :: keys.map fun key => (key, envelope.datum key))]
             thinkingStartedAt := some (r.thinkingStartedAt.getD (host.monotonic 0)) }, .next)) ∨
      (¬Carries keys envelope ∧ ∃ e, r.think host c kind event keys envelope =
          (r.startThinking host, .raise e) ∧ ∀ m, e ≠ .aiServiceError m) := by
  rcases readFields_cases hkeys envelope with ⟨hcarries, hok⟩ | ⟨hcarries, e, herror, he⟩
  · exact Or.inl ⟨hcarries, by simp only [Relay.think, hok]; rfl⟩
  · exact Or.inr ⟨hcarries, e, by simp only [Relay.think, herror], he⟩

/-- The event of an envelope is a text. -/
theorem isEvent_eq {event : Json} (h : envelope.item "event" = .ok event) (name : String) :
    envelope.isEvent name = event.isText name := by
  rw [Json.isEvent, Json.field_eq h]

theorem shaped_iff {P : Json → Prop} {event : Json} (h : envelope.item "event" = .ok event) :
    Shaped P envelope ↔
      (event.isText "token" → ∃ data, envelope.item "data" = .ok data) ∧
      (event.isText "tool_call" → Carries ["call_id", "tool", "status"] envelope) ∧
      (event.isText "agent_selected" → Carries ["agent"] envelope) ∧
      (event.isText "done" → ∃ result, envelope.item "data" = .ok result ∧ P result) ∧
      (event.isText "error" → Carries [] envelope) := by
  simp only [← isEvent_eq h]
  exact ⟨fun h => ⟨h.token, h.toolCall, h.agentSelected, h.done, h.error⟩,
    fun ⟨htoken, htool, hagent, hdone, herror⟩ =>
      ⟨⟨event, h⟩, htoken, htool, hagent, hdone, herror⟩⟩

/-- How the body of the loop ends on an envelope : it relays it, it leaves with a result, it raises
the `AIServiceError` of the envelope, or it trips over a field. -/
inductive Received (host : ChatHost) (c : Conversation) (r : Relay) (envelope : Json) : Prop
  | relays (terminal : envelope.isTerminal = false) (shaped : ∀ P, Shaped P envelope)
      (receive : r.receive host c envelope = (r.relay host c envelope, .next))
  | leaves (done : envelope.isEvent "done")
      (shaped : ∀ P, Shaped P envelope ↔ P (envelope.field "data"))
      (receive : r.receive host c envelope = (r, .leave (envelope.field "data")))
  | fails (error : envelope.isEvent "error") (shaped : ∀ P, Shaped P envelope)
      (receive : ∃ message, readFailure envelope = .ok message ∧
        r.receive host c envelope = (r, .raise (.aiServiceError (host.str message))))
  | trips (shaped : ∀ P, ¬Shaped P envelope)
      (receive : ∃ r' e, r.receive host c envelope = (r', .raise e) ∧
        r'.published = r.published ∧ ∀ m, e ≠ .aiServiceError m)

/-- An envelope whose data are kept as a thinking step. -/
theorem Received.of_think (kind name : String) (hkeys : keys ≠ [])
    (hterminal : envelope.isTerminal = false)
    (hshaped : ∀ P, Shaped P envelope ↔ Carries keys envelope)
    (hreceive : r.receive host c envelope = r.think host c kind name keys envelope)
    (hrelayed : relayed c envelope =
      some (chatEvent c name (keys.map fun key => (key, envelope.datum key))))
    (hstep : thinkingStep envelope =
      some (.object (("kind", .text kind) :: keys.map fun key => (key, envelope.datum key)))) :
    Received host c r envelope := by
  rcases think_cases hkeys host c r kind name envelope with
    ⟨hcarries, hthink⟩ | ⟨hcarries, e, hthink, he⟩
  · refine .relays hterminal (fun P => (hshaped P).2 hcarries) ?_
    rw [hreceive, hthink, Relay.relay, hrelayed, hstep]
    rfl
  · exact .trips (fun P h => hcarries ((hshaped P).1 h))
      ⟨r.startThinking host, e, hreceive.trans hthink, rfl, he⟩

/-- What an envelope does, by its event. -/
theorem receive_cases (host : ChatHost) (c : Conversation) (r : Relay) (envelope : Json) :
    Received host c r envelope := by
  cases hitem : envelope.item "event" with
  | error e =>
    refine .trips (fun P h => ?_) ⟨r, e, ?_, rfl, fun m => Json.item_error hitem⟩
    · obtain ⟨event, hevent⟩ := h.event
      exact nomatch hevent.symm.trans hitem
    · simp only [Relay.receive, hitem]
  | ok event =>
  have hshaped := fun P => shaped_iff (P := P) hitem
  have hevent := isEvent_eq hitem
  by_cases htoken : event.isText "token"
  · obtain rfl := Json.isText_iff.1 htoken
    simp only [Json.isText] at hshaped hevent
    cases hdata : envelope.item "data" with
    | error e =>
      refine .trips (fun P => by simp [hshaped, hdata])
        ⟨r, e, ?_, rfl, fun m => Json.item_error hdata⟩
      simp [Relay.receive, hitem, hdata, Json.isText]
    | ok data =>
      refine .relays (by simp [Json.isTerminal, hevent]) (fun P => by simp [hshaped, hdata]) ?_
      simp [Relay.receive, hitem, hdata, Json.isText, Relay.relay, relayed, thinkingStep, hevent,
        Json.field_eq hdata, Relay.publish]
  by_cases htool : event.isText "tool_call"
  · obtain rfl := Json.isText_iff.1 htool
    simp only [Json.isText] at hshaped hevent
    refine .of_think "tool" "chat_tool_status" (List.cons_ne_nil "call_id" ["tool", "status"])
      (by simp [Json.isTerminal, hevent]) (fun P => by simp [hshaped]) ?_
      (by simp [relayed, hevent]) (by simp [thinkingStep, hevent])
    simp [Relay.receive, hitem, Json.isText]
  by_cases hagent : event.isText "agent_selected"
  · obtain rfl := Json.isText_iff.1 hagent
    simp only [Json.isText] at hshaped hevent
    refine .of_think "agent" "chat_agent_selected" (List.cons_ne_nil "agent" [])
      (by simp [Json.isTerminal, hevent]) (fun P => by simp [hshaped]) ?_
      (by simp [relayed, hevent]) (by simp [thinkingStep, hevent])
    simp [Relay.receive, hitem, Json.isText]
  by_cases hdone : event.isText "done"
  · obtain rfl := Json.isText_iff.1 hdone
    simp only [Json.isText] at hshaped hevent
    cases hdata : envelope.item "data" with
    | error e =>
      refine .trips (fun P => by simp [hshaped, hdata])
        ⟨r, e, ?_, rfl, fun m => Json.item_error hdata⟩
      simp [Relay.receive, hitem, hdata, Json.isText]
    | ok result =>
      have hfield := Json.field_eq hdata
      refine .leaves (by simp [hevent]) (fun P => by simp [hshaped, hdata, hfield]) ?_
      simp [Relay.receive, hitem, hdata, Json.isText, hfield]
  by_cases herror : event.isText "error"
  · obtain rfl := Json.isText_iff.1 herror
    simp only [Json.isText] at hshaped hevent
    rcases readFailure_cases envelope with ⟨hcarries, message, hok⟩ | ⟨hcarries, e, hfail, he⟩
    · refine .fails (by simp [hevent]) (fun P => by simp [hshaped, hcarries]) ⟨message, hok, ?_⟩
      simp [Relay.receive, hitem, Json.isText, hok]
    · refine .trips (fun P => by simp [hshaped, hcarries]) ⟨r, e, ?_, rfl, he⟩
      simp [Relay.receive, hitem, Json.isText, hfail]
  · refine .relays (by simp [Json.isTerminal, hevent, hdone, herror]) (fun P => ?_) ?_
    · simp [hshaped, htoken, htool, hagent, hdone, herror]
    · simp [Relay.receive, hitem, htoken, htool, hagent, hdone, herror, Relay.relay, relayed,
        thinkingStep, hevent]

variable {P : Json → Prop}

/-- An envelope that ends nothing is relayed. -/
theorem receive_relay (hshaped : Shaped P envelope) (ht : envelope.isTerminal = false) :
    r.receive host c envelope = (r.relay host c envelope, .next) := by
  rw [Json.isTerminal, Bool.or_eq_false_iff] at ht
  rcases receive_cases host c r envelope with ⟨-, -, h⟩ | ⟨h, -⟩ | ⟨h, -⟩ | ⟨h, -⟩
  · exact h
  · exact absurd h (ne_true_of_eq_false ht.1)
  · exact absurd h (ne_true_of_eq_false ht.2)
  · exact absurd hshaped (h P)

/-- An envelope has one event. -/
theorem not_isEvent {name name' : String} (h : envelope.isEvent name) (hne : name ≠ name') :
    ¬envelope.isEvent name' := by
  rw [Json.isEvent, Json.isText_iff] at h ⊢
  rw [h]
  exact fun heq => hne (Json.text.inj heq)

/-- The last envelope leaves the loop with its data. -/
theorem receive_done (host : ChatHost) (c : Conversation) (r : Relay) (hshaped : Shaped P envelope)
    (hdone : envelope.isEvent "done") :
    P (envelope.field "data") ∧
      r.receive host c envelope = (r, .leave (envelope.field "data")) := by
  rcases receive_cases host c r envelope with ⟨h, -⟩ | ⟨-, hP, h⟩ | ⟨h, -⟩ | ⟨h, -⟩
  · rw [Json.isTerminal, hdone] at h
    cases h
  · exact ⟨(hP P).1 hshaped, h⟩
  · exact absurd h (not_isEvent hdone (by decide))
  · exact absurd hshaped (h P)

/-- An error raises with its message. -/
theorem receive_error (host : ChatHost) (c : Conversation) (r : Relay)
    (hshaped : Shaped P envelope) (herror : envelope.isEvent "error") :
    ∃ message, readFailure envelope = .ok message ∧
      r.receive host c envelope = (r, .raise (.aiServiceError (host.str message))) := by
  rcases receive_cases host c r envelope with ⟨h, -⟩ | ⟨h, -⟩ | ⟨-, -, h⟩ | ⟨h, -⟩
  · rw [Json.isTerminal, herror, Bool.or_true] at h
    cases h
  · exact absurd h (not_isEvent herror (by decide))
  · exact h
  · exact absurd hshaped (h P)

/-! ## The envelopes before the end -/

/-- The clock is read once the first step is there. -/
def Relay.Timed (host : ChatHost) (r : Relay) : Prop :=
  r.thinkingStartedAt = if r.thinkingSteps.isEmpty then none else some (host.monotonic 0)

/-- The first thinking step starts the clock. -/
theorem Relay.Timed.relay (h : r.Timed host) (envelope : Json) :
    (r.relay host c envelope).Timed host := by
  unfold Timed at h ⊢
  rw [Relay.relay]
  cases thinkingStep envelope with
  | none => simpa using h
  | some step =>
    rw [h]
    cases r.thinkingSteps <;> simp

/-- The thinking that is saved is that of the steps. -/
theorem Relay.Timed.thinking_eq (h : r.Timed host) :
    r.thinking host = thinkingOf host r.thinkingSteps := by
  unfold Timed at h
  unfold Relay.thinking thinkingOf
  cases hsteps : r.thinkingSteps with
  | nil => rfl
  | cons step steps =>
    rw [hsteps] at h
    rw [h]
    rfl

/-- The state of the loop after envelopes that do not end it. -/
def Relay.after (host : ChatHost) (c : Conversation) (published : List (UserId × SseEvent))
    (envelopes : List Json) : Relay :=
  envelopes.foldl (Relay.relay host c) { published }

section After

variable {published : List (UserId × SseEvent)} {envelopes : List Json}

/-- One envelope more. -/
theorem after_snoc (host : ChatHost) (c : Conversation) (published : List (UserId × SseEvent))
    (envelopes : List Json) (envelope : Json) :
    Relay.after host c published (envelopes ++ [envelope]) =
      (Relay.after host c published envelopes).relay host c envelope := by
  rw [Relay.after, List.foldl_append]
  rfl

/-- What the loop has published. -/
theorem after_published : (Relay.after host c published envelopes).published =
    published ++ envelopes.filterMap (relayed c) := by
  induction envelopes using List.reverseRecOn with
  | nil => simp [Relay.after]
  | append_singleton envelopes envelope ih =>
    rw [after_snoc, List.filterMap_append, ← List.append_assoc, ← ih]
    cases h : relayed c envelope <;> simp [Relay.relay, h]

/-- The steps that it has collected. -/
theorem after_thinkingSteps (host : ChatHost) (c : Conversation)
    (published : List (UserId × SseEvent)) (envelopes : List Json) :
    (Relay.after host c published envelopes).thinkingSteps = envelopes.filterMap thinkingStep := by
  induction envelopes using List.reverseRecOn with
  | nil => rfl
  | append_singleton envelopes envelope ih =>
    rw [after_snoc, List.filterMap_append, ← ih]
    cases h : thinkingStep envelope <;> simp [Relay.relay, h]

/-- The thinking that it saves. -/
theorem after_thinking : (Relay.after host c published envelopes).thinking host =
    thinkingOf host (envelopes.filterMap thinkingStep) := by
  rw [← after_thinkingSteps host c published]
  refine Relay.Timed.thinking_eq ?_
  induction envelopes using List.reverseRecOn with
  | nil => rfl
  | append_singleton envelopes envelope ih => exact after_snoc host c .. ▸ ih.relay envelope

end After

end Receive

/-! ## What is saved -/

/-- The message of a result is saved with its references, and published. -/
structure Saved (host : ChatHost) (c : Conversation) (s : ChatStore) (thinking result : Json)
    (s' : ChatStore) (m : MessageRow) : Prop where
  messages : s'.messages = s.messages ++ [m]
  fresh : ∀ n ∈ s.messages, n.id ≠ m.id
  conversation : m.conversation = c.id
  sender : m.sender = .assistant
  content : host.storedText (result.field "content") = some m.content
  widgetJson : m.widgetJson = result.field "widget"
  suggestionsJson : readSuggestions result = .ok m.suggestionsJson
  thinkingJson : m.thinkingJson = thinking
  references : ∃ rows, s'.references = s.references ++ rows ∧
    (do
      let refs ← readReferences result
      refs.mapM fun ref => readReference ref >>= addReference host m.id) = .ok rows
  published : s'.published =
    s.published ++ [chatMessage host c m (result.field "content") s'.references]

section Save

variable {host : ChatHost} {c : Conversation} {s : ChatStore} {thinking result : Json}
  {content widget suggestions : Json} {messages : List MessageRow} {message : MessageId}

/-- The message is created, or something raises. -/
theorem createMessage_cases (host : ChatHost) (c : Conversation) (messages : List MessageRow)
    (content widget suggestions thinking : Json) :
    (∃ m, createMessage host c messages content widget suggestions thinking = .ok m ∧
        (host.storesJson widget ∧ host.storesJson suggestions ∧ host.storesJson thinking) ∧
        (∀ n ∈ messages, n.id ≠ m.id) ∧ m.conversation = c.id ∧ m.sender = .assistant ∧
        host.storedText content = some m.content ∧ m.widgetJson = widget ∧
        m.suggestionsJson = suggestions ∧ m.thinkingJson = thinking) ∨
      (createMessage host c messages content widget suggestions thinking = .error .refused ∧
        ¬((host.storedText content).isSome ∧ host.storesJson widget ∧ host.storesJson suggestions ∧
          host.storesJson thinking)) := by
  unfold createMessage
  cases htext : host.storedText content with
  | none => exact Or.inr ⟨rfl, by simp⟩
  | some text =>
    simp only
    split_ifs with hstores
    · exact Or.inl ⟨_, rfl, hstores,
        fun n hn => Keyed.ne_freshKey (fun m : MessageRow => m.id) hn, rfl, rfl, rfl, rfl, rfl, rfl⟩
    · exact Or.inr ⟨rfl, fun h => hstores h.2⟩

/-- A reference is added if its fields are there and the database takes it, whatever the message. -/
theorem reference_isOk (host : ChatHost) (message : MessageId) (ref : Json) :
    (∃ row, (readReference ref >>= addReference host message) = .ok row) ↔
      ∃ target, readReference ref = .ok target ∧ ∃ row, addReference host 0 target = .ok row := by
  cases readReference ref with
  | error e =>
    constructor
    · rintro ⟨_, ⟨⟩⟩
    · rintro ⟨_, ⟨⟩, _⟩
  | ok target =>
    have hrow : (∃ row, addReference host message target = .ok row) ↔
        ∃ row, addReference host 0 target = .ok row := by
      unfold addReference
      split
      · split_ifs <;> simp
      · rfl
    refine hrow.trans ⟨fun h => ⟨target, rfl, h⟩, ?_⟩
    rintro ⟨_, ⟨⟩, h⟩
    exact h

/-- The references are added, or one raises. -/
theorem addReferences_cases (host : ChatHost) (message : MessageId) (rows : List ReferenceRow)
    (refs : List Json) :
    (∃ new, (refs.mapM fun ref => readReference ref >>= addReference host message) = .ok new ∧
        (∀ ref ∈ refs, ∃ row, (readReference ref >>= addReference host message) = .ok row) ∧
        addReferences host message rows refs = (rows ++ new, none)) ∨
      ∃ ref ∈ refs, ∃ e, (readReference ref >>= addReference host message) = .error e ∧
        ∃ rows', addReferences host message rows refs = (rows', some e) := by
  induction refs generalizing rows with
  | nil => exact Or.inl ⟨[], rfl, by simp, by simp [addReferences]⟩
  | cons ref refs ih =>
    rw [List.mapM_cons, addReferences]
    cases href : readReference ref >>= addReference host message with
    | error e => exact Or.inr ⟨ref, List.mem_cons_self, e, href, rows, rfl⟩
    | ok row =>
      rcases ih (rows ++ [row]) with ⟨new, hnew, hall, hadd⟩ | ⟨ref', hmem, e, he, rows', hadd⟩
      · refine Or.inl ⟨row :: new, by rw [hnew]; rfl, ?_, by simp [hadd]⟩
        rintro ref' hmem
        rcases List.mem_cons.1 hmem with rfl | hmem
        · exact ⟨row, href⟩
        · exact hall ref' hmem
      · exact Or.inr ⟨ref', List.mem_cons_of_mem ref hmem, e, he, rows', hadd⟩

/-- The message of a result, if its fields are there and the database takes it. -/
theorem replyMessage_cases (host : ChatHost) (c : Conversation) (messages : List MessageRow)
    (thinking result : Json) :
    (∃ content m, replyMessage host c messages thinking result = .ok (content, m) ∧
        result.item "content" = .ok content ∧ result.item "widget" = .ok m.widgetJson ∧
        readSuggestions result = .ok m.suggestionsJson ∧ host.storedText content = some m.content ∧
        m.thinkingJson = thinking ∧
        (host.storesJson m.widgetJson ∧ host.storesJson m.suggestionsJson ∧
          host.storesJson m.thinkingJson) ∧
        (∀ n ∈ messages, n.id ≠ m.id) ∧ m.conversation = c.id ∧ m.sender = .assistant) ∨
      ∃ e, replyMessage host c messages thinking result = .error e ∧
        ¬(ReplyFields result ∧ Persists host thinking result) := by
  unfold replyMessage
  cases hcontent : result.item "content" with
  | error e =>
    refine Or.inr ⟨e, rfl, ?_⟩
    rintro ⟨⟨⟨content, hok⟩, -, -⟩, -⟩
    exact nomatch hok.symm.trans hcontent
  | ok content =>
  cases hwidget : result.item "widget" with
  | error e =>
    refine Or.inr ⟨e, rfl, ?_⟩
    rintro ⟨⟨-, ⟨widget, hok⟩, -⟩, -⟩
    exact nomatch hok.symm.trans hwidget
  | ok widget =>
  obtain ⟨suggestions, hsuggestions⟩ : ∃ suggestions, readSuggestions result = .ok suggestions := by
    obtain ⟨fields, rfl, -⟩ := Json.item_eq_ok hcontent
    exact ⟨_, rfl⟩
  rw [hsuggestions]
  rcases createMessage_cases host c messages content widget suggestions thinking with
    ⟨m, hm, hstores, hfresh, hconversation, hsender, hstored, rfl, rfl, rfl⟩ | ⟨hm, hstores⟩
  · refine Or.inl ⟨content, m, ?_, rfl, rfl, rfl, hstored, rfl, hstores, hfresh, hconversation,
      hsender⟩
    simp only [hm, bind, Except.bind, pure, Except.pure]
  · refine Or.inr ⟨.refused, by simp only [hm, bind, Except.bind], fun ⟨_, hp⟩ => hstores ?_⟩
    exact ⟨hp.content content hcontent, hp.widget widget hwidget,
      hp.suggestions suggestions hsuggestions, hp.thinking⟩

/-- A result is saved and published if its fields are there and the database takes them. Else an
exception ends the task, with nothing more published. -/
theorem saveReply_cases (host : ChatHost) (c : Conversation) (s : ChatStore)
    (thinking result : Json) :
    (ReplyFields result ∧ Persists host thinking result ∧ ∃ s' m,
        saveReply host c s thinking result = (s', none) ∧ Saved host c s thinking result s' m) ∨
      (¬(ReplyFields result ∧ Persists host thinking result) ∧ ∃ s' e,
        saveReply host c s thinking result = (s', some e) ∧ s'.published = s.published) := by
  unfold saveReply
  rcases replyMessage_cases host c s.messages thinking result with
    ⟨content, m, hm, hcontent, hwidget, hsuggestions, hstored, hthinking, hstores, hfresh,
      hconversation, hsender⟩ | ⟨e, he, hnot⟩
  swap
  · exact Or.inr ⟨hnot, s, e, by rw [he], rfl⟩
  rw [hm]
  cases hrefs : readReferences result with
  | error e =>
    refine Or.inr ⟨?_, _, e, rfl, rfl⟩
    rintro ⟨⟨-, -, ⟨refs, hok, -⟩⟩, -⟩
    exact nomatch hok.symm.trans hrefs
  | ok refs =>
  rcases addReferences_cases host m.id s.references refs with
    ⟨new, hnew, hall, hadd⟩ | ⟨ref, hmem, e, he, rows, hadd⟩
  · have htarget := fun ref hmem => (reference_isOk host m.id ref).1 (hall ref hmem)
    refine Or.inl ⟨⟨⟨content, hcontent⟩, ⟨_, hwidget⟩, refs, hrefs, fun ref hmem => ?_⟩, ?_, _, m,
      by simp only [hadd]; rfl, ?_⟩
    · obtain ⟨target, ht, -⟩ := htarget ref hmem
      exact ⟨target, ht⟩
    · refine ⟨fun j hj => ?_, fun j hj => ?_, fun j hj => ?_, hthinking ▸ hstores.2.2, ?_⟩
      · obtain rfl := Except.ok.inj (hcontent.symm.trans hj)
        rw [hstored, Option.isSome_some]
      · exact Except.ok.inj (hwidget.symm.trans hj) ▸ hstores.1
      · exact Except.ok.inj (hsuggestions.symm.trans hj) ▸ hstores.2.1
      · intro refs' hrefs' ref hmem target ht
        obtain rfl := Except.ok.inj (hrefs.symm.trans hrefs')
        obtain ⟨target', ht', hrow⟩ := htarget ref hmem
        obtain rfl := Except.ok.inj (ht'.symm.trans ht)
        exact hrow
    · have hfield := Json.field_eq hcontent
      exact
        { messages := rfl, fresh := hfresh, conversation := hconversation, sender := hsender
          content := hfield.symm ▸ hstored, widgetJson := (Json.field_eq hwidget).symm
          suggestionsJson := hsuggestions, thinkingJson := hthinking
          references := ⟨new, rfl, by rw [hrefs]; exact hnew⟩
          published := by rw [hfield] }
  · refine Or.inr ⟨?_, { s with messages := s.messages ++ [m], references := rows }, e,
      by simp only [hadd], rfl⟩
    rintro ⟨⟨-, -, refs', hrefs', hfields⟩, hpersists⟩
    obtain rfl := Except.ok.inj (hrefs.symm.trans hrefs')
    obtain ⟨target, ht⟩ := hfields ref hmem
    obtain ⟨row, hrow⟩ := (reference_isOk host m.id ref).2
      ⟨target, ht, hpersists.references refs hrefs ref hmem target ht⟩
    exact nomatch hrow.symm.trans he

end Save

/-! ## The whole task -/

/-- The text of the `AIServiceError` in which a loop ends, or in which its result is refused. -/
def failure : LoopEnd Json RelayError → Option String
  | .exhausted | .left .null => some "AI service chat ended without a result"
  | .raised (.aiServiceError message) => some message
  | _ => none

section Task

variable {host : ChatHost} {c : Conversation} {s : ChatStore} {r : Relay}
  {stream unread : Generator Json RelayError} {loopEnd : LoopEnd Json RelayError}

/-- How the task ends, by the end of its loop. -/
theorem generateChatReply_cases
    (h : stream.consume (Relay.receive host c) { published := s.published } =
      (r, loopEnd, unread)) :
    (∃ message, failure loopEnd = some message ∧ generateChatReply host c s stream =
        { store := { s with published := r.published ++ [chatError c message] }, unread }) ∨
      (∃ result s' raised, loopEnd = .left result ∧ result ≠ .null ∧
        saveReply host c { s with published := r.published } (r.thinking host) result =
          (s', raised) ∧
        generateChatReply host c s stream = { store := s', raised, unread }) ∨
      ∃ e, loopEnd = .raised e ∧ (∀ m, e ≠ .aiServiceError m) ∧
        generateChatReply host c s stream =
          { store := { s with published := r.published }, raised := some e, unread } := by
  unfold generateChatReply
  rw [h]
  cases loopEnd with
  | exhausted => exact Or.inl ⟨_, rfl, rfl⟩
  | left result =>
    cases result with
    | null => exact Or.inl ⟨_, rfl, rfl⟩
    | _ => exact Or.inr (Or.inl ⟨_, _, _, rfl, nofun, rfl, rfl⟩)
  | raised e =>
    cases e with
    | aiServiceError message => exact Or.inl ⟨message, rfl, rfl⟩
    | _ => exact Or.inr (Or.inr ⟨_, rfl, nofun, rfl⟩)

end Task

/-- An envelope whose data have all the fields of its event. -/
def Documented : Json → Prop := Shaped ReplyFields

/-- The stream that yields the envelopes, and then ends or raises an `AIServiceError`. -/
def chatStream (envelopes : List Json) (ending : Option String) : Generator Json RelayError :=
  .prepend envelopes (ending.elim .returns fun message => .raises (.aiServiceError message))

/-- The envelopes before the first that ends the reply. -/
def beforeEnd (envelopes : List Json) : List Json := envelopes.takeWhile fun e => !e.isTerminal

/-- The envelopes from the first that ends the reply. -/
def fromEnd (envelopes : List Json) : List Json := envelopes.dropWhile fun e => !e.isTerminal

theorem chatStream_cons (envelope : Json) (envelopes : List Json) (ending : Option String) :
    chatStream (envelope :: envelopes) ending = .yields envelope (chatStream envelopes ending) :=
  rfl

/-- The envelope that ends the reply is one of the stream. -/
theorem mem_of_fromEnd {envelopes after : List Json} {envelope : Json}
    (h : fromEnd envelopes = envelope :: after) :
    envelope ∈ envelopes ∧ envelope.isTerminal = true := by
  refine ⟨(List.dropWhile_suffix _).subset (h ▸ List.mem_cons_self), ?_⟩
  have hhead := List.head?_dropWhile_not (fun e => !e.isTerminal) envelopes
  rw [fromEnd] at h
  rw [h] at hhead
  simpa using hhead

/-- An event that ends a reply. -/
def IsReply (e : UserId × SseEvent) : Prop := e.2.event = "chat_message" ∨ e.2.event = "chat_error"

instance : DecidablePred IsReply := fun e =>
  inferInstanceAs (Decidable (e.2.event = "chat_message" ∨ e.2.event = "chat_error"))

/-- One event that ends a reply is published. -/
def PublishesOne (s : ChatStore) (run : ChatRun) : Prop :=
  ∃ new, run.store.published = s.published ++ new ∧ new.countP (fun e => IsReply e) = 1

/-- One message is saved, with the thinking steps in order, and published. -/
def Answers (host : ChatHost) (c : Conversation) (s : ChatStore) (envelopes : List Json)
    (ending : Option String) (run : ChatRun) (last : UserId × SseEvent) : Prop :=
  ∃ envelope after m, fromEnd envelopes = envelope :: after ∧ envelope.isEvent "done" ∧
    run.unread = chatStream after ending ∧ run.store.messages = s.messages ++ [m] ∧
    m.conversation = c.id ∧ m.sender = .assistant ∧
    host.storedText (envelope.datum "content") = some m.content ∧
    m.thinkingJson = thinkingOf host ((beforeEnd envelopes).filterMap thinkingStep) ∧
    last = chatMessage host c m (envelope.datum "content") run.store.references

/-- No message is saved, and the error is published. -/
def Refuses (host : ChatHost) (c : Conversation) (s : ChatStore) (envelopes : List Json)
    (ending : Option String) (run : ChatRun) (last : UserId × SseEvent) : Prop :=
  ∃ message, run.store.messages = s.messages ∧ run.store.references = s.references ∧
    last = chatError c message ∧
    ((∃ envelope after reason, fromEnd envelopes = envelope :: after ∧ envelope.isEvent "error" ∧
        run.unread = chatStream after ending ∧ readFailure envelope = .ok reason ∧
        message = host.str reason) ∨
      (fromEnd envelopes = [] ∧ run.unread = .returns ∧
        message = ending.getD "AI service chat ended without a result"))

/-- The envelopes up to the end are relayed in order, and then one reply is published. -/
structure RepliesOnce (host : ChatHost) (c : Conversation) (s : ChatStore) (envelopes : List Json)
    (ending : Option String) (run : ChatRun) : Prop where
  raised : run.raised = none
  once : PublishesOne s run
  replied : ∃ last, run.store.published =
      s.published ++ (beforeEnd envelopes).filterMap (relayed c) ++ [last] ∧
    (Answers host c s envelopes ending run last ∨ Refuses host c s envelopes ending run last)

section Reply

variable {host : ChatHost} {c : Conversation} {s : ChatStore} {envelopes : List Json}
  {ending : Option String} {run : ChatRun}

/-- What is relayed is not the reply. -/
theorem relayed_not_reply {e : UserId × SseEvent} {envelope : Json}
    (h : relayed c envelope = some e) : ¬IsReply e := by
  unfold relayed at h
  split_ifs at h <;> cases h <;> simp [IsReply, chatEvent]

/-- So none of it counts. -/
theorem countP_relayed (c : Conversation) (envelopes : List Json) :
    (envelopes.filterMap (relayed c)).countP (fun e => IsReply e) = 0 := by
  rw [List.countP_eq_zero]
  intro e he
  obtain ⟨envelope, -, h⟩ := List.mem_filterMap.1 he
  simpa using relayed_not_reply h

/-- One reply, after what was relayed. -/
theorem publishesOne_of_last {last : UserId × SseEvent}
    (h : run.store.published = s.published ++ envelopes.filterMap (relayed c) ++ [last])
    (hlast : IsReply last) : PublishesOne s run := by
  refine ⟨envelopes.filterMap (relayed c) ++ [last], by rw [h, List.append_assoc], ?_⟩
  rw [List.countP_append, countP_relayed, List.countP_singleton, if_pos (by simpa using hlast)]

/-- The loop comes to the first envelope that ends the reply. -/
theorem consume_chatStream (host : ChatHost) (c : Conversation) (s : ChatStore) {P : Json → Prop}
    {before : List Json} (h : ∀ e ∈ before, Shaped P e ∧ e.isTerminal = false)
    (g : Generator Json RelayError) :
    (Generator.prepend before g).consume (Relay.receive host c) { published := s.published } =
      g.consume (Relay.receive host c) (Relay.after host c s.published before) :=
  Generator.consume_prepend (fun e he _ => receive_relay (h e he).1 (h e he).2) _ g

/-- A loop that fails publishes an error after what it has relayed, and saves nothing. -/
theorem generateChatReply_failure {stream unread : Generator Json RelayError}
    {loopEnd : LoopEnd Json RelayError} {message : String}
    (h : stream.consume (Relay.receive host c) { published := s.published } =
      (Relay.after host c s.published envelopes, loopEnd, unread))
    (hfail : failure loopEnd = some message) :
    generateChatReply host c s stream =
      { store := { s with
          published := s.published ++ envelopes.filterMap (relayed c) ++ [chatError c message] }
        unread } := by
  rcases generateChatReply_cases h with ⟨m, hm, heq⟩ | ⟨result, _, _, rfl, hne, -⟩ | ⟨e, rfl, he, -⟩
  · obtain rfl := Option.some.inj (hm.symm.trans hfail)
    rw [heq, after_published]
  · cases result <;> first | exact (hne rfl).elim | cases hfail
  · cases e <;> first | exact (he _ rfl).elim | cases hfail

/-- So does one that fails at an `error` envelope, or at the end of the stream. -/
theorem repliesOnce_of_failure {unread : Generator Json RelayError}
    {loopEnd : LoopEnd Json RelayError} {message : String}
    (h : (chatStream envelopes ending).consume (Relay.receive host c)
        { published := s.published } =
      (Relay.after host c s.published (beforeEnd envelopes), loopEnd, unread))
    (hfail : failure loopEnd = some message)
    (hend : (∃ envelope after reason, fromEnd envelopes = envelope :: after ∧
        envelope.isEvent "error" ∧ unread = chatStream after ending ∧
        readFailure envelope = .ok reason ∧ message = host.str reason) ∨
      (fromEnd envelopes = [] ∧ unread = .returns ∧
        message = ending.getD "AI service chat ended without a result")) :
    RepliesOnce host c s envelopes ending
      (generateChatReply host c s (chatStream envelopes ending)) := by
  rw [generateChatReply_failure h hfail]
  exact
    { raised := rfl, once := publishesOne_of_last rfl (Or.inr rfl)
      replied := ⟨_, rfl, Or.inr ⟨message, rfl, rfl, rfl, hend⟩⟩ }

/-- A loop that leaves with the data of a `done` envelope saves them. -/
theorem generateChatReply_result {stream unread : Generator Json RelayError} {result : Json}
    (h : stream.consume (Relay.receive host c) { published := s.published } =
      (Relay.after host c s.published envelopes, .left result, unread))
    (hfields : ReplyFields result)
    (hpersists : Persists host (thinkingOf host (envelopes.filterMap thinkingStep)) result) :
    ∃ s' m, generateChatReply host c s stream = { store := s', unread } ∧
      Saved host c { s with published := s.published ++ envelopes.filterMap (relayed c) }
        (thinkingOf host (envelopes.filterMap thinkingStep)) result s' m := by
  rcases generateChatReply_cases h with ⟨m, hm, -⟩ | ⟨result, s', raised, hleft, -, hsave, heq⟩ |
    ⟨e, hleft, -⟩
  · obtain ⟨content, hcontent⟩ := hfields.content
    cases result with
    | null => cases hcontent
    | _ => cases hm
  · cases hleft
    rw [after_published, after_thinking] at hsave
    rcases saveReply_cases host c _ _ result with ⟨-, -, s', m, hok, hsaved⟩ | ⟨hnot, -⟩
    · rw [hok] at hsave
      cases hsave
      exact ⟨s', m, heq, hsaved⟩
    · exact (hnot ⟨hfields, hpersists⟩).elim
  · cases hleft

end Reply

/-- A task over documented envelopes, whose message can be saved, publishes one reply. -/
theorem chatReply_once (host : ChatHost) (c : Conversation) (s : ChatStore) {envelopes : List Json}
    (ending : Option String) (hdocumented : ∀ envelope ∈ envelopes, Documented envelope)
    (hpersists : ∀ envelope after, fromEnd envelopes = envelope :: after → envelope.isEvent "done" →
      Persists host (thinkingOf host ((beforeEnd envelopes).filterMap thinkingStep))
        (envelope.field "data")) :
    RepliesOnce host c s envelopes ending
      (generateChatReply host c s (chatStream envelopes ending)) := by
  have hbefore : ∀ e ∈ beforeEnd envelopes, Shaped ReplyFields e ∧ e.isTerminal = false := by
    intro e he
    refine ⟨hdocumented e ((List.takeWhile_prefix _).subset he), ?_⟩
    simpa using List.mem_takeWhile_imp he
  have hsplit : chatStream envelopes ending =
      .prepend (beforeEnd envelopes) (chatStream (fromEnd envelopes) ending) := by
    rw [chatStream, chatStream, ← Generator.prepend_append, beforeEnd, fromEnd,
      List.takeWhile_append_dropWhile]
  have hconsume := consume_chatStream host c s hbefore (chatStream (fromEnd envelopes) ending)
  rw [← hsplit] at hconsume
  cases hrest : fromEnd envelopes with
  | nil =>
    rw [hrest] at hconsume
    cases ending with
    | none => exact repliesOnce_of_failure hconsume rfl (Or.inr ⟨hrest, rfl, rfl⟩)
    | some message => exact repliesOnce_of_failure hconsume rfl (Or.inr ⟨hrest, rfl, rfl⟩)
  | cons envelope after =>
    obtain ⟨hmem, hterminal⟩ := mem_of_fromEnd hrest
    have hshaped := hdocumented envelope hmem
    rw [hrest, chatStream_cons] at hconsume
    rcases Bool.or_eq_true_iff.1 hterminal with hdone | herror
    · obtain ⟨hfields, hleave⟩ :=
        receive_done host c (Relay.after host c s.published (beforeEnd envelopes)) hshaped hdone
      rw [Generator.consume_leave hleave] at hconsume
      obtain ⟨s', m, heq, hsaved⟩ := generateChatReply_result hconsume hfields
        (hpersists envelope after hrest hdone)
      rw [heq]
      exact
        { raised := rfl, once := publishesOne_of_last hsaved.published (Or.inl rfl)
          replied := ⟨_, hsaved.published, Or.inl ⟨envelope, after, m, hrest, hdone, rfl,
            hsaved.messages, hsaved.conversation, hsaved.sender, hsaved.content,
            hsaved.thinkingJson, rfl⟩⟩ }
    · obtain ⟨reason, hreason, hraise⟩ :=
        receive_error host c (Relay.after host c s.published (beforeEnd envelopes)) hshaped herror
      rw [Generator.consume_raise hraise] at hconsume
      exact repliesOnce_of_failure hconsume rfl
        (Or.inl ⟨envelope, after, reason, hrest, herror, rfl, hreason, rfl⟩)

/-- A host whose database takes all JSON. -/
def sampleHost : ChatHost where
  shown _ := ""
  uuid _ := none
  decimal _ := none
  parseDatetime _ := .missing
  upper s := s
  monotonic n := 1500 * n
  now := 0
  storesJson _ := true
  listed rows := rows

/-- A turn with an agent and a token, and an envelope after its end. -/
def greeting : List Json :=
  [.object [("event", .text "agent_selected"), ("data", .object [("agent", .text "general")])],
    .object [("event", .text "token"), ("data", .text "Hello!")],
    .object [("event", .text "done"), ("data", .object
      [("content", .text "Hello!"), ("widget", .null), ("references", .array []),
        ("suggestions", .array [])])],
    .object [("event", .text "token"), ("data", .text "late")]]

/-- A greeting is replied to once. -/
theorem chatReply_once_greeting :
    RepliesOnce sampleHost ⟨1, 1⟩ {} greeting none
      (generateChatReply sampleHost ⟨1, 1⟩ {} (chatStream greeting none)) := by
  refine chatReply_once sampleHost ⟨1, 1⟩ {} none (fun envelope h => ?_)
    fun envelope after h _ => ?_
  · have hno : ∀ {b : Bool} {p : Prop}, b = false → b = true → p := fun h h' => by simp [h] at h'
    rcases List.mem_cons.1 h with rfl | h
    · exact ⟨⟨_, rfl⟩, hno rfl, hno rfl, fun _ => ⟨_, rfl, by simp⟩, hno rfl, hno rfl⟩
    rcases List.mem_cons.1 h with rfl | h
    · exact ⟨⟨_, rfl⟩, fun _ => ⟨_, rfl⟩, hno rfl, hno rfl, hno rfl, hno rfl⟩
    rcases List.mem_cons.1 h with rfl | h
    · exact ⟨⟨_, rfl⟩, hno rfl, hno rfl, hno rfl,
        fun _ => ⟨_, rfl, ⟨_, rfl⟩, ⟨_, rfl⟩, [], rfl, by simp⟩, hno rfl⟩
    · obtain rfl := List.mem_singleton.1 h
      exact ⟨⟨_, rfl⟩, fun _ => ⟨_, rfl⟩, hno rfl, hno rfl, hno rfl, hno rfl⟩
  · cases h
    refine ⟨fun j hj => ?_, fun j hj => ?_, fun j hj => ?_, rfl, fun refs hrefs => ?_⟩
    · cases hj
      decide
    · rfl
    · rfl
    · cases hrefs
      simp

end NbeAdvisor
