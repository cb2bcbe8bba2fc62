import NbeAdvisor.ChatRelay

/-!
# The chat stream of the AI service

`AIServiceClient.stream_chat` reads the lines of a response. It yields what the data frames hold, up
to the first `done` or `error` frame, and turns a malformed frame, a transport error and an end
without such a frame into `AIServiceError`. It relies on each frame to be an object, and the relay
(`generate_chat_reply`) on the fields of its event. Either lets through the exception that a frame
raises which is not as expected.

So stream and relay both do as they should if and only if every frame that they come to passes
(`streamChat_exact_iff`) : it is malformed, or an object with the fields of its event, and the data
of a `done` frame are null or can be saved.
-/

namespace NbeAdvisor

open Generators

/-! ## The lines -/

/-- How `json.loads` ends. -/
inductive JsonReading where
  | value (j : Json)
  /-- `JSONDecodeError`, with its text. -/
  | malformed (exc : String)
  /-- `ValueError`, for an integer of more digits than `int` takes. -/
  | tooLong
  /-- `RecursionError`. -/
  | tooDeep

/-- How the lines end : the response is over, or a `RequestException`. -/
inductive LinesEnd where
  | closed
  | failed (exc : String)

/-- What the request comes to. `_post` raises, with what `_describe` makes of it, or there are
lines. -/
inductive ChatResponse where
  | failed (description : String)
  | lines (lines : List String) (linesEnd : LinesEnd)

/-- The text of a data frame : the rest of a line that starts with `"data: "`. -/
def dataFrame (line : String) : Option String :=
  if "data: ".toList.isPrefixOf line.toList then some (String.ofList (line.toList.drop 6)) else none

/-- The text of the data frames of a response. -/
def ChatResponse.frames : ChatResponse → List String
  | failed _ => []
  | lines ls _ => ls.filterMap dataFrame

/-- The end of a stream without a `done` or `error` frame. -/
def LinesEnd.stream : LinesEnd → Generator Json RelayError
  | closed => .raises (.aiServiceError "AI service chat stream ended without a terminal event")
  | failed exc => .raises (.aiServiceError ("AI service chat stream failed: " ++ exc))

/-- The loop of `stream_chat` over the lines. It looks at the event of an envelope once the relay
asks for more. -/
def streamLines (loads : String → JsonReading) (linesEnd : LinesEnd) :
    List String → Generator Json RelayError
  | [] => linesEnd.stream
  | line :: lines =>
    match dataFrame line with
    | none => streamLines loads linesEnd lines
    | some text =>
      match loads text with
      | .malformed exc => .raises (.aiServiceError ("AI service chat stream failed: " ++ exc))
      | .tooLong => .raises .valueError
      | .tooDeep => .raises .recursionError
      | .value envelope =>
        .yields envelope <|
          match envelope.get "event" .null with
          | .error e => .raises e
          | .ok event =>
            if event.isText "done" ∨ event.isText "error" then .returns
            else streamLines loads linesEnd lines

/-- `AIServiceClient.stream_chat`. -/
def streamChat (loads : String → JsonReading) : ChatResponse → Generator Json RelayError
  | .failed description =>
    .raises (.aiServiceError ("AI service call to /internal/chat failed: " ++ description))
  | .lines lines linesEnd => streamLines loads linesEnd lines

/-! ## What they are meant to do -/

/-- The generator yields the frames up to the first that ends the reply, or it raises an
`AIServiceError` where a frame is malformed, or after all of them. -/
def YieldsFrames (loads : String → JsonReading) (frames : List String)
    (g : Generator Json RelayError) : Prop :=
  ∃ read envelopes, read <+: frames ∧ read.map loads = envelopes.map .value ∧
    ((g = .prepend envelopes .returns ∧
        ∃ before last, envelopes = before ++ [last] ∧ last.isTerminal = true ∧
          ∀ e ∈ before, e.isTerminal = false) ∨
      ((∃ message, g = .prepend envelopes (.raises (.aiServiceError message))) ∧
        (∀ e ∈ envelopes, e.isTerminal = false) ∧
        (read = frames ∨ ∃ text exc, read ++ [text] <+: frames ∧ loads text = .malformed exc)))

/-- The data of a `done` envelope end the reply : there is no result, or one that can be saved. -/
def Answerable (host : ChatHost) (thinking result : Json) : Prop :=
  result = .null ∨ (ReplyFields result ∧ Persists host thinking result)

/-- The frame can be relayed, after these envelopes. -/
def FramePasses (host : ChatHost) (loads : String → JsonReading) (before : List Json)
    (text : String) : Prop :=
  (∃ exc, loads text = .malformed exc) ∨
    ∃ envelope, loads text = .value envelope ∧
      Shaped (Answerable host (thinkingOf host (before.filterMap thinkingStep))) envelope

/-- So can the frames, up to the end of the reply. -/
def FramesPass (host : ChatHost) (loads : String → JsonReading) : List Json → List String → Prop
  | _, [] => True
  | before, text :: frames => FramePasses host loads before text ∧
    ∀ envelope, loads text = .value envelope → envelope.isTerminal = false →
      FramesPass host loads (before ++ [envelope]) frames

section Frames

variable {host : ChatHost} {c : Conversation} {s : ChatStore} {loads : String → JsonReading}
  {before : List Json} {text : String} {frames lines : List String} {linesEnd : LinesEnd}
  {envelope : Json}

/-- Every frame passes that comes after values which do not end the reply. -/
theorem framesPass_iff (host : ChatHost) (loads : String → JsonReading) (before : List Json)
    (frames : List String) : FramesPass host loads before frames ↔
      ∀ read envelopes text, read ++ [text] <+: frames → read.map loads = envelopes.map .value →
        (∀ e ∈ envelopes, e.isTerminal = false) →
          FramePasses host loads (before ++ envelopes) text := by
  induction frames generalizing before with
  | nil => simp [FramesPass]
  | cons first frames ih =>
    rw [FramesPass]
    constructor
    · rintro ⟨hfirst, hrest⟩ read envelopes text hpre hread hnot
      cases read with
      | nil =>
        obtain rfl := List.map_eq_nil_iff.1 hread.symm
        obtain rfl : text = first := by simpa using hpre
        rwa [List.append_nil]
      | cons text' read =>
        obtain ⟨envelope, envelopes, rfl, hvalue, hread'⟩ := List.map_eq_cons_iff.1 hread.symm
        rw [List.cons_append] at hpre
        obtain ⟨rfl, hpre'⟩ := List.cons_prefix_cons.1 hpre
        rw [List.append_cons]
        exact (ih _).1 (hrest envelope hvalue.symm (hnot envelope List.mem_cons_self)) read envelopes
          text hpre' hread'.symm fun e he => hnot e (List.mem_cons_of_mem _ he)
    · intro h
      refine ⟨?_, fun envelope hvalue hterminal =>
        (ih _).2 fun read envelopes text hpre hread hnot => ?_⟩
      · have hfirst := h [] [] first (by simp) rfl (by simp)
        rwa [List.append_nil] at hfirst
      · rw [List.append_assoc]
        refine h (first :: read) (envelope :: envelopes) text ?_ ?_ ?_
        · exact List.cons_prefix_cons.2 ⟨rfl, hpre⟩
        · rw [List.map_cons, List.map_cons, hvalue, hread]
        · intro e he
          rcases List.mem_cons.1 he with rfl | he
          · exact hterminal
          · exact hnot e he

/-! ## The stream -/

/-- One frame more. -/
theorem YieldsFrames.cons {g : Generator Json RelayError} (h : YieldsFrames loads frames g)
    (hvalue : loads text = .value envelope) (hterminal : envelope.isTerminal = false) :
    YieldsFrames loads (text :: frames) (.yields envelope g) := by
  obtain ⟨read, envelopes, hpre, hread, hend⟩ := h
  refine ⟨text :: read, envelope :: envelopes, List.cons_prefix_cons.2 ⟨rfl, hpre⟩, ?_, ?_⟩
  · rw [List.map_cons, List.map_cons, hvalue, hread]
  rcases hend with ⟨rfl, before, last, rfl, hlast, hbefore⟩ | ⟨⟨message, rfl⟩, hnot, hstop⟩
  · refine Or.inl ⟨rfl, envelope :: before, last, rfl, hlast, fun e he => ?_⟩
    rcases List.mem_cons.1 he with rfl | he
    · exact hterminal
    · exact hbefore e he
  · refine Or.inr ⟨⟨message, rfl⟩, fun e he => ?_, ?_⟩
    · rcases List.mem_cons.1 he with rfl | he
      · exact hterminal
      · exact hnot e he
    · rcases hstop with rfl | ⟨next, exc, hnext, hmalformed⟩
      · exact Or.inl rfl
      · exact Or.inr ⟨next, exc, List.cons_prefix_cons.2 ⟨rfl, hnext⟩, hmalformed⟩

/-- It raises here. -/
theorem YieldsFrames.raises {message : String}
    (h : frames = [] ∨ ∃ text exc, [text] <+: frames ∧ loads text = .malformed exc) :
    YieldsFrames loads frames (.raises (.aiServiceError message)) := by
  refine ⟨[], [], List.nil_prefix, rfl, Or.inr ⟨⟨message, rfl⟩, by simp, ?_⟩⟩
  rcases h with rfl | h
  · exact Or.inl rfl
  · exact Or.inr h

/-- It ends with this frame. -/
theorem YieldsFrames.last (hvalue : loads text = .value envelope)
    (hterminal : envelope.isTerminal = true) :
    YieldsFrames loads (text :: frames) (.yields envelope .returns) :=
  ⟨[text], [envelope], ⟨frames, rfl⟩, by rw [List.map_singleton, List.map_singleton, hvalue],
    Or.inl ⟨rfl, [], envelope, rfl, hterminal, by simp⟩⟩

/-- What the stream does after it has yielded an envelope with an event. -/
theorem rest_of_shaped {P : Json → Prop} (h : Shaped P envelope) (g : Generator Json RelayError) :
    (match envelope.get "event" .null with
      | .error e => .raises e
      | .ok event => if event.isText "done" ∨ event.isText "error" then .returns else g) =
      if envelope.isTerminal then .returns else g := by
  obtain ⟨event, hevent⟩ := h.event
  have hname := isEvent_eq hevent
  obtain ⟨fields, rfl, hlookup⟩ := Json.item_eq_ok hevent
  rw [Json.isTerminal, hname, hname]
  simp only [Json.get, hlookup, Option.getD_some, Bool.or_eq_true]

/-- A stream whose frames pass yields them. -/
theorem yieldsFrames_of_framesPass (h : FramesPass host loads before (lines.filterMap dataFrame)) :
    YieldsFrames loads (lines.filterMap dataFrame) (streamLines loads linesEnd lines) := by
  induction lines generalizing before with
  | nil =>
    cases linesEnd with
    | closed => exact .raises (Or.inl rfl)
    | failed exc => exact .raises (Or.inl rfl)
  | cons line lines ih =>
    rw [List.filterMap_cons] at h ⊢
    rw [streamLines]
    cases hframe : dataFrame line with
    | none =>
      rw [hframe] at h
      exact ih h
    | some text =>
      rw [hframe] at h
      simp only at h ⊢
      obtain ⟨⟨exc, hmalformed⟩ | ⟨envelope, hvalue, hshaped⟩, hrest⟩ := h
      · rw [hmalformed]
        exact .raises (Or.inr ⟨text, exc, ⟨_, rfl⟩, hmalformed⟩)
      · rw [hvalue]
        simp only [rest_of_shaped hshaped]
        cases hterminal : envelope.isTerminal with
        | true => exact .last hvalue hterminal
        | false => exact (ih (hrest envelope hvalue hterminal)).cons hvalue hterminal

end Frames

/-! ## The relay of any stream -/

/-- The loop has ended so that a reply follows. -/
def Settles (host : ChatHost) (r : Relay) : LoopEnd Json RelayError → Prop
  | .exhausted => True
  | .left result => Answerable host (r.thinking host) result
  | .raised e => ∃ message, e = .aiServiceError message

section Settles

variable {host : ChatHost} {c : Conversation} {s : ChatStore} {run : ChatRun}
  {new : List (UserId × SseEvent)} {r : Relay} {e : RelayError} {result : Json}

/-- One reply among what is new. -/
theorem publishesOne_append (h : run.store.published = s.published ++ new) :
    PublishesOne s run ↔ new.countP (fun e => IsReply e) = 1 := by
  constructor
  · rintro ⟨new', hnew', hcount⟩
    rwa [List.append_cancel_left (h.symm.trans hnew')]
  · exact fun hcount => ⟨new, h, hcount⟩

/-- One round of the loop publishes what the envelope is relayed as, or nothing. -/
theorem receive_published (host : ChatHost) (c : Conversation) (r : Relay) (envelope : Json) :
    ∃ new, (r.receive host c envelope).1.published = r.published ++ new ∧
      new.countP (fun e => IsReply e) = 0 := by
  rcases receive_cases host c r envelope with ⟨-, -, h⟩ | ⟨-, -, h⟩ | ⟨-, -, _, -, h⟩ |
    ⟨-, r', e, h, hpublished, -⟩
  · refine ⟨(relayed c envelope).toList, by rw [h]; rfl, ?_⟩
    cases hrelayed : relayed c envelope with
    | none => rfl
    | some e => simpa using relayed_not_reply hrelayed
  · exact ⟨[], by rw [h, List.append_nil], rfl⟩
  · exact ⟨[], by rw [h, List.append_nil], rfl⟩
  · exact ⟨[], by rw [h, List.append_nil, hpublished], rfl⟩

/-- So the loop does not publish a reply. -/
theorem consume_published (host : ChatHost) (c : Conversation) (r : Relay)
    (stream : Generator Json RelayError) :
    ∃ new, (stream.consume (Relay.receive host c) r).1.published = r.published ++ new ∧
      new.countP (fun e => IsReply e) = 0 := by
  refine Generator.consume_invariant
    (P := fun r' : Relay => ∃ new, r'.published = r.published ++ new ∧
      new.countP (fun e => IsReply e) = 0) ?_ ⟨[], (List.append_nil _).symm, rfl⟩ stream
  rintro r' envelope ⟨new, hnew, hcount⟩
  obtain ⟨new', hnew', hcount'⟩ := receive_published host c r' envelope
  exact ⟨new ++ new', by rw [hnew', hnew, List.append_assoc],
    by rw [List.countP_append, hcount, hcount']⟩

/-- A failure that is caught settles. -/
theorem settles_of_failure {loopEnd : LoopEnd Json RelayError} {message : String}
    (h : failure loopEnd = some message) : Settles host r loopEnd := by
  cases loopEnd with
  | exhausted => trivial
  | left result => cases result <;> first | exact Or.inl rfl | cases h
  | raised e => cases e <;> first | exact ⟨_, rfl⟩ | cases h

/-- An exception that is not caught does not. -/
theorem not_settles_raised (he : ∀ message, e ≠ .aiServiceError message) :
    ¬Settles host r (.raised e) := by
  rintro ⟨message, h⟩
  exact he message h

/-- A reply is published exactly if the loop settles. -/
theorem publishesOne_iff (host : ChatHost) (c : Conversation) (s : ChatStore)
    (stream : Generator Json RelayError) :
    PublishesOne s (generateChatReply host c s stream) ↔
      Settles host (stream.consume (Relay.receive host c) { published := s.published }).1
        (stream.consume (Relay.receive host c) { published := s.published }).2.1 := by
  obtain ⟨new, hnew, hcount⟩ := consume_published host c { published := s.published } stream
  rcases hloop : stream.consume (Relay.receive host c) { published := s.published } with
    ⟨r, loopEnd, unread⟩
  rw [hloop] at hnew
  rcases generateChatReply_cases hloop with ⟨message, hfail, heq⟩ |
    ⟨result, s', raised, rfl, hne, hsave, heq⟩ | ⟨e, rfl, he, heq⟩
  · have hpub : (generateChatReply host c s stream).store.published =
        s.published ++ (new ++ [chatError c message]) := by
      rw [heq, ← List.append_assoc, ← hnew]
    rw [publishesOne_append hpub, List.countP_append, hcount]
    exact iff_of_true rfl (settles_of_failure hfail)
  · rcases saveReply_cases host c { s with published := r.published } (r.thinking host) result with
      ⟨hfields, hpersists, s'', m, hok, hsaved⟩ | ⟨hnot, s'', e, herror, hpublished⟩
    · rw [hok] at hsave
      cases hsave
      have hpub : (generateChatReply host c s stream).store.published = s.published ++
          (new ++ [chatMessage host c m (result.field "content") s'.references]) := by
        rw [heq, hsaved.published, ← List.append_assoc, ← hnew]
      rw [publishesOne_append hpub, List.countP_append, hcount]
      exact iff_of_true rfl (Or.inr ⟨hfields, hpersists⟩)
    · rw [herror] at hsave
      cases hsave
      have hpub : (generateChatReply host c s stream).store.published = s.published ++ new := by
        rw [heq, hpublished, hnew]
      rw [publishesOne_append hpub, hcount]
      exact iff_of_false nofun fun h => h.elim hne hnot
  · have hpub : (generateChatReply host c s stream).store.published = s.published ++ new := by
      rw [heq, hnew]
    rw [publishesOne_append hpub, hcount]
    exact iff_of_false nofun (not_settles_raised he)

end Settles

/-! ## The relay of the stream -/

section Lines

variable {host : ChatHost} {c : Conversation} {s : ChatStore} {loads : String → JsonReading}
  {before : List Json} {text : String} {frames lines : List String} {linesEnd : LinesEnd}
  {envelope : Json}

/-- A malformed frame ends the stream. -/
theorem framesPass_of_malformed {exc : String} (h : loads text = .malformed exc) :
    FramesPass host loads before (text :: frames) :=
  ⟨Or.inl ⟨exc, h⟩, fun _ hvalue => nomatch h.symm.trans hvalue⟩

/-- A frame passes if it is an envelope of its shape. -/
theorem framesPass_of_value (h : loads text = .value envelope) :
    FramesPass host loads before (text :: frames) ↔
      Shaped (Answerable host (thinkingOf host (before.filterMap thinkingStep))) envelope ∧
        (envelope.isTerminal = false → FramesPass host loads (before ++ [envelope]) frames) := by
  rw [FramesPass, FramePasses, h]
  constructor
  · rintro ⟨⟨_, hmalformed⟩ | ⟨_, ⟨⟩, hshaped⟩, hrest⟩
    · cases hmalformed
    · exact ⟨hshaped, hrest envelope rfl⟩
  · rintro ⟨hshaped, hrest⟩
    refine ⟨Or.inr ⟨envelope, rfl, hshaped⟩, ?_⟩
    rintro _ ⟨⟩
    exact hrest

/-- What is neither does not pass. -/
theorem not_framesPass (hmalformed : ∀ exc, loads text ≠ .malformed exc)
    (hvalue : ∀ envelope, loads text ≠ .value envelope) :
    ¬FramesPass host loads before (text :: frames) := by
  rintro ⟨⟨exc, h⟩ | ⟨envelope, h, -⟩, -⟩
  · exact hmalformed exc h
  · exact hvalue envelope h

/-- The loop settles on the lines that are left exactly if their frames pass. The envelopes that it
has relayed are the induction's. -/
theorem settles_iff (host : ChatHost) (c : Conversation) (s : ChatStore)
    (loads : String → JsonReading) (linesEnd : LinesEnd) (before : List Json)
    (lines : List String) :
    Settles host
        ((streamLines loads linesEnd lines).consume (Relay.receive host c)
          (Relay.after host c s.published before)).1
        ((streamLines loads linesEnd lines).consume (Relay.receive host c)
          (Relay.after host c s.published before)).2.1 ↔
      FramesPass host loads before (lines.filterMap dataFrame) := by
  induction lines generalizing before with
  | nil => exact iff_of_true (by cases linesEnd <;> exact ⟨_, rfl⟩) trivial
  | cons line lines ih =>
    rw [List.filterMap_cons, streamLines]
    cases hframe : dataFrame line with
    | none => exact ih before
    | some text =>
    simp only
    cases hloads : loads text with
    | malformed exc => exact iff_of_true ⟨_, rfl⟩ (framesPass_of_malformed hloads)
    | tooLong =>
      exact iff_of_false (not_settles_raised (by simp))
        (not_framesPass (by simp [hloads]) (by simp [hloads]))
    | tooDeep =>
      exact iff_of_false (not_settles_raised (by simp))
        (not_framesPass (by simp [hloads]) (by simp [hloads]))
    | value envelope =>
    simp only
    rw [framesPass_of_value hloads]
    rcases receive_cases host c (Relay.after host c s.published before) envelope with
      ⟨hterminal, hshaped, hnext⟩ | ⟨hdone, hshaped, hleave⟩ |
      ⟨herror, hshaped, message, -, hraise⟩ | ⟨hshaped, r', e, hraise, -, he⟩
    · rw [Generator.consume_next hnext, rest_of_shaped (hshaped fun _ => True), hterminal,
        if_neg Bool.false_ne_true, ← after_snoc, ih]
      exact ⟨fun h => ⟨hshaped _, fun _ => h⟩, fun h => h.2 rfl⟩
    · have hterminal : envelope.isTerminal = true := by rw [Json.isTerminal, hdone, Bool.true_or]
      rw [Generator.consume_leave hleave, hshaped, hterminal]
      simp [Settles, after_thinking]
    · have hterminal : envelope.isTerminal = true := by rw [Json.isTerminal, herror, Bool.or_true]
      rw [Generator.consume_raise hraise, hterminal]
      exact iff_of_true ⟨_, rfl⟩ ⟨hshaped _, by simp⟩
    · rw [Generator.consume_raise hraise]
      exact iff_of_false (not_settles_raised he) fun h => hshaped _ h.1

end Lines

/-- Stream and relay do as they are meant to exactly if each frame passes that they come to : each
that follows on values which do not end the reply. -/
theorem streamChat_exact_iff (host : ChatHost) (c : Conversation) (s : ChatStore)
    (loads : String → JsonReading) (response : ChatResponse) :
    (YieldsFrames loads response.frames (streamChat loads response) ∧
        PublishesOne s (generateChatReply host c s (streamChat loads response))) ↔
      ∀ read envelopes text, read ++ [text] <+: response.frames →
        read.map loads = envelopes.map .value → (∀ e ∈ envelopes, e.isTerminal = false) →
          FramePasses host loads envelopes text := by
  rw [publishesOne_iff]
  have hframes := framesPass_iff host loads [] response.frames
  simp only [List.nil_append] at hframes
  rw [← hframes]
  cases response with
  | failed description =>
    exact iff_of_true ⟨.raises (Or.inl rfl), _, rfl⟩ trivial
  | lines lines linesEnd =>
    have hsettles := settles_iff host c s loads linesEnd [] lines
    exact ⟨fun h => hsettles.1 h.2, fun h => ⟨yieldsFrames_of_framesPass h, hsettles.2 h⟩⟩

/-- `json.loads`, of an empty array. -/
def sampleLoads (text : String) : JsonReading :=
  if text = "[]" then .value (.array []) else .malformed "Expecting value: line 1 column 1 (char 0)"

/-- A response with one frame, which is not an object. -/
def arrayFrame : ChatResponse := .lines ["data: []", ""] .closed

/-- The stream raises `AttributeError` after it, and the relay raises `TypeError` at it and
publishes nothing. -/
theorem arrayFrame_unanswered :
    ¬YieldsFrames sampleLoads arrayFrame.frames (streamChat sampleLoads arrayFrame) ∧
      ¬PublishesOne {}
        (generateChatReply sampleHost ⟨1, 1⟩ {} (streamChat sampleLoads arrayFrame)) := by
  have hstream : streamChat sampleLoads arrayFrame =
      .yields (.array []) (.raises .attributeError) := rfl
  rw [hstream]
  constructor
  · rintro ⟨-, envelopes, -, -, ⟨h, -⟩ | ⟨⟨message, h⟩, -⟩⟩
    all_goals
      match envelopes with
      | [] => cases h
      | [_] => cases h
      | _ :: _ :: _ => cases h
  · rw [publishesOne_iff]
    exact not_settles_raised (by simp)

end NbeAdvisor
