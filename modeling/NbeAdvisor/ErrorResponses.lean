import NbeAdvisor.Records

/-!
# Error responses

`api_exception_handler` gives every error the shape `{"error": {code, message, fields}}`. The
message of a validation error is what `_first_message` finds in its data, which are dicts and
lists of messages, nested to any depth. It goes through the values of a dict until one gives it a
text, but of a list it only looks at the first item, and an empty list it shows as the text `[]`.

So the data that it comes to are the values of dicts and the first items of lists (`leading`), and
its answer is a message of the data if and only if what it comes to first is one
(`reason_kept_iff`). A serializer with `many=True` reports `{}` for a valid item; behind it a
message is lost (`secondRow_lost`).
-/

namespace NbeAdvisor

/-- The data of an error. Tuples are lists here. -/
inductive ErrorData where
  | message (s : String)
  | list (items : List ErrorData)
  | dict (fields : List (String × ErrorData))

/-! ## The first message -/

mutual

/-- `_first_message`. -/
def firstMessage : ErrorData → Option String
  | .message s => some s
  | .list [] => some "[]"
  | .list (d :: _) => firstMessage d
  | .dict fields => firstOfValues fields

/-- Its loop over `data.values()`. -/
def firstOfValues : List (String × ErrorData) → Option String
  | [] => none
  | (_, value) :: fields =>
    match given (firstMessage value) with
    | some msg => some msg
    | none => firstOfValues fields

end

/-! ## The response -/

/-- What is in `error.fields`. -/
inductive ErrorFields where
  | errors (data : ErrorData)
  | payload (p : String × List String)

/-- The response that stands for an exception. -/
structure ErrorResponse where
  statusCode : ℕ
  code : String
  message : Option String
  fields : Option ErrorFields

/-- What a view raises. -/
inductive ApiException where
  /-- `ValidationError`. -/
  | validation (detail : ErrorData)
  | businessRule (e : BusinessRuleError)
  /-- Any other exception that DRF renders, with its `default_code` if it has one. -/
  | rendered (statusCode : ℕ) (defaultCode : Option String) (detail : ErrorData)
  | unhandled

/-- `response.data` of DRF's own handler. -/
def responseData : ErrorData → ErrorData
  | .message s => .dict [("detail", .message s)]
  | d => d

/-- `_first_message(response.data) or "An error occurred."`. -/
def shownMessage (data : ErrorData) : String :=
  (given (firstMessage data)).getD "An error occurred."

/-- `response.data`, if it is a dict. -/
def errorFields : ErrorData → Option ErrorFields
  | .dict fields => some (.errors (.dict fields))
  | _ => none

/-- `api_exception_handler`. -/
def apiExceptionHandler : ApiException → Option ErrorResponse
  | .unhandled => none
  | .validation detail =>
    some
      { statusCode := 422, code := "validation_error", message := shownMessage (responseData detail)
        fields := errorFields (responseData detail) }
  | .businessRule e =>
    some
      { statusCode := 422, code := e.code, message := firstMessage (.list [.message e.message])
        fields := e.fields.map .payload }
  | .rendered statusCode defaultCode detail =>
    some
      { statusCode, code := defaultCode.getD "error", message := shownMessage (responseData detail)
        fields := none }

/-! ## What is in the data, and what is looked at -/

namespace ErrorData

mutual

/-- The messages of the data. -/
def messages : ErrorData → List String
  | .message s => [s]
  | .list items => messagesOfItems items
  | .dict fields => messagesOfValues fields

/-- The messages of the items of a list. -/
def messagesOfItems : List ErrorData → List String
  | [] => []
  | d :: items => d.messages ++ messagesOfItems items

/-- The messages of the values of a dict. -/
def messagesOfValues : List (String × ErrorData) → List String
  | [] => []
  | (_, value) :: fields => value.messages ++ messagesOfValues fields

end

mutual

/-- What one comes to, in order, through the values of dicts and the first items of lists : a
message, or `none` for an empty list. -/
def leading : ErrorData → List (Option String)
  | .message s => [some s]
  | .list [] => [none]
  | .list (d :: _) => d.leading
  | .dict fields => leadingOfValues fields

/-- What the values of a dict come to, one after the other. -/
def leadingOfValues : List (String × ErrorData) → List (Option String)
  | [] => []
  | (_, value) :: fields => value.leading ++ leadingOfValues fields

end

/-- The first of it is a message, or an empty list where `[]` is also a message. -/
def LeadsToMessage (d : ErrorData) : Prop :=
  (∃ m, d.leading.head? = some (some m)) ∨ (d.leading.head? = some none ∧ "[]" ∈ d.messages)

end ErrorData

/-! ## The answer of `_first_message` -/

mutual

/-- What one comes to are messages of the data. -/
theorem leading_subset : ∀ {d : ErrorData} {m : String}, some m ∈ d.leading → m ∈ d.messages
  | .message _, _, h => by
    obtain rfl := Option.some.inj (List.mem_singleton.1 h)
    exact List.mem_singleton_self _
  | .list [], _, h => nomatch List.mem_singleton.1 h
  | .list (_ :: _), _, h => List.mem_append_left _ (leading_subset h)
  | .dict _, _, h => leadingOfValues_subset h

theorem leadingOfValues_subset : ∀ {fields : List (String × ErrorData)} {m : String},
    some m ∈ ErrorData.leadingOfValues fields → m ∈ ErrorData.messagesOfValues fields
  | (_, _) :: _, _, h => by
    rcases List.mem_append.1 h with h | h
    · exact List.mem_append_left _ (leading_subset h)
    · exact List.mem_append_right _ (leadingOfValues_subset h)

end

mutual

/-- It is the first that one comes to, if no message is empty. -/
theorem firstMessage_eq : ∀ {d : ErrorData}, (∀ m ∈ d.messages, m ≠ "") →
    firstMessage d = d.leading.head?.map fun o => o.getD "[]"
  | .message _, _ => rfl
  | .list [], _ => rfl
  | .list (d :: _), h => firstMessage_eq (d := d) fun m hm => h m (List.mem_append_left _ hm)
  | .dict _, h => firstOfValues_eq h

theorem firstOfValues_eq : ∀ {fields : List (String × ErrorData)},
    (∀ m ∈ ErrorData.messagesOfValues fields, m ≠ "") →
    firstOfValues fields = (ErrorData.leadingOfValues fields).head?.map fun o => o.getD "[]"
  | [], _ => rfl
  | (_, value) :: fields, h => by
    have hvalue : firstMessage value = _ :=
      firstMessage_eq fun m hm => h m (List.mem_append_left _ hm)
    have hfields : firstOfValues fields = _ :=
      firstOfValues_eq fun m hm => h m (List.mem_append_right _ hm)
    rw [firstOfValues, hvalue, hfields, ErrorData.leadingOfValues]
    cases hlead : value.leading with
    | nil => rfl
    | cons o rest =>
      have ho : o.getD "[]" ≠ "" := by
        cases o with
        | none => decide
        | some m => exact h m (List.mem_append_left _ (leading_subset (hlead ▸ List.mem_cons_self)))
      have hgiven : given (some (o.getD "[]")) = some (o.getD "[]") := given_eq_some.2 ⟨rfl, ho⟩
      simp only [List.head?_cons, Option.map_some, hgiven, List.cons_append]

end

/-- `_first_message` answers with one of the messages, and the response has it. -/
def ReasonKept (d : ErrorData) : Prop :=
  ∃ m ∈ d.messages, firstMessage d = some m ∧
    (apiExceptionHandler (.validation d)).map (·.message) = some (some m)

theorem shownMessage_responseData {d : ErrorData} {m : String} (hd : firstMessage d = some m)
    (hm : m ≠ "") : shownMessage (responseData d) = m := by
  have hgiven : given (some m) = some m := given_eq_some.2 ⟨rfl, hm⟩
  have hfirst : firstMessage (responseData d) = some m := by
    cases d with
    | message s =>
      rw [← hd] at hgiven ⊢
      simp only [responseData, firstMessage, firstOfValues] at hgiven ⊢
      rw [hgiven]
    | _ => exact hd
  rw [shownMessage, hfirst, hgiven, Option.getD_some]

/-- The reason is kept exactly if what one comes to first is a message. -/
theorem reason_kept_iff {d : ErrorData} (h : ∀ m ∈ d.messages, m ≠ "") :
    ReasonKept d ↔ d.LeadsToMessage := by
  have hfirst := firstMessage_eq h
  have hkept : ∀ m, firstMessage d = some m → m ∈ d.messages → ReasonKept d := by
    intro m hd hm
    refine ⟨m, hm, hd, ?_⟩
    rw [apiExceptionHandler, Option.map_some, shownMessage_responseData hd (h m hm)]
  constructor
  · rintro ⟨m, hm, hd, -⟩
    rw [hfirst] at hd
    obtain ⟨o, hlead, rfl⟩ := Option.map_eq_some_iff.1 hd
    cases o with
    | none => exact Or.inr ⟨hlead, hm⟩
    | some m => exact Or.inl ⟨m, hlead⟩
  · rintro (⟨m, hlead⟩ | ⟨hlead, hm⟩)
    · rw [hlead] at hfirst
      exact hkept m hfirst (leading_subset (List.mem_of_head? hlead))
    · rw [hlead] at hfirst
      exact hkept "[]" hfirst hm

/-- The errors of a form with a valid address, whose first item has no name. -/
def namelessForm : ErrorData :=
  .dict [("address", .dict []),
    ("items", .list
      [.dict [("price", .dict []), ("name", .list [.message "This field is required."])],
        .dict []])]

theorem reason_kept_namelessForm : namelessForm.LeadsToMessage ∧ ReasonKept namelessForm := by
  have hlead : namelessForm.LeadsToMessage := Or.inl ⟨"This field is required.", rfl⟩
  exact ⟨hlead, (reason_kept_iff (by decide)).2 hlead⟩

/-- The errors of an approval whose first row is valid and whose second is not. -/
def secondRow : ErrorData :=
  .dict [("transactions",
    .list [.dict [], .dict [("amount", .list [.message "A valid number is required."])]])]

theorem secondRow_lost :
    ¬∀ d : ErrorData, (∀ m ∈ d.messages, m ≠ "") → d.messages ≠ [] → ReasonKept d := by
  intro h
  obtain ⟨m, -, hd, -⟩ := h secondRow (by decide) (by decide)
  exact nomatch hd

end NbeAdvisor
