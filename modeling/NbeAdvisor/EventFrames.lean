import Mathlib.Data.List.Basic
import Mathlib.Tactic.Basic

/-!
# The text of an event stream

A `Reader` takes the text of a stream of events character by character, as it comes over a
connection. A line ends with a line feed, a carriage return, or both. A line is a field with its
value, a comment if it starts with a colon, or empty, which ends an event. The value of `event` is
the name of the event, and the values of `data` are the lines of its data. An event without data is
none.

`frame` is the text of one event, and `comment` one that no reader takes for an event. A reader that
stands between two events reads a frame as its event, and goes over a comment (`feedAll_frame`,
`feedAll_comment`).
-/

namespace EventFrames

/-- The line so far, whether the last character was a carriage return, what is known of the event,
and the events with their names and their data. -/
structure Reader where
  line : List Char := []
  afterReturn : Bool := false
  name : List Char := []
  data : Option (List Char) := none
  read : List (List Char × List Char) := []

/-- The name of a field, and its value without one space in front. -/
def field (line : List Char) : List Char × List Char :=
  (line.takeWhile (· ≠ ':'),
    match (line.dropWhile (· ≠ ':')).drop 1 with
    | ' ' :: value => value
    | value => value)

namespace Reader

/-- The line is over : an empty one ends the event, and any other is a comment or a field of it. -/
def endLine (s : Reader) : Reader :=
  match s.line with
  | [] =>
    match s.data with
    | none => { read := s.read }
    | some data => { read := s.read ++ [(if s.name = [] then "message".toList else s.name, data)] }
  | ':' :: _ => { s with line := [] }
  | line =>
    if (field line).1 = "event".toList then { s with line := [], name := (field line).2 }
    else if (field line).1 = "data".toList then
      { s with line := [], data := some (match s.data with
        | none => (field line).2
        | some data => data ++ '\n' :: (field line).2) }
    else { s with line := [] }

/-- One character is read. A carriage return and the newline after it end one line. -/
def feed (s : Reader) (c : Char) : Reader :=
  if c = '\n' then if s.afterReturn then { s with afterReturn := false } else s.endLine
  else if c = '\r' then { s.endLine with afterReturn := true }
  else { s with line := s.line ++ [c], afterReturn := false }

/-- A text is read. -/
def feedAll (s : Reader) (text : List Char) : Reader := text.foldl feed s

end Reader

/-- The events that a text holds, by name and data. -/
def read (text : List Char) : List (String × String) :=
  (({} : Reader).feedAll text).read.map fun e => (String.ofList e.1, String.ofList e.2)

/-- The frame of an event. -/
def frame (name data : String) : String := "event: " ++ name ++ "\ndata: " ++ data ++ "\n\n"

/-- A comment, which keeps the connection open. -/
def comment (text : String) : String := ": " ++ text ++ "\n\n"

/-- A text on one line. -/
def OneLine (text : String) : Prop := '\n' ∉ text.toList ∧ '\r' ∉ text.toList

instance (text : String) : Decidable (OneLine text) := inferInstanceAs (Decidable (_ ∧ _))

namespace Reader

variable {s : Reader} {l m : List Char}

/-- A text is read in pieces as at once. -/
theorem feedAll_append (s : Reader) (l m : List Char) :
    s.feedAll (l ++ m) = (s.feedAll l).feedAll m := List.foldl_append

/-- The characters of a line are kept until it ends. -/
theorem feedAll_line (hn : '\n' ∉ l) (hr : '\r' ∉ l) (hs : s.afterReturn = false) :
    s.feedAll l = { s with line := s.line ++ l } := by
  induction l generalizing s with
  | nil => simp [feedAll]
  | cons c l ih =>
    rw [List.mem_cons, not_or] at hn hr
    have hfeed : s.feed c = { s with line := s.line ++ [c] } := by
      rw [feed, if_neg (Ne.symm hn.1), if_neg (Ne.symm hr.1), ← hs]
    have hrest := ih (s := { s with line := s.line ++ [c] }) hn.2 hr.2 hs
    calc s.feedAll (c :: l) = (s.feed c).feedAll l := rfl
      _ = { s with line := s.line ++ [c] ++ l } := by rw [hfeed, hrest]
      _ = { s with line := s.line ++ c :: l } := by rw [List.append_assoc, List.singleton_append]

/-- A line feed ends the line in front of it. -/
theorem feedAll_endLine (hn : '\n' ∉ l) (hr : '\r' ∉ l) (hs : s.afterReturn = false) :
    s.feedAll (l ++ ['\n']) = ({ s with line := s.line ++ l } : Reader).endLine := by
  rw [feedAll_append, feedAll_line hn hr hs]
  simp [feedAll, feed, hs]

end Reader

/-- A field is read back, if its name has no colon. -/
theorem field_cons {name value : List Char} (h : ':' ∉ name) :
    field (name ++ ':' :: ' ' :: value) = (name, value) := by
  have hname : ∀ c ∈ name, (decide (c ≠ ':')) = true := by
    intro c hc
    exact decide_eq_true fun hcolon => h (hcolon ▸ hc)
  have htake : (name ++ ':' :: ' ' :: value).takeWhile (· ≠ ':') = name := by
    rw [List.takeWhile_append_of_pos hname]
    simp
  have hdrop : (name ++ ':' :: ' ' :: value).dropWhile (· ≠ ':') = ':' :: ' ' :: value := by
    rw [List.dropWhile_append_of_pos hname]
    simp
  rw [field, htake, hdrop]
  rfl

section Frames

variable {r : List (List Char × List Char)} {name data text : String}

/-- The line of the event's name. -/
theorem endLine_event (s : Reader) (value : List Char)
    (hline : s.line = "event".toList ++ ':' :: ' ' :: value) :
    s.endLine = { s with line := [], name := value } := by
  have hfield := @field_cons "event".toList value (by decide)
  rw [← hline] at hfield
  rw [Reader.endLine]
  split
  · simp_all
  · simp_all
  · simp [hfield]

/-- The line of the event's data. -/
theorem endLine_data (s : Reader) (value : List Char)
    (hline : s.line = "data".toList ++ ':' :: ' ' :: value) (hdata : s.data = none) :
    s.endLine = { s with line := [], data := some value } := by
  have hfield := @field_cons "data".toList value (by decide)
  rw [← hline] at hfield
  rw [Reader.endLine]
  split
  · simp_all
  · simp_all
  · simp [hfield, hdata]

/-- A reader between two events reads a frame as its event. -/
theorem feedAll_frame (hname : OneLine name) (hne : name ≠ "") (hdata : OneLine data) :
    ({ read := r } : Reader).feedAll (frame name data).toList =
      { read := r ++ [(name.toList, data.toList)] } := by
  have hsplit : (frame name data).toList =
      ("event".toList ++ ':' :: ' ' :: name.toList ++ ['\n']) ++
        (("data".toList ++ ':' :: ' ' :: data.toList ++ ['\n']) ++ ([] ++ ['\n'])) := by
    simp [frame, String.toList_append]
  have hevent : ({ read := r } : Reader).feedAll
      ("event".toList ++ ':' :: ' ' :: name.toList ++ ['\n']) =
      { name := name.toList, read := r } := by
    rw [Reader.feedAll_endLine (by simp [hname.1]) (by simp [hname.2]) rfl,
      endLine_event _ name.toList rfl]
  have hvalue : ({ name := name.toList, read := r } : Reader).feedAll
      ("data".toList ++ ':' :: ' ' :: data.toList ++ ['\n']) =
      { name := name.toList, data := some data.toList, read := r } := by
    rw [Reader.feedAll_endLine (by simp [hdata.1]) (by simp [hdata.2]) rfl,
      endLine_data _ data.toList rfl rfl]
  have hend : ({ name := name.toList, data := some data.toList, read := r } : Reader).feedAll
      ([] ++ ['\n']) = { read := r ++ [(name.toList, data.toList)] } := by
    rw [Reader.feedAll_endLine (by simp) (by simp) rfl]
    simp [Reader.endLine, hne]
  rw [hsplit, Reader.feedAll_append, hevent, Reader.feedAll_append, hvalue, hend]

/-- A reader between two events goes over a comment. -/
theorem feedAll_comment (htext : OneLine text) :
    ({ read := r } : Reader).feedAll (comment text).toList = { read := r } := by
  have hsplit : (comment text).toList =
      (':' :: ' ' :: text.toList ++ ['\n']) ++ ([] ++ ['\n']) := by
    simp [comment, String.toList_append]
  have hline : ({ read := r } : Reader).feedAll (':' :: ' ' :: text.toList ++ ['\n']) =
      { read := r } := by
    rw [Reader.feedAll_endLine (by simp [htext.1]) (by simp [htext.2]) rfl]
    rfl
  rw [hsplit, Reader.feedAll_append, hline, Reader.feedAll_endLine (by simp) (by simp) rfl]
  rfl

end Frames

/-! ## A part of a text -/

namespace Reader

/-- A line takes nothing back of what was read. -/
theorem read_endLine (s : Reader) : s.read <+: s.endLine.read := by
  rw [endLine]
  split
  · split
    · exact List.prefix_rfl
    · exact List.prefix_append _ _
  · exact List.prefix_rfl
  · split
    · exact List.prefix_rfl
    · split <;> exact List.prefix_rfl

/-- A character takes nothing back of what was read. -/
theorem read_feed (s : Reader) (c : Char) : s.read <+: (s.feed c).read := by
  rw [feed]
  split
  · split
    · exact List.prefix_rfl
    · exact s.read_endLine
  · split
    · exact s.read_endLine
    · exact List.prefix_rfl

/-- Events that were read stay so. -/
theorem read_feedAll (s : Reader) (l : List Char) : s.read <+: (s.feedAll l).read := by
  induction l generalizing s with
  | nil => exact List.prefix_rfl
  | cons c l ih => exact (s.read_feed c).trans (ih (s.feed c))

end Reader

/-- What has come of a text holds the first of its events. -/
theorem read_prefix {l m : List Char} (h : l <+: m) : read l <+: read m := by
  obtain ⟨rest, rfl⟩ := h
  rw [read, read, Reader.feedAll_append]
  exact (Reader.read_feedAll _ rest).map _

end EventFrames
