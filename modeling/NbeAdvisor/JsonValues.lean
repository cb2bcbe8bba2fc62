import NbeAdvisor.Portfolio

/-!
# JSON values

What another service sends, as `json.loads` gives it to Python, and the functions of Python and
Django that its texts go through (`Readers`).
-/

namespace NbeAdvisor

/-- A value of a response. Numbers have their `str`, and objects no key twice. -/
inductive Json where
  | null
  | bool (b : Bool)
  | number (shown : String) (isZero : Bool)
  | text (s : String)
  | array (items : List Json)
  | object (fields : List (String × Json))

namespace Json

/-- What Python takes for true. -/
def truthy : Json → Bool
  | null => false
  | bool b => b
  | number _ isZero => !isZero
  | text s => s ≠ ""
  | array items => !items.isEmpty
  | object fields => !fields.isEmpty

/-- The value is this text. -/
def isText (s : String) : Json → Bool
  | text t => t = s
  | _ => false

end Json

/-- `raw.get(key)`. -/
def getField (fields : List (String × Json)) (key : String) : Json := (fields.lookup key).getD .null

/-! ## What the texts are read as -/

/-- A `Decimal` : a number, or an infinity or NaN. -/
inductive DecimalReading where
  | finite (x : ℚ)
  | special

/-- A `datetime`, with a time zone or without. -/
inductive Timestamp where
  | aware (t : Instant)
  | naive

/-- How `parse_datetime` ends. -/
inductive DateReading where
  | read (d : Timestamp)
  /-- It returns `None`. -/
  | missing
  /-- It raises `ValueError`. -/
  | impossible

/-- The functions of Python and Django that the fields go through. `none` is an exception that is
caught. -/
structure Readers where
  /-- `str` of a list or an object. -/
  shown : Json → String
  uuid : String → Option InstrumentId
  decimal : String → Option DecimalReading
  parseDatetime : String → DateReading
  upper : String → String

/-- `str`. -/
def Readers.str (py : Readers) : Json → String
  | .null => "None"
  | .bool b => if b then "True" else "False"
  | .number shown _ => shown
  | .text s => s
  | j => py.shown j

end NbeAdvisor
