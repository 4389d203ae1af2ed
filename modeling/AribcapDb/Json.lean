import AribcapDb.Text

/-! # JSON values

The value type of `serde_json` and the accessors that the recorder and the indexer use. The
parser is a parameter: what the repository relies on is that it is a function, that it reads
trailing carriage returns as whitespace, and that it rejects the empty text. -/

namespace AribcapDb

/-- `serde_json::Number`. No accessor used here reads the value of a float. -/
inductive Number where
  | posInt (n : UInt64)
  | negInt (n : Int64)
  | float
  deriving DecidableEq, Repr

/-- `serde_json::Value`. -/
inductive Value where
  | null
  | bool (b : Bool)
  | number (n : Number)
  | string (s : String)
  | array (items : List Value)
  | object (entries : List (String × Value))

namespace Value

/-- `Value::get` with a string index: the entry of an object. -/
def get : Value → String → Option Value
  | .object entries, key => entries.lookup key
  | _, _ => none

def asStr : Value → Option String
  | .string s => some s
  | _ => none

def asArray : Value → Option (List Value)
  | .array items => some items
  | _ => none

def asBool : Value → Option Bool
  | .bool b => some b
  | _ => none

def asU64 : Value → Option UInt64
  | .number (.posInt n) => some n
  | _ => none

def asI64 : Value → Option Int64
  | .number (.posInt n) => if n.toNat < 2 ^ 63 then some n.toInt64 else none
  | .number (.negInt n) => some n
  | _ => none

/-- `value.get(key).and_then(Value::as_str)`. -/
def strField (value : Value) (key : String) : Option String := value.get key >>= asStr

def u64Field (value : Value) (key : String) : Option UInt64 := value.get key >>= asU64

def i64Field (value : Value) (key : String) : Option Int64 := value.get key >>= asI64

def boolField (value : Value) (key : String) : Option Bool := value.get key >>= asBool

end Value

/-- `serde_json::from_str::<Value>`; `none` is a parse error. -/
structure SerdeJson where
  fromStr : String → Option Value
  fromStr_trimEndCr : ∀ text, fromStr (trimEndCr text) = fromStr text
  fromStr_empty : fromStr "" = none

/-- A string field without its surrounding whitespace, unless nothing is left. -/
def trimmedField (value : Value) (key : String) : Option String :=
  ((value.strField key).map trim).filter fun text => !text.isEmpty

/-- `event_title`. -/
def eventTitle (event : Value) : Option String := trimmedField event "eventName"

/-- `event_name_from_eit`: the title of the Japanese event, or else the first title. -/
def eventNameFromEit (value : Value) : Option String := do
  let events ← value.get "shortEvents" >>= Value.asArray
  ((events.find? fun event => event.strField "languageCode" = some "jpn") >>= eventTitle).orElse
    fun _ => events.findSome? eventTitle

end AribcapDb
