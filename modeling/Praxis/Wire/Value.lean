import Praxis.Context.History
import Praxis.Wire.ThinkTags

/-!
# JSON values

What providers send and receive are values of `serde_json`.  Reading a value never fails: a value
of another kind, or a field that is missing, reads as nothing.  Parsing and printing are the
library's, and stand here as the functions of a `Serde`.

An object keeps the order of its fields, since the library is built with `preserve_order`.
-/

namespace Praxis.Wire

/-- `str::trim`. -/
def trim (text : Text) : Text := Context.trimEnd (Context.trimStart text)

/-- `serde_json::Number`.  A fraction is known by its text. -/
inductive Number where
  | posInt (n : UInt64)
  | negInt (n : Int64)
  | float (text : Text)
  deriving DecidableEq

/-- `serde_json::Value`. -/
inductive Value where
  | null
  | bool (b : Bool)
  | number (n : Number)
  | string (text : Text)
  | array (items : List Value)
  | object (fields : List (String × Value))

/-- `serde_json::Map`. -/
abbrev Map := List (String × Value)

namespace Map

/-- `Map::get`. -/
def get (map : Map) (key : String) : Option Value := (map.find? (·.1 = key)).map Prod.snd

/-- `Map::contains_key`. -/
def containsKey (map : Map) (key : String) : Bool := (get map key).isSome

/-- `Map::insert`: a key that is there keeps its place. -/
def insert (map : Map) (key : String) (value : Value) : Map :=
  match map with
  | [] => [(key, value)]
  | field :: rest =>
    if field.1 = key then (key, value) :: rest else field :: insert rest key value

end Map

namespace Value

/-- `Value::get` by a key. -/
def get (value : Value) (key : String) : Option Value :=
  match value with
  | .object fields => Map.get fields key
  | _ => none

/-- `Value::as_str`. -/
def asStr : Value → Option Text
  | .string text => some text
  | _ => none

/-- `Value::as_array`. -/
def asArray : Value → Option (List Value)
  | .array items => some items
  | _ => none

/-- `Value::as_object`. -/
def asObject : Value → Option Map
  | .object fields => some fields
  | _ => none

/-- `Value::as_u64`. -/
def asU64 : Value → Option Nat
  | .number (.posInt n) => some n.toNat
  | _ => none

/-- `Value::as_i64`. -/
def asI64 : Value → Option Int
  | .number (.posInt n) => if n.toNat < 2 ^ 63 then some n.toNat else none
  | .number (.negInt n) => some n.toInt
  | _ => none

/-- `Value::is_null`. -/
def isNull : Value → Bool
  | .null => true
  | _ => false

/-- `value.get(key).and_then(Value::as_str)`. -/
def str (value : Value) (key : String) : Option Text := (value.get key).bind asStr

/-- `value.get(key).and_then(Value::as_array)`. -/
def list (value : Value) (key : String) : Option (List Value) := (value.get key).bind asArray

/-- `value.get(key).and_then(Value::as_i64)`. -/
def int (value : Value) (key : String) : Option Int := (value.get key).bind asI64

/-- `value.get(key).and_then(Value::as_str).map(str::trim).filter(|text| !text.is_empty())`. -/
def word (value : Value) (key : String) : Option Text :=
  ((value.str key).map trim).filter (!·.isEmpty)

end Value

/-- `serde_json::from_str` and `serde_json::to_string`, which does not fail on a `Value`. -/
structure Serde where
  fromStr : Text → Option Value
  toString : Value → Text

/-- Functions that stand for the library's where nothing is printed or parsed. -/
def noSerde : Serde := ⟨fun _ ↦ none, fun _ ↦ []⟩

/-- Identifiers of different lengths. -/
def unaryIds (n : Nat) : Text := List.replicate n 'i'

end Praxis.Wire
