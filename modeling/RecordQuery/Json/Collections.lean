import RecordQuery.Json

/-! # Lists and records of JSON values

Flattening of nested arrays, loose emptiness, and the passage between lists and records over a list
of keys.
-/

namespace RecordQuery.Json

mutual

/-- Pushes the leaves of a value: those of its items if it is an array, else the value itself. -/
def pushLeaves (out : Array Json) : Json → Array Json
  | array items => pushLeavesOf out items
  | j => out.push j

/-- Pushes the leaves of all the given values, from left to right. -/
def pushLeavesOf (out : Array Json) : List Json → Array Json
  | [] => out
  | item :: rest => pushLeavesOf (pushLeaves out item) rest

end

/-- The leaves of a value: those of its items if it is an array, at any depth, else the value
itself. -/
def leaves (j : Json) : List Json :=
  (pushLeaves #[] j).toList

/-- A list without nesting: nested arrays are spliced into their place. -/
def flatten (items : List Json) : List Json :=
  (pushLeavesOf #[] items).toList

/-- Loose emptiness: null, false, zero, the empty text, arrays and objects without content. An
object with a numeric `length` is a list, which is empty if that length is zero. -/
def isEmpty : Json → Bool
  | null => true
  | bool b => !b
  | number n => n.toFloat == 0.0
  | string s => s.isEmpty
  | array items => items.isEmpty
  | object fields =>
      match Fields.get? fields "length" with
      | some (number n) => n.toFloat == 0.0
      | _ => fields.isEmpty

end RecordQuery.Json

namespace RecordQuery.Fields

/-- Copies the fields of the other records into a record, later ones over earlier ones. -/
def extend (target : Fields) (others : List Fields) : Fields :=
  others.foldl insertAll target

/-- Each key with the item at its position, or null past the end of the items. -/
def pairUp : List Json → List String → List (String × Json)
  | _, [] => []
  | [], key :: keys => (key, .null) :: pairUp [] keys
  | item :: items, key :: keys => (key, item) :: pairUp items keys

/-- The record that holds under each key the item at its position, or null past the end. -/
def delist (items : List Json) (keys : List String) : Fields :=
  ofPairs (pairUp items keys)

/-- The values of a record under the given keys, null for a missing one. -/
def enlist (record : Fields) (keys : List String) : List Json :=
  keys.map fun key => (record.get? key).getD .null

end RecordQuery.Fields
