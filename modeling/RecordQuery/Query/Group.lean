import RecordQuery.Query.Accessor

/-! # Groups of records

Records are grouped by the texts of their keys: values with the same text fall together, and null,
undefined and the empty text are one. Groups stand in the order of their first members, and nested
groups form one level of an object for each key.
-/

namespace RecordQuery

def keyText (v : Value) : String :=
  if v.isNullish then "" else v.toText

/-- Records with the same key texts: the texts, the key values of the first record by name, and the
positions of the records. -/
structure Group where
  key : List String
  fields : Fields
  members : List Nat

/-- Accessors that records are grouped by. -/
structure Grouping where
  keys : List Accessor

/-- The grouping by specs, whose texts are keys of fields. There must be one. -/
def Grouping.ofSpecs (specs : List Spec) : Except QueryError Grouping :=
  match specs with
  | [] => .error .noGroupKeys
  | specs => .ok ⟨specs.map Accessor.property⟩

namespace Grouping

/-- The values of accessors on a record, unless one of them fails. -/
def valuesOf (keys : List Accessor) (d : Value) : Except EvalError (List Value) :=
  keys.mapM fun a => a.call d

/-- The fields of a group: each value under the name of its accessor. -/
def fieldsOf (keys : List Accessor) (values : List Value) : Fields :=
  Fields.ofPairs ((keys.map Accessor.name).zip (values.map Value.toJson))

/-- The groups with one more record: in the group of its key, or in a new one at the end. -/
def addMember (keys : List Accessor) (values : List Value) (position : Nat) :
    List Group → List Group
  | [] => [⟨values.map keyText, fieldsOf keys values, [position]⟩]
  | g :: rest =>
      if g.key = values.map keyText then { g with members := g.members ++ [position] } :: rest
      else g :: addMember keys values position rest

/-- The groups with the record that stands at a position. -/
def addRecord (keys : List Accessor) (groups : List Group) (record : Value × Nat) :
    Except EvalError (List Group) :=
  (valuesOf keys record.1).map fun values => addMember keys values record.2 groups

/-- The groups of records. -/
def group (g : Grouping) (rows : List Value) : Except EvalError (List Group) :=
  rows.zipIdx.foldlM (addRecord g.keys) []

/-! ## Nested groups -/

/-- Records under a key text, after those that are there already. -/
def addToBucket (key : String) (row : Json) : List (String × List Json) → List (String × List Json)
  | [] => [(key, [row])]
  | (k, members) :: rest =>
      if k = key then (k, members ++ [row]) :: rest else (k, members) :: addToBucket key row rest

/-- The records by the text of one key. -/
def buckets (key : Accessor) (rows : List Json) : Except EvalError (List (String × List Json)) :=
  rows.foldlM
    (fun found row => (key.call (.json row)).map fun v => addToBucket (keyText v) row found) []

/-- One level of an object for each key, and the records at the end. -/
def nestBy : List Accessor → List Json → Except EvalError Json
  | [], rows => .ok (.array rows)
  | key :: keys, rows => do
      let found ← buckets key rows
      let fields ← found.mapM fun bucket => (nestBy keys bucket.2).map fun value =>
        (bucket.1, value)
      return .object fields

/-- The nested groups of records. -/
def nest (g : Grouping) (rows : List Json) : Except EvalError Json :=
  nestBy g.keys rows

end Grouping

end RecordQuery
