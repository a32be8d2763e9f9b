import RecordQuery.Query.TypeTest

/-! # Coercions

A value is made into a text, a number or a list; and the fields of a record are coerced key by key.
-/

namespace RecordQuery

/-- What a value is made into. -/
inductive CoercionKind where
  | string
  | number
  | list
deriving DecidableEq, Repr

def CoercionKind.named (name : String) : Except QueryError CoercionKind :=
  if name = "string" then .ok string
  else if name = "number" then .ok number
  else if name = "list" then .ok list
  else .error (.unknownCoercion name)

namespace Coercion

/-- The number of a value, zero for NaN and null for an infinity. -/
def toNumber (v : Value) : Json :=
  if v.toNumber.isNaN then .number (.int 0) else Json.ofFloat v.toNumber

/-- The greatest length that an object can have as a list. -/
def maxListLength : Float := 4294967295.0

/-- The items of an object that is a list: those under the positions below its length. -/
def indexedItems (fields : Fields) (length : Nat) : List Json :=
  (List.range length).map fun i =>
    (fields.get? (String.ofList (Decimal.digitsOf i))).getD .null

/-- The list of a value: an array, or the items of an object with a length; other values are the
only item, and so is an object whose length no list can have. -/
def toList (v : Value) : Json :=
  match v with
  | .json (.array items) => .array items
  | .json (.object fields) =>
      match Fields.get? fields "length" with
      | some (.number n) =>
          if n.toFloat ≤ maxListLength then
            .array (indexedItems fields (Decimal.integerPart n.toFloat).toNat)
          else .array [.object fields]
      | _ => .array [.object fields]
  | v => .array [v.toJson]

end Coercion

def CoercionKind.apply (kind : CoercionKind) (v : Value) : Json :=
  match kind with
  | string => .string v.toText
  | number => Coercion.toNumber v
  | list => Coercion.toList v

/-- The coercion of a field. -/
structure KeyCoercion where
  key : String
  kind : CoercionKind
deriving DecidableEq, Repr

/-- A record with a field coerced; a missing field is coerced from undefined. -/
def KeyCoercion.apply (c : KeyCoercion) (record : Fields) : Fields :=
  let current :=
    match record.get? c.key with
    | some j => .json j
    | none => .undefined
  record.insert c.key (c.kind.apply current)

/-- A record with fields coerced one after the other. -/
def coerceFields (coercions : List KeyCoercion) (record : Fields) : Fields :=
  coercions.foldl (fun record c => c.apply record) record

/-- A value with its fields coerced if it is an object. -/
def coerceRecord (coercions : List KeyCoercion) : Json → Json
  | .object fields => .object (coerceFields coercions fields)
  | j => j

end RecordQuery
