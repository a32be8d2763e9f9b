import RecordQuery.Json.Collections
import RecordQuery.Query.Comparison

/-! # Type tests

Predicates on the kind of a value, by name. A name that is no test compares the type name instead.
-/

namespace RecordQuery

/-- A predicate on the kind of a value. -/
inductive TypeTest where
  | number
  | string
  | bool
  | object
  | array
  | list
  | defined
  | undef
  | nil
  | empty
  | integer
  | floating
deriving DecidableEq, Repr

namespace TypeTest

def isIntegral (v : Value) : Bool :=
  v.asNumber?.any Decimal.isIntegral

/-- Whether a number is finite and has a fraction. -/
def isFractional (v : Value) : Bool :=
  v.asNumber?.any fun x => x.isFinite && !Decimal.isIntegral x

/-- Whether a value is an array, or an object with a number as its length. -/
def isList : Value → Bool
  | .json (.array _) => true
  | .json (.object fields) =>
      match Fields.get? fields "length" with
      | some (.number _) => true
      | _ => false
  | _ => false

/-- Whether a value is falsy, or data that is empty. -/
def isEmpty (v : Value) : Bool :=
  !v.isTruthy ||
    match v with
    | .json j => j.isEmpty
    | _ => false

def holds (t : TypeTest) (v : Value) : Bool :=
  match t with
  | number => v.asNumber?.any fun x => !x.isNaN
  | string => match v with | .json (.string _) => true | _ => false
  | bool => v.isBool
  | object => v.isComposite
  | array => match v with | .json (.array _) => true | _ => false
  | list => isList v
  | defined => !v.isNullish
  | undef => v.isNullish
  | nil => match v with | .json .null => true | _ => false
  | empty => isEmpty v
  | integer => isIntegral v
  | floating => isFractional v

def name : TypeTest → String
  | number => "number"
  | string => "string"
  | bool => "bool"
  | object => "object"
  | array => "array"
  | list => "list"
  | defined => "defined"
  | undef => "undef"
  | nil => "nil"
  | empty => "empty"
  | integer => "integer"
  | floating => "floating"

def all : List TypeTest :=
  [number, string, bool, object, array, list, defined, undef, nil, empty, integer, floating]

def named? (name : String) : Option TypeTest :=
  all.find? fun t => t.name == name

end TypeTest

namespace Accessor

/-- The test of a name, or the comparison with a type name. -/
def passes (name : String) : Accessor :=
  match TypeTest.named? name with
  | some t => ofFunction name fun d => .ofBool (t.holds d)
  | none => hasType name

/-- The negation of the test of a name. -/
def fails (name : String) : Except QueryError Accessor :=
  match TypeTest.named? name with
  | some t => .ok (ofFunction ("!" ++ name) fun d => .ofBool !(t.holds d))
  | none => .error (.unknownTypeTest name)

end Accessor

end RecordQuery
