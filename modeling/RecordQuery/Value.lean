import RecordQuery.Builtin.Definition
import RecordQuery.Json

/-! # Values of expressions

Everything that an expression can produce: JSON data, and what JSON cannot hold, namely undefined,
numbers that are not finite, functions and libraries. Data that leaves an expression is JSON again.
-/

namespace RecordQuery

/-- A value of an expression. -/
inductive Value where
  | undefined
  | json (j : Json)
  | nonFinite (x : Float)
  | function (f : Builtin)
  | library (name : String)
deriving Inhabited, Repr

namespace Value

def ofBool (b : Bool) : Value := json (.bool b)

def ofString (s : String) : Value := json (.string s)

def ofChars (cs : List Char) : Value := ofString (String.ofList cs)

def ofInt (n : Int) : Value := json (.number (.int n))

/-- A float: a JSON number if it is finite. -/
def ofFloat (x : Float) : Value :=
  if x.isFinite then json (.number (Number.ofFinite x)) else nonFinite x

/-- The data of a value; what JSON cannot hold becomes null. -/
def toJson : Value → Json
  | json j => j
  | _ => .null

def typeName : Value → String
  | undefined => "undefined"
  | function _ => "function"
  | library _ => "object"
  | nonFinite _ => "number"
  | json .null | json (.array _) | json (.object _) => "object"
  | json (.bool _) => "boolean"
  | json (.number _) => "number"
  | json (.string _) => "string"

/-- Whether a value counts as true in a condition. -/
def isTruthy : Value → Bool
  | undefined => false
  | function _ | library _ => true
  | nonFinite x => !x.isNaN
  | json .null => false
  | json (.bool b) => b
  | json (.number n) => n.toFloat != 0.0 && !n.toFloat.isNaN
  | json (.string s) => !s.isEmpty
  | json (.array _) | json (.object _) => true

/-- Whether a value is undefined or null, so that it has no properties to read. -/
def isNullish : Value → Bool
  | undefined | json .null => true
  | _ => false

def isComposite : Value → Bool
  | json (.array _) | json (.object _) => true
  | _ => false

@[simp] theorem toJson_json (j : Json) : (json j).toJson = j := rfl

end Value

end RecordQuery
