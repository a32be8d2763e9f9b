import RecordQuery.Query.Accessor
import RecordQuery.Query.TypeTest
import RecordQuery.Value.Operators

/-! # Aggregates

An aggregate reduces the records of a group, or the values of an accessor on them, to one value.
-/

namespace RecordQuery

/-- A reduction of values to one value, with its name. -/
structure Reduction where
  name : String
  reduce : List Value → Value

namespace Reduction

/-- The sum of the numbers of some values from the left. -/
def sumFrom (total : Float) : List Value → Float
  | [] => total
  | v :: rest => sumFrom (total + v.toNumber) rest

/-- The first value that no later one replaces. -/
def pick (replaces : Value → Value → Bool) : List Value → Value
  | [] => .undefined
  | first :: rest => rest.foldl (fun best v => if replaces v best then v else best) first

def count : Reduction := ⟨"count", fun values => .ofInt values.length⟩

def sum : Reduction :=
  ⟨"sum", fun values => .ofFloat (sumFrom 0.0 (values.filter TypeTest.number.holds))⟩

/-- The first of the least values. -/
def min : Reduction := ⟨"min", pick Value.lt⟩

/-- The first of the greatest values. -/
def max : Reduction := ⟨"max", pick Value.gt⟩

end Reduction

/-- A column computed from all the records of a group. -/
structure Aggregate where
  label : String
  alias? : Option String
  inner : Option Accessor
  reduce : List Value → Value

namespace Aggregate

def name (a : Aggregate) : String := a.alias?.getD a.label

def rename (a : Aggregate) (name : String) : Aggregate := { a with alias? := some name }

/-- The reduction of the values of a spec, whose text is a key. -/
def ofSpec (r : Reduction) (spec : Spec) : Aggregate :=
  let inner := Accessor.property spec
  ⟨r.name ++ "(" ++ inner.name ++ ")", none, some inner, r.reduce⟩

/-- The reduction of the records themselves. -/
def ofRows (r : Reduction) : Aggregate :=
  ⟨r.name ++ "()", none, none, r.reduce⟩

def apply (a : Aggregate) (rows : List Value) : Except EvalError Value :=
  match a.inner with
  | none => .ok (a.reduce rows)
  | some inner => (rows.mapM inner.call).map a.reduce

end Aggregate

end RecordQuery
