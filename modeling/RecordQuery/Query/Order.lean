import RecordQuery.Query.Accessor
import RecordQuery.Sorting.Merge
import RecordQuery.Text.LetterCase
import RecordQuery.Value.Operators

/-! # Orders of records

A comparator compares two records on one key, and the first comparator of a list that tells them
apart decides. An order says how the values of a key compare; its result is a number whose sign
counts.
-/

namespace RecordQuery

/-- How two values compare. -/
inductive Order where
  | asc
  | desc
  | ascNumeric
  | descNumeric
  | custom (f : Value → Value → Float)

namespace Order

/-- 1 if the first value is greater, -1 if it is less, and 0 if they are equal or not comparable. -/
def ascending (a b : Value) : Int :=
  match a.compare? b with
  | some .gt => 1
  | some .lt => -1
  | _ => 0

def descending (a b : Value) : Int := -ascending a b

/-- The difference of the numbers of two values. -/
def numericAscending (a b : Value) : Float := a.toNumber - b.toNumber

/-- The difference of the numbers of two values, the second one first. -/
def numericDescending (a b : Value) : Float := b.toNumber - a.toNumber

def apply (o : Order) (a b : Value) : Float :=
  match o with
  | asc => Float.ofInt (ascending a b)
  | desc => Float.ofInt (descending a b)
  | ascNumeric => numericAscending a b
  | descNumeric => numericDescending a b
  | custom f => f a b

/-- The order of a name, whose letters may be of either case. -/
def named (name : String) : Except QueryError Order :=
  let lower := name.toList.map Char.toLower
  if lower = "asc".toList then .ok asc
  else if lower = "desc".toList then .ok desc
  else .error (.invalidSortOrder name)

end Order

/-- The order that a sort is asked for. -/
inductive SortOrder where
  | unspecified
  | index (i : Int)
  | name (s : String)
  | order (o : Order)

/-- The order that is meant; ascending if none is given. -/
def SortOrder.resolve : SortOrder → Except QueryError Order
  | unspecified | index _ => .ok .asc
  | name s => Order.named s
  | order o => .ok o

/-- A key of a record and the order of its values. -/
structure Comparator where
  key : Accessor
  order : Order

def Comparator.compare (c : Comparator) (a b : Value) : Except EvalError Float := do
  let x ← c.key.call a
  let y ← c.key.call b
  return c.order.apply x y

/-- Whether a word names an order when letter case is ignored. -/
def isOrderWord (cs : List Char) : Bool :=
  let folded := cs.map Text.fold
  folded = "asc".toList || folded = "desc".toList

/-- A text that ends in a blank and the name of an order, taken apart. The key before it is on one
line. -/
def splitOrderSuffix? (cs : List Char) : Option (List Char × List Char) :=
  let word := (cs.reverse.takeWhile (· ≠ ' ')).reverse
  match cs.reverse.dropWhile (· ≠ ' ') with
  | [] => none
  | _ :: before =>
      if isOrderWord word && !before.contains '\n' then some (before.reverse, word) else none

/-- The comparator of a spec. A text that ends in the name of an order has that order, whatever
order is asked for. -/
def Comparator.ofSpec (spec : Spec) (order : SortOrder) : Except QueryError Comparator :=
  let (spec, order) :=
    match spec with
    | .accessor a => (Spec.accessor a, order)
    | .text text =>
        match splitOrderSuffix? text.toList with
        | some (key, word) => (.text (String.ofList key), .name (String.ofList word))
        | none => (.text text, order)
  order.resolve.map fun o => ⟨Accessor.property spec, o⟩

namespace Comparator

/-- The comparators of specs, ascending unless they say otherwise. -/
def ofSpecs (specs : List Spec) : Except QueryError (List Comparator) :=
  specs.mapM fun spec => ofSpec spec .unspecified

/-- The result of the first comparator that tells two records apart. -/
def compareAll (a b : Value) : List Comparator → Except EvalError Float
  | [] => .ok 0.0
  | c :: rest => do
      let x ← c.compare a b
      if x < 0.0 ∨ 0.0 < x then return x else compareAll a b rest

end Comparator

/-- The order that the sign of a number stands for. NaN stands for equality. -/
def orderingOfSign (x : Float) : Ordering :=
  if x < 0.0 then .lt else if 0.0 < x then .gt else .eq

def comparisonBy (comparators : List Comparator) : Sorting.Comparison Value EvalError :=
  fun a b => (Comparator.compareAll a b comparators).map orderingOfSign

/-- Puts records in order in place. Records that no comparator tells apart keep their order. -/
def sortRowsInPlace (comparators : List Comparator) (rows : List Value) :
    Sorting.Outcome Value EvalError :=
  Sorting.stableSortOutcome (comparisonBy comparators) rows

/-- The records in order. -/
def sortRows (comparators : List Comparator) (rows : List Value) : Except EvalError (List Value) :=
  (sortRowsInPlace comparators rows).toExcept

end RecordQuery
