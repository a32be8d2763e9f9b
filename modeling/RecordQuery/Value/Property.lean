import RecordQuery.Decimal.Literal
import RecordQuery.Value.Conversion

/-! # Properties of values

The fields of objects, and the length and positions of arrays and texts. Everything else reads as
undefined.
-/

namespace RecordQuery

/-- The position that a key names: decimal digits without a leading zero. -/
def indexOfKey? (key : List Char) : Option Nat :=
  match key with
  | [] => none
  | first :: rest =>
      if first = '0' ∧ rest ≠ [] then none
      else if key.all Char.isDigit then some (Decimal.digitsValue key)
      else none

namespace Value

/-- The number of characters of a text or of items of an array. -/
def length? : Value → Option Nat
  | json (.string s) => some s.toList.length
  | json (.array items) => some items.length
  | _ => none

def property (v : Value) (key : String) : Value :=
  match v with
  | json (.object fields) =>
      match Fields.get? fields key with
      | some j => json j
      | none => undefined
  | json (.array items) =>
      if key = "length" then ofInt items.length
      else
        match (indexOfKey? key.toList).bind (items[·]?) with
        | some j => json j
        | none => undefined
  | json (.string s) =>
      if key = "length" then ofInt s.toList.length
      else
        match (indexOfKey? key.toList).bind (s.toList[·]?) with
        | some c => ofChars [c]
        | none => undefined
  | _ => undefined

/-- The position that an argument denotes in a list of `length` elements. A negative one counts from
the end, and the result stays within the list. -/
def relativeIndex (v : Value) (length default : Nat) : Nat :=
  match v with
  | undefined => default
  | v =>
      let n := v.toInteger
      if n < 0 then (length + n).toNat else min n.toNat length

/-- The position that an argument denotes in a list of `length` elements, where a negative one is
the start. -/
def clampedIndex (v : Value) (length default : Nat) : Nat :=
  match v with
  | undefined => default
  | v => min v.toInteger.toNat length

end Value

end RecordQuery
