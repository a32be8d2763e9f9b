import RecordQuery.Json

/-! # Equality of JSON values

Two values are equal if they have the same shape, numbers compare by value and the order of the
fields of objects does not count.
-/

namespace RecordQuery.Json

mutual

/-- Equality by value. -/
def deepEq : Json → Json → Bool
  | null, null => true
  | bool a, bool b => a == b
  | number a, number b => a.sameValue b
  | string a, string b => a == b
  | array xs, array ys => deepEqItems xs ys
  | object xs, object ys => xs.length == ys.length && deepEqFields xs ys
  | _, _ => false

/-- Equality of arrays, item by item. -/
def deepEqItems : List Json → List Json → Bool
  | [], [] => true
  | x :: xs, y :: ys => deepEq x y && deepEqItems xs ys
  | _, _ => false

/-- Whether each of the given fields has an equal field in an object. -/
def deepEqFields : List (String × Json) → Fields → Bool
  | [], _ => true
  | (key, x) :: xs, ys =>
      (match ys.get? key with
        | some y => deepEq x y
        | none => false) && deepEqFields xs ys

end

mutual

/-- Equality that also tells integers from floats. -/
def sameTree : Json → Json → Bool
  | null, null => true
  | bool a, bool b => a == b
  | number (.int m), number (.int n) => m == n
  | number (.float x), number (.float y) => x == y
  | string a, string b => a == b
  | array xs, array ys => sameTreeItems xs ys
  | object xs, object ys => xs.length == ys.length && sameTreeFields xs ys
  | _, _ => false

/-- Equality of arrays, item by item, that also tells integers from floats. -/
def sameTreeItems : List Json → List Json → Bool
  | [], [] => true
  | x :: xs, y :: ys => sameTree x y && sameTreeItems xs ys
  | _, _ => false

/-- Whether each of the given fields is found with the same storage in an object. -/
def sameTreeFields : List (String × Json) → Fields → Bool
  | [], _ => true
  | (key, x) :: xs, ys =>
      (match ys.get? key with
        | some y => sameTree x y
        | none => false) && sameTreeFields xs ys

end

end RecordQuery.Json
