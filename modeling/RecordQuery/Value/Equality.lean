import RecordQuery.Json.Equality
import RecordQuery.Value.Conversion

/-! # Equality of values

Strict equality compares values of one kind, loose equality converts first. NaN equals nothing under
either. Values have no identity: arrays and objects compare by content.
-/

namespace RecordQuery.Value

/-- Equality without conversions. -/
def strictEq (a b : Value) : Bool :=
  match a, b with
  | json x, json y => x.deepEq y
  | nonFinite x, b => match b.asNumber? with
      | some y => x == y
      | none => false
  | a, nonFinite y => match a.asNumber? with
      | some x => x == y
      | none => false
  | undefined, undefined => true
  | function f, function g => f == g
  | library m, library n => m == n
  | _, _ => false

/-- Equality of values as data, under which NaN equals itself. -/
def same (a b : Value) : Bool :=
  match a, b with
  | undefined, undefined => true
  | json x, json y => x.deepEq y
  | nonFinite x, nonFinite y => x == y || (x.isNaN && y.isNaN)
  | function f, function g => f == g
  | library m, library n => m == n
  | _, _ => false

def isBool : Value → Bool
  | json (.bool _) => true
  | _ => false

/-- Whether a value is a number that is not finite. -/
def isNonFinite : Value → Bool
  | nonFinite _ => true
  | _ => false

/-- Whether two values are JSON of one kind. Arrays and objects are one kind. -/
def sameKind : Value → Value → Bool
  | json .null, json .null | json (.bool _), json (.bool _) => true
  | json (.number _), json (.number _) | json (.string _), json (.string _) => true
  | json x, json y => (json x).isComposite && (json y).isComposite
  | _, _ => false

/-- Whether one of two values is a stored number and the other one a text. -/
def isNumberAndText : Value → Value → Bool
  | json (.number _), json (.string _) | json (.string _), json (.number _) => true
  | _, _ => false

/-- How often loose equality may still replace an operand by another value. -/
def conversions : Value → Nat
  | json (.bool _) | json (.array _) | json (.object _) => 1
  | _ => 0

theorem conversions_ofFloat (x : Float) : (ofFloat x).conversions = 0 := by
  rw [ofFloat]
  split <;> rfl

theorem conversions_of_isBool {a : Value} (h : a.isBool = true) : a.conversions = 1 := by
  rcases a with _ | (_ | _ | _ | _ | _ | _) | _ | _ | _ <;> first | rfl | cases h

theorem conversions_of_isComposite {a : Value} (h : a.isComposite = true) :
    a.conversions = 1 ∧ a.primitive.conversions = 0 := by
  rcases a with _ | (_ | _ | _ | _ | _ | _) | _ | _ | _ <;> first | exact ⟨rfl, rfl⟩ | cases h

/-- Equality with conversions. Undefined and null equal each other and nothing else; numbers that
are not finite compare by the number of the other side. A truth value beside another kind is
replaced by its number, then an array or object beside another kind by its text, and the comparison
starts again. -/
def looseEq (a b : Value) : Bool :=
  if a.isNullish || b.isNullish then a.isNullish && b.isNullish
  else if a.isNonFinite || b.isNonFinite then a.primitive.toNumber == b.primitive.toNumber
  else if a.sameKind b then a.strictEq b
  else if a.isBool then looseEq (ofFloat a.toNumber) b
  else if b.isBool then looseEq a (ofFloat b.toNumber)
  else if a.isNumberAndText b then a.toNumber == b.toNumber
  else if a.isComposite && !b.isComposite then looseEq a.primitive b
  else if b.isComposite && !a.isComposite then looseEq a b.primitive
  else a.strictEq b
termination_by a.conversions + b.conversions
decreasing_by
  case _ hbool =>
    rw [conversions_ofFloat, conversions_of_isBool hbool]
    omega
  case _ hbool =>
    rw [conversions_ofFloat, conversions_of_isBool hbool]
    omega
  case _ h =>
    have := conversions_of_isComposite (Bool.and_eq_true_iff.mp h).1
    omega
  case _ h =>
    have := conversions_of_isComposite (Bool.and_eq_true_iff.mp h).1
    omega

end RecordQuery.Value
