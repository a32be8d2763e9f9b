import RecordQuery.Builtin.Conversion
import RecordQuery.Builtin.Math
import RecordQuery.Builtin.Sequence
import RecordQuery.Expr.Error

/-! # Calls of builtins

A call checks the number of arguments and computes the primitive. A method takes the value that it
is called on; the other functions have none. What the functions of a host program compute is a
parameter of every call.
-/

namespace RecordQuery

/-- What the functions of a host program compute, by their identities: anything, from the value that
they are called on and the arguments. -/
abbrev Host := Nat → Value → List Value → Except EvalError Value

namespace Builtin

def NumberFn.apply (f : NumberFn) (x : Float) (args : List Value) : Except EvalError Value :=
  match f with
  | .toFixed =>
      let places := (arg args 0).toInteger
      if 0 ≤ places ∧ places ≤ 100 then .ok (.ofChars (Decimal.fixedText places.toNat x))
      else
        .error <| .arity <|
          "\"toFixed\" digits must be between 0 and 100, got " ++
            String.ofList (Decimal.integerText places) ++ "."

/-- The items of an array; other values have none. -/
def itemsOf : Value → List Json
  | .json (.array items) => items
  | _ => []

/-- The result of a primitive on a receiver and arguments. -/
def Primitive.apply (p : Primitive) (host : Host) (this : Value) (args : List Value) :
    Except EvalError Value :=
  match p with
  | .conversion f => .ok (ConversionFn.apply f args)
  | .math f => .ok (MathFn.apply f args)
  | .text f => .ok (TextFn.apply f this.chars args)
  | .array f => .ok (ArrayFn.apply f (itemsOf this) args)
  | .number f => NumberFn.apply f this.toNumber args
  | .host id => host id this args

/-- The result of a call with any number of arguments. -/
def call (b : Builtin) (host : Host) (this : Value) (args : List Value) : Except EvalError Value :=
  match b.arity.fault? args.length with
  | some fault => .error (.arity (fault.message b.name))
  | none => Primitive.apply b.primitive host this args

end Builtin

end RecordQuery
