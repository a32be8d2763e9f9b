import RecordQuery.Builtin.Conversion
import RecordQuery.Value.Conversion

/-! # The mathematical library

Constants and functions on the numbers of their arguments.
-/

namespace RecordQuery.Builtin

def mathConstant? (name : String) : Option Value :=
  if name = "PI" then some (.ofFloat 3.141592653589793)
  else if name = "E" then some (.ofFloat 2.718281828459045)
  else none

/-- Rounds to the nearest integer by adding one half, so a tie goes up. -/
def round (x : Float) : Float :=
  Decimal.floor (x + 0.5)

/-- The sign of a number: itself for zero and NaN. -/
def sign (x : Float) : Float :=
  if x.isNaN || x == 0.0 then x else if x < 0.0 then -1.0 else 1.0

/-- The least of the numbers of the arguments and a seed; NaN if one of them is NaN. -/
def leastOf (seed : Float) : List Value → Float
  | [] => seed
  | v :: rest =>
      if v.toNumber.isNaN then nan
      else leastOf (if v.toNumber < seed then v.toNumber else seed) rest

/-- The greatest of the numbers of the arguments and a seed; NaN if one of them is NaN. -/
def greatestOf (seed : Float) : List Value → Float
  | [] => seed
  | v :: rest =>
      if v.toNumber.isNaN then nan
      else greatestOf (if seed < v.toNumber then v.toNumber else seed) rest

def MathFn.apply (f : MathFn) (args : List Value) : Value :=
  let x := (arg args 0).toNumber
  .ofFloat <|
    match f with
    | .abs => x.abs
    | .ceil => Decimal.ceil x
    | .floor => Decimal.floor x
    | .round => round x
    | .trunc => Decimal.trunc x
    | .sign => sign x
    | .sqrt => x.sqrt
    | .exp => x.exp
    | .log => x.log
    | .pow => x.pow (arg args 1).toNumber
    | .min => leastOf infinity args
    | .max => greatestOf (-infinity) args

end RecordQuery.Builtin
