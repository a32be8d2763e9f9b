/-! # Builtin definitions

A builtin function has a name, the kind of value that it is attached to, an arity, and the primitive
that it computes. The primitives of the library are listed here. Beside them stand the functions of a
host program, which are known by their identities alone: what they compute is not said here.
-/

namespace RecordQuery

/-- How many arguments a function accepts. -/
inductive Arity where
  | any
  | exactly (count : Nat)
  | between (least : Nat) (most : Option Nat)
deriving DecidableEq, Repr

/-- Whether a number of arguments is accepted. -/
def Arity.admits : Arity → Nat → Bool
  | any, _ => true
  | exactly count, given => given == count
  | between least most, given =>
      decide (least ≤ given) &&
        match most with
        | some most => decide (given ≤ most)
        | none => true

/-- What a function is attached to: nothing, a library object, or the values of a type. -/
inductive Receiver where
  | global
  | library (name : String)
  | string
  | array
  | number
deriving DecidableEq, Repr

/-- The name of a receiver in messages. -/
def Receiver.describe : Receiver → String
  | global => "global"
  | library name => name
  | string => "string"
  | array => "array"
  | number => "number"

/-- The conversions that are called by their bare name. -/
inductive ConversionFn where
  | toText
  | toNumber
  | toBoolean
  | parseInteger
  | parseDecimal
  | isNaN
  | isFinite
deriving DecidableEq, Repr

/-- The members of the mathematical library. -/
inductive MathFn where
  | abs
  | ceil
  | floor
  | round
  | trunc
  | sign
  | sqrt
  | exp
  | log
  | pow
  | min
  | max
deriving DecidableEq, Repr

inductive TextFn where
  | toUpperCase
  | toLowerCase
  | trim
  | charAt
  | indexOf
  | includes
  | startsWith
  | endsWith
  | slice
  | substring
  | substr
  | split
  | concat
  | replace
deriving DecidableEq, Repr

inductive ArrayFn where
  | indexOf
  | includes
  | join
  | slice
  | concat
deriving DecidableEq, Repr

inductive NumberFn where
  | toFixed
deriving DecidableEq, Repr

/-- A function that expressions can call: one of the library, or one of a host program. -/
inductive Primitive where
  | conversion (f : ConversionFn)
  | math (f : MathFn)
  | text (f : TextFn)
  | array (f : ArrayFn)
  | number (f : NumberFn)
  | host (id : Nat)
deriving DecidableEq, Repr

/-- A named primitive with its place and arity. -/
structure Builtin where
  name : String
  aliases : List String
  receiver : Receiver
  arity : Arity
  primitive : Primitive
deriving DecidableEq, Repr

end RecordQuery
