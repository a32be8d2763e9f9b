import RecordQuery.Decimal.Layout

/-! # Numbers

A number is stored as an integer or as a float. Integers keep all their digits as long as no
arithmetic touches them; arithmetic is on floats, and its integral results of moderate size become
integers again.
-/

namespace RecordQuery

inductive Number where
  | int (n : Int)
  | float (x : Float)
deriving DecidableEq, Repr

namespace Number

/-- The float nearest to a number. -/
def toFloat : Number → Float
  | int n => Float.ofInt n
  | float x => x

/-- Whether two numbers are equal: integers exactly, and all other pairs as floats. -/
def sameValue : Number → Number → Bool
  | int m, int n => m == n
  | a, b => a.toFloat == b.toFloat

/-- The text of a number in a conversion to text: an integer with all its digits, a float as a
numeral. -/
def text : Number → List Char
  | int n => Decimal.integerText n
  | float x => Decimal.numeralText x

/-- The text of a number as a literal, which tells its storage. -/
def literal : Number → List Char
  | int n => Decimal.integerText n
  | float x => Decimal.literalText x

/-- The largest integer below which all integers are floats. -/
def safeBound : Float := 9007199254740991.0

/-- A finite float as a number. Integral values up to `safeBound` are stored as integers, so a zero
has no sign. -/
def ofFinite (x : Float) : Number :=
  if Decimal.isIntegral x && x.abs ≤ safeBound then int (Decimal.integerPart x) else float x

@[simp] theorem toFloat_int (n : Int) : (int n).toFloat = Float.ofInt n := rfl

@[simp] theorem toFloat_float (x : Float) : (float x).toFloat = x := rfl

end Number

end RecordQuery
