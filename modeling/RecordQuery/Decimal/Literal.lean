/-! # Decimal literals

A decimal literal is an optional sign, digits with an optional point among them, at least one digit
in all, and an optional exponent. It denotes the float nearest to its exact value.
-/

namespace RecordQuery.Decimal

/-- The value of a run of decimal digits. -/
def digitsValue (cs : List Char) : Nat :=
  cs.foldl (fun n c => 10 * n + (c.toNat - '0'.toNat)) 0

/-- The leading decimal digits of a text and what follows them. -/
def spanDigits (cs : List Char) : List Char × List Char :=
  (cs.takeWhile Char.isDigit, cs.dropWhile Char.isDigit)

theorem spanDigits_append (cs : List Char) : (spanDigits cs).1 ++ (spanDigits cs).2 = cs :=
  List.takeWhile_append_dropWhile

/-- A literal without its sign: the digits before and after the point, and the exponent. -/
structure Literal where
  whole : List Char
  fraction : List Char
  exponent : Int
deriving DecidableEq, Repr

/-- The float nearest to the value of a literal. -/
def Literal.toFloat (l : Literal) : Float :=
  let places := l.exponent - l.fraction.length
  let mantissa := digitsValue (l.whole ++ l.fraction)
  if 0 ≤ places then Float.ofScientific mantissa false places.toNat
  else Float.ofScientific mantissa true (-places).toNat

/-- Splits an optional sign off a text; `true` is a minus. -/
def splitSign : List Char → Bool × List Char
  | '-' :: rest => (true, rest)
  | '+' :: rest => (false, rest)
  | cs => (false, cs)

/-- Reads the exponent that ends a literal. No exponent is zero. -/
def readExponent? : List Char → Option Int
  | [] => some 0
  | c :: rest =>
      if c = 'e' ∨ c = 'E' then
        let (negative, digits) := splitSign rest
        if digits ≠ [] ∧ digits.all Char.isDigit then
          some (if negative then -(digitsValue digits : Int) else digitsValue digits)
        else none
      else none

/-- Reads a whole text as a literal without a sign. -/
def Literal.ofChars? (cs : List Char) : Option Literal :=
  let (whole, rest) := spanDigits cs
  let (fraction, rest) :=
    match rest with
    | '.' :: afterPoint => spanDigits afterPoint
    | rest => ([], rest)
  if whole = [] ∧ fraction = [] then none
  else (readExponent? rest).map fun e => ⟨whole, fraction, e⟩

/-- Reads a whole text as a literal with an optional sign. -/
def readFloat? (cs : List Char) : Option Float :=
  let (negative, rest) := splitSign cs
  (Literal.ofChars? rest).map fun l => if negative then -l.toFloat else l.toFloat

/-- The length of the exponent at the front of a text, or zero if there is none. -/
def exponentLength : List Char → Nat
  | c :: rest =>
      if c = 'e' ∨ c = 'E' then
        let signLength := rest.length - (splitSign rest).2.length
        let digits := (spanDigits (splitSign rest).2).1.length
        if digits = 0 then 0 else 1 + signLength + digits
      else 0
  | [] => 0

/-- The length of the longest literal without a sign at the front of a text, or zero if there is
none. -/
def literalLength (cs : List Char) : Nat :=
  let whole := (spanDigits cs).1.length
  let mantissa :=
    match (spanDigits cs).2 with
    | '.' :: afterPoint =>
        let fraction := (spanDigits afterPoint).1.length
        if whole = 0 ∧ fraction = 0 then 0 else whole + 1 + fraction
    | _ => whole
  if mantissa = 0 then 0 else mantissa + exponentLength (cs.drop mantissa)

end RecordQuery.Decimal
