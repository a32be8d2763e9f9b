import RecordQuery.Decimal.Shortest

/-! # Layouts of numbers

How the digits of a float are laid out as text. Two layouts are in use. A literal keeps a point, so
that it reads back as a float, and turns to scientific notation for large and small exponents. A
numeral is always positional, and an integral one below 10^21 shows its exact digits.
-/

namespace RecordQuery.Decimal

def digitsOf (n : Nat) : List Char :=
  Nat.toDigits 10 n

def integerText (n : Int) : List Char :=
  if n < 0 then '-' :: digitsOf n.natAbs else digitsOf n.natAbs

/-- The position of the leading digit of a decimal. -/
def leading (d : Decimal) : Int :=
  d.exponent + (digitsOf d.digits).length - 1

/-- Positional notation without an exponent. An integral number ends in `tail`. -/
def positional (tail : List Char) (d : Decimal) : List Char :=
  let ds := digitsOf d.digits
  if 0 ≤ d.exponent then ds ++ List.replicate d.exponent.toNat '0' ++ tail
  else
    let places := (-d.exponent).toNat
    if places < ds.length then
      ds.take (ds.length - places) ++ '.' :: ds.drop (ds.length - places)
    else '0' :: '.' :: List.replicate (places - ds.length) '0' ++ ds

/-- Scientific notation: one digit before the point, and an exponent with its sign. -/
def scientific (d : Decimal) : List Char :=
  let mantissa :=
    match digitsOf d.digits with
    | first :: second :: rest => first :: '.' :: second :: rest
    | ds => ds
  let sign := if d.leading < 0 then '-' else '+'
  mantissa ++ 'e' :: sign :: digitsOf d.leading.natAbs

/-- A float as a literal: the shortest digits, positional from `10 ^ -5` up to `10 ^ 16` and
scientific elsewhere, a tie between two shortest decimals going to the even one. -/
def literalText (x : Float) : List Char :=
  match exact x with
  | .nan => "NaN".toList
  | .infinite negative => if negative then "-Infinity".toList else "Infinity".toList
  | .finite negative m e =>
      let magnitude :=
        if m = 0 then ['0', '.', '0']
        else
          let d := shortest .toEven m e
          if -5 ≤ d.leading ∧ d.leading ≤ 15 then positional ['.', '0'] d else scientific d
      if negative then '-' :: magnitude else magnitude

/-- A float as a numeral: positional, without a sign of zero, the integers below 10^21 with all
their digits and the rest with the shortest digits. -/
def numeralText (x : Float) : List Char :=
  match exact x with
  | .nan => "NaN".toList
  | .infinite negative => if negative then "-Infinity".toList else "Infinity".toList
  | .finite negative m e =>
      if m = 0 then ['0']
      else if isIntegral x && decide ((integerPart x).natAbs < tenPow 21) then
        integerText (integerPart x)
      else
        let magnitude := positional [] (shortest .up m e)
        if negative then '-' :: magnitude else magnitude

/-- A finite float with a fixed number of places, the exact value rounded to the nearest and a tie
to the even digit. The sign stays even if all digits are zero. -/
def fixedText (places : Nat) (x : Float) : List Char :=
  match exact x with
  | .finite negative m e =>
      let scaled := roundDiv (m * twoPow e.toNat * tenPow places) (twoPow (-e).toNat) .toEven
      let whole := digitsOf (scaled / tenPow places)
      let magnitude :=
        if places = 0 then whole
        else
          let fraction := digitsOf (scaled % tenPow places)
          whole ++ '.' :: List.replicate (places - fraction.length) '0' ++ fraction
      if negative then '-' :: magnitude else magnitude
  | _ => numeralText x

end RecordQuery.Decimal
