import RecordQuery.Decimal.Exact
import RecordQuery.Decimal.Rounding

/-! # Shortest decimals

The decimal with the fewest digits that reads back as a given float, and the nearest of those. The
reals that read back as a float form an interval around it, whose ends belong to it when the
significand is even. A decimal grid meets the interval exactly when one of the two neighbours of the
float on that grid lies in it, so two candidates for each number of digits are enough.
-/

namespace RecordQuery

/-- A positive decimal `digits * 10 ^ exponent`. -/
structure Decimal where
  digits : Nat
  exponent : Int
deriving DecidableEq, Repr

namespace Decimal

/-- The reals that read back as a float: its value and the ends of the interval, over one
denominator. -/
structure Interval where
  lower : Nat
  value : Nat
  upper : Nat
  den : Nat
  closed : Bool
deriving Repr

/-- The interval of the float `significand * 2 ^ exponent`. Below a power of two the neighbour is
only half as far away. -/
def Interval.ofFloat (significand : Nat) (exponent : Int) : Interval :=
  let up := twoPow (exponent - 2).toNat
  { lower := (4 * significand -
      (if significand = twoPow 52 ∧ exponent ≠ -1074 then 1 else 2)) * up
    value := 4 * significand * up
    upper := (4 * significand + 2) * up
    den := twoPow (2 - exponent).toNat
    closed := significand % 2 == 0 }

/-- Whether the grid point `d * 10 ^ g` lies in an interval. -/
def Interval.contains (i : Interval) (d : Nat) (g : Int) : Bool :=
  let point := d * tenPow g.toNat * i.den
  let scale := tenPow (-g).toNat
  if i.closed then decide (i.lower * scale ≤ point ∧ point ≤ i.upper * scale)
  else decide (i.lower * scale < point ∧ point < i.upper * scale)

/-- The position of the leading digit of a positive quotient: `10 ^ p ≤ num / den < 10 ^ (p + 1)`,
for quotients that are at least `10 ^ -400`. -/
def leadingPosition (num den : Nat) : Int :=
  ((Nat.toDigits 10 (num * tenPow 400 / den)).length : Int) - 401

/-- The grid point with step `10 ^ g` that lies in an interval, the nearer one if both neighbours of
the value do. -/
def Interval.gridPoint? (i : Interval) (tie : Tie) (g : Int) : Option Decimal :=
  let num := i.value * tenPow (-g).toNat
  let den := i.den * tenPow g.toNat
  let below := num / den
  match i.contains below g, i.contains (below + 1) g with
  | true, true => some ⟨roundDiv num den tie, g⟩
  | true, false => some ⟨below, g⟩
  | false, true => some ⟨below + 1, g⟩
  | false, false => none

/-- A decimal without trailing zeros among its digits. -/
def strip (fuel : Nat) (d : Decimal) : Decimal :=
  match fuel with
  | 0 => d
  | fuel + 1 =>
      if d.digits ≠ 0 ∧ d.digits % 10 = 0 then strip fuel ⟨d.digits / 10, d.exponent + 1⟩
      else d

/-- The shortest decimal that reads back as `significand * 2 ^ exponent`, a positive float.
Seventeen digits are always enough. -/
def shortest (tie : Tie) (significand : Nat) (exponent : Int) : Decimal :=
  let i := Interval.ofFloat significand exponent
  let top := leadingPosition i.value i.den
  match (List.range 17).findSome? fun (k : Nat) => i.gridPoint? tie (top - (k : Int)) with
  | some d => d.strip 20
  | none => ⟨i.value / i.den, 0⟩

end Decimal

end RecordQuery
