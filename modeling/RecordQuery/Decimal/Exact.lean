/-! # Exact values of floats

A finite float is a signed integer times a power of two. Rounding to an integer and the remainder of
a division are computed on that exact value, so they hold for every float.
-/

namespace RecordQuery.Decimal

/-! ## Powers of two and ten -/

def twoPow (n : Nat) : Nat :=
  Nat.pow 2 n

def tenPow (n : Nat) : Nat :=
  Nat.pow 10 n

@[simp] theorem twoPow_zero : twoPow 0 = 1 := rfl

@[simp] theorem tenPow_zero : tenPow 0 = 1 := rfl

theorem twoPow_pos (n : Nat) : 0 < twoPow n :=
  Nat.pow_pos (by decide)

theorem tenPow_pos (n : Nat) : 0 < tenPow n :=
  Nat.pow_pos (by decide)

/-! ## Floats -/

/-- What a float denotes: no number, an infinity, or `± significand * 2 ^ exponent`. -/
inductive Exact where
  | nan
  | infinite (negative : Bool)
  | finite (negative : Bool) (significand : Nat) (exponent : Int)
deriving DecidableEq, Repr

/-- The exact value of a float. A significand has at most 53 bits, and an exponent is at least
-1074. -/
def exact (x : Float) : Exact :=
  match x.toModel.unpack with
  | .notANumber => .nan
  | .infinity sign => .infinite (sign == .negative)
  | .zero sign => .finite (sign == .negative) 0 0
  | .finite sign m e _ => .finite (sign == .negative) m e

/-- An integer from its sign and absolute value. -/
def signed (negative : Bool) (n : Nat) : Int :=
  if negative then -(n : Int) else n

/-- The float nearest to `± significand * 2 ^ exponent`, a tie going to the even significand. -/
def nearest (negative : Bool) (significand : Nat) (exponent : Int) : Float :=
  .ofModel (Float.Model.pack (Float.Model.UnpackedFloat.round Float.Model.Format.binary64
    (if negative then .negative else .positive) significand exponent))

/-- Rounds a float that is no integer by `round`, given the integer quotient that it denotes. -/
def toIntegral (round : Int → Int → Int) (x : Float) : Float :=
  match exact x with
  | .finite negative m e =>
      if e < 0 then Float.ofInt (round (signed negative m) (twoPow (-e).toNat)) else x
  | _ => x

def floor (x : Float) : Float :=
  toIntegral Int.fdiv x

def ceil (x : Float) : Float :=
  toIntegral (fun n d => -Int.fdiv (-n) d) x

def trunc (x : Float) : Float :=
  toIntegral Int.tdiv x

/-- The integer part of a finite float. -/
def integerPart (x : Float) : Int :=
  match exact x with
  | .finite negative m e =>
      if e < 0 then (signed negative m).tdiv (twoPow (-e).toNat)
      else signed negative m * twoPow e.toNat
  | _ => 0

/-- Whether a float is a finite number without a fraction. -/
def isIntegral (x : Float) : Bool :=
  match exact x with
  | .finite _ m e => decide (0 ≤ e) || m % twoPow (-e).toNat == 0
  | _ => false

/-- The remainder of the division of `x` by `y` towards zero. It has the sign of `x`, it is not a
number where the quotient is none, and an infinite divisor leaves `x`. -/
def remainder (x y : Float) : Float :=
  match exact x, exact y with
  | .finite negative mx ex, .finite _ my ey =>
      if my = 0 then 0.0 / 0.0
      else
        let e := min ex ey
        nearest negative ((mx * twoPow (ex - e).toNat) % (my * twoPow (ey - e).toNat)) e
  | .finite .., .infinite _ => x
  | _, _ => 0.0 / 0.0

end RecordQuery.Decimal
