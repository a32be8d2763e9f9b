import RecordQuery.Value.Conversion

/-! # Arithmetic and order of values

Operators work on the numbers of their operands, except that addition joins texts as soon as one
operand is a text, and that two texts compare by code points. A comparison with NaN has no outcome.
-/

namespace RecordQuery

namespace Value

/-! ## Arithmetic -/

/-- Sum, or the joined texts if one side is a text. -/
def add (a b : Value) : Value :=
  match a.primitive, b.primitive with
  | json (.string s), q => ofString (s ++ q.toText)
  | p, json (.string t) => ofString (p.toText ++ t)
  | p, q => ofFloat (p.toNumber + q.toNumber)

def sub (a b : Value) : Value := ofFloat (a.toNumber - b.toNumber)

def mul (a b : Value) : Value := ofFloat (a.toNumber * b.toNumber)

def div (a b : Value) : Value := ofFloat (a.toNumber / b.toNumber)

/-- Remainder with the sign of the dividend. -/
def rem (a b : Value) : Value := ofFloat (Decimal.remainder a.toNumber b.toNumber)

def negate (a : Value) : Value := ofFloat (-a.toNumber)

end Value

/-! ## Order -/

/-- The order of two texts by code points. -/
def compareText (a b : String) : Ordering :=
  if a < b then .lt else if a = b then .eq else .gt

/-- The order of two floats, none if one is NaN. -/
def compareFloat? (x y : Float) : Option Ordering :=
  if x < y then some .lt
  else if x == y then some .eq
  else if y < x then some .gt
  else none

namespace Value

/-- The order of two values, none if they are not comparable. -/
def compare? (a b : Value) : Option Ordering :=
  match a.primitive, b.primitive with
  | json (.string s), json (.string t) => some (compareText s t)
  | p, q => compareFloat? p.toNumber q.toNumber

def lt (a b : Value) : Bool := a.compare? b == some .lt

def le (a b : Value) : Bool := a.compare? b == some .lt || a.compare? b == some .eq

def gt (a b : Value) : Bool := a.compare? b == some .gt

def ge (a b : Value) : Bool := a.compare? b == some .gt || a.compare? b == some .eq

end Value

end RecordQuery
