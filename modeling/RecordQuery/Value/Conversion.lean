import RecordQuery.Decimal.Literal
import RecordQuery.Text.Fragment
import RecordQuery.Value

/-! # Conversions of values

Every value has a number and a text. A text that denotes no number converts to NaN, and the blanks
around a number do not count. Arrays convert through their items.
-/

namespace RecordQuery

/-- The value of a hexadecimal digit. -/
def hexDigitValue? (c : Char) : Option Nat :=
  if c.isDigit then some (c.toNat - '0'.toNat)
  else if 'a' ≤ c ∧ c ≤ 'f' then some (c.toNat - 'a'.toNat + 10)
  else if 'A' ≤ c ∧ c ≤ 'F' then some (c.toNat - 'A'.toNat + 10)
  else none

/-- The value of a nonempty run of hexadecimal digits. -/
def hexValue? : List Char → Option Nat
  | [] => none
  | cs => cs.foldlM (fun n c => (hexDigitValue? c).map (16 * n + ·)) 0

def minInt64 : Int := -9223372036854775808

def maxInt64 : Int := 9223372036854775807

/-- A hexadecimal integer of 64 bits with an optional sign. -/
def hexInteger? (cs : List Char) : Option Int :=
  let (negative, digits) := Decimal.splitSign cs
  match hexValue? digits with
  | none => none
  | some n =>
      let value := Decimal.signed negative n
      if minInt64 ≤ value ∧ value ≤ maxInt64 then some value else none

def nan : Float := 0.0 / 0.0

def infinity : Float := 1.0 / 0.0

/-- The number that a text denotes. The empty text is zero, the infinities are spelled out, `0x`
starts a hexadecimal integer, and all else is a decimal literal. -/
def textToNumber (cs : List Char) : Float :=
  match Text.trim cs with
  | [] => 0.0
  | '0' :: 'x' :: digits | '0' :: 'X' :: digits =>
      match hexInteger? digits with
      | some n => Float.ofInt n
      | none => nan
  | trimmed =>
      if trimmed = "Infinity".toList ∨ trimmed = "+Infinity".toList then infinity
      else if trimmed = "-Infinity".toList then -infinity
      else (Decimal.readFloat? trimmed).getD nan

/-- The number of a JSON value. An array of one item is the number of that item. -/
def Json.toFloat : Json → Float
  | null => 0.0
  | bool b => if b then 1.0 else 0.0
  | number n => n.toFloat
  | string s => textToNumber s.toList
  | array [] => 0.0
  | array [item] => item.toFloat
  | array _ => nan
  | object _ => nan

mutual

/-- The text of a JSON value. The items of an array are separated by commas. -/
def Json.chars : Json → List Char
  | .null => "null".toList
  | .bool b => if b then "true".toList else "false".toList
  | .number n => n.text
  | .string s => s.toList
  | .array items => Text.join [','] (Json.itemTexts items)
  | .object _ => "[object Object]".toList

/-- The texts of the items of an array. A null item is empty. -/
def Json.itemTexts : List Json → List (List Char)
  | [] => []
  | .null :: rest => [] :: Json.itemTexts rest
  | item :: rest => Json.chars item :: Json.itemTexts rest

end

namespace Value

def toNumber : Value → Float
  | undefined | function _ | library _ => nan
  | nonFinite x => x
  | json j => j.toFloat

/-- The number of a value, with zero for NaN. -/
def toNumberOrZero (v : Value) : Float :=
  if v.toNumber.isNaN then 0.0 else v.toNumber

/-- The integer part of the number of a value, kept within 64 bits; zero for NaN. -/
def toInteger (v : Value) : Int :=
  match Decimal.exact v.toNumber with
  | .nan => 0
  | .infinite negative => if negative then minInt64 else maxInt64
  | .finite .. => max minInt64 (min maxInt64 (Decimal.integerPart v.toNumber))

def chars : Value → List Char
  | undefined => "undefined".toList
  | function f => ("function " ++ f.name ++ "() \x7b [native code] \x7d").toList
  | library name => ("[object " ++ name ++ "]").toList
  | nonFinite x => Decimal.numeralText x
  | json j => j.chars

def toText (v : Value) : String :=
  String.ofList v.chars

/-- The value as it takes part in operators: arrays, objects, functions and libraries
by their text. -/
def primitive (v : Value) : Value :=
  match v with
  | json (.array _) | json (.object _) | function _ | library _ => ofChars v.chars
  | v => v

/-- The float of a value that is a number already. -/
def asNumber? : Value → Option Float
  | nonFinite x => some x
  | json (.number n) => some n.toFloat
  | _ => none

end Value

end RecordQuery
