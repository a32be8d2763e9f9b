import RecordQuery.Value.Conversion

/-! # Conversion functions

The functions that are called by their bare name. Two of them read a number at the front of a text
and ignore what follows it. For all builtins, a missing argument reads as undefined.
-/

namespace RecordQuery.Builtin

/-! ## Arguments -/

/-- The argument at a position. -/
def arg (args : List Value) (position : Nat) : Value :=
  args[position]?.getD .undefined

@[simp] theorem arg_nil (position : Nat) : arg [] position = .undefined := rfl

@[simp] theorem arg_cons_zero (v : Value) (rest : List Value) : arg (v :: rest) 0 = v := rfl

@[simp] theorem arg_cons_succ (v : Value) (rest : List Value) (n : Nat) :
    arg (v :: rest) (n + 1) = arg rest n := rfl

/-! ## Conversions -/

/-- The value of a digit in radixes up to 36. -/
def digitValue? (c : Char) : Option Nat :=
  if c.isDigit then some (c.toNat - '0'.toNat)
  else if 'a' ≤ c ∧ c ≤ 'z' then some (c.toNat - 'a'.toNat + 10)
  else if 'A' ≤ c ∧ c ≤ 'Z' then some (c.toNat - 'A'.toNat + 10)
  else none

/-- The values of the digits at the front of a text. -/
def leadingDigits (radix : Nat) : List Char → List Nat
  | [] => []
  | c :: rest =>
      match digitValue? c with
      | some d => if d < radix then d :: leadingDigits radix rest else []
      | none => []

/-- The radix of an integer and the text of its digits. Without a radix or with sixteen, `0x` marks
a hexadecimal integer; a radix outside 2 to 36 reads nothing. -/
def integerRadix? (radix : Option Nat) (cs : List Char) : Option (Nat × List Char) :=
  let hexMarked :=
    match cs with
    | '0' :: 'x' :: rest | '0' :: 'X' :: rest => some rest
    | _ => none
  match radix, hexMarked with
  | none, some rest | some 16, some rest => some (16, rest)
  | none, none => some (10, cs)
  | some r, _ => if 2 ≤ r ∧ r ≤ 36 then some (r, cs) else none

/-- The integer at the front of a text, summed up in floats from its first digit on. -/
def parseInteger (cs : List Char) (radix : Option Nat) : Float :=
  let (negative, rest) := Decimal.splitSign (Text.trimStart cs)
  match integerRadix? radix rest with
  | none => nan
  | some (r, rest) =>
      match leadingDigits r rest with
      | [] => nan
      | digits =>
          let magnitude := digits.foldl (fun acc d => acc * Float.ofNat r + Float.ofNat d) 0.0
          if negative then -magnitude else magnitude

/-- The decimal number at the front of a text: an infinity, or the longest literal. -/
def parseDecimal (cs : List Char) : Float :=
  let text := Text.trimStart cs
  let (negative, rest) := Decimal.splitSign text
  if "Infinity".toList.isPrefixOf rest then
    if negative then -infinity else infinity
  else
    let length := Decimal.literalLength rest
    if length = 0 then nan
    else
      match Decimal.readFloat? (rest.take length) with
      | some x => if negative then -x else x
      | none => nan

/-- The radix that an argument denotes: none if it is missing or zero, and an invalid one if it is
negative or has more than 32 bits. -/
def radixOf (v : Value) : Option Nat :=
  match v with
  | .undefined => none
  | v =>
      let n := v.toInteger
      if n = 0 then none else if 0 < n ∧ n < 4294967296 then some n.toNat else some 0

def ConversionFn.apply (f : ConversionFn) (args : List Value) : Value :=
  match f with
  | .toText =>
      match args with
      | [] => .ofString ""
      | v :: _ => .ofChars v.chars
  | .toNumber =>
      match args with
      | [] => .ofFloat 0.0
      | v :: _ => .ofFloat v.toNumber
  | .toBoolean => .ofBool (arg args 0).isTruthy
  | .parseInteger => .ofFloat (parseInteger (arg args 0).chars (radixOf (arg args 1)))
  | .parseDecimal => .ofFloat (parseDecimal (arg args 0).chars)
  | .isNaN => .ofBool (arg args 0).toNumber.isNaN
  | .isFinite => .ofBool (arg args 0).toNumber.isFinite

end RecordQuery.Builtin
