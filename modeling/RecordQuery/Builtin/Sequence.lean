import RecordQuery.Builtin.Conversion
import RecordQuery.Text.Fragment
import RecordQuery.Text.LetterCase
import RecordQuery.Value.Equality
import RecordQuery.Value.Property

/-! # Methods of texts and arrays

Positions count characters or items, and are clamped to the text or array. Arguments that a text
takes for texts convert. Items of arrays are compared strictly.
-/

namespace RecordQuery.Builtin

/-! ## Texts -/

/-- The part of a list from one position up to another, empty if they are not in order. -/
def between {α : Type} (list : List α) (start stop : Nat) : List α :=
  if start < stop then (list.drop start).take (stop - start) else []

/-- The pieces of a text at a separator: the whole text without one, and the single characters if it
is empty. -/
def splitAt (separator : Value) (cs : List Char) : List (List Char) :=
  match separator with
  | .undefined => [cs]
  | separator =>
      if separator.chars = [] then cs.map fun c => [c] else Text.splitOn separator.chars cs

/-- The first elements of a list, as many as an argument allows; all of them if it is missing. -/
def limited {α : Type} (limit : Value) (list : List α) : List α :=
  match limit with
  | .undefined => list
  | limit => list.take limit.toInteger.toNat

/-- The position of an occurrence as a number, -1 if there is none. -/
def positionValue : Option Nat → Value
  | some i => .ofInt i
  | none => .ofInt (-1)

def TextFn.apply (f : TextFn) (cs : List Char) (args : List Value) : Value :=
  match f with
  | .toUpperCase => .ofChars (Text.toUpper cs)
  | .toLowerCase => .ofChars (Text.toLower cs)
  | .trim => .ofChars (Text.trim cs)
  | .charAt =>
      let i := (arg args 0).toInteger
      .ofChars (if i < 0 then [] else (cs.drop i.toNat).take 1)
  | .indexOf =>
      positionValue
        (Text.indexFrom? (arg args 0).chars ((arg args 1).clampedIndex cs.length 0) cs)
  | .includes =>
      .ofBool
        (Text.indexFrom? (arg args 0).chars ((arg args 1).clampedIndex cs.length 0) cs).isSome
  | .startsWith =>
      .ofBool ((arg args 0).chars.isPrefixOf (cs.drop ((arg args 1).clampedIndex cs.length 0)))
  | .endsWith =>
      .ofBool
        ((arg args 0).chars.isSuffixOf (cs.take ((arg args 1).clampedIndex cs.length cs.length)))
  | .slice =>
      .ofChars (between cs ((arg args 0).relativeIndex cs.length 0)
        ((arg args 1).relativeIndex cs.length cs.length))
  | .substring =>
      let a := (arg args 0).clampedIndex cs.length 0
      let b := (arg args 1).clampedIndex cs.length cs.length
      .ofChars (between cs (min a b) (max a b))
  | .substr =>
      let start := (arg args 0).relativeIndex cs.length 0
      .ofChars (limited (arg args 1) (cs.drop start))
  | .split =>
      let pieces := limited (arg args 1) (splitAt (arg args 0) cs)
      .json (.array (pieces.map fun piece => .string (String.ofList piece)))
  | .concat => .ofChars (cs ++ args.flatMap Value.chars)
  | .replace => .ofChars (Text.replaceFirst (arg args 0).chars (arg args 1).chars cs)

/-! ## Arrays -/

/-- The first position not before `start` of an item that is strictly equal to a value. -/
def itemPosition? (items : List Json) (needle : Value) (start : Nat) : Option Nat :=
  ((items.drop start).findIdx? fun item => (Value.json item).strictEq needle).map (· + start)

/-- The items that a value adds to an array: its own if it is an array, else the value as data. -/
def spread : Value → List Json
  | .json (.array items) => items
  | v => [v.toJson]

def ArrayFn.apply (f : ArrayFn) (items : List Json) (args : List Value) : Value :=
  match f with
  | .indexOf =>
      positionValue
        (itemPosition? items (arg args 0) ((arg args 1).relativeIndex items.length 0))
  | .includes =>
      .ofBool
        (itemPosition? items (arg args 0) ((arg args 1).relativeIndex items.length 0)).isSome
  | .join =>
      let separator :=
        match arg args 0 with
        | .undefined => [',']
        | v => v.chars
      .ofChars (Text.join separator (Json.itemTexts items))
  | .slice =>
      .json (.array (between items ((arg args 0).relativeIndex items.length 0)
        ((arg args 1).relativeIndex items.length items.length)))
  | .concat => .json (.array (items ++ args.flatMap spread))

end RecordQuery.Builtin
