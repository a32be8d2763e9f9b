import RecordQuery.Pattern.Flags
import RecordQuery.Value.Conversion

/-! # Escapes in patterns

What follows a backslash: a class of characters, a character by name or by code point, an anchor, or
a character that has a meaning of its own without the backslash.
-/

namespace RecordQuery.Pattern

/-- What an escape in a pattern stands for. -/
inductive Escape where
  | char (c : Char)
  | set (s : CharSet)
  | anchor (a : Anchor)
deriving Repr

/-- The characters with a meaning of their own in patterns. -/
def metaChars : List Char :=
  ['\\', '.', '+', '*', '?', '(', ')', '|', '[', ']', '\x7b', '\x7d', '^', '$', '#', '&', '-', '~']

/-- Whether an escape stands for the escaped character itself. -/
def escapesItself (c : Char) : Bool :=
  metaChars.contains c ||
    (decide (c.toNat < 128) && !c.isAlphanum && c != '<' && c != '>')

/-- The character with a code point in hexadecimal digits. -/
def hexChar? (digits : List Char) : Option Char :=
  match hexValue? digits with
  | some code => if code.isValidChar then some (Char.ofNat code) else none
  | none => none

def isHexDigit (c : Char) : Bool :=
  (hexDigitValue? c).isSome

def readHexDigits? (f : Flags) : Nat → List Char → Option (List Char × List Char)
  | 0, cs => some ([], cs)
  | _ + 1, [] => none
  | n + 1, c :: rest =>
      if isHexDigit c then
        (readHexDigits? f n (f.skip rest)).map fun r => (c :: r.1, r.2)
      else none

/-- Reads a code point after the escape letter: a fixed number of digits, or any number in braces.
Two digits are a byte, which has to be one of ASCII if there are no other characters. -/
def readHex? (f : Flags) (width : Nat) (cs : List Char) : Option (Char × List Char) :=
  match f.skip cs with
  | '\x7b' :: rest =>
      match f.span isHexDigit false rest with
      | (digits, '\x7d' :: rest) => (hexChar? digits).map fun c => (c, rest)
      | _ => none
  | cs =>
      match readHexDigits? f width cs with
      | none => none
      | some (digits, rest) =>
          match hexChar? digits with
          | none => none
          | some c =>
              if f.asciiOnly ∧ width = 2 ∧ 128 ≤ c.toNat then none else some (c, rest)

/-- Reads the name of a word edge in braces. Braces that do not hold a name are left for what
follows, as the counts of a repetition do. -/
def readWordEdge? (f : Flags) (cs : List Char) : Option (WordEdge × List Char) :=
  let isNameChar (c : Char) : Bool := c.isAlpha || c == '-'
  match cs with
  | '\x7b' :: rest =>
      match f.skip rest with
      | [] => none
      | c :: rest' =>
          if !isNameChar c then some (.boundary, cs)
          else
            match f.span isNameChar false (c :: rest') with
            | (name, '\x7d' :: rest) =>
                if name = "start".toList then some (.start, rest)
                else if name = "end".toList then some (.finish, rest)
                else if name = "start-half".toList then some (.startHalf, rest)
                else if name = "end-half".toList then some (.finishHalf, rest)
                else none
            | _ => none
  | _ => some (.boundary, cs)

/-- Reads what follows a backslash; none if there is no such escape. -/
def readEscape? (f : Flags) : List Char → Option (Escape × List Char)
  | [] => none
  | c :: rest =>
      let edge (e : WordEdge) : Escape := .anchor (.word e f.asciiOnly)
      match c with
      | 'd' => some (.set f.digit, rest)
      | 's' => some (.set f.blank, rest)
      | 'w' => some (.set f.word, rest)
      | 'D' => (f.complement? f.digit).map fun s => (.set s, rest)
      | 'S' => (f.complement? f.blank).map fun s => (.set s, rest)
      | 'W' => (f.complement? f.word).map fun s => (.set s, rest)
      | 'a' => some (.char '\x07', rest)
      | 'f' => some (.char '\x0c', rest)
      | 't' => some (.char '\t', rest)
      | 'n' => some (.char '\n', rest)
      | 'r' => some (.char '\r', rest)
      | 'v' => some (.char '\x0b', rest)
      | 'x' => (readHex? f 2 rest).map fun h => (.char h.1, h.2)
      | 'u' => (readHex? f 4 rest).map fun h => (.char h.1, h.2)
      | 'U' => (readHex? f 8 rest).map fun h => (.char h.1, h.2)
      | 'A' => some (.anchor .textStart, rest)
      | 'z' => some (.anchor .textEnd, rest)
      | 'b' => (readWordEdge? f rest).map fun e => (edge e.1, e.2)
      | 'B' => some (edge .noBoundary, rest)
      | '<' => some (edge .start, rest)
      | '>' => some (edge .finish, rest)
      | c => if escapesItself c then some (.char c, rest) else none

end RecordQuery.Pattern
