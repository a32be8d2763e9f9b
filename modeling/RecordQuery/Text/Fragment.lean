import RecordQuery.Text.CodeRanges

/-! # Fragments of texts

Where one text stands inside another, and the cuts and replacements made there; and texts without
the blanks at their ends. Texts are lists of characters, so positions and lengths count characters.
-/

namespace RecordQuery.Text

/-- The first position at which `needle` stands in a text. -/
def indexOf? (needle : List Char) : List Char → Option Nat
  | [] => if needle.isEmpty then some 0 else none
  | c :: rest =>
      if needle.isPrefixOf (c :: rest) then some 0
      else (indexOf? needle rest).map (· + 1)

/-- The first position not before `start` at which `needle` stands in a text. -/
def indexFrom? (needle : List Char) (start : Nat) (cs : List Char) : Option Nat :=
  (indexOf? needle (cs.drop start)).map (· + start)

/-- A text that has a nonempty `needle` is not empty. -/
theorem ne_nil_of_indexOf? {needle cs : List Char} {i : Nat} (hneedle : needle ≠ [])
    (h : indexOf? needle cs = some i) : cs ≠ [] := by
  rintro rfl
  simp [indexOf?, hneedle] at h

/-- What follows an occurrence of a nonempty `needle` is shorter than the text. -/
theorem length_sub_lt_of_indexOf? {needle cs : List Char} {i : Nat} (hneedle : needle ≠ [])
    (h : indexOf? needle cs = some i) : cs.length - (i + needle.length) < cs.length := by
  have hcs := List.length_pos_iff.mpr (ne_nil_of_indexOf? hneedle h)
  have hlen := List.length_pos_iff.mpr hneedle
  omega

/-- The pieces of a text between the places where a nonempty separator stands, found
from the left. -/
def splitOn (separator cs : List Char) : List (List Char) :=
  if hsep : separator = [] then [cs]
  else
    match h : indexOf? separator cs with
    | none => [cs]
    | some i =>
        have := length_sub_lt_of_indexOf? hsep h
        cs.take i :: splitOn separator (cs.drop (i + separator.length))
termination_by cs.length

/-- The pieces joined with a separator between them. -/
def join (separator : List Char) : List (List Char) → List Char
  | [] => []
  | [piece] => piece
  | piece :: next :: rest => piece ++ separator ++ join separator (next :: rest)

/-- The text with the first occurrence of `needle` replaced. -/
def replaceFirst (needle replacement cs : List Char) : List Char :=
  match indexOf? needle cs with
  | none => cs
  | some i => cs.take i ++ replacement ++ cs.drop (i + needle.length)

/-! ## Blank characters

They separate tokens and parameters, and conversions to numbers ignore them at both ends of a text.
-/

/-- The ranges of the property White_Space. -/
def blankRanges : List (Nat × Nat) :=
  [(0x9, 0xD), (0x20, 0x20), (0x85, 0x85), (0xA0, 0xA0), (0x1680, 0x1680), (0x2000, 0x200A),
   (0x2028, 0x2029), (0x202F, 0x202F), (0x205F, 0x205F), (0x3000, 0x3000)]

def isBlank (c : Char) : Bool :=
  inRanges blankRanges c.toNat

def trimStart (cs : List Char) : List Char :=
  cs.dropWhile isBlank

def trimEnd (cs : List Char) : List Char :=
  (cs.reverse.dropWhile isBlank).reverse

def trim (cs : List Char) : List Char :=
  trimEnd (trimStart cs)

end RecordQuery.Text
