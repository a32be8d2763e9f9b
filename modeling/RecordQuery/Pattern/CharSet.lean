import RecordQuery.Text.Fragment
import RecordQuery.Text.LetterCase
import RecordQuery.Text.Numeric
import RecordQuery.Text.WordChar

/-! # Sets of characters

The sets that a pattern can name: ranges, the classes of digits, blanks and word characters, and the
combinations of these. A set closed under letter case holds with a character all those that differ
from it in case only. Equal sets have equal ranges.
-/

namespace RecordQuery

/-- A set of characters, as ranges of code points in ascending order with gaps between them. -/
structure CharSet where
  ranges : List (Nat × Nat)
deriving DecidableEq, Repr, Inhabited

namespace CharSet

def contains (s : CharSet) (c : Char) : Bool :=
  Text.inRanges s.ranges c.toNat

def range (first last : Char) : CharSet := ⟨[(first.toNat, last.toNat)]⟩

theorem contains_range (first last c : Char) :
    (range first last).contains c = (first ≤ c && c ≤ last) := by
  have hfirst : (first ≤ c) = (first.toNat ≤ c.toNat) := rfl
  have hlast : (c ≤ last) = (c.toNat ≤ last.toNat) := rfl
  simp only [contains, range, Text.inRanges, hfirst, hlast]
  by_cases h : c.toNat < first.toNat
  · simp [h, Nat.not_le.2 h]
  · simp [h, Nat.not_lt.1 h]

def single (c : Char) : CharSet := range c c

/-- The character of a set that has no other; none for all other sets. -/
def single? (s : CharSet) : Option Char :=
  match s.ranges with
  | [(first, last)] => if first = last then some (Char.ofNat first) else none
  | _ => none

def nothing : CharSet := ⟨[]⟩

@[simp] theorem contains_nothing (c : Char) : nothing.contains c = false := rfl

def everything : CharSet := ⟨[(0, Text.lastCode)]⟩

/-- The decimal digits of all scripts. -/
def digit : CharSet := ⟨Text.decimalDigitRanges⟩

def blank : CharSet := ⟨Text.blankRanges⟩

def word : CharSet := ⟨Text.wordRanges⟩

def union (a b : CharSet) : CharSet := ⟨Text.unionRanges a.ranges b.ranges⟩

def negated (a : CharSet) : CharSet := ⟨Text.complementRanges a.ranges⟩

/-- A complement holds the characters that the set does not. -/
theorem contains_negated {a : CharSet} (h : Text.AscendFrom 0 a.ranges) (c : Char) :
    a.negated.contains c = !a.contains c := by
  refine Text.inRanges_complementFrom h (Nat.zero_le _) ?_
  have hvalid : c.toNat < 0xD800 ∨ 0xDFFF < c.toNat ∧ c.toNat < 0x110000 := c.valid
  simp only [Text.lastCode]
  omega

def inter (a b : CharSet) : CharSet := ⟨Text.interRanges a.ranges b.ranges⟩

/-- The characters of the first set that are not in the second one. -/
def diff (a b : CharSet) : CharSet := a.inter b.negated

/-- The characters in one of two sets but not in both. -/
def symDiff (a b : CharSet) : CharSet := (a.union b).diff (a.inter b)

def unionAll (sets : List CharSet) : CharSet :=
  ⟨Text.sortRanges (sets.flatMap ranges)⟩

/-- A set with all the characters that pairs of a letter and its representative tie to one in the
set. -/
def closedUnder (pairs : List (Nat × Nat)) (s : CharSet) : CharSet :=
  let images := (pairs.filter fun p => Text.inRanges s.ranges p.1).map fun p => (p.2, p.2)
  let s := s.union ⟨Text.sortRanges images⟩
  let sources := (pairs.filter fun p => Text.inRanges s.ranges p.2).map fun p => (p.1, p.1)
  s.union ⟨Text.sortRanges sources⟩

/-- A set with all the characters that differ from one in the set in case only. -/
def anyCase (s : CharSet) : CharSet :=
  s.closedUnder Text.foldPairs

def isAscii (s : CharSet) : Bool :=
  s.ranges.all fun r => r.2 < 128

/-- A set with the ASCII letters that differ from one in the set in case only. -/
def anyAsciiCase (s : CharSet) : CharSet :=
  s.closedUnder (Text.foldPairs.filter fun p => p.1 < 128)

def notLineFeed : CharSet := negated (single '\n')

/-- All characters but the line feed and the carriage return. -/
def notLineBreak : CharSet := negated (union (single '\n') (single '\r'))

def asciiDigit : CharSet := range '0' '9'

def asciiLetter : CharSet := union (range 'A' 'Z') (range 'a' 'z')

def asciiBlank : CharSet := union (range '\t' '\r') (single ' ')

def asciiWord : CharSet := unionAll [asciiDigit, asciiLetter, single '_']

end CharSet

end RecordQuery
