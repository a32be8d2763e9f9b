import RecordQuery.Pattern.CharSet

/-! # Patterns

A pattern describes texts by sets of characters, conditions on positions, sequences, choices and
repetitions. The functions `sequence`, `choice` and `repeating` build these in a normal form: no
empty parts in a sequence, choices not nested, a choice of characters as one set, and what starts
all alternatives of a choice written once in front of it. Each describes the same texts as what it
was built from.
-/

namespace RecordQuery

/-- A condition on the characters at both sides of a position: which of them belong to words. -/
inductive WordEdge where
  | boundary
  | noBoundary
  | start
  | finish
  | startHalf
  | finishHalf
deriving DecidableEq, Repr

/-- A condition on a position in a text. A line ends at a line feed; for the breaks, also at a
carriage return, and not between the two. The word characters may be those of ASCII only. -/
inductive Anchor where
  | textStart
  | textEnd
  | lineStart
  | lineEnd
  | breakStart
  | breakEnd
  | word (edge : WordEdge) (asciiOnly : Bool)
deriving DecidableEq, Repr

inductive Pattern where
  | empty
  | chars (set : CharSet)
  | anchor (a : Anchor)
  | concat (p q : Pattern)
  | alternative (p q : Pattern)
  | repeated (p : Pattern) (least : Nat) (most : Option Nat)
  | group (number : Nat) (p : Pattern)
deriving DecidableEq, Repr, Inhabited

namespace Pattern

/-- The pattern that no text has. -/
def never : Pattern := chars .nothing

/-- Whether a pattern describes no text but the empty one, for want of sets. -/
def hasNoLength : Pattern → Bool
  | empty | anchor _ => true
  | chars _ => false
  | concat p q | alternative p q => p.hasNoLength && q.hasNoLength
  | repeated p _ most => most.isSome && p.hasNoLength
  | group _ p => p.hasNoLength

/-- A pattern a number of times. What has no length need not be repeated. -/
def repeating (p : Pattern) (least : Nat) (most : Option Nat) : Pattern :=
  let (least, most) :=
    if p.hasNoLength then (min least 1, some ((most.map (min 1)).getD 1))
    else (least, most)
  if least = 0 ∧ most = some 0 then empty
  else if least = 1 ∧ most = some 1 then p
  else repeated p least most

def parts : Pattern → List Pattern
  | empty => []
  | concat p q => p.parts ++ q.parts
  | p => [p]

def sequence (ps : List Pattern) : Pattern :=
  match (ps.flatMap parts).reverse with
  | [] => empty
  | last :: rest => rest.foldl (fun q p => concat p q) last

def alternatives : Pattern → List Pattern
  | alternative p q => p.alternatives ++ q.alternatives
  | p => [p]

/-- The set of a pattern for one character. -/
def charSet? : Pattern → Option CharSet
  | chars set => some set
  | _ => none

/-- The character of a pattern that describes no other text. -/
def char? (p : Pattern) : Option Char :=
  p.charSet?.bind CharSet.single?

/-- A choice of patterns. One of single characters, or of larger sets, is a set. -/
def plainChoice (ps : List Pattern) : Pattern :=
  let alternatives := ps.flatMap alternatives
  match alternatives.reverse with
  | [] => never
  | [p] => p
  | last :: rest =>
      let sets := alternatives.filterMap charSet?
      let singles := alternatives.filterMap char?
      if sets.length = alternatives.length ∧
          (singles.length = 0 ∨ singles.length = alternatives.length) then
        chars (.unionAll sets)
      else rest.foldl (fun q p => alternative p q) last

/-- The parts of a sequence, characters in a row taken together. -/
def units (p : Pattern) : List (List Pattern) :=
  p.parts.splitBy fun a b => a.char?.isSome && b.char?.isSome

/-- The longest list that two lists start with. -/
def commonStart : List (List Pattern) → List (List Pattern) → List (List Pattern)
  | a :: as, b :: bs => if a = b then a :: commonStart as bs else []
  | _, _ => []

/-- A choice of patterns. If all are sequences that start with the same parts, these come first. -/
def choice (ps : List Pattern) : Pattern :=
  match plainChoice ps with
  | alternative p q =>
      let sequences := (p.alternatives ++ q.alternatives).map units
      let start := sequences.tail.foldl commonStart (sequences.headD [])
      if start = [] ∨ sequences.any (·.length < 2) then alternative p q
      else
        let rests := sequences.map fun us => sequence (us.drop start.length).flatten
        sequence (start.flatten ++ [plainChoice rests])
  | p => p

end Pattern

end RecordQuery
