import RecordQuery.Pattern
import RecordQuery.Text.ByteRanges

/-! # The size of patterns

A pattern is as large as the automaton that reads its texts byte by byte, forward or backward. A
state takes 32 bytes, a transition on a range of bytes 8 more if its state can have several, and a
choice of states 4 more for each. What is repeated is written out as often as its counts say.
Patterns that would take more than ten mebibytes in either direction are refused, before anything is
written out.
-/

namespace RecordQuery.Pattern

open Text (ByteRange byteSequences bytesOf)

/-- The bytes that a pattern may take. -/
def sizeLimit : Nat := 10485760

def stateSize : Nat := 32

def transitionSize : Nat := 8

def choiceSize : Nat := 4

/-- Sequences by what they start with: each start once, with the sequences of what follows it. Those
with the same start stand side by side. -/
def branches : List (List ByteRange) → List (ByteRange × List (List ByteRange))
  | [] => []
  | [] :: rest => branches rest
  | (r :: tail) :: rest =>
      match branches rest with
      | [] => [(r, [tail])]
      | (r', tails) :: others =>
          if r = r' then (r, tail :: tails) :: others else (r, [tail]) :: (r', tails) :: others

/-- The states that read sequences of at most `length` ranges forward, each as the sequences that
are left to be read. -/
def forwardStates : (length : Nat) → List (List ByteRange) → List (List (List ByteRange))
  | 0, _ => []
  | length + 1, sequences =>
      sequences :: ((branches sequences).filter fun b => b.2.any (· ≠ [])).flatMap fun b =>
        forwardStates length b.2

/-- The number of states that read sequences of at most `length` ranges backward: one for each
start of a sequence. -/
def backwardStates : (length : Nat) → List (List ByteRange) → Nat
  | 0, _ => 0
  | length + 1, sequences =>
      (branches sequences).foldl (fun n b => n + 1 + backwardStates length b.2) 0

/-- The size of a set. States with the same future are one state; backward, those with the same
past. -/
def setSize (back : Bool) (set : CharSet) : Nat :=
  match set.single? with
  | some c => stateSize * (bytesOf c).length
  | none =>
      if set.isAscii then 2 * stateSize + transitionSize * set.ranges.length
      else
        let sequences := set.ranges.flatMap byteSequences
        if back then
          (2 + backwardStates 4 sequences) * stateSize + choiceSize * sequences.length
        else
          (forwardStates 4 sequences).eraseDups.foldl
            (fun n state => n + stateSize + transitionSize * (branches state).length) stateSize

/-- The bytes of a pattern for a single text. -/
def word? (p : Pattern) : Option (List Nat) :=
  let chars := p.parts.filterMap char?
  if chars ≠ [] ∧ chars.length = p.parts.length then some (chars.flatMap bytesOf) else none

/-- Words as runs between the ends of words: an empty word is an end. -/
def runs : List (List Nat) → List (List (List Nat))
  | [] => [[]]
  | [] :: rest => [] :: runs rest
  | word :: rest =>
      match runs rest with
      | [] => [[word]]
      | run :: others => (word :: run) :: others

/-- The size of the tree of words of at most `length` bytes. The words of a run share what they
start with, and those that come after the end of a word do not share with those before it. -/
def treeSize : (length : Nat) → List (List Nat) → Nat
  | 0, _ => 0
  | length + 1, words =>
      if words.all (· = []) then 0
      else
        let ends := (words.takeWhile (· = [])).take 1
        let runs := runs (ends ++ words.dropWhile (· = []))
        let used := runs.filter (· ≠ [])
        let runSize (run : List (List Nat)) : Nat :=
          let starts := (run.filterMap List.head?).eraseDups
          let rests := starts.map fun b => (run.filter (·.head? = some b)).map List.tail
          (if starts.length = 1 then stateSize
            else stateSize + transitionSize * starts.length) +
            (rests.map (treeSize length)).sum
        stateSize + choiceSize * (used.length + (runs.length - 1)) + (used.map runSize).sum

/-- The size of a choice between words. -/
def wordsSize (back : Bool) (words : List (List Nat)) : Nat :=
  let words := if back then words.map List.reverse else words
  let longest := (words.map List.length).foldl max 0
  stateSize + treeSize (longest + 1) words

/-- The least length of a text that a pattern describes, if there is one and it is known. -/
def leastLength? : Pattern → Option Nat
  | empty | anchor _ => some 0
  | chars set => if set.ranges = [] then none else some 1
  | concat p q => do return (← p.leastLength?) + (← q.leastLength?)
  | alternative p q => do return min (← p.leastLength?) (← q.leastLength?)
  | repeated p least _ => do return (← p.leastLength?) * least
  | group _ p => p.leastLength?

/-- The size of a repetition of what has a given size. -/
def repeatedSize (canBeEmpty : Bool) (size least : Nat) (most : Option Nat) : Nat :=
  let branch := stateSize + 2 * choiceSize
  match least, most with
  | 0, none => if canBeEmpty then size + 2 * branch + stateSize else size + branch
  | least, none => least * size + branch
  | 0, some 1 => size + branch + stateSize
  | least, some most =>
      if least = most then least * size
      else
        (if least = 0 then stateSize else least * size) + stateSize +
          (most - least) * (size + branch)

/-- The size of a pattern, as an alternative of a choice or by itself. -/
def size (back : Bool) (inChoice : Bool) : Pattern → Nat
  | alternative p q =>
      let alternatives := p.alternatives ++ q.alternatives
      let words := alternatives.filterMap word?
      if inChoice then p.size back true + q.size back true
      else if words.length = alternatives.length then wordsSize back words
      else p.size back true + q.size back true + 2 * stateSize
  | p =>
      (match p with
      | chars set => setSize back set
      | concat p q => p.size back false + q.size back false
      | repeated p least most =>
          repeatedSize (p.leastLength?.all (· = 0)) (p.size back false) least most
      | group _ p => p.size back false + if back then 0 else 2 * stateSize
      | _ => stateSize) + if inChoice then choiceSize else 0

/-- Whether all matches of a pattern begin at an anchor, or, backward, end at it. -/
def isAnchored (back : Bool) (a : Anchor) : Pattern → Bool
  | anchor b => a = b
  | concat p q =>
      if back then
        q.isAnchored back a || (q.hasNoLength && p.isAnchored back a)
      else p.isAnchored back a || (p.hasNoLength && q.isAnchored back a)
  | alternative p q => p.isAnchored back a && q.isAnchored back a
  | repeated p least _ => least ≠ 0 && p.isAnchored back a
  | group _ p => p.isAnchored back a
  | _ => false

/-- The size of the automaton of a pattern. What precedes a match is skipped by three states, unless
all matches begin at the start; a match as a whole is a group. -/
def automatonSize (back : Bool) (p : Pattern) : Nat :=
  let anchored := p.isAnchored back (if back then .textEnd else .textStart)
  (if anchored then stateSize else 3 * stateSize + transitionSize + 2 * choiceSize) +
    p.size back false + stateSize + if back then 0 else 2 * stateSize

/-- Whether a pattern is small enough in both directions. -/
def isWithinLimit (p : Pattern) : Bool :=
  p.automatonSize false ≤ sizeLimit && p.automatonSize true ≤ sizeLimit

end RecordQuery.Pattern
