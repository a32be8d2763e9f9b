import RecordQuery.Pattern

/-! # Matching

A text is read once, one character at a time, while marks move through a pattern: a set of
characters is marked when some match that has begun has just taken a character from it. All matches
are followed at once, so none is preferred to another and none is missed, and the work is that of
the size of the pattern for each character.
-/

namespace RecordQuery

/-- A position in a text: the characters before and after it. -/
structure Place where
  before : Option Char
  after : Option Char
deriving DecidableEq, Repr

/-- Whether a character belongs to a word. -/
def inWord (asciiOnly : Bool) (c : Option Char) : Bool :=
  c.any (if asciiOnly then CharSet.asciiWord else CharSet.word).contains

/-- Whether a condition holds, given whether the characters before and after belong to words. -/
def WordEdge.holds (before after : Bool) : WordEdge → Bool
  | boundary => before != after
  | noBoundary => before == after
  | start => !before && after
  | finish => before && !after
  | startHalf => !before
  | finishHalf => !after

/-- Whether a position satisfies an anchor. -/
def Anchor.holds (place : Place) : Anchor → Bool
  | textStart => place.before.isNone
  | textEnd => place.after.isNone
  | lineStart => place.before.all (· == '\n')
  | lineEnd => place.after.all (· == '\n')
  | breakStart =>
      place.before.all fun c => c == '\n' || (c == '\r' && place.after != some '\n')
  | breakEnd =>
      place.after.all fun c => c == '\r' || (c == '\n' && place.before != some '\r')
  | word edge asciiOnly => edge.holds (inWord asciiOnly place.before) (inWord asciiOnly place.after)

/-- A pattern with marks on the sets that a character was just taken from. What has parts knows
whether there is a mark in them. -/
inductive Marked where
  | empty
  | chars (set : CharSet) (taken : Bool)
  | anchor (a : Anchor)
  | concat (live : Bool) (p q : Marked)
  | alternative (live : Bool) (p q : Marked)
  | plus (live : Bool) (p : Marked)
deriving Repr, Inhabited

namespace Marked

/-- Whether there is a mark. -/
def live : Marked → Bool
  | empty | anchor _ => false
  | chars _ taken => taken
  | concat live _ _ | alternative live _ _ | plus live _ => live

def append (p q : Marked) : Marked := concat (p.live || q.live) p q

def either (p q : Marked) : Marked := alternative (p.live || q.live) p q

/-- A pattern one or more times. -/
def again (p : Marked) : Marked := plus p.live p

def times (p : Marked) : Nat → Marked
  | 0 => empty
  | 1 => p
  | n + 2 => append (times p (n / 2 + 1)) (times p (n - n / 2 + 1))
decreasing_by all_goals omega

/-- A pattern without marks. -/
def ofPattern : Pattern → Marked
  | .empty => empty
  | .chars set => chars set false
  | .anchor a => anchor a
  | .concat p q => append (ofPattern p) (ofPattern q)
  | .alternative p q => either (ofPattern p) (ofPattern q)
  | .repeated p least most =>
      let p := ofPattern p
      match least, most with
      | 0, none => either empty p.again
      | least + 1, none => append (times p least) p.again
      | least, some most => append (times p least) (times (either empty p) (most - least))
  | .group _ p => ofPattern p

/-- Whether an empty match lies at a position. -/
def passable (place : Place) : Marked → Bool
  | empty => true
  | chars _ _ => false
  | anchor a => a.holds place
  | concat _ p q => p.passable place && q.passable place
  | alternative _ p q => p.passable place || q.passable place
  | plus _ p => p.passable place

/-- Whether a match that has begun before ends at a position. -/
def reached (place : Place) : Marked → Bool
  | empty | anchor _ => false
  | chars _ taken => taken
  | concat live p q =>
      live && (q.reached place || (p.reached place && q.passable place))
  | alternative live p q => live && (p.reached place || q.reached place)
  | plus _ p => p.reached place

/-- The marks after the character that follows a position, given whether a match begins there.
Without marks and a beginning there is nothing to follow. -/
def advance (place : Place) (begun : Bool) (p : Marked) : Marked :=
  if !begun && !p.live then p
  else
    match p with
    | empty => empty
    | anchor a => anchor a
    | chars set _ => chars set (begun && place.after.any set.contains)
    | concat _ p q =>
        let between := p.reached place || (begun && p.passable place)
        append (p.advance place begun) (q.advance place between)
    | alternative _ p q => either (p.advance place begun) (q.advance place begun)
    | plus _ p => again (p.advance place (begun || p.reached place))

/-- Where no match begins, a pattern without marks stays without marks. -/
theorem advance_of_not_live {p : Marked} (h : p.live = false) (place : Place) :
    p.advance place false = p := by
  unfold advance
  simp [h]

/-- Whether some match ends in the rest of a text, given the character before it. A match may begin
at every position. -/
def endsIn (p : Marked) (before : Option Char) : List Char → Bool
  | [] => p.reached ⟨before, none⟩ || p.passable ⟨before, none⟩
  | c :: rest =>
      let place : Place := ⟨before, some c⟩
      p.reached place || p.passable place || endsIn (p.advance place true) (some c) rest

end Marked

def Pattern.isMatch (p : Pattern) (text : List Char) : Bool :=
  (Marked.ofPattern p).endsIn none text

end RecordQuery
