import RecordQuery.Pattern

/-! # Flags of patterns

Flags say how the parts of a pattern are to be understood. Each is turned on by a letter, and off by
the letter behind a hyphen.
-/

namespace RecordQuery.Pattern

/-- How the parts of a pattern are to be understood. -/
structure Flags where
  ignoreCase : Bool
  multiLine : Bool
  dotAll : Bool
  verbose : Bool
  lineBreaks : Bool
  asciiOnly : Bool
deriving DecidableEq, Repr

namespace Flags

def none : Flags := ⟨false, false, false, false, false, false⟩

/-- Sets a flag by its letter; none if there is no such flag. Which of several matches is preferred
makes no difference to whether there is one. -/
def set? (f : Flags) (letter : Char) (value : Bool) : Option Flags :=
  match letter with
  | 'i' => some { f with ignoreCase := value }
  | 'm' => some { f with multiLine := value }
  | 's' => some { f with dotAll := value }
  | 'x' => some { f with verbose := value }
  | 'R' => some { f with lineBreaks := value }
  | 'u' => some { f with asciiOnly := !value }
  | 'U' => some f
  | _ => Option.none

/-- Reads flags up to a colon or a closing parenthesis: letters, and those behind a hyphen are
turned off. No letter may repeat, and a hyphen needs letters behind it. Yields the flags, the
letters in reverse, the character that ends them and the rest. -/
def read? (f : Flags) (value : Bool) (seen : List Char) :
    List Char → Option (Flags × List Char × Char × List Char)
  | [] => Option.none
  | c :: rest =>
      if c = ':' ∨ c = ')' then
        if seen.head? = some '-' then Option.none else some (f, seen, c, rest)
      else if seen.contains c then Option.none
      else if c = '-' then read? f false (c :: seen) rest
      else
        match f.set? c value with
        | some f => read? f value (c :: seen) rest
        | Option.none => Option.none

/-- The rest of a pattern without the blanks and comments in front of it. A comment goes from a hash
sign to the end of the line. -/
def skipBlanks (inComment : Bool) : List Char → List Char
  | [] => []
  | c :: rest =>
      if inComment then skipBlanks (c != '\n') rest
      else if c = '#' then skipBlanks true rest
      else if Text.isBlank c then skipBlanks false rest
      else c :: rest

/-- The rest of a pattern from its next part on. -/
def skip (f : Flags) (cs : List Char) : List Char :=
  if f.verbose then skipBlanks false cs else cs

/-- The longest run of characters that satisfy `p`, without blanks and comments between them, and
the rest. -/
def span (f : Flags) (p : Char → Bool) (inComment : Bool) : List Char → List Char × List Char
  | [] => ([], [])
  | c :: rest =>
      if inComment then f.span p (c != '\n') rest
      else if f.verbose && c = '#' then f.span p true rest
      else if f.verbose && Text.isBlank c then f.span p false rest
      else if p c then
        let (run, rest) := f.span p false rest
        (c :: run, rest)
      else ([], c :: rest)

/-- A set with the characters that the flags do not tell from its own. -/
def widen (f : Flags) (s : CharSet) : CharSet :=
  if !f.ignoreCase then s else if f.asciiOnly then s.anyAsciiCase else s.anyCase

/-- The complement of a set. With ASCII characters only there is none, because it would have parts
of other characters. -/
def complement? (f : Flags) (s : CharSet) : Option CharSet :=
  if f.asciiOnly then Option.none else some s.negated

/-- A set or its complement, closed under letter case first if case is ignored. -/
def widenOrComplement? (f : Flags) (negated : Bool) (s : CharSet) : Option CharSet :=
  if negated then f.complement? (f.widen s) else some (f.widen s)

def digit (f : Flags) : CharSet := if f.asciiOnly then .asciiDigit else .digit

def blank (f : Flags) : CharSet := if f.asciiOnly then .asciiBlank else .blank

def word (f : Flags) : CharSet := if f.asciiOnly then .asciiWord else .word

/-- The set that a dot stands for. -/
def dot? (f : Flags) : Option CharSet :=
  if f.asciiOnly then Option.none
  else if f.dotAll then some .everything
  else if f.lineBreaks then some .notLineBreak
  else some .notLineFeed

/-- The anchor that a caret stands for. -/
def caret (f : Flags) : Anchor :=
  if !f.multiLine then .textStart else if f.lineBreaks then .breakStart else .lineStart

/-- The anchor that a dollar sign stands for. -/
def dollar (f : Flags) : Anchor :=
  if !f.multiLine then .textEnd else if f.lineBreaks then .breakEnd else .lineEnd

end Flags

end RecordQuery.Pattern
