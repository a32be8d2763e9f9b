import RecordQuery.Pattern.ClassReader

/-! # The syntax of patterns

Literals, the dot, classes, anchors, groups, alternatives and repetitions. Flags hold from where
they are set to the end of their group. The reader keeps the groups that are open in a stack and
takes at least one character at a time. It counts how deep the parts of a pattern are nested, and
refuses what is nested too deep.
-/

namespace RecordQuery.Pattern

/-- The greatest depth of a pattern. -/
def depthLimit : Nat := 250

/-- A part of a pattern that has been read, how deep it is nested, and whether it can be repeated:
flags cannot. -/
structure Part where
  pattern : Pattern
  depth : Nat
  repeatable : Bool

/-- Parts one after the other, given from the last one. -/
def Part.ofParts (parts : List Part) : Part :=
  ⟨sequence (parts.reverse.map (·.pattern)), depthOfAll (parts.map (·.depth)), true⟩

/-- A group that is being read: its number if it has one, the flags outside of it, the alternatives
that are complete and the parts of the current one, each from the last one. -/
structure OpenGroup where
  number : Option Nat
  outerFlags : Flags
  alternatives : List Part
  parts : List Part

def OpenGroup.new (number : Option Nat) (outerFlags : Flags) : OpenGroup :=
  ⟨number, outerFlags, [], []⟩

/-- A group in which the next alternative starts. -/
def OpenGroup.alternate (g : OpenGroup) : OpenGroup :=
  { g with alternatives := .ofParts g.parts :: g.alternatives, parts := [] }

def OpenGroup.content (g : OpenGroup) : Part :=
  match g.alternatives with
  | [] => .ofParts g.parts
  | alternatives =>
      let all := (Part.ofParts g.parts :: alternatives).reverse
      ⟨choice (all.map (·.pattern)), depthOfAll (all.map (·.depth)), true⟩

/-- A group as a part of what it stands in. -/
def OpenGroup.close (g : OpenGroup) : Part :=
  let content := g.content
  let pattern :=
    match g.number with
    | none => content.pattern
    | some number => group number content.pattern
  ⟨pattern, content.depth + 1, true⟩

/-- What has been read of a pattern: the flags in force, the innermost group, the groups around it,
the number of the last group that has one, and the names of groups. -/
structure State where
  flags : Flags
  group : OpenGroup
  outer : List OpenGroup
  groups : Nat
  names : List (List Char)

def State.new (flags : Flags) : State := ⟨flags, .new none flags, [], 0, []⟩

/-- The state with one more part in the innermost group. -/
def State.pushPart (s : State) (part : Part) : State :=
  { s with group := { s.group with parts := part :: s.group.parts } }

/-- The state with one more part that has no parts of its own. -/
def State.push (s : State) (p : Pattern) : State :=
  s.pushPart ⟨p, 0, true⟩

def State.openGroup (s : State) (flags : Flags) : State :=
  { s with flags := flags, group := .new none s.flags, outer := s.group :: s.outer }

def State.openNumbered (s : State) : State :=
  { s with
    group := .new (some (s.groups + 1)) s.flags, outer := s.group :: s.outer,
    groups := s.groups + 1 }

/-- The state outside of the innermost group, if there is one around it. -/
def State.closeGroup? (s : State) : Option State :=
  match s.outer with
  | [] => none
  | next :: outer =>
      some ({ s with flags := s.group.outerFlags, group := next, outer := outer }.pushPart
        s.group.close)

/-- The state with the part for a character under the flags in force. -/
def State.pushChar (s : State) (c : Char) : State :=
  s.push (chars (s.flags.widen (.single c)))

def isGroupName : List Char → Bool
  | [] => false
  | c :: rest =>
      (c == '_' || Text.isAlphabetic c) &&
        rest.all fun c => c == '_' || c == '.' || c == '[' || c == ']' || Text.isAlphanumeric c

/-- Reads the name of a group up to its closing angle bracket. No two groups have the same name. -/
def readNamedGroup? (s : State) (cs : List Char) : Option (State × List Char) :=
  let name := cs.takeWhile (· ≠ '>')
  match cs.drop name.length with
  | '>' :: rest =>
      if isGroupName name ∧ !s.names.contains name then
        some ({ s.openNumbered with names := name :: s.names }, rest)
      else none
  | _ => none

/-- Reads what follows an opening parenthesis. There is no looking ahead or behind. -/
def readGroup? (s : State) (cs : List Char) : Option (State × List Char) :=
  match s.flags.skip cs with
  | '?' :: '=' :: _ | '?' :: '!' :: _ => none
  | '?' :: '<' :: '=' :: _ | '?' :: '<' :: '!' :: _ => none
  | '?' :: 'P' :: '<' :: rest => readNamedGroup? s rest
  | '?' :: '<' :: rest => readNamedGroup? s rest
  | '?' :: rest =>
      match Flags.read? s.flags true [] rest with
      | some (flags, _, ':', rest) => some (s.openGroup flags, rest)
      | some (flags, _ :: _, _, rest) =>
          some ({ s with flags := flags }.pushPart ⟨empty, 0, false⟩, rest)
      | _ => none
  | rest => some (s.openNumbered, rest)

/-- Repeats the last part of the innermost group, if there is one that can be repeated. -/
def State.repeatLast? (s : State) (least : Nat) (most : Option Nat) : Option State :=
  match s.group.parts with
  | [] => none
  | last :: parts =>
      if last.repeatable then
        let part : Part := ⟨repeating last.pattern least most, last.depth + 1, true⟩
        some { s with group := { s.group with parts := part :: parts } }
      else none

/-- A repetition mark may be followed by a question mark, which changes the match that is preferred
and not whether there is one. -/
def dropLazy : List Char → List Char
  | '?' :: rest => rest
  | cs => cs

/-- Reads a count with blanks around it. -/
def readCount? (f : Flags) (cs : List Char) : Option (Nat × List Char) :=
  let (digits, rest) := f.span Char.isDigit false ((f.skip cs).dropWhile Text.isBlank)
  let value := Decimal.digitsValue digits
  if digits = [] ∨ 4294967296 ≤ value then none else some (value, rest.dropWhile Text.isBlank)

/-- Reads the counts of a repetition after its opening brace: one count, a least one, or a least and
a greatest one. -/
def readCounts? (f : Flags) (cs : List Char) : Option (Nat × Option Nat × List Char) :=
  match readCount? f cs with
  | none => none
  | some (least, '\x7d' :: rest) => some (least, some least, rest)
  | some (least, ',' :: rest) =>
      match f.skip rest with
      | '\x7d' :: rest => some (least, none, rest)
      | rest =>
          match readCount? f rest with
          | some (most, '\x7d' :: rest) =>
              if least ≤ most then some (least, some most, rest) else none
          | _ => none
  | some _ => none

/-- Reads a part of a pattern; none if it is malformed. -/
def readPart? (s : State) (c : Char) (rest : List Char) : Option (State × List Char) :=
  let repeated (least : Nat) (most : Option Nat) : Option (State × List Char) :=
    (s.repeatLast? least most).map fun s => (s, dropLazy rest)
  match c with
  | '(' => readGroup? s rest
  | ')' => s.closeGroup?.map fun s => (s, rest)
  | '|' => some ({ s with group := s.group.alternate }, rest)
  | '[' =>
      (readClass? s.flags rest).map fun r =>
        (s.pushPart ⟨chars r.1.set, r.1.depth, true⟩, r.2)
  | '*' => repeated 0 none
  | '+' => repeated 1 none
  | '?' => repeated 0 (some 1)
  | '\x7b' =>
      match readCounts? s.flags rest with
      | none => none
      | some (least, most, rest) =>
          (s.repeatLast? least most).map fun next => (next, dropLazy (s.flags.skip rest))
  | '.' => s.flags.dot?.map fun set => (s.push (chars set), rest)
  | '^' => some (s.push (anchor s.flags.caret), rest)
  | '$' => some (s.push (anchor s.flags.dollar), rest)
  | '\\' =>
      match readEscape? s.flags rest with
      | none => none
      | some (.char c, rest) => some (s.pushChar c, rest)
      | some (.set set, rest) => some (s.push (chars set), rest)
      | some (.anchor a, rest) => some (s.push (anchor a), rest)
  | c => some (s.pushChar c, rest)

/-- Reads the rest of a pattern. All groups must be closed, and each round takes at least one
character. -/
def readFrom? (s : State) : (fuel : Nat) → List Char → Option Pattern
  | 0, _ => none
  | fuel + 1, cs =>
      match s.flags.skip cs with
      | [] =>
          if s.outer.isEmpty ∧ s.group.content.depth ≤ depthLimit then
            some s.group.content.pattern
          else none
      | c :: rest =>
          match readPart? s c rest with
          | none => none
          | some (s, rest) => readFrom? s fuel rest

/-- Reads a pattern under flags; none if it is malformed. -/
def read? (flags : Flags) (cs : List Char) : Option Pattern :=
  readFrom? (.new flags) (cs.length + 1) cs

end RecordQuery.Pattern
