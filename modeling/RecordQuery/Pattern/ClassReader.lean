import RecordQuery.Pattern.Escape

/-! # Character classes in patterns

What stands in brackets: characters, ranges, escapes, named classes and nested brackets, with a
caret in front for the complement, and `&&`, `--` and `~~` for intersection, difference and
symmetric difference. The reader counts how deep brackets, unions and operators are nested.
-/

namespace RecordQuery.Pattern

/-- The named classes of ASCII characters. -/
def namedClass? (name : String) : Option CharSet :=
  if name = "alnum" then some (.union .asciiLetter .asciiDigit)
  else if name = "alpha" then some .asciiLetter
  else if name = "ascii" then some (.range '\x00' '\x7f')
  else if name = "blank" then some (.union (.single ' ') (.single '\t'))
  else if name = "cntrl" then some (.union (.range '\x00' '\x1f') (.single '\x7f'))
  else if name = "digit" then some .asciiDigit
  else if name = "graph" then some (.range '!' '~')
  else if name = "lower" then some (.range 'a' 'z')
  else if name = "print" then some (.range ' ' '~')
  else if name = "punct" then
    some (.diff (.range '!' '~') (.union .asciiLetter .asciiDigit))
  else if name = "space" then some .asciiBlank
  else if name = "upper" then some (.range 'A' 'Z')
  else if name = "word" then some .asciiWord
  else if name = "xdigit" then some (.unionAll [.asciiDigit, .range 'a' 'f', .range 'A' 'F'])
  else none

/-- Reads a named class from the colon after its bracket on. Yields the class, whether its
complement is meant, and the rest; none if the bracket opens a class that is not named. -/
def readNamedClass? : List Char → Option (CharSet × Bool × List Char)
  | ':' :: rest =>
      let (negated, rest) :=
        match rest with
        | '^' :: rest => (true, rest)
        | rest => (false, rest)
      let name := rest.takeWhile (· ≠ ':')
      match rest.drop name.length with
      | ':' :: ']' :: rest => (namedClass? (String.ofList name)).map fun s => (s, negated, rest)
      | _ => none
  | _ => none

/-- Operators between the parts of a class. -/
inductive SetOp where
  | inter
  | diff
  | symDiff
deriving DecidableEq, Repr

def SetOp.apply : SetOp → CharSet → CharSet → CharSet
  | inter => .inter
  | diff => .diff
  | symDiff => .symDiff

/-- A set and how deep its spelling is nested. -/
structure ClassItem where
  set : CharSet
  depth : Nat
deriving Repr

/-- The depth of what consists of parts: one more than the deepest part, unless it is the only
one. -/
def depthOfAll : List Nat → Nat
  | [] => 0
  | [d] => d
  | d :: ds => ds.foldl max d + 1

/-- A class that is being read: whether it is a complement, the part before the last operator, and
the items since then, the last one first. -/
structure OpenClass where
  negated : Bool
  before : Option (SetOp × ClassItem)
  items : List ClassItem
deriving Repr

/-- A class with one more item. -/
def OpenClass.push (o : OpenClass) (i : ClassItem) : OpenClass :=
  { o with items := i :: o.items }

/-- The parts that have been read. If case is ignored, each operand is closed under letter case
before the operator is applied. -/
def OpenClass.operand (f : Flags) (o : OpenClass) : ClassItem :=
  let set := CharSet.unionAll (o.items.map (·.set))
  let depth := depthOfAll (o.items.map (·.depth))
  match o.before with
  | none => ⟨set, depth⟩
  | some (op, before) => ⟨op.apply (f.widen before.set) (f.widen set), max before.depth depth + 1⟩

/-- The set of a class; none if it has no complement. -/
def OpenClass.close? (f : Flags) (o : OpenClass) : Option ClassItem :=
  let operand := o.operand f
  (f.widenOrComplement? o.negated operand.set).map fun set => ⟨set, operand.depth + 1⟩

/-- Reads the hyphens at the start of a class. -/
def readHyphens (f : Flags) (o : OpenClass) : (fuel : Nat) → List Char → OpenClass × List Char
  | fuel + 1, '-' :: rest => readHyphens f (o.push ⟨.single '-', 0⟩) fuel (f.skip rest)
  | _, cs => (o, cs)

/-- Reads the start of a class after its bracket: a caret, hyphens, and a closing bracket in first
place stand for themselves. -/
def openClass (f : Flags) (cs : List Char) : OpenClass × List Char :=
  let (negated, cs) :=
    match f.skip cs with
    | '^' :: rest => (true, f.skip rest)
    | cs => (false, cs)
  let (opened, cs) := readHyphens f ⟨negated, none, []⟩ cs.length cs
  match opened.items, cs with
  | [], ']' :: rest => (opened.push ⟨.single ']', 0⟩, f.skip rest)
  | _, cs => (opened, cs)

/-- One item of a class: a single character, or a set. With ASCII characters only, there are no
others. -/
def readItem? (f : Flags) : List Char → Option (Escape × List Char)
  | [] => none
  | c :: rest =>
      match if c = '\\' then readEscape? f rest else some (.char c, rest) with
      | some (.char c, rest) =>
          if f.asciiOnly ∧ 128 ≤ c.toNat then none else some (.char c, rest)
      | some (.set s, rest) => some (.set s, rest)
      | _ => none

/-- The character that decides whether a hyphen makes a range. -/
def afterHyphen? (f : Flags) (rest : List Char) : Option Char :=
  if f.verbose then
    match rest.dropWhile Text.isBlank with
    | '#' :: rest => (rest.dropWhile Text.isBlank).head?
    | rest => rest.head?
  else rest.head?

/-- Reads an item or a range of a class. -/
def readRange? (f : Flags) (cs : List Char) : Option (CharSet × List Char) :=
  match readItem? f cs with
  | none => none
  | some (item, rest) =>
      let rest := f.skip rest
      let isRange :=
        match rest with
        | '-' :: after => afterHyphen? f after ≠ some ']' && afterHyphen? f after ≠ some '-'
        | _ => false
      match item with
      | .set s => if isRange then none else some (s, rest)
      | .char first =>
          if isRange then
            match readItem? f (f.skip rest.tail) with
            | some (.char last, rest) =>
                if first ≤ last then some (.range first last, rest) else none
            | _ => none
          else some (.single first, rest)
      | .anchor _ => none

/-- The operator at the front of a class, and the rest. -/
def readSetOp? : List Char → Option (SetOp × List Char)
  | '&' :: '&' :: rest => some (.inter, rest)
  | '-' :: '-' :: rest => some (.diff, rest)
  | '~' :: '~' :: rest => some (.symDiff, rest)
  | _ => none

/-- Reads a class up to its closing bracket, given the classes that are open, the innermost one
first. Each round takes at least one character. -/
def readClassFrom? (f : Flags) (opened : OpenClass) (outer : List OpenClass) :
    (fuel : Nat) → List Char → Option (ClassItem × List Char)
  | 0, _ => none
  | fuel + 1, cs =>
      match f.skip cs with
      | [] => none
      | '[' :: rest =>
          match readNamedClass? rest with
          | some (s, negated, rest) =>
              match f.widenOrComplement? negated s with
              | none => none
              | some s => readClassFrom? f (opened.push ⟨s, 0⟩) outer fuel rest
          | none =>
              let (inner, rest) := openClass f rest
              readClassFrom? f inner (opened :: outer) fuel rest
      | ']' :: rest =>
          match opened.close? f, outer with
          | none, _ => none
          | some item, [] => some (item, rest)
          | some item, next :: outer => readClassFrom? f (next.push item) outer fuel rest
      | cs =>
          match readSetOp? cs with
          | some (op, rest) =>
              readClassFrom? f ⟨opened.negated, some (op, opened.operand f), []⟩ outer fuel rest
          | none =>
              match readRange? f cs with
              | none => none
              | some (s, rest) => readClassFrom? f (opened.push ⟨s, 0⟩) outer fuel rest

/-- Reads a class after its opening bracket. -/
def readClass? (f : Flags) (cs : List Char) : Option (ClassItem × List Char) :=
  let (opened, rest) := openClass f cs
  readClassFrom? f opened [] (rest.length + 1) rest

end RecordQuery.Pattern
