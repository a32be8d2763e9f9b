import RecordQuery.Text.CaseTables
import RecordQuery.Text.CodeRanges

/-! # Letter case

The upper and lower case of a text. A letter may become a sequence, and a capital sigma at the end
of a word has a lower case of its own. Folding sends letters that differ in case only to the same
letter.
-/

namespace RecordQuery.Text

/-- Whether a run lists a code point. -/
def CaseRun.lists (run : CaseRun) (code : Nat) : Bool :=
  run.first ≤ code && code ≤ run.last && (code - run.first) % run.step == 0

/-- The counterpart of a character under the first run that lists it, or the character itself. -/
def counterpart : List CaseRun → Char → Char
  | [], c => c
  | run :: rest, c =>
      if c.toNat < run.first then c
      else if run.lists c.toNat then Char.ofNat (c.toNat + run.shift).toNat
      else counterpart rest c

/-- The counterpart of a character, which a table of sequences may override. -/
def mapCase (sequences : List (Nat × List Nat)) (runs : List CaseRun) (c : Char) : List Char :=
  match sequences.lookup c.toNat with
  | some codes => codes.map Char.ofNat
  | none => [counterpart runs c]

def upper (c : Char) : List Char :=
  mapCase upperSequences upperRuns c

/-- The lower case of a character that stands alone. -/
def lower (c : Char) : List Char :=
  mapCase lowerSequences lowerRuns c

/-- The representative of the characters that differ from `c` in case only. -/
def fold (c : Char) : Char :=
  counterpart foldRuns c

/-- The code points that a run lists, each with its counterpart. -/
def CaseRun.pairs (run : CaseRun) : List (Nat × Nat) :=
  (List.range ((run.last - run.first) / run.step + 1)).map fun i =>
    let code := run.first + i * run.step
    (code, (code + run.shift).toNat)

/-- The letters that folding changes, each with its representative. -/
def foldPairs : List (Nat × Nat) :=
  foldRuns.flatMap CaseRun.pairs

/-- Whether the first character that is not passed over has a case. -/
def meetsCased (cs : List Char) : Bool :=
  match cs.dropWhile (fun c => inRanges caseIgnorableRanges c.toNat) with
  | [] => false
  | c :: _ => inRanges casedRanges c.toNat

/-- The lower case of a text, given the reversed text before it. A capital sigma is final when a
cased character comes before it and none after it. -/
def lowerAfter (before : List Char) : List Char → List Char
  | [] => []
  | c :: rest =>
      (if c = 'Σ' then
        [if meetsCased before && !meetsCased rest then 'ς' else 'σ']
      else lower c) ++ lowerAfter (c :: before) rest

def toUpper (cs : List Char) : List Char :=
  cs.flatMap upper

def toLower (cs : List Char) : List Char :=
  lowerAfter [] cs

end RecordQuery.Text
