import RecordQuery.Json.Collections
import RecordQuery.Query.Accessor

/-! # Combinations of accessors

Negation, disjunction and conjunction of predicates, composition, choice, and membership in a list.
Predicates are tested from left to right until the outcome is decided, and the first one that fails
before is the failure of the whole.
-/

namespace RecordQuery.Accessor

def negation (a : Accessor) : Accessor :=
  new ("!" ++ a.name) fun d => (a.test d).map fun b => .ofBool !b

def conjunction (tests : List Accessor) : Accessor :=
  new "and" fun d => (tests.allM fun (a : Accessor) => a.test d).map .ofBool

def disjunction (tests : List Accessor) : Accessor :=
  new "or" fun d => (tests.anyM fun (a : Accessor) => a.test d).map .ofBool

def not (spec : Spec) : Except SyntaxError Accessor :=
  (expr spec).map negation

def and (specs : List Spec) : Except SyntaxError Accessor :=
  (exprs specs).map conjunction

def or (specs : List Spec) : Except SyntaxError Accessor :=
  (exprs specs).map disjunction

/-- The composition of specs, first to last. Texts are keys. -/
def compose (specs : List Spec) : Accessor :=
  new "composed" fun d => (specs.map property).foldlM (fun v a => a.call v) d

/-- One accessor or another, as a condition says. -/
def choice (condition consequent alternate : Accessor) : Accessor :=
  new "iff" fun d => do
    if ← condition.test d then consequent.call d else alternate.call d

def iff (condition consequent alternate : Spec) : Except SyntaxError Accessor := do
  let c ← expr condition
  let y ← expr consequent
  let n ← expr alternate
  return choice c y n

/-- The position of a value in a list under strict equality. -/
def positionIn? (items : List Json) (d : Value) : Option Nat :=
  items.findIdx? fun item => (Value.json item).strictEq d

/-- The position of the record among the leaves of a list, -1 if it is none of them. -/
def indexIn (items : List Json) : Accessor :=
  ofFunction "indexIn" fun d => Builtin.positionValue (positionIn? (Json.flatten items) d)

/-- Whether the record is among the leaves of a list. -/
def isIn (items : List Json) : Accessor :=
  ofFunction "isin" fun d =>
    .ofBool ((Json.flatten items).any fun item => (Value.json item).strictEq d)

end RecordQuery.Accessor
