import RecordQuery.Value.Property

/-! # Scopes

What a bare name in an expression can mean: a named binding, or a property of the environment record
if there is one. Bindings come first, and nothing else is in scope.
-/

namespace RecordQuery

/-- An environment record and the bindings before it. -/
structure Scope where
  env : Option Value
  bindings : List (String × Value)
deriving Inhabited

namespace Scope

def empty : Scope := ⟨none, []⟩

/-- The scope of the properties of a record. -/
def ofEnv (env : Value) : Scope := ⟨some env, []⟩

def erase (s : Scope) (name : String) : Scope :=
  { s with bindings := s.bindings.filter fun b => b.1 != name }

def bind (s : Scope) (name : String) (value : Value) : Scope :=
  { s with bindings := (name, value) :: (s.erase name).bindings }

/-- A scope in which names are bound one after the other. -/
def bindAll (s : Scope) (pairs : List (String × Value)) : Scope :=
  pairs.foldl (fun s pair => s.bind pair.1 pair.2) s

def binding? (s : Scope) (name : String) : Option Value :=
  s.bindings.lookup name

def binds (s : Scope) (name : String) : Bool :=
  (s.binding? name).isSome

/-- The meaning of a bare name: its binding, or else the property of the environment. A property of
anything but an object is there only if it is defined. -/
def lookup (s : Scope) (name : String) : Option Value :=
  match s.binding? name with
  | some v => some v
  | none =>
      match s.env with
      | none => none
      | some (.json (.object fields)) => (Fields.get? fields name).map .json
      | some env =>
          match env.property name with
          | .undefined => none
          | v => some v

end Scope

end RecordQuery
