import RecordQuery.Expr.Eval

/-! # Formulas

An expression with parameters, read once and called many times. A call binds the arguments to the
parameters by position: a missing argument is undefined, an extra one is ignored, and of parameters
of one name the last one counts.
-/

namespace RecordQuery

/-- An expression with parameters, the text it was read from, and how it is evaluated. -/
structure Formula where
  params : List String
  body : Expr
  source : String
  builtins : BuiltinMap
  strict : Bool

/-- What formulas are evaluated with: the builtins that they can call, and strictness. -/
structure FormulaOptions where
  builtins : BuiltinMap
  strict : Bool

/-- All builtins, and no strictness. -/
def FormulaOptions.standard : FormulaOptions := ⟨.standard, false⟩

namespace Formula

/-- Reads a formula with the given parameters. -/
def compile (options : FormulaOptions) (params : List String) (source : String) :
    Except SyntaxError Formula :=
  match Expr.parse source with
  | .error e => .error e
  | .ok body => .ok ⟨params, body, source, options.builtins, options.strict⟩

/-- Each parameter with its argument. -/
def arguments : List String → List Value → List (String × Value)
  | [], _ => []
  | param :: params, [] => (param, .undefined) :: arguments params []
  | param :: params, arg :: args => (param, arg) :: arguments params args

/-- The value of a formula in a scope that the arguments are added to. -/
def run (f : Formula) (scope : Scope) (args : List Value) : Except EvalError Value :=
  f.body.eval ⟨scope.bindAll (arguments f.params args), f.builtins, f.strict⟩

def call (f : Formula) (args : List Value) : Except EvalError Value :=
  f.run .empty args

/-- The value of a formula on arguments, with the properties of a record as names. -/
def callWith (f : Formula) (env : Value) (args : List Value) : Except EvalError Value :=
  f.run (.ofEnv env) args

/-- The text of a formula: its parameters and its body as it was written. -/
def toText (f : Formula) : String :=
  "fn(" ++ ", ".intercalate f.params ++ ") " ++ f.source

end Formula

end RecordQuery
