import RecordQuery.Formula
import RecordQuery.Pattern.Delimited
import RecordQuery.Text.Numeric

/-! # Accessors

An accessor is a function of one record with a name, under which its result appears in output
records. Queries take accessors, or texts that become accessors: a text is the name of a field in
some places and an expression over the fields in others.
-/

namespace RecordQuery

/-! ## Errors -/

/-- Why a query cannot be built or run. -/
inductive QueryError where
  | invalidSortOrder (name : String)
  | noGroupKeys
  | unknownTypeTest (name : String)
  | invalidPattern (e : PatternError)
  | unknownCoercion (name : String)
  | expression (e : EvalError)
deriving Repr

def QueryError.message : QueryError → String
  | invalidSortOrder name => "unrecognized sort order: '" ++ name ++ "'"
  | noGroupKeys => "groupBy expects at least one expression"
  | unknownTypeTest name => "bad is method name: '" ++ name ++ "'"
  | invalidPattern e => "invalid pattern: " ++ e.message
  | unknownCoercion name => "unknown coercion: '" ++ name ++ "'"
  | expression e => e.message

def QueryError.syntactic (e : SyntaxError) : QueryError :=
  .expression (.syntactic e)

/-! ## Functions of a record -/

/-- A named function of a record. An alias takes the place of the declared name. -/
structure Accessor where
  declared : String
  alias? : Option String
  call : Value → Except EvalError Value

/-- A text or an accessor, where a query accepts either. -/
inductive Spec where
  | text (s : String)
  | accessor (a : Accessor)

namespace Accessor

/-- An accessor without an alias. -/
def new (name : String) (f : Value → Except EvalError Value) : Accessor := ⟨name, none, f⟩

/-- An accessor of a function that cannot fail. -/
def ofFunction (name : String) (f : Value → Value) : Accessor := new name fun d => .ok (f d)

def rename (a : Accessor) (name : String) : Accessor := { a with alias? := some name }

def name (a : Accessor) : String := a.alias?.getD a.declared

/-- Whether the result on a record counts as true. -/
def test (a : Accessor) (d : Value) : Except EvalError Bool :=
  (a.call d).map Value.isTruthy

@[simp] theorem name_new (n : String) (f : Value → Except EvalError Value) :
    (new n f).name = n := rfl

@[simp] theorem name_rename (a : Accessor) (n : String) : (a.rename n).name = n := rfl

/-- The field of a record under a key. Dots in the key have no meaning. -/
def field (key : String) : Accessor :=
  ofFunction key fun d => d.property key

/-- A spec whose text is the key of a field. -/
def property : Spec → Accessor
  | .accessor a => a
  | .text key => field key

def identity : Accessor := ofFunction "identity" id

/-- Undefined for each record. -/
def noop : Accessor := ofFunction "noop" fun _ => .undefined

/-- The same value for each record. -/
def literal (v : Value) : Accessor := ofFunction "literal" fun _ => v

/-- A function called on the record, or else the same value for each record. -/
def functor (host : Host) (v : Value) : Accessor :=
  match v with
  | .function f => new f.name fun d => f.call host .undefined [d]
  | v => ofFunction "functor" fun _ => v

end Accessor

/-! ## Expressions over the fields of a record -/

/-- How the expressions of accessors are evaluated: strictly or not, and with the keys of the record
made into names or not. -/
structure ExprOptions where
  strict : Bool
  sanitizeKeys : Bool
deriving DecidableEq, Repr

/-- Permissive evaluation of records as they are. -/
def ExprOptions.standard : ExprOptions := ⟨false, false⟩

/-- A text without the underscores at its end, of which a text of underscores keeps the first. -/
def dropTrailingUnderscores : List Char → List Char
  | [] => []
  | c :: rest => c :: (rest.reverse.dropWhile (· == '_')).reverse

/-- A key made into a name: what is neither a letter, a digit nor an underscore becomes an
underscore, underscores at the end are dropped, and a decimal digit in front gets one before it. -/
def sanitizeKey (key : List Char) : List Char :=
  let name := dropTrailingUnderscores
    (key.map fun c => if Text.isAlphanumeric c || c == '_' then c else '_')
  match name with
  | c :: _ => if c.isDigit then '_' :: name else name
  | [] => []

/-- The fields of a record under sanitized keys. Of keys that become the same, the last value stays
in the place of the first. -/
def sanitizeFields (fields : Fields) : Fields :=
  Fields.ofPairs (fields.map fun f => (String.ofList (sanitizeKey f.1.toList), f.2))

/-- A record with sanitized keys; other values are left alone. -/
def sanitizeRecord : Value → Value
  | .json (.object fields) => .json (.object (sanitizeFields fields))
  | v => v

namespace Accessor

/-- A spec whose text is an expression over the fields of the record. -/
def exprWith (options : ExprOptions) : Spec → Except SyntaxError Accessor
  | .accessor a => .ok a
  | .text text =>
      match Formula.compile ⟨.standard, options.strict⟩ [] text with
      | .error e => .error e
      | .ok f =>
          .ok (new text fun d =>
            f.callWith (if options.sanitizeKeys then sanitizeRecord d else d) [])

/-- A spec whose text is an expression, with the standard options. -/
def expr (spec : Spec) : Except SyntaxError Accessor :=
  exprWith .standard spec

/-- Specs whose texts are expressions. The first text that is none counts. -/
def exprs (specs : List Spec) : Except SyntaxError (List Accessor) :=
  specs.mapM expr

end Accessor

/-! ## Lists of specs -/

/-- Specs in nested lists. -/
inductive SpecTree where
  | leaf (s : Spec)
  | node (list : List SpecTree)

mutual

/-- The specs of nested lists from left to right. -/
def SpecTree.flatten : SpecTree → List Spec
  | .leaf s => [s]
  | .node list => SpecTree.flattenList list

def SpecTree.flattenList : List SpecTree → List Spec
  | [] => []
  | tree :: rest => tree.flatten ++ SpecTree.flattenList rest

end

def Spec.describe : Spec → String
  | text s => "Text(" ++ Text.quoted s ++ ")"
  | accessor a => "Func(Accessor(" ++ Text.quoted a.name ++ "))"

/-- A listing of specs. -/
def Spec.listing (specs : List Spec) : String :=
  "Specs([" ++ ", ".intercalate (specs.map describe) ++ "])"

end RecordQuery
