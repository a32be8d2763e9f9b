import RecordQuery.Builtin.Catalog
import RecordQuery.Expr.Parser
import RecordQuery.Expr.Printer
import RecordQuery.Expr.Scope
import RecordQuery.Value.Operators

/-! # Evaluation

The value of an expression in a context: a scope for its names, the builtins that it can call, and a
mode. In strict mode an unbound name and a property of null or undefined are errors; otherwise they
are undefined. Operands are evaluated from left to right, and a method is looked up before its
arguments are evaluated.
-/

namespace RecordQuery

/-- What an expression is evaluated in. -/
structure Context where
  scope : Scope
  builtins : BuiltinMap
  strict : Bool

namespace Context

/-- The context of a scope with all builtins and without strictness. -/
def ofScope (scope : Scope) : Context := ⟨scope, .standard, false⟩

/-- The value of a bare name: from the scope, else the builtin or the library of that name. -/
def resolve (ctx : Context) (name : String) : Except EvalError Value :=
  match ctx.scope.lookup name with
  | some v => .ok v
  | none =>
      match ctx.builtins.find? .global name with
      | some f => .ok (.function f)
      | none =>
          if name ∈ Builtin.libraries then .ok (.library name)
          else if ctx.strict then .error (.unboundName name)
          else .ok .undefined

/-- The value of a property: a member of a library, or a property of a value. -/
def readMember (ctx : Context) (target : Value) (key : String) : Except EvalError Value :=
  match target with
  | .library name =>
      match Builtin.constant? name key with
      | some v => .ok v
      | none =>
          match ctx.builtins.find? (.library name) key with
          | some f => .ok (.function f)
          | none => .ok .undefined
  | target =>
      if target.isNullish then
        if ctx.strict then .error (.notContainer key) else .ok .undefined
      else .ok (target.property key)

/-- What the methods of a value are attached to, for the kinds of values that have any. -/
def receiver? : Value → Option Receiver
  | .library name => some (.library name)
  | .json (.string _) => some .string
  | .json (.array _) => some .array
  | .json (.number _) | .nonFinite _ => some .number
  | _ => none

/-- The builtin that a method call means. The callee is the expression in the text, for messages. -/
def method (ctx : Context) (this : Value) (key : String) (callee : Expr) :
    Except EvalError Builtin :=
  match receiver? this with
  | none =>
      if this.isNullish then
        .error (if ctx.strict then .notContainer key else .notCallable callee.toText)
      else .error (.unknownMethod this.typeName key)
  | some receiver =>
      match ctx.builtins.find? receiver key with
      | some f => .ok f
      | none =>
          match receiver with
          | .library _ => .error (.notCallable callee.toText)
          | receiver => .error (.unknownMethod receiver.describe key)

/-- The value that a method works on. Members of libraries work on none. -/
def receiverValue : Value → Value
  | .library _ => .undefined
  | this => this

end Context

def BinaryOp.apply (op : BinaryOp) (a b : Value) : Value :=
  match op with
  | .add => a.add b
  | .sub => a.sub b
  | .mul => a.mul b
  | .div => a.div b
  | .rem => a.rem b
  | .eq => .ofBool (a.looseEq b)
  | .ne => .ofBool !(a.looseEq b)
  | .strictEq => .ofBool (a.strictEq b)
  | .strictNe => .ofBool !(a.strictEq b)
  | .lt => .ofBool (a.lt b)
  | .le => .ofBool (a.le b)
  | .gt => .ofBool (a.gt b)
  | .ge => .ofBool (a.ge b)

def UnaryOp.apply (op : UnaryOp) (a : Value) : Value :=
  match op with
  | .not => .ofBool !a.isTruthy
  | .neg => a.negate
  | .plus => .ofFloat a.toNumber

/-- Whether the first operand of a logical operator is its result. -/
def LogicalOp.decides (op : LogicalOp) (a : Value) : Bool :=
  match op with
  | .and => !a.isTruthy
  | .or => a.isTruthy

namespace Expr

mutual

/-- The value of an expression. -/
def eval (ctx : Context) : Expr → Except EvalError Value
  | literal value => .ok (.json value)
  | undefined => .ok .undefined
  | ident name => ctx.resolve name
  | array items => do
      let values ← evalList ctx items
      return .json (.array (values.map Value.toJson))
  | member object name => do
      let target ← eval ctx object
      ctx.readMember target name
  | index object key => do
      let target ← eval ctx object
      let k ← eval ctx key
      ctx.readMember target k.toText
  | call (member object name) args => do
      let this ← eval ctx object
      let f ← ctx.method this name (member object name)
      let values ← evalList ctx args
      f.call ctx.builtins.host (Context.receiverValue this) values
  | call (index object key) args => do
      let this ← eval ctx object
      let k ← eval ctx key
      let f ← ctx.method this k.toText (index object key)
      let values ← evalList ctx args
      f.call ctx.builtins.host (Context.receiverValue this) values
  | call callee args => do
      match ← eval ctx callee with
      | .function f =>
          let values ← evalList ctx args
          f.call ctx.builtins.host .undefined values
      | _ => throw (.notCallable callee.toText)
  | unary op operand => do
      let v ← eval ctx operand
      return op.apply v
  | binary op left right => do
      let a ← eval ctx left
      let b ← eval ctx right
      return op.apply a b
  | logical op left right => do
      let a ← eval ctx left
      if op.decides a then return a else eval ctx right
  | conditional test consequent alternate => do
      let t ← eval ctx test
      if t.isTruthy then eval ctx consequent else eval ctx alternate

def evalList (ctx : Context) : List Expr → Except EvalError (List Value)
  | [] => .ok []
  | item :: rest => do
      let v ← eval ctx item
      let values ← evalList ctx rest
      return v :: values

end

def evalText (ctx : Context) (text : String) : Except EvalError Value :=
  match parse text with
  | .error e => .error (.syntactic e)
  | .ok e => eval ctx e

end Expr

end RecordQuery
