import RecordQuery.Json.Equality

/-! # Expression trees

An expression is a literal, a name, an array, a property or method of an expression, or an operator
applied to expressions. There are no statements and no assignments.
-/

namespace RecordQuery

/-- Operators with one operand. -/
inductive UnaryOp where
  | not
  | neg
  | plus
deriving DecidableEq, Repr

def UnaryOp.text : UnaryOp → String
  | not => "!"
  | neg => "-"
  | plus => "+"

/-- Operators that evaluate both operands. -/
inductive BinaryOp where
  | add
  | sub
  | mul
  | div
  | rem
  | eq
  | ne
  | strictEq
  | strictNe
  | lt
  | le
  | gt
  | ge
deriving DecidableEq, Repr

def BinaryOp.text : BinaryOp → String
  | add => "+"
  | sub => "-"
  | mul => "*"
  | div => "/"
  | rem => "%"
  | eq => "=="
  | ne => "!="
  | strictEq => "==="
  | strictNe => "!=="
  | lt => "<"
  | le => "<="
  | gt => ">"
  | ge => ">="

def BinaryOp.all : List BinaryOp :=
  [add, sub, mul, div, rem, eq, ne, strictEq, strictNe, lt, le, gt, ge]

/-- Operators that may leave their second operand alone. -/
inductive LogicalOp where
  | and
  | or
deriving DecidableEq, Repr

def LogicalOp.text : LogicalOp → String
  | and => "&&"
  | or => "||"

inductive Expr where
  | literal (value : Json)
  | undefined
  | ident (name : String)
  | array (items : List Expr)
  | member (object : Expr) (name : String)
  | index (object key : Expr)
  | call (callee : Expr) (args : List Expr)
  | unary (op : UnaryOp) (operand : Expr)
  | binary (op : BinaryOp) (left right : Expr)
  | logical (op : LogicalOp) (left right : Expr)
  | conditional (test consequent alternate : Expr)
deriving Inhabited, Repr

namespace Expr

mutual

/-- Equality of trees, with literals compared as trees as well. -/
def same : Expr → Expr → Bool
  | literal a, literal b => Json.sameTree a b
  | undefined, undefined => true
  | ident m, ident n => m == n
  | array xs, array ys => sameList xs ys
  | member a m, member b n => same a b && m == n
  | index a k, index b l => same a b && same k l
  | call a xs, call b ys => same a b && sameList xs ys
  | unary o a, unary p b => o == p && same a b
  | binary o a b, binary p c d => o == p && same a c && same b d
  | logical o a b, logical p c d => o == p && same a c && same b d
  | conditional a b c, conditional d e f => same a d && same b e && same c f
  | _, _ => false

/-- Equality of lists of trees. -/
def sameList : List Expr → List Expr → Bool
  | [], [] => true
  | x :: xs, y :: ys => same x y && sameList xs ys
  | _, _ => false

end

end Expr

end RecordQuery
