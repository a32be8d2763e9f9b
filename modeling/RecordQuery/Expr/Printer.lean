import RecordQuery.Expr.Tree
import RecordQuery.Json.Printer

/-! # From trees to text

An operand that is an operator expression itself stands in parentheses, so the text reads back as
the same tree. So does a negative number, which would otherwise merge with a sign before it.
-/

namespace RecordQuery.Expr

/-- Whether an expression stands in parentheses as an operand. -/
def needsParens : Expr → Bool
  | unary .. | binary .. | logical .. | conditional .. => true
  | literal (.number n) => n.toFloat < 0.0
  | _ => false

/-- The text of an operand, given its text as an expression. -/
def parenthesize (e : Expr) (text : List Char) : List Char :=
  if e.needsParens then '(' :: text ++ [')'] else text

mutual

/-- The text of an expression. -/
def chars : Expr → List Char
  | literal value => value.compact
  | undefined => "undefined".toList
  | ident name => name.toList
  | array items => '[' :: Text.join [',', ' '] (charsList items) ++ [']']
  | member object name => chars object ++ '.' :: name.toList
  | index object key => chars object ++ '[' :: chars key ++ [']']
  | call callee args => chars callee ++ '(' :: Text.join [',', ' '] (charsList args) ++ [')']
  | unary op operand => op.text.toList ++ parenthesize operand (chars operand)
  | binary op left right =>
      parenthesize left (chars left) ++ ' ' :: op.text.toList ++
        ' ' :: parenthesize right (chars right)
  | logical op left right =>
      parenthesize left (chars left) ++ ' ' :: op.text.toList ++
        ' ' :: parenthesize right (chars right)
  | conditional test consequent alternate =>
      parenthesize test (chars test) ++ ' ' :: '?' :: ' ' ::
        parenthesize consequent (chars consequent) ++ ' ' :: ':' :: ' ' ::
        parenthesize alternate (chars alternate)

def charsList : List Expr → List (List Char)
  | [] => []
  | item :: rest => chars item :: charsList rest

end

def toText (e : Expr) : String :=
  String.ofList e.chars

end RecordQuery.Expr
