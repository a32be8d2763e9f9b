import RecordQuery.Decimal.Layout
import RecordQuery.Text.Hidden

/-! # Tokens

The words of the expression language: numbers, texts, names and punctuators. A token knows the byte
offset at which it starts.
-/

namespace RecordQuery

/-- Operators and punctuation. -/
inductive Punct where
  | plus
  | minus
  | star
  | slash
  | percent
  | bang
  | eqEq
  | eqEqEq
  | bangEq
  | bangEqEq
  | less
  | lessEq
  | greater
  | greaterEq
  | andAnd
  | orOr
  | question
  | colon
  | dot
  | comma
  | leftParen
  | rightParen
  | leftBracket
  | rightBracket
deriving DecidableEq, Repr

namespace Punct

def text : Punct → String
  | plus => "+"
  | minus => "-"
  | star => "*"
  | slash => "/"
  | percent => "%"
  | bang => "!"
  | eqEq => "=="
  | eqEqEq => "==="
  | bangEq => "!="
  | bangEqEq => "!=="
  | less => "<"
  | lessEq => "<="
  | greater => ">"
  | greaterEq => ">="
  | andAnd => "&&"
  | orOr => "||"
  | question => "?"
  | colon => ":"
  | dot => "."
  | comma => ","
  | leftParen => "("
  | rightParen => ")"
  | leftBracket => "["
  | rightBracket => "]"

/-- All punctuators, the longer ones first, so that the first one found at the front of a text is
the longest. -/
def longestFirst : List Punct :=
  [eqEqEq, bangEqEq, eqEq, bangEq, lessEq, greaterEq, andAnd, orOr, plus, minus, star, slash,
   percent, bang, less, greater, question, colon, dot, comma, leftParen, rightParen, leftBracket,
   rightBracket]

theorem mem_longestFirst (p : Punct) : p ∈ longestFirst := by
  cases p <;> decide

end Punct

/-- What a token says. -/
inductive TokenKind where
  | number (x : Float)
  | string (s : String)
  | ident (name : String)
  | punct (p : Punct)
deriving DecidableEq, Repr

/-- A token and the byte offset of its first character. -/
structure Token where
  kind : TokenKind
  pos : Nat
deriving DecidableEq, Repr

/-- The text of a token in messages: numbers and names as such, texts in quotes. -/
def TokenKind.display : TokenKind → String
  | number x => String.ofList (Decimal.numeralText x)
  | string s => Text.quoted s
  | ident name => name
  | punct p => p.text

/-- A text as tokens, with its length in bytes. -/
structure Tokens where
  list : List Token
  stop : Nat
deriving DecidableEq, Repr

end RecordQuery
