import RecordQuery.Expr.Lexer
import RecordQuery.Expr.Tree

/-! # From tokens to trees

The grammar, from the loosest to the tightest: a conditional, `||`, `&&`, equality, relations, sums,
products, prefix operators, and properties and calls after a primary expression. Operators with two
operands group to the left, a conditional groups to the right. Lists have no trailing comma.

Sub-expressions and operands of prefix operators nest at most `maxDepth` deep. The parsers of one
depth are built from those of the next: `level n` may open `n` more, and `level 0` none.
-/

namespace RecordQuery

/-- A value read from the front of a list of tokens, and the tokens that remain,
fewer than `bound`. -/
structure Parsed (α : Type) (bound : Nat) where
  value : α
  rest : List Token
  fewer : rest.length < bound

/-- A parsed value under another function and a larger bound. -/
def Parsed.map {α β : Type} {m n : Nat} (p : Parsed α m) (f : α → β) (h : m ≤ n) : Parsed β n :=
  ⟨f p.value, p.rest, Nat.lt_of_lt_of_le p.fewer h⟩

/-- A parser takes at least one token from the front of a list. -/
abbrev Parser (α : Type) := (ts : List Token) → Except SyntaxError (Parsed α ts.length)

namespace Parser

/-- The error at the front of a list of tokens that does not go on as it must. -/
def unexpected : List Token → SyntaxError
  | [] => .unexpectedEnd
  | token :: _ => .unexpectedToken token

/-- Takes the given punctuator. -/
def expect (p : Punct) : Parser Unit
  | token :: rest =>
      if token.kind = .punct p then .ok ⟨(), rest, Nat.lt_succ_self _⟩
      else .error (.unexpectedToken token)
  | [] => .error .unexpectedEnd

/-- Operands with operators between them: the first operand, and each operator with the operand
after it. -/
def chain {ω : Type} (op? : Punct → Option ω) (operand : Parser Expr) (ts : List Token) :
    Except SyntaxError (Parsed (Expr × List (ω × Expr)) ts.length) :=
  match operand ts with
  | .error e => .error e
  | .ok first =>
      match hrest : first.rest with
      | ⟨.punct p, _⟩ :: after =>
          match op? p with
          | none => .ok ⟨(first.value, []), first.rest, first.fewer⟩
          | some op =>
              have hafter : after.length < ts.length := by
                have := first.fewer
                simp [hrest] at this
                omega
              match chain op? operand after with
              | .error e => .error e
              | .ok others =>
                  .ok (others.map (fun o => (first.value, (op, o.1) :: o.2)) (Nat.le_of_lt hafter))
      | _ => .ok ⟨(first.value, []), first.rest, first.fewer⟩
termination_by ts.length

/-- A chain of operands under operators that group to the left. -/
def leftGrouped {ω : Type} (op? : Punct → Option ω) (build : ω → Expr → Expr → Expr)
    (operand : Parser Expr) : Parser Expr := fun ts =>
  (chain op? operand ts).map fun p =>
    p.map (fun c => c.2.foldl (fun left o => build o.1 left o.2) c.1) (Nat.le_refl _)

/-- Items separated by commas, one at least, and the closing punctuator. -/
def items (close : Punct) (item : Parser Expr) (ts : List Token) :
    Except SyntaxError (Parsed (List Expr) ts.length) :=
  match item ts with
  | .error e => .error e
  | .ok first =>
      match hrest : first.rest with
      | [] => .error .unexpectedEnd
      | token :: after =>
          have hafter : after.length < ts.length := by
            have := first.fewer
            simp [hrest] at this
            omega
          if token.kind = .punct close then .ok ⟨[first.value], after, hafter⟩
          else if token.kind = .punct .comma then
            match items close item after with
            | .error e => .error e
            | .ok others => .ok (others.map (first.value :: ·) (Nat.le_of_lt hafter))
          else .error (.unexpectedToken token)
termination_by ts.length

/-- A list after its opening punctuator: nothing, or items, and the closing punctuator. -/
def listUpTo (close : Punct) (item : Parser Expr) : Parser (List Expr)
  | ⟨kind, pos⟩ :: after =>
      if kind = .punct close then .ok ⟨[], after, Nat.lt_succ_self _⟩
      else items close item (⟨kind, pos⟩ :: after)
  | [] => items close item []

/-- What can follow a primary expression. -/
inductive Suffix where
  | member (name : String)
  | index (key : Expr)
  | call (args : List Expr)

def Suffix.apply (e : Expr) : Suffix → Expr
  | member name => .member e name
  | index key => .index e key
  | call args => .call e args

/-- Reads one property, key or argument list, whose punctuator is at the front; none if there is no
such punctuator. -/
def suffix? (conditional : Parser Expr) (ts : List Token) :
    Except SyntaxError (Option (Parsed Suffix ts.length)) :=
  match ts with
  | ⟨.punct .dot, _⟩ :: after =>
      match after with
      | ⟨.ident name, _⟩ :: rest =>
          .ok (some ⟨.member name, rest, by simp only [List.length_cons]; omega⟩)
      | after => .error (unexpected after)
  | ⟨.punct .leftBracket, _⟩ :: after =>
      match conditional after with
      | .error e => .error e
      | .ok key =>
          match expect .rightBracket key.rest with
          | .error e => .error e
          | .ok closed =>
              .ok (some ⟨.index key.value, closed.rest, by
                have := key.fewer
                have := closed.fewer
                simp only [List.length_cons]
                omega⟩)
  | ⟨.punct .leftParen, _⟩ :: after =>
      match listUpTo .rightParen conditional after with
      | .error e => .error e
      | .ok args => .ok (some (args.map .call (by simp only [List.length_cons]; omega)))
  | _ => .ok none

/-- Everything that follows a primary expression. -/
def suffixes (conditional : Parser Expr) (ts : List Token) :
    Except SyntaxError (Parsed (List Suffix) (ts.length + 1)) :=
  match suffix? conditional ts with
  | .error e => .error e
  | .ok none => .ok ⟨[], ts, Nat.lt_succ_self _⟩
  | .ok (some first) =>
      have := first.fewer
      match suffixes conditional first.rest with
      | .error e => .error e
      | .ok others => .ok (others.map (first.value :: ·) (by omega))
termination_by ts.length

/-- The expression that a name stands for: a constant if it is reserved, else the name. -/
def nameExpr (name : String) : Expr :=
  if name = "true" then .literal (.bool true)
  else if name = "false" then .literal (.bool false)
  else if name = "null" then .literal .null
  else if name = "undefined" then .undefined
  else .ident name

/-- A literal, a name, a parenthesized expression or an array. -/
def primary (conditional : Parser Expr) : Parser Expr
  | [] => .error .unexpectedEnd
  | ⟨.number x, _⟩ :: after => .ok ⟨.literal (Json.ofFloat x), after, Nat.lt_succ_self _⟩
  | ⟨.string s, _⟩ :: after => .ok ⟨.literal (.string s), after, Nat.lt_succ_self _⟩
  | ⟨.ident name, _⟩ :: after => .ok ⟨nameExpr name, after, Nat.lt_succ_self _⟩
  | ⟨.punct p, pos⟩ :: after =>
      match p with
      | .leftParen =>
          match conditional after with
          | .error e => .error e
          | .ok inner =>
              match expect .rightParen inner.rest with
              | .error e => .error e
              | .ok closed =>
                  .ok ⟨inner.value, closed.rest, by
                    have := inner.fewer
                    have := closed.fewer
                    simp only [List.length_cons]
                    omega⟩
      | .leftBracket =>
          (listUpTo .rightBracket conditional after).map fun list =>
            list.map .array (Nat.le_succ _)
      | p => .error (.unexpectedToken ⟨.punct p, pos⟩)

/-- A primary expression with what follows it. -/
def withSuffixes (conditional : Parser Expr) : Parser Expr := fun ts =>
  match primary conditional ts with
  | .error e => .error e
  | .ok first =>
      match suffixes conditional first.rest with
      | .error e => .error e
      | .ok others =>
          .ok (others.map (fun list => list.foldl Suffix.apply first.value)
            (Nat.succ_le_of_lt first.fewer))

/-- The operator that a punctuator is before an operand. -/
def prefixOp? : Punct → Option UnaryOp
  | .bang => some .not
  | .minus => some .neg
  | .plus => some .plus
  | _ => none

/-- The operator that a punctuator is between factors. -/
def productOp? : Punct → Option BinaryOp
  | .star => some .mul
  | .slash => some .div
  | .percent => some .rem
  | _ => none

/-- The operator that a punctuator is between terms. -/
def sumOp? : Punct → Option BinaryOp
  | .plus => some .add
  | .minus => some .sub
  | _ => none

/-- The operator that a punctuator is in a relation. -/
def relationOp? : Punct → Option BinaryOp
  | .less => some .lt
  | .lessEq => some .le
  | .greater => some .gt
  | .greaterEq => some .ge
  | _ => none

/-- The operator that a punctuator is in an equality. -/
def equalityOp? : Punct → Option BinaryOp
  | .eqEq => some .eq
  | .bangEq => some .ne
  | .eqEqEq => some .strictEq
  | .bangEqEq => some .strictNe
  | _ => none

/-- The operator that a punctuator is between conjuncts. -/
def andOp? : Punct → Option LogicalOp
  | .andAnd => some .and
  | _ => none

/-- The operator that a punctuator is between alternatives. -/
def orOp? : Punct → Option LogicalOp
  | .orOr => some .or
  | _ => none

/-- Operands under all operators with two operands, from the products outwards. -/
def operators (operand : Parser Expr) : Parser Expr :=
  leftGrouped orOp? .logical <|
  leftGrouped andOp? .logical <|
  leftGrouped equalityOp? .binary <|
  leftGrouped relationOp? .binary <|
  leftGrouped sumOp? .binary <|
  leftGrouped productOp? .binary operand

/-- The parsers that open one more level of nesting: a whole expression, and the operand of a prefix
operator. -/
structure Level where
  conditional : Parser Expr
  operand : Parser Expr

/-- An operand: prefix operators before an expression with what follows it. -/
def unary (inner : Level) : Parser Expr := fun ts =>
  match ts with
  | ⟨.punct p, pos⟩ :: after =>
      match prefixOp? p with
      | some op =>
          (inner.operand after).map fun operand => operand.map (.unary op) (Nat.le_succ _)
      | none => withSuffixes inner.conditional (⟨.punct p, pos⟩ :: after)
  | ts => withSuffixes inner.conditional ts

/-- A whole expression: operators, and the branches of a conditional if there is a question mark. -/
def whole (inner : Level) : Parser Expr := fun ts =>
  match operators (unary inner) ts with
  | .error e => .error e
  | .ok test =>
      match expect .question test.rest with
      | .error _ => .ok test
      | .ok question =>
          match inner.conditional question.rest with
          | .error e => .error e
          | .ok consequent =>
              match expect .colon consequent.rest with
              | .error e => .error e
              | .ok colon =>
                  match inner.conditional colon.rest with
                  | .error e => .error e
                  | .ok alternate =>
                      .ok ⟨.conditional test.value consequent.value alternate.value,
                        alternate.rest, by
                          have := test.fewer
                          have := question.fewer
                          have := consequent.fewer
                          have := colon.fewer
                          have := alternate.fewer
                          omega⟩

/-- The byte offset of the first token, or the end of the text. -/
def position (stop : Nat) : List Token → Nat
  | [] => stop
  | token :: _ => token.pos

/-- The parser that refuses to open one more level. -/
def tooDeep (stop : Nat) : Parser Expr := fun ts =>
  .error (.tooDeep (position stop ts))

/-- The parsers that may open the given number of levels. -/
def level (stop : Nat) : Nat → Level
  | 0 => ⟨tooDeep stop, tooDeep stop⟩
  | n + 1 => ⟨whole (level stop n), unary (level stop n)⟩

end Parser

/-- How many levels of nesting an expression may have. -/
def Expr.maxDepth : Nat := 128

/-- The expression that a list of tokens spells. -/
def Expr.ofTokens (tokens : Tokens) : Except SyntaxError Expr :=
  match tokens.list with
  | [] => .error .empty
  | ts =>
      match (Parser.level tokens.stop maxDepth).conditional ts with
      | .error e => .error e
      | .ok parsed =>
          match parsed.rest with
          | [] => .ok parsed.value
          | token :: _ => .error (.unexpectedToken token)

/-- The expression that a text spells. The whole text must be used. -/
def Expr.parse (text : String) : Except SyntaxError Expr :=
  match Token.scan text with
  | .error e => .error e
  | .ok tokens => ofTokens tokens

end RecordQuery
