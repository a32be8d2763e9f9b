import RecordQuery.Expr.Parser

/-! # The grammar of expressions

Which lists of tokens spell which trees, said without a parser. A derivation carries its depth: how
many whole expressions and operands of prefix operators are open at once where it is deepest. The
outermost expression counts as one of them.
-/

namespace RecordQuery.Grammar

/-- The precedences of operators with two operands, from the loosest to the tightest. -/
inductive Precedence where
  | or
  | and
  | equality
  | relation
  | sum
  | product
deriving DecidableEq, Repr

/-- The kinds of phrases, from the loosest to the tightest. -/
inductive Phrase where
  | conditional
  | chain (l : Precedence)
  | unary
  | suffixed
  | primary
deriving DecidableEq, Repr

/-- What stands between the operators of a precedence. -/
def Precedence.operand : Precedence → Phrase
  | or => .chain .and
  | and => .chain .equality
  | equality => .chain .relation
  | relation => .chain .sum
  | sum => .chain .product
  | product => .unary

/-- The operators of a precedence, their punctuators, and the trees that they build. -/
inductive Operator : Precedence → Punct → (Expr → Expr → Expr) → Prop where
  | or : Operator .or .orOr (.logical .or)
  | and : Operator .and .andAnd (.logical .and)
  | eq : Operator .equality .eqEq (.binary .eq)
  | ne : Operator .equality .bangEq (.binary .ne)
  | strictEq : Operator .equality .eqEqEq (.binary .strictEq)
  | strictNe : Operator .equality .bangEqEq (.binary .strictNe)
  | lt : Operator .relation .less (.binary .lt)
  | le : Operator .relation .lessEq (.binary .le)
  | gt : Operator .relation .greater (.binary .gt)
  | ge : Operator .relation .greaterEq (.binary .ge)
  | add : Operator .sum .plus (.binary .add)
  | sub : Operator .sum .minus (.binary .sub)
  | mul : Operator .product .star (.binary .mul)
  | div : Operator .product .slash (.binary .div)
  | rem : Operator .product .percent (.binary .rem)

/-- The operators before an operand. -/
inductive PrefixOperator : Punct → UnaryOp → Prop where
  | not : PrefixOperator .bang .not
  | neg : PrefixOperator .minus .neg
  | plus : PrefixOperator .plus .plus

/-- The names that stand for constants. -/
def reserved : List String := ["true", "false", "null", "undefined"]

/-- A whole expression in a list: its tokens, its tree and its depth. -/
structure Item where
  tokens : List TokenKind
  tree : Expr
  depth : Nat

/-- The tokens of a list, with commas between the items and none after the last. -/
def separated (items : List Item) : List TokenKind :=
  [TokenKind.punct .comma].intercalate (items.map Item.tokens)

/-- The depth of the deepest item. -/
def deepest (items : List Item) : Nat :=
  (items.map Item.depth).foldr max 0

@[simp] theorem separated_nil : separated [] = [] := rfl

@[simp] theorem separated_singleton (a : Item) : separated [a] = a.tokens := by
  simp [separated]

@[simp] theorem separated_cons_cons (a b : Item) (rest : List Item) :
    separated (a :: b :: rest) = a.tokens ++ .punct .comma :: separated (b :: rest) := by
  simp [separated]

@[simp] theorem deepest_nil : deepest [] = 0 := rfl

@[simp] theorem deepest_cons (a : Item) (rest : List Item) :
    deepest (a :: rest) = max a.depth (deepest rest) := rfl

/-- A phrase derives a tree from tokens, at a depth. -/
inductive Derives : Phrase → List TokenKind → Expr → Nat → Prop where
  | whole {ts e d} (h : Derives (.chain .or) ts e d) : Derives .conditional ts e (d + 1)
  | conditional {ts us vs x y z i j k} (test : Derives (.chain .or) ts x i)
      (consequent : Derives .conditional us y j) (alternate : Derives .conditional vs z k) :
      Derives .conditional (ts ++ .punct .question :: (us ++ .punct .colon :: vs))
        (.conditional x y z) (max i (max j k) + 1)
  | operand {l ts e d} (h : Derives l.operand ts e d) : Derives (.chain l) ts e d
  | operator {l p build ts us x y i j} (op : Operator l p build) (left : Derives (.chain l) ts x i)
      (right : Derives l.operand us y j) :
      Derives (.chain l) (ts ++ .punct p :: us) (build x y) (max i j)
  | unprefixed {ts e d} (h : Derives .suffixed ts e d) : Derives .unary ts e d
  | prefixed {p o ts e d} (op : PrefixOperator p o) (operand : Derives .unary ts e d) :
      Derives .unary (.punct p :: ts) (.unary o e) (d + 1)
  | unsuffixed {ts e d} (h : Derives .primary ts e d) : Derives .suffixed ts e d
  | member {ts e d name} (object : Derives .suffixed ts e d) :
      Derives .suffixed (ts ++ [.punct .dot, .ident name]) (.member e name) d
  | index {ts us e key i j} (object : Derives .suffixed ts e i)
      (inner : Derives .conditional us key j) :
      Derives .suffixed (ts ++ .punct .leftBracket :: (us ++ [.punct .rightBracket]))
        (.index e key) (max i j)
  | call {ts e d} {args : List Item} (callee : Derives .suffixed ts e d)
      (each : ∀ a ∈ args, Derives .conditional a.tokens a.tree a.depth) :
      Derives .suffixed (ts ++ .punct .leftParen :: (separated args ++ [.punct .rightParen]))
        (.call e (args.map Item.tree)) (max d (deepest args))
  | number {x} : Derives .primary [.number x] (.literal (Json.ofFloat x)) 0
  | string {s} : Derives .primary [.string s] (.literal (.string s)) 0
  | true : Derives .primary [.ident "true"] (.literal (.bool true)) 0
  | false : Derives .primary [.ident "false"] (.literal (.bool false)) 0
  | null : Derives .primary [.ident "null"] (.literal .null) 0
  | undefined : Derives .primary [.ident "undefined"] .undefined 0
  | name {name} (h : name ∉ reserved) : Derives .primary [.ident name] (.ident name) 0
  | parens {ts e d} (inner : Derives .conditional ts e d) :
      Derives .primary (.punct .leftParen :: (ts ++ [.punct .rightParen])) e d
  | array {items : List Item}
      (each : ∀ a ∈ items, Derives .conditional a.tokens a.tree a.depth) :
      Derives .primary (.punct .leftBracket :: (separated items ++ [.punct .rightBracket]))
        (.array (items.map Item.tree)) (deepest items)

/-- A tree spelled by tokens needs at least one of them. -/
theorem Derives.ne_nil {ph : Phrase} {ts : List TokenKind} {e : Expr} {d : Nat}
    (h : Derives ph ts e d) : ts ≠ [] := by
  induction h with
  | whole h ih | operand h ih | unprefixed h ih | unsuffixed h ih => exact ih
  | _ => simp

theorem Derives.head?_append {ph : Phrase} {ts : List TokenKind} {e : Expr} {d : Nat}
    (h : Derives ph ts e d) (us : List TokenKind) : (ts ++ us).head? = ts.head? := by
  obtain ⟨t, ts, rfl⟩ := List.exists_cons_of_ne_nil h.ne_nil
  rfl

/-! ## From tight phrases to loose ones -/

/-- What is tight enough for an operand of a precedence is a chain of that precedence. -/
theorem Derives.chain {ts : List TokenKind} {e : Expr} {d : Nat} (h : Derives .unary ts e d)
    (l : Precedence) : Derives (.chain l) ts e d := by
  have hproduct : Derives (.chain .product) ts e d := .operand h
  have hsum : Derives (.chain .sum) ts e d := .operand hproduct
  have hrelation : Derives (.chain .relation) ts e d := .operand hsum
  have hequality : Derives (.chain .equality) ts e d := .operand hrelation
  have hand : Derives (.chain .and) ts e d := .operand hequality
  cases l with
  | or => exact .operand hand
  | and => exact hand
  | equality => exact hequality
  | relation => exact hrelation
  | sum => exact hsum
  | product => exact hproduct

/-- What has no operators outside its suffixes is a whole expression, one level deeper. -/
theorem Derives.asWhole {ts : List TokenKind} {e : Expr} {d : Nat} (h : Derives .suffixed ts e d) :
    Derives .conditional ts e (d + 1) :=
  .whole ((Derives.unprefixed h).chain .or)

end RecordQuery.Grammar
