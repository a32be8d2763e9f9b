import RecordQuery.Proofs.Printing.Spelling

/-! # What printed words derive

If no operator expression stands where only a suffixed expression can, the tokens of a printed
expression derive it. The depth of the derivation counts what the text opens: items, arguments,
keys, parentheses, operands of prefix operators and branches.
-/

namespace RecordQuery

open Grammar

/-- The precedence of an operator with two operands. -/
def BinaryOp.precedence : BinaryOp → Precedence
  | add | sub => .sum
  | mul | div | rem => .product
  | eq | ne | strictEq | strictNe => .equality
  | lt | le | gt | ge => .relation

/-- The precedence of a logical operator. -/
def LogicalOp.precedence : LogicalOp → Precedence
  | and => .and
  | or => .or

theorem UnaryOp.prefixOperator (op : UnaryOp) : PrefixOperator op.punct op := by
  cases op <;> constructor

theorem BinaryOp.operator (op : BinaryOp) : Operator op.precedence op.punct (.binary op) := by
  cases op <;> constructor

theorem LogicalOp.operator (op : LogicalOp) : Operator op.precedence op.punct (.logical op) := by
  cases op <;> constructor

namespace Grammar

theorem PrefixOperator.eq_punct {p : Punct} {op : UnaryOp} (h : PrefixOperator p op) :
    p = op.punct := by
  cases h <;> rfl

/-- The trees that operators between two operands build. -/
theorem Operator.build_eq {l : Precedence} {p : Punct} {build : Expr → Expr → Expr}
    (h : Operator l p build) :
    (∃ op : BinaryOp, build = .binary op ∧ p = op.punct) ∨
      ∃ op : LogicalOp, build = .logical op ∧ p = op.punct := by
  cases h with
  | or => exact .inr ⟨.or, rfl, rfl⟩
  | and => exact .inr ⟨.and, rfl, rfl⟩
  | _ => exact .inl ⟨_, rfl, rfl⟩

theorem Derives.asOperand {ts : List TokenKind} {e : Expr} {d : Nat} (h : Derives .unary ts e d)
    (l : Precedence) : Derives l.operand ts e d := by
  cases l with
  | product => exact h
  | _ => exact h.chain _

/-- A chain is an operand of a looser one, up to the loosest. -/
theorem Derives.loosest {ts : List TokenKind} {e : Expr} {d : Nat} {l : Precedence}
    (h : Derives (.chain l) ts e d) : Derives (.chain .or) ts e d := by
  have hand : Derives (.chain .and) ts e d → Derives (.chain .or) ts e d :=
    fun h => .operand (l := .or) h
  have hequality : Derives (.chain .equality) ts e d → Derives (.chain .or) ts e d :=
    fun h => hand (.operand (l := .and) h)
  have hrelation : Derives (.chain .relation) ts e d → Derives (.chain .or) ts e d :=
    fun h => hequality (.operand (l := .equality) h)
  have hsum : Derives (.chain .sum) ts e d → Derives (.chain .or) ts e d :=
    fun h => hrelation (.operand (l := .relation) h)
  cases l with
  | or => exact h
  | and => exact hand h
  | equality => exact hequality h
  | relation => exact hrelation h
  | sum => exact hsum h
  | product => exact hsum (.operand (l := .sum) h)

/-- Two operands and the operator between them are a chain. -/
theorem Derives.between {l : Precedence} {p : Punct} {build : Expr → Expr → Expr}
    {ts us : List TokenKind} {x y : Expr} {i j : Nat} (op : Operator l p build)
    (left : Derives .suffixed ts x i) (right : Derives .suffixed us y j) :
    Derives (.chain .or) (ts ++ .punct p :: us) (build x y) (max i j) :=
  (Derives.operator op ((Derives.unprefixed left).chain l)
    ((Derives.unprefixed right).asOperand l)).loosest

end Grammar

namespace Expr

/-- One more level for an operand in parentheses. -/
def enclosed (e : Expr) (n : Nat) : Nat :=
  if e.needsParens then n + 1 else n

mutual

/-- How many levels the text of an expression opens inside each other. -/
def opens : Expr → Nat
  | literal _ | undefined | ident _ => 0
  | array items => opensList items
  | member object _ => opens object
  | index object key => max (opens object) (opens key + 1)
  | call callee args => max (opens callee) (opensList args)
  | unary _ operand => enclosed operand (opens operand) + 1
  | binary _ left right => max (enclosed left (opens left)) (enclosed right (opens right))
  | logical _ left right => max (enclosed left (opens left)) (enclosed right (opens right))
  | conditional test consequent alternate =>
      max (enclosed test (opens test)) (max (enclosed consequent (opens consequent) + 1)
        (enclosed alternate (opens alternate) + 1))

/-- How many levels a list opens, each item being one. -/
def opensList : List Expr → Nat
  | [] => 0
  | item :: rest => max (opens item + 1) (opensList rest)

end

/-- Whether an expression is an operator applied to expressions. -/
def isOperator : Expr → Bool
  | unary .. | binary .. | logical .. | conditional .. => true
  | _ => false

/-- What stands before a suffix is no operator expression. -/
def HeadStands : Expr → Prop
  | member head _ | index head _ | call head _ => head.isOperator = false
  | _ => True

theorem needsParens_eq_isOperator {e : Expr} (h : Legible e) : e.needsParens = e.isOperator := by
  cases e with
  | literal value =>
      cases value with
      | number n => simp [needsParens, isOperator, Number.ReadsBack.nonneg h]
      | _ => rfl
  | _ => rfl

/-- The printed item of a list. -/
def item (e : Expr) : Item :=
  ⟨Word.kinds e.words, e, e.opens + 1⟩

theorem map_tree_item (items : List Expr) : (items.map item).map Item.tree = items := by
  rw [List.map_map]
  exact List.map_id items

theorem deepest_item (items : List Expr) : deepest (items.map item) = opensList items := by
  induction items with
  | nil => rfl
  | cons e items ih => rw [List.map_cons, deepest_cons, ih, opensList, item]

theorem kinds_listed (items : List Expr) :
    Word.kinds (listed (items.map words)) = separated (items.map item) := by
  induction items with
  | nil => rfl
  | cons e items ih =>
      cases items with
      | nil => simp [item]
      | cons next items =>
          rw [List.map_cons, List.map_cons, listed_cons_cons, List.map_cons, List.map_cons,
            separated_cons_cons, ← List.map_cons, ← List.map_cons, ← ih]
          simp [item, Word.kind?]

/-- What holds everywhere in an operator expression holds of it and everywhere in its operands. -/
theorem everywhere_between {q : Expr → Prop} {l : Precedence} {p : Punct}
    {build : Expr → Expr → Expr} (h : Operator l p build) (left right : Expr) :
    Everywhere q (build left right) ↔
      q (build left right) ∧ Everywhere q left ∧ Everywhere q right := by
  rcases h.build_eq with ⟨op, rfl, -⟩ | ⟨op, rfl, -⟩
  · exact Everywhere.binary_iff
  · exact Everywhere.logical_iff

/-! ## The tokens of each kind of expression -/

/-- The tokens of an operator expression are its operands' and the operator between them. -/
theorem kinds_words_between {l : Precedence} {p : Punct} {build : Expr → Expr → Expr}
    (h : Operator l p build) (left right : Expr) :
    Word.kinds (build left right).words = Word.kinds (enclose left left.words) ++
      .punct p :: Word.kinds (enclose right right.words) := by
  rcases h.build_eq with ⟨op, rfl, rfl⟩ | ⟨op, rfl, rfl⟩ <;> simp [words, Word.kind?]

theorem kinds_words_conditional (test consequent alternate : Expr) :
    Word.kinds (conditional test consequent alternate).words =
      Word.kinds (enclose test test.words) ++ .punct .question ::
        (Word.kinds (enclose consequent consequent.words) ++ .punct .colon ::
          Word.kinds (enclose alternate alternate.words)) := by
  simp [words, Word.kind?]

theorem kinds_words_unary (op : UnaryOp) (operand : Expr) :
    Word.kinds (unary op operand).words =
      .punct op.punct :: Word.kinds (enclose operand operand.words) := by
  simp [words, Word.kind?]

theorem kinds_words_member (object : Expr) (name : String) :
    Word.kinds (member object name).words =
      Word.kinds object.words ++ [.punct .dot, .ident name] := by
  simp [words, Word.kind?]

theorem kinds_words_index (object key : Expr) :
    Word.kinds (index object key).words = Word.kinds object.words ++
      .punct .leftBracket :: (Word.kinds key.words ++ [.punct .rightBracket]) := by
  simp [words, Word.kind?]

theorem kinds_words_call (callee : Expr) (args : List Expr) :
    Word.kinds (call callee args).words = Word.kinds callee.words ++
      .punct .leftParen :: (separated (args.map item) ++ [.punct .rightParen]) := by
  simp [words, wordsList_eq_map, ← kinds_listed, Word.kind?]

theorem kinds_words_array (items : List Expr) :
    Word.kinds (array items).words =
      .punct .leftBracket :: (separated (items.map item) ++ [.punct .rightBracket]) := by
  simp [words, wordsList_eq_map, ← kinds_listed, Word.kind?]

/-! ## The derivation -/

/-- The tokens of a printed expression derive it as a whole, and as a suffixed expression unless it
is an operator expression. -/
structure Spelled (e : Expr) : Prop where
  whole : Derives .conditional (Word.kinds e.words) e (e.opens + 1)
  suffixed : e.isOperator = false → Derives .suffixed (Word.kinds e.words) e e.opens

theorem Spelled.ofSuffixed {e : Expr} (h : Derives .suffixed (Word.kinds e.words) e e.opens) :
    Spelled e :=
  ⟨.whole ((Derives.unprefixed h).chain .or), fun _ => h⟩

theorem Spelled.ofChain {e : Expr} (h : Derives (.chain .or) (Word.kinds e.words) e e.opens)
    (hoperator : e.isOperator = true) : Spelled e := by
  refine ⟨.whole h, fun hsuffixed => ?_⟩
  rw [hoperator] at hsuffixed
  cases hsuffixed

/-- An operand is suffixed, in parentheses if it has to be. -/
theorem Spelled.operand {e : Expr} (h : Spelled e) (hlegible : Legible e) :
    Derives .suffixed (Word.kinds (enclose e e.words)) e (enclosed e e.opens) := by
  rw [enclose, enclosed, needsParens_eq_isOperator hlegible]
  cases hoperator : e.isOperator with
  | true => simpa [Word.kind?] using Derives.unsuffixed (.parens h.whole)
  | false => exact h.suffixed hoperator

theorem Spelled.literal {value : Json} (h : Legible (literal value)) :
    Spelled (literal value) := by
  refine .ofSuffixed (.unsuffixed ?_)
  cases value with
  | null => exact .null
  | bool b =>
      cases b with
      | false => exact .false
      | true => exact .true
  | number n =>
      -- A derived number is the literal of its value, which for a readable one is the number.
      have hnumber := Derives.number (x := n.toFloat)
      rw [Number.ReadsBack.stored h] at hnumber
      exact hnumber
  | string s => exact .string
  | array | object => exact h.elim

theorem whole_of_mem_item {items : List Expr} (h : ∀ e ∈ items, Spelled e) :
    ∀ a ∈ items.map item, Derives .conditional a.tokens a.tree a.depth := by
  rw [List.forall_mem_map]
  exact fun e he => (h e he).whole

theorem Spelled.array {items : List Expr} (h : ∀ e ∈ items, Spelled e) :
    Spelled (array items) := by
  have harray := Derives.array (whole_of_mem_item h)
  rw [map_tree_item, deepest_item, ← kinds_words_array] at harray
  exact .ofSuffixed (.unsuffixed harray)

theorem Spelled.member {object : Expr} (h : Spelled object)
    (hhead : object.isOperator = false) (name : String) : Spelled (member object name) := by
  apply Spelled.ofSuffixed
  rw [kinds_words_member]
  exact .member (h.suffixed hhead)

theorem Spelled.index {object key : Expr} (hobject : Spelled object)
    (hhead : object.isOperator = false) (hkey : Spelled key) : Spelled (index object key) := by
  apply Spelled.ofSuffixed
  rw [kinds_words_index]
  exact .index (hobject.suffixed hhead) hkey.whole

theorem Spelled.call {callee : Expr} {args : List Expr} (hcallee : Spelled callee)
    (hhead : callee.isOperator = false) (hargs : ∀ e ∈ args, Spelled e) :
    Spelled (call callee args) := by
  have hcall := Derives.call (hcallee.suffixed hhead) (whole_of_mem_item hargs)
  rw [map_tree_item, deepest_item, ← kinds_words_call] at hcall
  exact .ofSuffixed hcall

theorem Spelled.unary {operand : Expr} (h : Spelled operand) (hlegible : Legible operand)
    (op : UnaryOp) : Spelled (unary op operand) := by
  have hunary := Derives.prefixed op.prefixOperator (.unprefixed (h.operand hlegible))
  rw [← kinds_words_unary] at hunary
  exact .ofChain (hunary.chain .or) rfl

theorem Spelled.binary {left right : Expr} (hleft : Spelled left) (hright : Spelled right)
    (hlegible : Legible left ∧ Legible right) (op : BinaryOp) :
    Spelled (binary op left right) := by
  have hbetween := Derives.between op.operator (hleft.operand hlegible.1)
    (hright.operand hlegible.2)
  rw [← kinds_words_between op.operator] at hbetween
  exact .ofChain hbetween rfl

theorem Spelled.logical {left right : Expr} (hleft : Spelled left) (hright : Spelled right)
    (hlegible : Legible left ∧ Legible right) (op : LogicalOp) :
    Spelled (logical op left right) := by
  have hbetween := Derives.between op.operator (hleft.operand hlegible.1)
    (hright.operand hlegible.2)
  rw [← kinds_words_between op.operator] at hbetween
  exact .ofChain hbetween rfl

theorem Spelled.conditional {test consequent alternate : Expr} (htest : Spelled test)
    (hconsequent : Spelled consequent) (halternate : Spelled alternate)
    (hlegible : Legible test ∧ Legible consequent ∧ Legible alternate) :
    Spelled (conditional test consequent alternate) := by
  have hchain : ∀ {e : Expr}, Spelled e → Legible e →
      Derives (.chain .or) (Word.kinds (enclose e e.words)) e (enclosed e e.opens) :=
    fun hspelled he => (Derives.unprefixed (hspelled.operand he)).chain .or
  have hconditional := Derives.conditional (hchain htest hlegible.1)
    (.whole (hchain hconsequent hlegible.2.1)) (.whole (hchain halternate hlegible.2.2))
  rw [← kinds_words_conditional] at hconditional
  exact ⟨hconditional, nofun⟩

/-- The tokens of a printed expression derive it if the heads of its suffixes stand. -/
theorem spelled {e : Expr} (hlegible : Everywhere Legible e) (hheads : Everywhere HeadStands e) :
    Spelled e := by
  induction e with
  | literal value => exact .literal hlegible.here
  | undefined => exact .ofSuffixed (.unsuffixed .undefined)
  | ident name => exact .ofSuffixed (.unsuffixed (.name hlegible.here.2))
  | array items ih =>
      rw [Everywhere.array_iff] at hlegible hheads
      exact .array fun e he => ih e he (hlegible.2 e he) (hheads.2 e he)
  | member object name ih =>
      rw [Everywhere.member_iff] at hlegible hheads
      exact (ih hlegible.2 hheads.2).member hheads.1 name
  | index object key ihObject ihKey =>
      rw [Everywhere.index_iff] at hlegible hheads
      exact (ihObject hlegible.2.1 hheads.2.1).index hheads.1 (ihKey hlegible.2.2 hheads.2.2)
  | call callee args ihCallee ihArgs =>
      rw [Everywhere.call_iff] at hlegible hheads
      exact (ihCallee hlegible.2.1 hheads.2.1).call hheads.1
        fun e he => ihArgs e he (hlegible.2.2 e he) (hheads.2.2 e he)
  | unary op operand ih =>
      rw [Everywhere.unary_iff] at hlegible hheads
      exact (ih hlegible.2 hheads.2).unary hlegible.2.here op
  | binary op left right ihLeft ihRight =>
      rw [Everywhere.binary_iff] at hlegible hheads
      exact (ihLeft hlegible.2.1 hheads.2.1).binary (ihRight hlegible.2.2 hheads.2.2)
        ⟨hlegible.2.1.here, hlegible.2.2.here⟩ op
  | logical op left right ihLeft ihRight =>
      rw [Everywhere.logical_iff] at hlegible hheads
      exact (ihLeft hlegible.2.1 hheads.2.1).logical (ihRight hlegible.2.2 hheads.2.2)
        ⟨hlegible.2.1.here, hlegible.2.2.here⟩ op
  | conditional test consequent alternate ihTest ihConsequent ihAlternate =>
      rw [Everywhere.conditional_iff] at hlegible hheads
      exact (ihTest hlegible.2.1 hheads.2.1).conditional
        (ihConsequent hlegible.2.2.1 hheads.2.2.1) (ihAlternate hlegible.2.2.2 hheads.2.2.2)
        ⟨hlegible.2.1.here, hlegible.2.2.1.here, hlegible.2.2.2.here⟩

end Expr

end RecordQuery
