import RecordQuery.Proofs.Grammar.Texts
import RecordQuery.Query.Combine

/-! # Combinations as texts

A combination of texts means what the one text means that puts them in parentheses and operators
between them. The two are built in different ways: by functions over expressions that were read
apart from each other, and by one expression.
-/

namespace RecordQuery

/-! ## Tests under a logical operator -/

namespace LogicalOp

/-- Whether the truth of an operand is the outcome, so that the next one does not count. -/
def settles : LogicalOp → Bool → Bool
  | and, b => !b
  | or, b => b

/-- Tests items from left to right until one settles the outcome. -/
def testAll {α ε : Type} (op : LogicalOp) (test : α → Except ε Bool) (items : List α) :
    Except ε Bool :=
  match op with
  | and => items.allM test
  | or => items.anyM test

variable {α β ε : Type} (op : LogicalOp)

theorem decides_eq_settles (v : Value) : op.decides v = op.settles v.isTruthy := by
  cases op <;> rfl

theorem testAll_cons (test : α → Except ε Bool) (a : α) (items : List α) :
    op.testAll test (a :: items) =
      (test a).bind fun b => if op.settles b then .ok b else op.testAll test items := by
  cases op with
  | and =>
      rw [testAll, List.allM_cons]
      refine congrArg (test a).bind (funext fun b => ?_)
      cases b <;> rfl
  | or =>
      rw [testAll, List.anyM_cons]
      refine congrArg (test a).bind (funext fun b => ?_)
      cases b <;> rfl

theorem testAll_map (f : β → α) (test : α → Except ε Bool) (items : List β) :
    op.testAll test (items.map f) = op.testAll (fun b => test (f b)) items := by
  induction items with
  | nil => cases op <;> rfl
  | cons b items ih => rw [List.map_cons, testAll_cons, testAll_cons, ih]

/-- Testing nothing more leaves the outcome of the test before. -/
theorem bind_testAll_nil (test : α → Except ε Bool) (r : Except ε Bool) :
    (r.bind fun b => if op.settles b then .ok b else op.testAll test []) = r := by
  cases r with
  | error e => rfl
  | ok b => cases op <;> cases b <;> rfl

end LogicalOp

namespace Expr

/-- Whether an expression counts as true. -/
def truth (ctx : Context) (e : Expr) : Except EvalError Bool :=
  (eval ctx e).map Value.isTruthy

theorem truth_logical (op : LogicalOp) (ctx : Context) (x y : Expr) :
    truth ctx (.logical op x y) =
      (truth ctx x).bind fun b => if op.settles b then .ok b else truth ctx y := by
  rw [truth, truth, eval]
  cases eval ctx x with
  | error e => rfl
  | ok v =>
      change Except.map Value.isTruthy (if op.decides v then .ok v else eval ctx y) =
        if op.settles v.isTruthy then .ok v.isTruthy else truth ctx y
      rw [op.decides_eq_settles]
      cases op.settles v.isTruthy <;> rfl

/-- The truth of a chain under an operator is that of its first operand, or of tests
of the others. -/
theorem truth_foldl {ι : Type} (op : LogicalOp) (ctx : Context) (tree : ι → Expr) (items : List ι)
    (x : Expr) :
    truth ctx (items.foldl (fun x i => .logical op x (tree i)) x) =
      (truth ctx x).bind fun b =>
        if op.settles b then .ok b else op.testAll (fun i => truth ctx (tree i)) items := by
  induction items generalizing x with
  | nil => exact (op.bind_testAll_nil _ _).symm
  | cons i items ih =>
      rw [List.foldl_cons, ih, truth_logical]
      cases truth ctx x with
      | error e => rfl
      | ok b =>
          rw [op.testAll_cons]
          cases h : op.settles b <;> simp [Except.bind, h]

end Expr

/-! ## Accessors of texts -/

namespace Accessor

open Grammar

/-- The accessor of an expression that was read from a text. -/
def ofExpr (text : String) (e : Expr) : Accessor :=
  new text fun d => e.eval (.ofScope (.ofEnv d))

/-- The expression that a text spells, undefined if it spells none. -/
def treeOf (text : String) : Expr :=
  valueOr .undefined (Expr.parse text)

theorem expr_text (text : String) : expr (.text text) = (Expr.parse text).map (ofExpr text) := by
  simp only [expr, exprWith, Formula.compile]
  cases Expr.parse text <;> rfl

/-- A text is an expression on its own. -/
def Compiles (text : String) : Prop := ∃ a, expr (.text text) = .ok a

instance (text : String) : Decidable (Compiles text) :=
  inferInstanceAs (Decidable (∃ a, expr (.text text) = .ok a))

theorem Compiles.parse_eq {text : String} (h : Compiles text) :
    Expr.parse text = .ok (treeOf text) := by
  obtain ⟨a, ha⟩ := h
  rw [expr_text] at ha
  obtain ⟨e, he, -⟩ := map_eq_ok_iff.mp ha
  rw [treeOf, he, valueOr_ok]

theorem Compiles.expr_eq {text : String} (h : Compiles text) :
    expr (.text text) = .ok (ofExpr text (treeOf text)) := by
  rw [expr_text, h.parse_eq]
  rfl

theorem exprs_eq_of_compiles {texts : List String} (h : ∀ text ∈ texts, Compiles text) :
    exprs (texts.map .text) = .ok (texts.map fun text => ofExpr text (treeOf text)) := by
  rw [exprs, mapM_eq_ok_iff, List.forall₂_map_left_iff, List.forall₂_map_right_iff,
    List.forall₂_same]
  exact fun text htext => (h text htext).expr_eq

theorem test_ofExpr (text : String) (e : Expr) (d : Value) :
    (ofExpr text e).test d = e.truth (.ofScope (.ofEnv d)) := rfl

/-- A text has an accessor with the given property, or it is refused as too deep. -/
def CompilesTo (text : String) (p : Accessor → Prop) : Prop :=
  (∃ a, expr (.text text) = .ok a ∧ p a) ∨ ∃ pos, expr (.text text) = .error (.tooDeep pos)

theorem CompilesTo.of_compiles {text : String} {p : Accessor → Prop} (h : CompilesTo text p)
    (hok : Compiles text) : ∃ a, expr (.text text) = .ok a ∧ p a := by
  rcases h with h | ⟨pos, herror⟩
  · exact h
  · obtain ⟨a, ha⟩ := hok
    rw [ha] at herror
    cases herror

theorem compilesTo_of_spells {text : String} {e : Expr} {p : Accessor → Prop}
    (h : Spells .conditional text.toList e) (hp : p (ofExpr text e)) : CompilesTo text p := by
  rw [CompilesTo, expr_text]
  rcases h.parse with hparse | ⟨pos, hparse⟩
  · rw [hparse]
    exact .inl ⟨_, rfl, hp⟩
  · rw [hparse]
    exact .inr ⟨pos, rfl⟩

/-! ## Conjunctions and disjunctions -/

/-- The combination of accessors under a logical operator. -/
def combine : LogicalOp → List Accessor → Accessor
  | .and => conjunction
  | .or => disjunction

theorem test_combine (op : LogicalOp) (tests : List Accessor) (d : Value) :
    (combine op tests).test d = op.testAll (fun a => a.test d) tests := by
  cases op with
  | and =>
      simp only [combine, conjunction, test, new, LogicalOp.testAll]
      cases tests.allM (fun a => (a.call d).map Value.isTruthy) <;> rfl
  | or =>
      simp only [combine, disjunction, test, new, LogicalOp.testAll]
      cases tests.anyM (fun a => (a.call d).map Value.isTruthy) <;> rfl

/-- A text in parentheses. -/
def parenthesized (text : String) : String := "(" ++ text ++ ")"

theorem Compiles.spells {text : String} (h : Compiles text) :
    Spells .unary (parenthesized text).toList (treeOf text) :=
  spells_parens h.parse_eq

/-- The punctuator of a logical operator. -/
def punctOf : LogicalOp → Punct
  | .and => .andAnd
  | .or => .orOr

/-- Texts in parentheses with a logical operator between them. -/
def chainText (op : LogicalOp) (texts : List String) : String :=
  (String.ofList (spaced (punctOf op))).intercalate (texts.map parenthesized)

/-- Chains of texts spell the chains of their trees. -/
theorem spells_chainText (op : LogicalOp) {first : String} {rest : List String}
    (h : ∀ text ∈ first :: rest, Compiles text) :
    Spells .conditional (chainText op (first :: rest)).toList
      (rest.foldl (fun x text => .logical op x (treeOf text)) (treeOf first)) := by
  have hspells : ∀ text ∈ first :: rest, Spells .unary (parenthesized text).toList (treeOf text) :=
    fun text htext => (h text htext).spells
  obtain ⟨hfirst, hrest⟩ := List.forall_mem_cons.mp hspells
  have htext : (chainText op (first :: rest)).toList = rest.foldl
      (fun cs text => cs ++ spaced (punctOf op) ++ (parenthesized text).toList)
      (parenthesized first).toList := by
    simp only [chainText, String.toList_intercalate, String.toList_ofList, List.map_cons,
      intercalate_eq_foldl, List.foldl_map]
  rw [htext]
  cases op with
  | and =>
      have hchain := Spells.foldl_operator .and _ _ rest (fun t ht => (hrest t ht).chain .equality)
        (hfirst.chain .and)
      exact .whole (.operand (l := .or) hchain)
  | or =>
      exact .whole (.foldl_operator .or _ _ rest (fun t ht => (hrest t ht).chain .and)
        (hfirst.chain .or))

/-- The combination of some texts is tested as the chain of their texts is. -/
theorem combine_agrees (op : LogicalOp) {texts : List String} (hne : texts ≠ [])
    (h : ∀ text ∈ texts, Compiles text) :
    ∃ a, (exprs (texts.map .text)).map (combine op) = .ok a ∧
      CompilesTo (chainText op texts) fun b => ∀ d, a.test d = b.test d := by
  obtain ⟨first, rest, rfl⟩ := List.exists_cons_of_ne_nil hne
  refine ⟨_, map_eq_ok_iff.mpr ⟨_, exprs_eq_of_compiles h, rfl⟩, ?_⟩
  refine compilesTo_of_spells (spells_chainText op h) fun d => ?_
  rw [test_combine, op.testAll_map, test_ofExpr, Expr.truth_foldl]
  exact op.testAll_cons _ first rest

/-! ## Negations and choices -/

theorem negation_agrees {s : String} (hs : Compiles s) :
    ∃ a, not (.text s) = .ok a ∧
      CompilesTo ("!" ++ parenthesized s) fun b => ∀ d, a.call d = b.call d := by
  refine ⟨_, map_eq_ok_iff.mpr ⟨_, hs.expr_eq, rfl⟩, ?_⟩
  have hends (rest : List Char) : (Word.punct .bang).EndsAt ((parenthesized s).toList ++ rest) := by
    rw [parenthesized, String.append_assoc, String.toList_append]
    rintro c ⟨⟩
    rfl
  have hspells : Spells .conditional ("!" ++ parenthesized s).toList (.unary .not (treeOf s)) := by
    rw [String.toList_append]
    exact ((hs.spells.prefixed .not hends).chain .or).whole
  refine compilesTo_of_spells hspells fun d => ?_
  simp only [negation, new, test, ofExpr, Expr.eval]
  cases Expr.eval (.ofScope (.ofEnv d)) (treeOf s) <;> rfl

theorem choice_agrees {c y n : String} (hc : Compiles c) (hy : Compiles y) (hn : Compiles n) :
    ∃ a, iff (.text c) (.text y) (.text n) = .ok a ∧
      CompilesTo (parenthesized c ++ " ? " ++ parenthesized y ++ " : " ++ parenthesized n)
        fun b => ∀ d, a.call d = b.call d := by
  have hiff : iff (.text c) (.text y) (.text n) = .ok (choice (ofExpr c (treeOf c))
      (ofExpr y (treeOf y)) (ofExpr n (treeOf n))) := by
    rw [iff, hc.expr_eq, hy.expr_eq, hn.expr_eq]
    rfl
  have hspells : Spells .conditional
      (parenthesized c ++ " ? " ++ parenthesized y ++ " : " ++ parenthesized n).toList
      (.conditional (treeOf c) (treeOf y) (treeOf n)) := by
    simp only [String.toList_append, List.append_assoc]
    exact .conditional (hc.spells.chain .or) (hy.spells.chain .or).whole
      (hn.spells.chain .or).whole
  refine ⟨_, hiff, compilesTo_of_spells hspells fun d => ?_⟩
  simp only [choice, new, test, ofExpr, Expr.eval]
  cases Expr.eval (.ofScope (.ofEnv d)) (treeOf c) <;> rfl

/-! ## All combinations -/

/-- Combinations of texts that are expressions agree with the texts put together, on every record,
value or error. The text is an expression unless it is too deep. -/
theorem combinations_agree {texts : List String} {s c y n : String} (hne : texts ≠ [])
    (htexts : ∀ text ∈ texts, Compiles text) (hs : Compiles s) (hc : Compiles c) (hy : Compiles y)
    (hn : Compiles n) :
    (∃ a, and (texts.map .text) = .ok a ∧
      CompilesTo (" && ".intercalate (texts.map parenthesized)) fun b => ∀ d, a.test d = b.test d) ∧
    (∃ a, or (texts.map .text) = .ok a ∧
      CompilesTo (" || ".intercalate (texts.map parenthesized)) fun b => ∀ d, a.test d = b.test d) ∧
    (∃ a, not (.text s) = .ok a ∧
      CompilesTo ("!" ++ parenthesized s) fun b => ∀ d, a.call d = b.call d) ∧
    ∃ a, iff (.text c) (.text y) (.text n) = .ok a ∧
      CompilesTo (parenthesized c ++ " ? " ++ parenthesized y ++ " : " ++ parenthesized n)
        fun b => ∀ d, a.call d = b.call d :=
  ⟨combine_agrees .and hne htexts, combine_agrees .or hne htexts, negation_agrees hs,
    choice_agrees hc hy hn⟩

/-- Texts with a conditional, with a parenthesis between quotes, and with a number at the end. -/
theorem combinations_agree_delimited :
    (∃ a b, and [.text "a ? b : c", .text "\")\" != d || 1."] = .ok a ∧
      expr (.text "(a ? b : c) && (\")\" != d || 1.)") = .ok b ∧ ∀ d, a.test d = b.test d) ∧
    ∃ a b, iff (.text "a || b") (.text "c ? 1 : 2") (.text "-d") = .ok a ∧
      expr (.text "(a || b) ? (c ? 1 : 2) : (-d)") = .ok b ∧ ∀ d, a.call d = b.call d := by
  have htexts : ∀ text ∈ ["a ? b : c", "\")\" != d || 1."], Compiles text := by decide +kernel
  have hc : Compiles "a || b" := by decide +kernel
  have hy : Compiles "c ? 1 : 2" := by decide +kernel
  have hn : Compiles "-d" := by decide +kernel
  obtain ⟨⟨a, hand, handText⟩, -, -, a', hiff, hiffText⟩ :=
    combinations_agree (List.cons_ne_nil _ _) htexts hn hc hy hn
  have handEq : " && ".intercalate (["a ? b : c", "\")\" != d || 1."].map parenthesized) =
      "(a ? b : c) && (\")\" != d || 1.)" := by
    decide +kernel
  have hiffEq : parenthesized "a || b" ++ " ? " ++ parenthesized "c ? 1 : 2" ++ " : " ++
      parenthesized "-d" = "(a || b) ? (c ? 1 : 2) : (-d)" := by
    decide +kernel
  rw [handEq] at handText
  rw [hiffEq] at hiffText
  obtain ⟨b, hb⟩ := handText.of_compiles (by decide +kernel)
  obtain ⟨b', hb'⟩ := hiffText.of_compiles (by decide +kernel)
  exact ⟨⟨a, b, hand, hb⟩, a', b', hiff, hb'⟩

end Accessor

end RecordQuery
