import RecordQuery.Expr.Eval

/-! # Two runs of the evaluator

Evaluation asks its context about four things only: names, properties, methods and what a call
computes. A relation between results that goes through composed computations holds of two runs as
soon as it holds of what the contexts answer.
-/

namespace RecordQuery

/-- A relation between the results of two runs that goes through composed computations. -/
structure RunRelation where
  Holds : {α : Type} → Except EvalError α → Except EvalError α → Prop
  refl : ∀ {α : Type} (r : Except EvalError α), Holds r r
  bind : ∀ {α β : Type} {r s : Except EvalError α} {f g : α → Except EvalError β},
    Holds r s → (∀ a, Holds (f a) (g a)) → Holds (r >>= f) (s >>= g)

namespace Expr

mutual

/-- The names that occur in an expression. -/
def names : Expr → List String
  | literal _ | undefined => []
  | ident name => [name]
  | array items => namesOfAll items
  | member object _ => names object
  | index object key => names object ++ names key
  | call callee args => names callee ++ namesOfAll args
  | unary _ operand => names operand
  | binary _ left right | logical _ left right => names left ++ names right
  | conditional test consequent alternate => names test ++ (names consequent ++ names alternate)

/-- The names that occur in some expressions. -/
def namesOfAll : List Expr → List String
  | [] => []
  | item :: rest => names item ++ namesOfAll rest

end

/-- Two runs are related if the contexts are related on all properties, methods and calls, and on the
names that occur. -/
theorem eval_related_and_evalList_related (R : RunRelation) (ctx ctx' : Context)
    (hread : ∀ target key, R.Holds (ctx.readMember target key) (ctx'.readMember target key))
    (hmethod : ∀ this key callee,
      R.Holds (ctx.method this key callee) (ctx'.method this key callee))
    (hcall : ∀ f : Builtin, ∀ this values,
      R.Holds (f.call ctx.builtins.host this values) (f.call ctx'.builtins.host this values)) :
    (∀ e, (∀ name ∈ e.names, R.Holds (ctx.resolve name) (ctx'.resolve name)) →
      R.Holds (eval ctx e) (eval ctx' e)) ∧
    ∀ items, (∀ name ∈ namesOfAll items, R.Holds (ctx.resolve name) (ctx'.resolve name)) →
      R.Holds (evalList ctx items) (evalList ctx' items) := by
  apply eval.mutual_induct
  case case1 | case2 =>
    intros
    simp only [eval]
    exact R.refl _
  case case3 =>
    intro name hnames
    simp only [eval]
    exact hnames name List.mem_cons_self
  case case4 =>
    intro items hitems hnames
    simp only [eval]
    exact R.bind (hitems hnames) fun values => R.refl _
  case case5 =>
    intro object name hobject hnames
    simp only [eval]
    exact R.bind (hobject hnames) fun target => hread target name
  case case6 =>
    intro object key hobject hkey hnames
    obtain ⟨hn, hk⟩ := List.forall_mem_append.mp hnames
    simp only [eval]
    exact R.bind (hobject hn) fun target => R.bind (hkey hk) fun k => hread target k.toText
  -- A method by its name, and one by a key.
  case case7 =>
    intro object name args hobject hargs hnames
    obtain ⟨hn, ha⟩ := List.forall_mem_append.mp hnames
    simp only [eval]
    exact R.bind (hobject hn) fun this => R.bind (hmethod this name _) fun f =>
      R.bind (hargs ha) fun values => hcall f _ values
  case case8 =>
    intro object key args hobject hkey hargs hnames
    obtain ⟨hcallee, ha⟩ := List.forall_mem_append.mp hnames
    obtain ⟨hn, hk⟩ := List.forall_mem_append.mp hcallee
    simp only [eval]
    exact R.bind (hobject hn) fun this => R.bind (hkey hk) fun k =>
      R.bind (hmethod this k.toText _) fun f => R.bind (hargs ha) fun values => hcall f _ values
  -- Any other callee: its arguments are evaluated only if it is a function.
  case case9 =>
    intro callee args hmember hindex hcallee hargs hnames
    obtain ⟨hn, ha⟩ := List.forall_mem_append.mp hnames
    rw [eval.eq_9 _ _ _ hmember hindex, eval.eq_9 _ _ _ hmember hindex]
    refine R.bind (hcallee hn) fun v => ?_
    cases v with
    | function f => exact R.bind (hargs ha) fun values => hcall f _ values
    | _ => exact R.refl _
  case case10 =>
    intro op operand hoperand hnames
    simp only [eval]
    exact R.bind (hoperand hnames) fun v => R.refl _
  case case11 =>
    intro op left right hleft hright hnames
    obtain ⟨hl, hr⟩ := List.forall_mem_append.mp hnames
    simp only [eval]
    exact R.bind (hleft hl) fun a => R.bind (hright hr) fun b => R.refl _
  -- The right side and the branches are evaluated only where the value before asks for them.
  case case12 =>
    intro op left right hleft hright hnames
    obtain ⟨hl, hr⟩ := List.forall_mem_append.mp hnames
    simp only [eval]
    refine R.bind (hleft hl) fun a => ?_
    split
    · exact R.refl _
    · exact hright hr
  case case13 =>
    intro test consequent alternate htest hconsequent halternate hnames
    obtain ⟨ht, hbranches⟩ := List.forall_mem_append.mp hnames
    obtain ⟨hc, ha⟩ := List.forall_mem_append.mp hbranches
    simp only [eval]
    refine R.bind (htest ht) fun t => ?_
    split
    · exact hconsequent hc
    · exact halternate ha
  case case14 =>
    intro _
    simp only [evalList]
    exact R.refl _
  case case15 =>
    intro item rest hitem hrest hnames
    obtain ⟨hi, hr⟩ := List.forall_mem_append.mp hnames
    simp only [evalList]
    exact R.bind (hitem hi) fun v => R.bind (hrest hr) fun values => R.refl _

end Expr

end RecordQuery
