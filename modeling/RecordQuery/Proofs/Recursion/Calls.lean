import RecordQuery.Expr.Eval
import RecordQuery.Proofs.Printing.Spelling
import RecordQuery.Proofs.Recursion.Height
import RecordQuery.Proofs.Results

/-! # Recursion over trees

The calls of the evaluator and of the printer to themselves are as many deep as a tree is high. One
call of each is a step that leaves its calls open. Cut off below the height of the tree, the calls
have the same result, whatever the calls that were cut off would have been.
-/

namespace RecordQuery.Expr

variable {α : Type}

/-- Calls of a recursive function, given by one step of it. Only so many calls may be open at once,
and all that would be one more have the result `overflow`. -/
def within (step : (Expr → α) → Expr → α) (overflow : α) : Nat → Expr → α
  | 0, _ => overflow
  | n + 1, e => step (within step overflow n) e

/-- A recursive function has no more than `n` of its calls open at once on an expression. -/
def RecursesWithin (step : (Expr → α) → Expr → α) (run : Expr → α) (n : Nat) (e : Expr) : Prop :=
  ∀ overflow, within step overflow n e = run e

/-- A step is one call of a recursive function, and its calls are on parts of the expression. -/
structure IsStep (step : (Expr → α) → Expr → α) (run : Expr → α) : Prop where
  eq_step : ∀ e, run e = step run e
  congr : ∀ {f g : Expr → α} {e}, (∀ c, c.height < e.height → f c = g c) → step f e = step g e

theorem IsStep.recursesWithin {step : (Expr → α) → Expr → α} {run : Expr → α}
    (hstep : IsStep step run) {n : Nat} {e : Expr} (h : e.height ≤ n) :
    RecursesWithin step run n e := by
  intro overflow
  induction n generalizing e with
  | zero => exact absurd h (Nat.not_succ_le_zero _)
  | succ n ih =>
      rw [within, hstep.eq_step]
      exact hstep.congr fun c hc => ih (Nat.le_of_lt_succ (Nat.lt_of_lt_of_le hc h))

/-! ## The evaluator -/

/-- One call of the evaluator. -/
def evalStep (ctx : Context) (inner : Expr → Except EvalError Value) :
    Expr → Except EvalError Value
  | literal value => .ok (.json value)
  | undefined => .ok .undefined
  | ident name => ctx.resolve name
  | array items => do
      let values ← items.mapM inner
      return .json (.array (values.map Value.toJson))
  | member object name => do
      let target ← inner object
      ctx.readMember target name
  | index object key => do
      let target ← inner object
      let k ← inner key
      ctx.readMember target k.toText
  | call (member object name) args => do
      let this ← inner object
      let f ← ctx.method this name (member object name)
      let values ← args.mapM inner
      f.call ctx.builtins.host (Context.receiverValue this) values
  | call (index object key) args => do
      let this ← inner object
      let k ← inner key
      let f ← ctx.method this k.toText (index object key)
      let values ← args.mapM inner
      f.call ctx.builtins.host (Context.receiverValue this) values
  | call callee args => do
      match ← inner callee with
      | .function f =>
          let values ← args.mapM inner
          f.call ctx.builtins.host .undefined values
      | _ => throw (.notCallable callee.toText)
  | unary op operand => do
      let v ← inner operand
      return op.apply v
  | binary op left right => do
      let a ← inner left
      let b ← inner right
      return op.apply a b
  | logical op left right => do
      let a ← inner left
      if op.decides a then return a else inner right
  | conditional test consequent alternate => do
      let t ← inner test
      if t.isTruthy then inner consequent else inner alternate

theorem evalList_eq_mapM (ctx : Context) (items : List Expr) :
    evalList ctx items = items.mapM (eval ctx) := by
  induction items with
  | nil =>
      rw [evalList, List.mapM_nil]
      rfl
  | cons item rest ih => rw [evalList, List.mapM_cons, ih]

theorem isStep_evalStep (ctx : Context) : IsStep (evalStep ctx) (eval ctx) where
  eq_step e := by
    rw [eval.eq_def]
    cases e with
    | call callee args =>
        cases callee
        all_goals
          simp only [evalList_eq_mapM]
          rfl
    | _ =>
        simp only [evalList_eq_mapM]
        rfl
  congr {f g e} h := by
    have hchild (c : Expr) (hc : c ∈ e.children) : f c = g c :=
      h c (height_lt_of_mem_children hc)
    cases e with
    | literal | undefined | ident => rfl
    | array items =>
        have hitems : items.mapM f = items.mapM g := mapM_congr hchild
        simp only [evalStep, hitems]
    | call callee args =>
        have hcallee : f callee = g callee := hchild callee List.mem_cons_self
        have hargs : args.mapM f = args.mapM g :=
          mapM_congr fun a ha => hchild a (List.mem_cons_of_mem _ ha)
        have hcall : callee.height < (call callee args).height :=
          height_lt_of_mem_children List.mem_cons_self
        -- A method asks for the value of its object, and not for that of the callee.
        have hpart (c : Expr) (hc : c ∈ callee.children) : f c = g c :=
          h c (Nat.lt_trans (height_lt_of_mem_children hc) hcall)
        cases callee <;>
          simp_all [evalStep, children]
    | member | index | unary | binary | logical | conditional =>
        simp_all [evalStep, children]

/-! ## The printer -/

/-- One call of the printer. -/
def charsStep (inner : Expr → List Char) : Expr → List Char
  | literal value => value.compact
  | undefined => "undefined".toList
  | ident name => name.toList
  | array items => '[' :: Text.join [',', ' '] (items.map inner) ++ [']']
  | member object name => inner object ++ '.' :: name.toList
  | index object key => inner object ++ '[' :: inner key ++ [']']
  | call callee args => inner callee ++ '(' :: Text.join [',', ' '] (args.map inner) ++ [')']
  | unary op operand => op.text.toList ++ parenthesize operand (inner operand)
  | binary op left right =>
      parenthesize left (inner left) ++ ' ' :: op.text.toList ++
        ' ' :: parenthesize right (inner right)
  | logical op left right =>
      parenthesize left (inner left) ++ ' ' :: op.text.toList ++
        ' ' :: parenthesize right (inner right)
  | conditional test consequent alternate =>
      parenthesize test (inner test) ++ ' ' :: '?' :: ' ' ::
        parenthesize consequent (inner consequent) ++ ' ' :: ':' :: ' ' ::
        parenthesize alternate (inner alternate)

theorem isStep_charsStep : IsStep charsStep chars where
  -- As for all equations of the printer, the step is unfolded by its definition.
  eq_step e := by
    rw [chars.eq_def, charsStep.eq_def]
    cases e <;> simp only [charsList_eq_map]
  congr {f g e} h := by
    have hchild (c : Expr) (hc : c ∈ e.children) : f c = g c :=
      h c (height_lt_of_mem_children hc)
    rw [charsStep.eq_def, charsStep.eq_def]
    cases e with
    | literal | undefined | ident => rfl
    | array items =>
        have hitems : items.map f = items.map g := List.map_congr_left hchild
        simp only [hitems]
    | call callee args =>
        have hcallee : f callee = g callee := hchild callee List.mem_cons_self
        have hargs : args.map f = args.map g :=
          List.map_congr_left fun a ha => hchild a (List.mem_cons_of_mem _ ha)
        simp only [hcallee, hargs]
    | member | index | unary | binary | logical | conditional =>
        simp only [children, List.forall_mem_cons] at hchild
        simp only [hchild]

end RecordQuery.Expr
