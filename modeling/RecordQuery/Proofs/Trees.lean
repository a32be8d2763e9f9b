import RecordQuery.Expr.Tree

/-! # Expressions inside expressions

An induction principle for trees that have lists of trees in them, and properties that hold
everywhere in a tree.
-/

namespace RecordQuery.Expr

/-- Induction over trees, with one hypothesis for each item of a list. -/
@[elab_as_elim, induction_eliminator]
theorem induct {motive : Expr → Prop}
    (literal : ∀ value, motive (.literal value))
    (undefined : motive .undefined)
    (ident : ∀ name, motive (.ident name))
    (array : ∀ items, (∀ e ∈ items, motive e) → motive (.array items))
    (member : ∀ object name, motive object → motive (.member object name))
    (index : ∀ object key, motive object → motive key → motive (.index object key))
    (call : ∀ callee args, motive callee → (∀ e ∈ args, motive e) → motive (.call callee args))
    (unary : ∀ op operand, motive operand → motive (.unary op operand))
    (binary : ∀ op left right, motive left → motive right → motive (.binary op left right))
    (logical : ∀ op left right, motive left → motive right → motive (.logical op left right))
    (conditional : ∀ test consequent alternate, motive test → motive consequent →
      motive alternate → motive (.conditional test consequent alternate)) :
    ∀ e, motive e :=
  @Expr.rec motive (fun items => ∀ e ∈ items, motive e) literal undefined ident array member index
    call unary binary logical conditional (by simp)
    (fun _ _ hitem hrest => List.forall_mem_cons.mpr ⟨hitem, hrest⟩)

/-- The expressions that an expression is made of. -/
def children : Expr → List Expr
  | array items => items
  | member object _ => [object]
  | index object key => [object, key]
  | call callee args => callee :: args
  | unary _ operand => [operand]
  | binary _ left right | logical _ left right => [left, right]
  | conditional test consequent alternate => [test, consequent, alternate]
  | literal _ | undefined | ident _ => []

/-- A property holds of an expression and of all that it is made of. -/
inductive Everywhere (p : Expr → Prop) : Expr → Prop where
  | intro {e : Expr} (here : p e) (inside : ∀ c ∈ e.children, Everywhere p c) : Everywhere p e

namespace Everywhere

variable {p q : Expr → Prop} {e : Expr}

theorem here (h : Everywhere p e) : p e := by
  cases h with
  | intro here _ => exact here

theorem inside (h : Everywhere p e) {c : Expr} (hc : c ∈ e.children) : Everywhere p c := by
  cases h with
  | intro _ inside => exact inside c hc

theorem iff_children : Everywhere p e ↔ p e ∧ ∀ c ∈ e.children, Everywhere p c :=
  ⟨fun h => ⟨h.here, fun _ => h.inside⟩, fun h => .intro h.1 h.2⟩

section Constructors

variable {object key callee operand left right test consequent alternate : Expr}
  {items args : List Expr}

@[simp] theorem literal_iff {value : Json} :
    Everywhere p (.literal value) ↔ p (.literal value) := by
  rw [iff_children]
  simp [children]

@[simp] theorem undefined_iff : Everywhere p .undefined ↔ p .undefined := by
  rw [iff_children]
  simp [children]

@[simp] theorem ident_iff {name : String} : Everywhere p (.ident name) ↔ p (.ident name) := by
  rw [iff_children]
  simp [children]

@[simp] theorem array_iff :
    Everywhere p (.array items) ↔ p (.array items) ∧ ∀ e ∈ items, Everywhere p e :=
  iff_children

@[simp] theorem member_iff {name : String} :
    Everywhere p (.member object name) ↔ p (.member object name) ∧ Everywhere p object := by
  rw [iff_children]
  simp [children]

@[simp] theorem index_iff :
    Everywhere p (.index object key) ↔
      p (.index object key) ∧ Everywhere p object ∧ Everywhere p key := by
  rw [iff_children]
  simp [children]

@[simp] theorem call_iff :
    Everywhere p (.call callee args) ↔
      p (.call callee args) ∧ Everywhere p callee ∧ ∀ e ∈ args, Everywhere p e := by
  rw [iff_children]
  simp [children]

@[simp] theorem unary_iff {op : UnaryOp} :
    Everywhere p (.unary op operand) ↔ p (.unary op operand) ∧ Everywhere p operand := by
  rw [iff_children]
  simp [children]

@[simp] theorem binary_iff {op : BinaryOp} :
    Everywhere p (.binary op left right) ↔
      p (.binary op left right) ∧ Everywhere p left ∧ Everywhere p right := by
  rw [iff_children]
  simp [children]

@[simp] theorem logical_iff {op : LogicalOp} :
    Everywhere p (.logical op left right) ↔
      p (.logical op left right) ∧ Everywhere p left ∧ Everywhere p right := by
  rw [iff_children]
  simp [children]

@[simp] theorem conditional_iff :
    Everywhere p (.conditional test consequent alternate) ↔
      p (.conditional test consequent alternate) ∧ Everywhere p test ∧
        Everywhere p consequent ∧ Everywhere p alternate := by
  rw [iff_children]
  simp [children]

end Constructors

theorem mono (h : Everywhere p e) (hpq : ∀ c, p c → q c) : Everywhere q e := by
  induction h with
  | intro here _ ih => exact .intro (hpq _ here) ih

theorem congr (hpq : ∀ c, p c ↔ q c) : Everywhere p e ↔ Everywhere q e :=
  ⟨fun h => h.mono fun c => (hpq c).mp, fun h => h.mono fun c => (hpq c).mpr⟩

theorem and_iff : Everywhere (fun e => p e ∧ q e) e ↔ Everywhere p e ∧ Everywhere q e := by
  constructor
  · intro h
    induction h with
    | intro here _ ih =>
        exact ⟨.intro here.1 fun c hc => (ih c hc).1, .intro here.2 fun c hc => (ih c hc).2⟩
  · rintro ⟨hp, hq⟩
    induction hp with
    | intro here _ ih => exact .intro ⟨here, hq.here⟩ fun c hc => ih c hc (hq.inside hc)

end Everywhere

end RecordQuery.Expr
