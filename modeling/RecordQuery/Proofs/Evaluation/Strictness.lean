import RecordQuery.Proofs.Evaluation.Runs

/-! # Strict and permissive evaluation

Strictness only adds errors: a value that strict evaluation finds is found permissively as well, and
so is every error that is not about an unbound name or a property of null or undefined.
-/

namespace RecordQuery

/-- The errors that only strict evaluation reports. -/
def EvalError.IsStrict : EvalError → Prop
  | unboundName _ | notContainer _ => True
  | _ => False

/-- The second result is the first one, unless the first one is an error of strictness. -/
def Relaxes {α : Type} : Except EvalError α → Except EvalError α → Prop
  | .ok a, permissive => permissive = .ok a
  | .error err, permissive => err.IsStrict ∨ permissive = .error err

namespace Relaxes

variable {α β : Type}

theorem refl (r : Except EvalError α) : Relaxes r r := by
  cases r with
  | ok a => rfl
  | error err => exact .inr rfl

theorem unboundName (name : String) (r : Except EvalError α) :
    Relaxes (.error (.unboundName name)) r :=
  .inl trivial

theorem notContainer (key : String) (r : Except EvalError α) :
    Relaxes (.error (.notContainer key)) r :=
  .inl trivial

theorem bind {r s : Except EvalError α} {f g : α → Except EvalError β} (h : Relaxes r s)
    (hfg : ∀ a, Relaxes (f a) (g a)) : Relaxes (r >>= f) (s >>= g) := by
  cases r with
  | ok a =>
      obtain rfl : s = .ok a := h
      exact hfg a
  | error err =>
      rcases h with hstrict | rfl
      · exact .inl hstrict
      · exact .inr rfl

end Relaxes

/-- Relaxing as a relation between runs. -/
def RunRelation.relaxes : RunRelation := ⟨Relaxes, .refl, .bind⟩

namespace Context

variable (scope : Scope) (builtins : BuiltinMap)

theorem resolve_relaxes (name : String) :
    Relaxes (resolve ⟨scope, builtins, true⟩ name) (resolve ⟨scope, builtins, false⟩ name) := by
  unfold resolve
  cases scope.lookup name with
  | some v => exact .refl _
  | none =>
      cases builtins.find? .global name with
      | some f => exact .refl _
      | none =>
          dsimp only
          split
          · exact .refl _
          · exact .unboundName name _

theorem readMember_relaxes (target : Value) (key : String) :
    Relaxes (readMember ⟨scope, builtins, true⟩ target key)
      (readMember ⟨scope, builtins, false⟩ target key) := by
  unfold readMember
  split
  · exact .refl _
  · split
    · exact .notContainer key _
    · exact .refl _

theorem method_relaxes (this : Value) (key : String) (callee : Expr) :
    Relaxes (method ⟨scope, builtins, true⟩ this key callee)
      (method ⟨scope, builtins, false⟩ this key callee) := by
  unfold method
  cases receiver? this with
  | none =>
      dsimp only
      split
      · exact .notContainer key _
      · exact .refl _
  | some receiver => exact .refl _

end Context

namespace Expr

/-- Permissive evaluation relaxes strict evaluation, for an expression and for a list. -/
theorem eval_relaxes_and_evalList_relaxes (scope : Scope) (builtins : BuiltinMap) :
    (∀ e, Relaxes (eval ⟨scope, builtins, true⟩ e) (eval ⟨scope, builtins, false⟩ e)) ∧
    ∀ items, Relaxes (evalList ⟨scope, builtins, true⟩ items)
      (evalList ⟨scope, builtins, false⟩ items) := by
  have hruns := eval_related_and_evalList_related .relaxes ⟨scope, builtins, true⟩
    ⟨scope, builtins, false⟩ (Context.readMember_relaxes scope builtins)
    (Context.method_relaxes scope builtins) fun f this values => .refl _
  have hnames := fun name => Context.resolve_relaxes scope builtins name
  exact ⟨fun e => hruns.1 e fun name _ => hnames name,
    fun items => hruns.2 items fun name _ => hnames name⟩

/-- Strictness only adds errors about unbound names and about properties of null and undefined: what
else strict evaluation gives, a value or an error, permissive evaluation gives too. This holds with
any functions in the builtin map, whatever a host computes in them. -/
theorem eval_permissive_of_strict (scope : Scope) (builtins : BuiltinMap) (e : Expr) :
    (∀ v, eval ⟨scope, builtins, true⟩ e = .ok v → eval ⟨scope, builtins, false⟩ e = .ok v) ∧
    ∀ err, eval ⟨scope, builtins, true⟩ e = .error err →
      (∀ name, err ≠ .unboundName name) → (∀ key, err ≠ .notContainer key) →
      eval ⟨scope, builtins, false⟩ e = .error err := by
  have hrelaxes := (eval_relaxes_and_evalList_relaxes scope builtins).1 e
  constructor
  · intro v hv
    rw [hv] at hrelaxes
    exact hrelaxes
  · intro err herr hname hkey
    rw [herr] at hrelaxes
    rcases hrelaxes with hstrict | hsame
    · cases err with
      | unboundName name => exact absurd rfl (hname name)
      | notContainer key => exact absurd rfl (hkey key)
      | _ => exact hstrict.elim
    · exact hsame

/-- Neither mode looks at a branch that is not taken or at an argument of what is no function. The
host has a function that gives a library and one that fails as the evaluator itself would. -/
theorem eval_permissive_of_strict_unreached :
    let host : Host := fun id _ _ =>
      if id = 0 then .ok (.library "Math") else .error (.notCallable "Math")
    let builtins := BuiltinMap.ofList host
      [⟨"library", [], .global, .any, .host 0⟩, ⟨"refuse", [], .library "Math", .any, .host 1⟩]
    eval ⟨.empty, builtins, false⟩ (.conditional (.literal (.bool true))
        (.call (.ident "library") []) (.ident "missing")) = .ok (.library "Math") ∧
    eval ⟨.empty, builtins, false⟩ (.call (.literal .null) [.ident "missing"]) =
      .error (.notCallable "null") ∧
    eval ⟨.empty, builtins, false⟩ (.call (.member (.call (.ident "library") []) "refuse") []) =
      .error (.notCallable "Math") := by
  intro host builtins
  have hstrict := eval_permissive_of_strict .empty builtins
  refine ⟨(hstrict _).1 _ ?_, (hstrict _).2 _ ?_ nofun nofun, (hstrict _).2 _ ?_ nofun nofun⟩
  all_goals
    simp only [eval]
    rfl

end Expr

end RecordQuery
