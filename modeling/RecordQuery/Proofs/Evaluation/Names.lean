import RecordQuery.Proofs.Evaluation.Runs

/-! # What evaluation sees of a scope

Evaluation looks up the names that occur in an expression and reads nothing else of a scope. What
else the environment record or the bindings hold has no influence on a value or an error.
-/

namespace RecordQuery

/-- Results are the same. -/
def RunRelation.same : RunRelation where
  Holds r s := r = s
  refl _ := rfl
  bind hr hfg := by
    rw [hr, funext hfg]

/-- The meaning of a name in a scope is what evaluation knows of the name. -/
theorem Context.resolve_eq_of_lookup_eq {s t : Scope} {name : String}
    (h : s.lookup name = t.lookup name) (builtins : BuiltinMap) (strict : Bool) :
    resolve ⟨s, builtins, strict⟩ name = resolve ⟨t, builtins, strict⟩ name := by
  simp only [resolve, h]

namespace Expr

/-- Two scopes in which the names of an expression have the same meanings give the expression the
same value or the same error. -/
theorem eval_eq_of_lookup_eq {s t : Scope} {e : Expr}
    (h : ∀ name ∈ e.names, s.lookup name = t.lookup name) (builtins : BuiltinMap) (strict : Bool) :
    eval ⟨s, builtins, strict⟩ e = eval ⟨t, builtins, strict⟩ e := by
  -- Properties and methods are read, and functions called, without a look at the scope.
  have hrun := eval_related_and_evalList_related .same ⟨s, builtins, strict⟩ ⟨t, builtins, strict⟩
    (fun _ _ => rfl) (fun _ _ _ => rfl) (fun _ _ _ => rfl)
  exact hrun.1 e fun name hname => Context.resolve_eq_of_lookup_eq (h name hname) builtins strict

/-- The name `a` is a field of one record and a binding over another one, a text. -/
theorem eval_eq_of_lookup_eq_shadowed :
    eval ⟨⟨some (.json (.object [("a", .string "xyz"), ("secret", .bool true)])), []⟩,
        .standard, true⟩
        (.call (.member (.ident "Math") "max") [.member (.ident "a") "length"]) =
      eval ⟨⟨some (.json (.string "p")), [("a", .ofString "xyz"), ("b", .undefined)]⟩,
        .standard, true⟩
        (.call (.member (.ident "Math") "max") [.member (.ident "a") "length"]) := by
  apply eval_eq_of_lookup_eq
  intro name hname
  simp only [names, namesOfAll, List.append_nil, List.cons_append, List.nil_append, List.mem_cons,
    List.not_mem_nil, or_false] at hname
  rcases hname with rfl | rfl <;> rfl

end Expr

end RecordQuery
