import RecordQuery.Proofs.Evaluation.Combinations
import RecordQuery.Proofs.Evaluation.Paths

/-! # Negations of combinations

The negation of a disjunction is the conjunction of the negations, and the other way round. The two
test the same predicates, as far as the first one that fails or settles the outcome.
-/

namespace RecordQuery

namespace LogicalOp

variable {α ε : Type} (op : LogicalOp)

/-- The operator that is settled by what leaves the other one open. -/
def dual : LogicalOp → LogicalOp
  | and => or
  | or => and

/-- A test that succeeds and does not settle the outcome. -/
def Undecided (r : Except ε Bool) : Prop :=
  ∃ b, r = .ok b ∧ op.settles b = false

/-- The outcome of tests with the given results. It is the result of the first test that fails or
settles it, whatever the tests behind would give; if there is none, no test was settling. -/
inductive Outcome : List (Except ε Bool) → Except ε Bool → Prop where
  | decided {before after : List (Except ε Bool)} {r : Except ε Bool}
      (hbefore : ∀ r' ∈ before, op.Undecided r') (hr : ¬ op.Undecided r) :
      Outcome (before ++ r :: after) r
  | undecided {results : List (Except ε Bool)} {b : Bool}
      (hresults : ∀ r ∈ results, op.Undecided r) (hb : op.settles b = false) :
      Outcome results (.ok b)

variable {op}

theorem not_undecided_error (e : ε) : ¬ op.Undecided (.error e) := by
  rintro ⟨b, hb, -⟩
  cases hb

theorem undecided_ok_iff {b : Bool} :
    op.Undecided (.ok b : Except ε Bool) ↔ op.settles b = false := by
  constructor
  · rintro ⟨c, hc, hsettles⟩
    exact Except.ok.inj hc ▸ hsettles
  · exact fun h => ⟨b, rfl, h⟩

/-- A test that fails or settles the outcome decides it, whatever stands behind. -/
theorem Outcome.first {r : Except ε Bool} (hr : ¬ op.Undecided r) (after : List (Except ε Bool)) :
    op.Outcome (r :: after) r :=
  .decided (List.forall_mem_nil _) hr

/-- A test that leaves the outcome open leaves it to those behind. -/
theorem Outcome.cons {r : Except ε Bool} (hr : op.Undecided r) {results : List (Except ε Bool)}
    {out : Except ε Bool} (h : op.Outcome results out) : op.Outcome (r :: results) out := by
  cases h with
  | decided hbefore hout => exact .decided (List.forall_mem_cons.mpr ⟨hr, hbefore⟩) hout
  | undecided hresults hb => exact .undecided (List.forall_mem_cons.mpr ⟨hr, hresults⟩) hb

theorem outcome_testAll (op : LogicalOp) (test : α → Except ε Bool) (items : List α) :
    op.Outcome (items.map test) (op.testAll test items) := by
  induction items with
  | nil => cases op <;> exact .undecided (List.forall_mem_nil _) rfl
  | cons a items ih =>
      rw [testAll_cons, List.map_cons]
      cases test a with
      | error e => exact .first (not_undecided_error e) _
      | ok b =>
          simp only [Except.bind]
          split
          next hb => exact .first (by simp [undecided_ok_iff, hb]) _
          next hb => exact ih.cons (undecided_ok_iff.mpr (Bool.eq_false_iff.mpr hb))

theorem dual_settles (op : LogicalOp) (b : Bool) : op.dual.settles (!b) = op.settles b := by
  cases op <;> cases b <;> rfl

/-- Negated tests under the dual operator have the negated outcome. -/
theorem testAll_dual (op : LogicalOp) (test : α → Except ε Bool) (items : List α) :
    op.dual.testAll (fun a => (test a).map Bool.not) items =
      (op.testAll test items).map Bool.not := by
  induction items with
  | nil => cases op <;> rfl
  | cons a items ih =>
      rw [testAll_cons, testAll_cons, ih]
      cases test a with
      | error e => rfl
      | ok b =>
          simp only [Except.map, Except.bind, dual_settles]
          split <;> rfl

end LogicalOp

namespace Accessor

variable {specs : List Spec} {tests : List Accessor}

/-- The combination of specs under a logical operator. -/
def combined : LogicalOp → List Spec → Except SyntaxError Accessor
  | .and => and
  | .or => or

theorem combined_eq_map (op : LogicalOp) (specs : List Spec) :
    combined op specs = (exprs specs).map (combine op) := by
  cases op <;> rfl

/-- Accessors are expressions as they are. -/
theorem exprs_accessors (tests : List Accessor) : exprs (tests.map .accessor) = .ok tests := by
  rw [exprs, mapM_eq_ok_iff, List.forall₂_map_left_iff, List.forall₂_same]
  exact fun _ _ => rfl

theorem mapM_not_of_exprs (h : exprs specs = .ok tests) :
    specs.mapM not = .ok (tests.map negation) := by
  rw [mapM_eq_ok_iff, List.forall₂_map_right_iff]
  refine (mapM_eq_ok_iff.mp h).imp fun spec a ha => ?_
  rw [not, ha]
  rfl

theorem call_combine (op : LogicalOp) (tests : List Accessor) (d : Value) :
    (combine op tests).call d = (op.testAll (fun a => a.test d) tests).map .ofBool := by
  cases op <;> rfl

theorem call_negation (a : Accessor) (d : Value) :
    (negation a).call d = (a.test d).map fun b => .ofBool !b := rfl

theorem test_negation (a : Accessor) (d : Value) :
    (negation a).test d = (a.test d).map Bool.not := by
  rw [test, call_negation]
  cases a.test d <;> rfl

theorem call_combine_negation (op : LogicalOp) (tests : List Accessor) (d : Value) :
    (combine op.dual (tests.map negation)).call d = (negation (combine op tests)).call d := by
  have hnegated : op.dual.testAll (fun a => a.test d) (tests.map negation) =
      (op.testAll (fun a => a.test d) tests).map Bool.not := by
    simp only [op.dual.testAll_map, test_negation, op.testAll_dual]
  rw [call_combine, hnegated, call_negation, test_combine]
  cases op.testAll (fun a => a.test d) tests <;> rfl

/-- The negation of a combination of specs that are expressions is the combination, under the dual
operator, of their negations. On each record both negate the outcome of the same tests, or fail as
the first test that fails before the outcome is settled. -/
theorem de_morgan (op : LogicalOp) (h : exprs specs = .ok tests) :
    ∃ a b, (combined op specs).bind (fun c => not (.accessor c)) = .ok a ∧
      (specs.mapM not).bind (fun negations => combined op.dual (negations.map .accessor)) = .ok b ∧
      ∀ d, ∃ r, op.Outcome (tests.map fun t => t.test d) r ∧
        a.call d = r.map (fun holds => .ofBool !holds) ∧
        b.call d = r.map (fun holds => .ofBool !holds) := by
  refine ⟨negation (combine op tests), combine op.dual (tests.map negation), ?_, ?_, fun d => ?_⟩
  · rw [combined_eq_map, h]
    rfl
  · rw [mapM_not_of_exprs h]
    change combined op.dual _ = _
    rw [combined_eq_map, exprs_accessors]
    rfl
  · refine ⟨_, op.outcome_testAll (fun a => a.test d) tests, ?_, ?_⟩
    · rw [call_negation, test_combine]
    · rw [call_combine_negation, call_negation, test_combine]

/-- A predicate that always fails behind a field. Where the field holds, the predicate is not
tested; where it does not, both sides fail. -/
theorem de_morgan_failing :
    let fails : Accessor := .new "fails" fun _ => .error (.unboundName "x")
    let specs : List Spec := [.text "a", .accessor fails]
    let row (v : Int) : Value := .json (.object [("a", .number (.int v))])
    ∃ tests a b, exprs specs = .ok tests ∧
      (or specs).bind (fun c => not (.accessor c)) = .ok a ∧
      (specs.mapM not).bind (fun negations => and (negations.map .accessor)) = .ok b ∧
      (∀ d, a.call d = b.call d) ∧
      a.call (row 1) = .ok (.ofBool false) ∧ a.call (row 0) = .error (.unboundName "x") := by
  intro fails specs row
  have hfield : Expr.parse (".".intercalate ["a"]) = .ok (.path "a" []) :=
    Grammar.parse_path (Expr.isName_of_all rfl (by decide) (by decide)) (by decide)
      (List.forall_mem_nil _)
  have hspec : expr (.text "a") = .ok (ofExpr "a" (.ident "a")) := by
    rw [expr_text]
    change (Expr.parse (".".intercalate ["a"])).map _ = _
    rw [hfield]
    rfl
  have hspecs : exprs specs = .ok [ofExpr "a" (.ident "a"), fails] :=
    mapM_eq_ok_iff.mpr (.cons hspec (.cons rfl .nil))
  obtain ⟨a, b, ha, hb, hcall⟩ := de_morgan .or hspecs
  have hsame (d : Value) : a.call d = b.call d := by
    obtain ⟨r, -, hleft, hright⟩ := hcall d
    rw [hleft, hright]
  have hnegation : combined .or specs = .ok (disjunction [ofExpr "a" (.ident "a"), fails]) := by
    rw [combined_eq_map, hspecs]
    rfl
  have heq : negation (disjunction [ofExpr "a" (.ident "a"), fails]) = a := by
    rw [hnegation] at ha
    exact Except.ok.inj ha
  exact ⟨_, a, b, hspecs, ha, hb, hsame, by rw [← heq]; rfl, by rw [← heq]; rfl⟩

end Accessor

end RecordQuery
