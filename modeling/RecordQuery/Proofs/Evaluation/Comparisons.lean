import RecordQuery.Proofs.Evaluation.Literals
import RecordQuery.Proofs.Grammar.Texts
import RecordQuery.Proofs.Printing.Derivation
import RecordQuery.Query.Comparison

/-! # Comparisons with a fixed value

A comparison is an expression that is put together from texts and read back. What it computes is
the operator between the record and the value that the text of the fixed value has.
-/

namespace RecordQuery

open Grammar Token

namespace Accessor

variable {op : BinaryOp} {v w : Json}

theorem toList_comparisonText (op : BinaryOp) (v : Json) :
    (comparisonText op.text v).toList = ['d'] ++ (spaced op.punct ++ v.compact) := by
  simp [comparisonText, Json.toText, spaced, BinaryOp.text_punct]

/-- The parameter of a comparison in front of its operator. -/
theorem readsAs_parameter (rest : List Char) : ReadsAs ['d'] [.ident "d"] (' ' :: rest) := by
  have hname : IsName "d" := ⟨'d', [], rfl, by decide, nofun⟩
  refine kindsFrom_name hname ?_
  rintro c ⟨⟩
  decide

/-- The text of a comparison is read as the operator between its parameter and what the text of the
value is read as. -/
theorem parse_comparisonText {d : Nat} {ts : List TokenKind} {e : Expr}
    (hreads : ReadsAs v.compact ts []) (hder : Derives .unary ts e d) (hd : d < Expr.maxDepth) :
    Expr.parse (comparisonText op.text v) = .ok (.binary op (.ident "d") e) := by
  have hparameter : Derives .unary [.ident "d"] (.ident "d") 0 :=
    .unprefixed (.unsuffixed (.name (by decide)))
  have hwhole := Derives.operator op.operator (hparameter.chain _) (hder.asOperand _)
  have htext : ReadsAs (comparisonText op.text v).toList
      ([.ident "d"] ++ ([.punct op.punct] ++ ts)) [] := by
    rw [toList_comparisonText]
    have hoperator := (readsAs_spaced op.punct (v.compact ++ [])).append hreads
    exact (readsAs_parameter _).append hoperator
  have hwithin := parse_within htext (.whole hwhole.loosest)
  exact hwithin.eq (by omega)

/-- The operator between the record and what the text of the value is read as. -/
theorem compare_of_denotes {n : Nat} (h : Denotes n v.compact w) (hn : n < Expr.maxDepth)
    (op : BinaryOp) : ∃ a, compare op.text v = .ok a ∧
      ∀ x : Value, a.call x = .ok (op.apply x (.json w)) := by
  obtain ⟨ts, e, d, hreads, hder, hd, hvalue⟩ := h
  have hparse : Expr.parse (comparisonText op.text v) = .ok (.binary op (.ident "d") e) :=
    parse_comparisonText hreads hder (by omega)
  have hcompile : Formula.compile .standard ["d"] (comparisonText op.text v) =
      .ok ⟨["d"], .binary op (.ident "d") e, comparisonText op.text v, .standard, false⟩ := by
    rw [Formula.compile, hparse]
    rfl
  refine ⟨_, by rw [compare, hcompile], fun x => ?_⟩
  change Expr.eval _ (.binary op (.ident "d") e) = _
  rw [Expr.eval, hvalue]
  rfl

/-- A comparison with a value without objects, fractions and large integers compiles, and it
computes the operator between the record and that value, if arrays nest at most 126 deep. -/
theorem compare_plain (op : BinaryOp) {v : Json} (hv : v.Plain 126) :
    ∃ a, compare op.text v = .ok a ∧ ∀ x : Value, a.call x = .ok (op.apply x (.json v)) :=
  compare_of_denotes hv.denotes (by decide) op

/-- A text with escapes, and a negative integer in an inner array. -/
theorem compare_plain_nested :
    let v : Json := .array [.string "\"\\\n\x00",
      .array [.number (.int (-9007199254740991)), .null]]
    v.Plain 126 ∧ ∃ a, compare "===" v = .ok a ∧
      ∀ x : Value, a.call x = .ok (BinaryOp.strictEq.apply x (.json v)) := by
  intro v
  have hinner : ∀ item ∈ [Json.number (.int (-9007199254740991)), .null], item.Plain 124 :=
    List.forall_mem_cons.mpr ⟨.int (by decide), List.forall_mem_singleton.mpr .null⟩
  have hplain : v.Plain 126 :=
    .array (List.forall_mem_cons.mpr ⟨.string _, List.forall_mem_singleton.mpr (.array hinner)⟩)
  exact ⟨hplain, compare_plain .strictEq hplain⟩

end Accessor

end RecordQuery
