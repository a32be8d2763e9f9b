import Mathlib
import RecordQuery.Proofs.Evaluation.SanitizedKeys
import RecordQuery.Proofs.Values.Symmetry

/-! # Fields that share a name

Different keys may be sanitized to one name, and the name then reads the last of their fields. A key
that is its own name gets no preference: its field is read unless a later key is made into it, and
what stands before the field never counts. Without sanitizing, its field is always read.
-/

namespace RecordQuery

open RecordQuery.Parser

/-- A key that is a name already, and no constant. -/
structure IsOwnName (key : String) : Prop where
  name : IsName key
  kept : sanitized key = key
  notReserved : key ∉ Grammar.reserved

theorem Fields.get?_append_cons {front back : Fields} {key : String} {value : Json}
    (hkeys : (keys (front ++ (key, value) :: back)).Nodup) :
    get? (front ++ (key, value) :: back) key = some value := by
  apply get?_of_mem hkeys
  apply List.mem_append_right
  exact List.mem_cons_self

namespace Accessor

/-- The expression of a name that is no constant is compiled, and it reads the field of that name
from the record, sanitized or not. -/
theorem exists_exprWith_of_isOwnName {key : String} (hkey : IsOwnName key)
    (options : ExprOptions) :
    ∃ a, exprWith options (.text key) = .ok a ∧
      ∀ (fields : Fields) (value : Json),
        (if options.sanitizeKeys then sanitizeFields fields else fields).get? key = some value →
          a.call (.json (.object fields)) = .ok (.json value) := by
  refine ⟨_, exprWith_of_isName hkey.name options, ?_⟩
  intro fields value hvalue
  have henv : (if options.sanitizeKeys then sanitizeRecord (.json (.object fields))
      else .json (.object fields)) =
      .json (.object (if options.sanitizeKeys then sanitizeFields fields else fields)) := by
    cases options.sanitizeKeys with
    | true => rfl
    | false => rfl
  change (nameExpr key).eval ⟨.ofEnv _, _, _⟩ = _
  rw [henv, Grammar.nameExpr_of_not_mem_reserved hkey.notReserved, Expr.eval]
  exact Context.resolve_of_get? hvalue _ _

section

variable {front back : Fields} {key : String} {value : Json} (hkey : IsOwnName key) (strict : Bool)
include hkey

theorem exists_exprWith_plain (hkeys : (Fields.keys (front ++ (key, value) :: back)).Nodup) :
    ∃ a, exprWith ⟨strict, false⟩ (.text key) = .ok a ∧
      a.call (.json (.object (front ++ (key, value) :: back))) = .ok (.json value) := by
  obtain ⟨a, ha, hcall⟩ := exists_exprWith_of_isOwnName hkey ⟨strict, false⟩
  exact ⟨a, ha, hcall _ _ (Fields.get?_append_cons hkeys)⟩

theorem exists_exprWith_sanitizing :
    ∃ a, exprWith ⟨strict, true⟩ (.text key) = .ok a ∧
      a.call (.json (.object (front ++ (key, value) :: back))) =
        .ok (.json ((back.lastNamed? key).getD value)) := by
  obtain ⟨a, ha, hcall⟩ := exists_exprWith_of_isOwnName hkey ⟨strict, true⟩
  refine ⟨a, ha, hcall _ _ ?_⟩
  rw [if_pos rfl, Fields.get?_sanitizeFields_eq]
  exact Fields.lastNamed?_append_cons hkey.kept

/-- A key that is its own name reads its own field without sanitizing. With sanitizing it reads the
last field behind whose key is made into it, and its own field only if there is none. So the two
agree unless such a field holds another value. -/
theorem exprWith_own_field (hkeys : (Fields.keys (front ++ (key, value) :: back)).Nodup) :
    let record : Value := .json (.object (front ++ (key, value) :: back))
    ∃ plain sanitizing, exprWith ⟨strict, false⟩ (.text key) = .ok plain ∧
      exprWith ⟨strict, true⟩ (.text key) = .ok sanitizing ∧
      plain.call record = .ok (.json value) ∧
      sanitizing.call record = .ok (.json ((back.lastNamed? key).getD value)) ∧
      ((∀ field ∈ back, sanitized field.1 ≠ key) →
        sanitizing.call record = .ok (.json value)) ∧
      (sanitizing.call record = plain.call record ↔
        ∀ last ∈ back.lastNamed? key, last = value) := by
  intro record
  obtain ⟨plain, hplain, hown⟩ := exists_exprWith_plain hkey strict hkeys
  obtain ⟨sanitizing, hsanitizing, hlast⟩ :=
    @exists_exprWith_sanitizing front back key value hkey strict
  refine ⟨plain, sanitizing, hplain, hsanitizing, hown, hlast, ?_, ?_⟩
  · intro hnone
    rw [hlast, Fields.lastNamed?_eq_none_iff.mpr hnone, Option.getD_none]
  · rw [hlast, hown, Except.ok.injEq, Value.json.injEq]
    cases back.lastNamed? key with
    | none => simp
    | some last => simp

end

theorem isOwnName_unit_price : IsOwnName "unit_price" where
  name := Expr.isName_of_all rfl (by decide) (by decide)
  kept := by decide +kernel
  notReserved := by decide

/-- A field in front whose key is made into the same name, and one behind that is
made into another. -/
theorem exprWith_own_field_front :
    IsOwnName "unit_price" ∧ sanitized "unit price" = "unit_price" ∧
      ∃ sanitizing, exprWith ⟨false, true⟩ (.text "unit_price") = .ok sanitizing ∧
        sanitizing.call (.json (.object
          [("unit price", .bool true), ("unit_price", .null), ("unit", .bool false)])) =
            .ok (.json .null) := by
  have hkeys : (Fields.keys ([("unit price", .bool true)] ++
      ("unit_price", .null) :: [("unit", .bool false)])).Nodup := by decide
  obtain ⟨-, sanitizing, -, hsanitizing, -, -, hown, -⟩ :=
    exprWith_own_field isOwnName_unit_price false hkeys
  refine ⟨isOwnName_unit_price, by decide +kernel, sanitizing, hsanitizing, hown ?_⟩
  decide +kernel

/-- A field behind whose key is made into the same name hides the field of that name. -/
theorem exprWith_other_field :
    let record : Value :=
      .json (.object [("unit_price", .number (.int 1)), ("unit price", .number (.int 2))])
    IsOwnName "unit_price" ∧
      ∃ plain sanitizing, exprWith ⟨false, false⟩ (.text "unit_price") = .ok plain ∧
        exprWith ⟨false, true⟩ (.text "unit_price") = .ok sanitizing ∧
        plain.call record = .ok (.json (.number (.int 1))) ∧
        sanitizing.call record = .ok (.json (.number (.int 2))) := by
  intro record
  have hkeys : (Fields.keys ([] ++ ("unit_price", Json.number (.int 1)) ::
      [("unit price", .number (.int 2))])).Nodup := by decide
  have hname : sanitized "unit price" = "unit_price" := by decide +kernel
  have hlast : Fields.lastNamed? [("unit price", .number (.int 2))] "unit_price" =
      some (.number (.int 2)) := @Fields.lastNamed?_append_cons [] [] _ _ _ hname
  obtain ⟨plain, hplain, hown⟩ := exists_exprWith_plain isOwnName_unit_price false hkeys
  obtain ⟨sanitizing, hsanitizing, hother⟩ :=
    @exists_exprWith_sanitizing [] [("unit price", .number (.int 2))] _ (.number (.int 1))
      isOwnName_unit_price false
  rw [hlast, Option.getD_some] at hother
  exact ⟨isOwnName_unit_price, plain, sanitizing, hplain, hsanitizing, hown, hother⟩

end Accessor

end RecordQuery
