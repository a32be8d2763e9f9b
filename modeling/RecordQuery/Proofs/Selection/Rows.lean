import Mathlib
import RecordQuery.Proofs.Grouping.Selection

/-! # Selects that take one record at a time

A select that does not group, aggregate, order or cut treats each record by itself. Its result is
that of the single records one after the other, and its failure is that of the first record that
fails.
-/

namespace RecordQuery

namespace Select

variable {s : Select}

/-- What a record adds to the result: its projection if that passes the filter, else nothing. -/
def rowRecords (s : Select) (row : Json) : Except EvalError (List Json) :=
  (s.project row).bind fun d => (admits s.filter d).map fun b => if b then [d.toJson] else []

/-- A select with no stages that see several records at once. -/
structure IsRowwise (s : Select) : Prop where
  grouping : s.grouping = none
  aggregates : s.aggregates = []
  order : s.order = none
  limit : s.limit = 0
  offset : s.offset = 0

namespace IsRowwise

/-- The result is the list of the projections that pass the filter. -/
theorem run_eq_map_passing (h : s.IsRowwise) (rows : List Json) :
    s.run rows = (s.passing rows).map fun passed => passed.map fun r => r.2.toJson := by
  rw [run_eq_bind_grouped h.order h.limit h.offset]
  cases s.passing rows with
  | error e => rfl
  | ok passed =>
      have hgrouped : s.grouped passed = .ok (passed.map Prod.snd) := by
        rw [grouped, h.grouping, h.aggregates]
      change (s.grouped passed).map _ = .ok (passed.map fun r => r.2.toJson)
      rw [hgrouped, Except.map, List.map_map]
      rfl

/-- A record adds its own records in front of those of the records behind it. -/
theorem run_cons (h : s.IsRowwise) (row : Json) (rows : List Json) :
    s.run (row :: rows) =
      (s.rowRecords row).bind fun records => (s.run rows).map (records ++ ·) := by
  rw [h.run_eq_map_passing, h.run_eq_map_passing, passing_cons, rowRecords]
  cases s.project row with
  | error e => rfl
  | ok d =>
      cases hb : admits s.filter d with
      | error e => simp [Except.bind, Except.map, hb]
      | ok b => cases b <;> cases s.passing rows <;> simp [Except.bind, Except.map, hb]

theorem run_singleton (h : s.IsRowwise) (row : Json) : s.run [row] = s.rowRecords row := by
  have hnil : s.run [] = .ok [] := h.run_eq_map_passing []
  rw [h.run_cons, hnil]
  cases s.rowRecords row with
  | error e => rfl
  | ok records => exact congrArg Except.ok (List.append_nil records)

/-- The result is that of each single record, one after the other. -/
theorem run_eq_flatten (h : s.IsRowwise) (rows : List Json) :
    s.run rows = (rows.mapM fun row => s.run [row]).map List.flatten := by
  induction rows with
  | nil => exact h.run_eq_map_passing []
  | cons row rows ih =>
      rw [h.run_cons, List.mapM_cons, h.run_singleton, ih]
      cases s.rowRecords row with
      | error e => rfl
      | ok records => cases rows.mapM fun row => s.run [row] <;> rfl

end IsRowwise

/-- How a result is made of the results of single records. A single record gives its projection or
nothing, as the filter says, and the first one that fails is the failure of the whole. -/
structure RunsByRow (s : Select) (rows : List Json) : Prop where
  single : ∀ row ∈ rows, s.run [row] = s.rowRecords row
  joined : s.run rows = (rows.mapM fun row => s.run [row]).map List.flatten
  failed : ∀ before row after e, rows = before ++ row :: after →
    (∀ r ∈ before, ∃ out, s.run [r] = .ok out) → s.run [row] = .error e → s.run rows = .error e

/-- A select that does not group, aggregate, order or cut runs record by record. -/
theorem runsByRow (h : s.IsRowwise) (rows : List Json) : s.RunsByRow rows := by
  constructor
  case single => exact fun row _ => h.run_singleton row
  case joined => exact h.run_eq_flatten rows
  case failed =>
    rintro before row after e rfl hbefore hrow
    rw [h.run_eq_flatten, mapM_eq_error_of_first hbefore hrow]
    rfl

/-- A filter that fails on records without a value. It takes one of three records, and with such a
record among them there is no result, whatever stands behind it. -/
theorem runsByRow_failing :
    let check : Accessor := .new "check" fun d =>
      if (d.property "v").isNullish then .error (.notContainer "v") else .ok (d.property "v")
    let s : Select := { ofColumns [.plain (.field "k"), .plain (.field "v")] with
      filter := some check }
    let row (k : String) (v : Int) : Json := .object [("v", .number (.int v)), ("k", .string k)]
    let out (k : String) (v : Int) : Json := .object [("k", .string k), ("v", .number (.int v))]
    s.IsRowwise ∧ s.run [row "a" 0, row "b" 1, row "c" 0] = .ok [out "b" 1] ∧
      s.run [row "a" 1, .object [("k", .string "b")], .object []] = .error (.notContainer "v") := by
  intro check s row out
  have hs : s.IsRowwise := ⟨rfl, rfl, rfl, rfl, rfl⟩
  refine ⟨hs, (runsByRow hs _).joined, ?_⟩
  exact (runsByRow hs _).failed [row "a" 1] _ [.object []] _ rfl
    (List.forall_mem_singleton.mpr ⟨[out "a" 1], rfl⟩) rfl

end Select

end RecordQuery
