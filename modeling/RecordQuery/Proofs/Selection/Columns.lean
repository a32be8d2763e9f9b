import Mathlib
import RecordQuery.Proofs.Grouping.Selection

/-! # Selects of columns

A projection writes the values of the columns over the fields that it keeps of the record. A field
stands where its key was first written and holds what was last written under it.
-/

namespace RecordQuery

/-! ## Records that are written on -/

namespace Fields

variable {fields : Fields}

/-- A record with pairs written on it has its own keys and then the new ones, each where it was
first written. -/
theorem keys_insertAll (h : fields.keys.Nodup) (pairs : List (String × Json)) :
    (fields.insertAll pairs).keys = (fields.keys ++ pairs.map Prod.fst).eraseDups := by
  induction pairs using List.reverseRecOn with
  | nil =>
      rw [List.map_nil, List.append_nil, FirstSeen.eraseDups_of_nodup h]
      rfl
  | append_singleton pairs pair ih =>
      rw [insertAll_append_singleton, keys_insert, ih, List.map_append, List.map_singleton,
        ← List.append_assoc]
      -- A key that is there already stays in its place, whichever value is written.
      by_cases hmem : pair.1 ∈ fields.keys ++ pairs.map Prod.fst
      · rw [if_pos (List.mem_eraseDups.mpr hmem), FirstSeen.eraseDups_append_of_mem hmem]
      · rw [if_neg (mt List.mem_eraseDups.mp hmem), FirstSeen.eraseDups_append_of_not_mem hmem]

end Fields

/-- The fields of an object; other values have none. -/
def Json.ownFields : Json → Fields
  | .object fields => fields
  | _ => []

namespace Select

/-! ## Columns -/

/-- The columns that are left without those named `*`. -/
def written (columns : List Accessor) : List Accessor :=
  columns.filter fun a => a.name != "*"

/-- The fields that a projection keeps of a record, its own if a column is named `*`. -/
def kept (columns : List Accessor) (row : Json) : Fields :=
  if "*" ∈ columns.map Accessor.name then row.ownFields else []

/-- The column whose value a record has under a name, the last one of that name. -/
def columnNamed? (columns : List Accessor) (name : String) : Option Accessor :=
  (written columns).reverse.find? fun a => a.name == name

/-- The fields of an output record: the keys are those of the kept fields and then the names of the
columns, without repetition. Under the name of a column is its value, under other names the value
that the record has. -/
structure IsProjection (columns : List Accessor) (row : Json) (fields : Fields) : Prop where
  keys : fields.keys = ((kept columns row).keys ++ (written columns).map Accessor.name).eraseDups
  column : ∀ name a, columnNamed? columns name = some a →
    ∃ v, a.call (.json row) = .ok v ∧ fields.get? name = some v.toJson
  other : ∀ name, columnNamed? columns name = none →
    fields.get? name = (kept columns row).get? name

/-- What a column writes for a record. -/
def cell (row : Json) (a : Accessor) : String × Json :=
  (a.name, (valueOr .undefined (a.call (.json row))).toJson)

theorem foldlM_writeColumn_eq_ok_iff {columns : List Accessor} {row : Json} {out final : Fields} :
    columns.foldlM (writeColumn (.json row)) out = .ok final ↔
      (∀ a ∈ columns, ∃ v, a.call (.json row) = .ok v) ∧
        final = out.insertAll (columns.map (cell row)) := by
  refine foldlM_eq_ok_iff_of (fun seen : List Accessor => out.insertAll (seen.map (cell row)))
    fun seen a next => ?_
  rw [writeColumn, List.map_append, List.map_singleton, Fields.insertAll_append_singleton]
  exact map_eq_ok_iff_valueOr Value.undefined

/-- The kept fields of a record with the values of the columns written on them. -/
def projection (columns : List Accessor) (row : Json) : Fields :=
  (kept columns row).insertAll ((written columns).map (cell row))

theorem isProjection_projection {columns : List Accessor} {row : Json}
    (hkeys : row.ownFields.keys.Nodup)
    (hcalls : ∀ a ∈ written columns, ∃ v, a.call (.json row) = .ok v) :
    IsProjection columns row (projection columns row) := by
  have hkept : (kept columns row).keys.Nodup := by
    rw [kept]
    split
    · exact hkeys
    · exact .nil
  have hget (name : String) := Fields.get?_insertAll_map Accessor.name
    (fun a => (cell row a).2) (written columns) (kept columns row) name
  refine ⟨?_, fun name a ha => ?_, fun name hnone => ?_⟩
  · rw [projection, Fields.keys_insertAll hkept, List.map_map]
    rfl
  · obtain ⟨v, hv⟩ := hcalls a (List.mem_reverse.mp (List.mem_of_find?_eq_some ha))
    refine ⟨v, hv, (hget name).trans ?_⟩
    rw [← columnNamed?, ha, Option.map_some, cell, hv, valueOr_ok, Option.some_or]
  · refine (hget name).trans ?_
    rw [← columnNamed?, hnone]
    rfl

/-! ## The run of a select that only projects -/

theorem project_of_columns {s : Select} (hleft : s.columns ≠ []) (row : Json) :
    s.project row = (s.columns.foldlM (writeColumn (.json row)) (keptFields s.splat row)).map
      fun out => .json (.object out) := by
  rw [project]
  split
  next hnil => exact absurd hnil hleft
  next => rfl

/-- Without further stages each record has its projection as its result. -/
theorem run_of_project {s : Select} (haggregates : s.aggregates = []) (hfilter : s.filter = none)
    (hgrouping : s.grouping = none) (horder : s.order = none) (hlimit : s.limit = 0)
    (hoffset : s.offset = 0) {rows : List Json} {f : Json → Value}
    (hproject : ∀ row ∈ rows, s.project row = .ok (f row)) :
    s.run rows = .ok (rows.map fun row => (f row).toJson) := by
  have hpassing : s.passing rows = .ok (rows.map fun row => (row, f row)) := by
    induction rows with
    | nil => rfl
    | cons row rows ih =>
        obtain ⟨hrow, hrows⟩ := List.forall_mem_cons.mp hproject
        rw [passing_cons, hrow, ih hrows, hfilter]
        rfl
  have hgrouped : s.grouped (rows.map fun row => (row, f row)) = .ok (rows.map f) := by
    rw [grouped, hgrouping, haggregates, List.map_map]
    rfl
  refine (run_eq_ok_iff horder hlimit hoffset).mpr ⟨_, _, hpassing, hgrouped, ?_⟩
  rw [List.map_map]
  rfl

/-- A copy of the record is kept exactly if a column is named `*`. -/
theorem keptFields_ofColumns {columns : List Column} (hleft : written (plainColumns columns) ≠ [])
    {row : Json} (hkeys : row.ownFields.keys.Nodup) :
    keptFields (ofColumns columns).splat row = kept (plainColumns columns) row := by
  have hsome : (plainColumns columns).isEmpty = false := by
    rw [List.isEmpty_eq_false_iff]
    intro h
    rw [h] at hleft
    exact hleft rfl
  have hsplat : (ofColumns columns).splat = true ↔
      "*" ∈ (plainColumns columns).map Accessor.name := by
    simp only [ofColumns, hsome, Bool.false_or, List.any_eq_true, beq_iff_eq, List.mem_map]
  rw [kept]
  cases row with
  | object fields =>
      have hcopy : Fields.insertAll [] fields = fields := Fields.insertAll_nil hkeys
      rw [keptFields, hcopy]
      simp only [hsplat, Json.ownFields]
  | null | bool b | number n | string s | array items => exact (ite_self _).symm

/-- A select of columns, one of them not named `*`, that does not group, aggregate, filter, order or
cut projects each record with distinct keys on which its columns succeed. -/
theorem run_ofColumns {columns : List Column} {having : Option Accessor} {rows : List Json}
    (haggregates : aggregateColumns columns = []) (hleft : written (plainColumns columns) ≠ [])
    (hkeys : ∀ row ∈ rows, row.ownFields.keys.Nodup)
    (hcalls : ∀ row ∈ rows, ∀ a ∈ written (plainColumns columns),
      ∃ v, a.call (.json row) = .ok v) :
    ∃ out, { ofColumns columns with having := having }.run rows = .ok out ∧
      List.Forall₂ (fun row record => ∃ fields, record = .object fields ∧
        IsProjection (plainColumns columns) row fields) rows out := by
  refine ⟨rows.map fun row => .object (projection (plainColumns columns) row), ?_, ?_⟩
  · refine run_of_project haggregates rfl rfl rfl rfl rfl
      (f := fun row => .json (.object (projection (plainColumns columns) row))) fun row hrow => ?_
    have hfold : (written (plainColumns columns)).foldlM (writeColumn (.json row))
        (keptFields (ofColumns columns).splat row) =
          .ok (projection (plainColumns columns) row) := by
      rw [keptFields_ofColumns hleft (hkeys row hrow)]
      exact foldlM_writeColumn_eq_ok_iff.mpr ⟨hcalls row hrow, rfl⟩
    exact (project_of_columns hleft row).trans (map_eq_ok_iff.mpr ⟨_, hfold, rfl⟩)
  · refine List.forall₂_map_right_iff.mpr (List.forall₂_same.mpr fun row hrow => ?_)
    exact ⟨_, rfl, isProjection_projection (hkeys row hrow) (hcalls row hrow)⟩

/-- A column takes the place of a field of the record, and the last of two columns of one name has
the place of the first. The second record is no object. -/
theorem run_ofColumns_collisions :
    let columns : List Column := [.plain ((Accessor.field "x").rename "b"), .plain (.field "*"),
      .plain ((Accessor.field "y").rename "n"), .plain ((Accessor.field "a").rename "n")]
    let rows : List Json := [
      .object [("a", .bool true), ("b", .string "old"), ("x", .string "new")], .string "text"]
    let out : List Json := [
      .object [("a", .bool true), ("b", .string "new"), ("x", .string "new"), ("n", .bool true)],
      .object [("b", .null), ("n", .null)]]
    (ofColumns columns).run rows = .ok out ∧
      List.Forall₂ (fun row record => ∃ fields, record = .object fields ∧
        IsProjection (plainColumns columns) row fields) rows out := by
  intro columns rows out
  have hwritten : written (plainColumns columns) = [(Accessor.field "x").rename "b",
    (Accessor.field "y").rename "n", (Accessor.field "a").rename "n"] := rfl
  have hkeys : ∀ row ∈ rows, row.ownFields.keys.Nodup := by
    simp [rows, Json.ownFields, Fields.keys]
  have hcalls : ∀ row ∈ rows, ∀ a ∈ written (plainColumns columns),
      ∃ v, a.call (.json row) = .ok v := by
    intro row _ a ha
    rw [hwritten] at ha
    fin_cases ha <;> exact ⟨_, rfl⟩
  obtain ⟨records, hrun, hall⟩ := @run_ofColumns columns none rows rfl
    (hwritten ▸ List.cons_ne_nil _ _) hkeys hcalls
  obtain rfl : records = out := (Except.ok.inj hrun).symm
  exact ⟨hrun, hall⟩

end Select

end RecordQuery
