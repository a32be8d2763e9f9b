import Mathlib
import RecordQuery.Proofs.Results
import RecordQuery.Query.Select

/-! # Pages of a result

Limit and offset cut a window out of the result that a select has without them. They decide neither
whether a run succeeds nor what its records are, so consecutive pages are the whole result.
-/

namespace RecordQuery.Select

variable {α β : Type}

/-! ## Windows of a list -/

theorem map_window (f : α → β) (limit offset : Nat) (records : List α) :
    (window limit offset records).map f = window limit offset (records.map f) := by
  unfold window
  split
  · exact List.map_drop
  · rw [List.map_take, List.map_drop]

theorem window_of_pos {limit : Nat} (h : 0 < limit) (offset : Nat) (records : List α) :
    window limit offset records = (records.drop offset).take limit :=
  if_neg h.ne'

/-- The first pages of one size are what the list starts with. -/
theorem flatMap_window {limit : Nat} (h : 0 < limit) (count : Nat) (records : List α) :
    ((List.range count).flatMap fun i => window limit (i * limit) records) =
      records.take (count * limit) := by
  induction count with
  | zero => rw [Nat.zero_mul, List.take_zero, List.range_zero, List.flatMap_nil]
  | succ count ih =>
      rw [List.range_succ, List.flatMap_append, ih, List.flatMap_singleton, window_of_pos h,
        Nat.succ_mul, List.take_add]

/-! ## Windows of a run -/

variable {s : Select} {rows out : List Json}

/-- The select with another limit and offset. -/
def paged (s : Select) (limit offset : Nat) : Select :=
  (s.withLimit limit).withOffset offset

/-- All stages before the window. -/
def records (s : Select) (rows : List Json) : Except EvalError (List Json) := do
  let passed ← s.passing rows
  let records ← s.grouped passed
  let sorted ← s.ordered records
  return sorted.map Value.toJson

/-- Projection and filter read neither limit nor offset. -/
theorem passing_paged (s : Select) (limit offset : Nat) (rows : List Json) :
    (s.paged limit offset).passing rows = s.passing rows := by
  induction rows with
  | nil => rfl
  | cons row rows ih =>
      rw [passing, passing, ih]
      rfl

/-- A run is a window of the records that the other stages leave. -/
theorem run_eq_map_window (s : Select) (rows : List Json) :
    s.run rows = (s.records rows).map (window s.limit s.offset) := by
  rw [run, records]
  cases s.passing rows with
  | error e => rfl
  | ok passed =>
      change (s.grouped passed).bind _ = Except.map _ ((s.grouped passed).bind _)
      cases s.grouped passed with
      | error e => rfl
      | ok grouped =>
          change (s.ordered grouped).bind _ = Except.map _ ((s.ordered grouped).bind _)
          cases s.ordered grouped with
          | error e => rfl
          | ok sorted => exact congrArg Except.ok (map_window _ _ _ _)

theorem records_paged (s : Select) (limit offset : Nat) (rows : List Json) :
    (s.paged limit offset).records rows = s.records rows := by
  rw [records, passing_paged]
  rfl

/-- With another limit and offset, a select without them gives a window of its result, or the same
error. -/
theorem run_paged (hlimit : s.limit = 0) (hoffset : s.offset = 0) (limit offset : Nat)
    (rows : List Json) :
    (s.paged limit offset).run rows = (s.run rows).map (window limit offset) := by
  rw [run_eq_map_window, records_paged, run_eq_map_window s, hlimit, hoffset]
  cases s.records rows <;> rfl

/-- The pages of a run, one for each of the first `count` offsets. -/
def pages (s : Select) (limit count : Nat) (rows : List Json) :
    Except EvalError (List (List Json)) :=
  (List.range count).mapM fun i => (s.paged limit (i * limit)).run rows

theorem pages_eq_ok (hlimit : s.limit = 0) (hoffset : s.offset = 0) (hrun : s.run rows = .ok out)
    (limit count : Nat) :
    s.pages limit count rows =
      .ok ((List.range count).map fun i => window limit (i * limit) out) := by
  rw [pages, mapM_eq_ok_iff, List.forall₂_map_right_iff, List.forall₂_same]
  intro i _
  rw [run_paged hlimit hoffset, hrun]
  rfl

/-- How a select without limit and offset gives its result in parts. A failure is the same for each
part. A limit and an offset give the records between the two, an offset alone those behind it, and
pages of one size are the result if they are enough to reach its end. -/
structure HasPages (s : Select) (rows : List Json) : Prop where
  error : ∀ e, s.run rows = .error e →
    ∀ limit offset, (s.paged limit offset).run rows = .error e
  limited : ∀ out, s.run rows = .ok out → ∀ limit offset, 0 < limit →
    (s.paged limit offset).run rows = .ok (out.extract offset (offset + limit))
  unlimited : ∀ out, s.run rows = .ok out →
    ∀ offset, (s.paged 0 offset).run rows = .ok (out.drop offset)
  complete : ∀ out, s.run rows = .ok out → ∀ limit count, 0 < limit →
    out.length ≤ count * limit →
    ∃ pages, s.pages limit count rows = .ok pages ∧ pages.flatten = out

/-- A select without limit and offset has its result in pages, none of which lacks or repeats a
record. -/
theorem hasPages (hlimit : s.limit = 0) (hoffset : s.offset = 0) (rows : List Json) :
    s.HasPages rows := by
  have hpaged := run_paged hlimit hoffset
  constructor
  case error =>
    intro e herror limit offset
    rw [hpaged, herror]
    rfl
  case limited =>
    intro out hrun limit offset hpos
    rw [hpaged, hrun, Except.map, window_of_pos hpos, List.extract_eq_take_drop,
      Nat.add_sub_cancel_left]
  case unlimited =>
    intro out hrun offset
    rw [hpaged, hrun]
    rfl
  case complete =>
    intro out hrun limit count hpos hlength
    refine ⟨_, pages_eq_ok hlimit hoffset hrun limit count, ?_⟩
    rw [← List.flatMap_def, flatMap_window hpos, List.take_of_length_le hlength]

/-- Three records of which one fails the filter, in pages of one: no record is lost between them. -/
theorem hasPages_filtered :
    let s : Select :=
      { ofColumns [.plain (.field "k"), .plain (.field "v")] with filter := some (.field "v") }
    let row (k : String) (v : Int) : Json := .object [("k", .string k), ("v", .number (.int v))]
    let rows := [row "a" 1, row "b" 0, row "c" 2]
    s.run rows = .ok [row "a" 1, row "c" 2] ∧
      (s.paged 1 1).run rows = .ok [row "c" 2] ∧
      (s.paged 0 2).run rows = .ok [] ∧
      ∃ pages, s.pages 1 2 rows = .ok pages ∧ pages.flatten = [row "a" 1, row "c" 2] := by
  intro s row rows
  have hrun : s.run rows = .ok [row "a" 1, row "c" 2] := rfl
  have hpages : s.HasPages rows := hasPages rfl rfl rows
  exact ⟨hrun, hpages.limited _ hrun 1 1 Nat.zero_lt_one, hpages.unlimited _ hrun 2,
    hpages.complete _ hrun 1 2 Nat.zero_lt_one (Nat.le_refl 2)⟩

end RecordQuery.Select
