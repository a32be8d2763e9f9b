import Mathlib
import RecordQuery.Proofs.Grouping.Partition
import RecordQuery.Query.Select

/-! # Grouped selects

A grouped select has one record for each group of the projected records that pass the filter. It
aggregates the input records behind the members of a group, not their projections.
-/

namespace RecordQuery

/-- The value of an aggregate of some records, undefined where it fails. -/
def Aggregate.valueOn (a : Aggregate) (members : List Value) : Value :=
  valueOr .undefined (a.apply members)

/-- What counts, counts the records, also through an accessor. -/
theorem Aggregate.eq_ofInt_of_apply {a : Aggregate} {members : List Value} {v : Value}
    (hcount : a.reduce = Reduction.count.reduce) (h : a.apply members = .ok v) :
    v = .ofInt members.length := by
  rw [apply] at h
  cases hinner : a.inner with
  | none =>
      rw [hinner, hcount] at h
      exact (Except.ok.inj h).symm
  | some inner =>
      rw [hinner] at h
      obtain ⟨values, hvalues, rfl⟩ := map_eq_ok_iff.mp h
      rw [hcount, (mapM_eq_ok_iff.mp hvalues).length_eq]
      rfl

namespace Select

open Grouping

variable {s : Select} {g : Grouping}

/-! ## Projection and filter -/

/-- The projection of a record, undefined where it fails. -/
def projected (s : Select) (row : Json) : Value :=
  valueOr .undefined (s.project row)

/-- Whether the projection of a record passes the filter. -/
def passes (s : Select) (row : Json) : Bool :=
  valueOr false (admits s.filter (s.projected row))

/-- A record that can be projected, and whose projection the filter takes or leaves. -/
structure Settled (s : Select) (row : Json) : Prop where
  project : s.project row = .ok (s.projected row)
  filter : admits s.filter (s.projected row) = .ok (s.passes row)

theorem settled_of_project {row : Json} {d : Value} {b : Bool} (hd : s.project row = .ok d)
    (hb : admits s.filter d = .ok b) : s.Settled row ∧ s.projected row = d ∧ s.passes row = b := by
  have hproj : s.projected row = d := by rw [projected, hd, valueOr_ok]
  have hpass : s.passes row = b := by rw [passes, hproj, hb, valueOr_ok]
  refine ⟨⟨?_, ?_⟩, hproj, hpass⟩
  · rw [hproj, hd]
  · rw [hproj, hpass, hb]

theorem passing_cons (row : Json) (rows : List Json) :
    s.passing (row :: rows) =
      (s.project row).bind fun d => (admits s.filter d).bind fun b =>
        (s.passing rows).map fun rest => if b then (row, d) :: rest else rest := by
  rw [passing]
  cases s.project row with
  | error e => rfl
  | ok d =>
      cases hb : admits s.filter d with
      | error e => simp [bind, Except.bind, hb]
      | ok b =>
          cases b <;> cases s.passing rows <;>
            simp [bind, Except.bind, Except.map, pure, Except.pure, hb]

/-- Projection and filter keep the input records whose projections pass, in their order. -/
theorem passing_eq_ok_iff {rows : List Json} {passed : List (Json × Value)} :
    s.passing rows = .ok passed ↔
      (∀ row ∈ rows, s.Settled row) ∧
        passed = (rows.filter s.passes).map fun row => (row, s.projected row) := by
  induction rows generalizing passed with
  | nil => simp [passing, eq_comm]
  | cons row rows ih =>
      rw [passing_cons, List.forall_mem_cons, List.filter_cons]
      constructor
      · intro h
        obtain ⟨d, hd, h⟩ := bind_eq_ok_iff.mp h
        obtain ⟨b, hb, h⟩ := bind_eq_ok_iff.mp h
        obtain ⟨rest, hrest, rfl⟩ := map_eq_ok_iff.mp h
        obtain ⟨hrows, rfl⟩ := ih.mp hrest
        obtain ⟨hrow, rfl, rfl⟩ := settled_of_project hd hb
        refine ⟨⟨hrow, hrows⟩, ?_⟩
        cases s.passes row <;> rfl
      · rintro ⟨⟨hrow, hrows⟩, rfl⟩
        refine bind_eq_ok_iff.mpr ⟨_, hrow.project, bind_eq_ok_iff.mpr ⟨_, hrow.filter, ?_⟩⟩
        refine map_eq_ok_iff.mpr ⟨_, ih.mpr ⟨hrows, rfl⟩, ?_⟩
        cases s.passes row <;> rfl

/-! ## Aggregates -/

/-- The aggregate whose value a record has under a name, the last one of that name. -/
def aggregateNamed? (s : Select) (name : String) : Option Aggregate :=
  s.aggregates.reverse.find? fun a => a.name == name

theorem foldlM_writeAggregate_eq_ok_iff {aggregates : List Aggregate} {members : List Value}
    {out final : Fields} :
    aggregates.foldlM (writeAggregate members) out = .ok final ↔
      (∀ a ∈ aggregates, ∃ v, a.apply members = .ok v) ∧
        final = out.insertAll (aggregates.map fun a => (a.name, (a.valueOn members).toJson)) := by
  refine foldlM_eq_ok_iff_of (fun seen : List Aggregate =>
    out.insertAll (seen.map fun a => (a.name, (a.valueOn members).toJson))) fun seen a next => ?_
  rw [writeAggregate, List.map_append, List.map_singleton, Fields.insertAll_append_singleton]
  exact map_eq_ok_iff_valueOr Value.undefined

/-! ## The records of the groups -/

/-- The distinct key texts of the projections that pass the filter, in first-seen order. -/
def keysOf (s : Select) (g : Grouping) (rows : List Json) : List (List String) :=
  ((rows.filter s.passes).map fun row => keyOf g.keys (s.projected row)).eraseDups

/-- The input records whose projections pass the filter and have the given key texts. -/
def membersOf (s : Select) (g : Grouping) (rows : List Json) (key : List String) : List Json :=
  rows.filter fun row => hasKey g.keys key (s.projected row) && s.passes row

/-- The fields of an output record for some input records: under the name of an aggregate its value
on them, and under other names the key values of the first one's projection. -/
structure IsRecordOf (s : Select) (g : Grouping) (members : List Json) (fields : Fields) :
    Prop where
  aggregate : ∀ name a, s.aggregateNamed? name = some a →
    ∃ v, a.apply (members.map .json) = .ok v ∧ fields.get? name = some v.toJson
  key : ∀ name, s.aggregateNamed? name = none →
    fields.get? name = members.head?.bind fun row => fieldOn? g.keys (s.projected row) name

/-- A result with one record for each key, in first-seen order, made of the input records behind the
projections with that key. The counts of the records add up to the number of records that pass. -/
structure IsGroupedResult (s : Select) (g : Grouping) (rows out : List Json) : Prop where
  settled : ∀ row ∈ rows, s.Settled row
  readable : Readable g.keys ((rows.filter s.passes).map s.projected)
  records : List.Forall₂ (fun key record => ∃ fields, record = .object fields ∧
    s.IsRecordOf g (s.membersOf g rows key) fields) (s.keysOf g rows) out
  counts : ∀ name a, s.aggregateNamed? name = some a → a.reduce = Reduction.count.reduce →
    ∃ counts : List Nat,
      List.Forall₂ (fun record (n : Nat) => ∃ fields : Fields, record = .object fields ∧
        fields.get? name = some (.number (.int n))) out counts ∧
      counts.sum = (rows.filter s.passes).length

/-- The group of the projections that pass the filter and have the given key texts. -/
def groupFor (s : Select) (g : Grouping) (rows : List Json) (key : List String) : Group :=
  groupOf g.keys ((rows.filter s.passes).map s.projected) key

theorem groupsOf_projected (rows : List Json) :
    groupsOf g.keys ((rows.filter s.passes).map s.projected) =
      (s.keysOf g rows).map (s.groupFor g rows) := by
  rw [groupsOf, List.map_map]
  rfl

theorem filter_passes_filter (rows : List Json) (key : List String) :
    ((rows.filter s.passes).filter fun row => hasKey g.keys key (s.projected row)) =
      s.membersOf g rows key :=
  List.filter_filter ..

theorem inputs_groupFor (rows : List Json) (key : List String) :
    ((s.groupFor g rows key).members.filterMap fun i => (rows.filter s.passes)[i]?.map Value.json) =
      (s.membersOf g rows key).map .json := by
  rw [← filter_passes_filter, ← filterMap_members_groupOf, List.map_filterMap]
  rfl

theorem length_members_groupFor (rows : List Json) (key : List String) :
    (s.groupFor g rows key).members.length = (s.membersOf g rows key).length := by
  rw [groupFor, groupOf, List.length_findIdxs, List.countP_map, List.countP_eq_length_filter,
    ← filter_passes_filter]
  rfl

theorem get?_fields_groupFor (rows : List Json) (key : List String) (name : String) :
    (s.groupFor g rows key).fields.get? name =
      (s.membersOf g rows key).head?.bind fun row => fieldOn? g.keys (s.projected row) name := by
  have hfind : ((rows.filter s.passes).map s.projected).find? (hasKey g.keys key) =
      (s.membersOf g rows key).head?.map s.projected := by
    rw [List.find?_map, ← List.head?_filter, ← filter_passes_filter]
    rfl
  rw [groupFor, groupOf, hfind]
  cases (s.membersOf g rows key).head? with
  | none => rfl
  | some row => exact get?_fieldsOn _ _

/-- The output record of a group is one for the input records behind its members. -/
theorem isRecordOf_of_groupRecord {rows : List Json} {key : List String} {record : Value}
    (h : groupRecord s.aggregates (rows.filter s.passes) (s.groupFor g rows key) = .ok record) :
    ∃ fields, record = .json (.object fields) ∧
      s.IsRecordOf g (s.membersOf g rows key) fields := by
  rw [groupRecord, inputs_groupFor] at h
  obtain ⟨fields, hfields, rfl⟩ := map_eq_ok_iff.mp h
  obtain ⟨happly, rfl⟩ := foldlM_writeAggregate_eq_ok_iff.mp hfields
  have hget (name : String) := Fields.get?_insertAll_map Aggregate.name
    (fun a => (a.valueOn ((s.membersOf g rows key).map .json)).toJson) s.aggregates
    (s.groupFor g rows key).fields name
  refine ⟨_, rfl, ?_, ?_⟩
  · intro name a ha
    obtain ⟨v, hv⟩ := happly a (List.mem_reverse.mp (List.mem_of_find?_eq_some ha))
    have hvalue : a.valueOn ((s.membersOf g rows key).map .json) = v := by
      rw [Aggregate.valueOn, hv, valueOr_ok]
    refine ⟨v, hv, (hget name).trans ?_⟩
    rw [← aggregateNamed?, ha, ← hvalue]
    rfl
  · intro name hnone
    rw [← get?_fields_groupFor]
    refine (hget name).trans ?_
    rw [← aggregateNamed?, hnone]
    rfl

/-- Each record that passes the filter is behind a member of one group. -/
theorem sum_length_membersOf (rows : List Json) :
    ((s.keysOf g rows).map fun key => (s.membersOf g rows key).length).sum =
      (rows.filter s.passes).length := by
  have hsum := sum_length_members_groupsOf g.keys ((rows.filter s.passes).map s.projected)
  rw [groupsOf_projected, List.map_map, List.length_map] at hsum
  rw [← hsum]
  refine congrArg List.sum (List.map_congr_left fun key _ => ?_)
  exact (length_members_groupFor rows key).symm

/-! ## The result -/

@[simp] theorem keep_none (records : List Value) : keep none records = .ok records := by
  induction records with
  | nil => rfl
  | cons d records ih =>
      rw [keep, ih]
      rfl

theorem grouped_eq_ok_iff {passed : List (Json × Value)} {records : List Value}
    (hgroup : s.grouping = some g) (hhaving : s.having = none) :
    s.grouped passed = .ok records ↔ ∃ groups, g.group (passed.map Prod.snd) = .ok groups ∧
      groups.mapM (groupRecord s.aggregates (passed.map Prod.fst)) = .ok records := by
  rw [grouped, hgroup, hhaving]
  constructor
  · intro h
    obtain ⟨groups, hgroups, h⟩ := bind_eq_ok_iff.mp h
    obtain ⟨all, hall, h⟩ := bind_eq_ok_iff.mp h
    rw [keep_none] at h
    obtain rfl := Except.ok.inj h
    exact ⟨groups, hgroups, hall⟩
  · rintro ⟨groups, hgroups, hall⟩
    exact bind_eq_ok_iff.mpr ⟨groups, hgroups, bind_eq_ok_iff.mpr ⟨_, hall, keep_none _⟩⟩

/-- Without order, limit and offset a run groups what passes the filter. -/
theorem run_eq_bind_grouped (horder : s.order = none) (hlimit : s.limit = 0)
    (hoffset : s.offset = 0) (rows : List Json) :
    s.run rows = (s.passing rows).bind fun passed =>
      (s.grouped passed).map fun records => records.map Value.toJson := by
  rw [run]
  cases s.passing rows with
  | error e => rfl
  | ok passed =>
      change (s.grouped passed).bind _ = (s.grouped passed).map _
      cases s.grouped passed with
      | error e => rfl
      | ok records =>
          have hordered : s.ordered records = .ok records := by
            rw [ordered, horder]
          change (s.ordered records).bind _ = .ok (records.map Value.toJson)
          rw [hordered]
          change Except.ok ((window s.limit s.offset records).map Value.toJson) = _
          rw [window, if_pos hlimit, hoffset, List.drop_zero]

/-- Without an order, a limit and an offset the result are all records. -/
theorem run_eq_ok_iff {rows out : List Json} (horder : s.order = none) (hlimit : s.limit = 0)
    (hoffset : s.offset = 0) :
    s.run rows = .ok out ↔ ∃ passed records, s.passing rows = .ok passed ∧
      s.grouped passed = .ok records ∧ out = records.map Value.toJson := by
  rw [run_eq_bind_grouped horder hlimit hoffset, bind_eq_ok_iff]
  simp only [map_eq_ok_iff, exists_and_left, eq_comm (a := out)]

/-- Grouping the projections that pass reads their keys, and gives one record for each key. -/
theorem forall₂_of_grouped {rows : List Json} {records : List Value}
    (hgroup : s.grouping = some g) (hhaving : s.having = none)
    (h : s.grouped ((rows.filter s.passes).map fun row => (row, s.projected row)) = .ok records) :
    Readable g.keys ((rows.filter s.passes).map s.projected) ∧
      List.Forall₂ (fun key record => ∃ fields, record = .json (.object fields) ∧
        s.IsRecordOf g (s.membersOf g rows key) fields) (s.keysOf g rows) records := by
  obtain ⟨groups, hgroups, hrecords⟩ := (grouped_eq_ok_iff hgroup hhaving).mp h
  simp only [List.map_map, Function.comp_def, List.map_id'] at hgroups hrecords
  obtain ⟨hread, rfl⟩ := group_eq_ok_iff.mp hgroups
  rw [groupsOf_projected, mapM_eq_ok_iff, List.forall₂_map_left_iff] at hrecords
  exact ⟨hread, hrecords.imp fun _ _ => isRecordOf_of_groupRecord⟩

/-- A grouped select without a condition on groups, an order, a limit and an offset aggregates, for
each key of the projections that pass the filter, the input records behind them. -/
theorem run_grouped {rows out : List Json} (hgroup : s.grouping = some g)
    (hhaving : s.having = none) (horder : s.order = none) (hlimit : s.limit = 0)
    (hoffset : s.offset = 0) (hrun : s.run rows = .ok out) : s.IsGroupedResult g rows out := by
  obtain ⟨passed, records, hpassed, hrecords, rfl⟩ := (run_eq_ok_iff horder hlimit hoffset).mp hrun
  obtain ⟨hsettled, rfl⟩ := passing_eq_ok_iff.mp hpassed
  obtain ⟨hread, hall⟩ := forall₂_of_grouped hgroup hhaving hrecords
  have hout : List.Forall₂ (fun key record => ∃ fields, record = .object fields ∧
      s.IsRecordOf g (s.membersOf g rows key) fields) (s.keysOf g rows)
      (records.map Value.toJson) := by
    refine List.forall₂_map_right_iff.mpr (hall.imp fun key record hrecord => ?_)
    obtain ⟨fields, rfl, hfields⟩ := hrecord
    exact ⟨fields, rfl, hfields⟩
  refine ⟨hsettled, hread, hout, fun name a ha hcount => ?_⟩
  refine ⟨(s.keysOf g rows).map fun key => (s.membersOf g rows key).length, ?_,
    sum_length_membersOf rows⟩
  refine (List.forall₂_map_left_iff.mpr (hout.imp fun key record hrecord => ?_)).flip
  obtain ⟨fields, rfl, hfields⟩ := hrecord
  obtain ⟨v, hv, hget⟩ := hfields.aggregate name a ha
  obtain rfl := Aggregate.eq_ofInt_of_apply hcount hv
  refine ⟨fields, rfl, hget.trans ?_⟩
  rw [List.length_map]
  rfl

/-- Of the records with a name, the last value and the number for each name. The projection drops
the values, and the filter a record without a name. -/
theorem run_grouped_last :
    ∃ s g rows out,
      s = { ofColumns [.plain (.field "k"),
              .aggregate (.ofSpec ⟨"last", fun values => values.getLastD .undefined⟩ (.text "v")),
              .aggregate ((Aggregate.ofRows .count).rename "n")] with
            filter := some (.field "k"), grouping := some g } ∧
      g = ⟨[.field "k"]⟩ ∧
      rows = [.object [("k", .string "a"), ("v", .number (.int 1))],
        .object [("v", .number (.int 7))],
        .object [("k", .string "b"), ("v", .number (.int 2))],
        .object [("k", .string "a"), ("v", .number (.int 5))]] ∧
      out = [.object [("k", .string "a"), ("last(v)", .number (.int 5)), ("n", .number (.int 2))],
        .object [("k", .string "b"), ("last(v)", .number (.int 2)), ("n", .number (.int 1))]] ∧
      s.run rows = .ok out ∧ s.keysOf g rows = [["a"], ["b"]] ∧ s.IsGroupedResult g rows out := by
  refine ⟨_, _, _, _, rfl, rfl, rfl, rfl, rfl, ?_, ?_⟩
  · decide
  · exact run_grouped rfl rfl rfl rfl rfl rfl

end Select

end RecordQuery
