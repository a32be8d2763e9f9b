import Mathlib
import RecordQuery.Proofs.Grouping.Partition

/-! # Nested groups

Nesting partitions the records level by level, and grouping by all key texts at once. Both fail for
the same records, and the groups are what stands at the ends of the paths of the nested object.
-/

namespace RecordQuery

/-- What stands at the end of a path of keys. -/
def Json.follow? : Json → List String → Option Json
  | j, [] => some j
  | .object fields, key :: path => (Fields.get? fields key).bind fun j => follow? j path
  | _, _ :: _ => none

namespace Grouping

open FirstSeen

variable {keys : List Accessor}

/-- Whether the key texts of a record begin with a path. -/
def onBranch (keys : List Accessor) (path : List String) (row : Json) : Bool :=
  hasKey (keys.take path.length) path (.json row)

/-- A nested object of groups: the path of a group leads to its records, and any path is the path of
a group, or ends before the last key. There it leads to an object, whose keys are the texts of the
next key in the order in which the records of the branch show them first. -/
structure IsNesting (keys : List Accessor) (rows : List Json) (groups : List Group) (j : Json) :
    Prop where
  group_path : ∀ e ∈ groups, j.follow? e.key = some (.array (e.members.filterMap fun i => rows[i]?))
  path_group : ∀ path inner, j.follow? path = some inner →
    path.length < keys.length ∨ ∃ e ∈ groups, e.key = path
  first_seen : ∀ path inner (hlength : path.length < keys.length), j.follow? path = some inner →
    ∃ fields : Fields, inner = .object fields ∧ fields.keys =
      ((rows.filter (onBranch keys path)).map fun row =>
        textOn keys[path.length] (.json row)).eraseDups

/-! ## Nesting succeeds where grouping does -/

/-- The records by the text of one key. -/
def bucketsOf (a : Accessor) (rows : List Json) : List (String × List Json) :=
  (rows.map fun row => textOn a (.json row)).eraseDups.map fun text =>
    (text, rows.filter fun row => textOn a (.json row) == text)

/-- The nested object, if no key fails. -/
def nested : List Accessor → List Json → Json
  | [], rows => .array rows
  | a :: keys, rows =>
      .object ((bucketsOf a rows).map fun bucket => (bucket.1, nested keys bucket.2))

theorem addToBucket_eq_upsert (key : String) (row : Json) (found : List (String × List Json)) :
    addToBucket key row found =
      upsert Prod.fst key (fun bucket => (bucket.1, bucket.2 ++ [row])) (key, [row]) found := by
  induction found with
  | nil => rfl
  | cons bucket rest ih => rw [addToBucket, upsert, ih]

/-- One more record brings the buckets up to date. -/
theorem addToBucket_bucketsOf (a : Accessor) (rows : List Json) (row : Json) :
    addToBucket (textOn a (.json row)) row (bucketsOf a rows) = bucketsOf a (rows ++ [row]) := by
  rw [addToBucket_eq_upsert, bucketsOf, bucketsOf, List.map_append, List.map_singleton]
  refine upsert_eraseDups (fun _ => rfl) ?_ ?_ ?_
  · intro _
    simp
  · intro hnew
    have hnone : ∀ other ∈ rows, textOn a (.json other) ≠ textOn a (.json row) :=
      fun other hother heq => hnew (List.mem_map.mpr ⟨other, hother, heq⟩)
    have hempty : rows.filter (fun other => textOn a (.json other) == textOn a (.json row)) = [] :=
      List.filter_eq_nil_iff.mpr fun other hother => by simpa using hnone other hother
    simp [List.filter_append, hempty]
  · intro text _ hne
    simp [List.filter_append, Ne.symm hne]

theorem buckets_eq_ok_iff {a : Accessor} {rows : List Json}
    {found : List (String × List Json)} :
    buckets a rows = .ok found ↔
      (∀ row ∈ rows, ∃ v, a.call (.json row) = .ok v) ∧ found = bucketsOf a rows := by
  refine foldlM_eq_ok_iff_of (bucketsOf a) fun rows row next => ?_
  rw [← addToBucket_bucketsOf]
  exact map_eq_ok_iff_valueOr Value.undefined

theorem nestBy_cons (a : Accessor) (rows : List Json) :
    nestBy (a :: keys) rows =
      (buckets a rows).bind fun found =>
        (found.mapM fun bucket => (nestBy keys bucket.2).map fun value => (bucket.1, value)).map
          .object := by
  rw [nestBy]
  rfl

theorem readable_cons {a : Accessor} {rows : List Json} :
    Readable (a :: keys) (rows.map .json) ↔
      (∀ row ∈ rows, ∃ v, a.call (.json row) = .ok v) ∧ Readable keys (rows.map .json) := by
  simp only [Readable, List.forall_mem_map, List.forall_mem_cons]
  exact forall₂_and

/-- Each record is in one of the buckets, and they hold no others. -/
theorem readable_bucketsOf {a : Accessor} {rows : List Json} :
    (∀ bucket ∈ bucketsOf a rows, Readable keys (bucket.2.map .json)) ↔
      Readable keys (rows.map .json) := by
  simp only [bucketsOf, List.forall_mem_map, List.mem_eraseDups, Readable]
  constructor
  · intro h row hrow
    exact h row hrow row (List.mem_filter.mpr ⟨hrow, beq_self_eq_true _⟩)
  · intro h _ _ row hrow
    exact h row (List.mem_filter.mp hrow).1

/-- Nesting succeeds exactly if no key fails. -/
theorem nestBy_eq_ok_iff {rows : List Json} {j : Json} :
    nestBy keys rows = .ok j ↔ Readable keys (rows.map .json) ∧ j = nested keys rows := by
  induction keys generalizing rows j with
  | nil => simp [nestBy, nested, Readable, eq_comm]
  | cons a keys ih =>
      have hlevel {found : List (String × List Json)} {fields : Fields} :
          (found.mapM fun bucket => (nestBy keys bucket.2).map fun value => (bucket.1, value)) =
              .ok fields ↔
            (∀ bucket ∈ found, Readable keys (bucket.2.map .json)) ∧
              fields = found.map fun bucket => (bucket.1, nested keys bucket.2) := by
        refine mapM_eq_ok_iff_of fun bucket _ field => ?_
        rw [map_eq_ok_iff]
        constructor
        · rintro ⟨value, hvalue, rfl⟩
          obtain ⟨hread, rfl⟩ := ih.mp hvalue
          exact ⟨hread, rfl⟩
        · rintro ⟨hread, rfl⟩
          exact ⟨_, ih.mpr ⟨hread, rfl⟩, rfl⟩
      rw [nestBy_cons, bind_eq_ok_iff, readable_cons, nested]
      constructor
      · rintro ⟨found, hfound, h⟩
        obtain ⟨hcalls, rfl⟩ := buckets_eq_ok_iff.mp hfound
        obtain ⟨fields, hfields, rfl⟩ := map_eq_ok_iff.mp h
        obtain ⟨hread, rfl⟩ := hlevel.mp hfields
        exact ⟨⟨hcalls, readable_bucketsOf.mp hread⟩, rfl⟩
      · rintro ⟨⟨hcalls, hread⟩, rfl⟩
        refine ⟨_, buckets_eq_ok_iff.mpr ⟨hcalls, rfl⟩, map_eq_ok_iff.mpr ⟨_, ?_, rfl⟩⟩
        exact hlevel.mpr ⟨readable_bucketsOf.mpr hread, rfl⟩

/-! ## Paths of the nested object -/

@[simp] theorem onBranch_nil (row : Json) : onBranch keys [] row = true := rfl

theorem onBranch_cons (a : Accessor) (text : String) (path : List String) (row : Json) :
    onBranch (a :: keys) (text :: path) row =
      (textOn a (.json row) == text && onBranch keys path row) := rfl

@[simp] theorem filter_onBranch_nil (rows : List Json) : rows.filter (onBranch keys []) = rows :=
  List.filter_eq_self.mpr fun row _ => onBranch_nil row

theorem filter_onBranch_cons (a : Accessor) (text : String) (path : List String)
    (rows : List Json) :
    rows.filter (onBranch (a :: keys) (text :: path)) =
      (rows.filter fun row => textOn a (.json row) == text).filter (onBranch keys path) := by
  rw [List.filter_filter]
  refine List.filter_congr fun row _ => ?_
  rw [onBranch_cons, Bool.and_comm]

theorem exists_onBranch_cons {a : Accessor} {text : String} {path : List String}
    {rows : List Json} :
    (∃ row ∈ rows, onBranch (a :: keys) (text :: path) row) ↔
      text ∈ (rows.map fun row => textOn a (.json row)) ∧
        (path = [] ∨ ∃ row ∈ rows.filter fun row => textOn a (.json row) == text,
          onBranch keys path row) := by
  simp only [onBranch_cons, Bool.and_eq_true, beq_iff_eq, List.mem_map, List.mem_filter]
  constructor
  · rintro ⟨row, hrow, htext, hbranch⟩
    exact ⟨⟨row, hrow, htext⟩, .inr ⟨row, ⟨hrow, htext⟩, hbranch⟩⟩
  · rintro ⟨⟨row, hrow, htext⟩, rfl | ⟨other, ⟨hother, htext'⟩, hbranch⟩⟩
    · exact ⟨row, hrow, htext, rfl⟩
    · exact ⟨other, hother, htext', hbranch⟩

theorem get?_bucketsOf (a : Accessor) (rows : List Json) (text : String) :
    Fields.get? ((bucketsOf a rows).map fun bucket => (bucket.1, nested keys bucket.2)) text =
      if text ∈ (rows.map fun row => textOn a (.json row)) then
        some (nested keys (rows.filter fun row => textOn a (.json row) == text))
      else none := by
  rw [bucketsOf, List.map_map]
  refine (Fields.get?_map
    (fun text => nested keys (rows.filter fun row => textOn a (.json row) == text)) _ _).trans ?_
  simp only [List.mem_eraseDups]

/-- A path leads to the nested groups of the records whose key texts begin with it. Any path but
the empty one needs such a record. -/
theorem follow?_nested_eq_some_iff {rows : List Json} {path : List String} {j : Json} :
    (nested keys rows).follow? path = some j ↔
      path.length ≤ keys.length ∧ (path = [] ∨ ∃ row ∈ rows, onBranch keys path row) ∧
        j = nested (keys.drop path.length) (rows.filter (onBranch keys path)) := by
  induction keys generalizing rows path with
  | nil =>
      cases path with
      | nil => simp [nested, Json.follow?, eq_comm]
      | cons text path => simp [nested, Json.follow?]
  | cons a keys ih =>
      cases path with
      | nil => simp [Json.follow?, eq_comm]
      | cons text path =>
          rw [nested, Json.follow?, get?_bucketsOf, Option.bind_eq_some_iff, exists_onBranch_cons,
            filter_onBranch_cons]
          constructor
          · rintro ⟨inner, hinner, hj⟩
            obtain ⟨hmem, hinner⟩ := Option.ite_none_right_eq_some.mp hinner
            obtain rfl := Option.some.inj hinner
            obtain ⟨hlength, hrows, rfl⟩ := ih.mp hj
            exact ⟨Nat.succ_le_succ hlength, .inr ⟨hmem, hrows⟩, rfl⟩
          · rintro ⟨hlength, hrows, rfl⟩
            obtain ⟨hmem, hrows⟩ := hrows.resolve_left (List.cons_ne_nil _ _)
            refine ⟨_, if_pos hmem, ih.mpr ⟨Nat.le_of_succ_le_succ hlength, hrows, rfl⟩⟩

/-! ## The ends of the paths are the groups -/

theorem onBranch_iff_of_length {path : List String} (h : path.length = keys.length) {row : Json} :
    onBranch keys path row = true ↔ keyOf keys (.json row) = path := by
  rw [onBranch, h, List.take_length, hasKey_iff]

theorem length_keyOf (keys : List Accessor) (d : Value) : (keyOf keys d).length = keys.length :=
  List.length_map ..

theorem mem_groupsOf_json {rows : List Json} {e : Group} :
    e ∈ groupsOf keys (rows.map .json) ↔
      ∃ row ∈ rows, e = groupOf keys (rows.map .json) (keyOf keys (.json row)) := by
  simp only [mem_groupsOf, List.mem_map, exists_exists_and_eq_and]

/-- The path of a group leads to its records. -/
theorem follow?_nested_of_mem_groupsOf {rows : List Json} {e : Group}
    (h : e ∈ groupsOf keys (rows.map .json)) :
    (nested keys rows).follow? e.key =
      some (.array (e.members.filterMap fun i => rows[i]?)) := by
  obtain ⟨row, hrow, rfl⟩ := mem_groupsOf_json.mp h
  have hlength := length_keyOf keys (.json row)
  rw [filterMap_members_groupOf]
  refine follow?_nested_eq_some_iff.mpr ⟨Nat.le_of_eq hlength, .inr ⟨row, hrow, ?_⟩, ?_⟩
  · exact (onBranch_iff_of_length hlength).mpr rfl
  · have hdrop : keys.drop (keyOf keys (.json row)).length = [] := by
      rw [hlength, List.drop_length]
    rw [groupOf, hdrop, nested]
    refine congrArg Json.array (List.filter_congr fun other _ => ?_)
    rw [onBranch, hlength, List.take_length]

/-- A path ends before the last key, or is the path of a group. -/
theorem exists_mem_groupsOf_of_follow? {rows : List Json} {path : List String} {j : Json}
    (hkeys : keys ≠ []) (h : (nested keys rows).follow? path = some j) :
    path.length < keys.length ∨ ∃ e ∈ groupsOf keys (rows.map .json), e.key = path := by
  obtain ⟨hlength, hrows, -⟩ := follow?_nested_eq_some_iff.mp h
  refine (Nat.lt_or_eq_of_le hlength).imp_right fun hall => ?_
  have hne : path ≠ [] := by
    rintro rfl
    exact hkeys (List.length_eq_zero_iff.mp hall.symm)
  obtain ⟨row, hrow, hbranch⟩ := hrows.resolve_left hne
  refine ⟨_, mem_groupsOf_json.mpr ⟨row, hrow, rfl⟩, ?_⟩
  exact (onBranch_iff_of_length hall).mp hbranch

theorem keys_of_follow? {rows : List Json} {path : List String} {j : Json}
    (hlength : path.length < keys.length) (h : (nested keys rows).follow? path = some j) :
    ∃ fields : Fields, j = .object fields ∧ fields.keys =
      ((rows.filter (onBranch keys path)).map fun row =>
        textOn keys[path.length] (.json row)).eraseDups := by
  obtain ⟨-, -, rfl⟩ := follow?_nested_eq_some_iff.mp h
  rw [List.drop_eq_getElem_cons hlength, nested]
  refine ⟨_, rfl, ?_⟩
  rw [bucketsOf, List.map_map]
  exact Fields.keys_map _ _

theorem isNesting_nested (hkeys : keys ≠ []) (rows : List Json) :
    IsNesting keys rows (groupsOf keys (rows.map .json)) (nested keys rows) where
  group_path _ := follow?_nested_of_mem_groupsOf
  path_group _ _ := exists_mem_groupsOf_of_follow? hkeys
  first_seen _ _ := keys_of_follow?

/-- Nesting fails exactly if grouping by the same keys fails, and else nests the same groups. -/
theorem nest_agrees_with_group (specs : List Spec) (rows : List Json) {g : Grouping}
    (hspecs : Grouping.ofSpecs specs = .ok g) :
    ((∃ err, g.nest rows = .error err) ↔ ∃ err, g.group (rows.map .json) = .error err) ∧
      ∀ j groups, g.nest rows = .ok j → g.group (rows.map .json) = .ok groups →
        IsNesting g.keys rows groups j := by
  have hkeys : g.keys ≠ [] := by
    cases specs with
    | nil => cases hspecs
    | cons spec specs =>
        obtain rfl := Except.ok.inj hspecs
        exact List.cons_ne_nil _ _
  constructor
  · rw [exists_eq_error_iff, exists_eq_error_iff]
    refine not_congr ?_
    simp only [nest, nestBy_eq_ok_iff, group_eq_ok_iff, exists_and_left, exists_eq, and_true]
  · intro j groups hnest hgroup
    obtain ⟨-, rfl⟩ := nestBy_eq_ok_iff.mp hnest
    obtain ⟨-, rfl⟩ := group_eq_ok_iff.mp hgroup
    exact isNesting_nested hkeys rows

/-- Two levels with three groups. -/
theorem nest_agrees_with_group_two_levels :
    ∃ g rows groups j,
      Grouping.ofSpecs [.text "a", .text "b"] = .ok g ∧
      rows = [.object [("a", .number (.int 1)), ("b", .string "x")],
        .object [("a", .number (.int 2)), ("b", .string "x")],
        .object [("a", .number (.int 1)), ("b", .string "y")],
        .object [("a", .number (.int 1)), ("b", .string "x"), ("c", .null)]] ∧
      g.group (rows.map .json) = .ok groups ∧ g.nest rows = .ok j ∧
      groups.map Group.key = [["1", "x"], ["2", "x"], ["1", "y"]] ∧
      IsNesting g.keys rows groups j := by
  refine ⟨_, _, _, _, rfl, rfl, rfl, rfl, ?_, ?_⟩
  · decide
  · exact (nest_agrees_with_group [.text "a", .text "b"] _ rfl).2 _ _ rfl rfl

end Grouping

end RecordQuery
