import Mathlib
import RecordQuery.Proofs.Grouping.FirstSeen
import RecordQuery.Proofs.Records
import RecordQuery.Proofs.Results
import RecordQuery.Query.Group

/-! # Groups partition the records

Grouping has groups exactly if each key has a value on each record. The groups are then the classes
of records with the same key texts, in the order in which the texts are first seen.
-/

namespace RecordQuery

/-- The value of an accessor on a record, undefined where it fails. -/
def Accessor.valueOn (a : Accessor) (d : Value) : Value :=
  valueOr .undefined (a.call d)

namespace Grouping

open FirstSeen

variable {keys : List Accessor}

/-- Each key has a value on each record. -/
def Readable (keys : List Accessor) (rows : List Value) : Prop :=
  ∀ d ∈ rows, ∀ a ∈ keys, ∃ v, a.call d = .ok v

/-- The text of one key of a record. -/
def textOn (a : Accessor) (d : Value) : String :=
  keyText (a.valueOn d)

/-- The key texts of a record. -/
def keyOf (keys : List Accessor) (d : Value) : List String :=
  keys.map fun a => textOn a d

/-- What a group holds under a name: the key value of its first record, of the last key with that
name. -/
def fieldOn? (keys : List Accessor) (d : Value) (name : String) : Option Json :=
  (keys.reverse.find? fun a => a.name == name).map fun a => (a.valueOn d).toJson

/-- Groups of records that partition their positions by key texts, in first-seen order. -/
structure IsPartition (keys : List Accessor) (rows : List Value) (groups : List Group) : Prop where
  members_perm : (groups.flatMap Group.members).Perm (List.range rows.length)
  ascending : ∀ g ∈ groups, g.members.Pairwise (· < ·)
  first_seen : groups.Pairwise fun g h =>
    ∃ i j, g.members.head? = some i ∧ h.members.head? = some j ∧ i < j
  mem_iff : ∀ g ∈ groups, ∀ i d, rows[i]? = some d → (i ∈ g.members ↔ keyOf keys d = g.key)
  keys_distinct : groups.Pairwise fun g h => g.key ≠ h.key
  fields : ∀ g ∈ groups, ∃ i d, g.members.head? = some i ∧ rows[i]? = some d ∧
    ∀ name, g.fields.get? name = fieldOn? keys d name

/-! ## The classes of records -/

/-- The fields of a group whose first record is `d`. -/
def fieldsOn (keys : List Accessor) (d : Value) : Fields :=
  fieldsOf keys (keys.map fun a => a.valueOn d)

theorem get?_fieldsOn (d : Value) (name : String) :
    (fieldsOn keys d).get? name = fieldOn? keys d name := by
  have hpairs : (keys.map Accessor.name).zip ((keys.map fun a => a.valueOn d).map Value.toJson) =
      keys.map fun a => (a.name, (a.valueOn d).toJson) := by
    rw [List.map_map, List.zip_map']
    rfl
  rw [fieldsOn, fieldsOf, hpairs, Fields.ofPairs, Fields.get?_insertAll_map, Fields.get?_nil,
    Option.or_none, fieldOn?]

/-- Whether a record has the given key texts. -/
def hasKey (keys : List Accessor) (key : List String) (d : Value) : Bool :=
  keyOf keys d == key

@[simp] theorem hasKey_iff {key : List String} {d : Value} :
    hasKey keys key d = true ↔ keyOf keys d = key :=
  beq_iff_eq

/-- The group of the records with the given key texts. -/
def groupOf (keys : List Accessor) (rows : List Value) (key : List String) : Group where
  key := key
  fields := ((rows.find? (hasKey keys key)).map (fieldsOn keys)).getD []
  members := rows.findIdxs (hasKey keys key)

/-- The groups of all records. -/
def groupsOf (keys : List Accessor) (rows : List Value) : List Group :=
  ((rows.map (keyOf keys)).eraseDups).map (groupOf keys rows)

theorem addMember_eq_upsert (values : List Value) (position : Nat) (groups : List Group) :
    addMember keys values position groups =
      upsert Group.key (values.map keyText)
        (fun g => { g with members := g.members ++ [position] })
        ⟨values.map keyText, fieldsOf keys values, [position]⟩ groups := by
  induction groups with
  | nil => rfl
  | cons g rest ih => rw [addMember, upsert, ih]

/-- One more record brings the groups up to date. -/
theorem addMember_groupsOf (rows : List Value) (d : Value) :
    addMember keys (keys.map fun a => a.valueOn d) rows.length (groupsOf keys rows) =
      groupsOf keys (rows ++ [d]) := by
  have hkey : (keys.map fun a => a.valueOn d).map keyText = keyOf keys d := by
    rw [List.map_map]
    rfl
  rw [addMember_eq_upsert, groupsOf, groupsOf, List.map_append, List.map_singleton, hkey]
  refine upsert_eraseDups (fun _ => rfl) ?_ ?_ ?_
  · intro hseen
    obtain ⟨e, he, heq⟩ := List.mem_map.mp hseen
    have hfind : (rows.find? (hasKey keys (keyOf keys d))).isSome :=
      List.find?_isSome.mpr ⟨e, he, hasKey_iff.mpr heq⟩
    obtain ⟨first, hfirst⟩ := Option.isSome_iff_exists.mp hfind
    simp [groupOf, List.find?_append, List.findIdxs_append, hfirst]
  · intro hnew
    have hnone : rows.find? (hasKey keys (keyOf keys d)) = none :=
      List.find?_eq_none.mpr fun e he heq =>
        hnew (List.mem_map.mpr ⟨e, he, hasKey_iff.mp heq⟩)
    have hempty : rows.findIdxs (hasKey keys (keyOf keys d)) = [] :=
      List.findIdxs_eq_nil_iff.mpr fun e he =>
        Bool.eq_false_iff.mpr (List.find?_eq_none.mp hnone e he)
    simp [groupOf, List.find?_append, List.findIdxs_append, hnone, hempty, fieldsOn]
  · intro key hkey hne
    have hd : hasKey keys key d = false := Bool.eq_false_iff.mpr (mt hasKey_iff.mp (Ne.symm hne))
    simp [groupOf, List.find?_append, List.findIdxs_append, hd]

/-! ## Grouping gives the classes -/

theorem valuesOf_eq_ok_iff {d : Value} {values : List Value} :
    valuesOf keys d = .ok values ↔
      (∀ a ∈ keys, ∃ v, a.call d = .ok v) ∧ values = keys.map fun a => a.valueOn d :=
  mapM_eq_ok_iff_map Value.undefined

/-- Grouping succeeds exactly if no key fails, and gives the classes of records. -/
theorem group_eq_ok_iff {g : Grouping} {rows : List Value} {groups : List Group} :
    g.group rows = .ok groups ↔ Readable g.keys rows ∧ groups = groupsOf g.keys rows := by
  refine foldlM_zipIdx_eq_ok_iff_of (groupsOf g.keys) fun rows d next => ?_
  rw [addRecord, map_eq_ok_iff]
  constructor
  · rintro ⟨values, hvalues, rfl⟩
    obtain ⟨hd, rfl⟩ := valuesOf_eq_ok_iff.mp hvalues
    exact ⟨hd, addMember_groupsOf rows d⟩
  · rintro ⟨hd, rfl⟩
    exact ⟨_, valuesOf_eq_ok_iff.mpr ⟨hd, rfl⟩, addMember_groupsOf rows d⟩

/-! ## The classes are a partition -/

theorem mem_groupsOf {rows : List Value} {g : Group} :
    g ∈ groupsOf keys rows ↔ ∃ d ∈ rows, g = groupOf keys rows (keyOf keys d) := by
  simp [groupsOf, List.mem_eraseDups, eq_comm]

theorem mem_members_groupOf {rows : List Value} {key : List String} {i : Nat} :
    i ∈ (groupOf keys rows key).members ↔ ∃ d, rows[i]? = some d ∧ keyOf keys d = key := by
  rw [groupOf, List.mem_findIdxs_iff_exists_getElem_pos]
  constructor
  · rintro ⟨hlt, hkey⟩
    exact ⟨rows[i], List.getElem?_eq_getElem hlt, hasKey_iff.mp hkey⟩
  · rintro ⟨d, hd, hkey⟩
    obtain ⟨hlt, rfl⟩ := List.getElem?_eq_some_iff.mp hd
    exact ⟨hlt, hasKey_iff.mpr hkey⟩

/-- The items at the positions of a group are those whose records have its key texts. -/
theorem filterMap_members_groupOf {ι : Type} (record : ι → Value) (items : List ι)
    (key : List String) :
    (groupOf keys (items.map record) key).members.filterMap (fun i => items[i]?) =
      items.filter fun x => hasKey keys key (record x) := by
  rw [groupOf, List.findIdxs_map]
  exact filterMap_findIdxs _ items

theorem findIdx_hasKey (rows : List Value) (key : List String) :
    rows.findIdx (hasKey keys key) = (rows.map (keyOf keys)).idxOf key := by
  rw [List.idxOf, List.findIdx_map]
  rfl

theorem head?_members_groupOf {rows : List Value} {key : List String}
    (h : key ∈ rows.map (keyOf keys)) :
    (groupOf keys rows key).members.head? = some ((rows.map (keyOf keys)).idxOf key) := by
  obtain ⟨d, hd, hkey⟩ := List.mem_map.mp h
  rw [← findIdx_hasKey, groupOf]
  exact head?_findIdxs ⟨d, hd, hasKey_iff.mpr hkey⟩

theorem isPartition_groupsOf (rows : List Value) : IsPartition keys rows (groupsOf keys rows) where
  members_perm := by
    refine (List.perm_ext_iff_of_nodup ?_ List.nodup_range).mpr fun i => ?_
    · rw [List.nodup_flatMap]
      constructor
      · intro g hg
        obtain ⟨d, -, rfl⟩ := mem_groupsOf.mp hg
        exact List.nodup_findIdxs
      · refine List.pairwise_map.mpr ((nodup_eraseDups _).imp fun {k k'} hne => ?_)
        rw [Function.onFun, List.disjoint_left]
        intro i hi hi'
        obtain ⟨d, hd, rfl⟩ := mem_members_groupOf.mp hi
        obtain ⟨d', hd', rfl⟩ := mem_members_groupOf.mp hi'
        exact hne (congrArg (keyOf keys) (Option.some.inj (hd.symm.trans hd')))
    · rw [List.mem_flatMap, List.mem_range]
      constructor
      · rintro ⟨g, hg, hi⟩
        obtain ⟨d, -, rfl⟩ := mem_groupsOf.mp hg
        obtain ⟨e, he, -⟩ := mem_members_groupOf.mp hi
        exact (List.getElem?_eq_some_iff.mp he).1
      · intro hi
        refine ⟨_, mem_groupsOf.mpr ⟨rows[i], List.getElem_mem hi, rfl⟩, ?_⟩
        exact mem_members_groupOf.mpr ⟨rows[i], List.getElem?_eq_getElem hi, rfl⟩
  ascending := by
    intro g hg
    obtain ⟨d, -, rfl⟩ := mem_groupsOf.mp hg
    exact List.pairwise_findIdxs
  first_seen := by
    refine List.pairwise_map.mpr ((pairwise_eraseDups _).imp_of_mem fun {k k'} hk hk' hlt => ?_)
    rw [List.mem_eraseDups] at hk hk'
    exact ⟨_, _, head?_members_groupOf hk, head?_members_groupOf hk', hlt⟩
  mem_iff := by
    intro g hg i d hd
    obtain ⟨e, -, rfl⟩ := mem_groupsOf.mp hg
    rw [mem_members_groupOf]
    constructor
    · rintro ⟨d', hd', hkey⟩
      exact Option.some.inj (hd.symm.trans hd') ▸ hkey
    · intro hkey
      exact ⟨d, hd, hkey⟩
  keys_distinct := List.pairwise_map.mpr (nodup_eraseDups _)
  fields := by
    intro g hg
    obtain ⟨d, hd, rfl⟩ := mem_groupsOf.mp hg
    have hmem : keyOf keys d ∈ rows.map (keyOf keys) := List.mem_map_of_mem hd
    have hfind : (rows.find? (hasKey keys (keyOf keys d))).isSome :=
      List.find?_isSome.mpr ⟨d, hd, hasKey_iff.mpr rfl⟩
    obtain ⟨first, hfirst⟩ := Option.isSome_iff_exists.mp hfind
    refine ⟨_, first, head?_members_groupOf hmem, ?_, fun name => ?_⟩
    · rw [← findIdx_hasKey, ← List.find?_eq_getElem?_findIdx]
      exact hfirst
    · rw [groupOf, hfirst, Option.map_some, Option.getD_some, get?_fieldsOn]

/-- The members of all groups are as many as the records. -/
theorem sum_length_members_groupsOf (keys : List Accessor) (rows : List Value) :
    ((groupsOf keys rows).map fun e => e.members.length).sum = rows.length := by
  rw [← List.length_flatMap, (isPartition_groupsOf rows).members_perm.length_eq, List.length_range]

/-- If no key fails, grouping gives groups that partition the records by their key texts, in the
order in which the texts are first seen, and each group holds the key values of its first record. -/
theorem exists_group_isPartition {g : Grouping} {rows : List Value} (h : Readable g.keys rows) :
    ∃ groups, g.group rows = .ok groups ∧ IsPartition g.keys rows groups :=
  ⟨_, group_eq_ok_iff.mpr ⟨h, rfl⟩, isPartition_groupsOf rows⟩

/-- A null, a missing field and an empty text are one key, and a number and its text are another. -/
theorem exists_group_isPartition_nullish :
    ∃ rows groups,
      rows = [.json (.object [("k", .null)]), .json (.object [("k", .number (.int 1))]),
        .json (.object []), .json (.object [("k", .string "1")]),
        .json (.object [("k", .string "")])] ∧
      Readable [.field "k"] rows ∧ group ⟨[.field "k"]⟩ rows = .ok groups ∧
      groups.map Group.members = [[0, 2, 4], [1, 3]] := by
  have hread : ∀ rows, Readable [.field "k"] rows := by
    intro rows d _ a ha
    obtain rfl := List.mem_singleton.mp ha
    exact ⟨_, rfl⟩
  obtain ⟨groups, hgroups, -⟩ := exists_group_isPartition (g := ⟨[.field "k"]⟩) (hread _)
  refine ⟨_, groups, rfl, hread _, hgroups, ?_⟩
  have hmembers := congrArg (Except.map (List.map Group.members)) hgroups
  exact (Except.ok.inj hmembers).symm.trans (by decide)

end Grouping

end RecordQuery
