import RecordQuery.Proofs.Results
import RecordQuery.Proofs.Sorting.Stability
import RecordQuery.Query.Select

/-! # Selects ordered by keys

A spec of an order is a key and a direction in one text. If the records hold texts under the keys,
the comparators of the specs compare key by key, so a select that does nothing else is the stable
sort of its records by the keys.
-/

namespace RecordQuery

open Sorting

/-! ## Sort keys -/

inductive Direction where
  | asc
  | desc
deriving DecidableEq, Repr

namespace Direction

/-- The name of a direction in a spec. -/
def word : Direction → String
  | asc => "asc"
  | desc => "desc"

def order : Direction → Order
  | asc => .asc
  | desc => .desc

end Direction

/-- A field of the records and the direction in which its texts go. -/
structure SortKey where
  name : String
  direction : Direction
deriving DecidableEq, Repr

namespace SortKey

/-- The text that asks for an order by the key. -/
def spec (k : SortKey) : Spec := .text (k.name ++ " " ++ k.direction.word)

def comparator (k : SortKey) : Comparator := ⟨.field k.name, k.direction.order⟩

/-- The text of a record under the key, if it holds one there. -/
def text? (k : SortKey) (row : Json) : Option String :=
  match (Value.json row).property k.name with
  | .json (.string t) => some t
  | _ => none

/-- A record holds a text under the key. -/
def HeldBy (k : SortKey) (row : Json) : Prop := (k.text? row).isSome

instance (k : SortKey) (row : Json) : Decidable (k.HeldBy row) :=
  inferInstanceAs (Decidable ((k.text? row).isSome = true))

/-- The text of a record under the key, empty if it holds none. -/
def textOf (k : SortKey) (row : Json) : String := (k.text? row).getD ""

/-- Records compare as their texts do, in a descending order the other way round. -/
def compare (k : SortKey) (a b : Json) : Ordering :=
  match k.direction with
  | .asc => compareOn k.textOf a b
  | .desc => compareOn k.textOf b a

end SortKey

/-- The first key under which two records differ decides. -/
def compareByKeys : List SortKey → Json → Json → Ordering
  | [], _, _ => .eq
  | k :: keys, a, b => (k.compare a b).then (compareByKeys keys a b)

instance (k : SortKey) : Std.TransCmp k.compare := by
  obtain ⟨name, direction⟩ := k
  cases direction with
  | asc => exact inferInstanceAs (Std.TransCmp (compareOn _))
  | desc =>
      exact @Std.TransCmp.opposite _ (compareOn (SortKey.textOf ⟨name, .desc⟩)) _

instance (keys : List SortKey) : Std.TransCmp (compareByKeys keys) := by
  induction keys with
  | nil => exact { eq_swap := rfl, isLE_trans := fun _ _ => rfl }
  | cons k keys ih =>
      exact inferInstanceAs (Std.TransCmp (compareLex k.compare (compareByKeys keys)))

/-! ## Comparators of specs -/

/-- The last blank of a text separates the key from the name of an order. The key itself may hold
blanks and end in such a name. -/
theorem splitOrderSuffix?_append {key word : List Char} (hword : isOrderWord word = true)
    (hblank : ' ' ∉ word) (hkey : '\n' ∉ key) :
    splitOrderSuffix? (key ++ ' ' :: word) = some (key, word) := by
  have hreverse : (key ++ ' ' :: word).reverse = word.reverse ++ ' ' :: key.reverse := by simp
  have hall : ∀ c ∈ word.reverse, decide (c ≠ ' ') = true := by
    intro c hc
    exact decide_eq_true fun h => hblank (h ▸ List.mem_reverse.mp hc)
  rw [splitOrderSuffix?, hreverse, List.takeWhile_append_of_pos hall,
    List.dropWhile_append_of_pos hall]
  simp [hword, hkey]

namespace SortKey

theorem ofSpec_spec {k : SortKey} (hkey : '\n' ∉ k.name.toList) :
    Comparator.ofSpec k.spec .unspecified = .ok k.comparator := by
  have hword : isOrderWord k.direction.word.toList = true ∧ ' ' ∉ k.direction.word.toList := by
    cases k.direction <;> decide
  have hsplit := splitOrderSuffix?_append hword.1 hword.2 hkey
  have horder : Order.named k.direction.word = .ok k.direction.order := by
    cases k.direction <;> rfl
  have htext : (k.name ++ " " ++ k.direction.word).toList =
      k.name.toList ++ ' ' :: k.direction.word.toList := by
    simp
  simp only [Comparator.ofSpec, spec, htext, hsplit, String.ofList_toList, SortOrder.resolve,
    horder]
  rfl

theorem ofSpecs_spec {keys : List SortKey} (hkeys : ∀ k ∈ keys, '\n' ∉ k.name.toList) :
    Comparator.ofSpecs (keys.map spec) = .ok (keys.map comparator) := by
  rw [Comparator.ofSpecs, mapM_eq_ok_iff, List.forall₂_map_left_iff, List.forall₂_map_right_iff,
    List.forall₂_same]
  exact fun k hk => ofSpec_spec (hkeys k hk)

/-! ## Comparison of records -/

/-- The number of two texts in an order stands for how they compare. -/
theorem orderingOfSign_apply (direction : Direction) (s t : String) :
    orderingOfSign (direction.order.apply (.json (.string s)) (.json (.string t))) =
      match direction with
      | .asc => Ord.compare s t
      | .desc => Ord.compare t s := by
  have hcompare : Value.compare? (.json (.string s)) (.json (.string t)) =
      some (Ord.compare s t) := rfl
  have hswap : Ord.compare t s = (Ord.compare s t).swap := Std.OrientedOrd.eq_swap
  cases direction with
  | asc =>
      simp only [Direction.order, Order.apply, Order.ascending, hcompare]
      cases Ord.compare s t <;> decide +kernel
  | desc =>
      simp only [Direction.order, Order.apply, Order.descending, Order.ascending, hcompare, hswap]
      cases Ord.compare s t <;> decide +kernel

theorem property_eq_of_heldBy {k : SortKey} {row : Json} (h : k.HeldBy row) :
    (Value.json row).property k.name = .json (.string (k.textOf row)) := by
  rw [HeldBy, text?] at h
  rw [textOf, text?]
  split at h
  next t ht => simp [ht]
  next => cases h

/-- The comparator of a key puts two records that hold texts in the order of the key. -/
theorem comparison_comparator {k : SortKey} {a b : Json} (ha : k.HeldBy a) (hb : k.HeldBy b) :
    (k.comparator.compare (.json a) (.json b)).map orderingOfSign = .ok (k.compare a b) := by
  have hcall : k.comparator.compare (.json a) (.json b) =
      .ok (k.direction.order.apply (.json (.string (k.textOf a)))
        (.json (.string (k.textOf b)))) := by
    simp only [Comparator.compare, comparator, Accessor.field, Accessor.ofFunction, Accessor.new,
      property_eq_of_heldBy ha, property_eq_of_heldBy hb]
    rfl
  rw [hcall, Except.map, orderingOfSign_apply]
  rfl

/-- A comparator decides unless its number stands for equality. -/
theorem comparisonBy_cons {c : Comparator} {rest : List Comparator} {a b : Value} {o : Ordering}
    (h : (c.compare a b).map orderingOfSign = .ok o) :
    comparisonBy (c :: rest) a b = if o = .eq then comparisonBy rest a b else .ok o := by
  obtain ⟨x, hx, rfl⟩ := map_eq_ok_iff.mp h
  have hdecides : (x < 0.0 ∨ 0.0 < x) ↔ orderingOfSign x ≠ .eq := by
    rw [orderingOfSign]
    split
    next hlt => simp [hlt]
    next hlt => split <;> simp_all
  have hrun : Comparator.compareAll a b (c :: rest) =
      if orderingOfSign x ≠ .eq then .ok x else Comparator.compareAll a b rest := by
    simp only [Comparator.compareAll, hx, ← hdecides]
    rfl
  rw [comparisonBy, comparisonBy, hrun]
  split
  next hne => rfl
  next heq => rw [if_pos (not_not.mp heq)]

theorem comparisonBy_comparators {keys : List SortKey} {a b : Json}
    (ha : ∀ k ∈ keys, k.HeldBy a) (hb : ∀ k ∈ keys, k.HeldBy b) :
    comparisonBy (keys.map comparator) (.json a) (.json b) = .ok (compareByKeys keys a b) := by
  induction keys with
  | nil =>
      have hzero : orderingOfSign 0.0 = .eq := by decide +kernel
      exact congrArg Except.ok hzero
  | cons k keys ih =>
      obtain ⟨hak, hakeys⟩ := List.forall_mem_cons.mp ha
      obtain ⟨hbk, hbkeys⟩ := List.forall_mem_cons.mp hb
      rw [List.map_cons, comparisonBy_cons (comparison_comparator hak hbk), ih hakeys hbkeys,
        compareByKeys]
      cases k.compare a b <;> rfl

end SortKey

/-! ## The sorted records -/

/-- Records that hold texts under the keys are put into the order of the keys. -/
theorem sortRows_comparators {keys : List SortKey} {rows : List Json}
    (hheld : ∀ row ∈ rows, ∀ k ∈ keys, k.HeldBy row) :
    ∃ out, sortRows (keys.map SortKey.comparator) (rows.map .json) = .ok (out.map .json) ∧
      IsStableSort (compareByKeys keys) rows out := by
  unfold sortRows
  exact stableSort_map (compareByKeys keys) Value.json fun a ha b hb =>
    SortKey.comparisonBy_comparators (hheld a ha) (hheld b hb)

namespace Select

/-- A select without columns, a filter, a grouping and a window only orders its records. -/
theorem run_of_ordered {s : Select} (hcolumns : s.columns = []) (haggregates : s.aggregates = [])
    (hfilter : s.filter = none) (hgrouping : s.grouping = none) (hlimit : s.limit = 0)
    (hoffset : s.offset = 0) {rows out : List Json}
    (hordered : s.ordered (rows.map .json) = .ok (out.map .json)) : s.run rows = .ok out := by
  have hproject (row : Json) : s.project row = .ok (.json row) := by
    rw [project, hcolumns]
  have hpassing (rows : List Json) :
      s.passing rows = .ok (rows.map fun row => (row, .json row)) := by
    induction rows with
    | nil => rfl
    | cons row rows ih =>
        rw [passing, hproject, hfilter, ih]
        rfl
  have hgrouped : s.grouped (rows.map fun row => (row, .json row)) = .ok (rows.map .json) := by
    rw [grouped, hgrouping, haggregates, List.map_map]
    rfl
  have hwindow : (window s.limit s.offset (out.map Value.json)).map Value.toJson = out := by
    simp [window, hlimit, hoffset, Function.comp_def]
  refine bind_eq_ok_iff.mpr ⟨_, hpassing rows, bind_eq_ok_iff.mpr ⟨_, hgrouped, ?_⟩⟩
  exact bind_eq_ok_iff.mpr ⟨_, hordered, congrArg Except.ok hwindow⟩

/-- Such a select, ordered by keys and directions, has one possible result: the permutation of the
records that is sorted key by key, with records of the same texts in the order in which they stood.
It has that result if the keys are on one line and every record holds a text under each of them. -/
theorem run_orderBy {s : Select} (hcolumns : s.columns = []) (haggregates : s.aggregates = [])
    (hfilter : s.filter = none) (hgrouping : s.grouping = none) (hlimit : s.limit = 0)
    (hoffset : s.offset = 0) {keys : List SortKey} {rows : List Json}
    (hkeys : ∀ k ∈ keys, '\n' ∉ k.name.toList) (hheld : ∀ row ∈ rows, ∀ k ∈ keys, k.HeldBy row) :
    ∃ t out, s.orderBy (keys.map SortKey.spec) = .ok t ∧ t.run rows = .ok out ∧
      ∀ other, IsStableSort (compareByKeys keys) rows other ↔ other = out := by
  obtain ⟨out, hsorted, hstable⟩ := sortRows_comparators hheld
  have horder : s.orderBy (keys.map SortKey.spec) =
      .ok { s with order := some (keys.map SortKey.comparator) } :=
    map_eq_ok_iff.mpr ⟨_, SortKey.ofSpecs_spec hkeys, rfl⟩
  refine ⟨_, out, horder, ?_, fun other => ⟨hstable.unique, fun h => h ▸ hstable⟩⟩
  refine run_of_ordered ?_ ?_ ?_ ?_ ?_ ?_ hsorted
  exacts [hcolumns, haggregates, hfilter, hgrouping, hlimit, hoffset]

/-- A key with a blank in it, and one that ends in the name of an order. -/
theorem run_orderBy_blanks :
    let keys : List SortKey := [⟨"last name", .asc⟩, ⟨"n asc", .desc⟩]
    let rows := [.object [("last name", .string "b"), ("n asc", .string "1")],
      .object [("last name", .string "a"), ("n asc", .string "1")],
      .object [("n asc", .string "2"), ("last name", .string "b")],
      .object [("last name", .string "b"), ("n asc", .string "1"), ("x", .null)]]
    let sorted := [.object [("last name", .string "a"), ("n asc", .string "1")],
      .object [("n asc", .string "2"), ("last name", .string "b")],
      .object [("last name", .string "b"), ("n asc", .string "1")],
      .object [("last name", .string "b"), ("n asc", .string "1"), ("x", .null)]]
    (∀ k ∈ keys, '\n' ∉ k.name.toList) ∧ (∀ row ∈ rows, ∀ k ∈ keys, k.HeldBy row) ∧
      ∃ t, (ofColumns []).orderBy (keys.map SortKey.spec) = .ok t ∧ t.run rows = .ok sorted ∧
        ∀ other, IsStableSort (compareByKeys keys) rows other ↔ other = sorted := by
  intro keys rows sorted
  have hkeys : ∀ k ∈ keys, '\n' ∉ k.name.toList := by decide
  have hheld : ∀ row ∈ rows, ∀ k ∈ keys, k.HeldBy row := by decide
  obtain ⟨t, out, ht, hout, hunique⟩ :=
    run_orderBy (s := ofColumns []) rfl rfl rfl rfl rfl rfl hkeys hheld
  have hrun : ((ofColumns []).orderBy (keys.map SortKey.spec)).map (·.run rows) =
      .ok (.ok sorted) := by
    with_unfolding_all rfl
  rw [ht] at hrun
  obtain rfl : out = sorted := Except.ok.inj (hout.symm.trans (Except.ok.inj hrun))
  exact ⟨hkeys, hheld, t, ht, hout, hunique⟩

end Select

end RecordQuery
