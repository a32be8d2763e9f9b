import RecordQuery.Proofs.Sorting.Keys

/-! # Sorting by one key after the other

A stable sort by one comparison, after one by another, is a stable sort by both, the second one for
ties of the first. So sorting records by all comparators at once is sorting them by each comparator
alone, from the last one to the first.
-/

namespace RecordQuery

namespace Sorting

variable {α : Type} {cmp next : α → α → Ordering}

/-! ## Ties of one comparison put in order by another -/

/-- What compares equal by both comparisons is found among what compares equal by the first. -/
theorem peers_compareLex (a : α) (items : List α) :
    peers (compareLex cmp next) a items = peers next a (peers cmp a items) := by
  rw [peers, peers, peers, List.filter_filter]
  refine List.filter_congr fun b _ => ?_
  cases hcmp : cmp a b <;> simp [compareLex, hcmp]

theorem peers_comm (a : α) (items : List α) :
    peers cmp a (peers next a items) = peers next a (peers cmp a items) := by
  rw [peers, peers, peers, peers, List.filter_filter, List.filter_filter]
  exact List.filter_congr fun b _ => Bool.and_comm _ _

/-- A list is in the order of both comparisons if it is in the order of the first and its ties are
in the order of the second. -/
theorem ascending_compareLex [Std.ReflCmp cmp] {items : List α} (h : Ascending cmp items)
    (hties : ∀ a, Ascending next (peers cmp a items)) : Ascending (compareLex cmp next) items := by
  induction items with
  | nil => exact .nil
  | cons x items ih =>
      obtain ⟨hx, hitems⟩ := List.pairwise_cons.mp h
      refine List.pairwise_cons.mpr ⟨fun y hy => ?_, ih hitems fun a => ?_⟩
      · cases hxy : cmp x y with
        | lt => simp [compareLex, hxy]
        | gt => simpa [hxy] using hx y hy
        | eq =>
            have htie := hties x
            rw [peers_cons_of_eq Std.ReflCmp.compare_self] at htie
            have hmem : y ∈ peers cmp x items := List.mem_filter.mpr ⟨hy, by simp [hxy]⟩
            simpa [compareLex, hxy] using List.rel_of_pairwise_cons htie hmem
      · have htie := hties a
        by_cases hax : cmp a x = .eq
        · rw [peers_cons_of_eq hax] at htie
          exact htie.of_cons
        · rwa [peers_cons_of_ne hax] at htie

/-- A stable sort of a list that is sorted stably by another comparison. -/
theorem IsStableSort.compareLex [Std.ReflCmp cmp] {items middle out : List α}
    (hmiddle : IsStableSort next items middle) (hout : IsStableSort cmp middle out) :
    IsStableSort (compareLex cmp next) items out where
  perm := hout.perm.trans hmiddle.perm
  ascending := by
    refine ascending_compareLex hout.ascending fun a => ?_
    rw [hout.peers_eq]
    exact hmiddle.ascending.filter _
  peers_eq a := by
    rw [peers_compareLex, hout.peers_eq, ← peers_comm, hmiddle.peers_eq, peers_comm,
      ← peers_compareLex]

/-! ## Total preorders on the members of a list -/

/-- On the members of a list, the answers of a comparison are those of a total preorder. -/
structure IsPreorderOn (cmp : α → α → Ordering) (items : List α) : Prop where
  eq_swap : ∀ a ∈ items, ∀ b ∈ items, cmp a b = (cmp b a).swap
  isLE_trans : ∀ a ∈ items, ∀ b ∈ items, ∀ c ∈ items,
    (cmp a b).isLE = true → (cmp b c).isLE = true → (cmp a c).isLE = true

instance (cmp : α → α → Ordering) (items : List α) : Decidable (IsPreorderOn cmp items) :=
  decidable_of_iff
    ((∀ a ∈ items, ∀ b ∈ items, cmp a b = (cmp b a).swap) ∧
      ∀ a ∈ items, ∀ b ∈ items, ∀ c ∈ items,
        (cmp a b).isLE = true → (cmp b c).isLE = true → (cmp a c).isLE = true)
    ⟨fun h => ⟨h.1, h.2⟩, fun h => ⟨h.1, h.2⟩⟩

/-- A comparison of the members of a list. -/
def onMembers (cmp : α → α → Ordering) (items : List α) (a b : {x // x ∈ items}) : Ordering :=
  cmp a b

theorem IsPreorderOn.transCmp {items : List α} (h : IsPreorderOn cmp items) :
    Std.TransCmp (onMembers cmp items) where
  eq_swap := fun {a b} => h.eq_swap a a.2 b b.2
  isLE_trans := fun {a b c} => h.isLE_trans a a.2 b b.2 c c.2

end Sorting

open Sorting

namespace Comparator

/-- How a comparator puts two records on which its key does not fail. A result that is neither
negative nor positive is a tie, and so is NaN. -/
def ordering (c : Comparator) (a b : Value) : Ordering :=
  orderingOfSign (valueOr 0.0 (c.compare a b))

/-- The key of a comparator fails on none of the records. -/
def Reads (c : Comparator) (rows : List Value) : Prop :=
  ∀ row ∈ rows, ∃ v, c.key.call row = .ok v

instance (c : Comparator) (rows : List Value) : Decidable (c.Reads rows) :=
  inferInstanceAs (Decidable (∀ row ∈ rows, ∃ v, c.key.call row = .ok v))

theorem Reads.compare_eq {c : Comparator} {rows : List Value} (h : c.Reads rows) {a b : Value}
    (ha : a ∈ rows) (hb : b ∈ rows) :
    (c.compare a b).map orderingOfSign = .ok (c.ordering a b) := by
  obtain ⟨x, hx⟩ := h a ha
  obtain ⟨y, hy⟩ := h b hb
  have hcompare : c.compare a b = .ok (c.order.apply x y) := by
    rw [compare, hx, hy]
    rfl
  rw [ordering, hcompare]
  rfl

/-- The first comparator that puts two members of the list apart decides. -/
def orderingOfAll (rows : List Value) :
    List Comparator → {row // row ∈ rows} → {row // row ∈ rows} → Ordering
  | [] => fun _ _ => .eq
  | c :: rest => compareLex (onMembers c.ordering rows) (orderingOfAll rows rest)

variable {rows : List Value}

theorem comparisonBy_eq {comparators : List Comparator} (h : ∀ c ∈ comparators, c.Reads rows)
    (a b : {row // row ∈ rows}) :
    comparisonBy comparators a b = .ok (orderingOfAll rows comparators a b) := by
  induction comparators with
  | nil =>
      have hzero : orderingOfSign 0.0 = .eq := by decide +kernel
      exact congrArg Except.ok hzero
  | cons c rest ih =>
      obtain ⟨hc, hrest⟩ := List.forall_mem_cons.mp h
      rw [SortKey.comparisonBy_cons (hc.compare_eq a.2 b.2), ih hrest, orderingOfAll, compareLex,
        onMembers]
      cases c.ordering a b <;> rfl

theorem transCmp_orderingOfAll {comparators : List Comparator}
    (h : ∀ c ∈ comparators, IsPreorderOn c.ordering rows) :
    Std.TransCmp (orderingOfAll rows comparators) := by
  induction comparators with
  | nil => exact { eq_swap := rfl, isLE_trans := fun _ _ => rfl }
  | cons c rest ih =>
      obtain ⟨hc, hrest⟩ := List.forall_mem_cons.mp h
      have := hc.transCmp
      have := ih hrest
      exact inferInstanceAs (Std.TransCmp (compareLex _ _))

/-! ## One comparator after the other -/

/-- Members of a list are put into the order of the comparators. -/
theorem exists_sortRows_eq {comparators : List Comparator} (hreads : ∀ c ∈ comparators, c.Reads rows)
    (horder : ∀ c ∈ comparators, IsPreorderOn c.ordering rows) (items : List {row // row ∈ rows}) :
    ∃ out : List {row // row ∈ rows},
      sortRows comparators (items.map Subtype.val) = .ok (out.map Subtype.val) ∧
        IsStableSort (orderingOfAll rows comparators) items out := by
  have := transCmp_orderingOfAll horder
  unfold sortRows
  exact stableSort_map _ Subtype.val fun a _ b _ => comparisonBy_eq hreads a b

/-- Sorting by one comparator puts its ties in no other order. -/
theorem isStableSort_single {c : Comparator} {items out : List {row // row ∈ rows}}
    (h : IsStableSort (orderingOfAll rows [c]) items out) :
    IsStableSort (onMembers c.ordering rows) items out := by
  have hsingle : orderingOfAll rows [c] = onMembers c.ordering rows := by
    funext a b
    simp only [orderingOfAll, compareLex, Ordering.then_eq]
  exact hsingle ▸ h

theorem exists_foldrM_eq {comparators : List Comparator} (hreads : ∀ c ∈ comparators, c.Reads rows)
    (horder : ∀ c ∈ comparators, IsPreorderOn c.ordering rows) (items : List {row // row ∈ rows}) :
    ∃ out : List {row // row ∈ rows},
      comparators.foldrM (fun c sorted => sortRows [c] sorted) (items.map Subtype.val) =
        .ok (out.map Subtype.val) ∧
        IsStableSort (orderingOfAll rows comparators) items out := by
  induction comparators with
  | nil => exact ⟨items, rfl, .refl _, List.pairwise_of_forall fun _ _ => rfl, fun _ => rfl⟩
  | cons c rest ih =>
      obtain ⟨hc, hrest⟩ := List.forall_mem_cons.mp hreads
      obtain ⟨hcorder, hrestorder⟩ := List.forall_mem_cons.mp horder
      obtain ⟨middle, hmiddle, hstable⟩ := ih hrest hrestorder
      have := hcorder.transCmp
      obtain ⟨out, hout, hlast⟩ := exists_sortRows_eq (List.forall_mem_singleton.mpr hc)
        (List.forall_mem_singleton.mpr hcorder) middle
      refine ⟨out, ?_, hstable.compareLex (isStableSort_single hlast)⟩
      rw [List.foldrM_cons]
      exact bind_eq_ok_iff.mpr ⟨_, hmiddle, hout⟩

/-- Sorting records by comparators is sorting them by the last comparator alone, then by the one
before it, and so on up to the first, if no key fails on the records and each comparator puts them
in a total preorder. -/
theorem sortRows_eq_foldrM {comparators : List Comparator} (hreads : ∀ c ∈ comparators, c.Reads rows)
    (horder : ∀ c ∈ comparators, IsPreorderOn c.ordering rows) :
    ∃ out, sortRows comparators rows = .ok out ∧
      comparators.foldrM (fun c sorted => sortRows [c] sorted) rows = .ok out := by
  have := transCmp_orderingOfAll horder
  obtain ⟨out, hout, hstable⟩ := exists_sortRows_eq hreads horder rows.attach
  obtain ⟨other, hother, hstable'⟩ := exists_foldrM_eq hreads horder rows.attach
  obtain rfl := hstable.unique hstable'
  rw [List.attach_map_subtype_val] at hout hother
  exact ⟨_, hout, hother⟩

/-- Records by one text downwards and then by another, with a pair that ties on both. -/
theorem sortRows_eq_foldrM_two :
    let comparators : List Comparator := [⟨.field "a", .desc⟩, ⟨.field "b", .asc⟩]
    let rows : List Value := [.json (.object [("a", .string "x"), ("b", .string "q")]),
      .json (.object [("a", .string "y"), ("b", .string "r")]),
      .json (.object [("a", .string "x"), ("b", .string "p"), ("n", .null)]),
      .json (.object [("a", .string "x"), ("b", .string "p")])]
    let sorted : List Value := [.json (.object [("a", .string "y"), ("b", .string "r")]),
      .json (.object [("a", .string "x"), ("b", .string "p"), ("n", .null)]),
      .json (.object [("a", .string "x"), ("b", .string "p")]),
      .json (.object [("a", .string "x"), ("b", .string "q")])]
    (∀ c ∈ comparators, c.Reads rows) ∧
      (∀ c ∈ comparators, IsPreorderOn c.ordering rows) ∧
      sortRows comparators rows = .ok sorted ∧
      (sortRows [⟨.field "b", .asc⟩] rows).bind (sortRows [⟨.field "a", .desc⟩]) = .ok sorted := by
  intro comparators rows sorted
  have hreads : ∀ c ∈ comparators, c.Reads rows := by decide
  have horder : ∀ c ∈ comparators, IsPreorderOn c.ordering rows := by decide +kernel
  have hsorted : sortRows comparators rows = .ok sorted := by
    subst comparators rows sorted
    with_unfolding_all rfl
  obtain ⟨out, hout, hsteps⟩ := sortRows_eq_foldrM hreads horder
  obtain rfl : out = sorted := Except.ok.inj (hout.symm.trans hsorted)
  rw [List.foldrM_cons, List.foldrM_cons, List.foldrM_nil, pure_bind] at hsteps
  exact ⟨hreads, horder, hsorted, hsteps⟩

end Comparator

end RecordQuery
