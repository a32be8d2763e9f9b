import Mathlib
import RecordQuery.Proofs.Sorting.Positions

/-! # Stable sorts

For a comparison that never fails and is a total preorder, a list has one permutation that is sorted
and keeps equal elements in their order. Insertion sort and the stable sort both give it.
-/

namespace RecordQuery.Sorting

variable {α ε : Type} {cmp : α → α → Ordering}

/-- The elements of a list that compare equal to `a`, in order. -/
def peers (cmp : α → α → Ordering) (a : α) (items : List α) : List α :=
  items.filter fun b => cmp a b == .eq

/-- No element compares greater than a later one. -/
def Ascending (cmp : α → α → Ordering) (items : List α) : Prop :=
  items.Pairwise fun a b => (cmp a b).isLE

/-- The reverse is ascending. -/
def Descending (cmp : α → α → Ordering) (items : List α) : Prop :=
  items.Pairwise fun a b => (cmp b a).isLE

/-- The list is a permutation of the items in ascending order, with equal elements as they stood. -/
structure IsStableSort (cmp : α → α → Ordering) (items out : List α) : Prop where
  perm : out.Perm items
  ascending : Ascending cmp out
  peers_eq : ∀ a, peers cmp a out = peers cmp a items

/-! ## Elements that compare equal -/

@[simp] theorem peers_nil (a : α) : peers cmp a [] = [] := rfl

theorem peers_cons_of_eq {a x : α} (h : cmp a x = .eq) (items : List α) :
    peers cmp a (x :: items) = x :: peers cmp a items :=
  List.filter_cons_of_pos (by simp [h])

theorem peers_cons_of_ne {a x : α} (h : cmp a x ≠ .eq) (items : List α) :
    peers cmp a (x :: items) = peers cmp a items :=
  List.filter_cons_of_neg (by simpa using h)

@[simp] theorem peers_append (a : α) (items others : List α) :
    peers cmp a (items ++ others) = peers cmp a items ++ peers cmp a others :=
  List.filter_append ..

@[simp] theorem peers_reverse (a : α) (items : List α) :
    peers cmp a items.reverse = (peers cmp a items).reverse :=
  List.filter_reverse ..

/-- Equal peers stay equal under one more element in front of both lists. -/
theorem peers_cons_congr {a : α} (x : α) {items others : List α}
    (h : peers cmp a items = peers cmp a others) :
    peers cmp a (x :: items) = peers cmp a (x :: others) := by
  by_cases hx : cmp a x = .eq
  · rw [peers_cons_of_eq hx, peers_cons_of_eq hx, h]
  · rw [peers_cons_of_ne hx, peers_cons_of_ne hx, h]

variable [Std.TransCmp cmp]

theorem peers_eq_nil {a y : α} {items : List α} (ha : cmp a y = .eq)
    (h : ∀ z ∈ items, cmp y z = .lt) : peers cmp a items = [] := by
  refine List.filter_eq_nil_iff.mpr fun z hz => ?_
  have hlt : cmp a z = .lt := Std.TransCmp.congr_left ha ▸ h z hz
  simp [hlt]

/-! ## There is only one -/

/-- A list in ascending order is known from the order among equal elements. -/
theorem eq_of_peers_eq {items others : List α} (hitems : Ascending cmp items)
    (hothers : Ascending cmp others) (hperm : items.Perm others)
    (hpeers : ∀ a, peers cmp a items = peers cmp a others) : items = others := by
  induction items generalizing others with
  | nil => exact hperm.nil_eq
  | cons x items ih =>
      cases others with
      | nil => exact absurd hperm.symm (List.not_perm_nil_cons x items)
      | cons y others =>
          obtain ⟨hx, hrest⟩ := List.pairwise_cons.mp hitems
          obtain ⟨hy, hrest'⟩ := List.pairwise_cons.mp hothers
          have hxy : cmp x y = .eq := by
            rcases List.mem_cons.mp (hperm.mem_iff.mpr List.mem_cons_self) with rfl | hmem
            · exact Std.ReflCmp.compare_self
            · rcases List.mem_cons.mp (hperm.mem_iff.mp List.mem_cons_self) with rfl | hmem'
              · exact Std.ReflCmp.compare_self
              · exact Std.OrientedCmp.isLE_antisymm (hx y hmem) (hy x hmem')
          have hheads := hpeers x
          rw [peers_cons_of_eq Std.ReflCmp.compare_self, peers_cons_of_eq hxy] at hheads
          obtain ⟨rfl, -⟩ := List.cons.inj hheads
          refine congrArg (x :: ·) (ih hrest hrest' hperm.cons_inv fun a => ?_)
          have ha := hpeers a
          by_cases hax : cmp a x = .eq
          · rw [peers_cons_of_eq hax, peers_cons_of_eq hax] at ha
            exact (List.cons.inj ha).2
          · rwa [peers_cons_of_ne hax, peers_cons_of_ne hax] at ha

theorem IsStableSort.unique {items out other : List α} (hout : IsStableSort cmp items out)
    (hother : IsStableSort cmp items other) : other = out :=
  eq_of_peers_eq hother.ascending hout.ascending (hother.perm.trans hout.perm.symm)
    fun a => (hother.peers_eq a).trans (hout.peers_eq a).symm

/-! ## Insertion -/

/-- The comparison that answers by `cmp`. -/
def answering (cmp : α → α → Ordering) : StatefulComparison Unit α ε :=
  stateless (infallible cmp)

omit [Std.TransCmp cmp] in
theorem answering_apply (a b : α) :
    (answering cmp a b : EStateM ε Unit Ordering) = pure (cmp a b) := rfl

variable (ε)

/-- An element moves to the left of those that compare greater, and of no others. -/
theorem insertBack_answering (x : α) {done : List α} (hdone : Descending cmp done) :
    ∃ moved, insertBack (answering cmp : StatefulComparison Unit α ε) x done = pure moved ∧
      moved.Perm (x :: done) ∧ Descending cmp moved ∧
      ∀ a, peers cmp a moved = peers cmp a (x :: done) := by
  induction done with
  | nil => exact ⟨[x], rfl, .refl _, List.pairwise_singleton _ x, fun _ => rfl⟩
  | cons y ys ih =>
      obtain ⟨hy, hys⟩ := List.pairwise_cons.mp hdone
      rw [insertBack_cons, answering_apply, pure_bind]
      split
      next hyx =>
        obtain ⟨moved, hmoved, hperm, hdescending, hpeers⟩ := ih hys
        refine ⟨y :: moved, by rw [hmoved, map_pure], (hperm.cons y).trans (.swap x y ys),
          List.pairwise_cons.mpr ⟨?_, hdescending⟩, ?_⟩
        · intro z hz
          rcases List.mem_cons.mp (hperm.mem_iff.mp hz) with rfl | hmem
          · simp [Std.OrientedCmp.gt_iff_lt.mp hyx]
          · exact hy z hmem
        -- No element compares equal to both, so their exchange does not show.
        · intro a
          by_cases hay : cmp a y = .eq
          · have hax : cmp a x ≠ .eq := by
              rw [Std.TransCmp.congr_left hay, hyx]
              decide
            rw [peers_cons_of_eq hay, hpeers, peers_cons_of_ne hax, peers_cons_of_ne hax,
              peers_cons_of_eq hay]
          · rw [peers_cons_of_ne hay, hpeers]
            exact peers_cons_congr x (peers_cons_of_ne hay ys).symm
      next hle =>
        have hyx : (cmp y x).isLE := by
          cases hcmp : cmp y x with
          | gt => exact (hle hcmp).elim
          | lt | eq => rfl
        refine ⟨x :: y :: ys, rfl, .refl _, List.pairwise_cons.mpr ⟨?_, hdone⟩, fun _ => rfl⟩
        intro z hz
        rcases List.mem_cons.mp hz with rfl | hmem
        · exact hyx
        · exact Std.TransCmp.isLE_trans (hy z hmem) hyx

theorem insertAll_answering (rest : List α) {done : List α} (hdone : Descending cmp done) :
    ∃ out, insertAll (answering cmp : StatefulComparison Unit α ε) done rest = pure out ∧
      out.Perm (done.reverse ++ rest) ∧ Ascending cmp out ∧
      ∀ a, peers cmp a out = peers cmp a (done.reverse ++ rest) := by
  induction rest generalizing done with
  | nil =>
      rw [List.append_nil]
      exact ⟨done.reverse, rfl, .refl _, List.pairwise_reverse.mpr hdone, fun a => rfl⟩
  | cons x rest ih =>
      obtain ⟨moved, hmoved, hperm, hdescending, hpeers⟩ := insertBack_answering ε x hdone
      obtain ⟨out, hout, hpermOut, hascending, hrest⟩ := ih hdescending
      have happend : (x :: done).reverse ++ rest = done.reverse ++ x :: rest := by simp
      refine ⟨out, by rw [insertAll, hmoved, pure_bind, hout], ?_, hascending, fun a => ?_⟩
      · rw [← happend]
        have hreverse : moved.reverse.Perm (x :: done).reverse :=
          (moved.reverse_perm.trans hperm).trans (x :: done).reverse_perm.symm
        exact hpermOut.trans (hreverse.append_right rest)
      · rw [← happend, hrest, peers_append, peers_append, peers_reverse, peers_reverse, hpeers]

/-- Inserting all elements sorts them. -/
theorem insertAll_isStableSort (cmp : α → α → Ordering) [Std.TransCmp cmp] (items : List α) :
    ∃ out, insertAll (answering cmp : StatefulComparison Unit α ε) [] items = pure out ∧
      IsStableSort cmp items out := by
  have hnil : Descending cmp [] := .nil
  obtain ⟨out, hout, hperm, hascending, hpeers⟩ := insertAll_answering ε items hnil
  exact ⟨out, hout, hperm, hascending, hpeers⟩

/-! ## Merging -/

/-- The merge of two ascending runs is ascending, and equal elements of the first run precede those
of the second. -/
theorem merge_answering {left right : List α} (hleft : Ascending cmp left)
    (hright : Ascending cmp right) :
    ∃ out, merge (answering cmp : StatefulComparison Unit α ε) left right = pure out ∧
      out.Perm (left ++ right) ∧ Ascending cmp out ∧
      ∀ a, peers cmp a out = peers cmp a left ++ peers cmp a right := by
  induction left generalizing right with
  | nil => exact ⟨right, merge_nil_left _ right, .refl _, hright, fun _ => rfl⟩
  | cons x left ih =>
      obtain ⟨hx, hleft'⟩ := List.pairwise_cons.mp hleft
      induction right with
      | nil => exact ⟨x :: left, merge_nil_right _ _, by simp, hleft, fun a => by simp⟩
      | cons y right ihr =>
          obtain ⟨hy, hright'⟩ := List.pairwise_cons.mp hright
          rw [merge_cons_cons, answering_apply, pure_bind]
          split
          next hyx =>
            have hyleft : ∀ z ∈ x :: left, cmp y z = .lt := by
              intro z hz
              rcases List.mem_cons.mp hz with rfl | hmem
              · exact hyx
              · exact Std.TransCmp.lt_of_lt_of_isLE hyx (hx z hmem)
            obtain ⟨out, hout, hperm, hascending, hpeers⟩ := ihr hright'
            refine ⟨y :: out, by rw [hout, map_pure], (hperm.cons y).trans List.perm_middle.symm,
              List.pairwise_cons.mpr ⟨?_, hascending⟩, ?_⟩
            · intro z hz
              rcases List.mem_append.mp (hperm.mem_iff.mp hz) with hmem | hmem
              · simp [hyleft z hmem]
              · exact hy z hmem
            -- What equals the second head is not in the first run.
            · intro a
              by_cases hay : cmp a y = .eq
              · rw [peers_cons_of_eq hay, hpeers, peers_eq_nil hay hyleft, peers_cons_of_eq hay]
                rfl
              · rw [peers_cons_of_ne hay, hpeers, peers_cons_of_ne hay]
          next hge =>
            have hxy : (cmp x y).isLE := by
              rw [@Std.OrientedCmp.eq_swap α cmp _ x y]
              cases hcmp : cmp y x with
              | lt => exact (hge hcmp).elim
              | eq | gt => rfl
            obtain ⟨out, hout, hperm, hascending, hpeers⟩ := ih hleft' hright
            refine ⟨x :: out, by rw [hout, map_pure], hperm.cons x,
              List.pairwise_cons.mpr ⟨?_, hascending⟩, ?_⟩
            · intro z hz
              rcases List.mem_append.mp (hperm.mem_iff.mp hz) with hmem | hmem
              · exact hx z hmem
              · rcases List.mem_cons.mp hmem with rfl | hmem'
                · exact hxy
                · exact Std.TransCmp.isLE_trans hxy (hy z hmem')
            · intro a
              rw [← peers_append, List.cons_append]
              refine peers_cons_congr x ?_
              rw [hpeers, peers_append]

/-- The merge sort of a list gives a stable sort of it. -/
theorem mergeSort_isStableSort (cmp : α → α → Ordering) [Std.TransCmp cmp] (run : List α) :
    ∃ out, mergeSort (answering cmp : StatefulComparison Unit α ε) run = pure out ∧
      IsStableSort cmp run out := by
  induction run using mergeSort_induction with
  | short run hshort =>
      obtain ⟨out, hout, hstable⟩ := insertAll_isStableSort ε cmp run
      exact ⟨out, by rw [mergeSort_short _ hshort, hout], hstable⟩
  | long run hlong ihleft ihright =>
      obtain ⟨left, hleft, hstableLeft⟩ := ihleft
      obtain ⟨right, hright, hstableRight⟩ := ihright
      obtain ⟨out, hout, hperm, hascending, hpeers⟩ :=
        merge_answering ε hstableLeft.ascending hstableRight.ascending
      have hparts := hperm.trans (hstableLeft.perm.append hstableRight.perm)
      rw [List.take_append_drop] at hparts
      refine ⟨out, ?_, hparts, hascending, fun a => ?_⟩
      · rw [mergeSort_long _ hlong, hleft, hright, pure_bind, pure_bind, hout]
      · rw [hpeers, hstableLeft.peers_eq, hstableRight.peers_eq, ← peers_append,
          List.take_append_drop]

/-! ## The sorts agree -/

variable {ε} in
/-- Sorting images of items is sorting the items, if the comparison of the images does not fail and
compares as the items do. -/
theorem stableSort_map {β : Type} {compare : Comparison β ε} (cmp : α → α → Ordering)
    [Std.TransCmp cmp] (f : α → β) {items : List α}
    (h : ∀ a ∈ items, ∀ b ∈ items, compare (f a) (f b) = .ok (cmp a b)) :
    ∃ out, stableSort compare (items.map f) = .ok (out.map f) ∧ IsStableSort cmp items out := by
  obtain ⟨out, hout, hstable⟩ := mergeSort_isStableSort ε cmp items
  refine ⟨out, stableSort_eq ?_, hstable⟩
  have hanswers : ∀ a ∈ items, ∀ b ∈ items,
      stateless compare (f a) (f b) = (answering cmp a b : EStateM ε Unit Ordering) := by
    intro a ha b hb
    rw [stateless, h a ha b hb]
    rfl
  rw [mergeSort_map hanswers, hout, map_pure]

/-- For a total preorder, a list of any length has exactly one stable sort, and all the sorts give
it: the stable sort and insertion sort, by a comparison that cannot fail or by one that does not. -/
theorem existsUnique_isStableSort (cmp : α → α → Ordering) [Std.TransCmp cmp] (items : List α) :
    ∃ out, (∀ other, IsStableSort cmp items other ↔ other = out) ∧
      stableSortBy cmp items = out ∧
      stableSortOutcome (infallible cmp : Comparison α ε) items = ⟨out, none⟩ ∧
      insertionSortBy cmp items = out ∧
      insertionSort (infallible cmp : Comparison α ε) items = ⟨out, none⟩ := by
  obtain ⟨out, hout, hstable⟩ := insertAll_isStableSort ε cmp items
  have hinsertion (δ : Type) :
      insertionSort (infallible cmp : Comparison α δ) items = ⟨out, none⟩ := by
    obtain ⟨other, hother, hstable'⟩ := insertAll_isStableSort δ cmp items
    rw [insertionSort_eq hother, hstable.unique hstable']
  have hmerge (δ : Type) :
      mergeSort (answering cmp : StatefulComparison Unit α δ) items = pure out := by
    obtain ⟨other, hother, hstable'⟩ := mergeSort_isStableSort δ cmp items
    rw [hother, hstable.unique hstable']
  refine ⟨out, fun other => ⟨hstable.unique, fun h => h ▸ hstable⟩, ?_, ?_, ?_, hinsertion ε⟩
  · rw [stableSortBy, stableSort_eq (hmerge Empty)]
  · exact stableSortOutcome_eq (hmerge ε)
  · rw [insertionSortBy, hinsertion Empty]

/-- Eighteen pairs by their first components, one run more than insertion sort takes. -/
theorem existsUnique_isStableSort_pairs :
    Std.TransCmp (compareOn (Prod.fst : Nat × Nat → Nat)) ∧
      stableSortBy (compareOn Prod.fst)
          [(2, 0), (1, 1), (0, 2), (2, 3), (1, 4), (0, 5), (2, 6), (1, 7), (0, 8), (2, 9), (1, 10),
            (0, 11), (2, 12), (1, 13), (0, 14), (2, 15), (1, 16), (0, 17)] =
        [(0, 2), (0, 5), (0, 8), (0, 11), (0, 14), (0, 17), (1, 1), (1, 4), (1, 7), (1, 10),
          (1, 13), (1, 16), (2, 0), (2, 3), (2, 6), (2, 9), (2, 12), (2, 15)] := by
  refine ⟨inferInstance, ?_⟩
  obtain ⟨out, -, hstable, -, hinsertion, -⟩ :=
    existsUnique_isStableSort Empty (compareOn (Prod.fst : Nat × Nat → Nat))
      [(2, 0), (1, 1), (0, 2), (2, 3), (1, 4), (0, 5), (2, 6), (1, 7), (0, 8), (2, 9), (1, 10),
        (0, 11), (2, 12), (1, 13), (0, 14), (2, 15), (1, 16), (0, 17)]
  rw [hstable, ← hinsertion]
  decide +kernel

end RecordQuery.Sorting
