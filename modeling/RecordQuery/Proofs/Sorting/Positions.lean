import Mathlib
import RecordQuery.Proofs.Sorting.InPlace
import RecordQuery.Proofs.Sorting.Rearrangement

/-! # Sorting positions instead of elements

The sorts look at elements only through the comparison, so sorting images is sorting what they are
images of. The positions of a list are sorted as its elements are, and rearranging the list along
their order at the end gives what sorting the list itself gives.
-/

namespace RecordQuery.Sorting

variable {σ α β γ ε : Type}

/-! ## Sorting images -/

section Images

variable (compare : StatefulComparison σ β ε) (f : α → β)

theorem map_insertBack (x : α) (done : List α) :
    List.map f <$> insertBack (Function.onFun compare f) x done =
      insertBack compare (f x) (done.map f) := by
  induction done with
  | nil => rfl
  | cons y ys ih =>
      rw [List.map_cons, insertBack_cons, insertBack_cons, map_bind, ← ih]
      refine bind_congr fun o => ?_
      split
      · simp only [Functor.map_map, List.map_cons]
      · rw [map_pure, List.map_cons, List.map_cons]

theorem map_insertAll (done rest : List α) :
    List.map f <$> insertAll (Function.onFun compare f) done rest =
      insertAll compare (done.map f) (rest.map f) := by
  induction rest generalizing done with
  | nil => rw [List.map_nil, insertAll, insertAll, map_pure, List.map_reverse]
  | cons x rest ih =>
      rw [List.map_cons, insertAll, insertAll, map_bind, ← map_insertBack, bind_map_left]
      exact bind_congr ih

theorem map_merge (left right : List α) :
    List.map f <$> merge (Function.onFun compare f) left right =
      merge compare (left.map f) (right.map f) := by
  induction left generalizing right with
  | nil => rw [List.map_nil, merge_nil_left, merge_nil_left, map_pure]
  | cons x left ih =>
      induction right with
      | nil => rw [List.map_nil, merge_nil_right, merge_nil_right, map_pure]
      | cons y right ihr =>
          rw [List.map_cons, List.map_cons, merge_cons_cons, merge_cons_cons, map_bind,
            ← List.map_cons, ← ihr, ← List.map_cons, ← ih]
          refine bind_congr fun o => ?_
          split <;> simp only [Functor.map_map, List.map_cons]

theorem map_mergeSort (run : List α) :
    List.map f <$> mergeSort (Function.onFun compare f) run = mergeSort compare (run.map f) := by
  induction run using mergeSort_induction with
  | short run hshort =>
      rw [mergeSort_short _ hshort, mergeSort_short _ (by rwa [List.length_map]), map_insertAll,
        List.map_nil]
  | long run hlong ihleft ihright =>
      have himages : insertionThreshold < (run.map f).length := by rwa [List.length_map]
      rw [mergeSort_long _ hlong, mergeSort_long compare himages, List.length_map,
        ← List.map_take, ← List.map_drop, ← ihleft, ← ihright, map_bind, bind_map_left]
      refine bind_congr fun left => ?_
      rw [map_bind, bind_map_left]
      exact bind_congr fun right => map_merge compare f left right

/-- Sorting images of items is sorting the items, if their images compare as they do. -/
theorem mergeSort_map {compare : StatefulComparison σ α ε} {compare' : StatefulComparison σ β ε}
    {f : α → β} {items : List α}
    (h : ∀ a ∈ items, ∀ b ∈ items, compare' (f a) (f b) = compare a b) :
    mergeSort compare' (items.map f) = List.map f <$> mergeSort compare items := by
  let val : {a // a ∈ items} → α := Subtype.val
  have hcompare : Function.onFun compare' (f ∘ val) = Function.onFun compare val := by
    funext a b
    exact h a a.2 b b.2
  calc
    mergeSort compare' (items.map f) = mergeSort compare' (items.attach.map (f ∘ val)) := by
      rw [← List.map_map, List.attach_map_subtype_val]
    _ = List.map (f ∘ val) <$> mergeSort (Function.onFun compare val) items.attach := by
      rw [← map_mergeSort, hcompare]
    _ = List.map f <$> List.map val <$> mergeSort (Function.onFun compare val) items.attach := by
      simp only [Functor.map_map, List.map_map]
    _ = List.map f <$> mergeSort compare items := by
      rw [map_mergeSort, List.attach_map_subtype_val]

end Images

/-! ## The sort by positions -/

variable (compare : StatefulComparison σ α ε)

theorem run_sortPositions {n : Nat} (items : Vector α n) (s : σ) :
    (sortPositions compare items).run s =
      seen Buffers.run ((sortRun (compareAt compare items) n).run
        (⟨Vector.ofFn fun i => i, Vector.ofFn fun i => i⟩, s)) := rfl

/-- Sorting the positions in place is sorting them as a list. -/
theorem toList_sortPositions {n : Nat} (items : Vector α n) :
    Vector.toList <$> sortPositions compare items =
      mergeSort (compareAt compare items) (List.finRange n) := by
  funext s
  change (Vector.toList <$> sortPositions compare items).run s = EStateM.run _ s
  have hsort := leaves_sortRun (compareAt compare items)
    ⟨Vector.ofFn fun i => i, Vector.ofFn fun i => i⟩
  rw [Vector.toList_ofFn, ← List.finRange] at hsort
  rw [EStateM.run_map, run_sortPositions]
  cases hrun : (mergeSort (compareAt compare items) (List.finRange n)).run s with
  | ok out t =>
      obtain ⟨_, b, hb, rfl⟩ := hsort.ok hrun
      rw [hb]
      rfl
  | error e t =>
      obtain ⟨b, hb⟩ := hsort.error hrun
      rw [hb]
      rfl

/-- The sorted positions name the sorted elements. -/
theorem map_sortPositions (items : List α) :
    (fun order => order.toList.map items.get) <$> sortPositions compare (slice items) =
      mergeSort compare items := by
  calc
    _ = List.map items.get <$> Vector.toList <$> sortPositions compare (slice items) := by
      rw [Functor.map_map]
    _ = List.map items.get <$>
          mergeSort (Function.onFun compare items.get) (List.finRange items.length) := by
      rw [toList_sortPositions]
      rfl
    _ = mergeSort compare items := by rw [map_mergeSort, List.map_get_finRange]

theorem perm_of_sortPositions {n : Nat} {items : Vector α n} {order : Vector (Fin n) n} {s t : σ}
    (h : (sortPositions compare items).run s = .ok order t) :
    order.toList.Perm (List.finRange n) := by
  have hsorted : (Vector.toList <$> sortPositions compare items).run s = .ok order.toList t :=
    run_map_eq_ok_iff.mpr ⟨order, h, rfl⟩
  rw [toList_sortPositions] at hsorted
  exact (consults_mergeSort _).value hsorted

/-- Rearranging along an order of all positions gives the elements that the order names. -/
theorem rearrange_eq {items : List α} {order : List (Fin items.length)}
    (hperm : order.Perm (List.finRange items.length)) :
    rearrange items (order.map Fin.val) = order.map items.get := by
  have hrange : (order.map Fin.val).Perm (List.range items.length) := by
    simpa using hperm.map Fin.val
  have hsome : (rearrange items (order.map Fin.val)).map some = (order.map items.get).map some := by
    rw [map_some_rearrange hrange, pick, List.map_map, List.map_map]
    exact List.map_congr_left fun i _ => List.getElem?_eq_getElem i.isLt
  exact List.map_injective_iff.mpr (Option.some_injective α) hsome

theorem mergeSort_few {items : List α} (hfew : items.length < 2) :
    mergeSort compare items = pure items := by
  rw [mergeSort_short _ (Nat.le_trans (Nat.le_of_lt hfew) (by decide))]
  match items, hfew with
  | [], _ => rfl
  | [x], _ => rfl

/-- Where the merge sort of a list succeeds, the stable sort leaves what it gives. -/
theorem run_stableSortInPlace_ok {items out : List α} {s t : σ}
    (h : (mergeSort compare items).run s = .ok out t) :
    (stableSortInPlace compare).run (items, s) = .ok () (out, t) := by
  rw [stableSortInPlace, EStateM.run_bind, EStateM.run_get]
  dsimp only
  split
  next hfew =>
    rw [mergeSort_few compare hfew] at h
    cases h
    rfl
  next =>
    rw [← map_sortPositions] at h
    obtain ⟨order, horder, rfl⟩ := run_map_eq_ok_iff.mp h
    rw [EStateM.run_bind, run_ask, horder, ← rearrange_eq (perm_of_sortPositions compare horder)]
    rfl

/-- Where it fails, the stable sort leaves the list as it was. -/
theorem run_stableSortInPlace_error {items : List α} {s t : σ} {e : ε}
    (h : (mergeSort compare items).run s = .error e t) :
    (stableSortInPlace compare).run (items, s) = .error e (items, t) := by
  rw [stableSortInPlace, EStateM.run_bind, EStateM.run_get]
  dsimp only
  split
  next hfew =>
    rw [mergeSort_few compare hfew] at h
    cases h
  next =>
    rw [← map_sortPositions] at h
    rw [EStateM.run_bind, run_ask, run_map_eq_error_iff.mp h]
    rfl

/-! ## Sorts without a state -/

section Stateless

variable {compare : Comparison α ε} {items out : List α}

theorem stableSortOutcome_eq
    (h : mergeSort (stateless compare : StatefulComparison Unit α ε) items = pure out) :
    stableSortOutcome compare items = ⟨out, none⟩ := by
  have hrun : (mergeSort (stateless compare) items).run () = .ok out () := by
    rw [h]
    rfl
  have hsort := run_stableSortInPlace_ok (stateless compare) hrun
  rw [stableSortOutcome, outcome, hsort]

theorem stableSort_eq
    (h : mergeSort (stateless compare : StatefulComparison Unit α ε) items = pure out) :
    stableSort compare items = .ok out := by
  rw [stableSort, stableSortOutcome_eq h]
  rfl

theorem insertionSort_eq
    (h : insertAll (stateless compare : StatefulComparison Unit α ε) [] items = pure out) :
    insertionSort compare items = ⟨out, none⟩ := by
  have hrun : (insertAll (stateless compare) [] items).run () = .ok out () := by
    rw [h]
    rfl
  obtain ⟨_, _, hsort, rfl⟩ := (leaves_insertionSortInPlace (stateless compare) items).ok hrun
  rw [insertionSort, outcome, hsort]

end Stateless

end RecordQuery.Sorting
