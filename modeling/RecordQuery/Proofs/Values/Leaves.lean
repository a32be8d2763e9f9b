import Mathlib
import RecordQuery.Proofs.Builtins.Searching
import RecordQuery.Query.Combine

/-! # Leaves

The leaves of a list are the values that paths through its arrays lead to and that are no arrays.
Flattening gives them in the order of their paths, and membership in a list is membership among
them.
-/

namespace RecordQuery

namespace Json

variable {j leaf : Json} {items leaves : List Json} {path : List Nat} {paths : List (List Nat)}

def isArray : Json → Bool
  | array _ => true
  | _ => false

/-- Induction over a value through its arrays. -/
@[elab_as_elim]
theorem arrayInduct {motive : Json → Prop} (leaf : ∀ j, j.isArray = false → motive j)
    (array : ∀ items, (∀ item ∈ items, motive item) → motive (array items)) (j : Json) :
    motive j :=
  @Json.rec motive (fun items => ∀ item ∈ items, motive item) (fun _ => True) (fun _ => True)
    (leaf null rfl) (fun b => leaf (bool b) rfl) (fun n => leaf (number n) rfl)
    (fun s => leaf (string s) rfl) array (fun fields _ => leaf (object fields) rfl) (by simp)
    (fun _ _ hitem hrest => List.forall_mem_cons.mpr ⟨hitem, hrest⟩) trivial
    (fun _ _ _ _ => trivial) (fun _ _ _ => trivial) j

/-! ## Pushing and concatenating -/

theorem pushLeaves_leaf (hj : j.isArray = false) (out : Array Json) :
    pushLeaves out j = out.push j := by
  cases j with
  | array items => cases hj
  | _ => rfl

theorem pushLeavesOf_eq_append
    (hitems : ∀ item ∈ items, ∀ out, pushLeaves out item = out ++ pushLeaves #[] item)
    (out : Array Json) : pushLeavesOf out items = out ++ pushLeavesOf #[] items := by
  induction items generalizing out with
  | nil => exact (Array.append_empty).symm
  | cons item rest ih =>
      obtain ⟨hitem, hrest⟩ := List.forall_mem_cons.mp hitems
      change pushLeavesOf (pushLeaves out item) rest =
        out ++ pushLeavesOf (pushLeaves #[] item) rest
      rw [ih hrest, ih hrest (pushLeaves #[] item), hitem, Array.append_assoc]

/-- What is pushed does not depend on what was pushed before. -/
theorem pushLeaves_eq_append (j : Json) (out : Array Json) :
    pushLeaves out j = out ++ pushLeaves #[] j := by
  induction j using arrayInduct generalizing out with
  | leaf j hj =>
      rw [pushLeaves_leaf hj, pushLeaves_leaf hj]
      rfl
  | array items ih => exact pushLeavesOf_eq_append ih out

theorem leaves_leaf (hj : j.isArray = false) : j.leaves = [j] := by
  rw [Json.leaves, pushLeaves_leaf hj]
  rfl

theorem leaves_array (items : List Json) : (array items).leaves = flatten items := rfl

theorem flatten_cons (item : Json) (rest : List Json) :
    flatten (item :: rest) = item.leaves ++ flatten rest := by
  have hpush : pushLeavesOf (pushLeaves #[] item) rest =
      pushLeaves #[] item ++ pushLeavesOf #[] rest :=
    pushLeavesOf_eq_append (fun j _ => pushLeaves_eq_append j) _
  exact (congrArg Array.toList hpush).trans Array.toList_append

theorem flatten_eq_flatMap (items : List Json) : flatten items = items.flatMap Json.leaves := by
  induction items with
  | nil => rfl
  | cons item rest ih => rw [flatten_cons, ih, List.flatMap_cons]

theorem flatten_append (xs ys : List Json) : flatten (xs ++ ys) = flatten xs ++ flatten ys := by
  simp only [flatten_eq_flatMap, List.flatMap_append]

theorem isArray_of_mem_leaves (h : leaf ∈ j.leaves) : leaf.isArray = false := by
  induction j using arrayInduct with
  | leaf j hj =>
      rw [leaves_leaf hj, List.mem_singleton] at h
      rw [h, hj]
  | array items ih =>
      rw [leaves_array, flatten_eq_flatMap, List.mem_flatMap] at h
      obtain ⟨item, hitem, hleaf⟩ := h
      exact ih item hitem hleaf

theorem isArray_of_mem_flatten (h : leaf ∈ flatten items) : leaf.isArray = false :=
  isArray_of_mem_leaves (j := array items) h

/-- A list without arrays is its own leaves. -/
theorem flatten_eq_self (h : ∀ item ∈ items, item.isArray = false) : flatten items = items := by
  induction items with
  | nil => rfl
  | cons item rest ih =>
      obtain ⟨hitem, hrest⟩ := List.forall_mem_cons.mp h
      rw [flatten_cons, leaves_leaf hitem, ih hrest, List.singleton_append]

/-! ## Paths -/

/-- What a path of positions leads to, through arrays only. -/
def itemAt? : Json → List Nat → Option Json
  | j, [] => some j
  | array items, k :: path => items[k]?.bind fun item => item.itemAt? path
  | _, _ :: _ => none

/-- A path leads to a value that is no array. -/
def IsLeafPath (j : Json) (path : List Nat) : Prop :=
  ∃ leaf, j.itemAt? path = some leaf ∧ leaf.isArray = false

theorem IsLeafPath.ne_nil (h : (array items).IsLeafPath path) : path ≠ [] := by
  rintro rfl
  obtain ⟨leaf, hfound, hleaf⟩ := h
  cases hfound
  cases hleaf

/-- A leaf of an array is in the first item, or in those behind it, one position further. -/
theorem isLeafPath_array_cons {item : Json} {rest : List Json} :
    (array (item :: rest)).IsLeafPath path ↔
      (∃ p, item.IsLeafPath p ∧ 0 :: p = path) ∨
        ∃ p, (array rest).IsLeafPath p ∧ p.modifyHead (· + 1) = path := by
  constructor
  · intro h
    match path with
    | [] => exact absurd rfl h.ne_nil
    | 0 :: p => exact .inl ⟨p, h, rfl⟩
    | (k + 1) :: p => exact .inr ⟨k :: p, h, rfl⟩
  · rintro (⟨p, h, rfl⟩ | ⟨p, h, rfl⟩)
    · exact h
    · cases p with
      | nil => exact absurd rfl h.ne_nil
      | cons k p => exact h

theorem modifyHead_succ_lt {p q : List Nat} (h : p < q) :
    p.modifyHead (· + 1) < q.modifyHead (· + 1) := by
  cases h with
  | nil => exact .nil
  | cons h => exact .cons h
  | rel h => exact .rel (Nat.succ_lt_succ h)

/-- All leaves of a value in the order of their paths. -/
structure LeafSequence (j : Json) (paths : List (List Nat)) (leaves : List Json) : Prop where
  ordered : paths.Pairwise (· < ·)
  mem_iff : ∀ path, path ∈ paths ↔ j.IsLeafPath path
  found : paths.map j.itemAt? = leaves.map some

namespace LeafSequence

theorem of_leaf (hj : j.isArray = false) : LeafSequence j [[]] [j] where
  ordered := List.pairwise_singleton _ _
  mem_iff path := by
    rw [List.mem_singleton]
    constructor
    · rintro rfl
      exact ⟨j, rfl, hj⟩
    · rintro ⟨leaf, hfound, -⟩
      cases path with
      | nil => rfl
      | cons k path =>
          cases j with
          | array items => cases hj
          | _ => cases hfound
  found := rfl

theorem nil : LeafSequence (array []) [] [] where
  ordered := .nil
  mem_iff path := by
    refine iff_of_false List.not_mem_nil fun h => ?_
    cases path with
    | nil => exact h.ne_nil rfl
    | cons k path =>
        obtain ⟨leaf, hfound, -⟩ := h
        cases hfound
  found := rfl

/-- The leaves of the first item stand before those of the items behind it. -/
theorem cons {item : Json} {rest itemLeaves restLeaves : List Json}
    {itemPaths restPaths : List (List Nat)} (hitem : LeafSequence item itemPaths itemLeaves)
    (hrest : LeafSequence (array rest) restPaths restLeaves) :
    LeafSequence (array (item :: rest))
      (itemPaths.map (0 :: ·) ++ restPaths.map (List.modifyHead (· + 1)))
      (itemLeaves ++ restLeaves) where
  ordered := by
    rw [List.pairwise_append, List.pairwise_map, List.pairwise_map]
    refine ⟨hitem.ordered.imp List.Lex.cons, hrest.ordered.imp modifyHead_succ_lt, ?_⟩
    intro first hfirst second hsecond
    obtain ⟨p, -, rfl⟩ := List.mem_map.mp hfirst
    obtain ⟨q, hq, rfl⟩ := List.mem_map.mp hsecond
    cases q with
    | nil => exact absurd rfl ((hrest.mem_iff []).mp hq).ne_nil
    | cons k q => exact .rel k.succ_pos
  mem_iff path := by
    simp only [List.mem_append, List.mem_map, hitem.mem_iff, hrest.mem_iff, isLeafPath_array_cons]
  found := by
    rw [List.map_append, List.map_append, List.map_map, List.map_map, ← hitem.found, ← hrest.found]
    congr 1
    apply List.map_congr_left
    intro p hp
    cases p with
    | nil => exact absurd rfl ((hrest.mem_iff []).mp hp).ne_nil
    | cons k p => rfl

/-- Flattening gives the leaves in the order of their paths. -/
theorem exists_leaves (j : Json) : ∃ paths, LeafSequence j paths j.leaves := by
  induction j using arrayInduct with
  | leaf j hj =>
      rw [leaves_leaf hj]
      exact ⟨_, of_leaf hj⟩
  | array items ih =>
      rw [leaves_array]
      induction items with
      | nil => exact ⟨_, nil⟩
      | cons item rest ihrest =>
          obtain ⟨⟨itemPaths, hitem⟩, hrest⟩ := List.forall_mem_cons.mp ih
          obtain ⟨restPaths, hrest⟩ := ihrest hrest
          rw [flatten_cons]
          exact ⟨_, cons hitem hrest⟩

/-- A value has one sequence of leaves. -/
theorem unique {paths' : List (List Nat)} {leaves' : List Json} (h : LeafSequence j paths leaves)
    (h' : LeafSequence j paths' leaves') : leaves = leaves' := by
  have hpaths : paths = paths' :=
    List.Subset.antisymm_of_pairwise h.ordered h'.ordered
      (fun path hpath => (h'.mem_iff path).mpr ((h.mem_iff path).mp hpath))
      (fun path hpath => (h.mem_iff path).mpr ((h'.mem_iff path).mp hpath))
  apply List.map_injective_iff.mpr (Option.some_injective Json)
  rw [← h.found, ← h'.found, hpaths]

end LeafSequence

/-- The flat list is the sequence of the leaves, and has no arrays. Flattening goes with
concatenation, does not see brackets around the whole list, and changes nothing the second time. -/
structure Flattens (xs ys : List Json) : Prop where
  noArray : ∀ j ∈ flatten xs, j.isArray = false
  leaves_iff : ∀ leaves, (∃ paths, LeafSequence (array xs) paths leaves) ↔ leaves = flatten xs
  append : flatten (xs ++ ys) = flatten xs ++ flatten ys
  bracketed : flatten [array xs] = flatten xs
  again : flatten (flatten xs) = flatten xs

theorem flattens (xs ys : List Json) : Flattens xs ys where
  noArray _ := isArray_of_mem_flatten
  leaves_iff leaves := by
    obtain ⟨paths, hleaves⟩ := LeafSequence.exists_leaves (array xs)
    constructor
    · rintro ⟨paths', hleaves'⟩
      exact hleaves'.unique hleaves
    · rintro rfl
      exact ⟨paths, hleaves⟩
  append := flatten_append xs ys
  bracketed := by
    rw [flatten_cons, leaves_array]
    exact List.append_nil _
  again := flatten_eq_self fun _ => isArray_of_mem_flatten

end Json

namespace Accessor

open Json Text

variable {items : List Json} {d : Value}

/-- The least position in a list of a value strictly equal to the given one, -1 if there is none. -/
inductive FirstEqual (items : List Json) (d : Value) : Int → Prop where
  | first {k : Nat}
      (h : IsLeast {k | ∃ item, items[k]? = some item ∧ (Value.json item).strictEq d} k) :
      FirstEqual items d k
  | nowhere (h : ∀ item ∈ items, ¬ (Value.json item).strictEq d) : FirstEqual items d (-1)

theorem firstEqual_positionIn? : FirstEqual items d (positionOf (positionIn? items d)) := by
  cases h : positionIn? items d with
  | none =>
      refine .nowhere fun item hitem => ?_
      rw [List.findIdx?_eq_none_iff.mp h item hitem]
      exact Bool.false_ne_true
  | some k =>
      obtain ⟨hk, hequal, hbefore⟩ := List.findIdx?_eq_some_iff_getElem.mp h
      refine .first ⟨⟨items[k], List.getElem?_eq_getElem hk, hequal⟩, ?_⟩
      rintro i ⟨item, hitem, hequal⟩
      obtain ⟨hi, rfl⟩ := List.getElem?_eq_some_iff.mp hitem
      exact not_lt.mp fun hlt => hbefore i hlt hequal

theorem call_indexIn (items : List Json) (d : Value) :
    (indexIn items).call d = .ok (.ofInt (positionOf (positionIn? (flatten items) d))) :=
  congrArg Except.ok (Builtin.positionValue_eq _)

theorem call_isIn (items : List Json) (d : Value) : (isIn items).call d =
    .ok (.ofBool (decide (positionOf (positionIn? (flatten items) d) ≠ -1))) := by
  rw [← isSome_eq, positionIn?, List.findIdx?_isSome]
  rfl

/-- Lists are flattened into their leaves, and the position of a value and its membership are those
among the leaves. -/
theorem exists_firstEqual_flatten (xs ys : List Json) (d : Value) :
    Flattens xs ys ∧ ∃ i, FirstEqual (flatten xs) d i ∧
      (indexIn xs).call d = .ok (.ofInt i) ∧
      (isIn xs).call d = .ok (.ofBool (decide (i ≠ -1))) :=
  ⟨flattens xs ys, _, firstEqual_positionIn?, call_indexIn xs d, call_isIn xs d⟩

end Accessor

end RecordQuery
