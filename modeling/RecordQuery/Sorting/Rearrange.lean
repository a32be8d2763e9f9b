/-! # Rearranging a list

A list is rearranged in place along the cycles of an order, where `order[i]` is the position of the
element that belongs at `i`. Each step exchanges two elements and settles one position, so the
number of positions that are not settled bounds the walk.
-/

namespace RecordQuery.Sorting

/-- How many entries of an order, counted from `offset`, name another position than their own. -/
def unsettledFrom (offset : Nat) : List Nat → Nat
  | [] => 0
  | next :: rest => (if next = offset then 0 else 1) + unsettledFrom (offset + 1) rest

/-- Settling a position that was not settled leaves fewer of them. -/
theorem unsettledFrom_set {order : List Nat} (offset : Nat) {i next : Nat}
    (h : order[i]? = some next) (hnext : next ≠ offset + i) :
    unsettledFrom offset (order.set i (offset + i)) < unsettledFrom offset order := by
  induction order generalizing offset i with
  | nil => simp at h
  | cons first rest ih =>
      cases i with
      | zero =>
          obtain rfl : first = next := by simpa using h
          have hne : ¬ first = offset := by simpa using hnext
          simp [unsettledFrom, hne]
      | succ i =>
          have hrest := ih (offset + 1) (i := i) (by simpa using h) (by omega)
          have hsum : offset + 1 + i = offset + (i + 1) := by omega
          rw [hsum] at hrest
          simp only [List.set_cons_succ, unsettledFrom]
          omega

/-- The list with the elements at two positions exchanged. -/
def exchange {α : Type} (items : List α) (i j : Nat) : List α :=
  match items[i]?, items[j]? with
  | some x, some y => (items.set i y).set j x
  | _, _ => items

/-- Walks along a cycle from `current` until it comes back to `start`, and settles the positions on
the way. -/
def followCycle {α : Type} (start current : Nat) (items : List α) (order : List Nat) :
    List α × List Nat :=
  match horder : order[current]? with
  | none => (items, order)
  | some next =>
      if hnext : next = start ∨ next = current then (items, order.set current current)
      else
        have := unsettledFrom_set 0 horder (by omega)
        followCycle start next (exchange items current next) (order.set current current)
termination_by unsettledFrom 0 order
decreasing_by simpa using this

/-- The list whose element at each position is the one that stood at the position which the order
names. -/
def rearrange {α : Type} (items : List α) (order : List Nat) : List α :=
  ((List.range items.length).foldl (fun s start => followCycle start start s.1 s.2)
    (items, order)).1

end RecordQuery.Sorting
