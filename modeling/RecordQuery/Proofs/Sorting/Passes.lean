import Mathlib
import RecordQuery.Proofs.Sorting.Rearrangement

/-! # The passes of a rearrangement

A list is rearranged by one loop for each position, along the cycle on which it lies. Here the loops
run pass by pass, and a pass that would read or exchange outside the order or the elements has no
result. Along an order of all positions every pass has one, two passes for each element are enough,
and at the end each position has the element that stood where the order says.
-/

namespace RecordQuery.Sorting

variable {α : Type}

/-- Where the loops stand: the position at which the cycle began, the position that it has reached,
and the elements and their order as they are by then. -/
structure Loops (α : Type) where
  start : Nat
  current : Nat
  items : List α
  order : List Nat

namespace Loops

/-- At the beginning of the cycle of a position. -/
def enter (start : Nat) (s : List α × List Nat) : Loops α :=
  ⟨start, start, s.1, s.2⟩

/-- One pass settles the position reached. Then the cycle is closed and the next one entered, or two
elements are exchanged. -/
def pass (s : Loops α) : Option (Loops α) :=
  match s.order[s.current]? with
  | none => none
  | some next =>
      if next = s.start ∨ next = s.current then
        some (enter (s.start + 1) (s.items, s.order.set s.current s.current))
      else if s.current < s.items.length ∧ next < s.items.length then
        some ⟨s.start, next, exchange s.items s.current next, s.order.set s.current s.current⟩
      else none

/-- The loops end after a number of passes, all of which have a result, and leave a list. -/
inductive Ends : Loops α → Nat → List α → Prop
  | over {s : Loops α} (hover : s.items.length ≤ s.start) : Ends s 0 s.items
  | pass {s t : Loops α} {passes : Nat} {out : List α} (hstart : s.start < s.items.length)
      (hpass : s.pass = some t) (hends : Ends t passes out) : Ends s (passes + 1) out

variable {start current next : Nat} {items : List α} {order : List Nat}

theorem pass_close (hnext : order[current]? = some next) (hstop : next = start ∨ next = current) :
    pass ⟨start, current, items, order⟩ =
      some (enter (start + 1) (items, order.set current current)) := by
  simp only [pass, hnext, if_pos hstop]

theorem pass_exchange (hnext : order[current]? = some next)
    (hstop : ¬ (next = start ∨ next = current)) (hcurrent : current < items.length)
    (hbound : next < items.length) :
    pass ⟨start, current, items, order⟩ =
      some ⟨start, next, exchange items current next, order.set current current⟩ := by
  simp only [pass, hnext, if_neg hstop, hcurrent, hbound, and_self, if_true]

end Loops

/-! ## How many positions are not settled -/

theorem unsettledFrom_le_length (offset : Nat) (order : List Nat) :
    unsettledFrom offset order ≤ order.length := by
  induction order generalizing offset with
  | nil => exact Nat.le_refl 0
  | cons next rest ih =>
      have hrest := ih (offset + 1)
      rw [unsettledFrom, List.length_cons]
      split <;> omega

/-- Settling a position leaves no more of them, also if it was settled. -/
theorem unsettledFrom_set_le {order : List Nat} {i next : Nat} (h : order[i]? = some next) :
    unsettledFrom 0 (order.set i i) ≤ unsettledFrom 0 order := by
  by_cases hnext : next = i
  · rw [set_named (hnext ▸ h)]
  · have hless := unsettledFrom_set 0 h (by omega)
    rw [Nat.zero_add] at hless
    exact Nat.le_of_lt hless

/-! ## Passes along the cycles -/

/-- The loop along a cycle ends, with one pass for each position that it settles and at most one
more, and the other loops go on from where the walk along the cycle leaves them. -/
theorem followCycle_ends (start current : Nat) (items : List α) (order : List Nat)
    {whole : List Nat} {last rest : Nat} {out : List α} (h : Walk start current last order whole)
    (hperm : whole.Perm (List.range items.length)) (hstart : start < items.length)
    (hrest : (Loops.enter (start + 1) (followCycle start current items order)).Ends rest out) :
    ∃ passes, passes + unsettledFrom 0 (followCycle start current items order).2 ≤
        unsettledFrom 0 order + 1 ∧
      (Loops.mk start current items order).Ends (rest + passes) out := by
  fun_induction followCycle start current items order generalizing whole with
  | case1 current items order hnone =>
      exact absurd hnone (h.getElem?_ne_none hperm)
  | case2 current items order next horder hstop =>
      -- A start that was settled before still takes the one pass that finds it so.
      refine ⟨1, ?_, .pass hstart (Loops.pass_close horder hstop) hrest⟩
      have hle := unsettledFrom_set_le horder
      dsimp only
      omega
  | case3 current items order next horder hstop hless ih =>
      obtain ⟨hnot, hne⟩ := not_or.mp hstop
      obtain ⟨hwalk, hnext⟩ := h.step hperm horder hnot hne
      obtain ⟨hcurrent, hbound⟩ := lt_of_named hperm hnext
      have hadvances := advances_exchange hperm hnext hne
      obtain ⟨passes, hpasses, hends⟩ := ih hwalk (by rw [length_exchange]; exact hadvances.perm)
        (by rwa [length_exchange]) hrest
      refine ⟨passes + 1, ?_, .pass hstart (Loops.pass_exchange horder hstop hcurrent hbound) hends⟩
      -- The position that this pass settles pays for it.
      rw [Nat.zero_add] at hless
      omega

/-- The loops from one start on end, with one pass for each start and one for each position that is
not settled. -/
theorem foldl_followCycle_ends (count start : Nat) (s : List α × List Nat)
    (hlength : start + count = s.1.length) (hperm : s.2.Perm (List.range s.1.length)) :
    ∃ passes ≤ count + unsettledFrom 0 s.2, (Loops.enter start s).Ends passes
      ((List.range' start count).foldl (fun s start => followCycle start start s.1 s.2) s).1 := by
  induction count generalizing start s with
  | zero => exact ⟨0, Nat.zero_le _, .over (Nat.le_of_eq hlength.symm)⟩
  | succ count ih =>
      have hstart : start < s.1.length := by omega
      obtain ⟨last, hwalk⟩ := Walk.exists_begin hstart hperm
      obtain ⟨hfirst, -⟩ := followCycle_advances start start s.1 s.2 hwalk hperm
      have hkept : (followCycle start start s.1 s.2).1.length = s.1.length := hfirst.length_eq
      obtain ⟨rest, hrest, hends⟩ := ih (start + 1) (followCycle start start s.1 s.2)
        (by omega) (hkept ▸ hfirst.perm)
      obtain ⟨passes, hpasses, hall⟩ := followCycle_ends start start s.1 s.2 hwalk hperm hstart hends
      refine ⟨rest + passes, by omega, ?_⟩
      rwa [List.range'_succ, List.foldl_cons]

/-- Along an order of all positions the loops end, after at most twice as many passes as there are
elements. They leave as many elements, at each position the one that stood where the order says. -/
theorem rearrange_ends {items : List α} {order : List Nat}
    (hperm : order.Perm (List.range items.length)) :
    (∃ passes ≤ 2 * items.length,
      (Loops.enter 0 (items, order)).Ends passes (rearrange items order)) ∧
    (rearrange items order).length = items.length ∧
    ∀ i (hi : i < order.length), (rearrange items order)[i]? = items[order[i]]? := by
  obtain ⟨passes, hpasses, hends⟩ :=
    foldl_followCycle_ends items.length 0 (items, order) (Nat.zero_add _) hperm
  have hunsettled : unsettledFrom 0 order ≤ items.length := by
    simpa [hperm.length_eq] using unsettledFrom_le_length 0 order
  refine ⟨⟨passes, ?_, ?_⟩, length_rearrange hperm, fun i hi => ?_⟩
  · calc passes ≤ items.length + unsettledFrom 0 order := hpasses
      _ ≤ 2 * items.length := by omega
  · rwa [rearrange, List.range_eq_range']
  · exact getElem?_rearrange hperm (List.getElem?_eq_getElem hi)

/-- A cycle of three positions, one that stays where it is, and a cycle of two. -/
theorem rearrange_ends_three_cycles :
    [2, 0, 1, 3, 5, 4].Perm (List.range 6) ∧
      (∃ passes ≤ 12,
        (Loops.enter 0 (['a', 'b', 'c', 'd', 'e', 'f'], [2, 0, 1, 3, 5, 4])).Ends passes
          ['c', 'a', 'b', 'd', 'f', 'e']) ∧
      ['c', 'a', 'b', 'd', 'f', 'e'][4]? = ['a', 'b', 'c', 'd', 'e', 'f'][5]? := by
  have hperm : [2, 0, 1, 3, 5, 4].Perm (List.range ['a', 'b', 'c', 'd', 'e', 'f'].length) := by
    decide
  have hout : rearrange ['a', 'b', 'c', 'd', 'e', 'f'] [2, 0, 1, 3, 5, 4] =
      ['c', 'a', 'b', 'd', 'f', 'e'] := by decide +kernel
  obtain ⟨hends, -, hread⟩ := rearrange_ends hperm
  rw [hout] at hends hread
  exact ⟨hperm, hends, hread 4 (by decide)⟩

end RecordQuery.Sorting
