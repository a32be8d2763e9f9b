import Mathlib
import RecordQuery.Sorting.Rearrange

/-! # Rearranging along the cycles of an order

The walk along a cycle exchanges elements and overwrites the order as it goes. What stays the same
is the list that the order picks out of the elements, if the entry that closes the cycle is read as
the current position. When every position is settled, that list is the list itself.
-/

namespace RecordQuery.Sorting

variable {α : Type}

/-! ## Exchanges -/

theorem length_exchange (items : List α) (i j : Nat) :
    (exchange items i j).length = items.length := by
  unfold exchange
  split
  · simp
  · rfl

/-- Reading after an exchange of two positions. -/
theorem getElem?_exchange {items : List α} {i j : Nat} (hi : i < items.length)
    (hj : j < items.length) (p : Nat) :
    (exchange items i j)[p]? = items[Equiv.swap i j p]? := by
  have hexchange : exchange items i j = (items.set i items[j]).set j items[i] := by
    simp [exchange, hi, hj]
  rw [hexchange, Equiv.swap_apply_def]
  by_cases hpi : p = i
  · subst hpi
    by_cases hpj : p = j
    · subst hpj
      simp [hi]
    · simp [hi, hj, Ne.symm hpj]
  · by_cases hpj : p = j
    · subst hpj
      simp [hi, hj, hpi]
    · simp [hpi, hpj, Ne.symm hpi, Ne.symm hpj]

/-- An exchange of two names in an order of all positions. -/
theorem map_swap_perm {order : List Nat} {n i j : Nat} (hperm : order.Perm (List.range n))
    (hi : i < n) (hj : j < n) : (order.map (Equiv.swap i j)).Perm (List.range n) := by
  have hbound : ∀ p, Equiv.swap i j p < n ↔ p < n := by
    intro p
    rw [Equiv.swap_apply_def]
    split
    · omega
    · split <;> omega
  refine (hperm.map _).trans ?_
  refine (List.perm_ext_iff_of_nodup ?_ List.nodup_range).mpr fun p => ?_
  · exact List.nodup_range.map (Equiv.swap i j).injective
  · rw [List.mem_map_of_involutive (Equiv.swap_apply_self i j), List.mem_range, List.mem_range,
      hbound]

/-! ## States of the elements and their order -/

/-- The elements at the positions that an order names. -/
def pick (items : List α) (order : List Nat) : List (Option α) :=
  order.map fun p => items[p]?

/-- From one state to another: the order picks the same elements, and a position that was settled
still is. -/
structure Advances (before after : List α × List Nat) : Prop where
  length_eq : after.1.length = before.1.length
  perm : after.2.Perm (List.range before.1.length)
  pick_eq : pick after.1 after.2 = pick before.1 before.2
  settled : ∀ p : Nat, before.2[p]? = some p → after.2[p]? = some p

namespace Advances

theorem refl {s : List α × List Nat} (hperm : s.2.Perm (List.range s.1.length)) : Advances s s :=
  ⟨rfl, hperm, rfl, fun _ h => h⟩

theorem trans {s t u : List α × List Nat} (hst : Advances s t) (htu : Advances t u) :
    Advances s u where
  length_eq := htu.length_eq.trans hst.length_eq
  perm := hst.length_eq ▸ htu.perm
  pick_eq := htu.pick_eq.trans hst.pick_eq
  settled p h := htu.settled p (hst.settled p h)

end Advances

/-- Orders name each position once. -/
theorem position_unique {order : List Nat} {n i j p : Nat} (hperm : order.Perm (List.range n))
    (hi : order[i]? = some p) (hj : order[j]? = some p) : i = j := by
  have hnodup : order.Nodup := hperm.nodup_iff.mpr List.nodup_range
  exact (List.getElem?_inj (List.getElem?_eq_some_iff.mp hi).1 hnodup).mp (hi.trans hj.symm)

theorem lt_of_named {order : List Nat} {n i p : Nat} (hperm : order.Perm (List.range n))
    (hi : order[i]? = some p) : i < n ∧ p < n := by
  constructor
  · have hlt := (List.getElem?_eq_some_iff.mp hi).1
    rwa [hperm.length_eq, List.length_range] at hlt
  · exact List.mem_range.mp (hperm.mem_iff.mp (List.mem_of_getElem? hi))

/-- Writing the entry that is there already changes nothing. -/
theorem set_named {order : List Nat} {i p : Nat} (h : order[i]? = some p) :
    order.set i p = order := by
  obtain ⟨hlt, rfl⟩ := List.getElem?_eq_some_iff.mp h
  exact List.set_getElem_self hlt

/-! ## The walk along a cycle -/

/-- The state of a walk. The order still names the start of the cycle at its last position, where
the whole order names the current one, since the first element has been carried along. -/
structure Walk (start current last : Nat) (order whole : List Nat) : Prop where
  order_eq : order = whole.set last start
  whole_last : whole[last]? = some current
  whole_start : current = start ∨ whole[start]? = some start

namespace Walk

variable {start current last next n : Nat} {order whole : List Nat}

theorem exists_begin (hstart : start < n) (hperm : order.Perm (List.range n)) :
    ∃ last, Walk start start last order order := by
  have hmem : start ∈ order := hperm.mem_iff.mpr (List.mem_range.mpr hstart)
  obtain ⟨last, hlast⟩ := List.mem_iff_getElem?.mp hmem
  exact ⟨last, (set_named hlast).symm, hlast, .inl rfl⟩

theorem getElem?_of_ne (h : Walk start current last order whole) {p : Nat} (hp : p ≠ last) :
    order[p]? = whole[p]? := by
  rw [h.order_eq, List.getElem?_set_ne (Ne.symm hp)]

theorem getElem?_last (h : Walk start current last order whole) : order[last]? = some start := by
  have hlt := (List.getElem?_eq_some_iff.mp h.whole_last).1
  rw [h.order_eq, List.getElem?_set_self hlt]

/-- A walk stays within the order. -/
theorem getElem?_ne_none (h : Walk start current last order whole)
    (hperm : whole.Perm (List.range n)) : order[current]? ≠ none := by
  have hlt := (lt_of_named hperm h.whole_last).2
  rw [Ne, List.getElem?_eq_none_iff, h.order_eq, List.length_set, hperm.length_eq,
    List.length_range]
  omega

/-- The walk is over where the order names the start. -/
theorem eq_last (h : Walk start current last order whole) (hperm : whole.Perm (List.range n))
    (hnext : order[current]? = some start) : current = last := by
  by_contra hne
  have hcurrent : whole[current]? = some start := (h.getElem?_of_ne hne) ▸ hnext
  have heq : current = start := by
    rcases h.whole_start with heq | hstart
    · exact heq
    · exact position_unique hperm hcurrent hstart
  exact hne (position_unique hperm (heq ▸ hcurrent) h.whole_last)

/-- Only the start of a walk can name itself. -/
theorem eq_start (h : Walk start current last order whole) (hperm : whole.Perm (List.range n))
    (hnext : order[current]? = some current) : current = start := by
  by_cases hlast : current = last
  · rw [hlast, h.getElem?_last] at hnext
    exact hlast.trans (Option.some.inj hnext).symm
  · exact absurd (position_unique hperm ((h.getElem?_of_ne hlast) ▸ hnext) h.whole_last) hlast

/-- Settling the last position of the cycle leaves the whole order, and the start settled. -/
theorem settle_last (h : Walk start current last order whole) (hlast : current = last) :
    order.set current current = whole ∧ whole[start]? = some start := by
  subst hlast
  constructor
  · rw [h.order_eq, List.set_set, set_named h.whole_last]
  · rcases h.whole_start with hstart | hstart
    · exact hstart ▸ h.whole_last
    · exact hstart

/-- A step of the walk exchanges the current position and the next one, in the elements and in the
whole order. -/
theorem step (h : Walk start current last order whole) (hperm : whole.Perm (List.range n))
    (hnext : order[current]? = some next) (hstart : next ≠ start) (hne : next ≠ current) :
    Walk start next last (order.set current current) (whole.map (Equiv.swap current next)) ∧
      whole[current]? = some next := by
  have hlast : current ≠ last := by
    rintro rfl
    exact hstart (Option.some.inj (hnext.symm.trans h.getElem?_last))
  have hcurrent : whole[current]? = some next := (h.getElem?_of_ne hlast) ▸ hnext
  refine ⟨⟨?_, ?_, ?_⟩, hcurrent⟩
  · apply List.ext_getElem?
    intro p
    by_cases hp : p = last
    · subst hp
      have hlt := (List.getElem?_eq_some_iff.mp h.whole_last).1
      rw [List.getElem?_set_ne hlast, h.getElem?_last,
        List.getElem?_set_self (by simpa using hlt)]
    · rw [List.getElem?_set_ne (Ne.symm hp), List.getElem?_map]
      by_cases hpc : p = current
      · subst hpc
        have hlt := (List.getElem?_eq_some_iff.mp hnext).1
        rw [List.getElem?_set_self hlt, hcurrent, Option.map_some, Equiv.swap_apply_right]
      -- Any other entry names neither of the two positions.
      · rw [List.getElem?_set_ne (Ne.symm hpc), h.getElem?_of_ne hp]
        cases hq : whole[p]? with
        | none => rfl
        | some q =>
            have hqc : q ≠ current := fun heq =>
              hp (position_unique hperm (heq ▸ hq) h.whole_last)
            have hqn : q ≠ next := fun heq => hpc (position_unique hperm (heq ▸ hq) hcurrent)
            rw [Option.map_some, Equiv.swap_apply_of_ne_of_ne hqc hqn]
  · rw [List.getElem?_map, h.whole_last, Option.map_some, Equiv.swap_apply_left]
  · right
    rw [List.getElem?_map]
    rcases h.whole_start with heq | hsettled
    · rw [← heq, hcurrent, Option.map_some, Equiv.swap_apply_right]
    · have hsc : start ≠ current := by
        rintro rfl
        exact hne (Option.some.inj (hcurrent.symm.trans hsettled))
      rw [hsettled, Option.map_some, Equiv.swap_apply_of_ne_of_ne hsc (Ne.symm hstart)]

end Walk

/-- Exchanging two positions in the elements and in the order, of which one names the other. -/
theorem advances_exchange {items : List α} {whole : List Nat} {current next : Nat}
    (hperm : whole.Perm (List.range items.length)) (hnext : whole[current]? = some next)
    (hne : next ≠ current) :
    Advances (items, whole)
      (exchange items current next, whole.map (Equiv.swap current next)) := by
  obtain ⟨hcurrent, hbound⟩ := lt_of_named hperm hnext
  refine ⟨length_exchange .., map_swap_perm hperm hcurrent hbound, ?_, ?_⟩
  · simp only [pick, List.map_map]
    refine List.map_congr_left fun p _ => ?_
    rw [Function.comp_apply, getElem?_exchange hcurrent hbound, Equiv.swap_apply_self]
  · intro p hp
    have hpc : p ≠ current := by
      rintro rfl
      exact hne (Option.some.inj (hnext.symm.trans hp))
    have hpn : p ≠ next := by
      rintro rfl
      exact hpc (position_unique hperm hp hnext)
    rw [List.getElem?_map, hp, Option.map_some, Equiv.swap_apply_of_ne_of_ne hpc hpn]

/-- A walk that has begun at a position settles it and keeps what the whole order picks. -/
theorem followCycle_advances (start current : Nat) (items : List α) (order : List Nat)
    {whole : List Nat} {last : Nat} (h : Walk start current last order whole)
    (hperm : whole.Perm (List.range items.length)) :
    Advances (items, whole) (followCycle start current items order) ∧
      (followCycle start current items order).2[start]? = some start := by
  fun_induction followCycle start current items order generalizing whole with
  | case1 current items order hnone =>
      exact absurd hnone (h.getElem?_ne_none hperm)
  | case2 current items order next horder hstop =>
      have hlast : current = last := by
        rcases hstop with rfl | rfl
        · exact h.eq_last hperm horder
        · have hstart := h.eq_start hperm horder
          exact h.eq_last hperm (hstart ▸ horder)
      obtain ⟨hwhole, hstart⟩ := h.settle_last hlast
      rw [hwhole]
      exact ⟨.refl hperm, hstart⟩
  | case3 current items order next horder hstop _ ih =>
      obtain ⟨hstart, hne⟩ := not_or.mp hstop
      obtain ⟨hwalk, hnext⟩ := h.step hperm horder hstart hne
      have hadvances := advances_exchange hperm hnext hne
      obtain ⟨hrest, hsettled⟩ := ih hwalk (by rw [length_exchange]; exact hadvances.perm)
      exact ⟨hadvances.trans hrest, hsettled⟩

/-- Walking along the cycles of some positions settles all of them. -/
theorem foldl_followCycle_advances (starts : List Nat) (s : List α × List Nat)
    (hstarts : ∀ start ∈ starts, start < s.1.length) (hperm : s.2.Perm (List.range s.1.length)) :
    let after := starts.foldl (fun s start => followCycle start start s.1 s.2) s
    Advances s after ∧ ∀ start ∈ starts, after.2[start]? = some start := by
  induction starts generalizing s with
  | nil => exact ⟨.refl hperm, by simp⟩
  | cons start rest ih =>
      obtain ⟨hstart, hrest⟩ := List.forall_mem_cons.mp hstarts
      obtain ⟨last, hwalk⟩ := Walk.exists_begin hstart hperm
      obtain ⟨hfirst, hsettled⟩ := followCycle_advances start start s.1 s.2 hwalk hperm
      obtain ⟨hafter, hothers⟩ := ih (followCycle start start s.1 s.2)
        (fun p hp => by rw [hfirst.length_eq]; exact hrest p hp)
        (by rw [hfirst.length_eq]; exact hfirst.perm)
      refine ⟨hfirst.trans hafter, ?_⟩
      exact List.forall_mem_cons.mpr ⟨hafter.settled start hsettled, hothers⟩

/-- The rearranged list has at each position the element that stood where the order says. -/
theorem map_some_rearrange {items : List α} {order : List Nat}
    (hperm : order.Perm (List.range items.length)) :
    (rearrange items order).map some = pick items order := by
  obtain ⟨hadvances, hsettled⟩ := foldl_followCycle_advances (List.range items.length)
    (items, order) (fun start hstart => List.mem_range.mp hstart) hperm
  rw [← hadvances.pick_eq]
  unfold rearrange
  generalize (List.range items.length).foldl _ (items, order) = after at hadvances hsettled
  have hlength : after.1.length = items.length := hadvances.length_eq
  have horder : after.2 = List.range items.length := by
    apply List.ext_getElem?
    intro p
    by_cases hp : p < items.length
    · rw [hsettled p (List.mem_range.mpr hp), List.getElem?_range hp]
    · rw [List.getElem?_eq_none (by rw [hadvances.perm.length_eq]; simpa using hp),
        List.getElem?_eq_none (by simpa using hp)]
  apply List.ext_getElem?
  intro p
  rw [pick, horder, List.getElem?_map, List.getElem?_map]
  by_cases hp : p < items.length
  · rw [List.getElem?_range hp, Option.map_some]
    rw [List.getElem?_eq_getElem (by omega), Option.map_some]
  · rw [List.getElem?_eq_none (by omega), List.getElem?_eq_none (by simpa using hp)]
    rfl

section

variable {items : List α} {order : List Nat} (hperm : order.Perm (List.range items.length))
include hperm

theorem length_rearrange : (rearrange items order).length = items.length := by
  calc (rearrange items order).length = ((rearrange items order).map some).length :=
        (List.length_map some).symm
    _ = order.length := by rw [map_some_rearrange hperm, pick, List.length_map]
    _ = items.length := by rw [hperm.length_eq, List.length_range]

theorem getElem?_rearrange {i p : Nat} (h : order[i]? = some p) :
    (rearrange items order)[i]? = items[p]? := by
  have hread : ((rearrange items order).map some)[i]? = some items[p]? := by
    rw [map_some_rearrange hperm, pick, List.getElem?_map, h, Option.map_some]
  obtain ⟨x, hx, hsome⟩ := Option.map_eq_some_iff.mp (List.getElem?_map ▸ hread)
  rw [hx, hsome]

end

end RecordQuery.Sorting
