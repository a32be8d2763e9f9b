import Mathlib
import RecordQuery.Text.Fragment

/-! # Occurrences in texts

Where a text stands inside another. A search finds the least such position, so a separator stands in
none of the pieces between the places that are found, and the pieces joined are the text again.
-/

namespace RecordQuery.Text

variable {needle cs : List Char} {i start : Nat}

/-- A needle stands at a position of a text if its characters are those of the text
from there on. -/
def StandsAt (needle cs : List Char) (i : Nat) : Prop :=
  i + needle.length ≤ cs.length ∧ cs.extract i (i + needle.length) = needle

theorem standsAt_iff : StandsAt needle cs i ↔ i ≤ cs.length ∧ needle <+: cs.drop i := by
  rw [StandsAt, List.extract_eq_take_drop, Nat.add_sub_cancel_left, List.prefix_iff_eq_take]
  constructor
  · rintro ⟨hle, heq⟩
    exact ⟨by omega, heq.symm⟩
  · rintro ⟨hle, heq⟩
    have hlength := congrArg List.length heq
    rw [List.length_take, List.length_drop] at hlength
    exact ⟨by omega, heq.symm⟩

theorem standsAt_zero_iff : StandsAt needle cs 0 ↔ needle <+: cs := by
  simp [standsAt_iff]

theorem standsAt_succ_iff {c : Char} : StandsAt needle (c :: cs) (i + 1) ↔ StandsAt needle cs i := by
  simp [standsAt_iff]

theorem standsAt_drop_iff (hstart : start ≤ cs.length) :
    StandsAt needle (cs.drop start) i ↔ StandsAt needle cs (start + i) := by
  rw [standsAt_iff, standsAt_iff, List.drop_drop, List.length_drop]
  constructor <;> rintro ⟨hle, hprefix⟩ <;> exact ⟨by omega, hprefix⟩

/-- An occurrence cuts the text in three. -/
theorem StandsAt.append_eq (h : StandsAt needle cs i) :
    cs.take i ++ needle ++ cs.drop (i + needle.length) = cs := by
  obtain ⟨-, hprefix⟩ := standsAt_iff.mp h
  rw [List.append_assoc, ← List.drop_drop, ← List.prefix_append_drop hprefix,
    List.take_append_drop]

theorem exists_standsAt_iff : (∃ i, StandsAt needle cs i) ↔ needle <:+: cs := by
  constructor
  · rintro ⟨i, h⟩
    exact ⟨_, _, h.append_eq⟩
  · rintro ⟨front, back, rfl⟩
    refine ⟨front.length, standsAt_iff.mpr ⟨by simp, ?_⟩⟩
    rw [List.append_assoc, List.drop_left]
    exact List.prefix_append _ _

/-! ## Searching -/

/-- The search gives the least position of the needle, if it stands anywhere. -/
theorem isLeast_of_indexOf? (h : indexOf? needle cs = some i) :
    IsLeast {k | StandsAt needle cs k} i := by
  induction cs generalizing i with
  | nil =>
      rw [indexOf?] at h
      split at h
      next hempty =>
        obtain rfl := Option.some.inj h
        exact ⟨standsAt_zero_iff.mpr (List.isEmpty_iff.mp hempty ▸ List.prefix_rfl),
          fun k _ => Nat.zero_le k⟩
      next => cases h
  | cons c cs ih =>
      rw [indexOf?] at h
      split at h
      next hprefix =>
        obtain rfl := Option.some.inj h
        exact ⟨standsAt_zero_iff.mpr (List.isPrefixOf_iff_prefix.mp hprefix),
          fun k _ => Nat.zero_le k⟩
      next hprefix =>
        obtain ⟨j, hj, rfl⟩ := Option.map_eq_some_iff.mp h
        refine ⟨standsAt_succ_iff.mpr (ih hj).1, fun k hk => ?_⟩
        cases k with
        | zero => exact absurd (List.isPrefixOf_iff_prefix.mpr (standsAt_zero_iff.mp hk)) hprefix
        | succ k => exact Nat.succ_le_succ ((ih hj).2 (standsAt_succ_iff.mp hk))

theorem not_standsAt_of_indexOf? (h : indexOf? needle cs = none) (k : Nat) :
    ¬ StandsAt needle cs k := by
  induction cs generalizing k with
  | nil =>
      rw [indexOf?] at h
      split at h
      next => cases h
      next hempty =>
        intro hk
        exact hempty (List.isEmpty_iff.mpr (by simpa using (standsAt_iff.mp hk).2))
  | cons c cs ih =>
      rw [indexOf?] at h
      split at h
      next => cases h
      next hprefix =>
        intro hk
        cases k with
        | zero => exact hprefix (List.isPrefixOf_iff_prefix.mpr (standsAt_zero_iff.mp hk))
        | succ k => exact ih (Option.map_eq_none_iff.mp h) k (standsAt_succ_iff.mp hk)

/-- A search from a position within the text gives the least position from there on. -/
theorem isLeast_of_indexFrom? (hstart : start ≤ cs.length)
    (h : indexFrom? needle start cs = some i) :
    IsLeast {k | start ≤ k ∧ StandsAt needle cs k} i := by
  obtain ⟨j, hj, rfl⟩ := Option.map_eq_some_iff.mp h
  obtain ⟨hstands, hleast⟩ := isLeast_of_indexOf? hj
  refine ⟨⟨Nat.le_add_left start j, ?_⟩, ?_⟩
  · rw [Nat.add_comm]
    exact (standsAt_drop_iff hstart).mp hstands
  · rintro k ⟨hle, hk⟩
    obtain ⟨m, rfl⟩ := Nat.exists_eq_add_of_le hle
    have hm : j ≤ m := hleast ((standsAt_drop_iff hstart).mpr hk)
    omega

theorem not_standsAt_of_indexFrom? (hstart : start ≤ cs.length)
    (h : indexFrom? needle start cs = none) {k : Nat} (hk : start ≤ k) :
    ¬ StandsAt needle cs k := by
  obtain ⟨m, rfl⟩ := Nat.exists_eq_add_of_le hk
  rw [← standsAt_drop_iff hstart]
  exact not_standsAt_of_indexOf? (Option.map_eq_none_iff.mp h) m

/-! ## Pieces at a separator -/

variable {sep : List Char}

theorem splitOn_ne_nil (sep cs : List Char) : splitOn sep cs ≠ [] := by
  rw [splitOn]
  split
  · exact List.cons_ne_nil _ _
  · split <;> exact List.cons_ne_nil _ _

theorem join_cons (sep piece : List Char) {pieces : List (List Char)} (h : pieces ≠ []) :
    join sep (piece :: pieces) = piece ++ sep ++ join sep pieces := by
  obtain ⟨next, rest, rfl⟩ := List.exists_cons_of_ne_nil h
  rfl

/-- The pieces of a text with the separator between them are the text. -/
theorem join_splitOn (sep cs : List Char) : join sep (splitOn sep cs) = cs := by
  fun_induction splitOn sep cs with
  | case1 cs => rfl
  | case2 cs hsep hnone => rfl
  | case3 cs hsep i hi hlt ih =>
      rw [join_cons _ _ (splitOn_ne_nil _ _), ih]
      exact (isLeast_of_indexOf? hi).1.append_eq

/-- A separator does not stand in front of its first occurrence. -/
theorem not_infix_take (hsep : sep ≠ []) (h : indexOf? sep cs = some i) :
    ¬ sep <:+: cs.take i := by
  intro hinfix
  obtain ⟨k, hk⟩ := exists_standsAt_iff.mpr hinfix
  have hlength : 0 < sep.length := List.length_pos_iff.mpr hsep
  have hbefore : k + sep.length ≤ i := hk.1.trans (List.length_take_le _ _)
  have hstands : StandsAt sep cs k := by
    obtain ⟨hle, hprefix⟩ := standsAt_iff.mp hk
    refine standsAt_iff.mpr ⟨hle.trans (List.length_take_le' _ _), hprefix.trans ?_⟩
    rw [List.drop_take]
    exact List.take_prefix _ _
  have hleast : i ≤ k := (isLeast_of_indexOf? h).2 hstands
  omega

/-- No piece has the separator in it. -/
theorem not_infix_of_mem_splitOn (hsep : sep ≠ []) {piece : List Char}
    (h : piece ∈ splitOn sep cs) : ¬ sep <:+: piece := by
  fun_induction splitOn sep cs with
  | case1 cs hempty => exact absurd hempty hsep
  | case2 cs _ hnone =>
      rw [List.mem_singleton.mp h, ← exists_standsAt_iff]
      rintro ⟨k, hk⟩
      exact not_standsAt_of_indexOf? hnone k hk
  | case3 cs _ i hi hlt ih =>
      rcases List.mem_cons.mp h with rfl | hrest
      · exact not_infix_take hsep hi
      · exact ih hrest

/-- The characters of a text joined with nothing between them are the text. -/
theorem join_singletons (cs : List Char) : join [] (cs.map fun c => [c]) = cs := by
  induction cs with
  | nil => rfl
  | cons c cs ih =>
      cases cs with
      | nil => rfl
      | cons d cs => rw [List.map_cons, join_cons _ _ (by simp), ih, List.append_nil]; rfl

end RecordQuery.Text
