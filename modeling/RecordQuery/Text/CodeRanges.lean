/-! # Sets of code points

A set of characters is a list of closed ranges of code points in ascending order. Membership looks
at ranges until the first one past the code point. A union joins the ranges that meet or touch, and
the other operations come from it and the complement.
-/

namespace RecordQuery.Text

/-- Whether a code point lies in one of the ranges. -/
def inRanges : List (Nat × Nat) → Nat → Bool
  | [], _ => false
  | (first, last) :: rest, code =>
      if code < first then false else decide (code ≤ last) || inRanges rest code

@[simp] theorem inRanges_nil (code : Nat) : inRanges [] code = false := rfl

/-- A code point in a list of ranges lies in one of them. -/
theorem exists_range_of_inRanges {ranges : List (Nat × Nat)} {code : Nat}
    (h : inRanges ranges code = true) : ∃ r ∈ ranges, r.1 ≤ code ∧ code ≤ r.2 := by
  induction ranges with
  | nil => simp at h
  | cons r rest ih =>
      obtain ⟨first, last⟩ := r
      rw [inRanges] at h
      split at h
      · simp at h
      · next hfirst =>
          rcases Bool.or_eq_true _ _ ▸ h with hlast | hrest
          · exact ⟨(first, last), List.mem_cons_self, by omega, by simpa using hlast⟩
          · obtain ⟨r, hr, hbounds⟩ := ih hrest
            exact ⟨r, List.mem_cons_of_mem _ hr, hbounds⟩

/-- Ranges in ascending order of their first code point. -/
def Sorted (ranges : List (Nat × Nat)) : Prop :=
  ranges.Pairwise fun r s => r.1 ≤ s.1

/-- In sorted ranges, the first one past a code point ends the search rightly. -/
theorem inRanges_iff {ranges : List (Nat × Nat)} (h : Sorted ranges) (code : Nat) :
    inRanges ranges code = true ↔ ∃ r ∈ ranges, r.1 ≤ code ∧ code ≤ r.2 := by
  refine ⟨exists_range_of_inRanges, ?_⟩
  induction ranges with
  | nil => simp
  | cons r rest ih =>
      obtain ⟨first, last⟩ := r
      obtain ⟨hfirst, hrest⟩ := List.pairwise_cons.1 h
      rintro ⟨r, hr, hlow, hhigh⟩
      rw [inRanges]
      rcases List.mem_cons.1 hr with rfl | hr
      · simp [Nat.not_lt.2 hlow, hhigh]
      · have hge := hfirst r hr
        simp only [Nat.not_lt.2 (Nat.le_trans hge hlow), if_false, Bool.or_eq_true]
        exact .inr (ih hrest ⟨r, hr, hlow, hhigh⟩)

def lastCode : Nat := 0x10FFFF

/-- Joins the ranges that meet or touch. They come in ascending order of their first code point. -/
def joinRanges : List (Nat × Nat) → List (Nat × Nat)
  | [] => []
  | [r] => [r]
  | (first, last) :: (next, nextLast) :: rest =>
      if next ≤ last + 1 then joinRanges ((first, max last nextLast) :: rest)
      else (first, last) :: joinRanges ((next, nextLast) :: rest)
termination_by ranges => ranges.length

/-- Joining ranges keeps their code points. -/
theorem exists_joinRanges {ranges : List (Nat × Nat)} (h : Sorted ranges)
    (hle : ∀ r ∈ ranges, r.1 ≤ r.2) (code : Nat) :
    (∃ r ∈ joinRanges ranges, r.1 ≤ code ∧ code ≤ r.2) ↔
      ∃ r ∈ ranges, r.1 ≤ code ∧ code ≤ r.2 := by
  fun_induction joinRanges ranges with
  | case1 => rfl
  | case2 => rfl
  | case3 first last next nextLast rest htouch ih =>
      obtain ⟨hfirst, hrest⟩ := List.pairwise_cons.1 h
      have hstart := hfirst _ List.mem_cons_self
      have hlast := hle _ List.mem_cons_self
      have hnext := hle (next, nextLast) (by simp)
      rw [ih
        (List.pairwise_cons.2 ⟨fun r hr => hfirst r (.tail _ hr), (List.pairwise_cons.1 hrest).2⟩)
        fun r hr => by
          rcases List.mem_cons.1 hr with rfl | hr
          · exact Nat.le_trans hlast (Nat.le_max_left ..)
          · exact hle r (.tail _ (.tail _ hr))]
      simp only [List.mem_cons, exists_eq_or_imp]
      simp only at hstart hlast hnext
      constructor
      · rintro (hjoined | hr)
        · omega
        · exact .inr (.inr hr)
      · rintro (hr | hr | hr)
        · exact .inl (by omega)
        · exact .inl (by omega)
        · exact .inr hr
  | case4 first last next nextLast rest _ ih =>
      simp only [List.mem_cons, exists_eq_or_imp] at ih ⊢
      rw [ih (List.pairwise_cons.1 h).2 fun r hr => hle r (.tail _ (List.mem_cons.2 hr))]

/-- Ranges in any order as a set. -/
def sortRanges (ranges : List (Nat × Nat)) : List (Nat × Nat) :=
  joinRanges (ranges.mergeSort fun r s => r.1 ≤ s.1)

def unionRanges (a b : List (Nat × Nat)) : List (Nat × Nat) :=
  joinRanges (a.merge b fun r s => r.1 ≤ s.1)

/-- The code points from `start` on that are in no range. -/
def complementFrom (start : Nat) : List (Nat × Nat) → List (Nat × Nat)
  | [] => if start ≤ lastCode then [(start, lastCode)] else []
  | (first, last) :: rest =>
      if start < first then (start, first - 1) :: complementFrom (last + 1) rest
      else complementFrom (last + 1) rest

/-- Ranges in ascending order that do not overlap, from `start` on. -/
def AscendFrom : (start : Nat) → List (Nat × Nat) → Prop
  | _, [] => True
  | start, (first, last) :: rest => start ≤ first ∧ first ≤ last ∧ AscendFrom (last + 1) rest

/-- Before its start, a complement has no code points. -/
theorem inRanges_complementFrom_of_lt {ranges : List (Nat × Nat)} {start code : Nat}
    (h : AscendFrom start ranges) (hcode : code < start) :
    inRanges (complementFrom start ranges) code = false := by
  fun_induction complementFrom start ranges with
  | case1 => simp [inRanges, hcode]
  | case2 => rfl
  | case3 => simp [inRanges, hcode]
  | case4 start first last rest _ ih =>
      obtain ⟨hstart, hlast, hrest⟩ := h
      exact ih hrest (by omega)

/-- From its start on, a complement has the code points that are in no range. -/
theorem inRanges_complementFrom {ranges : List (Nat × Nat)} {start code : Nat}
    (h : AscendFrom start ranges) (hstart : start ≤ code) (hcode : code ≤ lastCode) :
    inRanges (complementFrom start ranges) code = !inRanges ranges code := by
  fun_induction complementFrom start ranges with
  | case1 => simp [inRanges, hcode, Nat.not_lt.2 hstart]
  | case2 start hgreat => exact absurd (Nat.le_trans hstart hcode) hgreat
  | case3 start first last rest hfirst ih =>
      obtain ⟨_, hlast, hrest⟩ := h
      by_cases hafter : last + 1 ≤ code
      · have : ¬ code < first := by omega
        have : ¬ code ≤ first - 1 := by omega
        have : ¬ code ≤ last := by omega
        simp [inRanges, ih hrest hafter, Nat.not_lt.2 hstart, *]
      · rw [inRanges, inRanges, inRanges_complementFrom_of_lt hrest (by omega)]
        by_cases hbefore : code < first
        · simp [Nat.not_lt.2 hstart, hbefore]; omega
        · have : ¬ code ≤ first - 1 := by omega
          have : code ≤ last := by omega
          simp [Nat.not_lt.2 hstart, *]
  | case4 start first last rest hfirst ih =>
      obtain ⟨hle, hlast, hrest⟩ := h
      have : ¬ code < first := by omega
      by_cases hafter : last + 1 ≤ code
      · have : ¬ code ≤ last := by omega
        simp [inRanges, ih hrest hafter, *]
      · have : code ≤ last := by omega
        simp [inRanges, inRanges_complementFrom_of_lt hrest (by omega : code < last + 1), *]

def complementRanges (ranges : List (Nat × Nat)) : List (Nat × Nat) :=
  complementFrom 0 ranges

def interRanges (a b : List (Nat × Nat)) : List (Nat × Nat) :=
  complementRanges (unionRanges (complementRanges a) (complementRanges b))

end RecordQuery.Text
