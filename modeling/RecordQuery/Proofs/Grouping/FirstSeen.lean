import Mathlib

/-! # First-seen order

The distinct labels of a list in the order in which they are first seen, the positions of the items
with a label, and tables that hold one entry for each label seen so far.
-/

namespace RecordQuery.FirstSeen

variable {ι κ γ : Type}

/-! ## Distinct labels -/

section Distinct

variable [BEq κ] [LawfulBEq κ]

theorem eraseDups_append_of_mem {labels : List κ} {k : κ} (h : k ∈ labels) :
    (labels ++ [k]).eraseDups = labels.eraseDups := by
  rw [List.eraseDups_append]
  simp [List.removeAll, h]

/-- A label that has not been seen is added at the end. -/
theorem eraseDups_append_of_not_mem {labels : List κ} {k : κ} (h : k ∉ labels) :
    (labels ++ [k]).eraseDups = labels.eraseDups ++ [k] := by
  rw [List.eraseDups_append]
  simp [List.removeAll, h, List.eraseDups_cons]

/-- Distinct labels stand in the order of their first occurrences. -/
theorem pairwise_eraseDups (labels : List κ) :
    labels.eraseDups.Pairwise fun a b => labels.idxOf a < labels.idxOf b := by
  induction labels using List.reverseRecOn with
  | nil => exact .nil
  | append_singleton labels k ih =>
      have hseen : labels.eraseDups.Pairwise fun a b =>
          (labels ++ [k]).idxOf a < (labels ++ [k]).idxOf b := by
        refine ih.imp_of_mem fun ha hb hlt => ?_
        rw [List.mem_eraseDups] at ha hb
        rwa [List.idxOf_append_of_mem ha, List.idxOf_append_of_mem hb]
      by_cases hmem : k ∈ labels
      · rw [eraseDups_append_of_mem hmem]
        exact hseen
      · rw [eraseDups_append_of_not_mem hmem]
        refine List.pairwise_append.mpr ⟨hseen, List.pairwise_singleton _ k, ?_⟩
        intro a ha b hb
        obtain rfl := List.mem_singleton.mp hb
        rw [List.mem_eraseDups] at ha
        rw [List.idxOf_append_of_mem ha, List.idxOf_append_of_notMem hmem]
        exact Nat.lt_add_right _ (List.idxOf_lt_length_of_mem ha)

theorem nodup_eraseDups (labels : List κ) : labels.eraseDups.Nodup :=
  (pairwise_eraseDups labels).imp fun hlt heq => Nat.ne_of_lt hlt (congrArg labels.idxOf heq)

theorem eraseDups_of_nodup {labels : List κ} (h : labels.Nodup) : labels.eraseDups = labels := by
  induction labels using List.reverseRecOn with
  | nil => rfl
  | append_singleton labels k ih =>
      rw [← List.concat_eq_append, List.nodup_concat] at h
      rw [eraseDups_append_of_not_mem h.1, ih h.2]

end Distinct

/-! ## Positions -/

/-- The first position of the items with a property. -/
theorem head?_findIdxs {p : ι → Bool} {items : List ι} (h : ∃ x ∈ items, p x) :
    (items.findIdxs p).head? = some (items.findIdx p) := by
  have hpos : 0 < (items.findIdxs p).length := by
    rw [List.length_findIdxs, List.countP_pos_iff]
    exact h
  rw [List.head?_eq_getElem?, List.getElem?_eq_getElem hpos,
    List.getElem_zero_findIdxs_eq_findIdx]

/-- The items at the positions of those with a property are those with the property. -/
theorem filterMap_findIdxs (p : ι → Bool) (items : List ι) :
    (items.findIdxs p).filterMap (fun i => items[i]?) = items.filter p := by
  induction items using List.reverseRecOn with
  | nil => rfl
  | append_singleton items x ih =>
      have hold : (items.findIdxs p).filterMap (fun i => (items ++ [x])[i]?) =
          (items.findIdxs p).filterMap fun i => items[i]? := by
        refine List.filterMap_congr fun i hi => ?_
        obtain ⟨hlt, -⟩ := List.mem_findIdxs_iff_exists_getElem_pos.mp hi
        exact List.getElem?_append_left hlt
      rw [List.findIdxs_append, List.filterMap_append, hold, ih, List.filter_append]
      congr 1
      by_cases hx : p x <;> simp [hx]

/-! ## Tables with one entry for each label -/

/-- A table with the entry of a label changed, or with a new entry at the end if it has none. -/
def upsert [DecidableEq κ] (label : γ → κ) (k : κ) (change : γ → γ) (new : γ) :
    List γ → List γ
  | [] => [new]
  | x :: rest => if label x = k then change x :: rest else x :: upsert label k change new rest

section Upsert

variable [DecidableEq κ] {label : γ → κ} {k : κ} {change : γ → γ} {new : γ} {entry : κ → γ}

theorem upsert_of_not_mem (hlabel : ∀ j, label (entry j) = j) {labels : List κ}
    (h : k ∉ labels) :
    upsert label k change new (labels.map entry) = labels.map entry ++ [new] := by
  induction labels with
  | nil => rfl
  | cons j labels ih =>
      obtain ⟨hne, hrest⟩ := not_or.mp (mt List.mem_cons.mpr h)
      rw [List.map_cons, upsert, hlabel, if_neg (Ne.symm hne), ih hrest, List.cons_append]

theorem upsert_of_mem (hlabel : ∀ j, label (entry j) = j) {labels : List κ}
    (hnodup : labels.Nodup) (h : k ∈ labels) :
    upsert label k change new (labels.map entry) =
      labels.map fun j => if j = k then change (entry j) else entry j := by
  induction labels with
  | nil => simp at h
  | cons j labels ih =>
      obtain ⟨hnot, hnodup⟩ := List.nodup_cons.mp hnodup
      rw [List.map_cons, List.map_cons, upsert, hlabel]
      by_cases hj : j = k
      · rw [if_pos hj, if_pos hj]
        refine congrArg (change (entry j) :: ·) (List.map_congr_left fun i hi => ?_)
        have hik : i ≠ k := fun heq => hnot (hj ▸ heq ▸ hi)
        rw [if_neg hik]
      · have hmem : k ∈ labels := (List.mem_cons.mp h).resolve_left (Ne.symm hj)
        rw [if_neg hj, if_neg hj, ih hnodup hmem]

/-- One more item brings a table of the labels of some items up to date, if the change is what the
item does to the entry of its label, and if it does nothing to other entries. -/
theorem upsert_eraseDups [BEq κ] [LawfulBEq κ] (hlabel : ∀ j, label (entry j) = j)
    {entry' : κ → γ} {labels : List κ} (hseen : k ∈ labels → entry' k = change (entry k))
    (hnew : k ∉ labels → entry' k = new) (hother : ∀ j ∈ labels, j ≠ k → entry' j = entry j) :
    upsert label k change new (labels.eraseDups.map entry) =
      (labels ++ [k]).eraseDups.map entry' := by
  by_cases h : k ∈ labels
  · rw [eraseDups_append_of_mem h,
      upsert_of_mem hlabel (nodup_eraseDups labels) (List.mem_eraseDups.mpr h)]
    refine List.map_congr_left fun j hj => ?_
    by_cases hjk : j = k
    · rw [if_pos hjk, hjk, hseen h]
    · rw [if_neg hjk, hother j (List.mem_eraseDups.mp hj) hjk]
  · rw [eraseDups_append_of_not_mem h, upsert_of_not_mem hlabel (mt List.mem_eraseDups.mp h),
      List.map_append, List.map_singleton, hnew h]
    refine congrArg (· ++ [new]) (List.map_congr_left fun j hj => ?_)
    have hj' := List.mem_eraseDups.mp hj
    exact (hother j hj' fun heq => h (heq ▸ hj')).symm

end Upsert

end RecordQuery.FirstSeen
