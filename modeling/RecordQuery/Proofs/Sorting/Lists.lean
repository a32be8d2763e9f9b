import Mathlib
import RecordQuery.Sorting.Merge

/-! # The sorts as functions of lists

The list that a sort in place leaves is computed here from the lists of which it is put together: an
insertion from the elements before it, which are given from the last one back, a merge from the two
runs. Nothing is asked of the comparison. What is done with its answers is bookkeeping, so no element
is lost and none appears twice, and every failure is an answer of the comparison.
-/

namespace RecordQuery.Sorting

variable {σ α β ε : Type}

/-- Moves `x` leftwards into a list that is given from its right end. -/
def insertBack (compare : StatefulComparison σ α ε) (x : α) : List α → EStateM ε σ (List α)
  | [] => pure [x]
  | y :: ys => do
      match ← compare y x with
      | .gt => return y :: (← insertBack compare x ys)
      | _ => return x :: y :: ys

/-- Inserts the remaining elements one by one into the reversed list of those before them. -/
def insertAll (compare : StatefulComparison σ α ε) (done : List α) :
    List α → EStateM ε σ (List α)
  | [] => pure done.reverse
  | x :: rest => do insertAll compare (← insertBack compare x done) rest

/-- Merges two runs. An element of the second goes first only if it compares less. -/
def merge (compare : StatefulComparison σ α ε) : List α → List α → EStateM ε σ (List α)
  | [], right => pure right
  | left, [] => pure left
  | x :: left, y :: right => do
      match ← compare y x with
      | .lt => return y :: (← merge compare (x :: left) right)
      | _ => return x :: (← merge compare left (y :: right))
termination_by left right => left.length + right.length

/-- Merge sort: both halves of a long run, and then their merge. -/
def mergeSort (compare : StatefulComparison σ α ε) (run : List α) : EStateM ε σ (List α) :=
  if hshort : run.length ≤ insertionThreshold then insertAll compare [] run
  else do
    have hlong : 16 < run.length := by simpa [insertionThreshold] using hshort
    let left ← mergeSort compare (run.take (run.length / 2))
    let right ← mergeSort compare (run.drop (run.length / 2))
    merge compare left right
termination_by run.length
decreasing_by
  all_goals simp only [List.length_take, List.length_drop]
  all_goals omega

section Equations

variable (compare : StatefulComparison σ α ε)

theorem insertBack_cons (x y : α) (ys : List α) :
    insertBack compare x (y :: ys) = compare y x >>= fun o =>
      if o = .gt then (y :: ·) <$> insertBack compare x ys else pure (x :: y :: ys) := by
  rw [insertBack]
  refine bind_congr fun o => ?_
  cases o <;> rfl

@[simp] theorem merge_nil_left (right : List α) : merge compare [] right = pure right := by
  rw [merge]

@[simp] theorem merge_nil_right (left : List α) : merge compare left [] = pure left := by
  cases left <;> rw [merge]
  simp

theorem merge_cons_cons (x y : α) (left right : List α) :
    merge compare (x :: left) (y :: right) = compare y x >>= fun o =>
      if o = .lt then (y :: ·) <$> merge compare (x :: left) right
      else (x :: ·) <$> merge compare left (y :: right) := by
  rw [merge]
  refine bind_congr fun o => ?_
  cases o <;> rfl

theorem mergeSort_short {run : List α} (h : run.length ≤ insertionThreshold) :
    mergeSort compare run = insertAll compare [] run := by
  rw [mergeSort, dif_pos h]

theorem mergeSort_long {run : List α} (h : insertionThreshold < run.length) :
    mergeSort compare run =
      mergeSort compare (run.take (run.length / 2)) >>= fun left =>
        mergeSort compare (run.drop (run.length / 2)) >>= fun right =>
          merge compare left right := by
  rw [mergeSort, dif_neg (Nat.not_le_of_lt h)]

end Equations

/-- Sorting by runs: short ones, and long ones from their halves. -/
theorem mergeSort_induction {motive : List α → Prop}
    (short : ∀ run, run.length ≤ insertionThreshold → motive run)
    (long : ∀ run, insertionThreshold < run.length → motive (run.take (run.length / 2)) →
      motive (run.drop (run.length / 2)) → motive run)
    (run : List α) : motive run := by
  by_cases h : run.length ≤ insertionThreshold
  · exact short run h
  · have hlong : 16 < run.length := by simpa [insertionThreshold] using h
    exact long run (Nat.lt_of_not_le h) (mergeSort_induction short long _)
      (mergeSort_induction short long _)
termination_by run.length
decreasing_by
  all_goals simp only [List.length_take, List.length_drop]
  all_goals omega

/-! ## Runs -/

section Runs

variable {γ : Type} {m : EStateM ε σ β} {f : β → EStateM ε σ γ} {s t : σ} {c : γ} {e : ε}

theorem run_bind_eq_ok_iff :
    (m >>= f).run s = .ok c t ↔ ∃ b u, m.run s = .ok b u ∧ (f b).run u = .ok c t := by
  rw [EStateM.run_bind]
  cases m.run s <;> simp

theorem run_bind_eq_error_iff :
    (m >>= f).run s = .error e t ↔
      m.run s = .error e t ∨ ∃ b u, m.run s = .ok b u ∧ (f b).run u = .error e t := by
  rw [EStateM.run_bind]
  cases m.run s <;> simp

theorem run_map_eq_ok_iff {g : β → γ} :
    (g <$> m).run s = .ok c t ↔ ∃ b, m.run s = .ok b t ∧ g b = c := by
  rw [map_eq_pure_bind, run_bind_eq_ok_iff]
  refine exists_congr fun b => ⟨fun ⟨u, hb, hc⟩ => ?_, fun ⟨hb, hc⟩ => ⟨t, hb, hc ▸ rfl⟩⟩
  cases hc
  exact ⟨hb, rfl⟩

theorem run_map_eq_error_iff {g : β → γ} :
    (g <$> m).run s = .error e t ↔ m.run s = .error e t := by
  rw [EStateM.run_map]
  cases m.run s <;> simp

end Runs

/-! ## What a sort does with its comparison -/

/-- The comparison of two of the elements succeeds and takes one state to the other. -/
def Call (compare : StatefulComparison σ α ε) (items : List α) (s t : σ) : Prop :=
  ∃ a ∈ items, ∃ b ∈ items, ∃ o, (compare a b).run s = .ok o t

/-- Calls of the comparison, one after the other, take one state to the other. -/
def Calls (compare : StatefulComparison σ α ε) (items : List α) : σ → σ → Prop :=
  Relation.ReflTransGen (Call compare items)

/-- After such calls the comparison of two of the elements fails. -/
def FailsOn (compare : StatefulComparison σ α ε) (items : List α) (s : σ) (e : ε) (t : σ) : Prop :=
  ∃ u, Calls compare items s u ∧ ∃ a ∈ items, ∃ b ∈ items, (compare a b).run u = .error e t

section Monotone

variable {compare : StatefulComparison σ α ε} {items others : List α} {s t : σ} {e : ε}

theorem Calls.mono (hsub : items ⊆ others) (h : Calls compare items s t) :
    Calls compare others s t := by
  refine Relation.ReflTransGen.mono ?_ s t h
  rintro u v ⟨a, ha, b, hb, hcall⟩
  exact ⟨a, hsub ha, b, hsub hb, hcall⟩

theorem FailsOn.mono (hsub : items ⊆ others) (h : FailsOn compare items s e t) :
    FailsOn compare others s e t := by
  obtain ⟨u, hcalls, a, ha, b, hb, hfails⟩ := h
  exact ⟨u, hcalls.mono hsub, a, hsub ha, b, hsub hb, hfails⟩

end Monotone

/-- A computation whose values have a property, and which has its state and its failures from calls
of the comparison on the elements. -/
structure Consults (compare : StatefulComparison σ α ε) (items : List α) (m : EStateM ε σ β)
    (p : β → Prop) : Prop where
  value : ∀ {s a t}, m.run s = .ok a t → p a
  calls : ∀ {s a t}, m.run s = .ok a t → Calls compare items s t
  failure : ∀ {s e t}, m.run s = .error e t → FailsOn compare items s e t

namespace Consults

variable {γ : Type} {compare : StatefulComparison σ α ε} {items others : List α}
  {m : EStateM ε σ β} {f : β → EStateM ε σ γ} {p q : β → Prop} {r : γ → Prop}

theorem pure {a : β} (h : p a) : Consults compare items (Pure.pure a) p where
  value hrun := by
    cases hrun
    exact h
  calls hrun := by
    cases hrun
    exact .refl
  failure hrun := by cases hrun

theorem bind (h : Consults compare items m p) (hf : ∀ a, p a → Consults compare items (f a) r) :
    Consults compare items (m >>= f) r where
  value hrun := by
    obtain ⟨b, u, hb, hrun⟩ := run_bind_eq_ok_iff.mp hrun
    exact (hf b (h.value hb)).value hrun
  calls hrun := by
    obtain ⟨b, u, hb, hrun⟩ := run_bind_eq_ok_iff.mp hrun
    exact (h.calls hb).trans ((hf b (h.value hb)).calls hrun)
  failure hrun := by
    rcases run_bind_eq_error_iff.mp hrun with he | ⟨b, u, hb, hrun⟩
    · exact h.failure he
    · obtain ⟨v, hcalls, hfails⟩ := (hf b (h.value hb)).failure hrun
      exact ⟨v, (h.calls hb).trans hcalls, hfails⟩

theorem mono (h : Consults compare items m p) (hsub : items ⊆ others) (hp : ∀ a, p a → q a) :
    Consults compare others m q where
  value hrun := hp _ (h.value hrun)
  calls hrun := (h.calls hrun).mono hsub
  failure hrun := (h.failure hrun).mono hsub

theorem map {g : β → γ} (h : Consults compare items m p) (hg : ∀ a, p a → r (g a)) :
    Consults compare items (g <$> m) r := by
  rw [map_eq_pure_bind]
  exact h.bind fun a ha => .pure (hg a ha)

end Consults

variable {compare : StatefulComparison σ α ε}

theorem consults_compare {items : List α} {a b : α} (ha : a ∈ items) (hb : b ∈ items) :
    Consults compare items (compare a b) (fun _ => True) where
  value _ := trivial
  calls hrun := .single ⟨a, ha, b, hb, _, hrun⟩
  failure hrun := ⟨_, .refl, a, ha, b, hb, hrun⟩

theorem consults_insertBack (x : α) (done : List α) :
    Consults compare (x :: done) (insertBack compare x done)
      (fun moved => moved.Perm (x :: done)) := by
  induction done with
  | nil => exact .pure (.refl _)
  | cons y ys ih =>
      rw [insertBack_cons]
      refine (consults_compare (by simp) (by simp)).bind fun o _ => ?_
      split
      · have hsub : x :: ys ⊆ x :: y :: ys :=
          List.cons_subset_cons x (List.subset_cons_self y ys)
        exact (ih.mono hsub fun _ => id).map fun moved hmoved =>
          (hmoved.cons y).trans (.swap x y ys)
      · exact .pure (.refl _)

theorem consults_insertAll (rest done : List α) :
    Consults compare (done ++ rest) (insertAll compare done rest)
      (fun out => out.Perm (done.reverse ++ rest)) := by
  induction rest generalizing done with
  | nil =>
      refine .pure ?_
      rw [List.append_nil]
  | cons x rest ih =>
      have hmiddle : (x :: done) ++ rest |>.Perm (done ++ x :: rest) := List.perm_middle.symm
      have hsub : x :: done ⊆ done ++ x :: rest :=
        List.Subset.trans (List.subset_append_left _ rest) hmiddle.subset
      rw [insertAll]
      refine ((consults_insertBack x done).mono hsub fun _ => id).bind fun moved hmoved => ?_
      have hparts : moved ++ rest |>.Perm (done ++ x :: rest) :=
        (hmoved.append_right rest).trans hmiddle
      refine (ih moved).mono hparts.subset fun out hout => ?_
      calc
        out.Perm (moved.reverse ++ rest) := hout
        List.Perm _ (moved ++ rest) := (List.reverse_perm moved).append_right rest
        List.Perm _ (done ++ x :: rest) := hparts
        List.Perm _ (done.reverse ++ x :: rest) :=
          (List.reverse_perm done).symm.append_right (x :: rest)

theorem consults_merge (left right : List α) :
    Consults compare (left ++ right) (merge compare left right)
      (fun out => out.Perm (left ++ right)) := by
  induction left generalizing right with
  | nil =>
      rw [merge_nil_left]
      exact .pure (.refl _)
  | cons x left ih =>
      induction right with
      | nil =>
          rw [merge_nil_right, List.append_nil]
          exact .pure (.refl _)
      | cons y right ihr =>
          rw [merge_cons_cons]
          refine (consults_compare (by simp) (by simp)).bind fun o _ => ?_
          split
          · have hmiddle : y :: (x :: left ++ right) |>.Perm (x :: left ++ y :: right) :=
              List.perm_middle.symm
            have hsub := List.Subset.trans (List.subset_cons_self y _) hmiddle.subset
            exact (ihr.mono hsub fun _ => id).map fun out hout => (hout.cons y).trans hmiddle
          · have hsub := List.subset_cons_self x (left ++ y :: right)
            exact ((ih (y :: right)).mono hsub fun _ => id).map fun out hout => hout.cons x

/-- Merge sort gives a permutation of a run, or fails because the comparison does on two of its
elements. -/
theorem consults_mergeSort (run : List α) :
    Consults compare run (mergeSort compare run) (fun out => out.Perm run) := by
  induction run using mergeSort_induction with
  | short run hshort =>
      rw [mergeSort_short _ hshort]
      exact consults_insertAll run []
  | long run hlong ihleft ihright =>
      rw [mergeSort_long _ hlong]
      refine (ihleft.mono (List.take_subset _ _) fun _ => id).bind fun left hleft => ?_
      refine (ihright.mono (List.drop_subset _ _) fun _ => id).bind fun right hright => ?_
      have hparts : left ++ right |>.Perm run := by
        have happend := hleft.append hright
        rwa [List.take_append_drop] at happend
      exact (consults_merge left right).mono hparts.subset fun out hout => hout.trans hparts

end RecordQuery.Sorting
