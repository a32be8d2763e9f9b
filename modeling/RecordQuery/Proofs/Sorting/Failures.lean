import RecordQuery.Proofs.Results
import RecordQuery.Proofs.Sorting.Positions
import RecordQuery.Query.Order

/-! # Sorts by comparisons that fail or contradict themselves

Nothing is asked of the comparison here. It may change its mind between two calls, and it may fail
at any of them. The stable sort then leaves a permutation of the list or the list as it was, and
insertion sort leaves a permutation wherever it stops.
-/

namespace RecordQuery

namespace Sorting

variable {σ α ε : Type}

/-- The stable sort leaves a permutation of the list if it succeeds. It fails only where the
comparison does, and then it leaves the list as it was. -/
theorem stableSortInPlace_cases (compare : StatefulComparison σ α ε) (items : List α) (s : σ) :
    (∃ out t, (stableSortInPlace compare).run (items, s) = .ok () (out, t) ∧ out.Perm items) ∨
      ∃ e t, (stableSortInPlace compare).run (items, s) = .error e (items, t) ∧
        FailsOn compare items s e t := by
  have hsort : Consults compare items (mergeSort compare items) fun out => out.Perm items :=
    consults_mergeSort items
  cases hrun : (mergeSort compare items).run s with
  | ok out t => exact .inl ⟨out, t, run_stableSortInPlace_ok compare hrun, hsort.value hrun⟩
  | error e t =>
      exact .inr ⟨e, t, run_stableSortInPlace_error compare hrun, hsort.failure hrun⟩

/-- Insertion sort leaves a permutation of the list, and it fails only where the comparison does. -/
theorem insertionSortInPlace_cases (compare : StatefulComparison σ α ε) (items : List α) (s : σ) :
    (∃ out t, (insertionSortInPlace compare).run (items, s) = .ok () (out, t) ∧
      out.Perm items) ∨
      ∃ e out t, (insertionSortInPlace compare).run (items, s) = .error e (out, t) ∧
        out.Perm items ∧ FailsOn compare items s e t := by
  have hsort : Consults compare items (insertAll compare [] items) fun out => out.Perm items :=
    consults_insertAll items []
  cases hrun : (insertAll compare [] items).run s with
  | ok out t =>
      obtain ⟨_, _, hok, rfl⟩ := (leaves_insertionSortInPlace compare items).ok hrun
      exact .inl ⟨_, t, hok, hsort.value hrun⟩
  | error e t =>
      obtain ⟨out, herror⟩ := (leaves_insertionSortInPlace compare items).error hrun
      have hend := endsIn_insertionSortInPlace compare items s
      rw [herror] at hend
      exact .inr ⟨e, out, t, herror, hend, hsort.failure hrun⟩

theorem stateless_run_eq_error {compare : Comparison α ε} {a b : α} {e : ε} {s t : σ}
    (h : (stateless compare a b : EStateM ε σ Ordering).run s = .error e t) :
    compare a b = .error e := by
  rw [stateless] at h
  cases hcompare : compare a b with
  | ok o =>
      rw [hcompare] at h
      cases h
  | error e' =>
      rw [hcompare] at h
      cases h
      rfl

/-- The stable sort by a comparison without a state. -/
theorem stableSortOutcome_cases (compare : Comparison α ε) (items : List α) :
    (∃ out, stableSortOutcome compare items = ⟨out, none⟩ ∧ out.Perm items) ∨
      ∃ e, stableSortOutcome compare items = ⟨items, some e⟩ ∧
        ∃ a ∈ items, ∃ b ∈ items, compare a b = .error e := by
  rw [stableSortOutcome, outcome]
  rcases stableSortInPlace_cases (stateless compare) items () with
    ⟨out, t, hrun, hperm⟩ | ⟨e, t, hrun, u, -, a, ha, b, hb, hfails⟩
  · rw [hrun]
    exact .inl ⟨out, rfl, hperm⟩
  · rw [hrun]
    exact .inr ⟨e, rfl, a, ha, b, hb, stateless_run_eq_error hfails⟩

end Sorting

/-! ## Failures of comparators -/

/-- A comparator fails only if its key fails on one of the two records. -/
theorem Comparator.exists_key_error {c : Comparator} {a b : Value} {e : EvalError}
    (h : c.compare a b = .error e) : c.key.call a = .error e ∨ c.key.call b = .error e := by
  rcases bind_eq_error_iff.mp h with hleft | ⟨x, -, h⟩
  · exact .inl hleft
  · rcases bind_eq_error_iff.mp h with hright | ⟨y, -, h⟩
    · exact .inr hright
    · cases h

theorem Comparator.exists_of_compareAll_error {comparators : List Comparator} {a b : Value}
    {e : EvalError} (h : compareAll a b comparators = .error e) :
    ∃ c ∈ comparators, c.compare a b = .error e := by
  induction comparators with
  | nil => cases h
  | cons c rest ih =>
      rcases bind_eq_error_iff.mp h with hfails | ⟨x, -, h⟩
      · exact ⟨c, List.mem_cons_self, hfails⟩
      · split at h
        next => cases h
        next =>
          obtain ⟨c', hmem, hfails⟩ := ih h
          exact ⟨c', List.mem_cons_of_mem _ hmem, hfails⟩

/-- Records are sorted, or a key of one of them fails and they stand as they did. -/
theorem sortRowsInPlace_cases (comparators : List Comparator) (rows : List Value) :
    (∃ out, sortRowsInPlace comparators rows = ⟨out, none⟩ ∧ out.Perm rows) ∨
      ∃ e, sortRowsInPlace comparators rows = ⟨rows, some e⟩ ∧
        ∃ c ∈ comparators, ∃ row ∈ rows, c.key.call row = .error e := by
  rw [sortRowsInPlace]
  rcases Sorting.stableSortOutcome_cases (comparisonBy comparators) rows with
    hsorted | ⟨e, hrun, a, ha, b, hb, hfails⟩
  · exact .inl hsorted
  · obtain ⟨c, hc, hcompare⟩ := Comparator.exists_of_compareAll_error (map_eq_error_iff.mp hfails)
    refine .inr ⟨e, hrun, c, hc, ?_⟩
    rcases c.exists_key_error hcompare with hkey | hkey
    · exact ⟨a, ha, hkey⟩
    · exact ⟨b, hb, hkey⟩

namespace Sorting

/-- Whatever a comparison answers, whatever state it carries and wherever it fails: the stable sort
leaves a permutation of the list if it succeeds, and the list as it was if it fails, with the failure
of the comparison on two of the elements after the calls before it. So a sort of records leaves them
as they were if a key fails. Insertion sort leaves a permutation in either case. -/
theorem perm_or_unchanged {σ α ε : Type} (compare : StatefulComparison σ α ε) (items : List α)
    (s : σ) (comparators : List Comparator) (rows : List Value) :
    ((∃ out t, (stableSortInPlace compare).run (items, s) = .ok () (out, t) ∧ out.Perm items) ∨
      ∃ e t, (stableSortInPlace compare).run (items, s) = .error e (items, t) ∧
        FailsOn compare items s e t) ∧
    ((∃ out, sortRowsInPlace comparators rows = ⟨out, none⟩ ∧ out.Perm rows) ∨
      ∃ e, sortRowsInPlace comparators rows = ⟨rows, some e⟩ ∧
        ∃ c ∈ comparators, ∃ row ∈ rows, c.key.call row = .error e) ∧
    ((∃ out t, (insertionSortInPlace compare).run (items, s) = .ok () (out, t) ∧
      out.Perm items) ∨
      ∃ e out t, (insertionSortInPlace compare).run (items, s) = .error e (out, t) ∧
        out.Perm items ∧ FailsOn compare items s e t) :=
  ⟨stableSortInPlace_cases compare items s, sortRowsInPlace_cases comparators rows,
    insertionSortInPlace_cases compare items s⟩

-- A comparison that counts its calls and fails at the second one.
example :
    let counting : StatefulComparison Nat Nat String := fun a b => do
      let calls ← get
      if calls = 1 then throw "stop"
      set (calls + 1)
      return compare a b
    (stableSortInPlace counting).run ([3, 2, 1], 0) = .error "stop" ([3, 2, 1], 1) ∧
      (insertionSortInPlace counting).run ([3, 2, 1], 0) = .error "stop" ([2, 3, 1], 1) :=
  ⟨by cbv, by cbv⟩

end Sorting

end RecordQuery
