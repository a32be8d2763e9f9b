/-! # Insertion sort

Each element moves to the left past its neighbours as long as they compare greater, so equal
elements keep their order. The list is sorted in place. The comparison may fail, it may carry a
state from one call to the next, and it need not be consistent: a failure stops the sort and leaves
the list as it is then.
-/

namespace RecordQuery.Sorting

/-- A comparison that may fail and that may carry a state from one call to the next. -/
abbrev StatefulComparison (σ α ε : Type) := α → α → EStateM ε σ Ordering

/-- A comparison that may fail and has no state. -/
abbrev Comparison (α ε : Type) := α → α → Except ε Ordering

variable {S T σ α β ε : Type} {n : Nat}

/-- A comparison that cannot fail. -/
def infallible (compare : α → α → Ordering) : Comparison α ε :=
  fun a b => .ok (compare a b)

/-- A comparison without a state, where one with a state may stand. -/
def stateless (compare : Comparison α ε) : StatefulComparison σ α ε :=
  fun a b => MonadExcept.ofExcept (compare a b)

/-! ## States of a sort -/

/-- The same end of a run, with its last state seen otherwise. -/
def mapState (f : T → S) : EStateM.Result ε T β → EStateM.Result ε S β
  | .ok a t => .ok a (f t)
  | .error e t => .error e (f t)

/-- Runs a computation on a part of what is in place. If it fails, what it has done there stays. -/
def onPart (part : S → T) (put : S → T → S) (m : EStateM ε (T × σ) β) : EStateM ε (S × σ) β :=
  fun s => mapState (fun t => (put s.1 t.1, t.2)) (m (part s.1, s.2))

/-- Asks the comparison, whose state stands beside what is in place. -/
def ask (m : EStateM ε σ β) : EStateM ε (S × σ) β :=
  fun s => mapState (s.1, ·) (m s.2)

/-! ## The sort -/

/-- Moves the element at a position to the left, by exchanges with its neighbour there as long as
that one compares greater. -/
def sink (compare : StatefulComparison σ α ε) :
    (j : Nat) → j < n → EStateM ε (Vector α n × σ) Unit
  | 0, _ => pure ()
  | j + 1, h => do
      have hj := Nat.lt_of_succ_lt h
      let items := (← get).1
      match ← ask (compare items[j] items[j + 1]) with
      | .gt =>
          modify fun s => (s.1.swap j (j + 1), s.2)
          sink compare j hj
      | _ => pure ()

/-- Moves each element from position `i` on to its place among those before it. -/
def insertFrom (compare : StatefulComparison σ α ε) :
    (count i : Nat) → i + count = n → EStateM ε (Vector α n × σ) Unit
  | 0, _, _ => pure ()
  | count + 1, i, h => do
      sink compare i (by omega)
      insertFrom compare count (i + 1) (by omega)

/-- Insertion sort of a list of fixed length. -/
def insertionSortSlice (compare : StatefulComparison σ α ε) :
    (n : Nat) → EStateM ε (Vector α n × σ) Unit
  | 0 => pure ()
  | n + 1 => insertFrom compare n 1 (Nat.add_comm 1 n)

/-- A list as one of fixed length. -/
def slice (items : List α) : Vector α items.length := ⟨items.toArray, rfl⟩

/-- Runs a computation on a list, whose length does not change. -/
def onSlice (m : (n : Nat) → EStateM ε (Vector α n × σ) Unit) : EStateM ε (List α × σ) Unit :=
  fun s => mapState (Prod.map Vector.toList id) (m s.1.length (slice s.1, s.2))

/-- Sorts a list in place by insertion. -/
def insertionSortInPlace (compare : StatefulComparison σ α ε) : EStateM ε (List α × σ) Unit :=
  onSlice (insertionSortSlice compare)

/-! ## Sorts without a state -/

/-- A list as a sort left it, and the failure that stopped the sort, if one did. -/
structure Outcome (α ε : Type) where
  list : List α
  failure : Option ε

/-- What a sort in place leaves of a list. -/
def outcome (sort : EStateM ε (List α × Unit) Unit) (items : List α) : Outcome α ε :=
  match sort.run (items, ()) with
  | .ok _ s => ⟨s.1, none⟩
  | .error e s => ⟨s.1, some e⟩

def insertionSort (compare : Comparison α ε) (items : List α) : Outcome α ε :=
  outcome (insertionSortInPlace (stateless compare)) items

/-- Insertion sort by a comparison that cannot fail. -/
def insertionSortBy (compare : α → α → Ordering) (items : List α) : List α :=
  (insertionSort (infallible compare : Comparison α Empty) items).list

end RecordQuery.Sorting
