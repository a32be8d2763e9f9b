import RecordQuery.Sorting.Insertion
import RecordQuery.Sorting.Rearrange

/-! # Stable sort

A merge sort of the positions of a list, with insertion sort for short runs. A run is sorted in
place with a scratch run of the same length, into which its sorted halves are merged. The list
itself is rearranged only after the last comparison, so a failed sort leaves it as it was.
-/

namespace RecordQuery.Sorting

variable {S T σ α β ε : Type} {n mid : Nat}

/-- The length up to which a run is sorted by insertion. -/
def insertionThreshold : Nat := 16

/-! ## A run and its scratch -/

/-- A run that is being sorted, and as much room to merge its halves. -/
structure Buffers (β : Type) (n : Nat) where
  run : Vector β n
  scratch : Vector β n

namespace Buffers

/-- The first `mid` places of both. -/
def front (b : Buffers β n) (hmid : mid ≤ n) : Buffers β mid :=
  ⟨(b.run.take mid).cast (Nat.min_eq_left hmid), (b.scratch.take mid).cast (Nat.min_eq_left hmid)⟩

/-- The places from `mid` on. -/
def back (b : Buffers β n) (mid : Nat) : Buffers β (n - mid) :=
  ⟨b.run.drop mid, b.scratch.drop mid⟩

/-- Both parts put together again. -/
def join (hmid : mid ≤ n) (f : Buffers β mid) (b : Buffers β (n - mid)) : Buffers β n :=
  ⟨(f.run ++ b.run).cast (Nat.add_sub_cancel' hmid),
    (f.scratch ++ b.scratch).cast (Nat.add_sub_cancel' hmid)⟩

/-- Writes an element into the scratch. -/
def write (b : Buffers β n) (i : Nat) (h : i < n) (x : β) : Buffers β n :=
  { b with scratch := b.scratch.set i x }

end Buffers

/-! ## Merging -/

/-- How far a merge has come: the next elements of both halves, and the next place in the scratch. -/
structure Cursors (mid n : Nat) where
  left : Nat
  right : Nat
  out : Nat
  left_le : left ≤ mid
  right_le : right ≤ n
  out_eq : out + mid = left + right

namespace Cursors

/-- Nothing is merged yet. -/
def start (hmid : mid ≤ n) : Cursors mid n := ⟨0, mid, 0, Nat.zero_le _, hmid, rfl⟩

/-- As long as the first half is not used up, there is a place for one element more. -/
theorem out_lt (c : Cursors mid n) (h : c.left < mid) : c.out < n := by
  have := c.out_eq
  have := c.right_le
  omega

/-- An element of the first half is taken. -/
def takeLeft (c : Cursors mid n) (h : c.left < mid) : Cursors mid n :=
  ⟨c.left + 1, c.right, c.out + 1, h, c.right_le, by have := c.out_eq; omega⟩

/-- An element of the second half is taken. -/
def takeRight (c : Cursors mid n) (h : c.right < n) : Cursors mid n :=
  ⟨c.left, c.right + 1, c.out + 1, c.left_le, h, by have := c.out_eq; omega⟩

end Cursors

/-- Merges the halves of a run into the scratch until one of them is used up. An element of the
second half goes first only if it compares less. -/
def mergeFrom (compare : StatefulComparison σ β ε) (hmid : mid ≤ n) (c : Cursors mid n) :
    EStateM ε (Buffers β n × σ) (Cursors mid n) :=
  if h : c.left < mid ∧ c.right < n then do
    have hleft := Nat.lt_of_lt_of_le h.1 hmid
    have hright := h.2
    let run := (← get).1.run
    match ← ask (compare run[c.right] run[c.left]) with
    | .lt =>
        modify fun s => (s.1.write c.out (c.out_lt h.1) run[c.right], s.2)
        mergeFrom compare hmid (c.takeRight h.2)
    | _ =>
        modify fun s => (s.1.write c.out (c.out_lt h.1) run[c.left], s.2)
        mergeFrom compare hmid (c.takeLeft h.1)
  else pure c
termination_by (mid - c.left) + (n - c.right)
decreasing_by
  all_goals simp only [Cursors.takeLeft, Cursors.takeRight]
  all_goals omega

/-- Copies elements of one list to places of another one of the same length. -/
def copySlice (source : Vector β n) : (count start place : Nat) → start + count ≤ n →
    place + count ≤ n → Vector β n → Vector β n
  | 0, _, _, _, _, target => target
  | count + 1, start, place, hstart, hplace, target =>
      copySlice source count (start + 1) (place + 1) (by omega) (by omega)
        (target.set place source[start])

/-- Copies what is left of both halves behind what is merged, and the scratch back into the run. -/
def Buffers.copyTails (b : Buffers β n) (hmid : mid ≤ n) (c : Cursors mid n) : Buffers β n :=
  have := c.out_eq
  have := c.left_le
  have := c.right_le
  let scratch := copySlice b.run (mid - c.left) c.left c.out (by omega) (by omega) b.scratch
  let scratch := copySlice b.run (n - c.right) c.right (c.out + (mid - c.left)) (by omega)
    (by omega) scratch
  ⟨scratch, scratch⟩

/-- Merges the halves of a run from the cursors on. -/
def mergeHalves (compare : StatefulComparison σ β ε) (hmid : mid ≤ n) (c : Cursors mid n) :
    EStateM ε (Buffers β n × σ) Unit := do
  let last ← mergeFrom compare hmid c
  modify fun s => (s.1.copyTails hmid last, s.2)

/-! ## The sort -/

/-- Merge sort of a run: its halves, each with its half of the scratch, and then their merge. -/
def sortRun (compare : StatefulComparison σ β ε) (n : Nat) : EStateM ε (Buffers β n × σ) Unit :=
  if hshort : n ≤ insertionThreshold then
    onPart Buffers.run (fun b run => { b with run }) (insertionSortSlice compare n)
  else do
    have hlong : 16 < n := by simpa [insertionThreshold] using hshort
    have hmid := Nat.div_le_self n 2
    onPart (·.front hmid) (fun b front => front.join hmid (b.back (n / 2)))
      (sortRun compare (n / 2))
    onPart (·.back (n / 2)) (fun b back => (b.front hmid).join hmid back)
      (sortRun compare (n - n / 2))
    mergeHalves compare hmid (.start hmid)
termination_by n
decreasing_by
  · exact Nat.div_lt_self (Nat.lt_trans (by decide) hlong) (by decide)
  · have hhalf : 0 < n / 2 := Nat.div_pos (Nat.le_trans (by decide) hlong) (by decide)
    exact Nat.sub_lt (Nat.lt_trans (by decide) hlong) hhalf

/-- The comparison of the elements at two positions. -/
def compareAt (compare : StatefulComparison σ α ε) (items : Vector α n) :
    StatefulComparison σ (Fin n) ε :=
  fun i j => compare items[i] items[j]

/-- The end of a run in place as that of a computation that gives what is seen of the last state. -/
def seen (view : S → T) : EStateM.Result ε (S × σ) β → EStateM.Result ε σ T
  | .ok _ s => .ok (view s.1) s.2
  | .error e s => .error e s.2

/-- The positions of a list in the order of its elements. -/
def sortPositions (compare : StatefulComparison σ α ε) (items : Vector α n) :
    EStateM ε σ (Vector (Fin n) n) := fun s =>
  let order := Vector.ofFn fun i => i
  seen Buffers.run ((sortRun (compareAt compare items) n).run (⟨order, order⟩, s))

/-- Puts a list in order in place, equal elements in the order in which they stood. -/
def stableSortInPlace (compare : StatefulComparison σ α ε) : EStateM ε (List α × σ) Unit := do
  let items := (← get).1
  if items.length < 2 then return ()
  else
    let order ← ask (sortPositions compare (slice items))
    modify fun s => (rearrange s.1 (order.toList.map Fin.val), s.2)

/-! ## Sorts without a state -/

/-- The list of an outcome without a failure. -/
def Outcome.toExcept (o : Outcome α ε) : Except ε (List α) :=
  match o.failure with
  | some e => .error e
  | none => .ok o.list

/-- What a stable sort leaves of a list. -/
def stableSortOutcome (compare : Comparison α ε) (items : List α) : Outcome α ε :=
  outcome (stableSortInPlace (stateless compare)) items

/-- The list in order, equal elements in the order in which they stood. -/
def stableSort (compare : Comparison α ε) (items : List α) : Except ε (List α) :=
  (stableSortOutcome compare items).toExcept

/-- The stable sort by a comparison that cannot fail. -/
def stableSortBy (compare : α → α → Ordering) (items : List α) : List α :=
  match stableSort (infallible compare : Comparison α Empty) items with
  | .ok sorted => sorted
  | .error e => nomatch e

end RecordQuery.Sorting
