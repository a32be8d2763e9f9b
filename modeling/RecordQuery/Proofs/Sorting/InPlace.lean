import Mathlib
import RecordQuery.Proofs.Sorting.Lists

/-! # The sorts in place

A sort in place leaves the list that the sort as a function of lists gives, with the same failure and
the same state of the comparison. The exchanges of an insertion build the list from both sides of
the element that moves. A merge has at every moment written the elements that are in front of both
cursors, and the tails of both halves are what it has left over.
-/

namespace RecordQuery.Sorting

variable {S T σ α β γ δ ε : Type} {n mid : Nat}

theorem run_ask (m : EStateM ε σ β) (v : S) (s : σ) :
    (ask m).run (v, s) = mapState (v, ·) (m.run s) := rfl

/-! ## Computations in place -/

/-- Where `l` gives a value, a computation that starts in place from `v` gives another value and
leaves something in place, both related to it. The comparison ends in the same state, and `l` fails
where the computation does. -/
structure Leaves (R : γ → S → β → Prop) (m : EStateM ε (S × σ) γ) (v : S) (l : EStateM ε σ β) :
    Prop where
  ok : ∀ {s b t}, l.run s = .ok b t → ∃ a w, m.run (v, s) = .ok a (w, t) ∧ R a w b
  error : ∀ {s e t}, l.run s = .error e t → ∃ w, m.run (v, s) = .error e (w, t)

namespace Leaves

variable {R : γ → S → β → Prop} {R' : δ → S → T → Prop} {m m' : EStateM ε (S × σ) γ} {v : S}
  {l : EStateM ε σ β}

theorem of_run_eq (hrun : ∀ s, m.run (v, s) = m'.run (v, s)) (h : Leaves R m' v l) :
    Leaves R m v l where
  ok hl := by simpa only [hrun] using h.ok hl
  error hl := by simpa only [hrun] using h.error hl

theorem of_run_ok {a : γ} {w : S} {b : β} (hrun : ∀ s, m.run (v, s) = .ok a (w, s))
    (h : R a w b) : Leaves R m v (Pure.pure b) where
  ok hl := by
    cases hl
    exact ⟨a, w, hrun _, h⟩
  error hl := by cases hl

theorem pure {a : γ} {b : β} (h : R a v b) :
    Leaves R (Pure.pure a) v (Pure.pure b : EStateM ε σ β) :=
  .of_run_ok (fun _ => rfl) h

theorem bind {k : γ → EStateM ε (S × σ) δ} {k' : β → EStateM ε σ T} (h : Leaves R m v l)
    (hk : ∀ a w b, R a w b → Leaves R' (k a) w (k' b)) : Leaves R' (m >>= k) v (l >>= k') where
  ok hl := by
    obtain ⟨b, u, hb, hl⟩ := run_bind_eq_ok_iff.mp hl
    obtain ⟨a, w, hm, hR⟩ := h.ok hb
    obtain ⟨c, x, hc, hR'⟩ := (hk a w b hR).ok hl
    exact ⟨c, x, run_bind_eq_ok_iff.mpr ⟨a, _, hm, hc⟩, hR'⟩
  error hl := by
    rcases run_bind_eq_error_iff.mp hl with he | ⟨b, u, hb, hl⟩
    · obtain ⟨w, hm⟩ := h.error he
      exact ⟨w, run_bind_eq_error_iff.mpr (.inl hm)⟩
    · obtain ⟨a, w, hm, hR⟩ := h.ok hb
      obtain ⟨x, hx⟩ := (hk a w b hR).error hl
      exact ⟨x, run_bind_eq_error_iff.mpr (.inr ⟨a, _, hm, hx⟩)⟩

theorem map {P : γ → S → T → Prop} {f : β → T} (h : Leaves R m v l)
    (hP : ∀ a w b, R a w b → P a w (f b)) : Leaves P m v (f <$> l) := by
  rw [map_eq_pure_bind, ← bind_pure m]
  exact h.bind fun a w b hR => .pure (hP a w b hR)

theorem mono {P : γ → S → β → Prop} (h : Leaves R m v l) (hP : ∀ a w b, R a w b → P a w b) :
    Leaves P m v l :=
  id_map l ▸ h.map hP

/-- A call of the comparison changes nothing in place. -/
theorem ask (l : EStateM ε σ β) (v : S) : Leaves (fun a w b => a = b ∧ w = v) (ask l) v l where
  ok {s b t} hl := ⟨b, v, by rw [run_ask, hl]; rfl, rfl, rfl⟩
  error {s e t} hl := ⟨v, by rw [run_ask, hl]; rfl⟩

/-- A change in place, before the rest. -/
theorem modify_bind {k : Unit → EStateM ε (S × σ) γ} (f : S → S) (h : Leaves R (k ()) (f v) l) :
    Leaves R (modify (fun s => (f s.1, s.2)) >>= k) v l :=
  ⟨h.ok, h.error⟩

/-- What is done to a part is done to the whole. -/
theorem onPart {P : γ → T → β → Prop} (part : S → T) (put : S → T → S)
    {m : EStateM ε (T × σ) γ} (h : Leaves P m (part v) l) :
    Leaves (fun a w b => ∃ x, w = put v x ∧ P a x b) (onPart part put m) v l where
  ok hl := by
    obtain ⟨a, x, hm, hP⟩ := h.ok hl
    exact ⟨a, put v x, congrArg (mapState _) hm, x, rfl, hP⟩
  error hl := by
    obtain ⟨x, hm⟩ := h.error hl
    exact ⟨put v x, congrArg (mapState _) hm⟩

end Leaves

/-! ## Insertion -/

/-- Two neighbours exchanged. -/
theorem toList_swap_succ {items : Vector α n} {j : Nat} (h : j + 1 < n) {front back : List α}
    {x y : α} (hitems : items.toList = front ++ y :: x :: back) (hfront : front.length = j) :
    (items.swap j (j + 1)).toList = front ++ x :: y :: back := by
  have hy : items[j] = y := by simp [← Vector.getElem_toList, hitems, ← hfront]
  have hx : items[j + 1] = x := by simp [← Vector.getElem_toList, hitems, ← hfront]
  rw [Vector.toList_swap, hitems, hx, hy]
  simp [← hfront]

variable (compare : StatefulComparison σ α ε)

/-- One step of an insertion, with `y` on the left of the element `x` that moves. -/
theorem run_sink_succ {j : Nat} (hj : j < n) (h : j + 1 < n) {items : Vector α n} (s : σ)
    {x y : α} (hy : items[j]? = some y) (hx : items[j + 1]? = some x) :
    (sink compare (j + 1) h).run (items, s) =
      (ask (compare y x) >>= fun o =>
        if o = .gt then
          modify (fun s => (s.1.swap j (j + 1) hj h, s.2)) >>= fun _ => sink compare j hj
        else pure ()).run (items, s) := by
  obtain ⟨-, rfl⟩ := Vector.getElem?_eq_some_iff.mp hy
  obtain ⟨-, rfl⟩ := Vector.getElem?_eq_some_iff.mp hx
  rw [sink, EStateM.run_bind, EStateM.run_get]
  refine congrArg (fun k => EStateM.run (ask (compare _ _) >>= k) (items, s)) ?_
  funext o
  cases o <;> rfl

/-- Moving an element leftwards by exchanges inserts it into the list before it. -/
theorem leaves_sink (done : List α) {x : α} {rest : List α} {j : Nat} (h : j < n)
    {items : Vector α n} (hitems : items.toList = done.reverse ++ x :: rest)
    (hdone : done.length = j) :
    Leaves (fun _ items moved => items.toList = moved.reverse ++ rest) (sink compare j h) items
      (insertBack compare x done) := by
  induction done generalizing j rest items with
  | nil =>
      obtain rfl : 0 = j := hdone
      rw [sink]
      exact .pure hitems
  | cons y ys ih =>
      obtain rfl : ys.length + 1 = j := hdone
      have hfront : items.toList = ys.reverse ++ y :: x :: rest := by simpa using hitems
      have hlength : ys.reverse.length = ys.length := List.length_reverse
      have hy : items[ys.length]? = some y := by simp [← Vector.getElem?_toList, hfront]
      have hx : items[ys.length + 1]? = some x := by simp [← Vector.getElem?_toList, hfront]
      rw [insertBack_cons]
      refine .of_run_eq (fun s => run_sink_succ compare (Nat.lt_of_succ_lt h) h s hy hx) ?_
      refine (Leaves.ask _ _).bind ?_
      rintro o _ _ ⟨rfl, rfl⟩
      split
      · refine .modify_bind (fun items : Vector α n => items.swap ys.length (ys.length + 1)) ?_
        refine (ih _ (toList_swap_succ h hfront hlength) rfl).map fun _ items moved hmoved => ?_
        simpa using hmoved
      · exact .pure (by simpa using hitems)

theorem leaves_insertFrom (count : Nat) {done rest : List α} {i : Nat} (h : i + count = n)
    {items : Vector α n} (hitems : items.toList = done.reverse ++ rest) (hdone : done.length = i) :
    Leaves (fun _ items out => items.toList = out) (insertFrom compare count i h) items
      (insertAll compare done rest) := by
  have hlength : done.length + rest.length = n := by
    simpa [hitems] using items.length_toList
  induction count generalizing i done rest items with
  | zero =>
      obtain rfl : rest = [] := List.eq_nil_of_length_eq_zero (by omega)
      rw [insertFrom, insertAll]
      exact .pure (hitems.trans (List.append_nil _))
  | succ count ih =>
      obtain ⟨x, rest, rfl⟩ : ∃ x others, rest = x :: others :=
        List.exists_cons_of_length_pos (by omega)
      rw [insertFrom, insertAll]
      refine (leaves_sink compare done (by omega) hitems hdone).bind ?_
      intro _ items moved hmoved
      have hparts : moved.length + rest.length = n := by
        simpa [hmoved] using items.length_toList
      rw [List.length_cons] at hlength
      exact ih _ hmoved (by omega) hparts

/-- Insertion sort in place inserts all elements, one after the other. -/
theorem leaves_insertionSortSlice (items : Vector α n) :
    Leaves (fun _ items out => items.toList = out) (insertionSortSlice compare n) items
      (insertAll compare [] items.toList) := by
  cases n with
  | zero =>
      obtain rfl : items = #v[] := Vector.eq_empty
      exact .pure rfl
  | succ n =>
      obtain ⟨x, rest, hitems⟩ := List.exists_cons_of_length_eq_add_one items.length_toList
      have hfirst : insertAll compare [] (x :: rest) = insertAll compare [x] rest := by
        rw [insertAll, insertBack, pure_bind]
      rw [insertionSortSlice, hitems, hfirst]
      exact leaves_insertFrom compare n _ hitems rfl

theorem run_insertionSortInPlace (items : List α) (s : σ) :
    (insertionSortInPlace compare).run (items, s) =
      mapState (Prod.map Vector.toList id)
        ((insertionSortSlice compare items.length).run (slice items, s)) := rfl

/-- Insertion sort of a list leaves what inserting its elements gives. -/
theorem leaves_insertionSortInPlace (items : List α) :
    Leaves (fun _ items out => items = out) (insertionSortInPlace compare) items
      (insertAll compare [] items) where
  ok hl := by
    obtain ⟨_, v, hv, hout⟩ := (leaves_insertionSortSlice compare (slice items)).ok hl
    exact ⟨(), v.toList, by rw [run_insertionSortInPlace, hv]; rfl, hout⟩
  error hl := by
    obtain ⟨v, hv⟩ := (leaves_insertionSortSlice compare (slice items)).error hl
    exact ⟨v.toList, by rw [run_insertionSortInPlace, hv]; rfl⟩

/-! ## Insertion that fails -/

/-- The state in which a run ends, whether or not it fails. -/
def last : EStateM.Result ε S β → S
  | .ok _ s => s
  | .error _ s => s

/-- However a computation from one state in place ends, it leaves one with a property. -/
def EndsIn (P : S → Prop) (m : EStateM ε (S × σ) γ) (v : S) : Prop :=
  ∀ s, P (last (m.run (v, s))).1

theorem EndsIn.bind {P : S → Prop} {m : EStateM ε (S × σ) γ} {k : γ → EStateM ε (S × σ) δ} {v : S}
    (h : EndsIn P m v) (hk : ∀ a w, P w → EndsIn P (k a) w) : EndsIn P (m >>= k) v := by
  intro s
  have hend := h s
  rw [EStateM.run_bind]
  cases hrun : m.run (v, s) with
  | ok a t =>
      rw [hrun] at hend
      exact hk a t.1 hend t.2
  | error e t =>
      rw [hrun] at hend
      exact hend

theorem EndsIn.ask {P : S → Prop} (m : EStateM ε σ β) {v : S} (h : P v) : EndsIn P (ask m) v := by
  intro s
  rw [run_ask]
  cases m.run s <;> exact h

/-- What exchanges of neighbours keep, an insertion keeps. -/
theorem endsIn_sink {P : Vector α n → Prop}
    (hswap : ∀ items j h, P items → P (items.swap j (j + 1) (Nat.lt_of_succ_lt h) h)) {j : Nat}
    (h : j < n) {items : Vector α n} (hitems : P items) : EndsIn P (sink compare j h) items := by
  induction j generalizing items with
  | zero =>
      rw [sink]
      exact fun s => hitems
  | succ j ih =>
      have hj := Nat.lt_of_succ_lt h
      have hy : items[j]? = some items[j] := Vector.getElem?_eq_getElem hj
      have hx : items[j + 1]? = some items[j + 1] := Vector.getElem?_eq_getElem h
      intro s
      rw [run_sink_succ compare hj h s hy hx]
      refine (EndsIn.ask _ hitems).bind (fun o w hw => ?_) s
      split
      · exact fun s => ih hj (hswap w j h hw) s
      · exact fun s => hw

theorem endsIn_insertFrom {P : Vector α n → Prop}
    (hswap : ∀ items j h, P items → P (items.swap j (j + 1) (Nat.lt_of_succ_lt h) h))
    (count : Nat) {i : Nat} (h : i + count = n) {items : Vector α n} (hitems : P items) :
    EndsIn P (insertFrom compare count i h) items := by
  induction count generalizing i items with
  | zero =>
      rw [insertFrom]
      exact fun s => hitems
  | succ count ih =>
      rw [insertFrom]
      exact (endsIn_sink compare hswap _ hitems).bind fun _ w hw => ih _ hw

theorem endsIn_insertionSortSlice (items : Vector α n) :
    EndsIn (fun out => out.toList.Perm items.toList) (insertionSortSlice compare n) items := by
  have hswap : ∀ (out : Vector α n) j (h : j + 1 < n), out.toList.Perm items.toList →
      (out.swap j (j + 1) (Nat.lt_of_succ_lt h) h).toList.Perm items.toList := fun out j h hout =>
    (Vector.perm_iff_toList_perm.mp (Vector.swap_perm _ h)).trans hout
  cases n with
  | zero => exact fun s => .refl _
  | succ n => exact endsIn_insertFrom compare hswap n _ (.refl _)

/-- Insertion sort leaves a permutation of the list, whether or not it fails. -/
theorem endsIn_insertionSortInPlace (items : List α) :
    EndsIn (fun out => out.Perm items) (insertionSortInPlace compare) items := by
  intro s
  have hend := endsIn_insertionSortSlice compare (slice items) s
  rw [run_insertionSortInPlace]
  cases hrun : (insertionSortSlice compare items.length).run (slice items, s) with
  | ok a t =>
      rw [hrun] at hend
      exact hend
  | error e t =>
      rw [hrun] at hend
      exact hend

/-! ## Merging -/

/-- Copying puts a stretch of one list in the place of a stretch of the other. -/
theorem toList_copySlice (source : Vector β n) (count : Nat) {start place : Nat}
    (hstart : start + count ≤ n) (hplace : place + count ≤ n) (target : Vector β n) :
    (copySlice source count start place hstart hplace target).toList =
      target.toList.take place ++ (source.toList.drop start).take count ++
        target.toList.drop (place + count) := by
  induction count generalizing start place target with
  | zero => simp [copySlice]
  | succ count ih =>
      have hsource : source.toList.drop start = source[start] :: source.toList.drop (start + 1) := by
        rw [List.drop_eq_getElem_cons (by simp; omega), Vector.getElem_toList]
      have hwritten : (target.toList.set place source[start]).take (place + 1) =
          target.toList.take place ++ [source[start]] := by
        rw [List.take_add_one, List.take_set_of_le (Nat.le_refl place)]
        simp [show place < n by omega]
      have hbehind : (target.toList.set place source[start]).drop (place + 1 + count) =
          target.toList.drop (place + (count + 1)) := by
        rw [List.drop_set_of_lt (by omega)]
        congr 1
        omega
      rw [copySlice, ih, Vector.toList_set, hwritten, hbehind, hsource]
      simp

/-- The tails of both halves go behind what is merged. -/
theorem toList_copyTails (b : Buffers β n) (hmid : mid ≤ n) (c : Cursors mid n) :
    (b.copyTails hmid c).run.toList = b.scratch.toList.take c.out ++
      ((b.run.toList.take mid).drop c.left ++ b.run.toList.drop c.right) := by
  have hout := c.out_eq
  have hleft := c.left_le
  have hright := c.right_le
  have hlength : (b.scratch.toList.take c.out ++ (b.run.toList.take mid).drop c.left).length =
      c.out + (mid - c.left) := by
    simp
    omega
  have hend : c.out + (mid - c.left) + (n - c.right) = n := by omega
  have htail : (b.run.toList.drop c.right).take (n - c.right) = b.run.toList.drop c.right := by
    rw [List.take_of_length_le (by simp)]
  rw [Buffers.copyTails]
  simp only [toList_copySlice, hend, htail, ← List.drop_take]
  rw [List.take_left' hlength, List.drop_eq_nil_of_le (i := n) (by simp; omega), List.append_nil,
    List.append_assoc]

/-- Writing an element that is taken puts it behind what is merged. -/
theorem take_write (b : Buffers β n) {i : Nat} (h : i < n) (x : β) :
    (b.write i h x).scratch.toList.take (i + 1) = b.scratch.toList.take i ++ [x] := by
  rw [Buffers.write, Vector.toList_set, List.take_add_one, List.take_set_of_le (Nat.le_refl i)]
  simp [h]

variable (hmid : mid ≤ n)

/-- One step of a merge, with `x` and `y` at the cursors. -/
theorem run_mergeHalves {b : Buffers α n} {c : Cursors mid n} (s : σ) (hleft : c.left < mid)
    (hright : c.right < n) {x y : α} (hx : b.run[c.left]? = some x)
    (hy : b.run[c.right]? = some y) :
    (mergeHalves compare hmid c).run (b, s) =
      (ask (compare y x) >>= fun o =>
        if o = .lt then
          modify (fun s => (s.1.write c.out (c.out_lt hleft) y, s.2)) >>= fun _ =>
            mergeHalves compare hmid (c.takeRight hright)
        else
          modify (fun s => (s.1.write c.out (c.out_lt hleft) x, s.2)) >>= fun _ =>
            mergeHalves compare hmid (c.takeLeft hleft)).run (b, s) := by
  obtain ⟨-, rfl⟩ := Vector.getElem?_eq_some_iff.mp hx
  obtain ⟨-, rfl⟩ := Vector.getElem?_eq_some_iff.mp hy
  rw [mergeHalves, mergeFrom, dif_pos ⟨hleft, hright⟩, bind_assoc, EStateM.run_bind,
    EStateM.run_get]
  dsimp only
  rw [bind_assoc]
  refine congrArg (fun k => EStateM.run (ask (compare _ _) >>= k) (b, s)) ?_
  funext o
  cases o <;> rfl

/-- The end of a merge, with one half used up. -/
theorem run_mergeHalves_of_not {b : Buffers α n} {c : Cursors mid n} (s : σ)
    (h : ¬ (c.left < mid ∧ c.right < n)) :
    (mergeHalves compare hmid c).run (b, s) = .ok () (b.copyTails hmid c, s) := by
  rw [mergeHalves, mergeFrom, dif_neg h]
  rfl

/-- The element at a cursor is the first one of what is behind it. -/
theorem drop_eq_cons_of_getElem? {l : List α} {i : Nat} {x : α} (h : l[i]? = some x) :
    l.drop i = x :: l.drop (i + 1) := by
  obtain ⟨hi, rfl⟩ := List.getElem?_eq_some_iff.mp h
  exact List.drop_eq_getElem_cons hi

/-- Merging in place from the cursors on writes the merge of what is behind them. -/
theorem leaves_mergeHalves (c : Cursors mid n) (b : Buffers α n) :
    Leaves (fun _ b' out => b'.run.toList = b.scratch.toList.take c.out ++ out)
      (mergeHalves compare hmid c) b
      (merge compare ((b.run.toList.take mid).drop c.left) (b.run.toList.drop c.right)) := by
  induction c using mergeFrom.induct hmid generalizing b with
  | case1 c h hleft hright ihright ihleft =>
      obtain ⟨x, hx⟩ : ∃ x, b.run[c.left]? = some x := ⟨_, Vector.getElem?_eq_getElem hleft⟩
      obtain ⟨y, hy⟩ : ∃ y, b.run[c.right]? = some y := ⟨_, Vector.getElem?_eq_getElem hright⟩
      have hfirst : (b.run.toList.take mid).drop c.left =
          x :: (b.run.toList.take mid).drop (c.left + 1) := by
        apply drop_eq_cons_of_getElem?
        rw [List.getElem?_take_of_lt h.1, Vector.getElem?_toList, hx]
      have hsecond : b.run.toList.drop c.right = y :: b.run.toList.drop (c.right + 1) := by
        apply drop_eq_cons_of_getElem?
        rw [Vector.getElem?_toList, hy]
      rw [hfirst, hsecond, merge_cons_cons]
      refine .of_run_eq (fun s => run_mergeHalves compare hmid s h.1 h.2 hx hy) ?_
      refine (Leaves.ask _ _).bind ?_
      rintro o _ _ ⟨rfl, rfl⟩
      split
      · refine .modify_bind (fun b : Buffers α n => b.write c.out (c.out_lt h.1) y) ?_
        rw [← hfirst]
        refine (ihright _).map fun _ b' out hout => ?_
        simpa [take_write, Cursors.takeRight] using hout
      · refine .modify_bind (fun b : Buffers α n => b.write c.out (c.out_lt h.1) x) ?_
        rw [← hsecond]
        refine (ihleft _).map fun _ b' out hout => ?_
        simpa [take_write, Cursors.takeLeft] using hout
  | case2 c h =>
      have hnil : (b.run.toList.take mid).drop c.left = [] ∨ b.run.toList.drop c.right = [] := by
        have := c.left_le
        have := c.right_le
        rcases Nat.lt_or_ge c.left mid with hlt | hge
        · exact .inr (List.drop_eq_nil_of_le (by simp; omega))
        · exact .inl (List.drop_eq_nil_of_le (by simp; omega))
      have hmerge : merge compare ((b.run.toList.take mid).drop c.left)
          (b.run.toList.drop c.right) =
            pure ((b.run.toList.take mid).drop c.left ++ b.run.toList.drop c.right) := by
        rcases hnil with hnil | hnil
        · rw [hnil, merge_nil_left, List.nil_append]
        · rw [hnil, merge_nil_right, List.append_nil]
      rw [hmerge]
      exact .of_run_ok (fun s => run_mergeHalves_of_not compare hmid s h) (toList_copyTails b hmid c)

/-! ## Merge sort -/

@[simp] theorem toList_front (b : Buffers β n) (hmid : mid ≤ n) :
    (b.front hmid).run.toList = b.run.toList.take mid := by
  rw [Buffers.front, Vector.toList_cast, Vector.toList_take]

@[simp] theorem toList_back (b : Buffers β n) (mid : Nat) :
    (b.back mid).run.toList = b.run.toList.drop mid := by
  rw [Buffers.back, Vector.toList_drop]

@[simp] theorem toList_join (hmid : mid ≤ n) (f : Buffers β mid) (b : Buffers β (n - mid)) :
    (f.join hmid b).run.toList = f.run.toList ++ b.run.toList := by
  rw [Buffers.join, Vector.toList_cast, Vector.toList_append]

/-- Merge sort in place of a run, whatever stands in the scratch. -/
theorem leaves_sortRun (b : Buffers α n) :
    Leaves (fun _ b' out => b'.run.toList = out) (sortRun compare n) b
      (mergeSort compare b.run.toList) := by
  induction n using sortRun.induct with
  | case1 n hshort =>
      rw [sortRun, dif_pos hshort, mergeSort_short _ (by simpa using hshort)]
      refine (Leaves.onPart Buffers.run _ (leaves_insertionSortSlice compare b.run)).mono ?_
      rintro _ _ out ⟨run, rfl, hrun⟩
      exact hrun
  | case2 n hlong hlong' hmid ihfront ihback =>
      rw [sortRun, dif_neg hlong, mergeSort_long _ (by simpa using hlong), Vector.length_toList]
      dsimp only
      have hfront := ihfront (b.front hmid)
      rw [toList_front] at hfront
      refine (Leaves.onPart (fun b : Buffers α n => b.front hmid) _ hfront).bind ?_
      rintro _ _ left ⟨f, rfl, rfl⟩
      have hlength : f.run.toList.length = n / 2 := f.run.length_toList
      have hback := ihback ((f.join hmid (b.back (n / 2))).back (n / 2))
      rw [toList_back, toList_join, toList_back, List.drop_left' hlength] at hback
      refine (Leaves.onPart (fun b : Buffers α n => b.back (n / 2)) _ hback).bind ?_
      rintro _ _ right ⟨g, rfl, rfl⟩
      have hmerge := leaves_mergeHalves compare hmid (.start hmid)
        (((f.join hmid (b.back (n / 2))).front hmid).join hmid g)
      simpa [Cursors.start, List.take_left' hlength, List.drop_left' hlength] using hmerge

end RecordQuery.Sorting
