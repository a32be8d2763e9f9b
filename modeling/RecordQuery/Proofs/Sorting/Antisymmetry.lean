import RecordQuery.Proofs.Floats.Differences
import RecordQuery.Proofs.Results
import RecordQuery.Query.Order

/-! # Comparisons the other way round

If two records change places, the number by which comparators order them changes its sign, whatever
the kinds of the keys. Keys that do not compare count as equal in both directions: a difference of
two infinities is NaN both ways, as is one with a value that is no number.
-/

namespace RecordQuery

/-! ## Values -/

theorem compareText_swap (s t : String) : compareText t s = (compareText s t).swap :=
  Std.OrientedOrd.eq_swap (α := String)

theorem compareFloat?_eq_compare (x y : Float) :
    compareFloat? x y = x.toModel.unpack.compare y.toModel.unpack := by
  have hbeq : (x == y) = (x.toModel.unpack.compare y.toModel.unpack == some .eq) := rfl
  simp only [compareFloat?, Binary.gt_iff_compare (x := x), Binary.lt_iff_compare (x := x), hbeq]
  rcases x.toModel.unpack.compare y.toModel.unpack with _ | _ | _ | _ <;> rfl

theorem compareFloat?_swap (x y : Float) :
    compareFloat? y x = (compareFloat? x y).map Ordering.swap := by
  rw [compareFloat?_eq_compare, compareFloat?_eq_compare, Binary.compare_swap]

theorem Value.compare?_swap (a b : Value) :
    b.compare? a = (a.compare? b).map Ordering.swap := by
  rw [compare?, compare?]
  generalize a.primitive = p
  generalize b.primitive = q
  split
  next s t => exact congrArg some (compareText_swap t s)
  next hne =>
    rw [compareFloat?_swap]
    split
    next s t => exact absurd rfl (hne t s rfl)
    next => rfl

/-! ## Orders -/

/-- Two numbers put records in opposite orders. -/
structure OppositeSigns (x y : Float) : Prop where
  lt_iff : x < 0.0 ↔ 0.0 < y
  gt_iff : 0.0 < x ↔ y < 0.0

namespace OppositeSigns

variable {x y : Float}

theorem decides_iff (h : OppositeSigns x y) : (x < 0.0 ∨ 0.0 < x) ↔ (y < 0.0 ∨ 0.0 < y) := by
  rw [h.lt_iff, h.gt_iff, or_comm]

/-- A number that is opposite to itself puts records in no order. -/
theorem not_decides (h : OppositeSigns x x) : ¬ (x < 0.0 ∨ 0.0 < x) := by
  rintro (hlt | hgt)
  · exact Binary.not_lt_of_lt hlt (h.lt_iff.mp hlt)
  · exact Binary.not_lt_of_lt hgt (h.gt_iff.mp hgt)

theorem sub (x y : Float) : OppositeSigns (x - y) (y - x) :=
  ⟨Binary.sub_lt_zero_iff x y, (Binary.sub_lt_zero_iff y x).symm⟩

end OppositeSigns

namespace Order

theorem ascending_swap (a b : Value) : ascending b a = -ascending a b := by
  rw [ascending, Value.compare?_swap a b, ascending]
  rcases a.compare? b with _ | _ | _ | _ <;> rfl

theorem oppositeSigns_ascending (a b : Value) :
    OppositeSigns (Float.ofInt (ascending a b)) (Float.ofInt (-ascending a b)) := by
  rw [ascending]
  split <;> exact ⟨by decide +kernel, by decide +kernel⟩

/-- An order that compares the values itself changes its sign if the values change places. -/
theorem oppositeSigns_apply {o : Order} (ho : ∀ f, o ≠ custom f) (a b : Value) :
    OppositeSigns (o.apply a b) (o.apply b a) := by
  cases o with
  | asc =>
      rw [apply, apply, ascending_swap a b]
      exact oppositeSigns_ascending a b
  | desc =>
      rw [apply, apply, descending, descending, ← ascending_swap a b]
      exact oppositeSigns_ascending b a
  | ascNumeric => exact .sub _ _
  | descNumeric => exact .sub _ _
  | custom f => exact absurd rfl (ho f)

end Order

/-! ## Comparators -/

namespace Comparator

variable {c : Comparator} {comparators : List Comparator} {a b : Value} {x : Float}

theorem compare_of_call {v w : Value} (ha : c.key.call a = .ok v) (hb : c.key.call b = .ok w) :
    c.compare a b = .ok (c.order.apply v w) := by
  rw [Comparator.compare, ha, hb]
  rfl

theorem compareAll_cons (h : c.compare a b = .ok x) :
    compareAll a b (c :: comparators) =
      if x < 0.0 ∨ 0.0 < x then .ok x else compareAll a b comparators := by
  rw [compareAll, h]
  rfl

/-- A comparison that puts the records in no order ends with zero. -/
theorem eq_zero_of_compareAll (h : compareAll a b comparators = .ok x)
    (hx : ¬ (x < 0.0 ∨ 0.0 < x)) : x = 0.0 := by
  induction comparators with
  | nil => exact (Except.ok.inj h).symm
  | cons c comparators ih =>
      obtain ⟨y, hy, -⟩ := bind_eq_ok_iff.mp h
      rw [compareAll_cons hy] at h
      split at h
      next hdecides =>
        obtain rfl := Except.ok.inj h
        exact absurd hdecides hx
      next => exact ih h

theorem exists_compareAll (horders : ∀ c ∈ comparators, ∀ f, c.order ≠ .custom f)
    (ha : ∀ c ∈ comparators, ∃ v, c.key.call a = .ok v)
    (hb : ∀ c ∈ comparators, ∃ v, c.key.call b = .ok v) :
    ∃ x y, compareAll a b comparators = .ok x ∧ compareAll b a comparators = .ok y ∧
      OppositeSigns x y := by
  induction comparators with
  | nil => exact ⟨0.0, 0.0, rfl, rfl, by decide +kernel, by decide +kernel⟩
  | cons c comparators ih =>
      obtain ⟨⟨v, hv⟩, ha⟩ := List.forall_mem_cons.mp ha
      obtain ⟨⟨w, hw⟩, hb⟩ := List.forall_mem_cons.mp hb
      obtain ⟨horder, horders⟩ := List.forall_mem_cons.mp horders
      have hopposite := Order.oppositeSigns_apply horder v w
      rw [compareAll_cons (compare_of_call hv hw), compareAll_cons (compare_of_call hw hv)]
      -- Either the first comparator decides in both directions or in none.
      by_cases hdecides : c.order.apply v w < 0.0 ∨ 0.0 < c.order.apply v w
      · rw [if_pos hdecides, if_pos (hopposite.decides_iff.mp hdecides)]
        exact ⟨_, _, rfl, rfl, hopposite⟩
      · rw [if_neg hdecides, if_neg (hopposite.decides_iff.not.mp hdecides)]
        exact ih horders ha hb

/-- Comparators that compare the values of their keys themselves are antisymmetric on records on
which the keys succeed, and they find a record equal to itself. -/
theorem compareAll_antisymm (horders : ∀ c ∈ comparators, ∀ f, c.order ≠ .custom f)
    (ha : ∀ c ∈ comparators, ∃ v, c.key.call a = .ok v)
    (hb : ∀ c ∈ comparators, ∃ v, c.key.call b = .ok v) :
    (∃ x y, compareAll a b comparators = .ok x ∧ compareAll b a comparators = .ok y ∧
      (x < 0.0 ↔ 0.0 < y) ∧ (0.0 < x ↔ y < 0.0)) ∧
      compareAll a a comparators = .ok 0.0 := by
  obtain ⟨x, y, hx, hy, hopposite⟩ := exists_compareAll horders ha hb
  refine ⟨⟨x, y, hx, hy, hopposite.lt_iff, hopposite.gt_iff⟩, ?_⟩
  obtain ⟨z, z', hz, hz', hself⟩ := exists_compareAll horders ha ha
  obtain rfl : z = z' := Except.ok.inj (hz.symm.trans hz')
  rw [hz, eq_zero_of_compareAll hz hself.not_decides]

/-- The difference of two infinities decides nothing. A list then compares with a text as the text
of its items, and the text that comes first is the greater one. -/
theorem compareAll_antisymm_infinities :
    let comparators : List Comparator := [⟨.field "size", .ascNumeric⟩, ⟨.field "tag", .desc⟩]
    let a : Value := .json (.object [("size", .string "Infinity"), ("tag", .string "b")])
    let b : Value := .json (.object [("size", .string "Infinity"), ("tag", .array [.bool true])])
    (∃ x y, compareAll a b comparators = .ok x ∧ compareAll b a comparators = .ok y ∧
      0.0 < x ∧ y < 0.0) ∧
      compareAll a a comparators = .ok 0.0 := by
  intro comparators a b
  have horders : ∀ c ∈ comparators, ∀ f, c.order ≠ .custom f := by simp [comparators]
  have hcalls (d : Value) : ∀ c ∈ comparators, ∃ v, c.key.call d = .ok v := by
    simp only [comparators, List.forall_mem_cons]
    exact ⟨⟨_, rfl⟩, ⟨_, rfl⟩, nofun⟩
  have hgreater :
      ((compareAll a b comparators).toOption.any fun x => decide (0.0 < x)) = true := by
    decide +kernel
  obtain ⟨⟨x, y, hx, hy, -, hgt⟩, hself⟩ := compareAll_antisymm horders (hcalls a) (hcalls b)
  rw [hx] at hgreater
  have hpos : 0.0 < x := of_decide_eq_true hgreater
  exact ⟨⟨x, y, hx, hy, hpos, hgt.mp hpos⟩, hself⟩

end Comparator

end RecordQuery
