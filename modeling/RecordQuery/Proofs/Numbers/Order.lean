import RecordQuery.Proofs.Numbers.Equality
import RecordQuery.Query.Order
import RecordQuery.Value.Equality

/-! # Order of numbers

Numbers are ordered by their floats, while integers are equal as integers only. So of less, equal
and greater exactly one holds of two numbers, unless they are two integers with one float: of these
none holds, and a sort leaves them as they come.
-/

namespace RecordQuery

/-- Finite floats are ordered as what they denote. -/
theorem compareFloat?_eq {x y : Float} (hx : x.isFinite = true) (hy : y.isFinite = true) :
    compareFloat? x y = some (compare (Binary.value x) (Binary.value y)) := by
  simp only [compareFloat?, Binary.beq_iff hx hy, Binary.lt_iff_value hx hy,
    Binary.lt_iff_value hy hx]
  rcases lt_trichotomy (Binary.value x) (Binary.value y) with hlt | heq | hgt
  · rw [if_pos hlt, compare_lt_iff_lt.mpr hlt]
  · rw [if_neg heq.not_lt, if_pos heq, compare_eq_iff_eq.mpr heq]
  · rw [if_neg hgt.not_gt, if_neg hgt.ne', if_pos hgt, compare_gt_iff_gt.mpr hgt]

namespace Number

variable {a b : Number}

/-- Two integers that are rounded to one float. -/
inductive Collide : Number → Number → Prop where
  | intro {m n : Int} {x : Float} (hne : m ≠ n) (hm : (int m).RoundsTo (float x))
      (hn : (int n).RoundsTo (float x)) : Collide (int m) (int n)

theorem RoundsTo.isStored {x : Float} (h : a.RoundsTo (float x)) : (float x).IsStored := by
  cases h with
  | intro hrounded => exact Binary.denoting_iff.mp hrounded.denoting

/-- Numbers collide if they are not equal but their floats are. -/
theorem collide_iff (ha : a.IsStored) (hb : b.IsStored) :
    a.Collide b ↔
      Binary.value a.toFloat = Binary.value b.toFloat ∧ ¬ a.sameValue b = true := by
  constructor
  · intro h
    cases h with
    | intro hne hm hn =>
        have hx := hm.isStored
        rw [roundsTo_iff ha hx] at hm
        rw [roundsTo_iff hb hx] at hn
        exact ⟨hm.trans hn.symm, mt (sameValue_int _ _).mp hne⟩
  · rintro ⟨heq, hdiffer⟩
    obtain ⟨m, n, rfl, rfl, hne⟩ := (sameValue_or_int ha hb heq).resolve_left hdiffer
    have hx : (float (Float.ofInt m)).IsStored := ha.isFinite
    exact .intro hne ((roundsTo_iff ha hx).mpr rfl) ((roundsTo_iff hb hx).mpr heq.symm)

/-- Numbers have equal floats if they are equal or collide. -/
theorem value_toFloat_eq_iff (ha : a.IsStored) (hb : b.IsStored) :
    Binary.value a.toFloat = Binary.value b.toFloat ↔ a.sameValue b = true ∨ a.Collide b := by
  rw [collide_iff ha hb]
  constructor
  · intro heq
    by_cases hsame : a.sameValue b = true
    · exact .inl hsame
    · exact .inr ⟨heq, hsame⟩
  · rintro (hsame | hcollide)
    · exact value_toFloat_of_sameValue ha hb hsame
    · exact hcollide.1

/-- Only from `2 ^ 53` on do numbers collide. -/
theorem Collide.le_abs (ha : a.IsStored) (hb : b.IsStored) (h : a.Collide b) :
    2 ^ 53 ≤ |a.value| ∧ 2 ^ 53 ≤ |b.value| := by
  obtain ⟨heq, hdiffer⟩ := (collide_iff ha hb).mp h
  have hlarge : ¬ |Binary.value a.toFloat| < 2 ^ 53 := by
    intro hlt
    have ha' := value_toFloat ha hlt
    rw [heq] at hlt
    exact hdiffer ((sameValue_iff ha hb).mpr
      (.inl (ha'.symm.trans (heq.trans (value_toFloat hb hlt)))))
  rw [← not_lt, ← not_lt, ← abs_value_lt ha, ← abs_value_lt hb, ← heq]
  exact ⟨hlarge, hlarge⟩

/-- The order of floats is that of the numbers. -/
theorem value_lt_of_toFloat (ha : a.IsStored) (hb : b.IsStored)
    (h : Binary.value a.toFloat < Binary.value b.toFloat) : a.value < b.value := by
  refine lt_of_le_of_ne (ha.isRounded.le_of_lt hb.isRounded h) fun heq => h.ne ?_
  exact value_toFloat_of_sameValue ha hb ((sameValue_iff ha hb).mpr (.inl heq))

end Number

namespace Value

variable {a b : Number}

theorem compare?_number (ha : a.IsStored) (hb : b.IsStored) :
    (json (.number a)).compare? (json (.number b)) =
      some (compare (Binary.value a.toFloat) (Binary.value b.toFloat)) :=
  compareFloat?_eq ha.isFinite hb.isFinite

theorem lt_number (ha : a.IsStored) (hb : b.IsStored) :
    (json (.number a)).lt (json (.number b)) = true ↔
      Binary.value a.toFloat < Binary.value b.toFloat := by
  rw [lt, compare?_number ha hb, ← compare_lt_iff_lt]
  simp

theorem gt_number (ha : a.IsStored) (hb : b.IsStored) :
    (json (.number a)).gt (json (.number b)) = true ↔
      Binary.value b.toFloat < Binary.value a.toFloat := by
  rw [gt, compare?_number ha hb, ← compare_gt_iff_gt]
  simp

@[simp] theorem strictEq_number (a b : Number) :
    (json (.number a)).strictEq (json (.number b)) = a.sameValue b := by
  simp only [strictEq, Json.deepEq]

/-- A sort takes numbers for equal if their floats are. -/
theorem ascending_number (ha : a.IsStored) (hb : b.IsStored) :
    Order.ascending (json (.number a)) (json (.number b)) = 0 ↔
      Binary.value a.toFloat = Binary.value b.toFloat := by
  rw [Order.ascending, compare?_number ha hb]
  rcases lt_trichotomy (Binary.value a.toFloat) (Binary.value b.toFloat) with hlt | heq | hgt
  · rw [compare_lt_iff_lt.mpr hlt]
    exact ⟨nofun, fun heq => absurd heq hlt.ne⟩
  · rw [compare_eq_iff_eq.mpr heq]
    exact ⟨fun _ => heq, fun _ => rfl⟩
  · rw [compare_gt_iff_gt.mpr hgt]
    exact ⟨nofun, fun heq => absurd heq hgt.ne'⟩

/-- How many of the three relations hold. -/
theorem count_relations (ha : a.IsStored) (hb : b.IsStored) :
    [(json (.number a)).lt (json (.number b)), (json (.number a)).strictEq (json (.number b)),
      (json (.number a)).gt (json (.number b))].count true = 1 ∧ ¬ a.Collide b ∨
    [(json (.number a)).lt (json (.number b)), (json (.number a)).strictEq (json (.number b)),
      (json (.number a)).gt (json (.number b))].count true = 0 ∧ a.Collide b := by
  have hlt := lt_number ha hb
  have hgt := gt_number ha hb
  have hsame := Number.value_toFloat_of_sameValue ha hb
  rw [Number.collide_iff ha hb, strictEq_number]
  generalize (json (.number a)).lt (json (.number b)) = less at hlt
  generalize (json (.number a)).gt (json (.number b)) = greater at hgt
  generalize a.sameValue b = equal at hsame
  rcases lt_trichotomy (Binary.value a.toFloat) (Binary.value b.toFloat) with h | h | h
  · obtain rfl := hlt.mpr h
    obtain rfl := Bool.eq_false_iff.mpr (mt hgt.mp h.not_gt)
    obtain rfl := Bool.eq_false_iff.mpr (mt hsame h.ne)
    exact .inl ⟨rfl, fun hcollide => h.ne hcollide.1⟩
  · obtain rfl := Bool.eq_false_iff.mpr (mt hlt.mp h.not_lt)
    obtain rfl := Bool.eq_false_iff.mpr (mt hgt.mp h.not_gt)
    cases equal with
    | true => exact .inl ⟨rfl, fun hcollide => hcollide.2 rfl⟩
    | false => exact .inr ⟨rfl, h, Bool.false_ne_true⟩
  · obtain rfl := Bool.eq_false_iff.mpr (mt hlt.mp h.not_gt)
    obtain rfl := hgt.mpr h
    obtain rfl := Bool.eq_false_iff.mpr (mt hsame h.ne')
    exact .inl ⟨rfl, fun hcollide => h.ne' hcollide.1⟩

end Value

open Value in
/-- Of less, equal and greater exactly one holds of two numbers that do not collide, and it says how
the numbers compare. Of two that do, both from `2 ^ 53` on, none holds, but a sort takes them for
equal. -/
theorem order_of_numbers {a b : Number} (ha : a.IsStored) (hb : b.IsStored) :
    let x := json (.number a)
    let y := json (.number b)
    ([x.lt y, x.strictEq y, x.gt y].count true = 1 ↔ ¬ a.Collide b) ∧
      (x.lt y = true → a.value < b.value) ∧ (x.gt y = true → b.value < a.value) ∧
      (a.Collide b → [x.lt y, x.strictEq y, x.gt y].count true = 0 ∧
        2 ^ 53 ≤ |a.value| ∧ 2 ^ 53 ≤ |b.value|) ∧
      (Order.ascending x y = 0 ↔ x.strictEq y = true ∨ a.Collide b) := by
  intro x y
  have hcount := count_relations ha hb
  refine ⟨?_, fun h => Number.value_lt_of_toFloat ha hb ((lt_number ha hb).mp h),
    fun h => Number.value_lt_of_toFloat hb ha ((gt_number ha hb).mp h), fun h => ?_, ?_⟩
  · rcases hcount with ⟨hone, hapart⟩ | ⟨hnone, hcollide⟩
    · exact ⟨fun _ => hapart, fun _ => hone⟩
    · exact ⟨fun hone => absurd (hone.symm.trans hnone) Nat.one_ne_zero,
        fun hapart => absurd hcollide hapart⟩
  · exact ⟨(hcount.resolve_left fun hone => hone.2 h).1, h.le_abs ha hb⟩
  · rw [ascending_number ha hb, Number.value_toFloat_eq_iff ha hb, strictEq_number]

open Value in
/-- The two largest numbers below and at `2 ^ 53`, the second one stored as a float. -/
theorem order_of_numbers_largest :
    (Number.int 9007199254740991).IsStored ∧ (Number.float 9007199254740992.0).IsStored ∧
      ¬ (Number.int 9007199254740991).Collide (.float 9007199254740992.0) ∧
      [(json (.number (.int 9007199254740991))).lt (json (.number (.float 9007199254740992.0))),
        (json (.number (.int 9007199254740991))).strictEq
          (json (.number (.float 9007199254740992.0))),
        (json (.number (.int 9007199254740991))).gt
          (json (.number (.float 9007199254740992.0)))].count true = 1 := by
  have ha : (Number.int 9007199254740991).IsStored := by decide
  have hb : (Number.float 9007199254740992.0).IsStored := by decide +kernel
  have hapart : ¬ (Number.int 9007199254740991).Collide (.float 9007199254740992.0) := nofun
  exact ⟨ha, hb, hapart, (order_of_numbers ha hb).1.mpr hapart⟩

open Value in
/-- Two integers of which neither is less and that are not equal. -/
theorem order_of_numbers_collision :
    (Number.int 9007199254740992).IsStored ∧ (Number.int 9007199254740993).IsStored ∧
      (json (.number (.int 9007199254740992))).lt (json (.number (.int 9007199254740993))) =
        false ∧
      (json (.number (.int 9007199254740992))).strictEq (json (.number (.int 9007199254740993))) =
        false ∧
      (json (.number (.int 9007199254740992))).gt (json (.number (.int 9007199254740993))) =
        false ∧
      Order.ascending (json (.number (.int 9007199254740992)))
        (json (.number (.int 9007199254740993))) = 0 := by
  decide +kernel

end RecordQuery
