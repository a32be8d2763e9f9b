import RecordQuery.Decimal.Exact
import RecordQuery.Proofs.Floats.Rounding

/-! # The numbers that floats denote

A finite float denotes a rational number. Two finite floats compare as these numbers do, and apart
from the two zeros no two of them denote the same.
-/

namespace RecordQuery.Binary

open Float.Model Float.Model.UnpackedFloat

/-- The number that an unpacked float denotes, and zero if it denotes none. -/
def rational : UnpackedFloat → ℚ
  | .finite .positive m e _ => m * 2 ^ e
  | .finite .negative m e _ => -(m * 2 ^ e)
  | _ => 0

/-- The number that a float denotes, and zero if it denotes none. -/
def value (x : Float) : ℚ :=
  rational x.toModel.unpack

/-- What the bits of a finite float can hold. -/
inductive Denoting : UnpackedFloat → Prop where
  | zero (s : Sign) : Denoting (.zero s)
  | normal (s : Sign) {m : Nat} {e : Int} (h : Normal m e) (htop : e ≤ topExponent) :
      Denoting (.finite s m e h.pos)

theorem Denoting.packable {f : UnpackedFloat} (h : Denoting f) : Packable f := by
  cases h with
  | zero s => exact .zero s
  | normal s h htop => exact .finite s h htop

theorem denoting_iff {x : Float} : Denoting x.toModel.unpack ↔ x.isFinite = true := by
  have hpackable := packable_unpack x.toModel
  change _ ↔ x.toModel.unpack.isFinite = true
  generalize x.toModel.unpack = f at hpackable
  cases hpackable with
  | notANumber => exact ⟨nofun, nofun⟩
  | infinity s => exact ⟨nofun, nofun⟩
  | zero s => exact ⟨fun _ => rfl, fun _ => .zero s⟩
  | finite s h htop => exact ⟨fun _ => rfl, fun _ => .normal s h htop⟩

/-! ## Comparisons -/

variable {m n : Nat} {e f : Int}

theorem Normal.value_pos (h : Normal m e) : (0 : ℚ) < m * 2 ^ e := by
  have hm : (0 : ℚ) < m := by exact_mod_cast h.pos
  positivity

/-- Of two floats in normal form, the one with the greater exponent is the greater one. -/
theorem Normal.value_lt (h : Normal m e) (h' : Normal n f) (hlt : e < f) :
    (m : ℚ) * 2 ^ e < n * 2 ^ f := by
  have hleast := h.least
  have hfull := h'.full.resolve_right (by omega)
  have hn : (2 : ℚ) ^ 52 ≤ n := by exact_mod_cast hfull
  have hm : (m : ℚ) < 2 ^ 53 := by exact_mod_cast h.lt
  have hscale : (0 : ℚ) < 2 ^ e := by positivity
  have hdouble := two_mul_zpow_le hlt
  nlinarith

/-- Floats in normal form compare by exponents first and by significands second. -/
theorem compare_normal (h : Normal m e) (h' : Normal n f) :
    (compare e f).then (compare m n) = compare ((m : ℚ) * 2 ^ e) (n * 2 ^ f) := by
  rcases lt_trichotomy e f with hlt | rfl | hgt
  · rw [compare_lt_iff_lt.mpr hlt, compare_lt_iff_lt.mpr (h.value_lt h' hlt)]
    rfl
  · have hscale : (0 : ℚ) < 2 ^ e := by positivity
    rw [compare_eq_iff_eq.mpr rfl, Ordering.then]
    rcases lt_trichotomy m n with hlt | rfl | hgt
    · have hcast : (m : ℚ) < n := by exact_mod_cast hlt
      rw [compare_lt_iff_lt.mpr hlt, compare_lt_iff_lt.mpr (by gcongr)]
    · rw [compare_eq_iff_eq.mpr rfl, compare_eq_iff_eq.mpr rfl]
    · have hcast : (n : ℚ) < m := by exact_mod_cast hgt
      rw [compare_gt_iff_gt.mpr hgt, compare_gt_iff_gt.mpr (by gcongr)]
  · rw [compare_gt_iff_gt.mpr hgt, compare_gt_iff_gt.mpr (h'.value_lt h hgt)]
    rfl

theorem Normal.eq_of_value_eq (h : Normal m e) (h' : Normal n f)
    (heq : (m : ℚ) * 2 ^ e = n * 2 ^ f) : m = n ∧ e = f := by
  have hcompare := compare_normal h h'
  rw [compare_eq_iff_eq.mpr heq, Ordering.then_eq_eq, compare_eq_iff_eq, compare_eq_iff_eq]
    at hcompare
  exact ⟨hcompare.2, hcompare.1⟩

/-- Apart from the zeros, no two floats denote the same number. -/
theorem Denoting.eq_of_rational_eq {a b : UnpackedFloat} (ha : Denoting a) (hb : Denoting b)
    (heq : rational a = rational b) (hne : rational b ≠ 0) : a = b := by
  cases hb with
  | zero t => exact absurd rfl hne
  | @normal t m e h htop =>
      have hpos := h.value_pos
      cases ha with
      | zero s => exact absurd heq.symm hne
      | @normal s n f h' htop' =>
          have hpos' := h'.value_pos
          cases s with
          | positive =>
              cases t with
              | positive =>
                  obtain ⟨rfl, rfl⟩ := h'.eq_of_value_eq h heq
                  rfl
              | negative =>
                  simp only [rational] at heq
                  linarith
          | negative =>
              cases t with
              | positive =>
                  simp only [rational] at heq
                  linarith
              | negative =>
                  obtain ⟨rfl, rfl⟩ := h'.eq_of_value_eq h (neg_inj.mp heq)
                  rfl

theorem swap_compare (a b : ℚ) : (compare a b).swap = compare (-a) (-b) := by
  rcases lt_trichotomy a b with hlt | rfl | hgt
  · rw [compare_lt_iff_lt.mpr hlt, compare_gt_iff_gt.mpr (neg_lt_neg hlt)]
    rfl
  · rw [compare_eq_iff_eq.mpr rfl, compare_eq_iff_eq.mpr rfl]
    rfl
  · rw [compare_gt_iff_gt.mpr hgt, compare_lt_iff_lt.mpr (neg_lt_neg hgt)]
    rfl

/-- Finite floats compare as the numbers that they denote. -/
theorem compare_eq {a b : UnpackedFloat} (ha : Denoting a) (hb : Denoting b) :
    a.compare b = some (compare (rational a) (rational b)) := by
  cases ha with
  | zero s =>
      cases hb with
      | zero t => simp [UnpackedFloat.compare, rational]
      | normal t h htop =>
          have hpos := h.value_pos
          cases t with
          | positive => simp only [UnpackedFloat.compare, rational, compare_lt_iff_lt.mpr hpos]
          | negative =>
              have hneg := neg_lt_zero.mpr hpos
              simp only [UnpackedFloat.compare, rational, compare_gt_iff_gt.mpr hneg]
  | normal s h htop =>
      have hpos := h.value_pos
      cases hb with
      | zero t =>
          cases s with
          | positive => simp only [UnpackedFloat.compare, rational, compare_gt_iff_gt.mpr hpos]
          | negative =>
              have hneg := neg_lt_zero.mpr hpos
              simp only [UnpackedFloat.compare, rational, compare_lt_iff_lt.mpr hneg]
      | normal t h' htop' =>
          have hpos' := h'.value_pos
          cases s with
          | positive =>
              cases t with
              | positive => rw [rational, rational, ← compare_normal h h']; rfl
              | negative => rw [rational, rational, compare_gt_iff_gt.mpr (by linarith)]; rfl
          | negative =>
              cases t with
              | positive => rw [rational, rational, compare_lt_iff_lt.mpr (by linarith)]; rfl
              | negative => rw [rational, rational, ← swap_compare, ← compare_normal h h']; rfl

variable {x y : Float}

theorem beq_iff (hx : x.isFinite = true) (hy : y.isFinite = true) :
    (x == y) = true ↔ value x = value y := by
  change (x.toModel.unpack.compare y.toModel.unpack == some .eq) = true ↔ _
  rw [compare_eq (denoting_iff.mpr hx) (denoting_iff.mpr hy), ← compare_eq_iff_eq, value, value]
  simp

theorem lt_iff_value (hx : x.isFinite = true) (hy : y.isFinite = true) :
    x < y ↔ value x < value y := by
  change decide (x.toModel.unpack.lt y.toModel.unpack = true) = true ↔ _
  rw [decide_eq_true_iff, UnpackedFloat.lt,
    compare_eq (denoting_iff.mpr hx) (denoting_iff.mpr hy), ← compare_lt_iff_lt, value, value]
  simp

theorem le_iff_value (hx : x.isFinite = true) (hy : y.isFinite = true) :
    x ≤ y ↔ value x ≤ value y := by
  change decide (x.toModel.unpack.le y.toModel.unpack = true) = true ↔ _
  rw [decide_eq_true_iff, UnpackedFloat.le,
    compare_eq (denoting_iff.mpr hx) (denoting_iff.mpr hy), ← compare_le_iff_le, value, value]
  cases compare (rational x.toModel.unpack) (rational y.toModel.unpack) <;> simp

/-! ## Signs -/

theorem Packable.neg {f : UnpackedFloat} (h : Packable f) : Packable f.neg := by
  cases h with
  | notANumber => exact .notANumber
  | infinity s => exact .infinity _
  | zero s => exact .zero _
  | finite s h htop => exact .finite _ h htop

theorem Packable.abs {f : UnpackedFloat} (h : Packable f) : Packable f.abs := by
  cases h with
  | notANumber => exact .notANumber
  | infinity s => exact .infinity _
  | zero s => exact .zero _
  | finite s h htop => exact .finite _ h htop

@[simp] theorem unpack_neg (x : Float) : (-x).toModel.unpack = x.toModel.unpack.neg :=
  unpack_pack (packable_unpack x.toModel).neg

@[simp] theorem unpack_abs (x : Float) : x.abs.toModel.unpack = x.toModel.unpack.abs :=
  unpack_pack (packable_unpack x.toModel).abs

@[simp] theorem isFinite_neg (x : Float) : (-x).isFinite = x.isFinite := by
  change (-x).toModel.unpack.isFinite = x.toModel.unpack.isFinite
  rw [unpack_neg]
  cases x.toModel.unpack <;> rfl

@[simp] theorem isFinite_abs (x : Float) : x.abs.isFinite = x.isFinite := by
  change x.abs.toModel.unpack.isFinite = x.toModel.unpack.isFinite
  rw [unpack_abs]
  cases x.toModel.unpack <;> rfl

@[simp] theorem value_neg (x : Float) : value (-x) = -value x := by
  rw [value, value, unpack_neg]
  cases x.toModel.unpack with
  | notANumber => simp only [UnpackedFloat.neg, rational, neg_zero]
  | infinity s => simp only [UnpackedFloat.neg, rational, neg_zero]
  | zero s => simp only [UnpackedFloat.neg, rational, neg_zero]
  | finite s m e h =>
      cases s with
      | positive => rfl
      | negative => exact (neg_neg _).symm

@[simp] theorem value_abs (x : Float) : value x.abs = |value x| := by
  rw [value, value, unpack_abs]
  cases x.toModel.unpack with
  | notANumber => simp only [UnpackedFloat.abs, rational, abs_zero]
  | infinity s => simp only [UnpackedFloat.abs, rational, abs_zero]
  | zero s => simp only [UnpackedFloat.abs, rational, abs_zero]
  | finite s m e h =>
      have hnonneg : (0 : ℚ) ≤ (m : ℚ) * 2 ^ e := by positivity
      cases s with
      | positive => exact (abs_of_nonneg hnonneg).symm
      | negative =>
          change (m : ℚ) * 2 ^ e = |-((m : ℚ) * 2 ^ e)|
          rw [abs_neg, abs_of_nonneg hnonneg]

theorem eq_of_unpack_eq (h : x.toModel.unpack = y.toModel.unpack) : x = y := by
  have hmodel : x.toModel = y.toModel := by rw [← pack_unpack x.toModel, h, pack_unpack]
  cases x
  cases y
  exact congrArg Float.ofModel hmodel

theorem eq_of_value_eq (hx : x.isFinite = true) (hy : y.isFinite = true)
    (h : value x = value y) (hne : value y ≠ 0) : x = y :=
  eq_of_unpack_eq ((denoting_iff.mpr hx).eq_of_rational_eq (denoting_iff.mpr hy) h hne)

theorem exists_positive (hx : x.isFinite = true) (h : 0 < value x) :
    ∃ (m : Nat) (e : Int) (hnormal : Normal m e), e ≤ topExponent ∧
      x.toModel.unpack = positive hnormal := by
  have hdenoting := denoting_iff.mpr hx
  rw [value] at h
  generalize x.toModel.unpack = f at hdenoting h
  cases hdenoting with
  | zero s => exact absurd h (lt_irrefl _)
  | normal s hnormal htop =>
      cases s with
      | positive => exact ⟨_, _, hnormal, htop, rfl⟩
      | negative => exact absurd (neg_pos.mp h) hnormal.value_pos.not_gt

/-- A finite float is its absolute value with a sign. -/
theorem eq_abs_or_eq_neg_abs (hx : x.isFinite = true) : x = x.abs ∨ x = -x.abs := by
  have hdenoting := denoting_iff.mpr hx
  generalize hf : x.toModel.unpack = f at hdenoting
  cases hdenoting with
  | zero s =>
      cases s with
      | positive => exact .inl (eq_of_unpack_eq (by rw [unpack_abs, hf]; rfl))
      | negative => exact .inr (eq_of_unpack_eq (by rw [unpack_neg, unpack_abs, hf]; rfl))
  | normal s h htop =>
      cases s with
      | positive => exact .inl (eq_of_unpack_eq (by rw [unpack_abs, hf]; rfl))
      | negative => exact .inr (eq_of_unpack_eq (by rw [unpack_neg, unpack_abs, hf]; rfl))

theorem exact_abs (hx : x.isFinite = true) : ∃ m e, Decimal.exact x.abs = .finite false m e := by
  have hdenoting := denoting_iff.mpr hx
  rw [Decimal.exact, unpack_abs]
  generalize x.toModel.unpack = f at hdenoting
  cases hdenoting with
  | zero s => exact ⟨0, 0, rfl⟩
  | normal s h htop => exact ⟨_, _, rfl⟩

theorem eq_zero_of_exact (hx : x.isFinite = true) (h : Decimal.exact x = .finite false 0 e) :
    x = 0.0 := by
  have hdenoting := denoting_iff.mpr hx
  rw [Decimal.exact] at h
  generalize hf : x.toModel.unpack = f at h hdenoting
  cases hdenoting with
  | zero s =>
      cases s with
      | negative => cases h
      | positive => exact eq_of_unpack_eq hf
  | @normal s m e hnormal htop =>
      obtain ⟨-, rfl, -⟩ := Decimal.Exact.finite.inj h
      exact absurd rfl hnormal.pos.ne

theorem exact_neg (h : Decimal.exact x = .finite false m e) :
    Decimal.exact (-x) = .finite true m e := by
  rw [Decimal.exact] at h
  rw [Decimal.exact, unpack_neg]
  generalize x.toModel.unpack = f at h
  cases f with
  | notANumber | infinity s => cases h
  | zero s | finite s n t hn =>
      cases s with
      | negative => cases h
      | positive =>
          obtain ⟨-, rfl, rfl⟩ := Decimal.Exact.finite.inj h
          rfl

/-- Only the zeros denote zero. -/
theorem value_eq_zero_iff (hx : x.isFinite = true) :
    value x = 0 ↔ ∃ s, x.toModel.unpack = .zero s := by
  have hdenoting := denoting_iff.mpr hx
  rw [value]
  generalize x.toModel.unpack = f at hdenoting
  cases hdenoting with
  | zero s => exact ⟨fun _ => ⟨s, rfl⟩, fun _ => rfl⟩
  | normal s h htop =>
      have hpos := h.value_pos
      refine ⟨fun hzero => ?_, fun hzero => by obtain ⟨t, ht⟩ := hzero; cases ht⟩
      cases s with
      | positive => exact absurd hzero hpos.ne'
      | negative => exact absurd hzero (neg_ne_zero.mpr hpos.ne')

end RecordQuery.Binary
