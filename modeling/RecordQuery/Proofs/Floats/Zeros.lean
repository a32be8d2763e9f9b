import RecordQuery.Proofs.Floats.Integers

/-! # The two zeros as operands

A sum, a difference or a product with a zero denotes the same number whatever the sign of the zero,
and a remainder by a zero is none. Only a quotient tells the zeros apart.
-/

namespace RecordQuery.Binary

open Float.Model Float.Model.UnpackedFloat

variable {f : UnpackedFloat} {x y z : Float} {v : ℚ}

theorem value_of_pack (hz : z.toModel = Float.Model.pack f) (h : Denoting f ∧ rational f = v) :
    z.isFinite = true ∧ value z = v := by
  have hunpack : z.toModel.unpack = f := by rw [hz, unpack_pack h.1.packable]
  rw [← denoting_iff, value, hunpack]
  exact h

theorem denoting_add_zero (hf : Denoting f) (t : Sign) :
    Denoting (UnpackedFloat.add Format.binary64 f (.zero t)) ∧
      rational (UnpackedFloat.add Format.binary64 f (.zero t)) = rational f := by
  cases hf with
  | zero s => cases s <;> cases t <;> exact ⟨.zero _, rfl⟩
  | normal s h htop => exact ⟨.normal s h htop, rfl⟩

theorem sub_zero_eq_add (f : UnpackedFloat) (t : Sign) :
    UnpackedFloat.sub Format.binary64 f (.zero t) =
      UnpackedFloat.add Format.binary64 f (.zero (-t)) := by
  cases f <;> rfl

theorem denoting_mul_zero (hf : Denoting f) (t : Sign) :
    Denoting (UnpackedFloat.mul Format.binary64 f (.zero t)) ∧
      rational (UnpackedFloat.mul Format.binary64 f (.zero t)) = 0 := by
  cases hf with
  | zero s => exact ⟨.zero _, rfl⟩
  | normal s h htop => exact ⟨.zero _, rfl⟩

section Operands

variable {t : Sign} (hx : x.isFinite = true) (hy : y.toModel.unpack = .zero t)

include hx hy

theorem value_add_zero : (x + y).isFinite = true ∧ value (x + y) = value x := by
  have hsum := denoting_add_zero (denoting_iff.mpr hx) t
  rw [← hy] at hsum
  exact value_of_pack rfl hsum

theorem value_sub_zero : (x - y).isFinite = true ∧ value (x - y) = value x := by
  have hdifference := denoting_add_zero (denoting_iff.mpr hx) (-t)
  rw [← sub_zero_eq_add, ← hy] at hdifference
  exact value_of_pack rfl hdifference

theorem value_mul_zero : (x * y).isFinite = true ∧ value (x * y) = 0 := by
  have hproduct := denoting_mul_zero (denoting_iff.mpr hx) t
  rw [← hy] at hproduct
  exact value_of_pack rfl hproduct

theorem remainder_zero : Decimal.remainder x y = 0.0 / 0.0 := by
  obtain ⟨negative, m, e, hexact, -⟩ := exists_exact hx
  have hexact' : Decimal.exact y = .finite (t == .negative) 0 0 := by rw [Decimal.exact, hy]
  rw [Decimal.remainder, hexact, hexact']
  rfl

end Operands

theorem unpack_div (x y : Float) : (x / y).toModel.unpack = (Float.Model.pack
    (UnpackedFloat.div Format.binary64 x.toModel.unpack y.toModel.unpack)).unpack := rfl

/-- A zero divided by a zero is no number. -/
theorem div_zero_of_value_eq_zero (hx : x.isFinite = true) (h : value x = 0) :
    x / 0.0 = x / (-0.0) := by
  obtain ⟨s, hs⟩ := (value_eq_zero_iff hx).mp h
  apply eq_of_unpack_eq
  rw [unpack_div, unpack_div, hs]
  rfl

/-- Another number divided by a zero is an infinity, with the sign of the zero in its own. -/
theorem unpack_div_zero (hx : x.isFinite = true) (h : value x ≠ 0) :
    ∃ s, (x / 0.0).toModel.unpack = .infinity s ∧ (x / (-0.0)).toModel.unpack = .infinity (-s) := by
  have hdenoting := denoting_iff.mpr hx
  rw [unpack_div, unpack_div]
  generalize hf : x.toModel.unpack = f at hdenoting
  cases hdenoting with
  | zero s => exact absurd ((value_eq_zero_iff hx).mpr ⟨s, hf⟩) h
  | normal s hnormal htop =>
      cases s with
      | positive => exact ⟨.positive, unpack_pack_infinity _, unpack_pack_infinity _⟩
      | negative => exact ⟨.negative, unpack_pack_infinity _, unpack_pack_infinity _⟩

end RecordQuery.Binary
