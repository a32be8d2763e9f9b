import RecordQuery.Proofs.Floats.ReadBack

/-! # Signs of numbers

A literal without a sign is never read as a negative float.
-/

namespace RecordQuery

open Decimal Float.Model Float.Model.UnpackedFloat

namespace Binary

/-- A float has no minus sign. -/
def Unsigned : UnpackedFloat → Prop
  | .finite s _ _ _ | .zero s | .infinity s => s = .positive
  | .notANumber => True

theorem unsigned_unpack_components (exponent : BitVec 11) (mantissa : BitVec 52) :
    Unsigned (UnpackedFloat.unpack Format.binary64
      (packComponents Format.binary64 .positive exponent mantissa)) := by
  simp only [UnpackedFloat.unpack, unpackSign_packComponents, Sign.ofBitVec_toBitVec]
  split
  · split
    · rfl
    · trivial
  · split
    · split <;> rfl
    · rfl

/-- Packing keeps the sign, whatever the significand and the exponent. -/
theorem unsigned_unpack_pack {f : UnpackedFloat} (h : Unsigned f) :
    Unsigned (Float.Model.pack f).unpack := by
  -- The sign field is written from the sign in every branch.
  have hcomponents : ∃ exponent mantissa, UnpackedFloat.pack Format.binary64 f =
      packComponents Format.binary64 .positive exponent mantissa := by
    cases f with
    | notANumber => exact ⟨_, _, rfl⟩
    | infinity s | zero s =>
        obtain rfl : s = .positive := h
        exact ⟨_, _, rfl⟩
    | finite s m e hm =>
        obtain rfl : s = .positive := h
        simp only [UnpackedFloat.pack]
        split
        · exact ⟨_, _, rfl⟩
        · split <;> exact ⟨_, _, rfl⟩
  obtain ⟨exponent, mantissa, hpack⟩ := hcomponents
  change Unsigned (UnpackedFloat.unpack Format.binary64 (UnpackedFloat.pack Format.binary64 f))
  rw [hpack]
  exact unsigned_unpack_components exponent mantissa

theorem unsigned_roundWithAccuracy (m : Nat) (e : Int) (accuracy : Accuracy) :
    Unsigned (roundWithAccuracy Format.binary64 .positive m e accuracy) := by
  simp only [roundWithAccuracy]
  split <;> rfl

theorem unsigned_mul {f g : UnpackedFloat} (hf : Unsigned f) (hg : Unsigned g) :
    Unsigned (UnpackedFloat.mul Format.binary64 f g) := by
  cases f <;> cases g <;> simp only [Unsigned] at hf hg <;> subst_vars <;>
    first | trivial | rfl | exact unsigned_roundWithAccuracy _ _ _

theorem unsigned_div {f g : UnpackedFloat} (hf : Unsigned f) (hg : Unsigned g) :
    Unsigned (UnpackedFloat.div Format.binary64 f g) := by
  cases f <;> cases g <;> simp only [Unsigned] at hf hg <;> subst_vars <;>
    first | trivial | rfl | exact unsigned_roundWithAccuracy _ _ _

theorem unsigned_toFloat (n : UInt64) : Unsigned n.toFloat.toModel.unpack := by
  apply unsigned_unpack_pack
  simp only [UnpackedFloat.ofUInt64, UnpackedFloat.ofNat, UnpackedFloat.ofInt,
    UnpackedFloat.normalize]
  split
  next h =>
    rw [Int.compare_eq_lt] at h
    omega
  next => rfl
  next => exact unsigned_roundWithAccuracy _ _ _

theorem unsigned_of_exactly {x : Float} {v : ℚ} (h : Exactly x v) : Unsigned x.toModel.unpack := by
  obtain ⟨m, e, hnormal, -, hx, -⟩ := h
  rw [hx]
  rfl

theorem unsigned_scientific (d : Nat) (k : Int) :
    Unsigned (UnpackedFloat.ofScientific Format.binary64 d k) := by
  simp only [UnpackedFloat.ofScientific]
  split
  · rfl
  split
  · rfl
  split
  · rfl
  split
  · apply unsigned_mul <;> rfl
  · apply unsigned_div <;> rfl

theorem unsigned_ofScientific (d : Nat) (negative : Bool) (k : Nat) :
    Unsigned (Float.ofScientific d negative k).toModel.unpack := by
  by_cases hsmall : d < 2 ^ 53 ∧ k ≤ 22
  · have hpower := unsigned_of_exactly
      (exactly_of_isTenPow (isTenPow_table ⟨k, lt_size_table hsmall.2⟩))
    rw [Float.ofScientific, dif_pos hsmall]
    cases negative with
    | true => exact unsigned_unpack_pack (unsigned_div (unsigned_toFloat _) hpower)
    | false => exact unsigned_unpack_pack (unsigned_mul (unsigned_toFloat _) hpower)
  · rw [Float.ofScientific, dif_neg hsmall]
    exact unsigned_unpack_pack (unsigned_scientific d _)

/-- A finite float without a minus sign is not negative. -/
theorem le_of_unsigned {x : Float} (h : Unsigned x.toModel.unpack) (hfinite : x.isFinite = true) :
    0.0 ≤ x := by
  rw [le_iff_value rfl hfinite]
  change 0 ≤ rational x.toModel.unpack
  generalize x.toModel.unpack = f at h
  cases f with
  | notANumber | infinity s | zero s => exact le_rfl
  | finite s m e hm =>
      obtain rfl : s = .positive := h
      rw [rational]
      positivity

end Binary

/-- A text that starts with no sign is not read as a negative float. -/
theorem Decimal.readFloat?_nonneg {cs : List Char} {x : Float}
    (hsign : ∀ c ∈ cs.head?, c ≠ '+' ∧ c ≠ '-') (h : readFloat? cs = some x)
    (hfinite : x.isFinite = true) : 0.0 ≤ x := by
  rw [readFloat?, splitSign_noSign hsign] at h
  obtain ⟨l, -, rfl⟩ := Option.map_eq_some_iff.mp h
  apply Binary.le_of_unsigned _ hfinite
  simp only [Bool.false_eq_true, if_false, Literal.toFloat]
  split <;> exact Binary.unsigned_ofScientific _ _ _

end RecordQuery
