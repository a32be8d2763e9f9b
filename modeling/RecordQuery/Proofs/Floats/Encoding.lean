import Mathlib
import RecordQuery.Decimal.Exact

/-! # Floats and their bits

A float is an infinity, no number, a zero, or a sign with a significand and an exponent in normal
form. The bits hold exactly that, unless the exponent is above the range of the format.
-/

namespace RecordQuery.Binary

open Float.Model Float.Model.UnpackedFloat

/-- The normal form of a positive float `m * 2 ^ e`: a significand of 53 bits, or of fewer at the
least exponent. -/
structure Normal (m : Nat) (e : Int) : Prop where
  pos : 0 < m
  lt : m < 2 ^ 53
  least : -1074 ≤ e
  full : 2 ^ 52 ≤ m ∨ e = -1074

/-- The greatest exponent of a finite float. -/
def topExponent : Int := 971

/-- The positive float `m * 2 ^ e`. -/
def positive {m : Nat} {e : Int} (h : Normal m e) : UnpackedFloat :=
  .finite .positive m e h.pos

/-! ## Significands -/

theorem toNat_implicit (m : BitVec 52) : (1#1 ++ m).toNat = 2 ^ 52 + m.toNat := by
  rw [BitVec.toNat_append, ← Nat.shiftLeft_add_eq_or_of_lt m.isLt]
  rfl

theorem log2_of_implicit {m : Nat} (hlow : 2 ^ 52 ≤ m) (hhigh : m < 2 ^ 53) : m.log2 = 52 :=
  (Nat.log2_eq_iff (by omega)).mpr ⟨hlow, hhigh⟩

/-! ## Packing -/

/-- With an exponent in range, the fields are a biased exponent and the significand without its
leading bit. -/
theorem pack_normal {s : Sign} {m : Nat} {e : Int} {hm : 0 < m} (hlow : 2 ^ 52 ≤ m)
    (hhigh : m < 2 ^ 53) (hleast : -1074 ≤ e) (htop : e ≤ topExponent) :
    UnpackedFloat.pack Format.binary64 (.finite s m e hm) =
      packComponents Format.binary64 s (BitVec.ofNat 11 (e + 1075).toNat) (BitVec.ofNat 52 m) := by
  have hbiased : (e + (Format.binary64.exponentBias : Nat) +
      (Format.binary64.mantissaBitsWithoutImplicit : Nat)).toNat = (e + 1075).toNat := by
    change (e + (1023 : Int) + (52 : Int)).toNat = _
    omega
  have hrange : ¬ 2 ^ 11 ≤ (e + 1075).toNat + 1 := by
    unfold topExponent at htop
    omega
  simp only [UnpackedFloat.pack, hbiased, log2_of_implicit hlow hhigh]
  rw [if_neg hrange, if_pos (by decide)]

theorem pack_subnormal {s : Sign} {m : Nat} {hm : 0 < m} (hhigh : m < 2 ^ 52) :
    UnpackedFloat.pack Format.binary64 (.finite s m (-1074) hm) =
      packComponents Format.binary64 s 0#11 (BitVec.ofNat 52 m) := by
  have hlog : m.log2 < 52 := (Nat.log2_lt (Nat.ne_of_gt hm)).mpr hhigh
  have hbits : ¬ m.log2 + 1 = Format.binary64.mantissaBits := by
    rw [show Format.binary64.mantissaBits = 53 from rfl]
    omega
  simp only [UnpackedFloat.pack]
  rw [if_neg (by decide), if_neg hbits]

/-- The biased exponent of a finite float with all 53 bits is neither zero nor all ones. -/
theorem biasedExponent_ne {e : Int} (hleast : -1074 ≤ e) (htop : e ≤ topExponent) :
    (BitVec.ofNat 11 (e + 1075).toNat).toNat = (e + 1075).toNat ∧
      BitVec.ofNat 11 (e + 1075).toNat ≠ -1#11 ∧ BitVec.ofNat 11 (e + 1075).toNat ≠ 0#11 := by
  unfold topExponent at htop
  have hexponent : (BitVec.ofNat 11 (e + 1075).toNat).toNat = (e + 1075).toNat := by
    rw [BitVec.toNat_ofNat, Nat.mod_eq_of_lt]
    omega
  refine ⟨hexponent, ?_, ?_⟩
  · intro heq
    have hnat := congrArg BitVec.toNat heq
    rw [hexponent, show (-1#11).toNat = 2047 from rfl] at hnat
    omega
  · intro heq
    have hnat := congrArg BitVec.toNat heq
    rw [hexponent, show (0#11).toNat = 0 from rfl] at hnat
    omega

theorem exponentBias_eq : ((Format.binary64.exponentBias : Nat) : Int) = 1023 := rfl

theorem unpack_pack_normal {s : Sign} {m : Nat} {e : Int} {hm : 0 < m} (hlow : 2 ^ 52 ≤ m)
    (hhigh : m < 2 ^ 53) (hleast : -1074 ≤ e) (htop : e ≤ topExponent) :
    (Float.Model.pack (.finite s m e hm)).unpack = .finite s m e hm := by
  obtain ⟨hexponent, hones, hzero⟩ := biasedExponent_ne hleast htop
  have hmantissa : (1#1 ++ BitVec.ofNat 52 m).toNat = m := by
    rw [toNat_implicit, BitVec.toNat_ofNat]
    omega
  change UnpackedFloat.unpack Format.binary64
    (UnpackedFloat.pack Format.binary64 (.finite s m e hm)) = _
  rw [pack_normal hlow hhigh hleast htop, UnpackedFloat.unpack]
  simp only [unpackExponent_packComponents, unpackMantissa_packComponents,
    unpackSign_packComponents, Sign.ofBitVec_toBitVec, hones, hzero, if_false, hmantissa,
    hexponent, exponentBias_eq]
  congr 1
  omega

theorem unpack_pack_subnormal {s : Sign} {m : Nat} {hm : 0 < m} (hhigh : m < 2 ^ 52) :
    (Float.Model.pack (.finite s m (-1074) hm)).unpack = .finite s m (-1074) hm := by
  have hmantissa : (BitVec.ofNat 52 m).toNat = m := by
    rw [BitVec.toNat_ofNat]
    omega
  have hzero : BitVec.ofNat 52 m ≠ 0#52 := by
    intro heq
    have hnat := congrArg BitVec.toNat heq
    rw [hmantissa, show (0#52).toNat = 0 from rfl] at hnat
    exact Nat.ne_of_gt hm hnat
  change UnpackedFloat.unpack Format.binary64
    (UnpackedFloat.pack Format.binary64 (.finite s m (-1074) hm)) = _
  rw [pack_subnormal hhigh, UnpackedFloat.unpack]
  simp only [unpackExponent_packComponents, unpackMantissa_packComponents,
    unpackSign_packComponents, Sign.ofBitVec_toBitVec, hmantissa, exponentBias_eq, hzero,
    dite_false, if_true]
  rw [if_neg (by decide)]
  rfl

/-- A float in normal form is its bits. -/
theorem unpack_pack_finite {s : Sign} {m : Nat} {e : Int} (h : Normal m e)
    (htop : e ≤ topExponent) :
    (Float.Model.pack (.finite s m e h.pos)).unpack = .finite s m e h.pos := by
  by_cases hlow : 2 ^ 52 ≤ m
  · exact unpack_pack_normal hlow h.lt h.least htop
  · obtain rfl : e = -1074 := h.full.resolve_left hlow
    exact unpack_pack_subnormal (Nat.lt_of_not_le hlow)

theorem unpack_pack_zero (s : Sign) : (Float.Model.pack (.zero s)).unpack = .zero s := by
  cases s <;> rfl

theorem unpack_pack_infinity (s : Sign) :
    (Float.Model.pack (.infinity s)).unpack = .infinity s := by
  cases s <;> rfl

/-! ## Unpacking -/

/-- What the bits of a float can hold. -/
inductive Packable : UnpackedFloat → Prop where
  | notANumber : Packable .notANumber
  | infinity (s : Sign) : Packable (.infinity s)
  | zero (s : Sign) : Packable (.zero s)
  | finite (s : Sign) {m : Nat} {e : Int} (h : Normal m e) (htop : e ≤ topExponent) :
      Packable (.finite s m e h.pos)

/-- What the bits hold, one case for each kind of biased exponent. -/
theorem packable_of_bits (b : BitVec Format.binary64.numBits) :
    Packable (UnpackedFloat.unpack Format.binary64 b) := by
  have hmantissa : (unpackMantissa b).toNat < 2 ^ 52 := (unpackMantissa b).isLt
  have hexponent : (unpackExponent b).toNat < 2 ^ 11 := (unpackExponent b).isLt
  rw [UnpackedFloat.unpack]
  -- A biased exponent of all ones is an infinity or no number, one of zero has the bits as they
  -- are, and any other has the leading bit besides.
  split
  next hones =>
    split
    next hzero => exact .infinity _
    next hzero => exact .notANumber
  next hones =>
    split
    next hbiased =>
      split
      next hzero => exact .zero _
      next hzero =>
        have hpos : 0 < (unpackMantissa b).toNat :=
          Nat.pos_of_ne_zero fun heq => hzero (BitVec.eq_of_toNat_eq heq)
        have hleast : ((unpackExponent b).toNat : Int) - ((Format.binary64.exponentBias : Nat) +
            (Format.binary64.mantissaBitsWithoutImplicit : Nat)) + 1 = -1074 := by
          rw [hbiased]
          rfl
        have hnormal : Normal (unpackMantissa b).toNat (-1074) :=
          ⟨hpos, by omega, Int.le_refl _, Or.inr rfl⟩
        simp only [hleast]
        exact .finite _ hnormal (by decide)
    next hbiased =>
      have htop : (unpackExponent b).toNat ≠ 2047 := fun heq => hones (BitVec.eq_of_toNat_eq heq)
      have hpos : (unpackExponent b).toNat ≠ 0 := fun heq => hbiased (BitVec.eq_of_toNat_eq heq)
      have hwhole : (1#1 ++ unpackMantissa b).toNat = 2 ^ 52 + (unpackMantissa b).toNat :=
        toNat_implicit (unpackMantissa b)
      have hreal : ((unpackExponent b).toNat : Int) - ((Format.binary64.exponentBias : Nat) +
          (Format.binary64.mantissaBitsWithoutImplicit : Nat)) =
          (unpackExponent b).toNat - 1075 := rfl
      have hnormal : Normal (1#1 ++ unpackMantissa b).toNat
          ((unpackExponent b).toNat - 1075) :=
        ⟨by omega, by omega, by omega, Or.inl (by omega)⟩
      have hrange : ((unpackExponent b).toNat : Int) - 1075 ≤ topExponent := by
        unfold topExponent
        omega
      simp only [hreal]
      exact .finite _ hnormal hrange

theorem packable_unpack (x : Float.Model) : Packable x.unpack :=
  packable_of_bits x.toBits.toBitVec

@[simp] theorem pack_unpack (x : Float.Model) : Float.Model.pack x.unpack = x := by
  have hbits := pack_unpack_of_valid x.valid
  cases x with
  | mk bits hvalid =>
      simp only [Float.Model.pack, Float.Model.unpack] at hbits ⊢
      simp only [hbits]

@[simp] theorem unpack_pack {f : UnpackedFloat} (h : Packable f) :
    (Float.Model.pack f).unpack = f := by
  cases h with
  | notANumber => rfl
  | infinity s => exact unpack_pack_infinity s
  | zero s => exact unpack_pack_zero s
  | finite s h htop => exact unpack_pack_finite h htop

/-- A positive float by its exact value. -/
theorem unpack_of_exact {x : Float} {m : Nat} {e : Int}
    (h : Decimal.exact x = .finite false m e) (hm : m ≠ 0) :
    ∃ hnormal : Normal m e, e ≤ topExponent ∧ x.toModel.unpack = positive hnormal := by
  have hpackable := packable_unpack x.toModel
  rw [Decimal.exact] at h
  generalize x.toModel.unpack = f at h hpackable
  cases hpackable with
  | notANumber => cases h
  | infinity s => cases h
  | zero s =>
      injection h with _ hzero
      exact absurd hzero.symm hm
  | finite s hnormal htop =>
      cases s with
      | negative => cases h
      | positive =>
          cases h
          exact ⟨hnormal, htop, rfl⟩

end RecordQuery.Binary
