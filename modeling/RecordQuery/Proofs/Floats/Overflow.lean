import RecordQuery.Proofs.Floats.Literals
import RecordQuery.Proofs.Floats.Nearest
import RecordQuery.Value.Conversion

/-! # Decimals out of range

A decimal becomes a finite float if it lies below the overflow, however small it is, and the
infinity from there on.
-/

namespace RecordQuery.Binary

open Float.Model Float.Model.UnpackedFloat

variable {m : Nat} {e : Int} {d k : Nat} {negative : Bool}

theorem isFinite_ofModel_pack {f : UnpackedFloat} (h : Packable f) :
    (Float.ofModel (.pack f)).isFinite = f.isFinite := by
  change (Float.Model.pack f).unpack.isFinite = f.isFinite
  rw [unpack_pack h]

/-! ## Above the greatest exponent -/

/-- With an exponent above the range, the bits are those of an infinity. -/
theorem pack_above {s : Sign} {hm : 0 < m} (h : topExponent < e) :
    Float.Model.pack (.finite s m e hm) = .pack (.infinity s) := by
  have hbits : UnpackedFloat.pack Format.binary64 (.finite s m e hm) =
      UnpackedFloat.pack Format.binary64 (.infinity s) := by
    have hbiased : (e + (Format.binary64.exponentBias : Nat) +
        (Format.binary64.mantissaBitsWithoutImplicit : Nat)).toNat = (e + 1075).toNat := by
      change (e + (1023 : Int) + (52 : Int)).toNat = _
      omega
    have hrange : 2 ^ 11 ≤ (e + 1075).toNat + 1 := by
      unfold topExponent at h
      omega
    simp only [UnpackedFloat.pack, hbiased]
    exact if_pos hrange
  simp only [Float.Model.pack, hbits]

/-- A decimal whose float would have too large an exponent is the infinity. -/
theorem ofScientific_above (h : Normal m e) (htop : topExponent < e)
    (hv : ReadsAs m e (scaled d negative k)) :
    Float.ofScientific d negative k = .ofModel (.pack (.infinity .positive)) := by
  by_cases hsmall : d < 2 ^ 53 ∧ k ≤ 22
  · rw [ofScientific_small h hsmall.1 hsmall.2 hv, positive, pack_above htop]
  · rw [ofScientific_of_not_small hsmall]
    rw [scaled_eq] at hv
    by_cases hlarge : exponentOf negative k ≤ 2 ^ 11
    · rw [ofScientific_big h hlarge hv, positive, pack_above htop]
    -- A larger exponent is cut off without a look at the digits.
    · rw [UnpackedFloat.ofScientific, dif_neg (h.ne_zero_of_readsAs hv),
        if_pos (not_le.mp hlarge)]

/-! ## Up to half the least float -/

theorem roundWithAccuracy_tiny {num den : Nat} {p : Int} (hden : 0 < den)
    (hv : (num : ℚ) / den * 2 ^ p ≤ underflow) (htarget : p ≤ target (num / den) p)
    (s : Sign) :
    roundWithAccuracy Format.binary64 s (num / den) p (accuracyOfFraction (num % den) den) =
      .zero s := by
  have hleast : target (num / den) p = -1074 := by
    by_contra hne
    have hlow : -1074 < target (num / den) p := by
      unfold target at hne ⊢
      omega
    have hfull := target_le_quotient hden htarget hne
    have hdouble := two_mul_zpow_le hlow
    have hscale : (0 : ℚ) < 2 ^ (-1074 : Int) := by positivity
    unfold underflow at hv
    nlinarith
  have hreads : ReadsAs 0 (-1074) ((num : ℚ) / den * 2 ^ p) := by
    refine ⟨?_, ?_, fun hodd => absurd (by decide) hodd⟩
    have hreach := reach_pos 0 (-1074)
    have hscale : (0 : ℚ) < 2 ^ (-1074 : Int) := by positivity
    have hnonneg : (0 : ℚ) ≤ (num : ℚ) / den * 2 ^ p := by positivity
    · rw [Nat.cast_zero, zero_sub]
      nlinarith
    · rw [Nat.cast_zero, zero_add]
      exact hv
  have hle : p ≤ -1074 := hleast ▸ htarget
  rw [roundWithAccuracy_eq hden, hleast, roundDiv_of_readsAs hden hle hreads]
  rfl

theorem div_tiny {m₁ m₂ : Nat} {e₁ e₂ : Int} (h₁ : 0 < m₁) (h₂ : 0 < m₂)
    (hv : (m₁ : ℚ) * 2 ^ e₁ / (m₂ * 2 ^ e₂) ≤ underflow) :
    UnpackedFloat.div Format.binary64 (.finite .positive m₁ e₁ h₁) (.finite .positive m₂ e₂ h₂) =
      .zero .positive := by
  obtain ⟨num, p, htarget, hvalue, hdiv⟩ := exists_div_eq h₁ h₂
  rw [hvalue] at hv
  rw [hdiv]
  exact roundWithAccuracy_tiny h₂ hv htarget .positive

theorem one_le_decimal (hd : d ≠ 0) {x : Int} (hx : 0 ≤ x) : (1 : ℚ) ≤ d * 10 ^ x := by
  have hdigits : (1 : ℚ) ≤ d := by exact_mod_cast Nat.pos_of_ne_zero hd
  exact one_le_mul_of_one_le_of_one_le hdigits (one_le_zpow₀ (by norm_num) hx)

/-- With a small exponent, only zero is rounded to zero. -/
theorem underflow_lt_scaled (hd : d ≠ 0) (hk : k ≤ 22) : underflow < scaled d negative k := by
  have hdigits : (1 : ℚ) ≤ d := by exact_mod_cast Nat.pos_of_ne_zero hd
  have hexponent : -22 ≤ exponentOf negative k := by
    cases negative with
    | true =>
        rw [exponentOf, if_pos rfl, Int.negOfNat_eq, Int.ofNat_eq_natCast]
        omega
    | false => exact le_trans (by decide) (Int.natCast_nonneg k)
  rw [scaled_eq]
  calc underflow < 2 ^ (-1074 : Int) := mul_lt_of_lt_one_left (by positivity) one_half_lt_one
    _ ≤ 2 ^ (-74 : Int) := zpow_le_zpow_right₀ one_le_two (by decide)
    _ ≤ 10 ^ (-22 : Int) := by norm_num
    _ ≤ 10 ^ exponentOf negative k := zpow_le_zpow_right₀ (by norm_num) hexponent
    _ ≤ d * 10 ^ exponentOf negative k := le_mul_of_one_le_left (by positivity) hdigits

/-- A tiny decimal with many digits or a large exponent is zero, by its exponent alone or by a
quotient that is rounded to zero. -/
theorem ofScientific_big_tiny {x : Int} (hv : (d : ℚ) * 10 ^ x ≤ underflow) :
    UnpackedFloat.ofScientific Format.binary64 d x = .zero .positive := by
  by_cases hd : d = 0
  · rw [UnpackedFloat.ofScientific, dif_pos hd]
  have hneg : x < 0 := by
    by_contra hx
    have hone := one_le_decimal hd (not_lt.mp hx)
    linarith [underflow_lt_one]
  have hcut : ¬ x > 2 ^ Format.binary64.exponentBits := by
    have hbits : (2 : Int) ^ Format.binary64.exponentBits = 2048 := rfl
    omega
  rw [UnpackedFloat.ofScientific, dif_neg hd, if_neg hcut, if_neg (not_le.mpr hneg)]
  split
  · rfl
  · obtain ⟨n, rfl⟩ : ∃ n : Nat, x = -n := ⟨(-x).toNat, by omega⟩
    refine div_tiny _ _ (le_of_eq_of_le ?_ hv)
    rw [neg_neg, zpow_neg, zpow_natCast, zpow_zero, mul_one, mul_one, Int.toNat_natCast]
    push_cast
    rw [div_eq_mul_inv]

theorem isFinite_ofScientific_zero : ∀ k : Fin 23, ∀ negative : Bool,
    (Float.ofScientific 0 negative k).isFinite = true := by
  decide +kernel

theorem isFinite_ofScientific_tiny (hv : scaled d negative k ≤ underflow) :
    (Float.ofScientific d negative k).isFinite = true := by
  by_cases hsmall : d < 2 ^ 53 ∧ k ≤ 22
  · obtain rfl : d = 0 := by
      by_contra hd
      exact absurd hv (not_le.mpr (underflow_lt_scaled hd hsmall.2))
    exact isFinite_ofScientific_zero ⟨k, Nat.lt_succ_of_le hsmall.2⟩ negative
  · rw [scaled_eq] at hv
    rw [ofScientific_of_not_small hsmall, ofScientific_big_tiny hv, isFinite_ofModel_pack (.zero _)]
    rfl

/-! ## All decimals -/

theorem isFinite_ofScientific (h : scaled d negative k < overflow) :
    (Float.ofScientific d negative k).isFinite = true := by
  rcases le_or_gt (scaled d negative k) underflow with htiny | hlarge
  · exact isFinite_ofScientific_tiny htiny
  · obtain ⟨m, e, hnormal, hv⟩ := exists_readsAs_of_lt hlarge
    have htop := (hv.lt_overflow_iff hnormal).mp h
    rw [ofScientific_eq hnormal htop hv, positive,
      isFinite_ofModel_pack (.finite _ hnormal htop)]
    rfl

theorem ofScientific_eq_infinity (h : overflow ≤ scaled d negative k) :
    Float.ofScientific d negative k = infinity := by
  have hone : (1 : ℚ) < overflow := lt_overflow_of_le_pow (by norm_num)
  obtain ⟨m, e, hnormal, hv⟩ :=
    exists_readsAs_of_lt (underflow_lt_one.trans (hone.trans_le h))
  have htop := not_le.mp ((hv.lt_overflow_iff hnormal).not.mp (not_lt.mpr h))
  rw [ofScientific_above hnormal htop hv]
  rfl

end RecordQuery.Binary

namespace RecordQuery.Decimal

open Binary

/-- A literal below the overflow is finite. -/
theorem Literal.isFinite_toFloat {l : Literal} (h : l.value < overflow) :
    l.toFloat.isFinite = true := by
  obtain ⟨d, negative, k, hfloat, hvalue⟩ := l.exists_scaled
  rw [hfloat]
  exact isFinite_ofScientific (hvalue ▸ h)

theorem Literal.toFloat_eq_infinity {l : Literal} (h : overflow ≤ l.value) :
    l.toFloat = infinity := by
  obtain ⟨d, negative, k, hfloat, hvalue⟩ := l.exists_scaled
  rw [hfloat]
  exact ofScientific_eq_infinity (hvalue ▸ h)

end RecordQuery.Decimal
