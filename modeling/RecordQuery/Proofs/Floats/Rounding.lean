import RecordQuery.Decimal.Rounding
import RecordQuery.Proofs.Floats.Encoding

/-! # Rounding to a float

A product or a quotient is rounded from the exact value: the integer quotient at the target
exponent goes to the nearest, a tie to the even one. So the values around a float up to half the
way to its neighbours are rounded to it.
-/

namespace RecordQuery

open Float.Model Float.Model.UnpackedFloat

namespace Decimal

/-- Integers in units of `c` compare as their values do. -/
theorem compare_units {a b : Nat} {x y c : ℚ} (hc : 0 < c) (ha : (a : ℚ) = x * c)
    (hb : (b : ℚ) = y * c) : (a ≤ b ↔ x ≤ y) ∧ (a < b ↔ x < y) := by
  constructor
  · rw [← @Nat.cast_le ℚ, ha, hb, mul_le_mul_iff_left₀ hc]
  · rw [← @Nat.cast_lt ℚ, ha, hb, mul_lt_mul_iff_left₀ hc]

/-- A fraction within half of `q` is rounded to it, and from exactly half if `q` is even. -/
theorem roundDiv_toEven {num den q : Nat} (hden : 0 < den) (hlow : 2 * q * den ≤ 2 * num + den)
    (hhigh : 2 * num ≤ 2 * q * den + den)
    (hodd : q % 2 ≠ 0 → 2 * q * den < 2 * num + den ∧ 2 * num < 2 * q * den + den) :
    roundDiv num den .toEven = q := by
  have hsplit := Nat.div_add_mod num den
  have hlt := Nat.mod_lt num hden
  simp only [roundDiv]
  generalize num / den = below at hsplit
  generalize num % den = rest at hsplit hlt
  have hle : below ≤ q := by nlinarith
  have hge : q ≤ below + 1 := by nlinarith
  -- The quotient is the floor or one more, and the rest decides between the two.
  have hcases : q = below ∨ q = below + 1 := by omega
  rcases hcases with rfl | rfl
  · have hrest : 2 * rest ≤ den := by nlinarith
    rcases Nat.lt_or_eq_of_le hrest with hcmp | hcmp
    · rw [Nat.compare_eq_lt.mpr hcmp]
    · rw [Nat.compare_eq_eq.mpr hcmp]
      have heven : q % 2 = 0 := by
        by_contra hq
        have := (hodd hq).2
        nlinarith
      simp only [heven, if_true]
  · have hrest : den ≤ 2 * rest := by nlinarith
    rcases Nat.lt_or_eq_of_le hrest with hcmp | hcmp
    · rw [Nat.compare_eq_gt.mpr hcmp]
    · rw [Nat.compare_eq_eq.mpr hcmp.symm]
      have hbelow : below % 2 ≠ 0 := by
        intro hq
        have := (hodd (by omega)).1
        nlinarith
      simp only [hbelow, if_false]

/-- A quotient within half of an integer is rounded to it, and from exactly half if it is even. -/
theorem roundDiv_eq {num den q : Nat} (hden : 0 < den) (hlow : (q : ℚ) - 1 / 2 ≤ num / den)
    (hhigh : (num : ℚ) / den ≤ q + 1 / 2)
    (hodd : q % 2 ≠ 0 → (q : ℚ) - 1 / 2 < num / den ∧ (num : ℚ) / den < q + 1 / 2) :
    roundDiv num den .toEven = q := by
  have hden' : (0 : ℚ) < den := by exact_mod_cast hden
  have hfloor : ((2 * q * den : ℕ) : ℚ) = 2 * q * den := by push_cast; ring
  have habove : ((2 * num + den : ℕ) : ℚ) = (2 * (num / den) + 1) * den := by
    push_cast
    field_simp
  have hdouble : ((2 * num : ℕ) : ℚ) = 2 * (num / den) * den := by
    push_cast
    field_simp
  have hnext : ((2 * q * den + den : ℕ) : ℚ) = (2 * q + 1) * den := by
    push_cast
    ring
  obtain ⟨hlowLe, hlowLt⟩ := compare_units hden' hfloor habove
  obtain ⟨hhighLe, hhighLt⟩ := compare_units hden' hdouble hnext
  apply roundDiv_toEven hden
  · rw [hlowLe]
    linarith
  · rw [hhighLe]
    linarith
  · intro hq
    rw [hlowLt, hhighLt]
    obtain ⟨hlow, hhigh⟩ := hodd hq
    constructor <;> linarith

end Decimal

namespace Binary

/-! ## Quotients with their rounding bits -/

/-- The quotient `num / den` with the two bits that decide how it is rounded. -/
def quotient (num den : Nat) : ExtendedMantissa where
  mantissa := num / den
  roundBit := decide (den ≤ 2 * (num % den))
  stickyBit := decide (2 * (num % den) % den ≠ 0)

theorem ofMantissaAndAccuracy_fraction {num den : Nat} (hden : 0 < den) :
    ExtendedMantissa.ofMantissaAndAccuracy (num / den) (accuracyOfFraction (num % den) den) =
      quotient num den := by
  have hlt := Nat.mod_lt num hden
  generalize hrest : num % den = rest at hlt
  by_cases hzero : rest = 0
  · have hnone : ¬ den ≤ 0 := by omega
    simp [quotient, accuracyOfFraction, ExtendedMantissa.ofMantissaAndAccuracy, hrest, hzero, hnone]
  · simp only [quotient, accuracyOfFraction, hrest, hzero, if_false]
    rcases Nat.lt_trichotomy (2 * rest) den with hcmp | hcmp | hcmp
    · have hmod : 2 * rest % den = 2 * rest := Nat.mod_eq_of_lt hcmp
      have hnone : ¬ den ≤ 2 * rest := by omega
      simp [Nat.compare_eq_lt.mpr hcmp, ExtendedMantissa.ofMantissaAndAccuracy, hmod, hnone, hzero]
    · simp [hcmp, ExtendedMantissa.ofMantissaAndAccuracy]
    · have hmod : 2 * rest % den = 2 * rest - den := by
        rw [Nat.mod_eq_sub_mod (by omega), Nat.mod_eq_of_lt (by omega)]
      have hsub : 2 * rest - den ≠ 0 := by omega
      simp [Nat.compare_eq_gt.mpr hcmp, ExtendedMantissa.ofMantissaAndAccuracy, hmod, hsub,
        Nat.le_of_lt hcmp]

theorem shiftRightOne_quotient {num den : Nat} (hden : 0 < den) :
    (quotient num den).shiftRightOne = quotient num (den * 2) := by
  have hlt := Nat.mod_lt num hden
  have hmod : num % (den * 2) = num % den + den * (num / den % 2) := Nat.mod_mul
  have hbit := Nat.mod_two_eq_zero_or_one (num / den)
  have hshifted : 2 * (num % den + den * (num / den % 2)) % (den * 2) = 2 * (num % den) := by
    rw [show 2 * (num % den + den * (num / den % 2)) =
      2 * (num % den) + den * 2 * (num / den % 2) by ring, Nat.add_mul_mod_self_left]
    exact Nat.mod_eq_of_lt (by omega)
  simp only [quotient, ExtendedMantissa.shiftRightOne, hmod, hshifted, Nat.div_div_eq_div_mul,
    ExtendedMantissa.mk.injEq, true_and]
  generalize num % den = rest at hlt
  constructor
  -- The new round bit is the old last bit, and the new sticky bit joins both old bits.
  · rcases hbit with hbit | hbit
    · have hnone : ¬ den * 2 ≤ 2 * rest := by omega
      simp [hbit, hnone]
    · have hsome : den * 2 ≤ 2 * (rest + den) := by omega
      simp [hbit, hsome]
  · rw [← Bool.decide_or]
    congr 1
    apply propext
    constructor
    · rintro (hle | hne) hzero
      · omega
      · rw [hzero, Nat.zero_mod] at hne
        exact hne rfl
    · intro hne
      by_cases hle : den ≤ 2 * rest
      · exact Or.inl hle
      · rw [Nat.mod_eq_of_lt (by omega)]
        exact Or.inr hne

theorem shiftRight_quotient {num den : Nat} (hden : 0 < den) (k : Nat) :
    quotient num den >>> k = quotient num (den * 2 ^ k) := by
  change k.repeat ExtendedMantissa.shiftRightOne (quotient num den) = _
  induction k with
  | zero => rw [Nat.pow_zero, Nat.mul_one, Nat.repeat]
  | succ k ih =>
      have hpos : 0 < den * 2 ^ k := Nat.mul_pos hden (Nat.two_pow_pos k)
      rw [Nat.repeat, ih, shiftRightOne_quotient hpos, Nat.pow_succ, Nat.mul_assoc]

theorem roundedMantissa_quotient {num den : Nat} (hden : 0 < den) :
    (quotient num den).roundedMantissa = Decimal.roundDiv num den .toEven := by
  have hlt := Nat.mod_lt num hden
  simp only [quotient, ExtendedMantissa.roundedMantissa, Decimal.roundDiv]
  generalize num % den = rest at hlt
  generalize num / den = below
  rcases Nat.lt_trichotomy (2 * rest) den with hcmp | hcmp | hcmp
  · have hnone : ¬ den ≤ 2 * rest := by omega
    rw [Nat.compare_eq_lt.mpr hcmp, decide_eq_false hnone]
    cases decide (2 * rest % den ≠ 0) <;> rfl
  · rw [Nat.compare_eq_eq.mpr hcmp, hcmp, Nat.mod_self, decide_eq_true (Nat.le_refl den)]
    change below + below % 2 = if below % 2 = 0 then below else below + 1
    split <;> omega
  · have hmod : 2 * rest % den = 2 * rest - den := by
      rw [Nat.mod_eq_sub_mod (by omega), Nat.mod_eq_of_lt (by omega)]
    have hsub : 2 * rest - den ≠ 0 := by omega
    rw [Nat.compare_eq_gt.mpr hcmp, hmod, decide_eq_true hsub, decide_eq_true (Nat.le_of_lt hcmp)]
    rfl

/-! ## The target exponent -/

/-- The exponent at which `m * 2 ^ e` has 53 bits, or the least exponent. -/
def target (m : Nat) (e : Int) : Int :=
  max (m.log2 + 1 + e - 53) (-1074)

/-- A rounded significand with its exponent in normal form: rounding up to `2 ^ 53` carries. -/
def carry (s : Sign) (m : Nat) (e : Int) : UnpackedFloat :=
  if h : m = 0 then .zero s
  else if m < 2 ^ 53 then .finite s m e (Nat.pos_of_ne_zero h)
  else .finite s (2 ^ 52) (e + 1) (by decide)

theorem targetExponent_eq (m : Nat) (e : Int) :
    Format.binary64.targetExponent (totalExponent m e) = target m e := rfl

theorem shiftToTargetExponent_self {m : Nat} {e : Int} (hm : m < 2 ^ 53) (he : -1074 ≤ e) :
    shiftToTargetExponent Format.binary64 m e .exact = (⟨m, false, false⟩, e) := by
  have hlog : m.log2 < 53 := by
    by_cases hzero : m = 0
    · rw [hzero]
      decide
    · exact (Nat.log2_lt hzero).mpr hm
  have hshift : (target m e - e).toNat = 0 := by
    unfold target
    omega
  simp only [shiftToTargetExponent, shiftToExponent, targetExponent_eq, hshift]
  exact Prod.ext rfl (Int.add_zero e)

theorem shiftToTargetExponent_carry {e : Int} (he : -1074 ≤ e) :
    shiftToTargetExponent Format.binary64 (2 ^ 53) e .exact = (⟨2 ^ 52, false, false⟩, e + 1) := by
  have hshift : (target (2 ^ 53) e - e).toNat = 1 := by
    unfold target
    rw [Nat.log2_two_pow]
    omega
  simp only [shiftToTargetExponent, shiftToExponent, targetExponent_eq, hshift]
  rfl

/-- At the target exponent a quotient has at most 53 bits. -/
theorem div_lt_of_target (num den : Nat) (e : Int) :
    num / (den * 2 ^ (target (num / den) e - e).toNat) < 2 ^ 53 := by
  rw [← Nat.div_div_eq_div_mul, Nat.div_lt_iff_lt_mul (Nat.two_pow_pos _), ← Nat.pow_add]
  by_cases hzero : num / den = 0
  · rw [hzero]
    exact Nat.two_pow_pos _
  · rw [← Nat.log2_lt hzero]
    unfold target
    omega

theorem roundWithAccuracy_of_shift {s : Sign} {m : Nat} {e t : Int} {accuracy : Accuracy}
    {em : ExtendedMantissa}
    (h : shiftToTargetExponent Format.binary64 m e accuracy = (em, t))
    (hle : em.roundedMantissa ≤ 2 ^ 53) (ht : -1074 ≤ t) :
    roundWithAccuracy Format.binary64 s m e accuracy = carry s em.roundedMantissa t := by
  simp only [roundWithAccuracy, h]
  rcases Nat.lt_or_eq_of_le hle with hlt | heq
  · simp only [shiftToTargetExponent_self hlt ht, carry, hlt, if_true]
  · simp only [heq, shiftToTargetExponent_carry ht]
    rfl

/-- Rounding takes the nearest quotient at the target exponent. -/
theorem roundWithAccuracy_eq {num den : Nat} (hden : 0 < den) (s : Sign) (e : Int) :
    roundWithAccuracy Format.binary64 s (num / den) e (accuracyOfFraction (num % den) den) =
      carry s
        (Decimal.roundDiv num (den * 2 ^ (target (num / den) e - e).toNat) .toEven)
        (e + (target (num / den) e - e).toNat) := by
  have hpos : 0 < den * 2 ^ (target (num / den) e - e).toNat :=
    Nat.mul_pos hden (Nat.two_pow_pos _)
  have hshift : shiftToTargetExponent Format.binary64 (num / den) e
      (accuracyOfFraction (num % den) den) =
      (quotient num (den * 2 ^ (target (num / den) e - e).toNat),
        e + (target (num / den) e - e).toNat) := by
    simp only [shiftToTargetExponent, shiftToExponent, targetExponent_eq,
      ofMantissaAndAccuracy_fraction hden, shiftRight_quotient hden]
  rw [roundWithAccuracy_of_shift hshift, roundedMantissa_quotient hpos]
  · rw [roundedMantissa_quotient hpos]
    have hlt := div_lt_of_target num den e
    have hround := Decimal.roundDiv_eq_or num
      (den * 2 ^ (target (num / den) e - e).toNat) .toEven
    rcases hround with heq | heq <;> omega
  · unfold target
    omega

/-! ## The reals around a float -/

/-- How far below a float, in units of its last place, the values reach that are rounded to it.
Below a power of two the neighbour is only half as far away. -/
def reach (m : Nat) (e : Int) : ℚ :=
  if m = 2 ^ 52 ∧ e ≠ -1074 then 1 / 4 else 1 / 2

/-- A value is rounded to the float `m * 2 ^ e`: it lies at most half the way to a neighbour, and
less than that if the significand is odd. -/
structure ReadsAs (m : Nat) (e : Int) (v : ℚ) : Prop where
  lower : (m - reach m e) * 2 ^ e ≤ v
  upper : v ≤ (m + 1 / 2) * 2 ^ e
  odd : m % 2 ≠ 0 → (m - reach m e) * 2 ^ e < v ∧ v < (m + 1 / 2) * 2 ^ e

theorem reach_le (m : Nat) (e : Int) : reach m e ≤ 1 / 2 := by
  unfold reach
  split <;> norm_num

theorem reach_pos (m : Nat) (e : Int) : 0 < reach m e := by
  unfold reach
  split <;> norm_num

/-- A float is rounded to itself. -/
theorem readsAs_self (m : Nat) (e : Int) : ReadsAs m e (m * 2 ^ e) := by
  have hscale : (0 : ℚ) < 2 ^ e := by positivity
  have hreach := reach_pos m e
  have hlow : (m - reach m e) * 2 ^ e < m * 2 ^ e := by nlinarith
  have hhigh : (m : ℚ) * 2 ^ e < (m + 1 / 2) * 2 ^ e := by nlinarith
  exact ⟨hlow.le, hhigh.le, fun _ => ⟨hlow, hhigh⟩⟩

/-! ## Rounding near a float -/

variable {num den : Nat} {p : Int}

/-- Below the target exponent a quotient has no more than 53 bits, and exactly 53 unless the target
is the least exponent. -/
theorem quotient_lt_target (hden : 0 < den) (num : Nat) (p : Int) :
    (num : ℚ) / den * 2 ^ p < 2 ^ 53 * 2 ^ target (num / den) p := by
  have hden' : (0 : ℚ) < den := by exact_mod_cast hden
  have hfloor : (num : ℚ) / den < 2 ^ (((num / den).log2 : Int) + 1) := by
    have hnat : num < 2 ^ ((num / den).log2 + 1) * den :=
      (Nat.div_lt_iff_lt_mul hden).mp Nat.lt_log2_self
    rw [div_lt_iff₀ hden']
    exact_mod_cast hnat
  have hscale : (0 : ℚ) < 2 ^ p := by positivity
  calc (num : ℚ) / den * 2 ^ p < 2 ^ (((num / den).log2 : Int) + 1) * 2 ^ p := by gcongr
    _ = 2 ^ (((num / den).log2 : Int) + 1 + p) := by rw [← zpow_add₀ two_ne_zero]
    _ ≤ 2 ^ (53 + target (num / den) p) := by
        apply zpow_le_zpow_right₀ one_le_two
        unfold target
        omega
    _ = 2 ^ 53 * 2 ^ target (num / den) p := by
        rw [zpow_add₀ two_ne_zero]
        norm_num

theorem target_le_quotient (hden : 0 < den) (htarget : p ≤ target (num / den) p)
    (hleast : target (num / den) p ≠ -1074) :
    2 ^ 52 * 2 ^ target (num / den) p ≤ (num : ℚ) / den * 2 ^ p := by
  have hden' : (0 : ℚ) < den := by exact_mod_cast hden
  have heq : target (num / den) p = (num / den).log2 + p - 52 := by
    unfold target at hleast ⊢
    omega
  have hne : num / den ≠ 0 := by
    intro hzero
    rw [hzero, show Nat.log2 0 = 0 by decide] at heq
    rw [hzero] at htarget
    omega
  have hfloor : (2 : ℚ) ^ ((num / den).log2 : Int) ≤ (num : ℚ) / den := by
    have hnat : 2 ^ (num / den).log2 * den ≤ num :=
      (Nat.le_div_iff_mul_le hden).mp (Nat.log2_self_le hne)
    rw [le_div_iff₀ hden']
    exact_mod_cast hnat
  have hscale : (0 : ℚ) < 2 ^ p := by positivity
  calc (2 : ℚ) ^ 52 * 2 ^ target (num / den) p = 2 ^ (52 + target (num / den) p) := by
        rw [zpow_add₀ two_ne_zero]
        norm_num
    _ = 2 ^ ((num / den).log2 : Int) * 2 ^ p := by
        rw [← zpow_add₀ two_ne_zero, heq]
        congr 1
        omega
    _ ≤ (num : ℚ) / den * 2 ^ p := by gcongr

theorem two_mul_zpow_le {s t : Int} (h : s < t) : (2 : ℚ) * 2 ^ s ≤ 2 ^ t := by
  calc (2 : ℚ) * 2 ^ s = 2 ^ (s + 1) := by rw [zpow_add_one₀ two_ne_zero, mul_comm]
    _ ≤ 2 ^ t := zpow_le_zpow_right₀ one_le_two h

theorem Normal.add_one_le {m : Nat} {e : Int} (h : Normal m e) : (m : ℚ) + 1 ≤ 2 ^ 53 := by
  have hlt := h.lt
  exact_mod_cast hlt

/-- Only a power of two has values that are rounded to it from below its own exponent, and they are
no more than one exponent below. -/
theorem eq_of_readsAs_of_lt {m : Nat} {e t : Int} {v : ℚ} (h : Normal m e) (hv : ReadsAs m e v)
    (hbelow : v < 2 ^ 53 * 2 ^ t) (hleast : -1074 ≤ t) (hlt : t < e) :
    t = e - 1 ∧ m = 2 ^ 52 ∧ e ≠ -1074 := by
  have hleast' : e ≠ -1074 := by omega
  have hfull := h.full.resolve_right hleast'
  have hscale : (0 : ℚ) < 2 ^ e := by positivity
  have hdouble := two_mul_zpow_le hlt
  have hlower := hv.lower
  have hpower : m = 2 ^ 52 := by
    -- Any other significand is half a unit or more above `2 ^ 52`, and so are its values.
    by_contra hne
    have hhalf : reach m e = 1 / 2 := if_neg fun hboth => hne hboth.1
    have hnext : (2 : ℚ) ^ 52 + 1 ≤ m := by
      have hnext : 2 ^ 52 + 1 ≤ m := by omega
      exact_mod_cast hnext
    rw [hhalf] at hlower
    nlinarith
  refine ⟨?_, hpower, hleast'⟩
  by_contra hne
  -- Two exponents down, values are less than half of the power.
  have hquarter : reach m e = 1 / 4 := if_pos ⟨hpower, hleast'⟩
  have hdouble' := two_mul_zpow_le (show t < e - 1 by omega)
  have hdouble'' := two_mul_zpow_le (show e - 1 < e by omega)
  have hm : (2 : ℚ) ^ 52 ≤ m := by exact_mod_cast hfull
  rw [hquarter] at hlower
  nlinarith

/-- No value that is rounded to a float lies above the float's own exponent. -/
theorem not_readsAs_of_lt {m : Nat} {e t : Int} {v : ℚ} (h : Normal m e) (hgt : e < t)
    (habove : 2 ^ 52 * 2 ^ t ≤ v) : ¬ ReadsAs m e v := by
  intro hv
  have hm := h.add_one_le
  have hscale : (0 : ℚ) < 2 ^ e := by positivity
  have hupper := hv.upper
  have hdouble := two_mul_zpow_le hgt
  nlinarith

/-- A value that is rounded to a float has the exponent of the float as its target, or the one below
it if the value lies below a power of two. -/
theorem target_eq_of_readsAs {m : Nat} {e : Int} (h : Normal m e) (hden : 0 < den)
    (hv : ReadsAs m e ((num : ℚ) / den * 2 ^ p)) (htarget : p ≤ target (num / den) p) :
    target (num / den) p = e ∨
      (target (num / den) p = e - 1 ∧ m = 2 ^ 52 ∧ e ≠ -1074) := by
  have hbelow := quotient_lt_target hden num p
  have hleast : -1074 ≤ target (num / den) p := by
    unfold target
    omega
  rcases Int.lt_trichotomy (target (num / den) p) e with hlt | heq | hgt
  · exact Or.inr (eq_of_readsAs_of_lt h hv hbelow hleast hlt)
  · exact Or.inl heq
  · have hfull : target (num / den) p ≠ -1074 := by
      have := h.least
      omega
    exact absurd hv (not_readsAs_of_lt h hgt (target_le_quotient hden htarget hfull))

/-- The quotient at the exponent `t` is the value in units of `2 ^ t`. -/
theorem quotient_eq_units (hden : 0 < den) (num : Nat) {t : Int} (ht : p ≤ t) :
    (num : ℚ) / ((den * 2 ^ (t - p).toNat : ℕ) : ℚ) = (num : ℚ) / den * 2 ^ p / 2 ^ t := by
  have hpow : (2 : ℚ) ^ t = 2 ^ p * 2 ^ (t - p).toNat := by
    rw [← zpow_natCast, ← zpow_add₀ two_ne_zero]
    congr 1
    omega
  have hden' : (den : ℚ) ≠ 0 := by exact_mod_cast hden.ne'
  rw [hpow]
  push_cast
  field_simp

theorem roundDiv_of_readsAs {m : Nat} {e : Int} (hden : 0 < den) (he : p ≤ e)
    (hv : ReadsAs m e ((num : ℚ) / den * 2 ^ p)) :
    Decimal.roundDiv num (den * 2 ^ (e - p).toNat) .toEven = m := by
  have hscale : (0 : ℚ) < 2 ^ e := by positivity
  have hunits := quotient_eq_units hden num he
  have hreach := reach_le m e
  apply Decimal.roundDiv_eq (Nat.mul_pos hden (Nat.two_pow_pos _))
  · rw [hunits, le_div_iff₀ hscale]
    have hlower := hv.lower
    nlinarith
  · rw [hunits, div_le_iff₀ hscale]
    exact hv.upper
  · intro hm
    obtain ⟨hlower, hupper⟩ := hv.odd hm
    rw [hunits, lt_div_iff₀ hscale, div_lt_iff₀ hscale]
    exact ⟨by nlinarith, hupper⟩

/-- One exponent below a power of two, values that are rounded to it are rounded up to `2 ^ 53`. -/
theorem roundDiv_of_readsAs_power {e : Int} (hden : 0 < den) (he : p ≤ e - 1) (hleast : e ≠ -1074)
    (hbelow : (num : ℚ) / den * 2 ^ p < 2 ^ 53 * 2 ^ (e - 1))
    (hv : ReadsAs (2 ^ 52) e ((num : ℚ) / den * 2 ^ p)) :
    Decimal.roundDiv num (den * 2 ^ (e - 1 - p).toNat) .toEven = 2 ^ 53 := by
  have hscale : (0 : ℚ) < 2 ^ (e - 1) := by positivity
  have hunits := quotient_eq_units hden num he
  have hquarter : reach (2 ^ 52) e = 1 / 4 := if_pos ⟨rfl, hleast⟩
  have hdouble : (2 : ℚ) ^ e = 2 * 2 ^ (e - 1) := by
    rw [mul_comm, ← zpow_add_one₀ two_ne_zero, Int.sub_add_cancel]
  have hlower := hv.lower
  rw [hquarter, hdouble] at hlower
  push_cast at hlower
  apply Decimal.roundDiv_eq (Nat.mul_pos hden (Nat.two_pow_pos _))
  · rw [hunits, le_div_iff₀ hscale]
    push_cast
    nlinarith
  · rw [hunits, div_le_iff₀ hscale]
    push_cast
    nlinarith
  · intro hodd
    exact absurd (by decide) hodd

/-- A quotient that is rounded to a float in normal form is rounded to just that. -/
theorem roundWithAccuracy_of_readsAs {m : Nat} {e : Int} (h : Normal m e) (hden : 0 < den)
    (hv : ReadsAs m e ((num : ℚ) / den * 2 ^ p)) (htarget : p ≤ target (num / den) p) (s : Sign) :
    roundWithAccuracy Format.binary64 s (num / den) p (accuracyOfFraction (num % den) den) =
      .finite s m e h.pos := by
  have hcases := target_eq_of_readsAs h hden hv htarget
  have hbelow := quotient_lt_target hden num p
  have hshift : p + ((target (num / den) p - p).toNat : Int) = target (num / den) p := by omega
  rw [roundWithAccuracy_eq hden, hshift]
  generalize target (num / den) p = t at *
  rcases hcases with rfl | ⟨rfl, rfl, hleast⟩
  · rw [roundDiv_of_readsAs hden htarget hv]
    simp only [carry, h.pos.ne', h.lt, dite_false, if_true]
  · rw [roundDiv_of_readsAs_power hden htarget hleast hbelow hv]
    simp only [carry, Int.sub_add_cancel]
    rfl

end Binary

end RecordQuery
