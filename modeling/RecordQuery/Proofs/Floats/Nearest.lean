import RecordQuery.Proofs.Floats.Scientific

/-! # The float nearest to a number

Every positive number lies in the interval of a float in normal form, unless it is so small that it
is rounded to zero. The exponent of that float is out of range from half the way between the
greatest float and the next power of two on.
-/

namespace RecordQuery

open Decimal

/-- Rounding takes a nearest integer, and of two the even one. -/
theorem Decimal.roundDiv_nearest (num : Nat) {den : Nat} (hden : 0 < den) :
    (roundDiv num den .toEven - 1 / 2 : ℚ) * den ≤ num ∧
      (num : ℚ) ≤ (roundDiv num den .toEven + 1 / 2) * den ∧
      (roundDiv num den .toEven % 2 ≠ 0 →
        (roundDiv num den .toEven - 1 / 2 : ℚ) * den < num ∧
          (num : ℚ) < (roundDiv num den .toEven + 1 / 2) * den) := by
  have hsplit : (den : ℚ) * (num / den : ℕ) + (num % den : ℕ) = num := by
    exact_mod_cast Nat.div_add_mod num den
  have hrest : ((num % den : ℕ) : ℚ) < den := by exact_mod_cast Nat.mod_lt num hden
  have hnonneg : (0 : ℚ) ≤ (num % den : ℕ) := by positivity
  simp only [roundDiv]
  generalize num / den = below at hsplit
  generalize num % den = rest at hsplit hrest hnonneg
  rcases Nat.lt_trichotomy (2 * rest) den with hcmp | hcmp | hcmp
  · have hcmp' : (2 : ℚ) * rest < den := by exact_mod_cast hcmp
    rw [Nat.compare_eq_lt.mpr hcmp]
    refine ⟨?_, ?_, fun _ => ⟨?_, ?_⟩⟩ <;> linarith
  · have hcmp' : (2 : ℚ) * rest = den := by exact_mod_cast hcmp
    rw [Nat.compare_eq_eq.mpr hcmp]
    dsimp only
    split
    next heven => exact ⟨by linarith, by linarith, fun hodd => absurd heven hodd⟩
    next hodd => exact ⟨by push_cast; linarith, by push_cast; linarith, fun hodd => by omega⟩
  · have hcmp' : (den : ℚ) < 2 * rest := by exact_mod_cast hcmp
    rw [Nat.compare_eq_gt.mpr hcmp]
    push_cast
    refine ⟨?_, ?_, fun _ => ⟨?_, ?_⟩⟩ <;> linarith

namespace Binary

variable {m : Nat} {e : Int} {v : ℚ}

/-- A value in units of a power of two, with no less than 53 bits or at the least exponent. -/
theorem readsAs_of_nearest (hfull : 2 ^ 52 * 2 ^ e ≤ v ∨ e = -1074)
    (hlow : (m - 1 / 2) * 2 ^ e ≤ v) (hhigh : v ≤ (m + 1 / 2) * 2 ^ e)
    (hodd : m % 2 ≠ 0 → (m - 1 / 2) * 2 ^ e < v ∧ v < (m + 1 / 2) * 2 ^ e) : ReadsAs m e v := by
  have hscale : (0 : ℚ) < 2 ^ e := by positivity
  by_cases hpower : m = 2 ^ 52 ∧ e ≠ -1074
  · obtain ⟨rfl, hleast⟩ := hpower
    have hfull := hfull.resolve_right hleast
    have hquarter : reach (2 ^ 52) e = 1 / 4 := if_pos ⟨rfl, hleast⟩
    refine ⟨?_, hhigh, fun hm => absurd (by decide) hm⟩
    rw [hquarter]
    push_cast
    linarith
  · have hhalf : reach m e = 1 / 2 := if_neg hpower
    exact ⟨by rwa [hhalf], hhigh, by rwa [hhalf]⟩

/-- A value just below a power of two is rounded up to it. -/
theorem readsAs_power (hleast : -1074 ≤ e) (hlow : (2 ^ 53 - 1 / 2) * 2 ^ e ≤ v)
    (hhigh : v ≤ 2 ^ 53 * 2 ^ e) : ReadsAs (2 ^ 52) (e + 1) v := by
  have hscale : (0 : ℚ) < 2 ^ e := by positivity
  have hquarter : reach (2 ^ 52) (e + 1) = 1 / 4 := if_pos ⟨rfl, by omega⟩
  have hdouble : (2 : ℚ) ^ (e + 1) = 2 ^ e * 2 := zpow_add_one₀ two_ne_zero e
  refine ⟨?_, ?_, fun hm => absurd (by decide) hm⟩
  · rw [hquarter, hdouble]
    push_cast
    linarith
  · rw [hdouble]
    push_cast
    linarith

/-- The unit in which a number has 53 bits before its point, or the least unit. -/
theorem exists_unit (hv : 0 < v) :
    ∃ e : Int, -1074 ≤ e ∧ (2 ^ 52 * 2 ^ e ≤ v ∨ e = -1074) ∧ v < 2 ^ 53 * 2 ^ e := by
  have hpow (n : Nat) (e : Int) : (2 : ℚ) ^ n * 2 ^ e = 2 ^ (n + e) := by
    rw [zpow_add₀ two_ne_zero, zpow_natCast]
  have hself : (2 : ℚ) ^ Int.log 2 v ≤ v := Int.zpow_log_le_self one_lt_two hv
  have hnext : v < (2 : ℚ) ^ (Int.log 2 v + 1) := Int.lt_zpow_succ_log_self one_lt_two v
  rcases le_or_gt (-1022) (Int.log 2 v) with hlarge | hsmall
  · refine ⟨Int.log 2 v - 52, by omega, .inl ?_, ?_⟩
    · rw [hpow]
      convert hself using 2
      omega
    · rw [hpow]
      convert hnext using 2
      omega
  · refine ⟨-1074, le_rfl, .inr rfl, ?_⟩
    rw [hpow]
    exact hnext.trans_le (zpow_le_zpow_right₀ one_le_two (by omega))

/-- The nearest integer to a number, or the even one of two. -/
theorem exists_nearest (hv : 0 ≤ v) :
    ∃ m : Nat, (m : ℚ) - 1 / 2 ≤ v ∧ v ≤ m + 1 / 2 ∧
      (m % 2 ≠ 0 → (m : ℚ) - 1 / 2 < v ∧ v < m + 1 / 2) := by
  have hden : (0 : ℚ) < v.den := by exact_mod_cast v.den_pos
  have hfraction : v = (v.num.toNat : ℚ) / v.den := by
    have hnum : ((v.num.toNat : Int) : ℚ) = v.num := by
      rw [Int.toNat_of_nonneg (Rat.num_nonneg.mpr hv)]
    rw [← Int.cast_natCast, hnum, Rat.num_div_den]
  obtain ⟨hlow, hhigh, hodd⟩ := roundDiv_nearest v.num.toNat v.den_pos
  rw [← le_div_iff₀ hden, ← hfraction] at hlow
  rw [← div_le_iff₀ hden, ← hfraction] at hhigh
  rw [← lt_div_iff₀ hden, ← div_lt_iff₀ hden, ← hfraction] at hodd
  exact ⟨_, hlow, hhigh, hodd⟩

/-- The greatest number that is rounded to zero, half the least float. -/
def underflow : ℚ := 1 / 2 * 2 ^ (-1074 : Int)

theorem underflow_pos : 0 < underflow := by
  unfold underflow
  positivity

theorem underflow_lt_one : underflow < 1 := by
  have hscale : (2 : ℚ) ^ (-1074 : Int) ≤ 1 := zpow_le_one_of_nonpos₀ one_le_two (by decide)
  unfold underflow
  linarith

/-- A number that is not rounded to zero is rounded to a float in normal form. -/
theorem exists_readsAs_of_lt (hv : underflow < v) :
    ∃ m e, Normal m e ∧ ReadsAs m e v := by
  have hpos : 0 < v := underflow_pos.trans hv
  obtain ⟨e, hleast, hfull, hbelow⟩ := exists_unit hpos
  have hscale : (0 : ℚ) < 2 ^ e := by positivity
  obtain ⟨m, hnearest⟩ := exists_nearest (div_pos hpos hscale).le
  rw [le_div_iff₀ hscale, div_le_iff₀ hscale, lt_div_iff₀ hscale, div_lt_iff₀ hscale] at hnearest
  obtain ⟨hlow, hhigh, hodd⟩ := hnearest
  have hmost : m ≤ 2 ^ 53 := by
    by_contra hmore
    have hnext : (2 : ℚ) ^ 53 + 1 ≤ m := by exact_mod_cast Nat.lt_of_not_le hmore
    nlinarith
  have hsome : 0 < m ∧ (2 ^ 52 ≤ m ∨ e = -1074) := by
    rcases hfull with hfull | rfl
    · have hleast : 2 ^ 52 ≤ m := by
        by_contra hless
        have hnext : (m : ℚ) + 1 ≤ 2 ^ 52 := by exact_mod_cast Nat.lt_of_not_le hless
        nlinarith
      exact ⟨by omega, .inl hleast⟩
    · refine ⟨Nat.pos_of_ne_zero ?_, .inr rfl⟩
      rintro rfl
      rw [Nat.cast_zero, zero_add] at hhigh
      exact absurd hv (not_lt.mpr hhigh)
  rcases Nat.lt_or_eq_of_le hmost with hlt | rfl
  · exact ⟨m, e, ⟨hsome.1, hlt, hleast, hsome.2⟩, readsAs_of_nearest hfull hlow hhigh hodd⟩
  -- Rounding up to `2 ^ 53` is the least float with the next exponent.
  · exact ⟨2 ^ 52, e + 1, ⟨by omega, by omega, by omega, .inl le_rfl⟩,
      readsAs_power hleast (by exact_mod_cast hlow) hbelow.le⟩

/-! ## The greatest exponent -/

/-- The least number that is rounded to an infinity, half the way from the greatest float to the
next power of two. -/
def overflow : ℚ := 2 ^ 1024 - 2 ^ 970

theorem overflow_eq : overflow = (2 ^ 53 - 1 / 2) * 2 ^ topExponent := by
  have htop : (2 : ℚ) ^ topExponent = 2 ^ 971 := zpow_natCast 2 971
  have hlarge : (2 : ℚ) ^ 1024 = 2 ^ 53 * 2 ^ 971 := by rw [← pow_add]
  have hdouble : (2 : ℚ) ^ 971 = 2 ^ 970 * 2 := pow_succ 2 970
  rw [overflow, htop, hlarge, hdouble]
  generalize (2 : ℚ) ^ 970 = x
  ring

/-- Below a float with all 53 bits, the values that are rounded to it reach down by no more than a
quarter of the unit of the least such float. -/
theorem Normal.le_sub_reach (h : Normal m e) (hleast : e ≠ -1074) :
    (2 : ℚ) ^ 52 - 1 / 4 ≤ m - reach m e := by
  have hreach := reach_le m e
  rcases Nat.lt_or_eq_of_le (h.full.resolve_right hleast) with hmore | rfl
  · have hnext : (2 : ℚ) ^ 52 + 1 ≤ m := by exact_mod_cast hmore
    linarith
  · rw [reach, if_pos ⟨rfl, hleast⟩]
    norm_num

/-- All that is smaller than the least float with the greatest exponent is below the overflow. -/
theorem lt_overflow_of_le (h : v ≤ 2 ^ 52 * 2 ^ topExponent) : v < overflow := by
  have hscale : (0 : ℚ) < 2 ^ topExponent := by positivity
  rw [overflow_eq]
  nlinarith

/-- Numbers of 64 bits are below the overflow. -/
theorem lt_overflow_of_le_pow (h : v ≤ 2 ^ 64) : v < overflow := by
  have hscale : (2 : ℚ) ^ (12 : Int) ≤ 2 ^ topExponent :=
    zpow_le_zpow_right₀ one_le_two (by decide)
  have hbound : (2 : ℚ) ^ 64 ≤ 2 ^ 52 * 2 ^ topExponent := by linarith
  exact lt_overflow_of_le (h.trans hbound)

/-- Numbers are rounded to floats in range just below the overflow. -/
theorem ReadsAs.lt_overflow_iff (h : Normal m e) (hv : ReadsAs m e v) :
    v < overflow ↔ e ≤ topExponent := by
  rw [overflow_eq]
  constructor
  · contrapose!
    intro habove
    have hreach := h.le_sub_reach (by unfold topExponent at habove; omega)
    have hdouble := two_mul_zpow_le habove
    have hscale : (0 : ℚ) < 2 ^ topExponent := by positivity
    have hlower := hv.lower
    nlinarith
  · intro htop
    have hscale : (2 : ℚ) ^ e ≤ 2 ^ topExponent := zpow_le_zpow_right₀ one_le_two htop
    have hpos : (0 : ℚ) < 2 ^ e := by positivity
    -- The greatest significand is odd, so half the way to the next one is no more rounded to it.
    have hbelow : v < (2 ^ 53 - 1 / 2) * 2 ^ e := by
      rcases Nat.lt_or_eq_of_le h.lt with hless | heq
      · have hnext : (m : ℚ) + 2 ≤ 2 ^ 53 := by exact_mod_cast hless
        have hupper := hv.upper
        nlinarith
      · have hupper := (hv.odd (by omega)).2
        have hm : (m : ℚ) + 1 = 2 ^ 53 := by exact_mod_cast heq
        rw [show (2 : ℚ) ^ 53 - 1 / 2 = m + 1 / 2 by linarith]
        exact hupper
    nlinarith

end Binary

end RecordQuery
