import RecordQuery.Decimal.Shortest
import RecordQuery.Proofs.Floats.Scientific

/-! # Shortest decimals read back

The search for the shortest decimal of a float ends with a grid point in the interval of the float:
with seventeen digits the grid is finer than the interval is wide.
-/

namespace RecordQuery.Decimal

open Binary

variable {m : Nat} {e : Int}

/-- The value of a decimal. -/
def value (d : Decimal) : ℚ :=
  d.digits * 10 ^ d.exponent

/-! ## The interval of a float -/

theorem twoPow_eq (n : Nat) : (twoPow n : ℚ) = 2 ^ n := by
  simp [twoPow]

theorem tenPow_eq (n : Nat) : (tenPow n : ℚ) = 10 ^ n := by
  simp [tenPow]

theorem den_pos : (0 : ℚ) < (Interval.ofFloat m e).den := by
  have hpos : 0 < (Interval.ofFloat m e).den := twoPow_pos _
  exact_mod_cast hpos

/-- The common scale of the interval. -/
theorem scale_eq : (twoPow (e - 2).toNat : ℚ) = 2 ^ (e - 2) * (Interval.ofFloat m e).den := by
  have hscale := zpow_mul_toNat (a := 2) two_ne_zero (e - 2)
  rw [neg_sub] at hscale
  rw [twoPow_eq, ← hscale, Interval.ofFloat, twoPow_eq]

theorem four_mul_zpow : (2 : ℚ) ^ e = 4 * 2 ^ (e - 2) := by
  rw [show (4 : ℚ) = 2 ^ (2 : Int) by norm_num, ← zpow_add₀ two_ne_zero]
  congr 1
  omega

theorem value_ofFloat :
    ((Interval.ofFloat m e).value : ℚ) = m * 2 ^ e * (Interval.ofFloat m e).den := by
  rw [four_mul_zpow]
  have hscale := scale_eq (m := m) (e := e)
  simp only [Interval.ofFloat] at hscale ⊢
  push_cast
  rw [hscale]
  ring

theorem lower_ofFloat (hm : 0 < m) : ((Interval.ofFloat m e).lower : ℚ) =
    (m - reach m e) * 2 ^ e * (Interval.ofFloat m e).den := by
  have hscale := scale_eq (m := m) (e := e)
  rw [four_mul_zpow]
  simp only [Interval.ofFloat] at hscale ⊢
  by_cases hpower : m = 2 ^ 52 ∧ e ≠ -1074
  · have hone : 1 ≤ 4 * m := by omega
    rw [reach, if_pos hpower, if_pos (show m = twoPow 52 ∧ e ≠ -1074 from hpower)]
    push_cast [hone]
    rw [hscale]
    ring
  · have htwo : 2 ≤ 4 * m := by omega
    rw [reach, if_neg hpower, if_neg (show ¬(m = twoPow 52 ∧ e ≠ -1074) from hpower)]
    push_cast [htwo]
    rw [hscale]
    ring

theorem upper_ofFloat : ((Interval.ofFloat m e).upper : ℚ) =
    (m + 1 / 2) * 2 ^ e * (Interval.ofFloat m e).den := by
  rw [four_mul_zpow]
  have hscale := scale_eq (m := m) (e := e)
  simp only [Interval.ofFloat] at hscale ⊢
  push_cast
  rw [hscale]
  ring

/-- What one stands for when the interval is compared with the grid of step `10 ^ g`. -/
def unit (m : Nat) (e g : Int) : ℚ :=
  (Interval.ofFloat m e).den * (tenPow (-g).toNat : ℕ)

theorem unit_pos (m : Nat) (e g : Int) : 0 < unit m e g := by
  have hten : (0 : ℚ) < (tenPow (-g).toNat : ℕ) := by exact_mod_cast tenPow_pos _
  exact mul_pos den_pos hten

theorem point_eq (m : Nat) (e : Int) (d : Nat) (g : Int) :
    ((d * tenPow g.toNat * (Interval.ofFloat m e).den : ℕ) : ℚ) = d * 10 ^ g * unit m e g := by
  have hscale := zpow_mul_toNat (a := 10) (by norm_num) g
  push_cast
  rw [unit, tenPow_eq, tenPow_eq, ← hscale]
  ring

/-- The interval holds the decimals that are rounded to the float. -/
theorem contains_iff (hm : 0 < m) (d : Nat) (g : Int) :
    (Interval.ofFloat m e).contains d g = true ↔ ReadsAs m e (d * 10 ^ g) := by
  have hlower : (((Interval.ofFloat m e).lower * tenPow (-g).toNat : ℕ) : ℚ) =
      (m - reach m e) * 2 ^ e * unit m e g := by
    rw [Nat.cast_mul, lower_ofFloat hm, mul_assoc, unit]
  have hupper : (((Interval.ofFloat m e).upper * tenPow (-g).toNat : ℕ) : ℚ) =
      (m + 1 / 2) * 2 ^ e * unit m e g := by
    rw [Nat.cast_mul, upper_ofFloat, mul_assoc, unit]
  obtain ⟨hlowerLe, hlowerLt⟩ := compare_units (unit_pos m e g) hlower (point_eq m e d g)
  obtain ⟨hupperLe, hupperLt⟩ := compare_units (unit_pos m e g) (point_eq m e d g) hupper
  have hclosed : (Interval.ofFloat m e).closed = (m % 2 == 0) := rfl
  simp only [Interval.contains, hclosed]
  by_cases heven : m % 2 = 0
  · simp only [heven, beq_self_eq_true, if_true, decide_eq_true_eq]
    rw [hlowerLe, hupperLe]
    exact ⟨fun h => ⟨h.1, h.2, fun hodd => absurd heven hodd⟩, fun h => ⟨h.lower, h.upper⟩⟩
  · simp only [beq_eq_false_iff_ne.mpr heven, Bool.false_eq_true, if_false, decide_eq_true_eq]
    rw [hlowerLt, hupperLt]
    exact ⟨fun h => ⟨h.1.le, h.2.le, fun _ => h⟩, fun h => h.odd heven⟩

/-! ## Grid points -/

/-- A grid point that is found lies in the interval. -/
theorem readsAs_of_gridPoint? (hm : 0 < m) {tie : Tie} {g : Int} {d : Decimal}
    (h : (Interval.ofFloat m e).gridPoint? tie g = some d) : ReadsAs m e d.value := by
  simp only [Interval.gridPoint?] at h
  split at h
  next hbelow habove =>
    cases h
    rw [value, ← contains_iff hm]
    dsimp only
    have hround := roundDiv_eq_or ((Interval.ofFloat m e).value * tenPow (-g).toNat)
      ((Interval.ofFloat m e).den * tenPow g.toNat) tie
    rcases hround with heq | heq
    · rw [heq]
      exact hbelow
    · rw [heq]
      exact habove
  next hbelow habove =>
    cases h
    exact (contains_iff hm _ _).mp hbelow
  next hbelow habove =>
    cases h
    exact (contains_iff hm _ _).mp habove
  next => cases h

/-- If no grid point is found, the neighbours of the float on the grid are not in the interval. -/
theorem neighbours_of_gridPoint?_none (hm : 0 < m) {tie : Tie} {g : Int}
    (h : (Interval.ofFloat m e).gridPoint? tie g = none) :
    ∃ d : Nat, d * 10 ^ g ≤ (m : ℚ) * 2 ^ e ∧ (m : ℚ) * 2 ^ e < (d + 1 : ℕ) * 10 ^ g ∧
      ¬ ReadsAs m e (d * 10 ^ g) ∧ ¬ ReadsAs m e ((d + 1 : ℕ) * 10 ^ g) := by
  have hden : 0 < (Interval.ofFloat m e).den * tenPow g.toNat :=
    Nat.mul_pos (twoPow_pos _) (tenPow_pos _)
  have hvalue : (((Interval.ofFloat m e).value * tenPow (-g).toNat : ℕ) : ℚ) =
      m * 2 ^ e * unit m e g := by
    rw [Nat.cast_mul, value_ofFloat, mul_assoc, unit]
  simp only [Interval.gridPoint?] at h
  split at h
  next => cases h
  next => cases h
  next => cases h
  next hbelow habove =>
    refine ⟨(Interval.ofFloat m e).value * tenPow (-g).toNat /
      ((Interval.ofFloat m e).den * tenPow g.toNat), ?_, ?_, ?_, ?_⟩
    · rw [← (compare_units (unit_pos m e g) (point_eq m e _ g) hvalue).1, Nat.mul_assoc,
        Nat.mul_comm (tenPow _)]
      exact Nat.div_mul_le_self _ _
    · rw [← (compare_units (unit_pos m e g) hvalue (point_eq m e _ g)).2, Nat.mul_assoc,
        Nat.mul_comm (tenPow _)]
      exact (Nat.div_lt_iff_lt_mul hden).mp (Nat.lt_succ_self _)
    · rw [← contains_iff hm, hbelow]
      exact Bool.false_ne_true
    · rw [← contains_iff hm, habove]
      exact Bool.false_ne_true

/-- A grid that is finer than the interval is wide has a point in it. -/
theorem gridPoint?_ne_none (hm : 0 < m) {tie : Tie} {g : Int}
    (hstep : (10 : ℚ) ^ g < (reach m e + 1 / 2) * 2 ^ e) :
    (Interval.ofFloat m e).gridPoint? tie g ≠ none := by
  intro h
  obtain ⟨d, hbelow, habove, hnotBelow, hnotAbove⟩ := neighbours_of_gridPoint?_none hm h
  have hscale : (0 : ℚ) < 2 ^ e := by positivity
  have hreach := reach_pos m e
  -- Each neighbour that is not in the interval lies beyond its end.
  have hlower : (d : ℚ) * 10 ^ g ≤ (m - reach m e) * 2 ^ e := by
    by_contra hlt
    rw [not_le] at hlt
    have hupper : (d : ℚ) * 10 ^ g < (m + 1 / 2) * 2 ^ e := by nlinarith
    exact hnotBelow ⟨hlt.le, hupper.le, fun _ => ⟨hlt, hupper⟩⟩
  have hupper : (m + 1 / 2) * 2 ^ e ≤ ((d + 1 : ℕ) : ℚ) * 10 ^ g := by
    by_contra hlt
    rw [not_le] at hlt
    have hlower : (m - reach m e) * 2 ^ e < ((d + 1 : ℕ) : ℚ) * 10 ^ g := by nlinarith
    exact hnotAbove ⟨hlower.le, hlt.le, fun _ => ⟨hlower, hlt⟩⟩
  push_cast at hupper
  nlinarith

/-! ## The search -/

/-- The leading digit of a number stands no higher than the number. -/
theorem pow_length_toDigits_le {n : Nat} (hn : n ≠ 0) :
    10 ^ ((Nat.toDigits 10 n).length - 1) ≤ n := by
  by_contra hlt
  have hpos : 0 < (Nat.toDigits 10 n).length := Nat.length_toDigits_pos
  by_cases hone : (Nat.toDigits 10 n).length - 1 = 0
  · rw [hone, Nat.pow_zero] at hlt
    omega
  · have hle := (Nat.length_toDigits_le_iff (by decide) (Nat.pos_of_ne_zero hone)).mpr
      (Nat.lt_of_not_le hlt)
    omega

theorem leadingPosition_le {num den : Nat} (hden : 0 < den) (h : den ≤ num * tenPow 400) :
    (10 : ℚ) ^ leadingPosition num den ≤ num / den := by
  have hden' : (0 : ℚ) < den := by exact_mod_cast hden
  have hpos : num * tenPow 400 / den ≠ 0 := by
    have hone : 1 ≤ num * tenPow 400 / den := (Nat.one_le_div_iff hden).mpr h
    omega
  have hlength : 0 < (Nat.toDigits 10 (num * tenPow 400 / den)).length := Nat.length_toDigits_pos
  have hdigits := (Nat.le_div_iff_mul_le hden).mp (pow_length_toDigits_le hpos)
  have hcast : (10 : ℚ) ^ ((Nat.toDigits 10 (num * tenPow 400 / den)).length - 1) * den ≤
      num * 10 ^ 400 := by
    rw [← tenPow_eq 400]
    exact_mod_cast hdigits
  have hsplit : (10 : ℚ) ^ ((Nat.toDigits 10 (num * tenPow 400 / den)).length - 1) =
      10 ^ leadingPosition num den * 10 ^ 400 := by
    rw [← zpow_natCast, ← zpow_natCast, ← zpow_add₀ (by norm_num)]
    congr 1
    unfold leadingPosition
    omega
  rw [hsplit, mul_right_comm] at hcast
  rw [le_div_iff₀ hden']
  exact le_of_mul_le_mul_right hcast (by positivity)

/-- Floats are not too small for their leading position to be found. -/
theorem den_le_value (h : Normal m e) :
    (Interval.ofFloat m e).den ≤ (Interval.ofFloat m e).value * tenPow 400 := by
  have hm : (1 : ℚ) ≤ m := by exact_mod_cast h.pos
  -- The least float is `2 ^ (-1074)`, which is more than `10 ^ (-400)`.
  have hleast : (2 : ℚ) ^ (1074 : Int) ≤ tenPow 400 := by
    calc (2 : ℚ) ^ (1074 : Int) ≤ 2 ^ ((3 * 400 : ℕ) : Int) :=
          zpow_le_zpow_right₀ one_le_two (by norm_num)
      _ = (2 ^ 3) ^ 400 := by rw [zpow_natCast, pow_mul]
      _ ≤ 10 ^ 400 := pow_le_pow_left₀ (by norm_num) (by norm_num) _
      _ = tenPow 400 := (tenPow_eq 400).symm
  have hscale : (1 : ℚ) ≤ 2 ^ e * tenPow 400 := by
    calc (1 : ℚ) = 2 ^ (-1074 : Int) * 2 ^ (1074 : Int) :=
          (zpow_neg_mul_zpow_self 1074 two_ne_zero).symm
      _ ≤ 2 ^ e * tenPow 400 :=
          mul_le_mul (zpow_le_zpow_right₀ one_le_two h.least) hleast (zpow_pos two_pos _).le
            (zpow_pos two_pos _).le
  have hone : (1 : ℚ) ≤ m * (2 ^ e * tenPow 400) := one_le_mul_of_one_le_of_one_le hm hscale
  have hcast : ((Interval.ofFloat m e).den : ℚ) ≤
      ((Interval.ofFloat m e).value * tenPow 400 : ℕ) := by
    rw [Nat.cast_mul, value_ofFloat, mul_right_comm, mul_assoc (m : ℚ)]
    exact le_mul_of_one_le_left den_pos.le hone
  exact Nat.cast_le.mp hcast

/-- With seventeen digits the grid is fine enough. -/
theorem step_lt (h : Normal m e) :
    (10 : ℚ) ^ (leadingPosition (Interval.ofFloat m e).value (Interval.ofFloat m e).den -
      (16 : ℕ)) < (reach m e + 1 / 2) * 2 ^ e := by
  have hden : 0 < (Interval.ofFloat m e).den := twoPow_pos _
  have hleading := leadingPosition_le hden (den_le_value h)
  have hscale : (0 : ℚ) < 2 ^ e := by positivity
  have hvalue : ((Interval.ofFloat m e).value : ℚ) / (Interval.ofFloat m e).den = m * 2 ^ e := by
    rw [value_ofFloat]
    exact mul_div_cancel_right₀ _ den_pos.ne'
  -- The interval is three quarters of a unit wide below `2 ^ 52`, and one unit below `2 ^ 53`.
  have hm : (m : ℚ) < (reach m e + 1 / 2) * 10 ^ 16 := by
    by_cases hpower : m = 2 ^ 52 ∧ e ≠ -1074
    · rw [reach, if_pos hpower, hpower.1]
      norm_num
    · have hlt : (m : ℚ) < 2 ^ 53 := by exact_mod_cast h.lt
      rw [reach, if_neg hpower]
      norm_num at hlt ⊢
      linarith
  rw [hvalue] at hleading
  rw [zpow_sub₀ (by norm_num), zpow_natCast, div_lt_iff₀ (by positivity)]
  nlinarith

theorem value_strip (fuel : Nat) (d : Decimal) : (d.strip fuel).value = d.value := by
  induction fuel generalizing d with
  | zero => rfl
  | succ fuel ih =>
      rw [strip]
      split
      next hzero =>
        rw [ih, value, value, zpow_add_one₀ (by norm_num)]
        have hten : (d.digits : ℚ) = ((d.digits / 10 : ℕ) : ℚ) * 10 := by
          exact_mod_cast (Nat.div_mul_cancel (Nat.dvd_of_mod_eq_zero hzero.2)).symm
        dsimp only
        rw [hten]
        ring
      next => rfl

/-- The shortest decimal of a float is rounded to the float. -/
theorem readsAs_shortest (h : Normal m e) (tie : Tie) : ReadsAs m e (shortest tie m e).value := by
  simp only [shortest]
  split
  next d hfound =>
    obtain ⟨k, -, hk⟩ := List.exists_of_findSome?_eq_some hfound
    rw [value_strip]
    exact readsAs_of_gridPoint? h.pos hk
  next hnone =>
    rw [List.findSome?_eq_none_iff] at hnone
    exact absurd (hnone 16 (by decide)) (gridPoint?_ne_none h.pos (step_lt h))

end RecordQuery.Decimal
