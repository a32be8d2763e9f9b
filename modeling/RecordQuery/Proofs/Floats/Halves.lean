import RecordQuery.Proofs.Floats.Sums

/-! # Halves between integers

An integer and a half is a float up to `2 ^ 52`. Beyond, it is rounded to the even one of the
integers below and above it, and so its floor may be the integer above.
-/

namespace RecordQuery

open Float.Model Float.Model.UnpackedFloat

namespace Binary

variable {x : Float} {n : Int} {f : UnpackedFloat}

/-! ## Floors -/

theorem significand_lt {negative : Bool} {m : Nat} {e : Int} (hx : x.isFinite = true)
    (h : Decimal.exact x = .finite negative m e) : m < 2 ^ 53 := by
  have hdenoting := denoting_iff.mpr hx
  rw [Decimal.exact] at h
  generalize x.toModel.unpack = f at h hdenoting
  cases hdenoting with
  | zero s =>
      obtain ⟨-, rfl, -⟩ := Decimal.Exact.finite.inj h
      decide
  | normal s hnormal htop =>
      obtain ⟨-, rfl, -⟩ := Decimal.Exact.finite.inj h
      exact hnormal.lt

/-- The floor of a finite float is the greatest integer up to it. -/
theorem value_floor (hx : x.isFinite = true) :
    (Decimal.floor x).isFinite = true ∧ value (Decimal.floor x) = ⌊value x⌋ := by
  obtain ⟨negative, m, e, hexact, hvalue⟩ := exists_exact hx
  simp only [Decimal.floor, Decimal.toIntegral, hexact]
  split
  next hneg =>
    obtain ⟨k, rfl⟩ : ∃ k : Nat, e = -k := ⟨(-e).toNat, by omega⟩
    have hfloor : (Decimal.signed negative m).fdiv (Decimal.twoPow k) = ⌊value x⌋ := by
      rw [hvalue, zpow_neg, zpow_natCast, ← div_eq_mul_inv, ← Decimal.twoPow_eq,
        Rat.floor_intCast_div_natCast, Int.fdiv_eq_ediv_of_nonneg _ (Int.natCast_nonneg _)]
    have hbound : ((Decimal.signed negative m).fdiv (Decimal.twoPow k)).natAbs ≤ 2 ^ 53 := by
      rw [Int.fdiv_eq_ediv_of_nonneg _ (Int.natCast_nonneg _)]
      refine (Int.natAbs_ediv_le_natAbs _ _).trans ?_
      rw [natAbs_signed]
      exact (significand_lt hx hexact).le
    rw [neg_neg, Int.toNat_natCast]
    exact ⟨isFinite_ofInt (by omega), by rw [value_ofInt hbound, hfloor]⟩
  next hnonneg =>
    obtain ⟨k, rfl⟩ := Int.eq_ofNat_of_zero_le (not_lt.mp hnonneg)
    have hinteger : value x = ((Decimal.signed negative m * 2 ^ k : Int) : ℚ) := by
      rw [hvalue, zpow_natCast]
      push_cast
      rfl
    exact ⟨hx, by rw [hinteger, Int.floor_intCast]⟩

/-! ## An integer and a half -/

theorem value_half : (0.5 : Float).isFinite = true ∧ value 0.5 = 1 / 2 := by
  have hunpack : (0.5 : Float).toModel.unpack = .finite .positive (2 ^ 52) (-53) (by decide) := rfl
  refine ⟨rfl, ?_⟩
  rw [value, hunpack, rational]
  norm_num

/-- The float of an integer and a half lies between the integers below and above. -/
theorem IsRounded.between (h : IsRounded (n + 1 / 2) f) (hn : n.natAbs < 2 ^ 53) :
    n ≤ rational f ∧ rational f ≤ (n + 1 : Int) := by
  have hlow := isRounded_ofInt (n := n) (by omega)
  have hhigh := isRounded_ofInt (n := n + 1) (by omega)
  constructor
  · by_contra hless
    have hle : (n : ℚ) + 1 / 2 ≤ n := by
      refine h.le_of_lt hlow ?_
      change rational f < value (Float.ofInt n)
      rw [value_ofInt hn.le]
      exact not_le.mp hless
    linarith
  · by_contra hmore
    have hle : ((n + 1 : Int) : ℚ) ≤ n + 1 / 2 := by
      refine hhigh.le_of_lt h ?_
      change value (Float.ofInt (n + 1)) < rational f
      rw [value_ofInt (by omega)]
      exact not_le.mp hmore
    push_cast at hle
    linarith

/-- Half of a natural number below `2 ^ 53` has a normal form. -/
theorem exists_normal_half {k : Nat} (hpos : k ≠ 0) (hlt : k < 2 ^ 53) :
    ∃ m e, Normal m e ∧ e ≤ topExponent ∧ (k : ℚ) / 2 = m * 2 ^ e := by
  have hlog : k.log2 < 53 := (Nat.log2_lt hpos).mpr hlt
  obtain ⟨hnormal, hfull⟩ := normal_of_nat hpos hlt
  refine ⟨_, (k.log2 : Int) - 52 - 1, ⟨hnormal.pos, hnormal.lt, by omega, .inl hfull⟩, ?_, ?_⟩
  · unfold topExponent
    omega
  · rw [zpow_sub_one₀ two_ne_zero, ← mul_assoc, ← nat_eq_normal hlog, div_eq_mul_inv]

/-- Up to `2 ^ 52` an integer and a half is a float. -/
theorem IsRounded.exact_half (h : IsRounded (n + 1 / 2) f) (hlow : -2 ^ 52 ≤ n)
    (hhigh : n < 2 ^ 52) : rational f = n + 1 / 2 := by
  obtain ⟨m, e, hnormal, htop, hvalue⟩ :=
    exists_normal_half (k := (2 * n + 1).natAbs) (by omega) (by omega)
  rcases le_or_gt 0 n with hpos | hneg
  · refine h.rational_eq (.normal .positive hnormal htop) ?_
    have habs : (((2 * n + 1).natAbs : Int) : ℚ) = 2 * n + 1 := by
      rw [Int.natAbs_of_nonneg (by omega)]
      push_cast
      rfl
    rw [rational, ← hvalue, ← Int.cast_natCast, habs]
    ring
  · refine h.rational_eq (.normal .negative hnormal htop) ?_
    have habs : (((2 * n + 1).natAbs : Int) : ℚ) = -(2 * n + 1) := by
      rw [Int.ofNat_natAbs_of_nonpos (by omega)]
      push_cast
      rfl
    rw [rational, ← hvalue, ← Int.cast_natCast, habs]
    ring

/-- From `2 ^ 52` on, the tie between an integer and the next one goes to the even one. -/
theorem ReadsAs.even_of_half {m k : Nat} {e : Int} (h : Normal m e) (hk : 2 ^ 52 ≤ k)
    (hv : ReadsAs m e (k + 1 / 2)) : ∃ i : Nat, (m : ℚ) * 2 ^ e = 2 * i := by
  have hk' : (2 : ℚ) ^ 52 ≤ k := by exact_mod_cast hk
  have hm := h.add_one_le
  rcases lt_trichotomy e 0 with hneg | rfl | hpos
  -- With a lower exponent there are no floats of that size.
  · have hscale : (2 : ℚ) * 2 ^ e ≤ 2 ^ (0 : Int) := two_mul_zpow_le hneg
    have hupper := hv.upper
    rw [zpow_zero] at hscale
    nlinarith
  · have heven : m % 2 = 0 := by
      by_contra hodd
      obtain ⟨hlower, hupper⟩ := hv.odd hodd
      have hreach := reach_le m 0
      rw [zpow_zero, mul_one] at hlower hupper
      have hless : (k : ℚ) < m := by linarith
      have hmore : (m : ℚ) < k + 1 := by linarith
      have hless' : k < m := by exact_mod_cast hless
      have hmore' : m < k + 1 := by exact_mod_cast hmore
      omega
    refine ⟨m / 2, ?_⟩
    rw [zpow_zero, mul_one]
    exact_mod_cast (Nat.mul_div_cancel' (Nat.dvd_of_mod_eq_zero heven)).symm
  · obtain ⟨j, rfl⟩ : ∃ j : Nat, e = j + 1 := ⟨(e - 1).toNat, by omega⟩
    refine ⟨m * 2 ^ j, ?_⟩
    rw [zpow_add_one₀ two_ne_zero, zpow_natCast]
    push_cast
    ring

theorem IsRounded.even_of_half (h : IsRounded (n + 1 / 2) f) (hlarge : n < -2 ^ 52 ∨ 2 ^ 52 ≤ n) :
    ∃ i : Int, rational f = 2 * i := by
  generalize hvalue : (n : ℚ) + 1 / 2 = v at h
  cases h with
  | zero s => exact ⟨0, by rw [Int.cast_zero, mul_zero]; rfl⟩
  | positive h htop hv =>
      have hpos := IsRounded.pos h hv
      have hn : 2 ^ 52 ≤ n := by
        refine hlarge.resolve_left fun hneg => ?_
        have hneg' : (n : ℚ) < -2 ^ 52 := by exact_mod_cast hneg
        linarith
      obtain ⟨k, rfl⟩ := Int.eq_ofNat_of_zero_le (show 0 ≤ n by omega)
      rw [← hvalue, Int.cast_natCast] at hv
      obtain ⟨i, hi⟩ := hv.even_of_half h (by omega)
      exact ⟨i, by rw [rational, hi, Int.cast_natCast]⟩
  | negative h htop hv =>
      have hpos := IsRounded.pos h hv
      have hn : n < -2 ^ 52 := by
        refine hlarge.resolve_right fun hge => ?_
        have hge' : (2 : ℚ) ^ 52 ≤ n := by exact_mod_cast hge
        linarith
      obtain ⟨k, hk⟩ := Int.eq_ofNat_of_zero_le (show 0 ≤ -n - 1 by omega)
      have hopposite : -v = (k : ℚ) + 1 / 2 := by
        have hcast : -(n : ℚ) - 1 = k := by exact_mod_cast hk
        rw [← hvalue, ← hcast]
        ring
      rw [hopposite] at hv
      obtain ⟨i, hi⟩ := hv.even_of_half h (by omega)
      exact ⟨-i, by rw [rational, hi, Int.cast_neg, Int.cast_natCast]; ring⟩

/-- Up to `2 ^ 52` the floor of an integer and a half is the integer. Beyond, it is the even one of
the integer and the next. -/
theorem IsRounded.floor_half (h : IsRounded (n + 1 / 2) f) (hn : n.natAbs < 2 ^ 53) :
    ⌊rational f⌋ = if n.natAbs ≤ 2 ^ 52 ∨ Even n then n else n + 1 := by
  by_cases hsmall : -2 ^ 52 ≤ n ∧ n < 2 ^ 52
  · rw [h.exact_half hsmall.1 hsmall.2, if_pos (.inl (by omega)), Int.floor_eq_iff]
    constructor <;> linarith
  · obtain ⟨i, hi⟩ := h.even_of_half (by omega)
    obtain ⟨hlow, hhigh⟩ := h.between hn
    have hinteger : rational f = (2 * i : Int) := by rw [hi]; push_cast; rfl
    rw [hinteger] at hlow hhigh ⊢
    rw [Int.cast_le] at hlow hhigh
    rw [Int.floor_intCast]
    split
    next hcase =>
      rcases hcase with hle | ⟨j, hj⟩
      · omega
      · omega
    next hcase =>
      obtain ⟨-, hodd⟩ := not_or.mp hcase
      obtain ⟨j, hj⟩ := Int.not_even_iff_odd.mp hodd
      omega

end Binary

end RecordQuery
