import RecordQuery.Proofs.Floats.Rounding

/-! # Floats of decimals

A decimal `d * 10 ^ k` becomes a float in one rounding, be it by a product or a quotient of exact
floats or through big integers. So it becomes the float whose interval it lies in.
-/

namespace RecordQuery.Binary

open Float.Model Float.Model.UnpackedFloat

/-! ## Products and quotients -/

theorem le_target {m : Nat} (h : 2 ^ 52 ≤ m) (p : Int) : p ≤ target m p := by
  have hlog : 52 ≤ m.log2 := (Nat.le_log2 (by omega)).mpr h
  unfold target
  omega

variable {m : Nat} {e : Int}

/-- A product with 53 bits or more is rounded from its exact value. -/
theorem mul_of_readsAs (h : Normal m e) {m₁ m₂ : Nat} {e₁ e₂ : Int} (h₁ : 0 < m₁) (h₂ : 0 < m₂)
    (hbits : 2 ^ 52 ≤ m₁ * m₂) (hv : ReadsAs m e (m₁ * 2 ^ e₁ * (m₂ * 2 ^ e₂))) :
    UnpackedFloat.mul Format.binary64 (.finite .positive m₁ e₁ h₁) (.finite .positive m₂ e₂ h₂) =
      positive h := by
  have hvalue : (m₁ : ℚ) * 2 ^ e₁ * (m₂ * 2 ^ e₂) =
      ((m₁ * m₂ : ℕ) : ℚ) / (1 : ℕ) * 2 ^ (e₁ + e₂) := by
    rw [zpow_add₀ two_ne_zero]
    push_cast
    ring
  rw [hvalue] at hv
  have hround := roundWithAccuracy_of_readsAs h Nat.one_pos hv
    (by rw [Nat.div_one]; exact le_target hbits _) .positive
  rw [Nat.div_one, Nat.mod_one] at hround
  exact hround

/-- A quotient is extended to 53 bits or down to the least exponent. -/
theorem divCore_le_target {m₁ m₂ : Nat} (e₁ e₂ : Int) (h₁ : 0 < m₁) (h₂ : 0 < m₂) :
    (divCore Format.binary64 m₁ e₁ m₂ e₂).2.1 ≤
      target (divCore Format.binary64 m₁ e₁ m₂ e₂).1 (divCore Format.binary64 m₁ e₁ m₂ e₂).2.1 := by
  have hexponent : Format.binary64.targetExponent (totalExponent m₁ e₁ - totalExponent m₂ e₂) =
      max ((m₁.log2 + 1 + e₁) - (m₂.log2 + 1 + e₂) - 53) (-1074) := rfl
  simp only [divCore, hexponent]
  generalize hp :
    min (e₁ - e₂) (max ((m₁.log2 + 1 + e₁ : Int) - (m₂.log2 + 1 + e₂) - 53) (-1074)) = p
  by_cases hleast : p ≤ -1074
  -- Above the least exponent, the dividend is shifted until the quotient has 53 bits.
  · unfold target
    omega
  · apply le_target
    rw [Nat.shiftLeft_eq, Nat.le_div_iff_mul_le h₂]
    calc 2 ^ 52 * m₂ ≤ 2 ^ 52 * 2 ^ (m₂.log2 + 1) :=
          Nat.mul_le_mul_left _ (Nat.le_of_lt Nat.lt_log2_self)
      _ = 2 ^ (52 + (m₂.log2 + 1)) := (Nat.pow_add ..).symm
      _ ≤ 2 ^ (m₁.log2 + (e₁ - e₂ - p).toNat) := Nat.pow_le_pow_right (by decide) (by omega)
      _ = 2 ^ m₁.log2 * 2 ^ (e₁ - e₂ - p).toNat := Nat.pow_add ..
      _ ≤ m₁ * 2 ^ (e₁ - e₂ - p).toNat :=
          Nat.mul_le_mul_right _ (Nat.log2_self_le (Nat.ne_of_gt h₁))

/-- A quotient is the rounding of its exact value as a fraction at some exponent. -/
theorem exists_div_eq {m₁ m₂ : Nat} {e₁ e₂ : Int} (h₁ : 0 < m₁) (h₂ : 0 < m₂) :
    ∃ (num : Nat) (p : Int), p ≤ target (num / m₂) p ∧
      (m₁ : ℚ) * 2 ^ e₁ / (m₂ * 2 ^ e₂) = num / m₂ * 2 ^ p ∧
      UnpackedFloat.div Format.binary64 (.finite .positive m₁ e₁ h₁) (.finite .positive m₂ e₂ h₂) =
        roundWithAccuracy Format.binary64 .positive (num / m₂) p
          (accuracyOfFraction (num % m₂) m₂) := by
  have htarget := divCore_le_target e₁ e₂ h₁ h₂
  have hle : (divCore Format.binary64 m₁ e₁ m₂ e₂).2.1 ≤ e₁ - e₂ := by
    simp only [divCore]
    omega
  simp only [UnpackedFloat.div]
  simp only [divCore] at htarget hle ⊢
  generalize min (e₁ - e₂) _ = p at *
  refine ⟨m₁ <<< (e₁ - e₂ - p).toNat, p, htarget, ?_, rfl⟩
  have hscale : (2 : ℚ) ^ e₁ = 2 ^ (e₁ - e₂ - p).toNat * 2 ^ p * 2 ^ e₂ := by
    rw [← zpow_natCast, ← zpow_add₀ two_ne_zero, ← zpow_add₀ two_ne_zero]
    congr 1
    omega
  have hm₂ : (m₂ : ℚ) ≠ 0 := by exact_mod_cast h₂.ne'
  rw [Nat.shiftLeft_eq, hscale]
  push_cast
  field_simp

/-- A quotient is rounded to the float whose interval it lies in. -/
theorem div_of_readsAs (h : Normal m e) {m₁ m₂ : Nat} {e₁ e₂ : Int} (h₁ : 0 < m₁) (h₂ : 0 < m₂)
    (hv : ReadsAs m e (m₁ * 2 ^ e₁ / (m₂ * 2 ^ e₂))) :
    UnpackedFloat.div Format.binary64 (.finite .positive m₁ e₁ h₁) (.finite .positive m₂ e₂ h₂) =
      positive h := by
  obtain ⟨num, p, htarget, hvalue, hdiv⟩ := exists_div_eq h₁ h₂
  rw [hvalue] at hv
  rw [hdiv]
  exact roundWithAccuracy_of_readsAs h h₂ hv htarget .positive

/-! ## Exact integers and powers of ten -/

/-- A positive float whose value is `v` exactly, with all 53 bits. -/
def Exactly (x : Float) (v : ℚ) : Prop :=
  ∃ (m : Nat) (e : Int) (h : Normal m e), 2 ^ 52 ≤ m ∧ x.toModel.unpack = positive h ∧
    v = m * 2 ^ e

theorem normal_of_nat {n : Nat} (hpos : n ≠ 0) (hlt : n < 2 ^ 53) :
    Normal (n * 2 ^ (52 - n.log2)) (n.log2 - 52) ∧ 2 ^ 52 ≤ n * 2 ^ (52 - n.log2) := by
  have hlog : n.log2 < 53 := (Nat.log2_lt hpos).mpr hlt
  have hlow : 2 ^ 52 ≤ n * 2 ^ (52 - n.log2) := by
    calc 2 ^ 52 = 2 ^ n.log2 * 2 ^ (52 - n.log2) := by
          rw [← Nat.pow_add, Nat.add_sub_cancel' (by omega)]
      _ ≤ n * 2 ^ (52 - n.log2) := Nat.mul_le_mul_right _ (Nat.log2_self_le hpos)
  have hhigh : n * 2 ^ (52 - n.log2) < 2 ^ 53 := by
    calc n * 2 ^ (52 - n.log2) < 2 ^ (n.log2 + 1) * 2 ^ (52 - n.log2) :=
          Nat.mul_lt_mul_of_pos_right Nat.lt_log2_self (Nat.two_pow_pos _)
      _ = 2 ^ 53 := by
          rw [← Nat.pow_add]
          congr 1
          omega
  exact ⟨⟨by omega, hhigh, by omega, Or.inl hlow⟩, hlow⟩

theorem nat_eq_normal {n : Nat} (hlog : n.log2 < 53) :
    (n : ℚ) = ((n * 2 ^ (52 - n.log2) : ℕ) : ℚ) * 2 ^ ((n.log2 : Int) - 52) := by
  have hscale : (2 : ℚ) ^ (52 - n.log2) * 2 ^ ((n.log2 : Int) - 52) = 1 := by
    rw [← zpow_natCast, ← zpow_add₀ two_ne_zero]
    convert zpow_zero (2 : ℚ)
    omega
  push_cast
  rw [mul_assoc, hscale, mul_one]

/-- An integer below `2 ^ 53` is shifted to 53 bits and rounded to itself. -/
theorem round_nat {n : Nat} (hpos : n ≠ 0) (hlt : n < 2 ^ 53) :
    UnpackedFloat.round Format.binary64 .positive n 0 = positive (normal_of_nat hpos hlt).1 := by
  obtain ⟨hnormal, hlow⟩ := normal_of_nat hpos hlt
  have hlog : n.log2 < 53 := (Nat.log2_lt hpos).mpr hlt
  have htarget : Format.binary64.targetExponent (totalExponent n 0) = (n.log2 : Int) - 52 := by
    rw [targetExponent_eq]
    unfold target
    omega
  have hshift : (0 - ((n.log2 : Int) - 52)).toNat = 52 - n.log2 := by omega
  have hexponent : 0 - ((52 - n.log2 : ℕ) : Int) = (n.log2 : Int) - 52 := by omega
  have hself := readsAs_self (n * 2 ^ (52 - n.log2)) ((n.log2 : Int) - 52)
  rw [← div_one ((n * 2 ^ (52 - n.log2) : ℕ) : ℚ), ← Nat.cast_one] at hself
  have hround := roundWithAccuracy_of_readsAs hnormal Nat.one_pos hself
    (by rw [Nat.div_one]; exact le_target hlow _) .positive
  rw [Nat.div_one, Nat.mod_one] at hround
  simp only [UnpackedFloat.round, decreaseExponent, htarget, hshift, hexponent, Nat.shiftLeft_eq]
  exact hround

/-- An integer below `2 ^ 53` is a float. -/
theorem exactly_toFloat {n : Nat} (hpos : n ≠ 0) (hlt : n < 2 ^ 53) :
    Exactly n.toUInt64.toFloat n := by
  obtain ⟨hnormal, hlow⟩ := normal_of_nat hpos hlt
  have hlog : n.log2 < 53 := (Nat.log2_lt hpos).mpr hlt
  have hnat : (n.toUInt64).toNat = n := by
    rw [Nat.toUInt64, UInt64.toNat_ofNat']
    omega
  have hsign : compare (n : Int) 0 = .gt := by
    rw [Int.compare_eq_gt]
    omega
  have hpack : n.toUInt64.toFloat.toModel = Float.Model.pack (positive hnormal) := by
    simp only [UInt64.toFloat, Float.Model.ofUInt64, UnpackedFloat.ofUInt64, UnpackedFloat.ofNat,
      UnpackedFloat.ofInt, UnpackedFloat.normalize, hnat, hsign, Int.toNat_natCast,
      round_nat hpos hlt]
  have hrange : (n.log2 : Int) - 52 ≤ topExponent := by
    unfold topExponent
    omega
  refine ⟨_, _, hnormal, hlow, ?_, nat_eq_normal hlog⟩
  rw [hpack]
  exact unpack_pack (.finite _ hnormal hrange)

/-- Whether a float is positive with all 53 bits and its value is `10 ^ k`. -/
def isTenPow (k : Nat) (x : Float) : Bool :=
  match Decimal.exact x with
  | .finite false m e =>
      decide (2 ^ 52 ≤ m ∧ m * 2 ^ e.toNat = 10 ^ k * 2 ^ (-e).toNat)
  | _ => false

/-- The table holds the powers of ten. -/
theorem isTenPow_table : ∀ k : Fin Float.exactlyRepresentablePowersOfTen.size,
    isTenPow k Float.exactlyRepresentablePowersOfTen[k] = true := by
  decide +kernel

theorem lt_size_table {k : Nat} (h : k ≤ 22) : k < Float.exactlyRepresentablePowersOfTen.size :=
  Nat.lt_succ_of_le h

/-- A power with an integer exponent, by its two natural exponents. -/
theorem zpow_mul_toNat {a : ℚ} (ha : a ≠ 0) (e : Int) :
    a ^ e * a ^ (-e).toNat = a ^ e.toNat := by
  rw [← zpow_natCast, ← zpow_natCast, ← zpow_add₀ ha]
  congr 1
  omega

theorem exactly_of_isTenPow {k : Nat} {x : Float} (h : isTenPow k x = true) :
    Exactly x (10 ^ k) := by
  unfold isTenPow at h
  split at h
  next m e hexact =>
    obtain ⟨hlow, hvalue⟩ := of_decide_eq_true h
    obtain ⟨hnormal, -, hx⟩ := unpack_of_exact hexact (by omega)
    refine ⟨m, e, hnormal, hlow, hx, ?_⟩
    have hpos : (2 : ℚ) ^ (-e).toNat ≠ 0 := by positivity
    have hcast : (m : ℚ) * 2 ^ e.toNat = 10 ^ k * 2 ^ (-e).toNat := by exact_mod_cast hvalue
    rw [← zpow_mul_toNat two_ne_zero, ← mul_assoc] at hcast
    exact (mul_right_cancel₀ hpos hcast).symm
  next => cases h

/-! ## The float of a decimal -/

/-- The value of a decimal with its exponent as a sign and an absolute value. -/
def scaled (d : Nat) (negative : Bool) (k : Nat) : ℚ :=
  if negative then d / 10 ^ k else d * 10 ^ k

/-- The exponent of a decimal as an integer. -/
def exponentOf (negative : Bool) (k : Nat) : Int :=
  if negative then Int.negOfNat k else Int.ofNat k

theorem scaled_eq (d : Nat) (negative : Bool) (k : Nat) :
    scaled d negative k = d * 10 ^ exponentOf negative k := by
  cases negative with
  | true => simp [scaled, exponentOf, Int.negOfNat_eq, div_eq_mul_inv]
  | false => simp [scaled, exponentOf]

theorem Normal.le_of_readsAs (h : Normal m e) {v : ℚ} (hv : ReadsAs m e v) : 2 ^ (e - 1) ≤ v := by
  have hreach := reach_le m e
  have hm : (1 : ℚ) ≤ m := by exact_mod_cast h.pos
  have hhalf : (2 : ℚ) ^ e = 2 * 2 ^ (e - 1) := by
    rw [mul_comm, ← zpow_add_one₀ two_ne_zero, Int.sub_add_cancel]
  have hscale : (0 : ℚ) < 2 ^ (e - 1) := by positivity
  have hlower := hv.lower
  rw [hhalf] at hlower
  nlinarith

theorem Normal.lt_of_readsAs (h : Normal m e) {v : ℚ} (hv : ReadsAs m e v) : v < 2 ^ (e + 53) := by
  have hm := h.add_one_le
  have hscale : (0 : ℚ) < 2 ^ e := by positivity
  have hupper := hv.upper
  have hpow : (2 : ℚ) ^ (e + 53) = 2 ^ e * 2 ^ 53 := by
    rw [zpow_add₀ two_ne_zero]
    norm_num
  rw [hpow]
  nlinarith

theorem Normal.not_readsAs_zero (h : Normal m e) : ¬ ReadsAs m e 0 := by
  intro hv
  have hle := h.le_of_readsAs hv
  have hscale : (0 : ℚ) < 2 ^ (e - 1) := by positivity
  linarith

theorem Normal.ne_zero_of_readsAs (h : Normal m e) {d : Nat} {x : ℚ} (hv : ReadsAs m e (d * x)) :
    d ≠ 0 := by
  rintro rfl
  rw [Nat.cast_zero, zero_mul] at hv
  exact h.not_readsAs_zero hv

/-- A decimal with few digits and a small exponent is a product or a quotient of exact floats. -/
theorem ofScientific_small (h : Normal m e) {d k : Nat} {negative : Bool} (hd : d < 2 ^ 53)
    (hk : k ≤ 22) (hv : ReadsAs m e (scaled d negative k)) :
    Float.ofScientific d negative k = .ofModel (.pack (positive h)) := by
  have hpos : d ≠ 0 := by
    rw [scaled_eq] at hv
    exact h.ne_zero_of_readsAs hv
  obtain ⟨m₁, e₁, h₁, hlow₁, hx₁, hv₁⟩ := exactly_toFloat hpos hd
  obtain ⟨m₂, e₂, h₂, hlow₂, hx₂, hv₂⟩ :=
    exactly_of_isTenPow (isTenPow_table ⟨k, lt_size_table hk⟩)
  rw [Float.ofScientific, dif_pos ⟨hd, hk⟩]
  cases negative with
  | true =>
      have hdiv := div_of_readsAs h h₁.pos h₂.pos
        (by rw [← hv₁, ← hv₂]; exact hv)
      change Float.ofModel (.pack (UnpackedFloat.div _ d.toUInt64.toFloat.toModel.unpack _)) = _
      rw [hx₁]
      exact congrArg (fun f => Float.ofModel (.pack f)) (hx₂ ▸ hdiv)
  | false =>
      have hbits : 2 ^ 52 ≤ m₁ * m₂ :=
        Nat.le_trans hlow₁ (Nat.le_mul_of_pos_right _ h₂.pos)
      have hmul := mul_of_readsAs h h₁.pos h₂.pos hbits
        (by rw [← hv₁, ← hv₂]; exact hv)
      change Float.ofModel (.pack (UnpackedFloat.mul _ d.toUInt64.toFloat.toModel.unpack _)) = _
      rw [hx₁]
      exact congrArg (fun f => Float.ofModel (.pack f)) (hx₂ ▸ hmul)

/-- An exponent that is cut off at the top is too large for a float. -/
theorem exponent_le (h : Normal m e) (htop : e ≤ topExponent) {d : Nat} {k : Int} (hd : d ≠ 0)
    (hv : ReadsAs m e (d * 10 ^ k)) : k ≤ 2 ^ 11 := by
  have hone : (1 : ℚ) ≤ d := by
    have hpos := Nat.pos_of_ne_zero hd
    exact_mod_cast hpos
  by_contra hk
  have hlarge : (2 : ℚ) ^ (e + 53) ≤ d * 10 ^ k := by
    calc (2 : ℚ) ^ (e + 53) ≤ 2 ^ k := by
          apply zpow_le_zpow_right₀ one_le_two
          unfold topExponent at htop
          omega
      _ ≤ 10 ^ k := zpow_le_zpow_left₀ (by omega) (by norm_num) (by norm_num)
      _ ≤ d * 10 ^ k := le_mul_of_one_le_left (by positivity) hone
  exact absurd (h.lt_of_readsAs hv) (not_lt.mpr hlarge)

theorem tenPow_le_twoPow {k : Int} (hk : k ≤ 0) : (10 : ℚ) ^ k ≤ 2 ^ k := by
  have hflip : (2 : ℚ) ^ (-k) ≤ 10 ^ (-k) :=
    zpow_le_zpow_left₀ (by omega) (by norm_num) (by norm_num)
  calc (10 : ℚ) ^ k = (10 ^ (-k))⁻¹ := by rw [zpow_neg, inv_inv]
    _ ≤ (2 ^ (-k))⁻¹ := inv_anti₀ (by positivity) hflip
    _ = 2 ^ k := by rw [zpow_neg, inv_inv]

/-- An exponent that is cut off at the bottom is too small for a float. -/
theorem le_exponent (h : Normal m e) {d : Nat} {k : Int} (hv : ReadsAs m e (d * 10 ^ k)) :
    -((2 ^ 11 : Int) + d.log2) ≤ k := by
  by_contra hk
  have hpow : (10 : ℚ) ^ k ≤ 2 ^ k := tenPow_le_twoPow (by omega)
  have hdigits : (d : ℚ) < 2 ^ ((d.log2 : Int) + 1) := by
    have hlog : d < 2 ^ (d.log2 + 1) := Nat.lt_log2_self
    exact_mod_cast hlog
  have htiny : (d : ℚ) * 10 ^ k < 2 ^ (e - 1) := by
    calc (d : ℚ) * 10 ^ k ≤ d * 2 ^ k := by gcongr
      _ < 2 ^ ((d.log2 : Int) + 1) * 2 ^ k := by gcongr
      _ = 2 ^ ((d.log2 : Int) + 1 + k) := (zpow_add₀ two_ne_zero _ _).symm
      _ ≤ 2 ^ (e - 1) := by
          apply zpow_le_zpow_right₀ one_le_two
          have := h.least
          omega
  exact absurd (h.le_of_readsAs hv) (not_le.mpr htiny)

/-- Any other decimal is a product or a quotient of big integers. -/
theorem ofScientific_big (h : Normal m e) {d : Nat} {k : Int} (hlarge : k ≤ 2 ^ 11)
    (hv : ReadsAs m e (d * 10 ^ k)) :
    UnpackedFloat.ofScientific Format.binary64 d k = positive h := by
  have hd := h.ne_zero_of_readsAs hv
  rw [UnpackedFloat.ofScientific, dif_neg hd, if_neg (not_lt.mpr hlarge),
    if_neg (not_lt.mpr (le_exponent h hv))]
  split
  next hk =>
    obtain ⟨n, rfl⟩ := Int.eq_ofNat_of_zero_le hk
    -- The power of ten is a factor or a divisor.
    have hbits : 2 ^ 52 ≤ d <<< Format.binary64.mantissaBits * 10 ^ (n : Int).toNat := by
      have hone : 1 ≤ d * 10 ^ (n : Int).toNat :=
        Nat.mul_pos (Nat.pos_of_ne_zero hd) (Nat.pow_pos (by decide))
      rw [Nat.shiftLeft_eq, show Format.binary64.mantissaBits = 53 from rfl]
      nlinarith
    have hvalue : ((d <<< Format.binary64.mantissaBits : ℕ) : ℚ) *
        2 ^ (-(Format.binary64.mantissaBits : Int)) *
        (((10 ^ (n : Int).toNat : ℕ) : ℚ) * 2 ^ (0 : Int)) = d * 10 ^ (n : Int) := by
      rw [Nat.shiftLeft_eq, zpow_neg, zpow_natCast, zpow_natCast, zpow_zero, mul_one,
        Int.toNat_natCast]
      push_cast
      field_simp
    rw [← hvalue] at hv
    exact mul_of_readsAs h _ _ hbits hv
  next hk =>
    obtain ⟨n, rfl⟩ : ∃ n : Nat, k = -n := ⟨(-k).toNat, by omega⟩
    have hvalue : (d : ℚ) * 2 ^ (0 : Int) /
        (((10 ^ (- -(n : Int)).toNat : ℕ) : ℚ) * 2 ^ (0 : Int)) = d * 10 ^ (-(n : Int)) := by
      rw [neg_neg, zpow_neg, zpow_natCast, zpow_zero, mul_one, mul_one, Int.toNat_natCast]
      push_cast
      rw [div_eq_mul_inv]
    rw [← hvalue] at hv
    exact div_of_readsAs h _ _ hv

theorem ofScientific_of_not_small {d k : Nat} {negative : Bool} (h : ¬(d < 2 ^ 53 ∧ k ≤ 22)) :
    Float.ofScientific d negative k =
      .ofModel (.pack (UnpackedFloat.ofScientific Format.binary64 d (exponentOf negative k))) := by
  rw [Float.ofScientific, dif_neg h]
  rfl

/-- The float of a decimal is the one whose interval the decimal lies in. -/
theorem ofScientific_eq (h : Normal m e) (htop : e ≤ topExponent) {d k : Nat} {negative : Bool}
    (hv : ReadsAs m e (scaled d negative k)) :
    Float.ofScientific d negative k = .ofModel (.pack (positive h)) := by
  by_cases hsmall : d < 2 ^ 53 ∧ k ≤ 22
  · exact ofScientific_small h hsmall.1 hsmall.2 hv
  · rw [scaled_eq] at hv
    have hlarge := exponent_le h htop (h.ne_zero_of_readsAs hv) hv
    rw [ofScientific_of_not_small hsmall, ofScientific_big h hlarge hv]

end RecordQuery.Binary
