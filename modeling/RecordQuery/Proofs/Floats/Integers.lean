import RecordQuery.Proofs.Floats.Nearest
import RecordQuery.Proofs.Floats.Shortest
import RecordQuery.Proofs.Floats.Values

/-! # Integers as floats

An integer of 64 bits becomes a nearest float. Below `2 ^ 53` that float is the integer itself, and
a float that is an integer comes from it.
-/

namespace RecordQuery

open Decimal Float.Model Float.Model.UnpackedFloat

namespace Binary

variable {m : Nat} {e : Int}

/-! ## Natural numbers -/

/-- Natural numbers up to `2 ^ 53` have a normal form. -/
theorem exists_normal {k : Nat} (hpos : 0 < k) (hle : k ≤ 2 ^ 53) :
    ∃ m e, Normal m e ∧ e ≤ topExponent ∧ (k : ℚ) = m * 2 ^ e := by
  rcases Nat.lt_or_eq_of_le hle with hlt | rfl
  · have hlog : k.log2 < 53 := (Nat.log2_lt hpos.ne').mpr hlt
    refine ⟨_, _, (normal_of_nat hpos.ne' hlt).1, ?_, nat_eq_normal hlog⟩
    unfold topExponent
    omega
  · exact ⟨2 ^ 52, 1, ⟨by omega, by omega, by omega, .inl le_rfl⟩, by decide, by norm_num⟩

/-- A natural number of 64 bits is rounded to a float. -/
theorem exists_readsAs {k : Nat} (hpos : 0 < k) (hlt : k < 2 ^ 64) :
    ∃ m e, Normal m e ∧ e ≤ topExponent ∧ ReadsAs m e k := by
  have hlow : (1 : ℚ) ≤ k := by exact_mod_cast hpos
  have hhigh : (k : ℚ) ≤ 2 ^ 64 := by exact_mod_cast hlt.le
  obtain ⟨m, e, h, hv⟩ := exists_readsAs_of_lt (underflow_lt_one.trans_le hlow)
  exact ⟨m, e, h, (hv.lt_overflow_iff h).mp (lt_overflow_of_le_pow hhigh), hv⟩

theorem unpack_ofNat (h : Normal m e) (htop : e ≤ topExponent) {k : Nat} (hv : ReadsAs m e k) :
    (Float.ofNat k).toModel.unpack = positive h := by
  have hscaled : ReadsAs m e (scaled k false 0) := by simpa [scaled] using hv
  change (Float.ofScientific k false 0).toModel.unpack = positive h
  rw [ofScientific_eq h htop hscaled]
  exact unpack_pack (.finite _ h htop)

/-! ## Nearest floats -/

/-- A float is nearest to a number, with an even significand if another is as near. A zero is so
for zero only. -/
inductive IsRounded : ℚ → UnpackedFloat → Prop where
  | zero (s : Sign) : IsRounded 0 (.zero s)
  | positive {m : Nat} {e : Int} {v : ℚ} (h : Normal m e) (htop : e ≤ topExponent)
      (hv : ReadsAs m e v) : IsRounded v (.finite .positive m e h.pos)
  | negative {m : Nat} {e : Int} {v : ℚ} (h : Normal m e) (htop : e ≤ topExponent)
      (hv : ReadsAs m e (-v)) : IsRounded v (.finite .negative m e h.pos)

/-- What is rounded to a float lies above all that is rounded to a lower one. -/
theorem ReadsAs.le {k : Nat} {t : Int} {v w : ℚ} (h : Normal m e) (h' : Normal k t)
    (hv : ReadsAs m e v) (hw : ReadsAs k t w) (hlt : (k : ℚ) * 2 ^ t < m * 2 ^ e) : w ≤ v := by
  have hlower := hv.lower
  have hupper := hw.upper
  have hreach := reach_le m e
  have hscale : (0 : ℚ) < 2 ^ t := by positivity
  rcases lt_trichotomy t e with hbelow | rfl | habove
  · have hdouble := two_mul_zpow_le hbelow
    have hk := h'.add_one_le
    -- The values below a power of two reach down by a quarter of its own unit only.
    have hleast := h.le_sub_reach (by have := h'.least; omega)
    nlinarith
  · have hstep : (k : ℚ) + 1 ≤ m := by exact_mod_cast lt_of_mul_lt_mul_right hlt hscale.le
    nlinarith
  · exact absurd (h.value_lt h' habove) hlt.not_gt

namespace IsRounded

variable {v w : ℚ} {f g : UnpackedFloat}

theorem denoting (h : IsRounded v f) : Denoting f := by
  cases h with
  | zero s => exact .zero s
  | positive h htop hv => exact .normal _ h htop
  | negative h htop hv => exact .normal _ h htop

/-- A float is nearest to what it denotes. -/
theorem self (h : Denoting f) : IsRounded (rational f) f := by
  cases h with
  | zero s => exact .zero s
  | @normal s m e h htop =>
      cases s with
      | positive => exact .positive h htop (readsAs_self m e)
      | negative =>
          refine .negative h htop ?_
          rw [rational, neg_neg]
          exact readsAs_self m e

theorem pos (h : Normal m e) (hv : ReadsAs m e v) : 0 < v :=
  lt_of_lt_of_le (by positivity) (h.le_of_readsAs hv)

/-- Only zero is rounded to a zero. -/
theorem eq_zero_iff (h : IsRounded v f) : v = 0 ↔ rational f = 0 := by
  cases h with
  | zero s => exact ⟨fun _ => rfl, fun _ => rfl⟩
  | positive h htop hv =>
      have hleft : v ≠ 0 := (pos h hv).ne'
      have hright := h.value_pos.ne'
      exact ⟨fun hzero => absurd hzero hleft, fun hzero => absurd hzero hright⟩
  | negative h htop hv =>
      have hleft : v ≠ 0 := neg_ne_zero.mp (pos h hv).ne'
      have hright := neg_ne_zero.mpr h.value_pos.ne'
      exact ⟨fun hzero => absurd hzero hleft, fun hzero => absurd hzero hright⟩

/-- Rounding keeps the order of numbers. -/
theorem le_of_lt (hf : IsRounded v f) (hg : IsRounded w g) (hlt : rational f < rational g) :
    v ≤ w := by
  cases hf with
  | zero s =>
      cases hg with
      | zero t => exact le_rfl
      | positive h htop hw => exact (pos h hw).le
      | negative h htop hw => exact absurd (neg_pos.mp hlt) h.value_pos.not_gt
  | positive h htop hv =>
      cases hg with
      | zero t => exact absurd hlt h.value_pos.not_gt
      | positive h' htop' hw => exact ReadsAs.le h' h hw hv hlt
      | negative h' htop' hw =>
          have hneg := neg_lt_zero.mpr h'.value_pos
          exact absurd (hlt.trans hneg) h.value_pos.not_gt
  | negative h htop hv =>
      have hneg := pos h hv
      cases hg with
      | zero t => linarith
      | positive h' htop' hw =>
          have hpos := pos h' hw
          linarith
      | negative h' htop' hw =>
          exact neg_le_neg_iff.mp (ReadsAs.le h h' hv hw (neg_lt_neg_iff.mp hlt))

end IsRounded

/-! ## Integers -/

variable {n : Int} {f : UnpackedFloat} {x : Float}

theorem ofInt_neg {k : Nat} (hk : k ≠ 0) : Float.ofInt (-k) = -Float.ofNat k := by
  obtain ⟨k, rfl⟩ := Nat.exists_eq_succ_of_ne_zero hk
  rfl

/-- The float of an integer other than zero is the one that the integer is rounded to. -/
theorem IsRounded.unpack_ofInt (h : IsRounded n f) (hn : n ≠ 0) :
    (Float.ofInt n).toModel.unpack = f := by
  generalize hv : (n : ℚ) = v at h
  cases h with
  | zero s => exact absurd (by exact_mod_cast hv) hn
  | positive h htop hreads =>
      have hpos := IsRounded.pos h hreads
      rw [← hv] at hpos hreads
      obtain ⟨k, rfl⟩ := Int.eq_ofNat_of_zero_le (show 0 ≤ n by exact_mod_cast hpos.le)
      exact unpack_ofNat h htop (by exact_mod_cast hreads)
  | negative h htop hreads =>
      have hpos := IsRounded.pos h hreads
      rw [← hv] at hpos hreads
      obtain ⟨k, hk⟩ := Int.eq_ofNat_of_zero_le (show 0 ≤ -n by exact_mod_cast hpos.le)
      obtain rfl : n = -k := by omega
      rw [ofInt_neg (by omega), unpack_neg, unpack_ofNat h htop (by simpa using hreads)]
      rfl

/-- An integer is rounded as its absolute value is. -/
theorem exists_isRounded (h : Normal m e) (htop : e ≤ topExponent) (hv : ReadsAs m e n.natAbs) :
    n ≠ 0 ∧ ∃ s, IsRounded n (.finite s m e h.pos) ∧
      rational (.finite s m e h.pos) = n.sign * (m * 2 ^ e) := by
  have hne : n ≠ 0 := by
    rintro rfl
    exact h.not_readsAs_zero (by exact_mod_cast hv)
  refine ⟨hne, ?_⟩
  rw [Nat.cast_natAbs, Int.cast_abs] at hv
  rcases lt_or_gt_of_ne hne with hneg | hpos
  · have hneg' : (n : ℚ) < 0 := by exact_mod_cast hneg
    rw [abs_of_neg hneg'] at hv
    refine ⟨.negative, .negative h htop hv, ?_⟩
    rw [Int.sign_eq_neg_one_of_neg hneg, rational]
    norm_num
  · have hpos' : (0 : ℚ) < n := by exact_mod_cast hpos
    rw [abs_of_pos hpos'] at hv
    refine ⟨.positive, .positive h htop hv, ?_⟩
    rw [Int.sign_eq_one_of_pos hpos, rational]
    norm_num

/-- An integer of 64 bits is rounded to its float. -/
theorem isRounded_ofInt (hn : n.natAbs < 2 ^ 64) :
    IsRounded n (Float.ofInt n).toModel.unpack := by
  rcases Nat.eq_zero_or_pos n.natAbs with hzero | hpos
  · obtain rfl := Int.natAbs_eq_zero.mp hzero
    rw [Int.cast_zero]
    exact .zero _
  · obtain ⟨m, e, h, htop, hv⟩ := exists_readsAs hpos hn
    obtain ⟨hne, s, hrounded, -⟩ := exists_isRounded h htop hv
    rwa [hrounded.unpack_ofInt hne]

theorem isFinite_ofInt (hn : n.natAbs < 2 ^ 64) : (Float.ofInt n).isFinite = true :=
  denoting_iff.mp (isRounded_ofInt hn).denoting

theorem value_ofInt_of_readsAs (h : Normal m e) (htop : e ≤ topExponent)
    (hv : ReadsAs m e n.natAbs) : value (Float.ofInt n) = n.sign * (m * 2 ^ e) := by
  obtain ⟨hne, s, hrounded, hvalue⟩ := exists_isRounded h htop hv
  rw [value, hrounded.unpack_ofInt hne, hvalue]

theorem ofInt_eq_of_value (hx : x.isFinite = true) (hn : n ≠ 0) (h : value x = n) :
    Float.ofInt n = x := by
  have hself := IsRounded.self (denoting_iff.mpr hx)
  change IsRounded (value x) _ at hself
  rw [h] at hself
  exact eq_of_unpack_eq (hself.unpack_ofInt hn)

/-- Up to `2 ^ 53` integers are floats. -/
theorem value_ofInt (hn : n.natAbs ≤ 2 ^ 53) : value (Float.ofInt n) = n := by
  rcases Nat.eq_zero_or_pos n.natAbs with hzero | hpos
  · obtain rfl := Int.natAbs_eq_zero.mp hzero
    rfl
  · obtain ⟨m, e, h, htop, heq⟩ := exists_normal hpos hn
    rw [value_ofInt_of_readsAs h htop (heq ▸ readsAs_self m e), ← heq]
    rw [← Int.cast_natCast, ← Int.cast_mul, Int.sign_mul_natAbs]

/-- A float that a number of more than 53 bits is rounded to has no fraction. -/
theorem Normal.le_value (h : Normal m e) {v : ℚ} (hv : ReadsAs m e v) (hlarge : 2 ^ 53 ≤ v) :
    2 ^ 53 ≤ (m : ℚ) * 2 ^ e := by
  have hupper := hv.upper
  have hm := h.add_one_le
  have he : 0 < e := by
    by_contra hneg
    have hscale : (2 : ℚ) ^ e ≤ 1 := zpow_le_one_of_nonpos₀ one_le_two (not_lt.mp hneg)
    have hpos : (0 : ℚ) < 2 ^ e := by positivity
    nlinarith
  have hfull : (2 : ℚ) ^ 52 ≤ m := by exact_mod_cast h.full.resolve_right (by omega)
  have hscale : (2 : ℚ) * 2 ^ (0 : Int) ≤ 2 ^ e := two_mul_zpow_le he
  rw [zpow_zero] at hscale
  nlinarith

/-- From `2 ^ 53` on, floats of integers are no less. -/
theorem le_value_ofInt (hn : n.natAbs < 2 ^ 64) (hlarge : 2 ^ 53 ≤ n.natAbs) :
    2 ^ 53 ≤ |value (Float.ofInt n)| := by
  have hpos : 0 < n.natAbs := by omega
  obtain ⟨m, e, h, htop, hv⟩ := exists_readsAs hpos hn
  have hsign : |(n.sign : ℚ)| = 1 := by
    exact_mod_cast Int.abs_sign_of_ne_zero (Int.natAbs_pos.mp hpos)
  rw [value_ofInt_of_readsAs h htop hv, abs_mul, hsign, one_mul, abs_of_pos h.value_pos]
  exact h.le_value hv (by exact_mod_cast hlarge)

/-- Below `2 ^ 53` the float of an integer is the integer. -/
theorem value_ofInt_of_lt (hn : n.natAbs < 2 ^ 64) (h : |value (Float.ofInt n)| < 2 ^ 53) :
    value (Float.ofInt n) = n := by
  apply value_ofInt
  by_contra hlarge
  exact (le_value_ofInt hn (by omega)).not_gt h

/-- The floats that an integer is rounded to are those with the value of its float. -/
theorem isRounded_iff (hn : n.natAbs < 2 ^ 64) (hx : x.isFinite = true) :
    IsRounded n x.toModel.unpack ↔ value (Float.ofInt n) = value x := by
  constructor
  · intro h
    by_cases hzero : n = 0
    · have hvalue : value x = 0 := h.eq_zero_iff.mp (by exact_mod_cast hzero)
      rw [hzero, hvalue]
      rfl
    · rw [value, h.unpack_ofInt hzero, value]
  · intro h
    have hrounded := isRounded_ofInt hn
    by_cases hzero : value x = 0
    · obtain ⟨s, hs⟩ := (value_eq_zero_iff hx).mp hzero
      rw [hrounded.eq_zero_iff.mpr (h.trans hzero), hs]
      exact .zero s
    · rwa [← hrounded.denoting.eq_of_rational_eq (denoting_iff.mpr hx) h hzero]

/-! ## Floats without a fraction -/

theorem natAbs_signed (negative : Bool) (n : Nat) : (signed negative n).natAbs = n := by
  cases negative <;> simp [signed]

theorem exists_exact (hx : x.isFinite = true) :
    ∃ negative m e, exact x = .finite negative m e ∧ value x = signed negative m * 2 ^ e := by
  have hdenoting := denoting_iff.mpr hx
  rw [exact, value]
  generalize x.toModel.unpack = f at hdenoting
  cases hdenoting with
  | zero s => exact ⟨_, 0, 0, rfl, by cases s <;> norm_num [rational, signed]⟩
  | @normal s m e h htop => exact ⟨_, m, e, rfl, by cases s <;> simp [rational, signed]⟩

/-- A finite float is a fraction, and it is an integer and has an integer part as the
fraction does. -/
theorem exists_fraction (hx : x.isFinite = true) :
    ∃ (num : Int) (den : Nat), 0 < den ∧ value x = num / den ∧
      (isIntegral x = true ↔ (den : Int) ∣ num) ∧ integerPart x = num.tdiv den := by
  obtain ⟨negative, m, e, hexact, hvalue⟩ := exists_exact hx
  rw [hvalue]
  simp only [isIntegral, integerPart, hexact]
  rcases lt_or_ge e 0 with hneg | hnonneg
  · obtain ⟨k, rfl⟩ : ∃ k : Nat, e = -k := ⟨(-e).toNat, by omega⟩
    have hdivides : m % twoPow k = 0 ↔ (twoPow k : Int) ∣ signed negative m := by
      rw [Int.natCast_dvd, natAbs_signed, Nat.dvd_iff_mod_eq_zero]
    rw [if_pos hneg, neg_neg, Int.toNat_natCast]
    refine ⟨_, twoPow k, twoPow_pos k, ?_, ?_, rfl⟩
    · rw [zpow_neg, zpow_natCast, twoPow_eq, div_eq_mul_inv]
    · rw [decide_eq_false (not_le.mpr hneg), Bool.false_or, beq_iff_eq, hdivides]
  · obtain ⟨k, rfl⟩ := Int.eq_ofNat_of_zero_le hnonneg
    rw [if_neg (not_lt.mpr hnonneg), Int.toNat_natCast]
    refine ⟨signed negative m * twoPow k, 1, Nat.one_pos, ?_, ?_, ?_⟩
    · rw [zpow_natCast, ← twoPow_eq]
      push_cast
      rw [div_one]
    · simp
    · rw [Nat.cast_one, Int.tdiv_one]

/-- The integer part of an integer is that integer. -/
theorem integerPart_of_value (hx : x.isFinite = true) (h : value x = n) :
    isIntegral x = true ∧ integerPart x = n := by
  obtain ⟨num, den, hden, hvalue, hintegral, hpart⟩ := exists_fraction hx
  have hden' : (den : ℚ) ≠ 0 := by exact_mod_cast hden.ne'
  rw [hvalue, div_eq_iff hden'] at h
  obtain rfl : num = n * den := by exact_mod_cast h
  exact ⟨hintegral.mpr (Int.dvd_mul_left n den),
    hpart.trans (Int.mul_tdiv_cancel n (by exact_mod_cast hden.ne'))⟩

/-- Only a float that is an integer is its integer part. -/
theorem value_of_isIntegral (hx : x.isFinite = true) (h : isIntegral x = true) :
    value x = integerPart x := by
  obtain ⟨num, den, hden, hvalue, hintegral, hpart⟩ := exists_fraction hx
  obtain ⟨q, rfl⟩ := hintegral.mp h
  have hden' : (den : ℚ) ≠ 0 := by exact_mod_cast hden.ne'
  rw [hvalue, hpart, Int.mul_tdiv_cancel_left q (by exact_mod_cast hden.ne')]
  push_cast
  exact mul_div_cancel_left₀ (q : ℚ) hden'

end Binary

end RecordQuery
