import RecordQuery.Proofs.Floats.Integers

/-! # Sums of floats

The sum of two finite floats is the float nearest to the exact sum, with an even significand if
another one is as near. A number that is a float itself is rounded to no other.
-/

namespace RecordQuery.Binary

open Float.Model Float.Model.UnpackedFloat

variable {m n : Nat} {e p : Int} {v : ℚ} {f g : UnpackedFloat} {x y : Float}

/-! ## Integers in units of a power of two -/

theorem log2_mul_two_pow (hn : n ≠ 0) (k : Nat) : (n * 2 ^ k).log2 = n.log2 + k := by
  induction k with
  | zero => rw [Nat.pow_zero, Nat.mul_one, Nat.add_zero]
  | succ k ih =>
      have hne : n * 2 ^ k ≠ 0 := Nat.mul_ne_zero hn (Nat.two_pow_pos k).ne'
      rw [Nat.pow_succ, ← Nat.mul_assoc, Nat.mul_comm, Nat.log2_two_mul hne, ih, Nat.add_assoc]

/-- A positive integer in units of a power of two is rounded to the float whose
interval it lies in. -/
theorem round_of_readsAs (h : Normal m e) (hn : n ≠ 0) (hv : ReadsAs m e (n * 2 ^ p)) (s : Sign) :
    UnpackedFloat.round Format.binary64 s n p = .finite s m e h.pos := by
  -- The significand is extended to 53 bits first, which keeps the value and the target exponent.
  have htarget (k : Nat) : target (n * 2 ^ k) (p - k) = target n p := by
    unfold target
    rw [log2_mul_two_pow hn]
    congr 1
    push_cast
    ring
  have hvalue (k : Nat) : (n : ℚ) * 2 ^ p = ((n * 2 ^ k : ℕ) : ℚ) / (1 : ℕ) * 2 ^ (p - k) := by
    rw [zpow_sub₀ two_ne_zero, zpow_natCast]
    push_cast
    field_simp
  have hle : p - (p - target n p).toNat ≤ target n p := by omega
  rw [hvalue (p - target n p).toNat] at hv
  have hround := roundWithAccuracy_of_readsAs h Nat.one_pos hv
    (by rw [Nat.div_one, htarget]; exact hle) s
  rw [Nat.div_one, Nat.mod_one] at hround
  simp only [UnpackedFloat.round, decreaseExponent, targetExponent_eq, Nat.shiftLeft_eq]
  exact hround

/-- A float is rounded to no other. -/
theorem eq_of_readsAs (h : Normal m e) (h' : Normal n p) (hv : ReadsAs m e (n * 2 ^ p)) :
    m = n ∧ e = p := by
  have hround := round_of_readsAs h h'.pos.ne' hv .positive
  rw [round_of_readsAs h' h'.pos.ne' (readsAs_self n p)] at hround
  cases hround
  exact ⟨rfl, rfl⟩

theorem IsRounded.rational_eq (hf : IsRounded v f) (hg : Denoting g) (hv : rational g = v) :
    rational f = v := by
  cases hg with
  | zero s =>
      rw [← hv] at hf ⊢
      exact hf.eq_zero_iff.mp rfl
  | @normal s n p h' htop' =>
      have hpos' := h'.value_pos
      cases hf with
      | zero t =>
          cases s with
          | positive => exact absurd hv hpos'.ne'
          | negative => exact absurd hv (neg_ne_zero.mpr hpos'.ne')
      | positive h htop hreads =>
          have hpos := IsRounded.pos h hreads
          cases s with
          | positive =>
              rw [← hv] at hreads
              obtain ⟨rfl, rfl⟩ := eq_of_readsAs h h' hreads
              exact hv
          | negative =>
              rw [← hv] at hpos
              exact absurd (neg_pos.mp hpos) hpos'.not_gt
      | negative h htop hreads =>
          have hpos := IsRounded.pos h hreads
          rw [← hv] at hreads hpos
          cases s with
          | positive => exact absurd (neg_pos.mp hpos) hpos'.not_gt
          | negative =>
              rw [rational, neg_neg] at hreads
              obtain ⟨rfl, rfl⟩ := eq_of_readsAs h h' hreads
              exact hv

/-- No positive integer in units of the least float is rounded to zero. -/
theorem underflow_lt_units (hn : n ≠ 0) (hp : -1074 ≤ p) : underflow < n * 2 ^ p := by
  have hone : (1 : ℚ) ≤ n := by exact_mod_cast Nat.one_le_iff_ne_zero.mpr hn
  have hscale : (2 : ℚ) ^ (-1074 : Int) ≤ 2 ^ p := zpow_le_zpow_right₀ one_le_two hp
  have hpos : (0 : ℚ) < 2 ^ (-1074 : Int) := by positivity
  unfold underflow
  nlinarith

theorem exists_round (hn : n ≠ 0) (hp : -1074 ≤ p) (hlt : (n : ℚ) * 2 ^ p < overflow) :
    ∃ (m : Nat) (e : Int) (h : Normal m e), e ≤ topExponent ∧ ReadsAs m e (n * 2 ^ p) ∧
      ∀ s, UnpackedFloat.round Format.binary64 s n p = .finite s m e h.pos := by
  obtain ⟨m, e, h, hv⟩ := exists_readsAs_of_lt (underflow_lt_units hn hp)
  exact ⟨m, e, h, (hv.lt_overflow_iff h).mp hlt, hv, round_of_readsAs h hn hv⟩

/-- An integer in units of a power of two is rounded to a nearest float. -/
theorem isRounded_normalize {i : Int} (hp : -1074 ≤ p) (hlt : |(i : ℚ) * 2 ^ p| < overflow)
    (s : Sign) : IsRounded (i * 2 ^ p) (UnpackedFloat.normalize Format.binary64 i p s) := by
  have hscale : |(i : ℚ) * 2 ^ p| = (i.natAbs : ℚ) * 2 ^ p := by
    rw [abs_mul, abs_of_pos (a := (2 : ℚ) ^ p) (by positivity), Nat.cast_natAbs, Int.cast_abs]
  rw [hscale] at hlt
  simp only [UnpackedFloat.normalize]
  rcases lt_trichotomy i 0 with hneg | rfl | hpos
  · obtain ⟨m, e, h, htop, hv, hround⟩ := exists_round (by omega) hp hlt
    have hvalue : (i : ℚ) * 2 ^ p = -(i.natAbs * 2 ^ p) := by
      rw [← hscale, abs_of_neg (mul_neg_of_neg_of_pos (by exact_mod_cast hneg) (by positivity)),
        neg_neg]
    have hnat : (-i).toNat = i.natAbs := by omega
    rw [compare_lt_iff_lt.mpr hneg, hnat, hround]
    refine .negative h htop ?_
    rwa [hvalue, neg_neg]
  · rw [Int.cast_zero, zero_mul]
    exact .zero s
  · obtain ⟨m, e, h, htop, hv, hround⟩ := exists_round (by omega) hp hlt
    have hvalue : (i : ℚ) * 2 ^ p = i.natAbs * 2 ^ p := by
      rw [← hscale, abs_of_pos (mul_pos (by exact_mod_cast hpos) (by positivity))]
    have hnat : i.toNat = i.natAbs := by omega
    rw [compare_gt_iff_gt.mpr hpos, hnat, hround]
    refine .positive h htop ?_
    rwa [hvalue]

/-! ## Addition -/

/-- A float is its signed significand in units of a lower power of two. -/
theorem rational_eq_units (s : Sign) {hm : 0 < m} (hp : p ≤ e) :
    rational (.finite s m e hm) = ((s.apply ((m <<< (e - p).toNat : ℕ) : Int)) : ℚ) * 2 ^ p := by
  have hscale : (m : ℚ) * 2 ^ e = ((m <<< (e - p).toNat : ℕ) : ℚ) * 2 ^ p := by
    rw [Nat.shiftLeft_eq, Nat.cast_mul, Nat.cast_pow, Nat.cast_ofNat, mul_assoc, ← zpow_natCast,
      ← zpow_add₀ two_ne_zero]
    congr 2
    omega
  cases s with
  | positive =>
      rw [rational, hscale]
      rfl
  | negative =>
      rw [rational, hscale, Sign.apply, Int.cast_neg, Int.cast_natCast, neg_mul]

theorem isRounded_addUnpacked (hf : Denoting f) (hg : Denoting g)
    (hlt : |rational f + rational g| < overflow) :
    IsRounded (rational f + rational g) (UnpackedFloat.add Format.binary64 f g) := by
  cases hf with
  | zero s =>
      cases hg with
      | zero t =>
          have hzero (u : Sign) : IsRounded (rational (.zero s) + rational (.zero t)) (.zero u) := by
            change IsRounded (0 + 0) (.zero u)
            rw [add_zero]
            exact .zero u
          simp only [UnpackedFloat.add]
          split <;> exact hzero _
      | normal t h htop =>
          rw [show rational (.zero s) = 0 from rfl, zero_add]
          exact .self (.normal t h htop)
  | @normal s m e h htop =>
      cases hg with
      | zero t =>
          rw [show rational (.zero t) = 0 from rfl, add_zero]
          exact .self (.normal s h htop)
      | @normal t n k h' htop' =>
          have hleast : -1074 ≤ min e k := le_min h.least h'.least
          have hsum : rational (.finite s m e h.pos) + rational (.finite t n k h'.pos) =
              ((s.apply ((m <<< (e - min e k).toNat : ℕ) : Int) +
                t.apply ((n <<< (k - min e k).toNat : ℕ) : Int) : Int) : ℚ) * 2 ^ min e k := by
            rw [rational_eq_units s (min_le_left e k), rational_eq_units t (min_le_right e k)]
            push_cast
            ring
          rw [hsum] at hlt ⊢
          exact isRounded_normalize hleast hlt .positive

/-- The sum of two floats is the exact sum rounded to a nearest float. -/
theorem isRounded_add (hx : x.isFinite = true) (hy : y.isFinite = true)
    (hlt : |value x + value y| < overflow) :
    IsRounded (value x + value y) (x + y).toModel.unpack := by
  have hrounded := isRounded_addUnpacked (denoting_iff.mpr hx) (denoting_iff.mpr hy) hlt
  have hunpack : (x + y).toModel.unpack =
      UnpackedFloat.add Format.binary64 x.toModel.unpack y.toModel.unpack :=
    unpack_pack hrounded.denoting.packable
  rw [hunpack]
  exact hrounded

end RecordQuery.Binary
