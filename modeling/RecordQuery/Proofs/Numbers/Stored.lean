import RecordQuery.Number
import RecordQuery.Proofs.Floats.Integers

/-! # Stored numbers

What the integers and floats of JSON data denote. A float that is an integer below `2 ^ 53` is
stored as that integer, and no other float is.
-/

namespace RecordQuery

namespace Number

/-- The number that is denoted. -/
def value : Number → ℚ
  | int n => n
  | float x => Binary.value x

/-- A number that JSON data can hold: an integer of 64 bits, with or without a sign, or a finite
float. -/
def IsStored : Number → Prop
  | int n => -2 ^ 63 ≤ n ∧ n < 2 ^ 64
  | float x => x.isFinite = true

instance : DecidablePred IsStored
  | int n => inferInstanceAs (Decidable (-2 ^ 63 ≤ n ∧ n < 2 ^ 64))
  | float x => inferInstanceAs (Decidable (x.isFinite = true))

/-- An integer is rounded to a float that may denote another number. -/
inductive RoundsTo : Number → Number → Prop where
  | intro {n : Int} {x : Float} (h : Binary.IsRounded n x.toModel.unpack) :
      RoundsTo (int n) (float x)

variable {n : Int} {x : Float} {a b : Number}

theorem IsStored.natAbs_lt (h : (int n).IsStored) : n.natAbs < 2 ^ 64 := by
  unfold IsStored at h
  omega

theorem IsStored.isFinite (h : a.IsStored) : a.toFloat.isFinite = true := by
  cases a with
  | int n => exact Binary.isFinite_ofInt h.natAbs_lt
  | float x => exact h

/-- A number is rounded to its float. -/
theorem IsStored.isRounded (h : a.IsStored) :
    Binary.IsRounded a.value a.toFloat.toModel.unpack := by
  cases a with
  | int n => exact Binary.isRounded_ofInt h.natAbs_lt
  | float x => exact .self (Binary.denoting_iff.mpr h)

theorem roundsTo_iff (hn : (int n).IsStored) (hx : (float x).IsStored) :
    RoundsTo (int n) (float x) ↔ Binary.value (Float.ofInt n) = Binary.value x := by
  rw [← Binary.isRounded_iff hn.natAbs_lt hx]
  exact ⟨fun h => by cases h; assumption, .intro⟩

/-- A number below `2 ^ 53` is its own float. -/
theorem value_toFloat (ha : a.IsStored) (h : |Binary.value a.toFloat| < 2 ^ 53) :
    Binary.value a.toFloat = a.value := by
  cases a with
  | int n => exact Binary.value_ofInt_of_lt ha.natAbs_lt h
  | float x => rfl

/-- Numbers are below `2 ^ 53` if their floats are. -/
theorem abs_value_lt (ha : a.IsStored) :
    |Binary.value a.toFloat| < 2 ^ 53 ↔ |a.value| < 2 ^ 53 := by
  cases a with
  | float x => rfl
  | int n =>
      constructor
      · intro h
        rwa [← value_toFloat ha h]
      · intro h
        have hn : n.natAbs < 2 ^ 53 := by
          rw [value, ← Int.cast_abs, Int.abs_eq_natAbs] at h
          exact_mod_cast h
        rw [toFloat_int, Binary.value_ofInt hn.le]
        exact h

/-- A float below `2 ^ 53` bounds numbers as it bounds their floats. -/
theorem toFloat_le_iff (ha : a.IsStored) (hx : x.isFinite = true)
    (hlt : |Binary.value x| < 2 ^ 53) : a.toFloat ≤ x ↔ a.value ≤ Binary.value x := by
  have hself : Binary.IsRounded (Binary.value x) x.toModel.unpack :=
    .self (Binary.denoting_iff.mpr hx)
  rw [Binary.le_iff_value ha.isFinite hx]
  constructor
  · intro hle
    rcases hle.lt_or_eq with hless | heq
    · exact ha.isRounded.le_of_lt hself hless
    · rw [← heq, value_toFloat ha (heq ▸ hlt)]
  · intro hle
    by_contra hgreater
    have hge : Binary.value x ≤ a.value := hself.le_of_lt ha.isRounded (not_le.mp hgreater)
    have heq : a.value = Binary.value x := le_antisymm hle hge
    rw [value_toFloat ha ((abs_value_lt ha).mpr (heq ▸ hlt))] at hgreater
    exact hgreater hle

/-! ## Storing a float -/

theorem value_safeBound : Binary.value safeBound = 2 ^ 53 - 1 := by
  have hbound : safeBound = Float.ofInt (2 ^ 53 - 1) := by decide +kernel
  rw [hbound, Binary.value_ofInt (by decide)]
  norm_num

/-- A float is stored as an integer if it is one below `2 ^ 53`. -/
theorem ofFinite_eq_ite (hx : x.isFinite = true) :
    ofFinite x = if Decimal.isIntegral x = true ∧ (Decimal.integerPart x).natAbs < 2 ^ 53 then
      int (Decimal.integerPart x) else float x := by
  have hle : x.abs ≤ safeBound ↔ |Binary.value x| ≤ 2 ^ 53 - 1 := by
    rw [Binary.le_iff_value (by rwa [Binary.isFinite_abs]) rfl, Binary.value_abs, value_safeBound]
  have hbound (h : Decimal.isIntegral x = true) :
      |Binary.value x| ≤ 2 ^ 53 - 1 ↔ (Decimal.integerPart x).natAbs < 2 ^ 53 := by
    rw [Binary.value_of_isIntegral hx h, ← Int.cast_abs, ← Nat.cast_natAbs,
      le_sub_iff_add_le]
    exact_mod_cast Nat.succ_le_iff
  simp only [ofFinite, Bool.and_eq_true, decide_eq_true_eq, hle, and_congr_right_iff.mpr hbound]

theorem ofFinite_of_value (hx : x.isFinite = true) (h : Binary.value x = n)
    (hn : n.natAbs < 2 ^ 53) : ofFinite x = int n := by
  obtain ⟨hintegral, hpart⟩ := Binary.integerPart_of_value hx h
  rw [ofFinite_eq_ite hx, hpart, if_pos ⟨hintegral, hn⟩]

/-- An integer below `2 ^ 53` survives the way through its float. -/
theorem ofFinite_ofInt (hn : n.natAbs < 2 ^ 53) : ofFinite (Float.ofInt n) = int n :=
  ofFinite_of_value (Binary.isFinite_ofInt (by omega)) (Binary.value_ofInt hn.le) hn

/-- A zero loses its sign when it is stored. -/
theorem ofFinite_of_value_eq_zero (hx : x.isFinite = true) (h : Binary.value x = 0) :
    ofFinite x = int 0 :=
  ofFinite_of_value hx (by rw [h, Int.cast_zero]) (by decide)

/-- Storing a float other than a zero keeps the float. -/
theorem toFloat_ofFinite (hx : x.isFinite = true) (hne : Binary.value x ≠ 0) :
    (ofFinite x).toFloat = x := by
  rw [ofFinite_eq_ite hx]
  split
  next h =>
    have hvalue := Binary.value_of_isIntegral hx h.1
    refine Binary.ofInt_eq_of_value hx ?_ hvalue
    intro hzero
    rw [hzero, Int.cast_zero] at hvalue
    exact hne hvalue
  next => rfl

/-- Only integers below `2 ^ 53` come from floats. -/
theorem natAbs_lt_of_ofFinite (hx : x.isFinite = true) (h : ofFinite x = int n) :
    n.natAbs < 2 ^ 53 := by
  rw [ofFinite_eq_ite hx] at h
  split at h
  next hintegral => exact int.inj h ▸ hintegral.2
  next => cases h

/-- A float that is stored as a float is the same float, and no zero. -/
theorem eq_of_ofFinite {y : Float} (hx : x.isFinite = true) (h : ofFinite x = float y) :
    y = x ∧ Binary.value x ≠ 0 := by
  refine ⟨?_, fun hzero => ?_⟩
  · rw [ofFinite_eq_ite hx] at h
    split at h
    next => cases h
    next => exact (float.inj h).symm
  · rw [ofFinite_of_value_eq_zero hx hzero] at h
    cases h

theorem isStored_ofFinite (hx : x.isFinite = true) : (ofFinite x).IsStored := by
  cases h : ofFinite x with
  | int n =>
      have hn := natAbs_lt_of_ofFinite hx h
      unfold IsStored
      omega
  | float y =>
      obtain ⟨rfl, -⟩ := eq_of_ofFinite hx h
      exact hx

/-- Storing a float keeps the number that it denotes. -/
theorem value_ofFinite (hx : x.isFinite = true) : (ofFinite x).value = Binary.value x := by
  rw [ofFinite_eq_ite hx]
  split
  next h => exact (Binary.value_of_isIntegral hx h.1).symm
  next => rfl

/-- Floats of one number are stored alike. -/
theorem ofFinite_congr {y : Float} (hx : x.isFinite = true) (hy : y.isFinite = true)
    (h : Binary.value x = Binary.value y) : ofFinite x = ofFinite y := by
  by_cases hzero : Binary.value y = 0
  · rw [ofFinite_of_value_eq_zero hx (h.trans hzero), ofFinite_of_value_eq_zero hy hzero]
  · rw [Binary.eq_of_value_eq hx hy h hzero]

/-- The float of a stored float denotes the same number. -/
theorem value_toFloat_ofFinite (hx : x.isFinite = true) :
    Binary.value (ofFinite x).toFloat = Binary.value x := by
  by_cases hzero : Binary.value x = 0
  · rw [ofFinite_of_value_eq_zero hx hzero, hzero]
    rfl
  · rw [toFloat_ofFinite hx hzero]

/-- Storing a float in between does not show after a change of the sign. -/
theorem ofFinite_neg_toFloat (hx : x.isFinite = true) :
    ofFinite (-(ofFinite x).toFloat) = ofFinite (-x) := by
  apply ofFinite_congr
  · rw [Binary.isFinite_neg]
    exact (isStored_ofFinite hx).isFinite
  · rwa [Binary.isFinite_neg]
  · rw [Binary.value_neg, Binary.value_neg, value_toFloat_ofFinite hx]

end Number

end RecordQuery
