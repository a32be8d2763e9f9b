import Mathlib
import RecordQuery.Builtin.Sequence
import RecordQuery.Proofs.Numbers.Stored

/-! # Numbers as positions

A number that is given for a position counts by its integer part. Up to `2 ^ 53` an integer is that
position itself, and the larger ones are still larger than that.
-/

namespace RecordQuery

variable {x : Float} {a : Number} {n : Int}

/-! ## Integer parts -/

namespace Binary

/-- The integer part of a float is no less than the integers from zero up to the float. -/
theorem le_integerPart (hx : x.isFinite = true) (hn : 0 ≤ n) (h : n ≤ value x) :
    n ≤ Decimal.integerPart x := by
  obtain ⟨num, den, hden, hvalue, -, hpart⟩ := exists_fraction hx
  have hden' : (0 : ℚ) < den := by exact_mod_cast hden
  rw [hvalue, le_div_iff₀ hden'] at h
  have hle : n * den ≤ num := by exact_mod_cast h
  have hnum : 0 ≤ num := (mul_nonneg hn (Int.natCast_nonneg den)).trans hle
  rw [hpart, Int.tdiv_eq_ediv_of_nonneg hnum]
  exact Int.le_ediv_of_mul_le (by exact_mod_cast hden) hle

end Binary

namespace Number

/-- An integer up to `2 ^ 53` is its own float, in either storage. -/
theorem value_toFloat_eq (hv : a.value = n) (hn : n.natAbs ≤ 2 ^ 53) :
    Binary.value a.toFloat = n := by
  cases a with
  | int m =>
      have hcast : (m : ℚ) = n := hv
      obtain rfl : m = n := by exact_mod_cast hcast
      exact Binary.value_ofInt hn
  | float x => exact hv

/-- Larger integers have larger floats. -/
theorem le_value_toFloat (ha : a.IsStored) (hv : a.value = n) (hn : 2 ^ 53 ≤ n) :
    2 ^ 53 ≤ Binary.value a.toFloat := by
  by_contra hlt
  have hbound : Binary.value (Float.ofInt (2 ^ 53)) = 2 ^ 53 := by
    rw [Binary.value_ofInt (by decide)]
    norm_num
  have hle : a.value ≤ ((2 ^ 53 : Int) : ℚ) := by
    refine ha.isRounded.le_of_lt (Binary.isRounded_ofInt (by decide)) ?_
    change Binary.value a.toFloat < Binary.value (Float.ofInt (2 ^ 53))
    rw [hbound]
    exact not_le.mp hlt
  obtain rfl : n = 2 ^ 53 := le_antisymm (by rw [hv] at hle; exact_mod_cast hle) hn
  rw [value_toFloat_eq hv (by decide)] at hlt
  exact hlt (by norm_num)

end Number

/-! ## Positions -/

namespace Value

theorem toNumber_number (a : Number) : (json (.number a)).toNumber = a.toFloat := by
  rw [toNumber, Json.toFloat]

theorem toInteger_of_isFinite {v : Value} (hv : v.toNumber.isFinite = true) :
    v.toInteger = max minInt64 (min maxInt64 (Decimal.integerPart v.toNumber)) := by
  obtain ⟨negative, m, e, hexact, -⟩ := Binary.exists_exact hv
  rw [toInteger, hexact]

theorem toInteger_range (v : Value) : minInt64 ≤ v.toInteger ∧ v.toInteger ≤ maxInt64 := by
  unfold toInteger minInt64 maxInt64
  split
  next => decide
  next negative _ => cases negative <;> decide
  next => omega

/-- A stored number gives its integer part, kept within 64 bits. -/
theorem toInteger_of_isStored (ha : a.IsStored) : (json (.number a)).toInteger =
    max minInt64 (min maxInt64 (Decimal.integerPart a.toFloat)) := by
  have hfinite : (json (.number a)).toNumber.isFinite = true := by
    rw [toNumber_number]
    exact ha.isFinite
  rw [toInteger_of_isFinite hfinite, toNumber_number]

/-- A stored integer up to `2 ^ 53` is the position that it gives. -/
theorem toInteger_number (ha : a.IsStored) (hv : a.value = n) (hn : n.natAbs ≤ 2 ^ 53) :
    (json (.number a)).toInteger = n := by
  have hpart := (Binary.integerPart_of_value ha.isFinite (Number.value_toFloat_eq hv hn)).2
  rw [toInteger_of_isStored ha, hpart]
  unfold minInt64 maxInt64
  omega

/-- Larger stored integers give larger positions. -/
theorem le_toInteger_number (ha : a.IsStored) (hv : a.value = n) (hn : 2 ^ 53 ≤ n) :
    2 ^ 53 ≤ (json (.number a)).toInteger := by
  have hpart : 2 ^ 53 ≤ Decimal.integerPart a.toFloat :=
    Binary.le_integerPart ha.isFinite (by decide)
      (by exact_mod_cast Number.le_value_toFloat ha hv hn)
  rw [toInteger_of_isStored ha]
  unfold minInt64 maxInt64
  omega

theorem toInteger_ofInt (hn : n.natAbs ≤ 2 ^ 53) : (ofInt n).toInteger = n := by
  refine toInteger_number ?_ rfl hn
  unfold Number.IsStored
  omega

/-- A position from the start is kept within the list. -/
theorem relativeIndex_ofInt {k : Nat} (hk : k ≤ 2 ^ 53) (length default : Nat) :
    (ofInt k).relativeIndex length default = min k length := by
  have hinteger : (ofInt k).toInteger = k := toInteger_ofInt (by omega)
  rw [relativeIndex, hinteger]
  · rw [if_neg (by omega), Int.toNat_natCast]
  · intro h
    cases h

theorem relativeIndex_of_ne {v : Value} (hdefined : v ≠ undefined) (length default : Nat) :
    v.relativeIndex length default =
      if v.toInteger < 0 then (length + v.toInteger).toNat else min v.toInteger.toNat length := by
  cases v with
  | undefined => exact absurd rfl hdefined
  | _ => rfl

theorem clampedIndex_of_ne {v : Value} (hdefined : v ≠ undefined) (length default : Nat) :
    v.clampedIndex length default = min v.toInteger.toNat length := by
  cases v with
  | undefined => exact absurd rfl hdefined
  | _ => rfl

theorem clampedIndex_le_of_le {length default : Nat} (hdefault : default ≤ length) (v : Value) :
    v.clampedIndex length default ≤ length := by
  unfold clampedIndex
  split
  · exact hdefault
  · exact Nat.min_le_right _ _

theorem clampedIndex_le (v : Value) (length : Nat) : v.clampedIndex length 0 ≤ length :=
  v.clampedIndex_le_of_le (Nat.zero_le length)

theorem relativeIndex_le {length default : Nat} (hdefault : default ≤ length) (v : Value) :
    v.relativeIndex length default ≤ length := by
  unfold relativeIndex
  split
  · exact hdefault
  · dsimp only
    split
    · omega
    · exact Nat.min_le_right _ _

end Value

/-! ## Parts of lists -/

namespace Builtin

variable {α : Type}

/-- The part of a list between two positions, in order or not. -/
theorem between_eq_extract (list : List α) (start stop : Nat) :
    between list start stop = list.extract start stop := by
  rw [between, List.extract_eq_take_drop]
  split
  next => rfl
  next h => rw [Nat.sub_eq_zero_of_le (Nat.le_of_not_lt h), List.take_zero]

theorem between_min (list : List α) (start stop : Nat) :
    between list (min start list.length) (min stop list.length) = list.extract start stop := by
  rw [between, List.extract_eq_take_drop]
  split
  next h =>
    have hstart : start ≤ list.length := by omega
    rw [Nat.min_eq_left hstart]
    by_cases hstop : stop ≤ list.length
    · rw [Nat.min_eq_left hstop]
    · rw [List.take_of_length_le (by simp; omega), List.take_of_length_le (by simp; omega)]
  next h =>
    symm
    rw [List.take_eq_nil_iff, List.drop_eq_nil_iff]
    omega

/-- As many elements as an integer says, unless integers have no digits left to say so. -/
theorem limited_number {n : Nat} (ha : a.IsStored) (hv : a.value = n) {list : List α}
    (hn : n ≤ 2 ^ 53 ∨ list.length ≤ 2 ^ 53) : limited (.json (.number a)) list = list.take n := by
  change list.take (Value.json (.number a)).toInteger.toNat = list.take n
  rcases Nat.lt_or_ge (2 ^ 53) n with hlarge | hle
  · have hlength : list.length ≤ 2 ^ 53 := hn.resolve_left (by omega)
    have hlimit := Value.le_toInteger_number (n := n) ha hv (by omega)
    rw [List.take_of_length_le (by omega), List.take_of_length_le (by omega)]
  · rw [Value.toInteger_number (n := n) ha hv (by omega), Int.toNat_natCast]

end Builtin

end RecordQuery
