import RecordQuery.Proofs.Floats.Literals
import RecordQuery.Proofs.Lexing.Words
import RecordQuery.Proofs.Numbers.Stored

/-! # Printed numbers read back

A finite float that is not negative is printed as a numeral that is read as the same float, be it
stored as an integer or as a float.
-/

namespace RecordQuery.Number

open Decimal Binary

variable {m : Nat} {e : Int} {x : Float}

theorem stored_of_finite (h : x.isFinite = true) : Json.ofFloat x = .number (ofFinite x) := by
  rw [Json.ofFloat, h]
  rfl

theorem not_lt_zero (hx : x.isFinite = true) (h : 0 ≤ Binary.value x) : ¬ x < 0.0 := by
  rw [lt_iff_value hx rfl]
  exact h.not_gt

/-- The digits of a natural number are read as its float. -/
theorem readFloat?_digitsOf (n : Nat) : readFloat? (digitsOf n) = some (Float.ofNat n) := by
  have hnumeral : IsNumeral (digitsOf n) [] [] := ⟨isDigits_digitsOf n, .none, .none⟩
  have hread := readFloat?_numeral hnumeral (k := 0) rfl
  have htoFloat : Literal.toFloat ⟨digitsOf n, [], 0⟩ = Float.ofScientific n false 0 := by
    simp [Literal.toFloat]
  rwa [List.append_nil, List.append_nil, List.drop_nil, htoFloat] at hread

/-- An integer is printed with all its digits. -/
theorem readsBack_int {n : Nat} (hn : n < 2 ^ 53) : (int n).ReadsBack := by
  have hliteral : (int n).literal = digitsOf n := by
    have hpos : ¬ (n : Int) < 0 := by omega
    simp only [literal, integerText, hpos, if_false, Int.natAbs_natCast]
  have hnumeral : IsNumeral (digitsOf n) [] [] := ⟨isDigits_digitsOf n, .none, .none⟩
  have hfinite : (Float.ofInt n).isFinite = true := isFinite_ofInt (by omega)
  have hvalue : Binary.value (Float.ofInt n) = n := value_ofInt (by omega)
  refine ⟨⟨digitsOf n, [], [], hnumeral, ?_, ?_⟩, ?_, ?_, not_lt_zero hfinite ?_⟩
  · rw [hliteral]
    simp
  · simp
  · rw [hliteral]
    exact readFloat?_digitsOf n
  · rw [toFloat_int, stored_of_finite hfinite, ofFinite_ofInt (by omega)]
  · rw [toFloat_int, hvalue]
    exact Nat.cast_nonneg n

/-- A float is printed with its shortest digits, positionally or in scientific notation, and never
with bare digits. -/
theorem exists_numeral {x : Float} (h : Normal m e) (htop : e ≤ topExponent)
    (hx : x.toModel.unpack = positive h) :
    ∃ whole fraction exponent, IsNumeral whole fraction exponent ∧
      literalText x = whole ++ (fraction ++ exponent) ∧ fraction ++ exponent ≠ [] ∧
      readFloat? (literalText x) = some x := by
  have hexact : exact x = .finite false m e := by
    rw [exact, hx]
    rfl
  have hspells : Spells (literalText x) (shortest .toEven m e).value := by
    rw [literalText, hexact]
    simp only [h.pos.ne', if_false, Bool.false_eq_true]
    split
    · exact spells_positional _
    · exact spells_scientific _
  obtain ⟨whole, fraction, exponent, k, hnumeral, htext, hne, hk, hvalue⟩ := hspells
  refine ⟨whole, fraction, exponent, hnumeral, htext, hne, ?_⟩
  have hreads := readsAs_shortest h .toEven
  rw [← hvalue] at hreads
  rw [htext, readFloat?_numeral hnumeral hk, Literal.toFloat_eq h htop hreads]
  exact congrArg some (eq_of_unpack_eq ((unpack_pack (.finite _ h htop)).trans hx.symm))

/-- What is stored as a float reads back as that float. -/
theorem readsBack_float (h : Normal m e) (htop : e ≤ topExponent)
    (hx : x.toModel.unpack = positive h) (hstored : Json.ofFloat x = .number (float x)) :
    (float x).ReadsBack := by
  obtain ⟨whole, fraction, exponent, hnumeral, htext, hne, hread⟩ := exists_numeral h htop hx
  have hfinite : x.isFinite = true := by
    rw [← denoting_iff, hx]
    exact .normal .positive h htop
  have hnonneg : 0 ≤ Binary.value x := by
    rw [Binary.value, hx]
    exact h.value_pos.le
  refine ⟨⟨whole, fraction, exponent, hnumeral, htext, ?_⟩, hread, hstored,
    not_lt_zero hfinite hnonneg⟩
  simp [hne]

/-- The number of a finite float that is not negative reads back. -/
theorem readsBack_ofFinite (hfinite : x.isFinite = true) (h : 0.0 ≤ x) :
    (ofFinite x).ReadsBack := by
  have hstored := stored_of_finite hfinite
  have hnonneg : 0 ≤ Binary.value x := (le_iff_value rfl hfinite).mp h
  -- An integral float up to the bound is stored as an integer, any other as itself.
  cases hnumber : ofFinite x with
  | int n =>
      have hn := natAbs_lt_of_ofFinite hfinite hnumber
      have hvalue := value_ofFinite hfinite
      rw [hnumber] at hvalue
      rw [← hvalue] at hnonneg
      have hle : (0 : ℚ) ≤ n := hnonneg
      obtain ⟨k, rfl⟩ := Int.eq_ofNat_of_zero_le (show 0 ≤ n by exact_mod_cast hle)
      exact readsBack_int hn
  | float y =>
      obtain ⟨rfl, hne⟩ := eq_of_ofFinite hfinite hnumber
      obtain ⟨m, e, hnormal, htop, hx⟩ := exists_positive hfinite (hnonneg.lt_of_ne' hne)
      rw [hnumber] at hstored
      exact readsBack_float hnormal htop hx hstored

end RecordQuery.Number
