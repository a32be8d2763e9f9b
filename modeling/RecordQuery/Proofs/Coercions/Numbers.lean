import RecordQuery.Proofs.Coercions.Records
import RecordQuery.Proofs.Numbers.Stored
import RecordQuery.Proofs.Numbers.Texts

/-! # Coercion into numbers

A value is made into the number that it has, and into zero if that is NaN. An infinity has no JSON
form and becomes null, which is zero the next time. All other results are numbers that stay as they
are.
-/

namespace RecordQuery

/-- A float is finite, NaN or an infinity. -/
theorem Binary.isFinite_or_isNaN_or_isInf (x : Float) :
    (x.isFinite = true ∧ x.isInf = false) ∨
      (x.isNaN = true ∧ x.isInf = false ∧ value x = 0) ∨
      (x.isFinite = false ∧ x.isNaN = false ∧ x.isInf = true) := by
  change (x.toModel.unpack.isFinite = true ∧ x.toModel.unpack.isInf = false) ∨
    (x.toModel.unpack.isNaN = true ∧ x.toModel.unpack.isInf = false ∧
      rational x.toModel.unpack = 0) ∨
    (x.toModel.unpack.isFinite = false ∧ x.toModel.unpack.isNaN = false ∧
      x.toModel.unpack.isInf = true)
  cases x.toModel.unpack with
  | notANumber => exact .inr (.inl ⟨rfl, rfl, rfl⟩)
  | infinity s => exact .inr (.inr ⟨rfl, rfl, rfl⟩)
  | zero s => exact .inl ⟨rfl, rfl⟩
  | finite s m e hm => exact .inl ⟨rfl, rfl⟩

/-- A number that comes from a float is stored as it is when it has gone through its float. -/
theorem Number.ofFinite_toFloat_ofFinite {x : Float} (hx : x.isFinite = true) :
    ofFinite (ofFinite x).toFloat = ofFinite x :=
  ofFinite_congr (isStored_ofFinite hx).isFinite hx (value_toFloat_ofFinite hx)

namespace Coercion

theorem toNumber_of_isFinite {v : Value} (h : v.toNumber.isFinite = true) :
    toNumber v = .number (.ofFinite v.toNumber) := by
  rw [toNumber, Binary.isNaN_of_isFinite h, if_neg Bool.false_ne_true, Json.ofFloat, if_pos h]

theorem toNumber_number {n : Number} (hn : n.IsStored) :
    toNumber (.json (.number n)) = .number (.ofFinite n.toFloat) :=
  toNumber_of_isFinite (v := .json (.number n)) hn.isFinite

/-- A coercion gives the number of the value, which coerces into itself, or null for an infinity. -/
theorem toNumber_cases (v : Value) :
    (v.toNumber.isInf = false ∧ ∃ n : Number, n.IsStored ∧ n.value = Binary.value v.toNumber ∧
      toNumber v = .number n ∧ toNumber (.json (.number n)) = .number n) ∨
    (v.toNumber.isInf = true ∧ toNumber v = .null) := by
  have hzero : (Number.int 0).IsStored := by decide
  obtain ⟨hfinite, hinf⟩ | ⟨hnan, hinf, hvalue⟩ | ⟨hfinite, hnan, hinf⟩ :=
    Binary.isFinite_or_isNaN_or_isInf v.toNumber
  · have hstored := Number.isStored_ofFinite hfinite
    refine .inl ⟨hinf, _, hstored, Number.value_ofFinite hfinite, toNumber_of_isFinite hfinite, ?_⟩
    rw [toNumber_number hstored, Number.ofFinite_toFloat_ofFinite hfinite]
  · refine .inl ⟨hinf, .int 0, hzero, Int.cast_zero.trans hvalue.symm, if_pos hnan, ?_⟩
    rw [toNumber_number hzero, Number.toFloat_int, Number.ofFinite_ofInt (by decide)]
  · refine .inr ⟨hinf, ?_⟩
    rw [toNumber, hnan, if_neg Bool.false_ne_true, Json.ofFloat, hfinite,
      if_neg Bool.false_ne_true]

theorem toNumber_null : toNumber (.json .null) = .number (.int 0) := by
  have hzero : (Number.int 0).IsStored := by decide
  refine (toNumber_of_isFinite rfl).trans (congrArg Json.number ?_)
  exact Number.ofFinite_of_value_eq_zero rfl rfl

/-- What a coercion gives tells whether the number of the value is an infinity. -/
theorem isInf_iff (v : Value) :
    (v.toNumber.isInf = false ↔
      ∃ n : Number, toNumber v = .number n ∧ n.IsStored ∧ n.value = Binary.value v.toNumber) ∧
    (v.toNumber.isInf = false ↔ toNumber (.json (toNumber v)) = toNumber v) ∧
    (v.toNumber.isInf = true ↔ toNumber v = .null) := by
  obtain ⟨hinf, n, hstored, hvalue, hnumber, hagain⟩ | ⟨hinf, hnull⟩ := toNumber_cases v
  · rw [hinf, hnumber, hagain]
    exact ⟨iff_of_true rfl ⟨n, rfl, hstored, hvalue⟩, iff_of_true rfl rfl, iff_of_false nofun nofun⟩
  · rw [hinf, hnull, toNumber_null]
    exact ⟨iff_of_false nofun nofun, iff_of_false nofun nofun, iff_of_true rfl rfl⟩

/-- Coercion into a number gives the number of the value, with zero for NaN, and gives it again from
its own result, just if the number is no infinity; that gives null. So the coercion of a field
leaves a number there, and changes nothing the second time, just if the field is not infinite. -/
theorem number_coercion_iff :
    (∀ v : Value,
      (v.toNumber.isInf = false ↔
        ∃ n : Number, toNumber v = .number n ∧ n.IsStored ∧ n.value = Binary.value v.toNumber) ∧
      (v.toNumber.isInf = false ↔ toNumber (.json (toNumber v)) = toNumber v) ∧
      (v.toNumber.isInf = true ↔ toNumber v = .null)) ∧
    ∀ (record : Fields) (key : String),
      let c : KeyCoercion := ⟨key, .number⟩
      ((record.read key).toNumber.isInf = false ↔
        ∃ n, (c.apply record).get? key = some (.number n)) ∧
      ((record.read key).toNumber.isInf = false ↔ c.apply (c.apply record) = c.apply record) := by
  refine ⟨isInf_iff, fun record key => ?_⟩
  intro c
  obtain ⟨hnumber, hagain, hnull⟩ := isInf_iff (record.read key)
  have hfield : (c.apply record).get? key = some (toNumber (record.read key)) := by
    rw [← Fields.read_eq_json_iff, c.read_apply, if_pos rfl]
    rfl
  constructor
  · rw [hfield]
    constructor
    · intro hinf
      obtain ⟨n, hn, -⟩ := hnumber.mp hinf
      exact ⟨n, congrArg some hn⟩
    · rintro ⟨n, hn⟩
      rw [Bool.eq_false_iff, Ne, hnull, Option.some.inj hn]
      nofun
  · rw [hagain, c.apply_apply_eq_iff]
    rfl

/-- The text that spells infinity is not made into a number, and its coercion is
coerced once more. -/
theorem number_coercion_infinity :
    ¬ ((∃ n, toNumber (.ofString "Infinity") = .number n) ∧
      toNumber (.json (toNumber (.ofString "Infinity"))) = toNumber (.ofString "Infinity")) ∧
    toNumber (.ofString "Infinity") = .null ∧
    toNumber (.json (toNumber (.ofString "Infinity"))) = .number (.int 0) := by
  have hinf : (Value.ofString "Infinity").toNumber.isInf = true := by decide +kernel
  obtain hcases | ⟨-, hnull⟩ := toNumber_cases (.ofString "Infinity")
  · rw [hinf] at hcases
    cases hcases.1
  · rw [hnull, toNumber_null]
    exact ⟨nofun, rfl, rfl⟩

end Coercion

end RecordQuery
