import RecordQuery.Proofs.Evaluation.Comparisons
import RecordQuery.Proofs.Floats.Zeros
import RecordQuery.Proofs.Numbers.Order

/-! # Comparisons with a fixed number

The fixed number of a comparison comes back from its text as its float is stored. That float
decides arithmetic and order, so only two things are lost: an integer that collides with another
one is equal to it, and a zero has no sign to divide by.
-/

namespace RecordQuery

/-- Whether an operator tests equality. -/
def BinaryOp.isEquality : BinaryOp → Bool
  | eq | ne | strictEq | strictNe => true
  | _ => false

namespace Value

variable {a b c : Number} {x y : Float}

/-- Finite floats of one number are stored alike. -/
theorem ofFloat_congr {q : ℚ} (hx : x.isFinite = true ∧ Binary.value x = q)
    (hy : y.isFinite = true ∧ Binary.value y = q) : ofFloat x = ofFloat y := by
  rw [ofFloat, ofFloat, if_pos hx.1, if_pos hy.1,
    Number.ofFinite_congr hx.1 hy.1 (hx.2.trans hy.2.symm)]

theorem looseEq_number (a b : Number) :
    (json (.number a)).looseEq (json (.number b)) = a.sameValue b := by
  rw [looseEq]
  rfl

/-! ## Arithmetic and order -/

/-- Apart from equality, an operator only sees the floats of numbers. -/
theorem apply_congr {op : BinaryOp} (hop : op.isEquality = false) (h : b.toFloat = c.toFloat) :
    op.apply (json (.number a)) (json (.number b)) =
      op.apply (json (.number a)) (json (.number c)) := by
  cases op with
  | eq | ne | strictEq | strictNe => cases hop
  | add => exact congrArg (fun y => ofFloat (a.toFloat + y)) h
  | sub => exact congrArg (fun y => ofFloat (a.toFloat - y)) h
  | mul => exact congrArg (fun y => ofFloat (a.toFloat * y)) h
  | div => exact congrArg (fun y => ofFloat (a.toFloat / y)) h
  | rem => exact congrArg (fun y => ofFloat (Decimal.remainder a.toFloat y)) h
  | lt => exact congrArg (fun y => ofBool (compareFloat? a.toFloat y == some .lt)) h
  | gt => exact congrArg (fun y => ofBool (compareFloat? a.toFloat y == some .gt)) h
  | le => exact congrArg (fun y => ofBool
      (compareFloat? a.toFloat y == some .lt || compareFloat? a.toFloat y == some .eq)) h
  | ge => exact congrArg (fun y => ofBool
      (compareFloat? a.toFloat y == some .gt || compareFloat? a.toFloat y == some .eq)) h

/-- Apart from equality and division, an operator does not see the sign of a zero. -/
theorem apply_zero {op : BinaryOp} (hop : op.isEquality = false) (hdiv : op ≠ .div)
    (ha : a.IsStored) :
    op.apply (json (.number a)) (json (.number (.int 0))) =
      op.apply (json (.number a)) (json (.number (.float (-0.0)))) := by
  have hzero : (Float.ofInt 0).toModel.unpack = .zero .positive := rfl
  have hzero' : (-0.0 : Float).toModel.unpack = .zero .negative := rfl
  have hcompare : compareFloat? a.toFloat (Float.ofInt 0) = compareFloat? a.toFloat (-0.0) := by
    rw [compareFloat?_eq ha.isFinite rfl, compareFloat?_eq ha.isFinite rfl]
    rfl
  cases op with
  | eq | ne | strictEq | strictNe => cases hop
  | div => exact absurd rfl hdiv
  | add =>
      exact ofFloat_congr (Binary.value_add_zero ha.isFinite hzero)
        (Binary.value_add_zero ha.isFinite hzero')
  | sub =>
      exact ofFloat_congr (Binary.value_sub_zero ha.isFinite hzero)
        (Binary.value_sub_zero ha.isFinite hzero')
  | mul =>
      exact ofFloat_congr (Binary.value_mul_zero ha.isFinite hzero)
        (Binary.value_mul_zero ha.isFinite hzero')
  | rem =>
      have hrem := Binary.remainder_zero ha.isFinite hzero
      have hrem' := Binary.remainder_zero ha.isFinite hzero'
      exact congrArg ofFloat (hrem.trans hrem'.symm)
  | lt => exact congrArg (fun r => ofBool (r == some .lt)) hcompare
  | gt => exact congrArg (fun r => ofBool (r == some .gt)) hcompare
  | le => exact congrArg (fun r => ofBool (r == some .lt || r == some .eq)) hcompare
  | ge => exact congrArg (fun r => ofBool (r == some .gt || r == some .eq)) hcompare

/-- Division tells the zeros apart unless zero is divided. -/
theorem div_zero_iff (ha : a.IsStored) :
    (json (.number a)).div (json (.number (.int 0))) =
        (json (.number a)).div (json (.number (.float (-0.0)))) ↔
      Binary.value a.toFloat = 0 := by
  change ofFloat (a.toFloat / 0.0) = ofFloat (a.toFloat / (-0.0)) ↔ _
  constructor
  · intro heq
    by_contra hne
    obtain ⟨s, hplus, hminus⟩ := Binary.unpack_div_zero ha.isFinite hne
    have hfinite : ∀ z : Float, ∀ t, z.toModel.unpack = .infinity t → z.isFinite = false := by
      intro z t hz
      change z.toModel.unpack.isFinite = false
      rw [hz]
      rfl
    rw [ofFloat, ofFloat, hfinite _ _ hplus, hfinite _ _ hminus] at heq
    have hsame : a.toFloat / 0.0 = a.toFloat / (-0.0) := nonFinite.inj heq
    rw [hsame, hminus] at hplus
    cases s <;> cases hplus
  · intro hzero
    rw [Binary.div_zero_of_value_eq_zero ha.isFinite hzero]

/-! ## Equality -/

theorem ofBool_inj {p q : Bool} : ofBool p = ofBool q ↔ p = q :=
  ⟨fun h => Json.bool.inj (json.inj h), congrArg ofBool⟩

/-- Both equalities compare numbers by value. -/
theorem apply_equality {op : BinaryOp} (hop : op.isEquality = true) :
    op.apply (json (.number a)) (json (.number b)) =
        op.apply (json (.number a)) (json (.number c)) ↔ a.sameValue b = a.sameValue c := by
  cases op with
  | eq => simp only [BinaryOp.apply, looseEq_number, ofBool_inj]
  | ne => simp only [BinaryOp.apply, looseEq_number, ofBool_inj, Bool.not_inj_iff]
  | strictEq => simp only [BinaryOp.apply, strictEq_number, ofBool_inj]
  | strictNe => simp only [BinaryOp.apply, strictEq_number, ofBool_inj, Bool.not_inj_iff]
  | _ => cases hop

end Value

namespace Number

variable {d v : Number}

/-- A number that was stored as its float equals what the number equals, and what it
collides with. -/
theorem sameValue_ofFinite (hd : d.IsStored) (hv : v.IsStored) :
    d.sameValue (ofFinite v.toFloat) = true ↔ d.sameValue v = true ∨ d.Collide v := by
  have hw := isStored_ofFinite hv.isFinite
  have hvalue := value_toFloat_ofFinite hv.isFinite
  rw [← value_toFloat_eq_iff hd hv, ← hvalue]
  refine ⟨value_toFloat_of_sameValue hd hw, fun heq => ?_⟩
  by_contra hdiffer
  -- No integer collides with one that comes from a float, since those are below `2 ^ 53`.
  obtain ⟨m, n, rfl, hn, hne⟩ := (sameValue_or_int hd hw heq).resolve_left hdiffer
  have hlarge := (((collide_iff hd hw).mpr ⟨heq, hdiffer⟩).le_abs hd hw).2
  have hsmall := natAbs_lt_of_ofFinite hv.isFinite hn
  rw [hn, value, ← Int.cast_abs, Int.abs_eq_natAbs] at hlarge
  have hbound : (2 : Int) ^ 53 ≤ n.natAbs := by exact_mod_cast hlarge
  omega

theorem sameValue_ofFinite_eq_iff (hd : d.IsStored) (hv : v.IsStored) :
    d.sameValue (ofFinite v.toFloat) = d.sameValue v ↔ ¬ d.Collide v := by
  rw [Bool.eq_iff_iff, sameValue_ofFinite hd hv]
  constructor
  · intro h hcollide
    exact ((collide_iff hd hv).mp hcollide).2 (h.mp (.inr hcollide))
  · intro hapart
    exact ⟨fun h => h.resolve_right hapart, .inl⟩

/-- Only a negative zero comes back with another float. -/
theorem toFloat_ofFinite_or (hv : v.IsStored) :
    (ofFinite v.toFloat).toFloat = v.toFloat ∨
      v = float (-0.0) ∧ ofFinite v.toFloat = int 0 := by
  by_cases hzero : Binary.value v.toFloat = 0
  · have hint := ofFinite_of_value_eq_zero hv.isFinite hzero
    rw [hint]
    cases v with
    | int n =>
        have hn : ((n : Int) : ℚ) = 0 := hv.isRounded.eq_zero_iff.mpr hzero
        obtain rfl : n = 0 := by exact_mod_cast hn
        exact .inl rfl
    | float x =>
        obtain ⟨s, hs⟩ := (Binary.value_eq_zero_iff hv).mp hzero
        cases s with
        | positive => exact .inl (Binary.eq_of_unpack_eq hs.symm)
        | negative => exact .inr ⟨congrArg float (Binary.eq_of_unpack_eq hs), rfl⟩
  · exact .inl (toFloat_ofFinite hv.isFinite hzero)

/-- An operator gives the same on a number and on what its text comes back as, unless it tests
equality of two integers with one float or divides by a negative zero. -/
theorem apply_ofFinite_iff (op : BinaryOp) (hd : d.IsStored) (hv : v.IsStored) :
    op.apply (.json (.number d)) (.json (.number (ofFinite v.toFloat))) =
        op.apply (.json (.number d)) (.json (.number v)) ↔
      ¬ (op.isEquality = true ∧ d.Collide v) ∧
        ¬ (op = .div ∧ v = float (-0.0) ∧ d.value ≠ 0) := by
  cases hop : op.isEquality with
  | true =>
      have hdiv : op ≠ .div := by
        rintro rfl
        cases hop
      rw [Value.apply_equality hop, sameValue_ofFinite_eq_iff hd hv]
      exact ⟨fun h => ⟨fun hboth => h hboth.2, fun hboth => hdiv hboth.1⟩,
        fun h hcollide => h.1 ⟨rfl, hcollide⟩⟩
  | false =>
      rcases toFloat_ofFinite_or hv with hfloat | ⟨rfl, hint⟩
      · have hunsigned : v ≠ float (-0.0) := by
          rintro rfl
          rw [toFloat_float, ofFinite_of_value_eq_zero rfl rfl] at hfloat
          revert hfloat
          decide +kernel
        exact ⟨fun _ => ⟨fun hboth => Bool.false_ne_true hboth.1, fun hall => hunsigned hall.2.1⟩,
          fun _ => Value.apply_congr hop hfloat⟩
      · rw [hint]
        by_cases hdiv : op = .div
        · subst hdiv
          have hzero : d.value = 0 ↔ Binary.value d.toFloat = 0 := hd.isRounded.eq_zero_iff
          rw [BinaryOp.apply, BinaryOp.apply, Value.div_zero_iff hd, ← hzero]
          constructor
          · intro h
            exact ⟨fun hboth => Bool.false_ne_true hboth.1, fun hall => hall.2.2 h⟩
          · intro h
            by_contra hne
            exact h.2 ⟨rfl, rfl, hne⟩
        · exact ⟨fun _ => ⟨fun hboth => Bool.false_ne_true hboth.1, fun hall => hdiv hall.1⟩,
            fun _ => Value.apply_zero hop hdiv hd⟩

end Number

namespace Accessor

/-- A comparison with a number computes the operator between the record and the float of the number,
as it is stored. -/
theorem compare_stored (op : BinaryOp) {v : Number} (hv : v.IsStored) :
    ∃ a, compare op.text (.number v) = .ok a ∧
      ∀ x : Value, a.call x = .ok (op.apply x (.json (.number (.ofFinite v.toFloat)))) := by
  have hdenotes : Denotes 1 (Json.number v).compact (.number (.ofFinite v.toFloat)) :=
    .literal hv
  exact compare_of_denotes hdenotes (by decide) op

/-- A comparison with a number computes the operator between the record and the float of the number,
as it is stored. On a number that is the operator on the number itself, unless it tests equality of
two integers with one float or divides by a negative zero. -/
theorem compare_number (op : BinaryOp) {v : Number} (hv : v.IsStored) :
    ∃ a, compare op.text (.number v) = .ok a ∧
      (∀ x : Value, a.call x = .ok (op.apply x (.json (.number (.ofFinite v.toFloat))))) ∧
      ∀ d : Number, d.IsStored →
        (a.call (.json (.number d)) = .ok (op.apply (.json (.number d)) (.json (.number v))) ↔
          ¬ (op.isEquality = true ∧ d.Collide v) ∧
            ¬ (op = .div ∧ v = .float (-0.0) ∧ d.value ≠ 0)) := by
  obtain ⟨a, hcompare, hcall⟩ := compare_stored op hv
  refine ⟨a, hcompare, hcall, fun d hd => ?_⟩
  rw [hcall, Except.ok.injEq]
  exact Number.apply_ofFinite_iff op hd hv

/-- The fixed number is no float, and the record does not collide with it. -/
theorem compare_number_apart :
    (Number.int 9007199254740993).IsStored ∧ (Number.int (-9007199254740993)).IsStored ∧
      ∃ a, compare "===" (.number (.int 9007199254740993)) = .ok a ∧
        a.call (.json (.number (.int (-9007199254740993)))) =
          .ok (BinaryOp.strictEq.apply (.json (.number (.int (-9007199254740993))))
            (.json (.number (.int 9007199254740993)))) := by
  have hv : (Number.int 9007199254740993).IsStored := by decide
  have hd : (Number.int (-9007199254740993)).IsStored := by decide
  have hapart : ¬ (Number.int (-9007199254740993)).Collide (.int 9007199254740993) := by
    intro hcollide
    have heq := (Binary.beq_iff hd.isFinite hv.isFinite).mpr
      ((Number.collide_iff hd hv).mp hcollide).1
    revert heq
    decide +kernel
  obtain ⟨a, hcompare, -, hcall⟩ := compare_number .strictEq hv
  exact ⟨hv, hd, a, hcompare, (hcall _ hd).mpr ⟨fun h => hapart h.2, nofun⟩⟩

/-- A record that equals another integer than itself, and a quotient with the wrong sign. -/
theorem compare_number_differs :
    (∃ a, compare "===" (.number (.int 9007199254740993)) = .ok a ∧
      a.call (.json (.number (.int 9007199254740992))) = .ok (.ofBool true) ∧
      BinaryOp.strictEq.apply (.json (.number (.int 9007199254740992)))
        (.json (.number (.int 9007199254740993))) = .ofBool false) ∧
    ∃ a, compare "/" (.number (.float (-0.0))) = .ok a ∧
      a.call (.json (.number (.int 1))) = .ok (.nonFinite (1.0 / 0.0)) ∧
      BinaryOp.div.apply (.json (.number (.int 1))) (.json (.number (.float (-0.0)))) =
        .nonFinite (-(1.0 / 0.0)) := by
  constructor
  · have hequal : (Number.int 9007199254740992).sameValue
        (.ofFinite (Number.int 9007199254740993).toFloat) = true := by decide +kernel
    have hdiffer : (Number.int 9007199254740992).sameValue (.int 9007199254740993) = false := by
      decide
    obtain ⟨a, hcompare, hcall⟩ := compare_stored .strictEq (v := .int 9007199254740993) (by decide)
    refine ⟨a, hcompare, ?_, ?_⟩
    · rw [hcall, BinaryOp.apply, Value.strictEq_number, hequal]
    · rw [BinaryOp.apply, Value.strictEq_number, hdiffer]
  · have hplus : (Number.int 1).toFloat / (Number.ofFinite (-0.0)).toFloat = 1.0 / 0.0 := by
      decide +kernel
    have hminus : (Number.int 1).toFloat / (-0.0) = -(1.0 / 0.0) := by decide +kernel
    obtain ⟨a, hcompare, hcall⟩ := compare_stored .div (v := .float (-0.0)) (by decide +kernel)
    refine ⟨a, hcompare, ?_, ?_⟩
    · rw [hcall]
      change Except.ok (Value.ofFloat ((Number.int 1).toFloat /
        (Number.ofFinite (-0.0)).toFloat)) = _
      rw [hplus]
      rfl
    · change Value.ofFloat ((Number.int 1).toFloat / (-0.0)) = _
      rw [hminus]
      rfl

end Accessor

end RecordQuery
