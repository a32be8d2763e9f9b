import RecordQuery.Proofs.Builtins.Methods
import RecordQuery.Proofs.Builtins.Positions
import RecordQuery.Proofs.Floats.Halves
import RecordQuery.Proofs.Numbers.Comparisons

/-! # Rounding of integers

A number is rounded by the floor of its sum with one half. An integer is left as it is if that sum
is exact or goes to the integer, and else becomes the next one.
-/

namespace RecordQuery

namespace Builtin

/-- Rounding leaves an integer as it is up to `2 ^ 52` and wherever it is even, and makes it the
next one otherwise. -/
theorem value_round {x : Float} {n : Int} (hx : x.isFinite = true) (hvalue : Binary.value x = n)
    (hn : n.natAbs < 2 ^ 53) : (round x).isFinite = true ∧
      Binary.value (round x) = (if n.natAbs ≤ 2 ^ 52 ∨ Even n then n else n + 1 : Int) := by
  obtain ⟨hhalf, hvalueHalf⟩ := Binary.value_half
  have habs : |Binary.value x + Binary.value 0.5| ≤ 2 ^ 64 := by
    have hlow : (-2 ^ 53 : ℚ) ≤ n := by exact_mod_cast (show -2 ^ 53 ≤ n by omega)
    have hhigh : (n : ℚ) ≤ 2 ^ 53 := by exact_mod_cast (show n ≤ 2 ^ 53 by omega)
    rw [hvalue, hvalueHalf, abs_le]
    constructor <;> linarith
  have hrounded := Binary.isRounded_add hx hhalf (Binary.lt_overflow_of_le_pow habs)
  have hsum : (x + 0.5).isFinite = true := Binary.denoting_iff.mp hrounded.denoting
  rw [hvalue, hvalueHalf] at hrounded
  obtain ⟨hfinite, hfloor⟩ := Binary.value_floor hsum
  refine ⟨hfinite, ?_⟩
  change Binary.value (Decimal.floor (x + 0.5)) = _
  rw [hfloor, Binary.value, hrounded.floor_half hn]

end Builtin

namespace Value

variable {n k : Int}

theorem ofFloat_ofInt (hn : n.natAbs < 2 ^ 53) : ofFloat (Float.ofInt n) = .ofInt n := by
  rw [ofFloat, if_pos (Binary.isFinite_ofInt (by omega)), Number.ofFinite_ofInt hn]
  rfl

/-- Different integers up to `2 ^ 53` are different values. -/
theorem ofFloat_ofInt_inj (hn : n.natAbs ≤ 2 ^ 53) (hk : k.natAbs ≤ 2 ^ 53) :
    ofFloat (Float.ofInt n) = ofFloat (Float.ofInt k) ↔ n = k := by
  refine ⟨fun h => ?_, fun h => by rw [h]⟩
  have hfiniteN : (Float.ofInt n).isFinite = true := Binary.isFinite_ofInt (by omega)
  have hfiniteK : (Float.ofInt k).isFinite = true := Binary.isFinite_ofInt (by omega)
  rw [ofFloat, ofFloat, if_pos hfiniteN, if_pos hfiniteK] at h
  have hnumber := Json.number.inj (Value.json.inj h)
  have hvalue : (n : ℚ) = k := by
    rw [← Binary.value_ofInt hn, ← Binary.value_ofInt hk, ← Number.value_ofFinite hfiniteN,
      ← Number.value_ofFinite hfiniteK, hnumber]
  exact_mod_cast hvalue

end Value

namespace Expr

open Grammar

variable {ctx : Context} {m x : Expr} {v : Value} {n : Int}

theorem eval_mathMethod (hctx : ctx.builtins = .standard) {name : String} {arity : Arity}
    {f : MathFn} {args : List Expr} {values : List Value}
    (hfind : BuiltinMap.standard.find? (.library "Math") name = some (.math name arity f))
    (hm : eval ctx m = .ok (.library "Math")) (hargs : evalList ctx args = .ok values)
    (harity : arity.admits values.length = true) :
    eval ctx (m.method name args) = .ok (Builtin.MathFn.apply f values) :=
  eval_method hm rfl (hctx ▸ hfind) hargs harity

/-- The rounding of an integer below `2 ^ 53` is the integer exactly if it is at most `2 ^ 52` or
even. The other integers are rounded to the next one. -/
theorem eval_round_integer (hctx : ctx.builtins = .standard)
    (hm : eval ctx m = .ok (.library "Math")) (hx : eval ctx x = .ok v)
    (hfinite : v.toNumber.isFinite = true) (hvalue : Binary.value v.toNumber = n)
    (hn : n.natAbs ≤ 2 ^ 53 - 1) :
    (eval ctx (m.method "round" [x]) = .ok (.ofInt n) ↔ n.natAbs ≤ 2 ^ 52 ∨ Even n) ∧
      (2 ^ 52 < n.natAbs → Odd n →
        eval ctx (m.method "round" [x]) = .ok (.ofFloat (Float.ofInt (n + 1)))) := by
  have hfind : BuiltinMap.standard.find? (.library "Math") "round" =
      some (.math "round" (.exactly 1) .round) := by decide
  have hround : eval ctx (m.method "round" [x]) = .ok (.ofFloat (Builtin.round v.toNumber)) := by
    rw [eval_mathMethod hctx hfind hm (evalList_cons hx evalList_nil) rfl, Builtin.MathFn.apply]
    rfl
  have hinteger : (if n.natAbs ≤ 2 ^ 52 ∨ Even n then n else n + 1).natAbs ≤ 2 ^ 53 := by
    split <;> omega
  have hstored := Value.ofFloat_congr (Builtin.value_round hfinite hvalue (by omega))
    ⟨Binary.isFinite_ofInt (by omega), Binary.value_ofInt hinteger⟩
  rw [hround, hstored, ← Value.ofFloat_ofInt (by omega), Except.ok.injEq,
    Value.ofFloat_ofInt_inj hinteger (by omega)]
  refine ⟨?_, fun hlarge hodd => ?_⟩
  · split
    next h => exact iff_of_true rfl h
    next h => exact iff_of_false (by omega) h
  · rw [if_neg (not_or.mpr ⟨not_le.mpr hlarge, Int.not_even_iff_odd.mpr hodd⟩)]

/-- The largest integer goes up to `2 ^ 53`, its opposite to the even integer above it, and the even
integer next to it stays, also if it is stored as a float. -/
theorem eval_round_integer_largest :
    let ctx := Context.ofScope .empty
    let round (a : Number) := (ident "Math").method "round" [.literal (.number a)]
    eval ctx (round (.int (2 ^ 53 - 1))) = .ok (.json (.number (.float 9007199254740992.0))) ∧
      eval ctx (round (.int (-2 ^ 53 + 1))) = .ok (.ofInt (-2 ^ 53 + 2)) ∧
      eval ctx (round (.float 9007199254740990.0)) = .ok (.ofInt (2 ^ 53 - 2)) := by
  intro ctx round
  have hinteger {a : Number} {n : Int} (ha : a.IsStored) (hvalue : a.value = n)
      (hn : n.natAbs ≤ 2 ^ 53 - 1) :
      (eval ctx (round a) = .ok (.ofInt n) ↔ n.natAbs ≤ 2 ^ 52 ∨ Even n) ∧
        (2 ^ 52 < n.natAbs → Odd n →
          eval ctx (round a) = .ok (.ofFloat (Float.ofInt (n + 1)))) := by
    have hnumber := Value.toNumber_number a
    refine eval_round_integer rfl rfl rfl (v := .json (.number a)) ?_ ?_ hn
    · rw [hnumber]
      exact ha.isFinite
    · rw [hnumber]
      exact Number.value_toFloat_eq hvalue (by omega)
  have hlarge : Number.ofFinite (Float.ofInt (2 ^ 53 - 1 + 1)) = .float 9007199254740992.0 := by
    decide +kernel
  have heven : (9007199254740990.0 : Float) = Float.ofInt (2 ^ 53 - 2) := by decide +kernel
  refine ⟨?_, ?_, ?_⟩
  · rw [(hinteger (by decide) rfl (by decide)).2 (by decide) (by decide), Value.ofFloat,
      if_pos (Binary.isFinite_ofInt (by decide)), hlarge]
  · rw [(hinteger (by decide) rfl (by decide)).2 (by decide) (by decide),
      Value.ofFloat_ofInt (by decide)]
    rfl
  · rw [heven]
    have hfinite : (Float.ofInt (2 ^ 53 - 2)).isFinite = true := Binary.isFinite_ofInt (by decide)
    have hvalue := Binary.value_ofInt (n := 2 ^ 53 - 2) (by decide)
    exact (hinteger (a := .float _) hfinite hvalue (by decide)).1.mpr (.inr (by decide))

/-- The least positive integer that is not rounded to itself. -/
theorem evalText_round_odd :
    evalText (.ofScope .empty) "Math.round(4503599627370497)" = .ok (.ofInt 4503599627370498) ∧
      evalText (.ofScope .empty) "Math.round(4503599627370497)" ≠
        .ok (.ofInt 4503599627370497) := by
  have hscan : Token.scan "Math.round(4503599627370497)" =
      .ok ⟨[⟨.ident "Math", 0⟩, ⟨.punct .dot, 4⟩, ⟨.ident "round", 5⟩, ⟨.punct .leftParen, 10⟩,
        ⟨.number 4503599627370497.0, 11⟩, ⟨.punct .rightParen, 27⟩], 28⟩ := by decide +kernel
  have hcallee : Derives .suffixed [.ident "Math", .punct .dot, .ident "round"]
      (.member (.ident "Math") "round") 0 :=
    .member (.unsuffixed (.name (by decide)))
  have hargument : Derives .conditional [.number 4503599627370497.0]
      (.literal (Json.ofFloat 4503599627370497.0)) 1 :=
    (Derives.unsuffixed .number).asWhole
  have hcall := Derives.call hcallee
    (List.forall_mem_singleton.mpr hargument : ∀ a ∈ [Item.mk _ _ _], _)
  have hparse : parse "Math.round(4503599627370497)" = .ok ((ident "Math").method "round"
      [.literal (Json.ofFloat 4503599627370497.0)]) := by
    rw [parse_of_scan hscan, ofTokens_eq_ok_iff]
    exact ⟨2, by decide, hcall.asWhole⟩
  have hround : Number.ofFinite (Builtin.round (Number.ofFinite 4503599627370497.0).toFloat) =
      .int 4503599627370498 := by
    decide +kernel
  have hnext : evalText (.ofScope .empty) "Math.round(4503599627370497)" =
      .ok (.ofInt 4503599627370498) := by
    rw [evalText, hparse, Value.ofInt, ← hround]
    rfl
  refine ⟨hnext, fun h => ?_⟩
  rw [hnext] at h
  cases h

end Expr

end RecordQuery
