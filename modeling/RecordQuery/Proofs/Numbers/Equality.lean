import RecordQuery.Json.Equality
import RecordQuery.Proofs.Numbers.Stored
import RecordQuery.Proofs.Records

/-! # Equality by value

Two integers are equal as integers and two floats as the numbers that they denote, but an integer
equals a float if it is rounded to it. So an equality may lead from one integer over a float to
another integer, and it is transitive where no float stands for two integers.
-/

namespace RecordQuery

namespace Number

variable {a b c : Number}

/-- A number that no two integers are rounded to. -/
def Separates (x : Number) : Prop :=
  ∀ a b : Number, a.IsStored → b.IsStored → a.RoundsTo x → b.RoundsTo x → a = b

@[simp] theorem sameValue_int (m n : Int) : (int m).sameValue (int n) = true ↔ m = n :=
  beq_iff_eq

theorem sameValue_intFloat {n : Int} {x : Float} (hn : (int n).IsStored)
    (hx : (float x).IsStored) :
    (int n).sameValue (float x) = true ↔ RoundsTo (int n) (float x) := by
  rw [roundsTo_iff hn hx]
  exact Binary.beq_iff hn.isFinite hx

theorem sameValue_floatInt {n : Int} {x : Float} (hn : (int n).IsStored)
    (hx : (float x).IsStored) :
    (float x).sameValue (int n) = true ↔ RoundsTo (int n) (float x) := by
  rw [roundsTo_iff hn hx]
  exact (Binary.beq_iff hx hn.isFinite).trans eq_comm

theorem sameValue_float {x y : Float} (hx : (float x).IsStored) (hy : (float y).IsStored) :
    (float x).sameValue (float y) = true ↔ (float x).value = (float y).value :=
  Binary.beq_iff hx hy

/-- A float that denotes the integer itself is one that the integer is rounded to. -/
theorem roundsTo_of_value_eq {n : Int} {x : Float} (hx : (float x).IsStored)
    (h : (int n).value = (float x).value) : RoundsTo (int n) (float x) := by
  have hrounded := hx.isRounded
  rw [← h] at hrounded
  exact .intro hrounded

/-- Equality by value is equality of the denoted numbers, up to the rounding of an integer. -/
theorem sameValue_iff (ha : a.IsStored) (hb : b.IsStored) :
    a.sameValue b = true ↔ a.value = b.value ∨ a.RoundsTo b ∨ b.RoundsTo a := by
  cases a with
  | int m =>
      cases b with
      | int n =>
          rw [sameValue_int]
          constructor
          · rintro rfl
            exact .inl rfl
          · rintro (heq | hrounds | hrounds)
            · exact Int.cast_injective heq
            · cases hrounds
            · cases hrounds
      | float y =>
          rw [sameValue_intFloat ha hb]
          constructor
          · exact fun h => .inr (.inl h)
          · rintro (heq | hrounds | hrounds)
            · exact roundsTo_of_value_eq hb heq
            · exact hrounds
            · cases hrounds
  | float x =>
      cases b with
      | int n =>
          rw [sameValue_floatInt hb ha]
          constructor
          · exact fun h => .inr (.inr h)
          · rintro (heq | hrounds | hrounds)
            · exact roundsTo_of_value_eq ha heq.symm
            · cases hrounds
            · exact hrounds
      | float y =>
          rw [sameValue_float ha hb]
          constructor
          · exact .inl
          · rintro (heq | hrounds | hrounds)
            · exact heq
            · cases hrounds
            · cases hrounds

/-- Below `2 ^ 53` no integer is rounded to a float other than itself. -/
theorem RoundsTo.value_eq (ha : a.IsStored) (hb : b.IsStored) (h : a.RoundsTo b)
    (hlt : |b.value| < 2 ^ 53) : a.value = b.value := by
  cases a with
  | float x => cases h
  | int n =>
      cases b with
      | int k => cases h
      | float x =>
          have heq := (roundsTo_iff ha hb).mp h
          have hsmall : |Binary.value (Float.ofInt n)| < 2 ^ 53 := by
            rw [heq]
            exact hlt
          exact (Binary.value_ofInt_of_lt ha.natAbs_lt hsmall).symm.trans heq

/-- Only from `2 ^ 53` on is an integer rounded to another number. -/
theorem RoundsTo.le_abs (ha : a.IsStored) (hb : b.IsStored) (h : a.RoundsTo b)
    (hne : a.value ≠ b.value) : 2 ^ 53 ≤ |a.value| ∧ 2 ^ 53 ≤ |b.value| := by
  have hlarge : 2 ^ 53 ≤ |b.value| := not_lt.mp fun hlt => hne (h.value_eq ha hb hlt)
  refine ⟨not_lt.mp fun hlt => ?_, hlarge⟩
  cases h with
  | intro hrounded =>
      have heq := (roundsTo_iff ha hb).mp (.intro hrounded)
      rw [← abs_value_lt ha, toFloat_int, heq] at hlt
      exact hlarge.not_gt hlt

theorem separates_of_lt (hb : b.IsStored) (hlt : |b.value| < 2 ^ 53) : b.Separates := by
  intro a c ha hc hab hcb
  have heq := (hab.value_eq ha hb hlt).trans (hcb.value_eq hc hb hlt).symm
  cases hab
  cases hcb
  rw [Int.cast_injective heq]

/-- Equal numbers have equal floats. -/
theorem value_toFloat_of_sameValue (ha : a.IsStored) (hb : b.IsStored)
    (h : a.sameValue b = true) : Binary.value a.toFloat = Binary.value b.toFloat := by
  cases a with
  | int m =>
      cases b with
      | int n => rw [(sameValue_int m n).mp h]
      | float y => exact (Binary.beq_iff ha.isFinite hb.isFinite).mp h
  | float x => exact (Binary.beq_iff ha.isFinite hb.isFinite).mp h

/-- Numbers with equal floats are equal, unless they are two integers. -/
theorem sameValue_or_int (ha : a.IsStored) (hb : b.IsStored)
    (h : Binary.value a.toFloat = Binary.value b.toFloat) :
    a.sameValue b = true ∨ ∃ m n, a = int m ∧ b = int n ∧ m ≠ n := by
  cases a with
  | int m =>
      cases b with
      | int n =>
          by_cases heq : m = n
          · exact .inl ((sameValue_int m n).mpr heq)
          · exact .inr ⟨m, n, rfl, rfl, heq⟩
      | float y => exact .inl ((Binary.beq_iff ha.isFinite hb.isFinite).mpr h)
  | float x => exact .inl ((Binary.beq_iff ha.isFinite hb.isFinite).mpr h)

/-- Equality is transitive over a number that no two integers are rounded to. -/
theorem sameValue_trans (ha : a.IsStored) (hb : b.IsStored) (hc : c.IsStored)
    (hseparates : b.Separates) (hab : a.sameValue b = true) (hbc : b.sameValue c = true) :
    a.sameValue c = true := by
  have heq := (value_toFloat_of_sameValue ha hb hab).trans (value_toFloat_of_sameValue hb hc hbc)
  rcases sameValue_or_int ha hc heq with hsame | ⟨m, k, rfl, rfl, hne⟩
  · exact hsame
  · cases b with
    | int n =>
        rw [sameValue_int] at hab hbc
        exact absurd (hab.trans hbc) hne
    | float y =>
        have hm := (sameValue_intFloat ha hb).mp hab
        have hk := (sameValue_floatInt hc hb).mp hbc
        exact absurd (int.inj (hseparates _ _ ha hc hm hk)) hne

/-- The numbers over which equality is transitive are those that no two integers are rounded to. -/
theorem separates_iff (hb : b.IsStored) :
    b.Separates ↔ ∀ a c : Number, a.IsStored → c.IsStored → a.sameValue b = true →
      b.sameValue c = true → a.sameValue c = true := by
  constructor
  · exact fun h a c ha hc => sameValue_trans ha hb hc h
  · intro htrans a c ha hc hab hcb
    have hsame := htrans a c ha hc ((sameValue_iff ha hb).mpr (.inr (.inl hab)))
      ((sameValue_iff hb hc).mpr (.inr (.inr hcb)))
    cases hab
    cases hcb
    rw [(sameValue_int _ _).mp hsame]

end Number

namespace Json

/-- A property holds of every number in a value. -/
inductive EveryNumber (p : Number → Prop) : Json → Prop where
  | null : EveryNumber p .null
  | bool (b : Bool) : EveryNumber p (.bool b)
  | number {n : Number} (h : p n) : EveryNumber p (.number n)
  | string (s : String) : EveryNumber p (.string s)
  | array {items : List Json} (h : ∀ item ∈ items, EveryNumber p item) :
      EveryNumber p (.array items)
  | object {fields : Fields} (h : ∀ field ∈ fields, EveryNumber p field.2) :
      EveryNumber p (.object fields)

theorem deepEqItems_iff {xs ys : List Json} :
    deepEqItems xs ys = true ↔ List.Forall₂ (fun x y => x.deepEq y = true) xs ys := by
  induction xs generalizing ys with
  | nil => cases ys <;> simp [deepEqItems]
  | cons x xs ih => cases ys <;> simp [deepEqItems, ih]

theorem deepEqFields_iff {xs ys : Fields} :
    deepEqFields xs ys = true ↔
      ∀ field ∈ xs, ∃ y, ys.get? field.1 = some y ∧ field.2.deepEq y = true := by
  induction xs with
  | nil => simp [deepEqFields]
  | cons field xs ih =>
      obtain ⟨key, x⟩ := field
      rw [deepEqFields, Bool.and_eq_true, ih, List.forall_mem_cons]
      cases ys.get? key <;> simp

section Transitivity

variable {p : Number → Prop}

theorem deepEqItems_trans {us vs ws : List Json}
    (h : ∀ v ∈ vs, ∀ u w, EveryNumber p u → EveryNumber p w → u.deepEq v = true →
      v.deepEq w = true → u.deepEq w = true)
    (hus : ∀ u ∈ us, EveryNumber p u) (hws : ∀ w ∈ ws, EveryNumber p w)
    (huv : deepEqItems us vs = true) (hvw : deepEqItems vs ws = true) :
    deepEqItems us ws = true := by
  rw [deepEqItems_iff] at huv hvw ⊢
  induction huv generalizing ws with
  | nil => exact hvw
  | cons hu _ ih =>
      cases hvw with
      | cons hw hrest =>
          rw [List.forall_mem_cons] at h hus hws
          exact .cons (h.1 _ _ hus.1 hws.1 hu hw) (ih h.2 hus.2 hws.2 hrest)

theorem deepEqFields_trans {us vs ws : Fields}
    (h : ∀ field ∈ vs, ∀ u w, EveryNumber p u → EveryNumber p w → u.deepEq field.2 = true →
      field.2.deepEq w = true → u.deepEq w = true)
    (hus : ∀ field ∈ us, EveryNumber p field.2) (hws : ∀ field ∈ ws, EveryNumber p field.2)
    (huv : deepEqFields us vs = true) (hvw : deepEqFields vs ws = true) :
    deepEqFields us ws = true := by
  rw [deepEqFields_iff] at huv hvw ⊢
  intro field hfield
  obtain ⟨v, hget, hv⟩ := huv field hfield
  have hmem := Fields.mem_of_get? hget
  obtain ⟨w, hget', hw⟩ := hvw _ hmem
  have hmem' := Fields.mem_of_get? hget'
  exact ⟨w, hget', h _ hmem _ _ (hus field hfield) (hws _ hmem') hv hw⟩

/-- Equality by value is transitive over a value if it is so over the numbers in it. -/
theorem deepEq_trans {q : Number → Prop}
    (htrans : ∀ a b c, p a → q b → p c → a.sameValue b = true → b.sameValue c = true →
      a.sameValue c = true)
    {u v w : Json} (hv : v.EveryNumber q) (hu : u.EveryNumber p) (hw : w.EveryNumber p)
    (huv : u.deepEq v = true) (hvw : v.deepEq w = true) : u.deepEq w = true := by
  induction hv generalizing u w with
  | null =>
      cases u <;> simp only [deepEq, Bool.false_eq_true] at huv
      exact hvw
  | bool b =>
      cases u <;> simp only [deepEq, Bool.false_eq_true] at huv
      obtain rfl := eq_of_beq huv
      exact hvw
  | @number b hb =>
      cases hu <;> simp only [deepEq, Bool.false_eq_true] at huv
      cases hw <;> simp only [deepEq, Bool.false_eq_true] at hvw
      next a ha c hc => exact htrans a b c ha hb hc huv hvw
  | string s =>
      cases u <;> simp only [deepEq, Bool.false_eq_true] at huv
      obtain rfl := eq_of_beq huv
      exact hvw
  | @array vs h ih =>
      cases hu <;> simp only [deepEq, Bool.false_eq_true] at huv
      cases hw <;> simp only [deepEq, Bool.false_eq_true] at hvw
      next us hus ws hws =>
        exact deepEqItems_trans (fun v hv u w hu hw => ih v hv hu hw) hus hws huv hvw
  | @object vs h ih =>
      cases hu <;> simp only [deepEq, Bool.false_eq_true] at huv
      cases hw <;> simp only [deepEq, Bool.false_eq_true] at hvw
      next us hus ws hws =>
        rw [Bool.and_eq_true, beq_iff_eq] at huv hvw
        rw [deepEq, Bool.and_eq_true, beq_iff_eq]
        exact ⟨huv.1.trans hvw.1,
          deepEqFields_trans (fun v hv u w hu hw => ih v hv hu hw) hus hws huv.2 hvw.2⟩

end Transitivity

end Json

open Number in
/-- Equality of numbers is equality of what they denote, unless an integer from `2 ^ 53` on is
rounded to a float. It is transitive over a number that no two integers are rounded to, such as all
below `2 ^ 53`, and over no other; so is equality of JSON values over a value of such numbers. -/
theorem equality_by_value {a b : Number} (ha : a.IsStored) (hb : b.IsStored) :
    (a.sameValue b = true ↔ a.value = b.value ∨ a.RoundsTo b ∨ b.RoundsTo a) ∧
    (a.RoundsTo b → a.value ≠ b.value → 2 ^ 53 ≤ |a.value| ∧ 2 ^ 53 ≤ |b.value|) ∧
    (b.Separates ↔ ∀ a c : Number, a.IsStored → c.IsStored → a.sameValue b = true →
      b.sameValue c = true → a.sameValue c = true) ∧
    (|b.value| < 2 ^ 53 → b.Separates) ∧
    ∀ u v w : Json, u.EveryNumber IsStored → v.EveryNumber (fun b => b.IsStored ∧ b.Separates) →
      w.EveryNumber IsStored → u.deepEq v = true → v.deepEq w = true → u.deepEq w = true := by
  refine ⟨sameValue_iff ha hb, fun h hne => h.le_abs ha hb hne, separates_iff hb,
    separates_of_lt hb, ?_⟩
  intro u v w hu hv hw huv hvw
  exact Json.deepEq_trans (fun a b c ha hb hc => sameValue_trans ha hb.1 hc hb.2) hv hu hw huv hvw

open Number in
/-- The largest exact integer, stored as an integer, as a float and as an integer again. -/
theorem equality_by_value_largest :
    let u : Json := .object [("id", .array [.number (int 9007199254740991)]), ("to", .null)]
    let v : Json := .object [("to", .null), ("id", .array [.number (float 9007199254740991.0)])]
    let w : Json := .object [("to", .null), ("id", .array [.number (int 9007199254740991)])]
    u.EveryNumber IsStored ∧ v.EveryNumber (fun b => b.IsStored ∧ b.Separates) ∧
      w.EveryNumber IsStored ∧ u.deepEq v = true ∧ v.deepEq w = true ∧ u.deepEq w = true := by
  intro u v w
  have hfloat : (9007199254740991.0 : Float) = Float.ofInt 9007199254740991 := by decide +kernel
  have hint : (int 9007199254740991).IsStored := by decide
  have hstored : (float 9007199254740991.0).IsStored := by decide +kernel
  have hseparates : (float 9007199254740991.0).Separates := by
    apply (equality_by_value hint hstored).2.2.2.1
    rw [value, hfloat, Binary.value_ofInt (by decide)]
    norm_num
  have hu : u.EveryNumber IsStored :=
    .object (List.forall_mem_cons.mpr ⟨.array (List.forall_mem_singleton.mpr (.number hint)),
      List.forall_mem_singleton.mpr .null⟩)
  have hv : v.EveryNumber (fun b => b.IsStored ∧ b.Separates) :=
    .object (List.forall_mem_cons.mpr ⟨.null, List.forall_mem_singleton.mpr
      (.array (List.forall_mem_singleton.mpr (.number ⟨hstored, hseparates⟩)))⟩)
  have hw : w.EveryNumber IsStored :=
    .object (List.forall_mem_cons.mpr ⟨.null, List.forall_mem_singleton.mpr
      (.array (List.forall_mem_singleton.mpr (.number hint)))⟩)
  have huv : u.deepEq v = true := by decide +kernel
  have hvw : v.deepEq w = true := by decide +kernel
  exact ⟨hu, hv, hw, huv, hvw, (equality_by_value hint hstored).2.2.2.2 u v w hu hv hw huv hvw⟩

open Number in
/-- An integer equals a float that denotes another number, and over that float two integers. -/
theorem equality_not_by_value :
    (int 9007199254740993).IsStored ∧ (float 9007199254740992.0).IsStored ∧
      (int 9007199254740993).sameValue (float 9007199254740992.0) = true ∧
      (int 9007199254740993).value ≠ (float 9007199254740992.0).value ∧
      Json.deepEq (.number (int 9007199254740993)) (.number (float 9007199254740992.0)) = true ∧
      Json.deepEq (.number (float 9007199254740992.0)) (.number (int 9007199254740992)) = true ∧
      Json.deepEq (.number (int 9007199254740993)) (.number (int 9007199254740992)) = false := by
  have hfloat : (9007199254740992.0 : Float) = Float.ofInt 9007199254740992 := by decide +kernel
  refine ⟨by decide, by decide +kernel, by decide +kernel, ?_, by decide +kernel,
    by decide +kernel, by decide +kernel⟩
  rw [value, value, hfloat, Binary.value_ofInt (by decide)]
  norm_num

end RecordQuery
