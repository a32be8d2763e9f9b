import Mathlib
import RecordQuery.Proofs.Numbers.Stored
import RecordQuery.Query.Coercion

/-! # Coercion into lists

An object describes a list if it has the length of the list as a number, and items only under the
numerals of their positions. Such an object is made into the list, whatever its other fields and
their order are. Past the length that a list can have there is nothing to describe, and the object
is an item itself.
-/

namespace RecordQuery.Coercion

/-- An object has the length of a list, and no other items than those of the list. It may lack some
of them. -/
structure Describes (fields : Fields) (xs : List Json) : Prop where
  length : ∃ n : Number, n.IsStored ∧ n.value = xs.length ∧
    fields.get? "length" = some (.number n)
  item : ∀ (i : Nat) (hi : i < xs.length) (x : Json),
    fields.get? (toString i) = some x → x = xs[i]

/-! ## Lengths -/

variable {fields : Fields} {n : Number}

theorem value_maxListLength : Binary.value maxListLength = 2 ^ 32 - 1 := by
  have hmax : maxListLength = Float.ofInt (2 ^ 32 - 1) := by decide +kernel
  rw [hmax, Binary.value_ofInt (by decide)]
  norm_num

theorem toFloat_le_maxListLength_iff (hn : n.IsStored) :
    n.toFloat ≤ maxListLength ↔ n.value ≤ 2 ^ 32 - 1 := by
  rw [Number.toFloat_le_iff hn rfl (by rw [value_maxListLength]; norm_num), value_maxListLength]

/-- A length that a list can have is read exactly. -/
theorem integerPart_of_length (hn : n.IsStored) {k : Nat} (hvalue : n.value = k)
    (hk : k < 2 ^ 53) : Decimal.integerPart n.toFloat = k := by
  have hsmall : |n.value| < 2 ^ 53 := by
    rw [hvalue, Nat.abs_cast]
    exact_mod_cast hk
  refine (Binary.integerPart_of_value hn.isFinite ?_).2
  rw [Number.value_toFloat hn ((Number.abs_value_lt hn).mpr hsmall), hvalue, Int.cast_natCast]

/-! ## Items -/

theorem ofList_digitsOf (i : Nat) : String.ofList (Decimal.digitsOf i) = toString i :=
  String.toList_injective (String.toList_ofList.trans Nat.toList_repr.symm)

theorem indexedItems_of_describes {xs : List Json} (h : Describes fields xs) :
    indexedItems fields xs.length =
      xs.mapIdx fun i x => if (fields.get? (toString i)).isSome then x else .null := by
  refine List.ext_getElem (by simp [indexedItems]) fun i hi hi' => ?_
  have hlength : i < xs.length := by simpa using hi'
  simp only [indexedItems, List.getElem_map, List.getElem_range, List.getElem_mapIdx,
    ofList_digitsOf]
  cases hget : fields.get? (toString i) with
  | none => rfl
  | some x => exact h.item i hlength x hget

/-! ## Objects -/

theorem toList_of_length (hn : n.IsStored) (hlength : fields.get? "length" = some (.number n)) :
    toList (.json (.object fields)) =
      if n.value ≤ 2 ^ 32 - 1 then
        .array (indexedItems fields (Decimal.integerPart n.toFloat).toNat)
      else .array [.object fields] := by
  simp only [toList, hlength, toFloat_le_maxListLength_iff hn]

/-- An object that describes a list is made into it, with null for the items that it lacks. An
object with a length that no list has is the only item. -/
theorem toList_object (fields : Fields) :
    (∀ xs : List Json, xs.length ≤ 2 ^ 32 - 1 → Describes fields xs →
      toList (.json (.object fields)) =
        .array (xs.mapIdx fun i x => if (fields.get? (toString i)).isSome then x else .null)) ∧
    ∀ n : Number, n.IsStored → 2 ^ 32 - 1 < n.value → fields.get? "length" = some (.number n) →
      toList (.json (.object fields)) = .array [.object fields] := by
  constructor
  · intro xs hle h
    obtain ⟨n, hn, hvalue, hlength⟩ := h.length
    have hbound : n.value ≤ 2 ^ 32 - 1 := by
      rw [hvalue, le_sub_iff_add_le]
      exact_mod_cast Nat.add_le_of_le_sub (by decide) hle
    rw [toList_of_length hn hlength, if_pos hbound, integerPart_of_length hn hvalue (by omega),
      Int.toNat_natCast, indexedItems_of_describes h]
  · intro n hn hlarge hlength
    rw [toList_of_length hn hlength, if_neg (not_le.mpr hlarge)]

/-- The length is a float, the fields are in no order, and the last item is missing. The other
length is the least that is too large. -/
theorem toList_object_unordered :
    let fields : Fields := [("1", .bool true), ("x", .null), ("length", .number (.float 3.0)),
      ("02", .string "no item"), ("0", .string "first")]
    let xs : List Json := [.string "first", .bool true, .string "missing"]
    let large : Fields := [("0", .null), ("length", .number (.int 4294967296))]
    Describes fields xs ∧
      toList (.json (.object fields)) = .array [.string "first", .bool true, .null] ∧
      toList (.json (.object large)) = .array [.object large] := by
  intro fields xs large
  have hthree : Binary.value 3.0 = 3 := by
    have hint : (3.0 : Float) = Float.ofInt 3 := by decide +kernel
    rw [hint, Binary.value_ofInt (by decide)]
    rfl
  have h : Describes fields xs := by
    refine ⟨⟨.float 3.0, rfl, hthree, rfl⟩, fun i hi x hx => ?_⟩
    have hi : i < 3 := hi
    interval_cases i
    · exact (Option.some.inj hx).symm
    · exact (Option.some.inj hx).symm
    · cases hx
  have hlist := (toList_object fields).1 xs (by decide) h
  refine ⟨h, ?_, (toList_object large).2 (.int 4294967296) (by decide) ?_ rfl⟩
  · rw [hlist]
    simp only [xs, List.mapIdx_cons, List.mapIdx_nil]
    rfl
  · rw [Number.value]
    norm_num

end RecordQuery.Coercion
