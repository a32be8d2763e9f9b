import Mathlib
import RecordQuery.Expr.Eval
import RecordQuery.Proofs.Floats.Literals

/-! # Elements

A number in brackets reads the element at that position of an array or a text. The position goes
through its decimal numeral, which is read back as the same position: the numerals of the positions
are the keys of the elements, and every other key but `length` reads as undefined.
-/

namespace RecordQuery

/-! ## Numerals of positions -/

namespace Decimal

variable {c : Char} {cs : List Char} {n : Nat}

theorem digitsOf_digit (hc : c.isDigit = true) : digitsOf (c.toNat - '0'.toNat) = [c] := by
  obtain ⟨hlow, hhigh⟩ := toNat_of_isDigit hc
  have hlt : c.toNat - 48 < 10 := by omega
  change Nat.toDigits 10 (c.toNat - 48) = [c]
  rw [Nat.toDigits_of_lt_base hlt, List.cons.injEq, ← Char.toNat_inj,
    Nat.toNat_digitChar_of_lt_ten hlt]
  exact ⟨by omega, rfl⟩

/-- More digits behind a number are its next digits. -/
theorem digitsOf_foldl (hn : 0 < n) (hcs : ∀ c ∈ cs, c.isDigit = true) :
    digitsOf (cs.foldl (fun n c => 10 * n + (c.toNat - '0'.toNat)) n) = digitsOf n ++ cs := by
  induction cs generalizing n with
  | nil => rw [List.foldl_nil, List.append_nil]
  | cons c cs ih =>
      obtain ⟨hc, hcs⟩ := List.forall_mem_cons.mp hcs
      obtain ⟨hlow, hhigh⟩ := toNat_of_isDigit hc
      have hdigit : c.toNat - '0'.toNat < 10 := by
        change c.toNat - 48 < 10
        omega
      have hnext : digitsOf n ++ [c] = digitsOf (10 * n + (c.toNat - '0'.toNat)) := by
        rw [← digitsOf_digit hc]
        exact Nat.toDigits_append_toDigits (by decide) hn hdigit
      rw [List.foldl_cons, ih (by omega) hcs, ← hnext, List.append_assoc, List.singleton_append]

/-- Digits without a leading zero are the numeral of their value. -/
theorem digitsOf_digitsValue (hfirst : c ≠ '0') (hcs : ∀ d ∈ c :: cs, d.isDigit = true) :
    digitsOf (digitsValue (c :: cs)) = c :: cs := by
  obtain ⟨hc, hcs⟩ := List.forall_mem_cons.mp hcs
  obtain ⟨hlow, -⟩ := toNat_of_isDigit hc
  have hpos : 0 < c.toNat - '0'.toNat := by
    have hne : c.toNat ≠ 48 := fun h => hfirst (Char.toNat_inj.mp h)
    change 0 < c.toNat - 48
    omega
  rw [digitsValue, List.foldl_cons, Nat.mul_zero, Nat.zero_add, digitsOf_foldl hpos hcs,
    digitsOf_digit hc, List.singleton_append]

/-- Only the numeral of zero starts with a zero. -/
theorem head?_digitsOf_ne (hn : n ≠ 0) : (digitsOf n).head? ≠ some '0' := by
  induction n using Nat.strongRecOn with
  | ind n ih =>
      rw [digitsOf, Nat.toDigits_eq_if (by decide)]
      split
      next hlt =>
        intro h
        have htoNat := congrArg Char.toNat (Option.some.inj h)
        rw [Nat.toNat_digitChar_of_lt_ten hlt] at htoNat
        change 48 + n = 48 at htoNat
        omega
      next hge =>
        rw [List.head?_append_of_ne_nil _ Nat.toDigits_ne_nil]
        exact ih (n / 10) (by omega) (by omega)

end Decimal

open Decimal

theorem indexOfKey?_digitsOf (n : Nat) : indexOfKey? (digitsOf n) = some n := by
  obtain ⟨hne, hdigits⟩ := isDigits_digitsOf n
  unfold indexOfKey?
  split
  next heq => exact absurd heq hne
  next c cs heq =>
    split
    next hzero =>
      have hn : n = 0 := by
        by_contra hn
        exact head?_digitsOf_ne hn (by rw [heq, List.head?_cons, hzero.1])
      subst hn
      cases heq
      exact absurd rfl hzero.2
    next => rw [if_pos (List.all_eq_true.mpr hdigits), digitsValue_digitsOf]

theorem eq_digitsOf_of_indexOfKey? {key : List Char} {n : Nat} (h : indexOfKey? key = some n) :
    key = digitsOf n := by
  unfold indexOfKey? at h
  split at h
  next => cases h
  next c cs =>
    split at h
    next => cases h
    next hzero =>
      split at h
      next hdigits =>
        rw [← Option.some.inj h]
        by_cases hc : c = '0'
        · obtain rfl : cs = [] := by
            by_contra hne
            exact hzero ⟨hc, hne⟩
          subst hc
          rfl
        · exact (digitsOf_digitsValue hc (List.all_eq_true.mp hdigits)).symm
      next => cases h

/-- The keys that name positions are their numerals. -/
theorem indexOfKey?_eq_some_iff {key : List Char} {n : Nat} :
    indexOfKey? key = some n ↔ key = digitsOf n :=
  ⟨eq_digitsOf_of_indexOfKey?, fun h => h ▸ indexOfKey?_digitsOf n⟩

namespace Value

/-- The elements of an array or a text: its items, or its characters as texts. -/
def elements? : Value → Option (List Value)
  | json (.array items) => some (items.map json)
  | json (.string s) => some (s.toList.map fun c => ofChars [c])
  | _ => none

variable {v : Value} {elements : List Value} {key : String}

theorem property_length (hv : v.elements? = some elements) :
    v.property "length" = ofInt elements.length := by
  unfold elements? at hv
  split at hv
  next items =>
    obtain rfl := Option.some.inj hv
    rw [List.length_map]
    rfl
  next s =>
    obtain rfl := Option.some.inj hv
    rw [List.length_map]
    rfl
  next => cases hv

/-- A key reads the element whose position it names. -/
theorem property_eq (hv : v.elements? = some elements) (hkey : key ≠ "length") :
    v.property key = ((indexOfKey? key.toList).bind (elements[·]?)).getD undefined := by
  unfold elements? at hv
  split at hv
  next items =>
    obtain rfl := Option.some.inj hv
    simp only [property, if_neg hkey, List.getElem?_map]
    cases indexOfKey? key.toList with
    | none => rfl
    | some i =>
        rw [Option.bind_some, Option.bind_some]
        cases items[i]? <;> rfl
  next s =>
    obtain rfl := Option.some.inj hv
    simp only [property, if_neg hkey, List.getElem?_map]
    cases indexOfKey? key.toList with
    | none => rfl
    | some i =>
        rw [Option.bind_some, Option.bind_some]
        cases s.toList[i]? <;> rfl
  next => cases hv

/-- Keys that are no numerals of positions read nothing. -/
theorem property_eq_undefined (hv : v.elements? = some elements) (hkey : key ≠ "length")
    (hother : ∀ i < elements.length, key.toList ≠ digitsOf i) : v.property key = undefined := by
  rw [property_eq hv hkey]
  cases h : indexOfKey? key.toList with
  | none => rfl
  | some i =>
      have hlength : elements.length ≤ i := by
        by_contra hlt
        exact hother i (Nat.lt_of_not_le hlt) (indexOfKey?_eq_some_iff.mp h)
      change elements[i]?.getD undefined = undefined
      rw [List.getElem?_eq_none hlength, Option.getD_none]

/-- An integer as a key is its numeral, which is not `length`. -/
theorem toText_ofInt_ne (n : Int) : (ofInt n).toText ≠ "length" := by
  intro h
  have hlist : integerText n = "length".toList := String.ofList_injective h
  unfold integerText at hlist
  split at hlist
  next => cases hlist
  next =>
    have hdigit := (isDigits_digitsOf n.natAbs).2 'l' (by rw [hlist]; decide)
    exact absurd hdigit (by decide)

end Value

namespace Expr

variable {ctx : Context} {x e : Expr} {v key : Value} {elements : List Value}

/-- How the elements of a value are read. An integer in brackets reads the element at that position,
if there is one. The positions end before `length`, and all texts but this and their numerals read
as undefined. -/
structure ReadsElements (ctx : Context) (x : Expr) (v : Value) (elements : List Value) : Prop where
  length : v.property "length" = .ofInt elements.length
  element : ∀ (e : Expr) (i : Nat) (hi : i < elements.length), eval ctx e = .ok (.ofInt i) →
    eval ctx (.index x e) = .ok elements[i]
  outside : ∀ (e : Expr) (n : Int), n < 0 ∨ elements.length ≤ n → eval ctx e = .ok (.ofInt n) →
    eval ctx (.index x e) = .ok .undefined
  otherKey : ∀ key : String, key ≠ "length" → (∀ i < elements.length, key ≠ toString i) →
    v.property key = .undefined

theorem eval_index (hx : eval ctx x = .ok v) (hv : v.elements? = some elements)
    (he : eval ctx e = .ok key) : eval ctx (.index x e) = .ok (v.property key.toText) := by
  have hread : ctx.readMember v key.toText = .ok (v.property key.toText) := by
    unfold Value.elements? at hv
    split at hv
    next => rfl
    next => rfl
    next => cases hv
  rw [eval, hx, he]
  exact hread

/-- Arrays and texts are read by the integers that are their positions and by no other key. -/
theorem readsElements (hx : eval ctx x = .ok v) (hv : v.elements? = some elements) :
    ReadsElements ctx x v elements := by
  have htext (n : Int) : (Value.ofInt n).toText.toList = integerText n := String.toList_ofList
  refine ⟨Value.property_length hv, ?_, ?_, ?_⟩
  · intro e i hi he
    have hindex : indexOfKey? (Value.ofInt i).toText.toList = some i :=
      indexOfKey?_eq_some_iff.mpr (htext i)
    rw [eval_index hx hv he, Value.property_eq hv (Value.toText_ofInt_ne i), hindex,
      Option.bind_some, List.getElem?_eq_getElem hi, Option.getD_some]
  · intro e n hn he
    rw [eval_index hx hv he]
    refine congrArg Except.ok (Value.property_eq_undefined hv (Value.toText_ofInt_ne n) ?_)
    intro i hi h
    -- The numeral of a negative number has a sign, and numerals without a sign tell the number.
    rw [htext, integerText] at h
    split at h
    next hneg =>
      have hdigit := (isDigits_digitsOf i).2 '-' (by rw [← h]; exact List.mem_cons_self)
      exact absurd hdigit (by decide)
    next hpos =>
      have hvalue := congrArg digitsValue h
      rw [digitsValue_digitsOf, digitsValue_digitsOf] at hvalue
      omega
  · intro key hkey hother
    refine Value.property_eq_undefined hv hkey fun i hi h => hother i hi ?_
    exact String.toList_injective (h.trans Nat.toList_repr.symm)

/-- The largest integers are read as keys too, and other spellings of a position are not the
position. -/
theorem readsElements_accented :
    let ctx : Context := ⟨.empty, .standard, true⟩
    let x : Expr := .literal (.string "a→é")
    ReadsElements ctx x (.ofString "a→é") [.ofString "a", .ofString "→", .ofString "é"] ∧
      eval ctx (.index x (.literal (.number (.int 2)))) = .ok (.ofString "é") ∧
      eval ctx (.index x (.literal (.number (.int 18446744073709551615)))) = .ok .undefined ∧
      ∀ key ∈ ["01", "+1", "1.0", "-0", "", "18446744073709551617"],
        (Value.ofString "a→é").property key = .undefined := by
  intro ctx x
  have hreads : ReadsElements ctx x (.ofString "a→é") _ := readsElements rfl rfl
  refine ⟨hreads, hreads.element _ 2 (by decide) rfl, hreads.outside _ _ (.inr (by decide)) rfl, ?_⟩
  intro key hkey
  have hother : ∀ key ∈ ["01", "+1", "1.0", "-0", "", "18446744073709551617"],
      key ≠ "length" ∧ ∀ i < 3, key ≠ toString i := by decide +kernel
  exact hreads.otherKey key (hother key hkey).1 (hother key hkey).2

end Expr

end RecordQuery
