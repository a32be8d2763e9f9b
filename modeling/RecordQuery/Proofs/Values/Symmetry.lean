import RecordQuery.Proofs.Floats.Differences
import RecordQuery.Proofs.Numbers.Equality
import RecordQuery.Proofs.Records
import RecordQuery.Value.Equality

/-! # Equality in both directions

Equality of JSON values looks up the fields of one object in the other one only. With each key once
and as many fields, that finds the fields of the other object too, so the equality is symmetric. So
are strict and loose equality of values, and what is equal without conversions is equal with them.
Loose equality converts one operand at a time, in a fixed order; the order does not show.
-/

namespace RecordQuery

theorem Number.sameValue_comm (a b : Number) : a.sameValue b = b.sameValue a := by
  cases a with
  | int m =>
      cases b with
      | int n => exact BEq.comm
      | float y => exact Binary.beq_comm _ _
  | float x => cases b <;> exact Binary.beq_comm _ _

/-! ## JSON values -/

namespace Fields

variable {fields other : Fields}

/-- Keys that are all found in an object with as many fields are all of its keys. -/
theorem mem_keys_of_length_eq (hkeys : fields.keys.Nodup) (hlength : fields.length = other.length)
    (hsubset : fields.keys ⊆ other.keys) {key : String} (h : key ∈ other.keys) :
    key ∈ fields.keys := by
  have hperm : fields.keys.Perm other.keys := by
    apply (List.subperm_of_subset hkeys hsubset).perm_of_length_le
    simp [keys, hlength]
  exact hperm.mem_iff.mpr h

end Fields

namespace Json

/-- Every object in a value holds each key once. -/
inductive UniqueKeys : Json → Prop where
  | null : UniqueKeys .null
  | bool (b : Bool) : UniqueKeys (.bool b)
  | number (n : Number) : UniqueKeys (.number n)
  | string (s : String) : UniqueKeys (.string s)
  | array {items : List Json} (h : ∀ item ∈ items, UniqueKeys item) : UniqueKeys (.array items)
  | object {fields : Fields} (keys : fields.keys.Nodup)
      (h : ∀ field ∈ fields, UniqueKeys field.2) : UniqueKeys (.object fields)

variable {x y : Json}

theorem deepEqItems_symm {xs ys : List Json}
    (h : ∀ x ∈ xs, ∀ y, UniqueKeys y → x.deepEq y = true → y.deepEq x = true)
    (hys : ∀ y ∈ ys, UniqueKeys y) (heq : deepEqItems xs ys = true) :
    deepEqItems ys xs = true := by
  rw [deepEqItems_iff] at heq ⊢
  induction heq with
  | nil => exact .nil
  | cons hxy _ ih =>
      obtain ⟨hx, hxs⟩ := List.forall_mem_cons.mp h
      obtain ⟨hy, hys⟩ := List.forall_mem_cons.mp hys
      exact .cons (hx _ hy hxy) (ih hxs hys)

/-- The fields of one object are all found in the other one, so its fields are found in turn. -/
theorem deepEqFields_symm {xs ys : Fields}
    (h : ∀ field ∈ xs, ∀ y, UniqueKeys y → field.2.deepEq y = true → y.deepEq field.2 = true)
    (hxs : xs.keys.Nodup) (hys : ys.keys.Nodup) (hunique : ∀ field ∈ ys, UniqueKeys field.2)
    (hlength : xs.length = ys.length) (heq : deepEqFields xs ys = true) :
    deepEqFields ys xs = true := by
  rw [deepEqFields_iff] at heq ⊢
  have hsubset : xs.keys ⊆ ys.keys := by
    intro key hkey
    obtain ⟨field, hfield, rfl⟩ := List.mem_map.mp hkey
    obtain ⟨v, hget, -⟩ := heq field hfield
    exact List.mem_map.mpr ⟨_, Fields.mem_of_get? hget, rfl⟩
  rintro ⟨key, v⟩ hv
  have hkey := Fields.mem_keys_of_length_eq hxs hlength hsubset (List.mem_map_of_mem hv)
  obtain ⟨⟨key, u⟩, hu, rfl⟩ := List.mem_map.mp hkey
  obtain ⟨w, hw, huw⟩ := heq _ hu
  rw [Fields.get?_of_mem hys hv] at hw
  obtain rfl := Option.some.inj hw
  exact ⟨u, Fields.get?_of_mem hxs hu, h _ hu _ (hunique _ hv) huw⟩

theorem deepEq_symm (hx : x.UniqueKeys) (hy : y.UniqueKeys) (h : x.deepEq y = true) :
    y.deepEq x = true := by
  induction hx generalizing y with
  | null =>
      cases hy <;> simp only [deepEq, Bool.false_eq_true] at h
      rfl
  | bool b =>
      cases hy <;> simp only [deepEq, Bool.false_eq_true] at h
      next c => rw [deepEq, BEq.comm, h]
  | number n =>
      cases hy <;> simp only [deepEq, Bool.false_eq_true] at h
      next m => rw [deepEq, Number.sameValue_comm, h]
  | string s =>
      cases hy <;> simp only [deepEq, Bool.false_eq_true] at h
      next t => rw [deepEq, BEq.comm, h]
  | array hxs ih =>
      cases hy <;> simp only [deepEq, Bool.false_eq_true] at h
      next ys hys => exact deepEqItems_symm ih hys h
  | object hkeys hxs ih =>
      cases hy <;> simp only [deepEq, Bool.false_eq_true] at h
      next ys hkeys' hys =>
        rw [Bool.and_eq_true, beq_iff_eq] at h
        rw [deepEq, Bool.and_eq_true, beq_iff_eq]
        exact ⟨h.1.symm, deepEqFields_symm ih hkeys hkeys' hys h.1 h.2⟩

/-- Equality by value is symmetric for values whose objects hold each key once. -/
theorem deepEq_comm (hx : x.UniqueKeys) (hy : y.UniqueKeys) : x.deepEq y = y.deepEq x :=
  Bool.eq_iff_iff.mpr ⟨deepEq_symm hx hy, deepEq_symm hy hx⟩

end Json

/-! ## Values -/

namespace Value

/-- The objects in a value hold each key once. -/
def UniqueKeys : Value → Prop
  | json j => j.UniqueKeys
  | _ => True

variable {a b : Value}

/-! ### Strict equality -/

theorem strictEq_comm (ha : a.UniqueKeys) (hb : b.UniqueKeys) : a.strictEq b = b.strictEq a := by
  cases a with
  | undefined => cases b <;> rfl
  | json x =>
      cases b with
      | json y => exact Json.deepEq_comm ha hb
      | nonFinite y =>
          simp only [strictEq]
          split
          · exact Binary.beq_comm _ _
          · rfl
      | _ => rfl
  | nonFinite x =>
      cases b with
      | json y =>
          simp only [strictEq]
          split
          · exact Binary.beq_comm _ _
          · rfl
      | nonFinite y => exact Binary.beq_comm x y
      | _ => rfl
  | function f =>
      cases b with
      | function g => exact BEq.comm
      | _ => rfl
  | library m =>
      cases b with
      | library n => exact BEq.comm
      | _ => rfl

/-! ### Loose equality -/

theorem sameKind_comm (a b : Value) : a.sameKind b = b.sameKind a := by
  rcases a with _ | (_ | _ | _ | _ | _ | _) | _ | _ | _ <;>
    rcases b with _ | (_ | _ | _ | _ | _ | _) | _ | _ | _ <;> rfl

theorem isNumberAndText_comm (a b : Value) : a.isNumberAndText b = b.isNumberAndText a := by
  rcases a with _ | (_ | _ | _ | _ | _ | _) | _ | _ | _ <;>
    rcases b with _ | (_ | _ | _ | _ | _ | _) | _ | _ | _ <;> rfl

theorem sameKind_of_isBool (ha : a.isBool = true) (hb : b.isBool = true) : a.sameKind b = true := by
  rcases a with _ | (_ | _ | _ | _ | _ | _) | _ | _ | _ <;> cases ha
  rcases b with _ | (_ | _ | _ | _ | _ | _) | _ | _ | _ <;> cases hb
  rfl

theorem uniqueKeys_ofFloat (x : Float) : (ofFloat x).UniqueKeys := by
  rw [ofFloat]
  split
  · exact .number _
  · trivial

/-- What is converted to a text holds no objects. -/
theorem UniqueKeys.primitive (ha : a.UniqueKeys) : a.primitive.UniqueKeys := by
  cases a with
  | json j =>
      cases j with
      | array items | object fields => exact .string _
      | null | bool | number | string => exact ha
  | function f | library name => exact .string _
  | undefined | nonFinite x => trivial

/-- The steps of loose equality the other way round. -/
theorem looseEq_flipped (a b : Value) :
    b.looseEq a =
      if a.isNullish || b.isNullish then a.isNullish && b.isNullish
      else if a.isNonFinite || b.isNonFinite then b.primitive.toNumber == a.primitive.toNumber
      else if a.sameKind b then b.strictEq a
      else if b.isBool then (ofFloat b.toNumber).looseEq a
      else if a.isBool then b.looseEq (ofFloat a.toNumber)
      else if a.isNumberAndText b then b.toNumber == a.toNumber
      else if b.isComposite && !a.isComposite then b.primitive.looseEq a
      else if a.isComposite && !b.isComposite then b.looseEq a.primitive
      else b.strictEq a := by
  rw [looseEq, Bool.or_comm b.isNullish, Bool.and_comm b.isNullish, Bool.or_comm b.isNonFinite,
    sameKind_comm b, isNumberAndText_comm b]

/-- Whichever operand is converted first, the comparison comes to the same. -/
theorem looseEq_comm (ha : a.UniqueKeys) (hb : b.UniqueKeys) : a.looseEq b = b.looseEq a := by
  induction a, b using looseEq.induct with
  | case1 a b hnullish =>
      rw [looseEq.eq_def a b, looseEq_flipped a b]
      simp only [hnullish, ↓reduceIte]
  | case2 a b hnullish hfinite =>
      rw [looseEq.eq_def a b, looseEq_flipped a b]
      simp only [hnullish, hfinite, ↓reduceIte]
      exact Binary.beq_comm _ _
  | case3 a b hnullish hfinite hkind =>
      rw [looseEq.eq_def a b, looseEq_flipped a b]
      simp only [hnullish, hfinite, hkind, ↓reduceIte]
      exact strictEq_comm ha hb
  | case4 a b hnullish hfinite hkind hbool ih =>
      have hother : ¬ b.isBool = true := fun hb => hkind (sameKind_of_isBool hbool hb)
      rw [looseEq.eq_def a b, looseEq_flipped a b]
      simp only [hnullish, hfinite, hkind, hbool, hother, ↓reduceIte]
      exact ih (uniqueKeys_ofFloat _) hb
  | case5 a b hnullish hfinite hkind hother hbool ih =>
      rw [looseEq.eq_def a b, looseEq_flipped a b]
      simp only [hnullish, hfinite, hkind, hbool, hother, ↓reduceIte]
      exact ih ha (uniqueKeys_ofFloat _)
  | case6 a b hnullish hfinite hkind hbool hbool' hnumber =>
      rw [looseEq.eq_def a b, looseEq_flipped a b]
      simp only [hnullish, hfinite, hkind, hbool, hbool', hnumber, ↓reduceIte]
      exact Binary.beq_comm _ _
  | case7 a b hnullish hfinite hkind hbool hbool' hnumber hcomposite ih =>
      have hother : ¬ (b.isComposite && !a.isComposite) = true := by
        cases hb : b.isComposite <;> simp [hb] at hcomposite ⊢
      rw [looseEq.eq_def a b, looseEq_flipped a b]
      simp only [hnullish, hfinite, hkind, hbool, hbool', hnumber, hcomposite, hother, ↓reduceIte]
      exact ih ha.primitive hb
  | case8 a b hnullish hfinite hkind hbool hbool' hnumber hother hcomposite ih =>
      rw [looseEq.eq_def a b, looseEq_flipped a b]
      simp only [hnullish, hfinite, hkind, hbool, hbool', hnumber, hcomposite, hother, ↓reduceIte]
      exact ih ha hb.primitive
  | case9 a b hnullish hfinite hkind hbool hbool' hnumber hcomposite hother =>
      rw [looseEq.eq_def a b, looseEq_flipped a b]
      simp only [hnullish, hfinite, hkind, hbool, hbool', hnumber, hcomposite, hother]
      exact strictEq_comm ha hb

/-- JSON values of one kind are compared as they are. -/
theorem looseEq_of_sameKind (h : a.sameKind b = true) : a.looseEq b = a.strictEq b := by
  rcases a with _ | (_ | _ | _ | _ | _ | _) | _ | _ | _ <;>
    rcases b with _ | (_ | _ | _ | _ | _ | _) | _ | _ | _ <;>
    first
      | exact absurd h Bool.false_ne_true
      | rw [looseEq]; rfl

theorem sameKind_of_deepEq {x y : Json} (h : x.deepEq y = true) :
    (json x).sameKind (json y) = true := by
  cases x <;> cases y <;> simp only [Json.deepEq, Bool.false_eq_true] at h <;> rfl

/-- What is equal as it is needs no conversion. -/
theorem looseEq_of_strictEq (h : a.strictEq b = true) : a.looseEq b = true := by
  cases a with
  | undefined =>
      cases b with
      | undefined => rw [looseEq]; rfl
      | json | nonFinite | function | library => cases h
  | json x =>
      cases b with
      | json y => rw [looseEq_of_sameKind (sameKind_of_deepEq h), h]
      | nonFinite y =>
          cases x with
          | number n => rw [looseEq]; exact h
          | null | bool | string | array | object => cases h
      | undefined | function | library => cases h
  | nonFinite x =>
      cases b with
      | json y =>
          cases y with
          | number n => rw [looseEq]; exact h
          | null | bool | string | array | object => cases h
      | nonFinite y => rw [looseEq]; exact h
      | undefined | function | library => cases h
  | function f =>
      cases b with
      | function g => rw [looseEq]; exact h
      | undefined | json | nonFinite | library => cases h
  | library m =>
      cases b with
      | library n => rw [looseEq]; exact h
      | undefined | json | nonFinite | function => cases h

/-- Strict and loose equality are symmetric, and strict equality implies loose equality, for all
values whose objects hold each key once. -/
theorem equality_symmetric (ha : a.UniqueKeys) (hb : b.UniqueKeys) :
    a.looseEq b = b.looseEq a ∧ a.strictEq b = b.strictEq a ∧
      (a.strictEq b = true → a.looseEq b = true) :=
  ⟨looseEq_comm ha hb, strictEq_comm ha hb, looseEq_of_strictEq⟩

/-- The same fields in another order, with a number in another storage. -/
theorem equality_symmetric_reordered :
    let a : Value := .json (.object [("x", .number (.int 1)), ("y", .array [.bool true])])
    let b : Value := .json (.object [("y", .array [.bool true]), ("x", .number (.float 1.0))])
    a.UniqueKeys ∧ b.UniqueKeys ∧ a.strictEq b = true ∧ b.strictEq a = true ∧
      a.looseEq b = true ∧ b.looseEq a = true := by
  intro a b
  have hlist : Json.UniqueKeys (.array [.bool true]) :=
    .array (List.forall_mem_singleton.mpr (.bool true))
  have ha : a.UniqueKeys := .object (by decide)
    (List.forall_mem_cons.mpr ⟨.number _, List.forall_mem_singleton.mpr hlist⟩)
  have hb : b.UniqueKeys := .object (by decide)
    (List.forall_mem_cons.mpr ⟨hlist, List.forall_mem_singleton.mpr (.number _)⟩)
  have hstrict : a.strictEq b = true := by decide +kernel
  obtain ⟨hloose, hsymm, himplies⟩ := equality_symmetric ha hb
  exact ⟨ha, hb, hstrict, hsymm ▸ hstrict, himplies hstrict, hloose ▸ himplies hstrict⟩

end Value

end RecordQuery
