import RecordQuery.Proofs.Values.Symmetry

/-! # Equality up to the order of fields

Equality of JSON values goes through the fields of one object and looks them up in the other one.
So the order of the fields does not count at any depth, and with each key once a value is equal to
itself.
-/

namespace RecordQuery

theorem Number.sameValue_self {a : Number} (h : a.IsStored) : a.sameValue a = true :=
  (sameValue_iff h h).mpr (.inl rfl)

namespace Json

variable {x y : Json}

/-! ## Equality with itself -/

theorem deepEqItems_self {xs : List Json} (h : ∀ x ∈ xs, x.deepEq x = true) :
    deepEqItems xs xs = true := by
  rw [deepEqItems_iff, List.forall₂_same]
  exact h

/-- What is found under the key of a field is its value. -/
theorem deepEqFields_self {xs : Fields} (hkeys : xs.keys.Nodup)
    (h : ∀ field ∈ xs, field.2.deepEq field.2 = true) : deepEqFields xs xs = true := by
  rw [deepEqFields_iff]
  intro field hfield
  exact ⟨field.2, Fields.get?_of_mem hkeys hfield, h field hfield⟩

theorem deepEq_self (hunique : x.UniqueKeys) (hstored : x.EveryNumber Number.IsStored) :
    x.deepEq x = true := by
  induction hunique with
  | null => rfl
  | bool b => exact beq_self_eq_true b
  | number n =>
      cases hstored with
      | number h => exact Number.sameValue_self h
  | string s => exact beq_self_eq_true s
  | array _ ih =>
      cases hstored with
      | array h => exact deepEqItems_self fun x hx => ih x hx (h x hx)
  | object keys _ ih =>
      cases hstored with
      | object h =>
          rw [deepEq, beq_self_eq_true, Bool.true_and]
          exact deepEqFields_self keys fun field hfield => ih field hfield (h field hfield)

/-! ## Other orders of the fields -/

/-- Values that differ in the order of the fields of their objects only, at any depth. -/
inductive Reordered : Json → Json → Prop where
  | refl (x : Json) : Reordered x x
  | trans {x y z : Json} (h : Reordered x y) (h' : Reordered y z) : Reordered x z
  | fields {xs ys : Fields} (h : xs.Perm ys) : Reordered (.object xs) (.object ys)
  | inField (before after : Fields) (key : String) {x y : Json} (h : Reordered x y) :
      Reordered (.object (before ++ (key, x) :: after)) (.object (before ++ (key, y) :: after))
  | inItem (before after : List Json) {x y : Json} (h : Reordered x y) :
      Reordered (.array (before ++ x :: after)) (.array (before ++ y :: after))

theorem deepEqFields_perm {xs ys : Fields} (h : xs.Perm ys) (zs : Fields) :
    deepEqFields xs zs = deepEqFields ys zs := by
  rw [Bool.eq_iff_iff, deepEqFields_iff, deepEqFields_iff]
  exact ⟨fun heq field hfield => heq field (h.mem_iff.mpr hfield),
    fun heq field hfield => heq field (h.mem_iff.mp hfield)⟩

theorem deepEqFields_append (xs ys zs : Fields) :
    deepEqFields (xs ++ ys) zs = (deepEqFields xs zs && deepEqFields ys zs) := by
  rw [Bool.eq_iff_iff, Bool.and_eq_true, deepEqFields_iff, deepEqFields_iff, deepEqFields_iff]
  exact List.forall_mem_append

theorem deepEqItems_inside (h : ∀ z, x.deepEq z = y.deepEq z) (before after zs : List Json) :
    deepEqItems (before ++ x :: after) zs = deepEqItems (before ++ y :: after) zs := by
  induction before generalizing zs with
  | nil => cases zs <;> simp [deepEqItems, h]
  | cons first before ih => cases zs <;> simp [deepEqItems, ih]

/-- Equality does not see the order of the fields. -/
theorem Reordered.deepEq_eq (h : Reordered x y) (z : Json) : x.deepEq z = y.deepEq z := by
  induction h generalizing z with
  | refl x => rfl
  | trans _ _ ih ih' => exact (ih z).trans (ih' z)
  | fields h =>
      cases z with
      | object zs => rw [deepEq, deepEq, h.length_eq, deepEqFields_perm h]
      | _ => simp only [deepEq]
  | inField before after key _ ih =>
      cases z with
      | object zs =>
          simp only [deepEq, List.length_append, List.length_cons, deepEqFields_append,
            deepEqFields, ih]
      | _ => simp only [deepEq]
  | inItem before after _ ih =>
      cases z with
      | array zs => exact deepEqItems_inside ih before after zs
      | _ => simp only [deepEq]

/-- Equality of JSON values whose objects hold each key once is reflexive and symmetric, and the
order of the fields does not count for it. -/
theorem equality_up_to_field_order {a b : Json} (ha : a.UniqueKeys) (hb : b.UniqueKeys)
    (hstored : a.EveryNumber Number.IsStored) :
    a.deepEq a = true ∧ a.deepEq b = b.deepEq a ∧
      ∀ a', Reordered a a' → a'.deepEq b = a.deepEq b :=
  ⟨deepEq_self ha hstored, deepEq_comm ha hb, fun _ h => (h.deepEq_eq b).symm⟩

/-- An object in a list inside an object, with the fields of both in another order. -/
theorem equality_up_to_field_order_nested :
    let inner : Json := .object [("x", .number (.int 1)), ("y", .null)]
    let inner' : Json := .object [("y", .null), ("x", .number (.int 1))]
    let a : Json := .object [("list", .array [.bool true, inner]), ("k", .string "v")]
    let a' : Json := .object [("k", .string "v"), ("list", .array [.bool true, inner'])]
    let b : Json := .object [("list", .array [.bool true, inner']), ("k", .string "v")]
    a.UniqueKeys ∧ b.UniqueKeys ∧ a.EveryNumber Number.IsStored ∧ Reordered a a' ∧
      a.deepEq a = true ∧ a.deepEq b = b.deepEq a ∧ a'.deepEq b = a.deepEq b := by
  intro inner inner' a a' b
  have hinner : inner.UniqueKeys := .object (by decide)
    (List.forall_mem_cons.mpr ⟨.number _, List.forall_mem_singleton.mpr .null⟩)
  have hinner' : inner'.UniqueKeys := .object (by decide)
    (List.forall_mem_cons.mpr ⟨.null, List.forall_mem_singleton.mpr (.number _)⟩)
  have hlist {x : Json} (hx : x.UniqueKeys) : (Json.array [.bool true, x]).UniqueKeys :=
    .array (List.forall_mem_cons.mpr ⟨.bool true, List.forall_mem_singleton.mpr hx⟩)
  have ha : a.UniqueKeys := .object (by decide)
    (List.forall_mem_cons.mpr ⟨hlist hinner, List.forall_mem_singleton.mpr (.string "v")⟩)
  have hb : b.UniqueKeys := .object (by decide)
    (List.forall_mem_cons.mpr ⟨hlist hinner', List.forall_mem_singleton.mpr (.string "v")⟩)
  have hone : (Number.int 1).IsStored := by decide
  have hstored : a.EveryNumber Number.IsStored := by
    refine .object (List.forall_mem_cons.mpr ⟨.array (List.forall_mem_cons.mpr ⟨.bool true, ?_⟩),
      List.forall_mem_singleton.mpr (.string "v")⟩)
    exact List.forall_mem_singleton.mpr (.object (List.forall_mem_cons.mpr
      ⟨.number hone, List.forall_mem_singleton.mpr .null⟩))
  have hswap : Reordered inner inner' := .fields (.swap _ _ _)
  have hreordered : Reordered a a' :=
    .trans (.inField [] _ "list" (.inItem [.bool true] [] hswap)) (.fields (.swap _ _ _))
  obtain ⟨hself, hcomm, horder⟩ := equality_up_to_field_order ha hb hstored
  exact ⟨ha, hb, hstored, hreordered, hself, hcomm, horder a' hreordered⟩

end Json

end RecordQuery
