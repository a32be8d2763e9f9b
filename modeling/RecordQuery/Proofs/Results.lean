import Mathlib.Data.List.Forall2
import Mathlib.Data.List.Induction

/-! # Computations that may fail

When a composed computation has a value, when one computation for each item of a list does, and
when a loop over a list does.
-/

namespace RecordQuery

variable {α β γ ε : Type}

theorem ok_bind (a : α) (f : α → Except ε β) : (Except.ok a >>= f) = f a := rfl

theorem bind_eq_ok_iff {r : Except ε α} {f : α → Except ε β} {b : β} :
    r.bind f = .ok b ↔ ∃ a, r = .ok a ∧ f a = .ok b := by
  cases r <;> simp [Except.bind]

theorem map_eq_ok_iff {r : Except ε α} {f : α → β} {b : β} :
    r.map f = .ok b ↔ ∃ a, r = .ok a ∧ f a = b := by
  cases r <;> simp [Except.map]

theorem bind_eq_error_iff {r : Except ε α} {f : α → Except ε β} {e : ε} :
    r.bind f = .error e ↔ r = .error e ∨ ∃ a, r = .ok a ∧ f a = .error e := by
  cases r <;> simp [Except.bind]

theorem map_eq_error_iff {r : Except ε α} {f : α → β} {e : ε} :
    r.map f = .error e ↔ r = .error e := by
  cases r <;> simp [Except.map]

/-- A computation fails exactly if it has no value. -/
theorem exists_eq_error_iff {r : Except ε α} : (∃ e, r = .error e) ↔ ¬ ∃ a, r = .ok a := by
  cases r <;> simp

instance decidableExistsEqOk (r : Except ε α) : Decidable (∃ a, r = .ok a) :=
  match r with
  | .ok a => .isTrue ⟨a, rfl⟩
  | .error _ => .isFalse (by simp)

/-- A list of computations has the list of their values. -/
theorem mapM_eq_ok_iff {f : α → Except ε β} {items : List α} {values : List β} :
    items.mapM f = .ok values ↔ List.Forall₂ (fun a b => f a = .ok b) items values := by
  induction items generalizing values with
  | nil =>
      rw [List.mapM_nil, List.forall₂_nil_left_iff]
      exact ⟨fun h => (Except.ok.inj h).symm, fun h => congrArg Except.ok h.symm⟩
  | cons a items ih =>
      rw [List.mapM_cons, List.forall₂_cons_left_iff]
      constructor
      · intro h
        obtain ⟨b, hb, h⟩ := bind_eq_ok_iff.mp h
        obtain ⟨rest, hrest, h⟩ := bind_eq_ok_iff.mp h
        exact ⟨b, rest, hb, ih.mp hrest, (Except.ok.inj h).symm⟩
      · rintro ⟨b, rest, hb, hrest, rfl⟩
        rw [hb, ih.mpr hrest]
        rfl

theorem mapM_congr {f g : α → Except ε β} {items : List α} (h : ∀ a ∈ items, f a = g a) :
    items.mapM f = items.mapM g := by
  induction items with
  | nil => rw [List.mapM_nil, List.mapM_nil]
  | cons a items ih =>
      obtain ⟨ha, hitems⟩ := List.forall_mem_cons.mp h
      rw [List.mapM_cons, List.mapM_cons, ha, ih hitems]

/-- A list of computations fails as the first one that does. -/
theorem mapM_eq_error_of_first {f : α → Except ε β} {before : List α} {a : α} {e : ε}
    (hbefore : ∀ x ∈ before, ∃ b, f x = .ok b) (ha : f a = .error e) (after : List α) :
    (before ++ a :: after).mapM f = .error e := by
  induction before with
  | nil =>
      rw [List.nil_append, List.mapM_cons, ha]
      rfl
  | cons x before ih =>
      obtain ⟨⟨b, hb⟩, hrest⟩ := List.forall_mem_cons.mp hbefore
      rw [List.cons_append, List.mapM_cons, hb, ih hrest]
      rfl

/-- The value of a computation, or another one where it fails. -/
def valueOr (default : α) : Except ε α → α
  | .ok a => a
  | .error _ => default

@[simp] theorem valueOr_ok (default a : α) : valueOr default (.ok a : Except ε α) = a := rfl

theorem eq_ok_iff_valueOr (default : α) {r : Except ε α} {a : α} :
    r = .ok a ↔ (∃ b, r = .ok b) ∧ a = valueOr default r := by
  cases r with
  | ok b => simp [eq_comm]
  | error e => simp

theorem map_eq_ok_iff_valueOr (default : α) {r : Except ε α} {f : α → β} {b : β} :
    r.map f = .ok b ↔ (∃ a, r = .ok a) ∧ b = f (valueOr default r) := by
  cases r with
  | ok a => simp [Except.map, eq_comm]
  | error e => simp [Except.map]

/-- A list of computations has values exactly if each one has, and then these are its values. -/
theorem mapM_eq_ok_iff_of {f : α → Except ε β} {g : α → β} {p : α → Prop} {items : List α}
    {values : List β} (h : ∀ a ∈ items, ∀ b, f a = .ok b ↔ p a ∧ b = g a) :
    items.mapM f = .ok values ↔ (∀ a ∈ items, p a) ∧ values = items.map g := by
  rw [mapM_eq_ok_iff]
  induction items generalizing values with
  | nil => simp
  | cons a items ih =>
      obtain ⟨ha, hitems⟩ := List.forall_mem_cons.mp h
      rw [List.forall₂_cons_left_iff, List.forall_mem_cons, List.map_cons]
      constructor
      · rintro ⟨b, rest, hb, hrest, rfl⟩
        obtain ⟨hpa, rfl⟩ := (ha b).mp hb
        obtain ⟨hps, rfl⟩ := (ih hitems).mp hrest
        exact ⟨⟨hpa, hps⟩, rfl⟩
      · rintro ⟨⟨hpa, hps⟩, rfl⟩
        exact ⟨g a, _, (ha _).mpr ⟨hpa, rfl⟩, (ih hitems).mpr ⟨hps, rfl⟩, rfl⟩

theorem mapM_eq_ok_iff_map (default : β) {f : α → Except ε β} {items : List α} {values : List β} :
    items.mapM f = .ok values ↔
      (∀ a ∈ items, ∃ b, f a = .ok b) ∧ values = items.map fun a => valueOr default (f a) :=
  mapM_eq_ok_iff_of fun _ _ _ => eq_ok_iff_valueOr default

/-! ## Loops -/

/-- A loop over numbered items has a value exactly if no item makes it fail, if one more item brings
a table of the items before it up to date. -/
theorem foldlM_zipIdx_eq_ok_iff_of (table : List α → γ) {step : γ → α × Nat → Except ε γ}
    {p : α → Prop} {items : List α} {out : γ}
    (h : ∀ seen x next, step (table seen) (x, seen.length) = .ok next ↔
      p x ∧ next = table (seen ++ [x])) :
    items.zipIdx.foldlM step (table []) = .ok out ↔ (∀ x ∈ items, p x) ∧ out = table items := by
  induction items using List.reverseRecOn generalizing out with
  | nil =>
      rw [List.zipIdx_nil, List.foldlM_nil]
      simp [pure, Except.pure, eq_comm]
  | append_singleton items x ih =>
      rw [List.zipIdx_append, List.foldlM_append, List.forall_mem_append, List.forall_mem_singleton]
      simp only [List.zipIdx_singleton, List.foldlM_cons, List.foldlM_nil, bind_pure, Nat.zero_add]
      constructor
      · intro hrun
        obtain ⟨before, hbefore, hstep⟩ := bind_eq_ok_iff.mp hrun
        obtain ⟨hitems, rfl⟩ := ih.mp hbefore
        obtain ⟨hx, rfl⟩ := (h items x out).mp hstep
        exact ⟨⟨hitems, hx⟩, rfl⟩
      · rintro ⟨⟨hitems, hx⟩, rfl⟩
        exact bind_eq_ok_iff.mpr ⟨_, ih.mpr ⟨hitems, rfl⟩, (h items x _).mpr ⟨hx, rfl⟩⟩

theorem foldlM_eq_ok_iff_of (table : List α → γ) {step : γ → α → Except ε γ} {p : α → Prop}
    {items : List α} {out : γ}
    (h : ∀ seen x next, step (table seen) x = .ok next ↔ p x ∧ next = table (seen ++ [x])) :
    items.foldlM step (table []) = .ok out ↔ (∀ x ∈ items, p x) ∧ out = table items := by
  have hnumbered : items.foldlM step (table []) =
      items.zipIdx.foldlM (fun out numbered => step out numbered.1) (table []) := by
    calc
      items.foldlM step (table []) = (items.zipIdx.map Prod.fst).foldlM step (table []) := by
        rw [List.zipIdx_map_fst]
      _ = items.zipIdx.foldlM (fun out numbered => step out numbered.1) (table []) :=
        List.foldlM_map
  rw [hnumbered]
  exact foldlM_zipIdx_eq_ok_iff_of table h

end RecordQuery
