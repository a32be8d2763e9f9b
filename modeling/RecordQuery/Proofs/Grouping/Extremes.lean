import Mathlib
import RecordQuery.Proofs.Sorting.Antisymmetry
import RecordQuery.Query.Aggregate

/-! # Least and greatest values

Where the comparison is a total preorder, the aggregates of the least and the greatest value are the
first value that is least or greatest among all. Another order of the values gives a value that
compares equal.
-/

namespace RecordQuery

namespace Value

/-- The comparison is a total preorder on the values of a list: every two have an outcome, and the
outcomes are transitive. -/
structure IsPreordered (values : List Value) : Prop where
  outcome : ∀ a ∈ values, ∀ b ∈ values, a.compare? b ≠ none
  trans : ∀ a ∈ values, ∀ b ∈ values, ∀ c ∈ values, a.le b = true → b.le c = true → a.le c = true

instance (values : List Value) : Decidable (IsPreordered values) :=
  decidable_of_iff
    ((∀ a ∈ values, ∀ b ∈ values, a.compare? b ≠ none) ∧
      ∀ a ∈ values, ∀ b ∈ values, ∀ c ∈ values, a.le b = true → b.le c = true → a.le c = true)
    ⟨fun h => ⟨h.1, h.2⟩, fun h => ⟨h.1, h.2⟩⟩

variable {a b c : Value} {values : List Value}

theorem lt_eq_gt (a b : Value) : a.lt b = b.gt a := by
  rw [lt, gt, compare?_swap a b]
  rcases a.compare? b with _ | _ | _ | _ <;> rfl

theorem le_of_gt (hgt : a.gt b = true) : b.le a = true := by
  rw [← lt_eq_gt, lt] at hgt
  rw [le, hgt, Bool.true_or]

namespace IsPreordered

variable (h : IsPreordered values) (ha : a ∈ values) (hb : b ∈ values)
include h ha hb

theorem gt_eq_not_le : a.gt b = !a.le b := by
  rw [gt, le]
  cases hcompare : a.compare? b with
  | none => exact absurd hcompare (h.outcome a ha b hb)
  | some o => cases o <;> rfl

/-- Values that do not exceed each other compare equal. -/
theorem compare?_eq (hab : a.gt b = false) (hba : b.gt a = false) : a.compare? b = some .eq := by
  rw [← lt_eq_gt, lt] at hba
  rw [gt] at hab
  cases hcompare : a.compare? b with
  | none => exact absurd hcompare (h.outcome a ha b hb)
  | some o =>
      rw [hcompare] at hab hba
      cases o with
      | lt => exact absurd hba (by decide)
      | eq => rfl
      | gt => exact absurd hab (by decide)

end IsPreordered

/-- Texts are ordered by their code points. -/
theorem isPreordered_texts (texts : List String) : IsPreordered (texts.map ofString) := by
  have hle (s t : String) : (ofString s).le (ofString t) = (compare s t).isLE := by
    change (some (compare s t) == some .lt || some (compare s t) == some .eq) = _
    cases compare s t <;> rfl
  constructor
  · simp only [List.forall_mem_map]
    exact fun s _ t _ => Option.some_ne_none _
  · simp only [List.forall_mem_map, hle]
    exact fun s _ t _ u _ => Std.TransOrd.isLE_trans

end Value

namespace Reduction

open Value

variable {replaces : Value → Value → Bool} {values others rest : List Value} {a b c m : Value}

/-- Among some values, a relation is a strict order in which ties are transitive. -/
structure IsStrictOn (replaces : Value → Value → Bool) (values : List Value) : Prop where
  irrefl : ∀ a ∈ values, replaces a a = false
  trans : ∀ a ∈ values, ∀ b ∈ values, ∀ c ∈ values,
    replaces a b = true → replaces b c = true → replaces a c = true
  cotrans : ∀ a ∈ values, ∀ b ∈ values, ∀ c ∈ values,
    replaces a c = true → replaces a b = true ∨ replaces b c = true

theorem IsStrictOn.mono (h : IsStrictOn replaces values) (hsub : others ⊆ values) :
    IsStrictOn replaces others :=
  ⟨fun a ha => h.irrefl a (hsub ha),
    fun a ha b hb c hc => h.trans a (hsub ha) b (hsub hb) c (hsub hc),
    fun a ha b hb c hc => h.cotrans a (hsub ha) b (hsub hb) c (hsub hc)⟩

theorem IsStrictOn.flip (h : IsStrictOn replaces values) :
    IsStrictOn (fun a b => replaces b a) values :=
  ⟨h.irrefl, fun a ha b hb c hc hab hbc => h.trans c hc b hb a ha hbc hab,
    fun a ha b hb c hc hac => (h.cotrans c hc b hb a ha hac).symm⟩

theorem isStrictOn_gt (h : IsPreordered values) : IsStrictOn Value.gt values := by
  have hle {a b} (ha : a ∈ values) (hb : b ∈ values) : a.gt b = false ↔ a.le b = true := by
    rw [h.gt_eq_not_le ha hb, Bool.not_eq_false']
  refine ⟨?_, ?_, ?_⟩
  · intro a ha
    cases hgt : a.gt a with
    | false => rfl
    | true => rw [← hgt, (hle ha ha).mpr (le_of_gt hgt)]
  · intro a ha b hb c hc hab hbc
    by_contra hac
    have hac := (hle ha hc).mp (Bool.eq_false_of_not_eq_true hac)
    have hle' := h.trans a ha c hc b hb hac (le_of_gt hbc)
    rw [(hle ha hb).mpr hle'] at hab
    cases hab
  · intro a ha b hb c hc hac
    by_contra hnot
    rw [not_or, Bool.not_eq_true, Bool.not_eq_true, hle ha hb, hle hb hc] at hnot
    rw [(hle ha hc).mpr (h.trans a ha b hb c hc hnot.1 hnot.2)] at hac
    cases hac

/-- A value that replaces all that stand before it and that none behind it replaces. -/
def IsFirstBest (replaces : Value → Value → Bool) (values : List Value) (m : Value) : Prop :=
  ∃ front back, values = front ++ m :: back ∧ (∀ v ∈ front, replaces m v = true) ∧
    ∀ v ∈ back, replaces v m = false

/-- A value in front that the next one replaces is replaced by the best of the rest. -/
theorem IsFirstBest.cons (h : IsStrictOn replaces (a :: b :: rest)) (hb : replaces b a = true)
    (hm : IsFirstBest replaces (b :: rest) m) : IsFirstBest replaces (a :: b :: rest) m := by
  obtain ⟨front, back, heq, hfront, hback⟩ := hm
  refine ⟨a :: front, back, congrArg (a :: ·) heq, List.forall_mem_cons.mpr ⟨?_, hfront⟩, hback⟩
  have hm : m ∈ b :: rest := heq ▸ List.mem_append_cons_self
  cases front with
  | nil =>
      obtain rfl : b = m := (List.cons.inj heq).1
      exact hb
  | cons u front =>
      obtain rfl : b = u := (List.cons.inj heq).1
      exact h.trans m (List.mem_cons_of_mem a hm) b (by simp) a (by simp)
        (hfront b List.mem_cons_self) hb

/-- A second value that does not replace the first is replaced by whatever does. -/
theorem IsFirstBest.insert (h : IsStrictOn replaces (a :: b :: rest)) (hb : replaces b a = false)
    (hm : IsFirstBest replaces (a :: rest) m) : IsFirstBest replaces (a :: b :: rest) m := by
  obtain ⟨front, back, heq, hfront, hback⟩ := hm
  cases front with
  | nil =>
      obtain ⟨rfl, rfl⟩ := List.cons.inj heq
      exact ⟨[], b :: rest, rfl, nofun, List.forall_mem_cons.mpr ⟨hb, hback⟩⟩
  | cons u front =>
      obtain ⟨rfl, rfl⟩ := List.cons.inj heq
      obtain ⟨ha, hfront⟩ := List.forall_mem_cons.mp hfront
      have hm : replaces m b = true := by
        refine (h.cotrans m (by simp) b (by simp) a (by simp) ha).resolve_right ?_
        rw [hb]
        decide
      refine ⟨a :: b :: front, back, rfl, ?_, hback⟩
      exact List.forall_mem_cons.mpr ⟨ha, List.forall_mem_cons.mpr ⟨hm, hfront⟩⟩

theorem isFirstBest_foldl (h : IsStrictOn replaces (a :: rest)) :
    IsFirstBest replaces (a :: rest)
      (rest.foldl (fun best v => if replaces v best then v else best) a) := by
  induction rest generalizing a with
  | nil => exact ⟨[], [], rfl, nofun, nofun⟩
  | cons b rest ih =>
      rw [List.foldl_cons]
      cases hb : replaces b a with
      | true =>
          rw [if_pos rfl]
          exact (ih (h.mono (List.subset_cons_self a (b :: rest)))).cons h hb
      | false =>
          rw [if_neg (by decide)]
          exact (ih (h.mono (List.cons_subset_cons a (List.subset_cons_self b rest)))).insert h hb

theorem IsStrictOn.asymm (h : IsStrictOn replaces values) (ha : a ∈ values) (hb : b ∈ values)
    (hab : replaces a b = true) : replaces b a = false := by
  by_contra hba
  have haa := h.trans a ha b hb a ha hab (Bool.eq_true_of_not_eq_false hba)
  rw [h.irrefl a ha] at haa
  cases haa

/-- The first value that none of the values replaces. -/
def firstBest? (replaces : Value → Value → Bool) (values : List Value) : Option Value :=
  values.find? fun m => values.all fun v => !replaces v m

theorem firstBest?_of_isFirstBest (h : IsStrictOn replaces values)
    (hm : IsFirstBest replaces values m) : firstBest? replaces values = some m := by
  obtain ⟨front, back, rfl, hfront, hback⟩ := hm
  have hmem : m ∈ front ++ m :: back := List.mem_append_cons_self
  refine List.find?_eq_some_iff_append.mpr ⟨?_, front, back, rfl, ?_⟩
  · simp only [List.all_eq_true, Bool.not_eq_true']
    intro v hv
    rcases List.mem_append.mp hv with hbefore | hrest
    · exact h.asymm hmem hv (hfront v hbefore)
    · rcases List.mem_cons.mp hrest with rfl | hbehind
      · exact h.irrefl v hmem
      · exact hback v hbehind
  · intro u hu
    rw [Bool.not_eq_true', List.all_eq_false]
    exact ⟨m, hmem, by rw [hfront u hu]; decide⟩

/-- What is picked is the first value that none replaces. -/
theorem firstBest?_eq_pick (hne : values ≠ []) (h : IsStrictOn replaces values) :
    firstBest? replaces values = some (pick replaces values) := by
  obtain ⟨first, rest, rfl⟩ := List.exists_cons_of_ne_nil hne
  exact firstBest?_of_isFirstBest h (isFirstBest_foldl h)

theorem mem_of_firstBest? (h : firstBest? replaces values = some m) :
    m ∈ values ∧ ∀ v ∈ values, replaces v m = false := by
  refine ⟨List.mem_of_find?_eq_some h, ?_⟩
  simpa using List.find?_some h

/-- In another order, what is picked neither replaces nor is replaced. -/
theorem pick_perm (hne : values ≠ []) (h : IsStrictOn replaces values)
    (hperm : others.Perm values) : pick replaces others ∈ values ∧ pick replaces values ∈ values ∧
      replaces (pick replaces others) (pick replaces values) = false ∧
        replaces (pick replaces values) (pick replaces others) = false := by
  have hothers : others ≠ [] := fun hnil => hne (hnil ▸ hperm).nil_eq.symm
  obtain ⟨hmem, hbest⟩ := mem_of_firstBest? (firstBest?_eq_pick hne h)
  obtain ⟨hmem', hbest'⟩ :=
    mem_of_firstBest? (firstBest?_eq_pick hothers (h.mono hperm.subset))
  have hin := hperm.mem_iff.mp hmem'
  exact ⟨hin, hmem, hbest _ hin, hbest' _ (hperm.mem_iff.mpr hmem)⟩

/-- Where the comparison is a total preorder, the greatest value is the first that none exceeds and
the least is the first that exceeds none. In another order of the values they compare equal. -/
theorem extremes_first (hne : values ≠ []) (h : IsPreordered values) :
    values.find? (fun m => values.all fun v => !v.gt m) = some (max.reduce values) ∧
      values.find? (fun m => values.all fun v => !m.gt v) = some (min.reduce values) ∧
      ∀ others, others.Perm values →
        (max.reduce others).compare? (max.reduce values) = some .eq ∧
          (min.reduce others).compare? (min.reduce values) = some .eq := by
  have hgt := isStrictOn_gt h
  have hlt : IsStrictOn Value.lt values := by
    have hflip : Value.lt = fun a b => Value.gt b a := by
      funext a b
      exact lt_eq_gt a b
    rw [hflip]
    exact hgt.flip
  refine ⟨firstBest?_eq_pick hne hgt, ?_, ?_⟩
  · have hfirst := firstBest?_eq_pick hne hlt
    simp only [firstBest?, lt_eq_gt] at hfirst
    exact hfirst
  · intro others hperm
    obtain ⟨hmem', hmem, hexceeds, hexceeded⟩ := pick_perm hne hgt hperm
    refine ⟨h.compare?_eq hmem' hmem hexceeds hexceeded, ?_⟩
    obtain ⟨hmem', hmem, hbelow, habove⟩ := pick_perm hne hlt hperm
    rw [lt_eq_gt] at hbelow habove
    exact h.compare?_eq hmem' hmem habove hbelow

/-- Numbers and the text of one together, with ties: an integer before its text, and one before the
same number as a float. Texts alone compare by their characters. -/
theorem extremes_first_ties :
    let values : List Value :=
      [.ofInt 3, .ofInt 1, .ofString "1", .ofInt 5, .json (.number (.float 5.0))]
    let texts : List Value := ["10", "é", "9"].map .ofString
    IsPreordered values ∧ max.reduce values = .ofInt 5 ∧ min.reduce values = .ofInt 1 ∧
      (max.reduce values.reverse).compare? (.ofInt 5) = some .eq ∧
      (min.reduce values.reverse).compare? (.ofInt 1) = some .eq ∧
      texts.find? (fun m => texts.all fun v => !v.gt m) = some (max.reduce texts) ∧
      texts.find? (fun m => texts.all fun v => !m.gt v) = some (.ofString "10") := by
  intro values texts
  have h : IsPreordered values := by decide +kernel
  have hgreatest : max.reduce values = .ofInt 5 := by
    have hone : Value.gt (.ofInt 1) (.ofInt 3) = false := by decide +kernel
    have htext : Value.gt (.ofString "1") (.ofInt 3) = false := by decide +kernel
    have hfive : Value.gt (.ofInt 5) (.ofInt 3) = true := by decide +kernel
    have hfloat : Value.gt (.json (.number (.float 5.0))) (.ofInt 5) = false := by decide +kernel
    simp [values, max, pick, hone, htext, hfive, hfloat]
  have hleast : min.reduce values = .ofInt 1 := by
    have hone : Value.lt (.ofInt 1) (.ofInt 3) = true := by decide +kernel
    have htext : Value.lt (.ofString "1") (.ofInt 1) = false := by decide +kernel
    have hfive : Value.lt (.ofInt 5) (.ofInt 1) = false := by decide +kernel
    have hfloat : Value.lt (.json (.number (.float 5.0))) (.ofInt 1) = false := by decide +kernel
    simp [values, min, pick, hone, htext, hfive, hfloat]
  obtain ⟨-, -, hperm⟩ := extremes_first (List.cons_ne_nil _ _) h
  obtain ⟨hgreatest', hleast'⟩ := hperm values.reverse (List.reverse_perm values)
  rw [hgreatest] at hgreatest'
  rw [hleast] at hleast'
  obtain ⟨hmax, hmin, -⟩ := extremes_first (List.cons_ne_nil _ _)
    (isPreordered_texts ["10", "é", "9"])
  exact ⟨h, hgreatest, hleast, hgreatest', hleast', hmax, hmin⟩

end Reduction

end RecordQuery
