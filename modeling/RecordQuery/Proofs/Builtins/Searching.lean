import Mathlib
import RecordQuery.Proofs.Builtins.Methods
import RecordQuery.Proofs.Builtins.Positions
import RecordQuery.Proofs.Texts.Occurrences

/-! # Searching and replacing

The methods that look for a text in another one agree on where it stands: the position that is
given, whether there is one, whether it is the first one allowed, and what is replaced there.
-/

namespace RecordQuery

namespace Text

variable {needle cs : List Char} {start : Nat}

/-- What a search from a position gives: the least position from there on at which the needle
stands, or -1 if it stands at none. -/
inductive FoundFrom (needle cs : List Char) (start : Nat) : Int → Prop where
  | first {k : Nat} (h : IsLeast {k | start ≤ k ∧ StandsAt needle cs k} k) :
      FoundFrom needle cs start k
  | nowhere (h : ∀ k, start ≤ k → ¬ StandsAt needle cs k) : FoundFrom needle cs start (-1)

/-- A position as an integer, with -1 for none. -/
def positionOf (position? : Option Nat) : Int :=
  position?.elim (-1) Nat.cast

theorem foundFrom_indexFrom? (hstart : start ≤ cs.length) :
    FoundFrom needle cs start (positionOf (indexFrom? needle start cs)) := by
  cases h : indexFrom? needle start cs with
  | some k => exact .first (isLeast_of_indexFrom? hstart h)
  | none => exact .nowhere fun k hk => not_standsAt_of_indexFrom? hstart h hk

/-- A search has one result. -/
theorem FoundFrom.unique {i i' : Int} (h : FoundFrom needle cs start i)
    (h' : FoundFrom needle cs start i') : i = i' := by
  cases h with
  | first h =>
      cases h' with
      | first h' => exact congrArg Nat.cast (h.unique h')
      | nowhere h' => exact absurd h.1.2 (h' _ h.1.1)
  | nowhere h =>
      cases h' with
      | first h' => exact absurd h'.1.2 (h _ h'.1.1)
      | nowhere h' => rfl

/-- The needle stands where the search starts exactly if it is found there. -/
theorem FoundFrom.eq_start_iff {i : Int} (h : FoundFrom needle cs start i) :
    i = start ↔ StandsAt needle cs start := by
  cases h with
  | first h =>
      constructor
      · intro heq
        obtain rfl : _ = start := by exact_mod_cast heq
        exact h.1.2
      · intro hstands
        exact congrArg Nat.cast (le_antisymm (h.2 ⟨le_rfl, hstands⟩) h.1.1)
  | nowhere h =>
      constructor
      · intro heq
        omega
      · intro hstands
        exact absurd hstands (h start le_rfl)

theorem isPrefixOf_drop_eq (hstart : start ≤ cs.length) {i : Int}
    (h : FoundFrom needle cs start i) :
    needle.isPrefixOf (cs.drop start) = decide (i = start) := by
  rw [Bool.eq_iff_iff, List.isPrefixOf_iff_prefix, decide_eq_true_iff, h.eq_start_iff,
    standsAt_iff]
  exact (and_iff_right hstart).symm

theorem isSome_eq (position? : Option Nat) :
    position?.isSome = decide (positionOf position? ≠ -1) := by
  cases position? with
  | none => rfl
  | some k =>
      have hne : (k : Int) ≠ -1 := by omega
      simp [positionOf, hne]

end Text

namespace Builtin

open Text

variable {cs : List Char}

theorem positionValue_eq (position? : Option Nat) :
    positionValue position? = .ofInt (positionOf position?) := by
  cases position? <;> rfl

theorem replaceFirst_of_foundFrom (needle replacement cs : List Char) :
    (∀ k : Nat, positionOf (indexFrom? needle 0 cs) = k → replaceFirst needle replacement cs =
        cs.extract 0 k ++ replacement ++ cs.extract (k + needle.length)) ∧
      (positionOf (indexFrom? needle 0 cs) = -1 → replaceFirst needle replacement cs = cs) := by
  have hfrom : indexFrom? needle 0 cs = indexOf? needle cs := by simp [indexFrom?]
  rw [hfrom, replaceFirst]
  cases indexOf? needle cs with
  | none =>
      refine ⟨fun k hk => ?_, fun _ => rfl⟩
      change (-1 : Int) = k at hk
      omega
  | some i =>
      refine ⟨fun k hk => ?_, fun hnone => ?_⟩
      · obtain rfl : i = k := by
          change (i : Int) = k at hk
          exact_mod_cast hk
        simp [List.extract_eq_take_drop, List.take_of_length_le]
      · change (i : Int) = -1 at hnone
        omega

theorem apply_slice {m k : Nat} (hm : m ≤ 2 ^ 53) (hk : k ≤ 2 ^ 53) :
    TextFn.apply .slice cs [.ofInt m, .ofInt k] = .ofChars (cs.extract m k) := by
  rw [← between_min, ← Value.relativeIndex_ofInt hm _ 0, ← Value.relativeIndex_ofInt hk]
  rfl

theorem apply_slice_rest {m : Nat} (hm : m ≤ 2 ^ 53) :
    TextFn.apply .slice cs [.ofInt m] = .ofChars (cs.extract m) := by
  rw [← between_min, ← Value.relativeIndex_ofInt hm _ 0, Nat.min_self]
  rfl

end Builtin

namespace Expr

open Text

variable {ctx : Context} {s x p r : Expr} {cs : List Char} {needle position replacement : Value}

/-- How the methods of a text describe the occurrences of a needle. From a position `start` on it is
found at `i`, and from the beginning of the text at `j`. Slices between two positions are given by
the numbers of these, up to `2 ^ 53`. -/
structure FindsOccurrences (ctx : Context) (s x p r : Expr) (cs needle replacement : List Char)
    (start : Nat) (i j : Int) : Prop where
  found : FoundFrom needle cs start i
  indexOf : eval ctx (s.method "indexOf" [x, p]) = .ok (.ofInt i)
  includes : eval ctx (s.method "includes" [x, p]) = .ok (.ofBool (decide (i ≠ -1)))
  startsWith : eval ctx (s.method "startsWith" [x, p]) = .ok (.ofBool (decide (i = start)))
  foundFirst : FoundFrom needle cs 0 j
  indexOfFirst : eval ctx (s.method "indexOf" [x]) = .ok (.ofInt j)
  replaced : ∀ k : Nat, j = k → eval ctx (s.method "replace" [x, r]) =
    .ok (.ofChars (cs.extract 0 k ++ replacement ++ cs.extract (k + needle.length)))
  unreplaced : j = -1 → eval ctx (s.method "replace" [x, r]) = .ok (.ofChars cs)
  slice : ∀ (a b : Expr) (m k : Nat), eval ctx a = .ok (.ofInt m) → eval ctx b = .ok (.ofInt k) →
    m ≤ 2 ^ 53 → k ≤ 2 ^ 53 → eval ctx (s.method "slice" [a, b]) = .ok (.ofChars (cs.extract m k))
  sliceRest : ∀ (a : Expr) (m : Nat), eval ctx a = .ok (.ofInt m) → m ≤ 2 ^ 53 →
    eval ctx (s.method "slice" [a]) = .ok (.ofChars (cs.extract m))

section

variable (hctx : ctx.builtins = .standard) (hs : eval ctx s = .ok (.ofChars cs))
include hctx hs

theorem eval_indexOf {args : List Expr} {values : List Value}
    (hargs : evalList ctx args = .ok values)
    (hcount : (Arity.between 1 (some 2)).admits values.length = true) :
    eval ctx (s.method "indexOf" args) = .ok (.ofInt (positionOf
      (indexFrom? (Builtin.arg values 0).chars ((Builtin.arg values 1).clampedIndex cs.length 0)
        cs))) := by
  have hfind : BuiltinMap.standard.find? .string "indexOf" =
      some (.text "indexOf" (.between 1 (some 2)) .indexOf) := by decide
  rw [eval_textMethod hctx hfind hs hargs hcount, Builtin.TextFn.apply, Builtin.positionValue_eq]

theorem eval_replace (hx : eval ctx x = .ok needle) (hr : eval ctx r = .ok replacement) :
    eval ctx (s.method "replace" [x, r]) =
      .ok (.ofChars (replaceFirst needle.chars replacement.chars cs)) := by
  have hfind : BuiltinMap.standard.find? .string "replace" =
      some (.text "replace" (.exactly 2) .replace) := by decide
  exact eval_textMethod hctx hfind hs (evalList_cons hx (evalList_cons hr evalList_nil)) rfl

theorem eval_slice {args : List Expr} {values : List Value} (hargs : evalList ctx args = .ok values)
    (hcount : (Arity.between 0 (some 2)).admits values.length = true) :
    eval ctx (s.method "slice" args) = .ok (Builtin.TextFn.apply .slice cs values) := by
  have hfind : BuiltinMap.standard.find? .string "slice" =
      some (.text "slice" (.between 0 (some 2)) .slice) := by decide
  exact eval_textMethod hctx hfind hs hargs hcount

variable (hx : eval ctx x = .ok needle) (hp : eval ctx p = .ok position)
include hx hp

theorem eval_includes :
    eval ctx (s.method "includes" [x, p]) = .ok (.ofBool (decide (positionOf
      (indexFrom? needle.chars (position.clampedIndex cs.length 0) cs) ≠ -1))) := by
  have hfind : BuiltinMap.standard.find? .string "includes" =
      some (.text "includes" (.between 1 (some 2)) .includes) := by decide
  have hargs : evalList ctx [x, p] = .ok [needle, position] :=
    evalList_cons hx (evalList_cons hp evalList_nil)
  rw [eval_textMethod hctx hfind hs hargs rfl, ← isSome_eq]
  rfl

theorem eval_startsWith :
    eval ctx (s.method "startsWith" [x, p]) = .ok (.ofBool (decide (positionOf
      (indexFrom? needle.chars (position.clampedIndex cs.length 0) cs) =
        position.clampedIndex cs.length 0))) := by
  have hfind : BuiltinMap.standard.find? .string "startsWith" =
      some (.text "startsWith" (.between 1 (some 2)) .startsWith) := by decide
  have hargs : evalList ctx [x, p] = .ok [needle, position] :=
    evalList_cons hx (evalList_cons hp evalList_nil)
  have hstart := position.clampedIndex_le cs.length
  rw [eval_textMethod hctx hfind hs hargs rfl,
    ← isPrefixOf_drop_eq hstart (foundFrom_indexFrom? hstart)]
  rfl

/-- With the standard builtins the methods agree on the occurrences of every needle in every text,
whatever the position and the replacement. -/
theorem exists_findsOccurrences (hr : eval ctx r = .ok replacement) :
    ∃ i j, FindsOccurrences ctx s x p r cs needle.chars replacement.chars
      (position.clampedIndex cs.length 0) i j := by
  have hone : evalList ctx [x] = .ok [needle] := evalList_cons hx evalList_nil
  have htwo : evalList ctx [x, p] = .ok [needle, position] :=
    evalList_cons hx (evalList_cons hp evalList_nil)
  obtain ⟨hreplaced, hunreplaced⟩ :=
    Builtin.replaceFirst_of_foundFrom needle.chars replacement.chars cs
  refine ⟨_, _, foundFrom_indexFrom? (position.clampedIndex_le cs.length),
    eval_indexOf hctx hs htwo rfl, eval_includes hctx hs hx hp, eval_startsWith hctx hs hx hp,
    foundFrom_indexFrom? (Nat.zero_le _), eval_indexOf hctx hs hone rfl, ?_, ?_, ?_, ?_⟩
  · intro k hk
    rw [eval_replace hctx hs hx hr, hreplaced k hk]
  · intro hnone
    rw [eval_replace hctx hs hx hr, hunreplaced hnone]
  · intro a b m k ha hb hm hk
    have hargs : evalList ctx [a, b] = .ok [.ofInt m, .ofInt k] :=
      evalList_cons ha (evalList_cons hb evalList_nil)
    rw [eval_slice hctx hs hargs rfl, Builtin.apply_slice hm hk]
  · intro a m ha hm
    rw [eval_slice hctx hs (evalList_cons ha evalList_nil) rfl, Builtin.apply_slice_rest hm]

end

/-- A search from a position with a fraction, in a text with characters of several bytes. -/
theorem exists_findsOccurrences_accented :
    let ctx : Context := ⟨.empty, .standard, true⟩
    let s : Expr := .literal (.string "aéaé")
    let x : Expr := .literal (.string "é")
    let p : Expr := .literal (.number (.float 2.5))
    let r : Expr := .literal (.array [.null, .string "→"])
    FindsOccurrences ctx s x p r ['a', 'é', 'a', 'é'] ['é'] [',', '→'] 2 3 1 ∧
      eval ctx (s.method "startsWith" [x, p]) = .ok (.ofBool false) ∧
      eval ctx (s.method "replace" [x, r]) = .ok (.ofString "a,→aé") := by
  intro ctx s x p r
  have hs : eval ctx s = .ok (.ofChars ['a', 'é', 'a', 'é']) := rfl
  have hx : eval ctx x = .ok (.ofChars ['é']) := rfl
  have hp : eval ctx p = .ok (.json (.number (.float 2.5))) := rfl
  have hr : eval ctx r = .ok (.json (.array [.null, .string "→"])) := rfl
  have hstart : (Value.json (.number (.float 2.5))).clampedIndex 4 0 = 2 := by decide +kernel
  obtain ⟨i, j, h⟩ := exists_findsOccurrences rfl hs hx hp hr
  change FindsOccurrences ctx s x p r _ ['é'] [',', '→']
    ((Value.json (.number (.float 2.5))).clampedIndex 4 0) i j at h
  rw [hstart] at h
  have hfound (start : Nat) (hle : start ≤ 4) : FoundFrom ['é'] ['a', 'é', 'a', 'é'] start
      (positionOf (indexFrom? ['é'] start ['a', 'é', 'a', 'é'])) :=
    foundFrom_indexFrom? hle
  obtain rfl : i = 3 := h.found.unique (hfound 2 (by decide))
  obtain rfl : j = 1 := h.foundFirst.unique (hfound 0 (by decide))
  exact ⟨h, h.startsWith, h.replaced 1 rfl⟩

end Expr

end RecordQuery
