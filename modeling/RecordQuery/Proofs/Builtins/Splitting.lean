import Mathlib
import RecordQuery.Proofs.Builtins.Methods
import RecordQuery.Proofs.Builtins.Positions
import RecordQuery.Proofs.Texts.Occurrences

/-! # Splitting and joining

A text that is split at a separator and joined with it is the same text. The pieces do not have the
separator in them, and a limit keeps the first ones.
-/

namespace RecordQuery

namespace Json

/-- Texts as an array. -/
def ofTexts (texts : List (List Char)) : Json :=
  .array (texts.map fun cs => .string (String.ofList cs))

theorem itemTexts_strings (texts : List (List Char)) :
    itemTexts (texts.map fun cs => .string (String.ofList cs)) = texts := by
  induction texts with
  | nil => rfl
  | cons cs texts ih =>
      have htext : (string (String.ofList cs)).chars = cs := String.toList_ofList
      exact congrArg₂ List.cons htext ih

theorem ofTexts_injective : Function.Injective ofTexts := by
  intro texts others h
  rw [← itemTexts_strings texts, array.inj h, itemTexts_strings]

end Json

namespace Builtin

variable {separator : Value} {cs : List Char}

theorem splitAt_eq_ite (hdefined : separator ≠ .undefined) (cs : List Char) :
    splitAt separator cs = if separator.chars = [] then cs.map fun c => [c]
      else Text.splitOn separator.chars cs := by
  cases separator with
  | undefined => exact absurd rfl hdefined
  | _ => rfl

/-- The pieces at a separator, empty or not, joined with it. -/
theorem join_splitAt (hdefined : separator ≠ .undefined) (cs : List Char) :
    Text.join separator.chars (splitAt separator cs) = cs := by
  rw [splitAt_eq_ite hdefined]
  split
  next hempty => rw [hempty, Text.join_singletons]
  next => exact Text.join_splitOn _ _

theorem apply_join (hdefined : separator ≠ .undefined) (texts : List (List Char)) :
    ArrayFn.apply .join (texts.map fun cs => .string (String.ofList cs)) [separator] =
      .ofChars (Text.join separator.chars texts) := by
  rw [ArrayFn.apply, Json.itemTexts_strings]
  cases separator with
  | undefined => exact absurd rfl hdefined
  | _ => rfl

end Builtin

namespace Expr

variable {ctx : Context} {x sep : Expr} {cs : List Char} {separator : Value}

/-- How a text is split at a separator. Joined with it the pieces are the text again. No piece has a
separator in it, or they are the single characters if the separator is empty. A limit keeps the
first pieces; only where both it and their number exceed `2 ^ 53` does it lose digits. -/
structure SplitsInto (ctx : Context) (x sep : Expr) (cs separator : List Char)
    (pieces : List (List Char)) : Prop where
  split : eval ctx (x.method "split" [sep]) = .ok (.json (.ofTexts pieces))
  joined : eval ctx ((x.method "split" [sep]).method "join" [sep]) = .ok (.ofChars cs)
  apart : separator ≠ [] → ∀ piece ∈ pieces, ¬ separator <:+: piece
  characters : separator = [] → pieces = cs.map fun c => [c]
  limited : ∀ (limit : Expr) (a : Number) (n : Nat), eval ctx limit = .ok (.json (.number a)) →
    a.IsStored → a.value = n → n ≤ 2 ^ 53 ∨ pieces.length ≤ 2 ^ 53 →
    eval ctx (x.method "split" [sep, limit]) = .ok (.json (.ofTexts (pieces.take n)))

theorem eval_split (hctx : ctx.builtins = .standard) (hx : eval ctx x = .ok (.ofChars cs))
    {args : List Expr} {values : List Value} (hargs : evalList ctx args = .ok values)
    (hcount : values.length ≤ 2) : eval ctx (x.method "split" args) =
      .ok (.json (.ofTexts
        (Builtin.limited (Builtin.arg values 1) (Builtin.splitAt (Builtin.arg values 0) cs)))) := by
  have hfind : BuiltinMap.standard.find? .string "split" =
      some (.text "split" (.between 0 (some 2)) .split) := by decide
  rw [eval_textMethod hctx hfind hx hargs (by simpa [Arity.admits] using hcount)]
  rfl

theorem eval_join (hctx : ctx.builtins = .standard) {texts : List (List Char)}
    (hx : eval ctx x = .ok (.json (.ofTexts texts))) (hsep : eval ctx sep = .ok separator)
    (hdefined : separator ≠ .undefined) :
    eval ctx (x.method "join" [sep]) = .ok (.ofChars (Text.join separator.chars texts)) := by
  have hfind : BuiltinMap.standard.find? .array "join" =
      some (.array "join" (.between 0 (some 1)) .join) := by decide
  rw [eval_arrayMethod hctx hfind hx (evalList_cons hsep evalList_nil) rfl,
    Builtin.apply_join hdefined]

/-- With the standard builtins a text is split at every separator that is not undefined. -/
theorem exists_splitsInto (hctx : ctx.builtins = .standard) (hx : eval ctx x = .ok (.ofChars cs))
    (hsep : eval ctx sep = .ok separator) (hdefined : separator ≠ .undefined) :
    ∃ pieces, SplitsInto ctx x sep cs separator.chars pieces := by
  have hsplit : eval ctx (x.method "split" [sep]) =
      .ok (.json (.ofTexts (Builtin.splitAt separator cs))) :=
    eval_split hctx hx (evalList_cons hsep evalList_nil) (Nat.le_succ 1)
  refine ⟨Builtin.splitAt separator cs, hsplit, ?_, ?_, ?_, ?_⟩
  · rw [eval_join hctx hsplit hsep hdefined, Builtin.join_splitAt hdefined]
  · intro hne piece hpiece
    rw [Builtin.splitAt_eq_ite hdefined, if_neg hne] at hpiece
    exact Text.not_infix_of_mem_splitOn hne hpiece
  · intro hempty
    rw [Builtin.splitAt_eq_ite hdefined, if_pos hempty]
  · intro limit a n hlimit ha hv hn
    have hargs : evalList ctx [sep, limit] = .ok [separator, .json (.number a)] :=
      evalList_cons hsep (evalList_cons hlimit evalList_nil)
    rw [eval_split hctx hx hargs (Nat.le_refl 2), Builtin.arg_cons_succ, Builtin.arg_cons_zero,
      Builtin.arg_cons_zero, Builtin.limited_number ha hv hn]

/-- A separator that overlaps with itself is found from the left. -/
theorem exists_splitsInto_overlapping :
    let ctx : Context := ⟨.empty, .standard, true⟩
    let x : Expr := .literal (.string "aaa")
    let sep : Expr := .literal (.string "aa")
    eval ctx (x.method "split" [sep]) = .ok (.json (.array [.string "", .string "a"])) ∧
      eval ctx ((x.method "split" [sep]).method "join" [sep]) = .ok (.ofString "aaa") ∧
      eval ctx (x.method "split" [sep, .literal (.number (.int 1))]) =
        .ok (.json (.array [.string ""])) := by
  intro ctx x sep
  have hx : eval ctx x = .ok (.ofChars ['a', 'a', 'a']) := rfl
  have hsep : eval ctx sep = .ok (.ofChars ['a', 'a']) := rfl
  have hdefined : Value.ofChars ['a', 'a'] ≠ .undefined := by
    intro h
    cases h
  have hsplit : eval ctx (x.method "split" [sep]) = .ok (.json (.ofTexts [[], ['a']])) := by
    have hpieces : Text.splitOn ['a', 'a'] ['a', 'a', 'a'] = [[], ['a']] := by
      simp [Text.splitOn, Text.indexOf?]
    rw [← hpieces]
    exact eval_split rfl hx (evalList_cons hsep evalList_nil) (Nat.le_succ 1)
  obtain ⟨pieces, h⟩ := exists_splitsInto rfl hx hsep hdefined
  obtain rfl : [[], ['a']] = pieces := by
    rw [h.split] at hsplit
    exact Json.ofTexts_injective (Value.json.inj (Except.ok.inj hsplit.symm))
  exact ⟨hsplit, h.joined, h.limited _ _ 1 rfl (by decide) rfl (.inl (by decide))⟩

end Expr

end RecordQuery
