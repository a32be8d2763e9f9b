import RecordQuery.Proofs.Floats.Signs

/-! # What the lexer yields

Each identifier is a name, and no number has a sign.
-/

namespace RecordQuery

/-- A token can stand for a word. -/
def TokenKind.Proper : TokenKind → Prop
  | .ident s => IsName s
  | .number x => x.isFinite = true → 0.0 ≤ x
  | _ => True

namespace Token

theorem readNumber_proper {c : Char} {rest : List Char} {lexeme : Lexeme}
    (hc : c ≠ '+' ∧ c ≠ '-') (h : readNumber (c :: rest) = .ok lexeme) : lexeme.kind.Proper := by
  have hsign : ∀ n, ∀ d ∈ ((c :: rest).take n).head?, d ≠ '+' ∧ d ≠ '-' := by
    intro n d hd
    cases n with
    | zero => cases hd
    | succ n =>
        cases hd
        exact hc
  simp only [readNumber] at h
  split at h
  next => cases h
  next =>
    split at h
    next => cases h
    next =>
      split at h
      next x hx =>
        cases h
        exact Decimal.readFloat?_nonneg (hsign _) hx
      next => cases h

theorem readLexeme_proper {pos : Nat} {c : Char} {rest : List Char} {lexeme : Lexeme}
    (h : readLexeme pos c rest = .ok lexeme) : lexeme.kind.Proper := by
  simp only [readLexeme] at h
  -- In the order of the lexer: numbers, strings, names, punctuators.
  split at h
  next hnumber =>
    refine readNumber_proper ?_ h
    constructor <;> rintro rfl <;> simp [Char.isDigit] at hnumber
  next =>
    split at h
    next =>
      obtain ⟨text, -, rfl⟩ := map_eq_ok_iff.mp h
      trivial
    next =>
      split at h
      next hstart =>
        cases h
        refine ⟨c, rest.takeWhile isIdentPart, String.toList_ofList, hstart, ?_⟩
        exact fun d hd => List.all_eq_true.mp List.all_takeWhile d hd
      next =>
        split at h
        next =>
          cases h
          trivial
        next => cases h

theorem scanFrom_proper {pos : Nat} {cs : List Char} {tokens : Tokens}
    (h : scanFrom pos cs = .ok tokens) : ∀ token ∈ tokens.list, token.kind.Proper := by
  fun_induction scanFrom pos cs generalizing tokens with
  | case1 pos =>
      cases h
      nofun
  | case2 pos c rest hblank ih => exact ih h
  | case3 pos c rest hblank err herr => cases h
  | case4 pos c rest hblank lexeme hlexeme err herr => cases h
  | case5 pos c rest hblank lexeme hlexeme stop more hmore =>
      rename_i ih
      cases h
      simp only [List.mem_cons, forall_eq_or_imp]
      exact ⟨readLexeme_proper hlexeme, ih hmore⟩

/-- All tokens of a text are proper. -/
theorem scan_proper {text : String} {tokens : Tokens} (h : scan text = .ok tokens) :
    ∀ token ∈ tokens.list, token.kind.Proper :=
  scanFrom_proper h

end Token

end RecordQuery
