import Mathlib
import RecordQuery.Proofs.Grammar.Completeness
import RecordQuery.Proofs.Grammar.Soundness

/-! # Reading an expression

A text is read as a tree exactly if its tokens derive the tree within the depth that is allowed. No
tokens derive two trees, or one tree at two depths.
-/

namespace RecordQuery.Grammar

open RecordQuery.Parser

/-- Tokens derive one tree, at one depth. -/
theorem Derives.unique {ph : Phrase} {ts : List TokenKind} {e e' : Expr} {d d' : Nat}
    (h : Derives ph ts e d) (h' : Derives ph ts e' d') : e = e' ∧ d = d' := by
  have htokens : (ts.map fun kind => (⟨kind, 0⟩ : Token)).map Token.kind = ts := by
    simp [Function.comp_def]
  have hreads := fun n => (h.complete 0).reads n htokens [] (endsAt_nil _)
  have hreads' := fun n => (h'.complete 0).reads n htokens [] (endsAt_nil _)
  constructor
  -- With levels for both derivations, the one result of the parser is both trees.
  · have heq := (hreads (max d d')).eq (Nat.le_max_left d d')
    rw [(hreads' (max d d')).eq (Nat.le_max_right d d')] at heq
    simp only [Except.ok.injEq, Prod.mk.injEq, and_true] at heq
    exact heq.symm
  · -- At the smaller of two different depths, one reading succeeds and the other is refused.
    rcases Nat.lt_trichotomy d d' with hlt | heq | hlt
    · obtain ⟨pos, hpos⟩ := (hreads' d).refused (Nat.not_le_of_lt hlt)
      rw [(hreads d).eq (Nat.le_refl d)] at hpos
      cases hpos
    · exact heq
    · obtain ⟨pos, hpos⟩ := (hreads d').refused (Nat.not_le_of_lt hlt)
      rw [(hreads' d').eq (Nat.le_refl d')] at hpos
      cases hpos

theorem ofTokens_eq {tokens : Tokens} (h : tokens.list ≠ []) :
    Expr.ofTokens tokens =
      (plain ((level tokens.stop Expr.maxDepth).conditional tokens.list)).bind fun q =>
        match q.2 with
        | [] => .ok q.1
        | token :: _ => .error (.unexpectedToken token) := by
  unfold Expr.ofTokens
  split
  next hnil => exact absurd hnil h
  next =>
    cases (level tokens.stop Expr.maxDepth).conditional tokens.list with
    | error e => rfl
    | ok parsed =>
        obtain ⟨value, rest, hrest⟩ := parsed
        cases rest <;> rfl

/-- A derived list of tokens is read as its tree, or refused as too deep. -/
theorem ofTokens_within {tokens : Tokens} {e : Expr} {d : Nat}
    (h : Derives .conditional (tokens.list.map Token.kind) e d) :
    Within Expr.maxDepth d (Expr.ofTokens tokens) (.ok e) := by
  have hne : tokens.list ≠ [] := fun hnil => h.ne_nil (by rw [hnil]; rfl)
  have hreads := (h.complete tokens.stop).reads Expr.maxDepth rfl [] (endsAt_nil _)
  rw [List.append_nil] at hreads
  rw [ofTokens_eq hne]
  exact hreads.andThen rfl

/-- Tokens are read as a tree exactly if they derive it within the depth that is allowed. -/
theorem ofTokens_eq_ok_iff {tokens : Tokens} {e : Expr} :
    Expr.ofTokens tokens = .ok e ↔
      ∃ d ≤ Expr.maxDepth, Derives .conditional (tokens.list.map Token.kind) e d := by
  constructor
  · intro h
    have hne : tokens.list ≠ [] := by
      intro hnil
      simp [Expr.ofTokens, hnil] at h
    rw [ofTokens_eq hne, bind_eq_ok_iff] at h
    obtain ⟨⟨value, rest⟩, hread, hvalue⟩ := h
    obtain ⟨front, d, hfront, hd, hder⟩ :=
      (level_sound tokens.stop Expr.maxDepth).conditional _ _ _ hread
    cases rest with
    | nil =>
        obtain rfl := Except.ok.inj hvalue
        rw [List.append_nil] at hfront
        exact ⟨d, hd, hfront ▸ hder⟩
    | cons token rest => cases hvalue
  · rintro ⟨d, hd, hder⟩
    exact (ofTokens_within hder).eq hd

theorem parse_of_scan {text : String} {tokens : Tokens} (h : Token.scan text = .ok tokens) :
    Expr.parse text = Expr.ofTokens tokens := by
  simp only [Expr.parse, h]

/-- A text that is read has tokens that derive its tree. -/
theorem exists_derives_of_parse {text : String} {e : Expr} (h : Expr.parse text = .ok e) :
    ∃ tokens d, Token.scan text = .ok tokens ∧
      Derives .conditional (tokens.list.map Token.kind) e d := by
  cases hscan : Token.scan text with
  | error err => simp [Expr.parse, hscan] at h
  | ok tokens =>
      rw [parse_of_scan hscan, ofTokens_eq_ok_iff] at h
      obtain ⟨d, -, hder⟩ := h
      exact ⟨tokens, d, rfl, hder⟩

/-- A text with tokens is read as a tree exactly if its tokens derive it with never more than
`Expr.maxDepth` whole expressions and operands of prefix operators open at once. No list of tokens
derives two trees. -/
theorem parse_eq_ok_iff_derives {text : String} {tokens : Tokens}
    (h : Token.scan text = .ok tokens) :
    (∀ e, Expr.parse text = .ok e ↔
      ∃ d ≤ Expr.maxDepth, Derives .conditional (tokens.list.map Token.kind) e d) ∧
    ∀ ts e e' d d', Derives .conditional ts e d → Derives .conditional ts e' d' → e = e' := by
  constructor
  · intro e
    rw [parse_of_scan h]
    exact ofTokens_eq_ok_iff
  · intro ts e e' d d' hder hder'
    exact (hder.unique hder').1

/-- A prefix operator takes one level inside the outermost expression. -/
theorem parse_eq_ok_iff_derives_negation :
    Expr.parse "-a" = .ok (.unary .neg (.ident "a")) := by
  have hscan : Token.scan "-a" = .ok ⟨[⟨.punct .minus, 0⟩, ⟨.ident "a", 1⟩], 2⟩ := by cbv
  have hname : Derives .unary [.ident "a"] (.ident "a") 0 :=
    .unprefixed (.unsuffixed (.name (by decide)))
  exact ((parse_eq_ok_iff_derives hscan).1 _).mpr
    ⟨2, by decide, .whole ((Derives.prefixed .neg hname).chain .or)⟩

end RecordQuery.Grammar
