import RecordQuery.Proofs.Printing.Derivation

/-! # Parentheses in derivations

The tokens of an expression, derived or printed, have matching parentheses, and two lists of tokens
for one expression have the same number of other tokens. So a derivation of printed tokens has its
parts where the printer put them.
-/

namespace RecordQuery.Grammar

/-! ## Matching parentheses -/

/-- The number of open parentheses after a token. -/
def nestOne (depth : Nat) : TokenKind → Option Nat
  | .punct .leftParen => some (depth + 1)
  | .punct .rightParen => if depth = 0 then none else some (depth - 1)
  | _ => some depth

/-- The number of open parentheses after tokens, unless one is closed that is not open. -/
def nest (depth : Nat) (ts : List TokenKind) : Option Nat :=
  ts.foldlM nestOne depth

theorem nest_nil (depth : Nat) : nest depth [] = some depth := rfl

theorem nest_cons (depth : Nat) (t : TokenKind) (ts : List TokenKind) :
    nest depth (t :: ts) = (nestOne depth t).bind fun d => nest d ts := by
  rw [nest, List.foldlM_cons]
  rfl

theorem nest_append (depth : Nat) (ts us : List TokenKind) :
    nest depth (ts ++ us) = (nest depth ts).bind fun d => nest d us := by
  rw [nest, List.foldlM_append]
  rfl

theorem nest_leftParen (depth : Nat) (ts : List TokenKind) :
    nest depth (.punct .leftParen :: ts) = nest (depth + 1) ts := by
  rw [nest_cons]
  rfl

/-- One more parenthesis that is open stays open. -/
theorem nest_succ {ts : List TokenKind} {depth d : Nat} (h : nest depth ts = some d) :
    nest (depth + 1) ts = some (d + 1) := by
  induction ts generalizing depth with
  | nil =>
      rw [nest_nil, Option.some.injEq] at h ⊢
      omega
  | cons t ts ih =>
      rw [nest_cons, Option.bind_eq_some_iff] at h
      obtain ⟨m, hm, hts⟩ := h
      have hone : nestOne (depth + 1) t = some (m + 1) := by
        -- What is closed was open before, so it is open with one more as well.
        unfold nestOne at hm ⊢
        split at hm
        · simp_all
        · split at hm
          · cases hm
          · simp only [Option.some.injEq] at hm ⊢
            simp
            omega
        · simp_all
      rw [nest_cons, hone]
      exact ih hts

/-- Each parenthesis in a list of tokens has its partner there. -/
def Balanced (ts : List TokenKind) : Prop :=
  ∀ depth, nest depth ts = some depth

theorem balanced_nil : Balanced [] := fun _ => rfl

theorem Balanced.append {ts us : List TokenKind} (hts : Balanced ts) (hus : Balanced us) :
    Balanced (ts ++ us) := by
  intro depth
  rw [nest_append, hts depth]
  exact hus depth

theorem Balanced.cons {t : TokenKind} {ts : List TokenKind} (h : Balanced ts)
    (hleft : t ≠ .punct .leftParen) (hright : t ≠ .punct .rightParen) : Balanced (t :: ts) := by
  intro depth
  have hone : nestOne depth t = some depth := by
    unfold nestOne
    split
    · exact absurd rfl hleft
    · exact absurd rfl hright
    · rfl
  rw [nest_cons, hone]
  exact h depth

theorem Balanced.parens {ts : List TokenKind} (h : Balanced ts) :
    Balanced (.punct .leftParen :: (ts ++ [.punct .rightParen])) := by
  intro depth
  rw [nest_leftParen, nest_append, h (depth + 1)]
  simp [nest, nestOne]

/-- What starts with something balanced does not stand in one pair of parentheses. -/
theorem Balanced.ne_parens {ts us vs : List TokenKind} (h : Balanced ts) (hus : Balanced us)
    (hne : us ≠ []) (hvs : vs ≠ []) :
    us ++ vs ≠ .punct .leftParen :: (ts ++ [.punct .rightParen]) := by
  intro heq
  obtain ⟨t, us, rfl⟩ := List.exists_cons_of_ne_nil hne
  rw [List.cons_append, List.cons.injEq] at heq
  obtain ⟨rfl, heq⟩ := heq
  obtain ⟨front, rfl⟩ : ∃ front, ts = us ++ front := by
    refine ⟨vs.dropLast, ?_⟩
    have hdrop := congrArg List.dropLast heq
    rwa [List.dropLast_append_of_ne_nil hvs, List.dropLast_concat, eq_comm] at hdrop
  -- The first parenthesis is closed within `us`, though `us` closes it only at the end.
  have hopen := hus 0
  rw [nest_leftParen] at hopen
  have hwhole := h 0
  rw [nest_append, Option.bind_eq_some_iff] at hwhole
  obtain ⟨d, hd, -⟩ := hwhole
  rw [nest_succ hd] at hopen
  simp at hopen

/-- No parenthesis before the partner of the last one stays open up to it. -/
theorem Balanced.eq_of_leftParen {as bs vs : List TokenKind} (has : Balanced as)
    (hbs : Balanced bs) (h : .punct .leftParen :: as = vs ++ .punct .leftParen :: bs) :
    vs = [] ∧ as = bs := by
  cases vs with
  | nil => exact ⟨rfl, (List.cons.inj h).2⟩
  | cons v vs =>
      rw [List.cons_append, List.cons.injEq] at h
      obtain ⟨rfl, rfl⟩ := h
      have hwhole := has 0
      rw [nest_append, Option.bind_eq_some_iff] at hwhole
      obtain ⟨d, -, hd⟩ := hwhole
      rw [nest_leftParen, hbs (d + 1)] at hd
      cases hd

/-- The last parenthesis of a list of tokens has one partner. -/
theorem Balanced.append_parens_inj {ts us as bs : List TokenKind} (has : Balanced as)
    (hbs : Balanced bs)
    (h : ts ++ .punct .leftParen :: (as ++ [.punct .rightParen]) =
      us ++ .punct .leftParen :: (bs ++ [.punct .rightParen])) : ts = us ∧ as = bs := by
  have hdrop : ts ++ .punct .leftParen :: as = us ++ .punct .leftParen :: bs := by
    rw [← List.cons_append, ← List.cons_append, ← List.append_assoc, ← List.append_assoc] at h
    exact List.append_cancel_right h
  rcases List.append_eq_append_iff.mp hdrop with ⟨vs, hus, heq⟩ | ⟨vs, hts, heq⟩
  · obtain ⟨rfl, hsame⟩ := has.eq_of_leftParen hbs heq
    exact ⟨by simpa using hus.symm, hsame⟩
  · obtain ⟨rfl, hsame⟩ := hbs.eq_of_leftParen has heq
    exact ⟨by simpa using hts, hsame.symm⟩

/-! ## Derived and printed tokens are balanced -/

theorem Operator.ne_paren {l : Precedence} {p : Punct} {build : Expr → Expr → Expr}
    (h : Operator l p build) : p ≠ .leftParen ∧ p ≠ .rightParen := by
  cases h <;> decide

theorem PrefixOperator.ne_paren {p : Punct} {op : UnaryOp} (h : PrefixOperator p op) :
    p ≠ .leftParen ∧ p ≠ .rightParen := by
  cases h <;> decide

theorem Balanced.punct {p : Punct} {ts : List TokenKind} (h : Balanced ts)
    (hp : p ≠ .leftParen ∧ p ≠ .rightParen) : Balanced (.punct p :: ts) :=
  h.cons (by simpa using hp.1) (by simpa using hp.2)

theorem balanced_separated {items : List Item} (h : ∀ a ∈ items, Balanced a.tokens) :
    Balanced (separated items) := by
  induction items with
  | nil => exact balanced_nil
  | cons a items ih =>
      rw [List.forall_mem_cons] at h
      cases items with
      | nil =>
          rw [separated_singleton]
          exact h.1
      | cons b items =>
          rw [separated_cons_cons]
          exact h.1.append ((ih h.2).punct (by decide))

/-- The tokens of a derivation are balanced. -/
theorem Derives.balanced {ph : Phrase} {ts : List TokenKind} {e : Expr} {d : Nat}
    (h : Derives ph ts e d) : Balanced ts := by
  induction h with
  | whole _ ih | operand _ ih | unprefixed _ ih | unsuffixed _ ih => exact ih
  | conditional _ _ _ test consequent alternate =>
      exact test.append ((consequent.append (alternate.punct (by decide))).punct (by decide))
  | operator op _ _ left right => exact left.append (right.punct op.ne_paren)
  | prefixed op _ ih => exact ih.punct op.ne_paren
  | member _ ih =>
      exact ih.append ((balanced_nil.cons (by simp) (by simp)).punct (by decide))
  | index _ _ object inner =>
      exact object.append ((inner.append (balanced_nil.punct (by decide))).punct (by decide))
  | call _ _ callee args => exact callee.append (balanced_separated args).parens
  | parens _ ih => exact ih.parens
  | array _ items =>
      exact ((balanced_separated items).append (balanced_nil.punct (by decide))).punct (by decide)
  | _ => exact balanced_nil.cons (by simp) (by simp)

end RecordQuery.Grammar

namespace RecordQuery.Expr

open Grammar

theorem balanced_enclose {e : Expr} {ws : List Word} (h : Balanced (Word.kinds ws)) :
    Balanced (Word.kinds (enclose e ws)) := by
  unfold enclose
  split
  · simpa [Word.kind?] using h.parens
  · exact h

/-- The tokens of a printed expression are balanced. -/
theorem balanced_words (e : Expr) : Balanced (Word.kinds e.words) := by
  induction e with
  | literal value =>
      rw [words]
      unfold literalWords
      split
      · exact balanced_nil.cons (by simp) (by simp)
      · exact balanced_nil.cons (by simp) (by simp)
      · exact balanced_nil.cons (by simp) (by simp)
      · exact balanced_nil.cons (by simp) (by simp)
      · exact balanced_nil.cons (by simp) (by simp)
      · exact balanced_nil
      · exact balanced_nil
  | undefined => exact balanced_nil.cons (by simp) (by simp)
  | ident name => exact balanced_nil.cons (by simp) (by simp)
  | array items ih =>
      have hitems : ∀ a ∈ items.map item, Balanced a.tokens := List.forall_mem_map.mpr ih
      rw [kinds_words_array]
      exact ((balanced_separated hitems).append (balanced_nil.punct (by decide))).punct (by decide)
  | member object name ih =>
      rw [kinds_words_member]
      exact ih.append ((balanced_nil.cons (by simp) (by simp)).punct (by decide))
  | index object key ihObject ihKey =>
      rw [kinds_words_index]
      exact ihObject.append ((ihKey.append (balanced_nil.punct (by decide))).punct (by decide))
  | call callee args ihCallee ihArgs =>
      have hargs : ∀ a ∈ args.map item, Balanced a.tokens := List.forall_mem_map.mpr ihArgs
      rw [kinds_words_call]
      exact ihCallee.append (balanced_separated hargs).parens
  | unary op operand ih =>
      rw [kinds_words_unary]
      exact (balanced_enclose ih).punct op.prefixOperator.ne_paren
  | binary op left right ihLeft ihRight | logical op left right ihLeft ihRight =>
      rw [kinds_words_between op.operator]
      exact (balanced_enclose ihLeft).append ((balanced_enclose ihRight).punct op.operator.ne_paren)
  | conditional test consequent alternate ihTest ihConsequent ihAlternate =>
      rw [kinds_words_conditional]
      exact (balanced_enclose ihTest).append (((balanced_enclose ihConsequent).append
        ((balanced_enclose ihAlternate).punct (by decide))).punct (by decide))

end RecordQuery.Expr
