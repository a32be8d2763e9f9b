import RecordQuery.Proofs.Printing.Brackets

/-! # Operator expressions before suffixes

A suffix belongs to the last operand of what stands before it. So the printed tokens of an
expression derive it only if no head of a suffix is an operator expression.
-/

namespace RecordQuery

namespace Grammar

/-! ## Counting tokens -/

/-- Whether a token is a parenthesis. -/
def isParen : TokenKind → Bool
  | .punct .leftParen | .punct .rightParen => true
  | _ => false

/-- The number of tokens that are no parentheses. -/
def weight (ts : List TokenKind) : Nat :=
  ts.countP fun t => !isParen t

@[simp] theorem weight_nil : weight [] = 0 := rfl

theorem weight_cons (t : TokenKind) (ts : List TokenKind) :
    weight (t :: ts) = weight ts + if isParen t then 0 else 1 := by
  rw [weight, List.countP_cons, weight]
  cases isParen t <;> rfl

/-- Lists of tokens part in one place after a given weight. -/
theorem append_cons_inj {ts us as bs : List TokenKind} {t u : TokenKind}
    (h : ts ++ t :: as = us ++ u :: bs) (hweight : weight ts = weight us) (ht : isParen t = false)
    (hu : isParen u = false) : ts = us ∧ t = u ∧ as = bs := by
  induction ts generalizing us with
  | nil =>
      cases us with
      | nil => simpa using h
      | cons v us =>
          obtain ⟨rfl, -⟩ := List.cons.inj h
          simp [weight_cons, ht] at hweight
  | cons v ts ih =>
      cases us with
      | nil =>
          obtain ⟨rfl, -⟩ := List.cons.inj h
          simp [weight_cons, hu] at hweight
      | cons w us =>
          rw [List.cons_append, List.cons_append, List.cons.injEq] at h
          obtain ⟨rfl, h⟩ := h
          rw [weight_cons, weight_cons, Nat.add_right_cancel_iff] at hweight
          obtain ⟨rfl, htu⟩ := ih h hweight
          exact ⟨rfl, htu⟩

theorem Operator.isParen_eq_false {l : Precedence} {p : Punct} {build : Expr → Expr → Expr}
    (h : Operator l p build) : isParen (.punct p) = false := by
  cases h <;> rfl

end Grammar

namespace Expr

open Grammar

/-- Tokens that are counted alike in all derivations of an expression. Parentheses are not counted,
and a number that is too large counts as the null that it becomes. -/
structure Counted (p : TokenKind → Bool) : Prop where
  leftParen : p (.punct .leftParen) = false
  rightParen : p (.punct .rightParen) = false
  number : ∀ x, p (.number x) = p (.ident "null")

section Counted

variable {p : TokenKind → Bool}

theorem countP_enclose (hp : Counted p) (e : Expr) :
    (Word.kinds (enclose e e.words)).countP p = (Word.kinds e.words).countP p := by
  unfold enclose
  split
  · simp [Word.kind?, hp.leftParen, hp.rightParen]
  · rfl

theorem countP_separated {args : List Item}
    (h : ∀ a ∈ args, a.tokens.countP p = (Word.kinds a.tree.words).countP p) :
    (separated args).countP p = (separated ((args.map Item.tree).map item)).countP p := by
  induction args with
  | nil => rfl
  | cons a args ih =>
      rw [List.forall_mem_cons] at h
      cases args with
      | nil => simpa [item] using h.1
      | cons b args =>
          have hothers := ih h.2
          rw [List.map_cons, List.map_cons] at hothers ⊢
          rw [List.map_cons, List.map_cons, separated_cons_cons, separated_cons_cons,
            List.countP_append, List.countP_append, List.countP_cons, List.countP_cons, hothers,
            h.1]
          rfl

/-- Each derivation of an expression has as many counted tokens as the printed expression. -/
theorem countP_eq_of_derives (hp : Counted p) {ph : Phrase} {ts : List TokenKind} {e : Expr}
    {d : Nat} (h : Derives ph ts e d) : ts.countP p = (Word.kinds e.words).countP p := by
  induction h with
  | whole _ ih | operand _ ih | unprefixed _ ih | unsuffixed _ ih => exact ih
  | conditional _ _ _ test consequent alternate =>
      -- Only parentheses differ between a derivation and the printed tokens, and they do not count.
      rw [kinds_words_conditional]
      simp only [List.countP_append, List.countP_cons, countP_enclose hp, test, consequent,
        alternate]
  | operator op _ _ left right =>
      rw [kinds_words_between op]
      simp only [List.countP_append, List.countP_cons, countP_enclose hp, left, right]
  | prefixed op _ ih =>
      rw [kinds_words_unary, ← op.eq_punct]
      simp only [List.countP_cons, countP_enclose hp, ih]
  | member _ ih => rw [kinds_words_member, List.countP_append, List.countP_append, ih]
  | index _ _ object inner =>
      rw [kinds_words_index]
      simp only [List.countP_append, List.countP_cons, object, inner]
  | call _ _ callee args =>
      rw [kinds_words_call]
      simp only [List.countP_append, List.countP_cons, callee, countP_separated args]
  | parens _ ih => simp [hp.leftParen, hp.rightParen, ih]
  | array _ items =>
      rw [kinds_words_array]
      simp only [List.countP_append, List.countP_cons, countP_separated items]
  | @number x =>
      -- A number that is not finite is printed as `null`.
      rw [words]
      unfold Json.ofFloat
      split <;> simp [literalWords, Word.kind?, List.countP_cons, hp.number]
  | _ => rfl

end Counted

theorem counted_weight : Counted fun t => !isParen t :=
  ⟨rfl, rfl, fun _ => rfl⟩

theorem counted_dot : Counted (· == .punct .dot) :=
  ⟨rfl, rfl, fun _ => rfl⟩

theorem weight_eq {ph : Phrase} {ts : List TokenKind} {e : Expr} {d : Nat}
    (h : Derives ph ts e d) : weight ts = weight (Word.kinds e.words) :=
  countP_eq_of_derives counted_weight h

theorem weight_eq_enclose {ph : Phrase} {ts : List TokenKind} {e : Expr} {d : Nat}
    (h : Derives ph ts e d) : weight ts = weight (Word.kinds (enclose e e.words)) :=
  (weight_eq h).trans (countP_enclose counted_weight e).symm

/-! ## Printed tokens do not stand in parentheses -/

theorem kinds_words_ne_nil {e : Expr} (h : Legible e) : Word.kinds e.words ≠ [] := by
  cases e with
  | literal value =>
      cases value with
      | bool b => cases b <;> simp [words, literalWords, Word.kind?]
      | array | object => exact h.elim
      | _ => simp [words, literalWords, Word.kind?]
  | _ => simp [words, Word.kind?]

theorem kinds_enclose_ne_nil {e : Expr} (h : Legible e) :
    Word.kinds (enclose e e.words) ≠ [] := by
  unfold enclose
  split
  · simp [Word.kind?]
  · exact kinds_words_ne_nil h

/-- The tokens of a printed expression are not those of an expression in parentheses. -/
theorem kinds_words_ne_parens {e : Expr} (h : Everywhere Legible e) {ts : List TokenKind}
    (hts : Balanced ts) :
    Word.kinds e.words ≠ .punct .leftParen :: (ts ++ [.punct .rightParen]) := by
  -- A parenthesis at the start belongs to the first part, and more stands after that part.
  cases e with
  | literal value =>
      have hvalue := h.here
      cases value with
      | bool b => cases b <;> simp [words, literalWords, Word.kind?]
      | array | object => exact hvalue.elim
      | _ => simp [words, literalWords, Word.kind?]
  | undefined | ident name => simp [words, Word.kind?]
  | array items =>
      rw [kinds_words_array]
      simp
  | member object name =>
      rw [Everywhere.member_iff] at h
      rw [kinds_words_member]
      exact hts.ne_parens object.balanced_words (kinds_words_ne_nil h.2.here) (by simp)
  | index object key =>
      rw [Everywhere.index_iff] at h
      rw [kinds_words_index]
      exact hts.ne_parens object.balanced_words (kinds_words_ne_nil h.2.1.here) (by simp)
  | call callee args =>
      rw [Everywhere.call_iff] at h
      rw [kinds_words_call]
      exact hts.ne_parens callee.balanced_words (kinds_words_ne_nil h.2.1.here) (by simp)
  | unary op operand =>
      rw [kinds_words_unary]
      have hparen := op.prefixOperator.ne_paren.1
      simp [hparen]
  | binary op left right =>
      rw [Everywhere.binary_iff] at h
      rw [kinds_words_between op.operator]
      exact hts.ne_parens (balanced_enclose left.balanced_words)
        (kinds_enclose_ne_nil h.2.1.here) (by simp)
  | logical op left right =>
      rw [Everywhere.logical_iff] at h
      rw [kinds_words_between op.operator]
      exact hts.ne_parens (balanced_enclose left.balanced_words)
        (kinds_enclose_ne_nil h.2.1.here) (by simp)
  | conditional test consequent alternate =>
      rw [Everywhere.conditional_iff] at h
      rw [kinds_words_conditional]
      exact hts.ne_parens (balanced_enclose test.balanced_words)
        (kinds_enclose_ne_nil h.2.1.here) (by simp)

/-- A suffixed expression that is an operator expression stands in parentheses. -/
theorem exists_parens_of_isOperator {ts : List TokenKind} {e : Expr} {d : Nat}
    (h : Derives .suffixed ts e d) (hoperator : e.isOperator = true) :
    ∃ us, Balanced us ∧ ts = .punct .leftParen :: (us ++ [.punct .rightParen]) := by
  cases h with
  | unsuffixed h =>
      cases h with
      | parens inner => exact ⟨_, inner.balanced, rfl⟩
      | _ => cases hoperator
  | _ => cases hoperator

/-- What stands before a suffix in printed tokens is no operator expression. -/
theorem isOperator_eq_false {e : Expr} {d : Nat} (hlegible : Everywhere Legible e)
    (h : Derives .suffixed (Word.kinds e.words) e d) : e.isOperator = false := by
  rw [Bool.eq_false_iff]
  intro hoperator
  obtain ⟨us, hus, heq⟩ := exists_parens_of_isOperator h hoperator
  exact kinds_words_ne_parens hlegible hus heq

/-! ## Derivations of printed tokens -/

/-- Tokens are the printed ones of an expression, or the printed ones in parentheses. -/
def Printed (ts : List TokenKind) (e : Expr) : Prop :=
  ts = Word.kinds e.words ∨
    ts = .punct .leftParen :: (Word.kinds e.words ++ [.punct .rightParen])

theorem Printed.of_enclose {ts : List TokenKind} {e : Expr}
    (h : ts = Word.kinds (enclose e e.words)) : Printed ts e := by
  unfold enclose at h
  split at h
  · exact .inr (by simpa [Word.kind?] using h)
  · exact .inl h

/-- Derived tokens that start with an expression and go on are not in parentheses. -/
theorem Printed.eq_of_append {ts us : List TokenKind} {e : Expr} (h : Printed (ts ++ us) e)
    (hts : Balanced ts) (hne : ts ≠ []) (hus : us ≠ []) : ts ++ us = Word.kinds e.words := by
  rcases h with h | h
  · exact h
  · exact absurd h (e.balanced_words.ne_parens hts hne hus)

/-- The items of a printed list are printed items. -/
theorem tokens_eq_of_separated {args : List Item}
    (hweight : ∀ a ∈ args, weight a.tokens = weight (Word.kinds a.tree.words))
    (h : separated args = separated ((args.map Item.tree).map item)) :
    ∀ a ∈ args, a.tokens = Word.kinds a.tree.words := by
  induction args with
  | nil => simp
  | cons a args ih =>
      rw [List.forall_mem_cons] at hweight ⊢
      cases args with
      | nil => exact ⟨by simpa [item] using h, by simp⟩
      | cons b args =>
          rw [List.map_cons, List.map_cons, List.map_cons, List.map_cons, separated_cons_cons,
            separated_cons_cons] at h
          obtain ⟨hfirst, -, hothers⟩ := append_cons_inj h hweight.1 rfl rfl
          exact ⟨hfirst, ih hweight.2 hothers⟩

theorem headStands_between {l : Precedence} {p : Punct} {build : Expr → Expr → Expr}
    (h : Operator l p build) (left right : Expr) : HeadStands (build left right) := by
  rcases h.build_eq with ⟨op, rfl, -⟩ | ⟨op, rfl, -⟩
  · trivial
  · trivial

/-- Printed tokens derive an expression only if the heads of its suffixes stand. -/
theorem headsStand {ph : Phrase} {ts : List TokenKind} {e : Expr} {d : Nat}
    (h : Derives ph ts e d) (hprinted : Printed ts e) (hlegible : Everywhere Legible e) :
    Everywhere HeadStands e := by
  -- The parts of a derivation weigh what the printed parts weigh, so both lists part in the same
  -- places and the parts are printed tokens again.
  induction h with
  | whole _ ih | operand _ ih | unprefixed _ ih | unsuffixed _ ih => exact ih hprinted hlegible
  | conditional test consequent alternate ihTest ihConsequent ihAlternate =>
      rw [Everywhere.conditional_iff] at hlegible ⊢
      have htokens := hprinted.eq_of_append test.balanced test.ne_nil (by simp)
      rw [kinds_words_conditional] at htokens
      obtain ⟨htest, -, htokens⟩ := append_cons_inj htokens
        (weight_eq_enclose test) rfl rfl
      obtain ⟨hconsequent, -, halternate⟩ := append_cons_inj htokens
        (weight_eq_enclose consequent) rfl rfl
      exact ⟨trivial, ihTest (.of_enclose htest) hlegible.2.1,
        ihConsequent (.of_enclose hconsequent) hlegible.2.2.1,
        ihAlternate (.of_enclose halternate) hlegible.2.2.2⟩
  | operator op left right ihLeft ihRight =>
      rw [everywhere_between op] at hlegible ⊢
      have htokens := hprinted.eq_of_append left.balanced left.ne_nil (by simp)
      rw [kinds_words_between op] at htokens
      obtain ⟨hleft, -, hright⟩ := append_cons_inj htokens
        (weight_eq_enclose left) op.isParen_eq_false op.isParen_eq_false
      exact ⟨headStands_between op _ _, ihLeft (.of_enclose hleft) hlegible.2.1,
        ihRight (.of_enclose hright) hlegible.2.2⟩
  | prefixed op operand ih =>
      rw [Everywhere.unary_iff] at hlegible ⊢
      rcases hprinted with htokens | htokens
      · rw [kinds_words_unary] at htokens
        exact ⟨trivial, ih (.of_enclose (List.cons.inj htokens).2) hlegible.2⟩
      · have hparen := (List.cons.inj htokens).1
        rw [TokenKind.punct.injEq] at hparen
        exact absurd hparen op.ne_paren.1
  | member object ih =>
      rw [Everywhere.member_iff] at hlegible ⊢
      have htokens := hprinted.eq_of_append object.balanced object.ne_nil (by simp)
      rw [kinds_words_member] at htokens
      obtain rfl := List.append_cancel_right htokens
      exact ⟨isOperator_eq_false hlegible.2 object, ih (.inl rfl) hlegible.2⟩
  | index object inner ihObject ihKey =>
      rw [Everywhere.index_iff] at hlegible ⊢
      have htokens := hprinted.eq_of_append object.balanced object.ne_nil (by simp)
      rw [kinds_words_index] at htokens
      obtain ⟨rfl, -, htokens⟩ := append_cons_inj htokens (weight_eq object) rfl rfl
      obtain rfl := List.append_cancel_right htokens
      exact ⟨isOperator_eq_false hlegible.2.1 object, ihObject (.inl rfl) hlegible.2.1,
        ihKey (.inl rfl) hlegible.2.2⟩
  | call callee each ihCallee ihArgs =>
      rw [Everywhere.call_iff, List.forall_mem_map] at hlegible ⊢
      have htokens := hprinted.eq_of_append callee.balanced callee.ne_nil (by simp)
      rw [kinds_words_call] at htokens
      -- The parenthesis weighs nothing, so the list is found from what closes it.
      obtain ⟨rfl, hargs⟩ := Balanced.append_parens_inj
        (balanced_separated fun a ha => (each a ha).balanced)
        (balanced_separated (List.forall_mem_map.mpr fun e _ => e.balanced_words)) htokens
      have hitems := tokens_eq_of_separated (fun a ha => weight_eq (each a ha)) hargs
      exact ⟨isOperator_eq_false hlegible.2.1 callee, ihCallee (.inl rfl) hlegible.2.1,
        fun a ha => ihArgs a ha (.inl (hitems a ha)) (hlegible.2.2 a ha)⟩
  | parens inner ih =>
      rcases hprinted with htokens | htokens
      · exact absurd htokens.symm (kinds_words_ne_parens hlegible inner.balanced)
      · rw [List.cons.injEq] at htokens
        exact ih (.inl (List.append_cancel_right htokens.2)) hlegible
  | array each ih =>
      rw [Everywhere.array_iff, List.forall_mem_map] at hlegible ⊢
      rcases hprinted with htokens | htokens
      · rw [kinds_words_array, List.cons.injEq] at htokens
        have hitems := tokens_eq_of_separated (fun a ha => weight_eq (each a ha))
          (List.append_cancel_right htokens.2)
        exact ⟨trivial, fun a ha => ih a ha (.inl (hitems a ha)) (hlegible.2 a ha)⟩
      · simp at htokens
  | _ => simp [HeadStands]

end Expr

end RecordQuery
