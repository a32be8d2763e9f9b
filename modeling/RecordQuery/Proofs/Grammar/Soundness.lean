import RecordQuery.Proofs.Grammar.Steps

/-! # Parsers read what the grammar derives

Whatever a parser takes from the front of a list of tokens derives the tree that it returns, no
deeper than the levels that it may open.
-/

namespace RecordQuery.Grammar

open RecordQuery.Parser

/-- The tokens in front of `rest` derive a tree, at most `n` levels deep. -/
def Taken (n : Nat) (ph : Phrase) (ts : List Token) (e : Expr) (rest : List Token) : Prop :=
  ∃ front d, ts = front ++ rest ∧ d ≤ n ∧ Derives ph (front.map Token.kind) e d

/-- A parser takes a phrase, at most `n` levels deep, or fails. -/
def Sound (n : Nat) (ph : Phrase) (parser : Parser Expr) : Prop :=
  ∀ ts e rest, plain (parser ts) = .ok (e, rest) → Taken n ph ts e rest

variable {n : Nat}

theorem Taken.operand {l : Precedence} {ts rest : List Token} {e : Expr}
    (h : Taken n l.operand ts e rest) : Taken n (.chain l) ts e rest := by
  obtain ⟨front, d, rfl, hd, hder⟩ := h
  exact ⟨front, d, rfl, hd, .operand hder⟩

/-- What a loop over operators has read so far stands in front of what it goes on with. -/
theorem moreOperands_sound {l : Precedence} {operand : Parser Expr}
    (hoperand : Sound n l.operand operand) {whole ts rest : List Token} {left e : Expr}
    (hleft : Taken n (.chain l) whole left ts)
    (h : moreOperands l.join? operand left ts = .ok (e, rest)) :
    Taken n (.chain l) whole e rest := by
  by_cases hop : ∃ p pos after join, ts = ⟨.punct p, pos⟩ :: after ∧ l.join? p = some join
  -- One more operator and operand are in the part that was read, and fewer tokens remain.
  · obtain ⟨p, pos, after, join, hts, hjoin⟩ := hop
    rw [hts, moreOperands_operator hjoin, bind_eq_ok_iff] at h
    obtain ⟨⟨right, ts'⟩, hright, hmore⟩ := h
    have hlen : ts'.length < ts.length := by
      rw [hts]
      exact Nat.lt_succ_of_lt (length_lt_of_plain hright)
    subst hts
    refine moreOperands_sound hoperand ?_ hmore
    obtain ⟨front, i, rfl, hi, hder⟩ := hleft
    obtain ⟨inner, j, rfl, hj, hder'⟩ := hoperand _ _ _ hright
    refine ⟨front ++ ⟨.punct p, pos⟩ :: inner, max i j, by simp, Nat.max_le.mpr ⟨hi, hj⟩, ?_⟩
    simpa using Derives.operator (join?_eq_some_iff.mp hjoin) hder hder'
  · rw [moreOperands_stop] at h
    · simp only [Except.ok.injEq, Prod.mk.injEq] at h
      obtain ⟨rfl, rfl⟩ := h
      exact hleft
    · intro p pos after hts
      exact Option.eq_none_iff_forall_ne_some.mpr fun join hjoin =>
        hop ⟨p, pos, after, join, hts, hjoin⟩
termination_by ts.length

theorem chain_sound (l : Precedence) {inner : Level}
    (h : Sound n l.operand (l.operand.parser inner)) :
    Sound n (.chain l) ((Phrase.chain l).parser inner) := by
  intro ts e rest hts
  rw [plain_parser_chain, bind_eq_ok_iff] at hts
  obtain ⟨⟨left, ts'⟩, hleft, hmore⟩ := hts
  exact moreOperands_sound h (h _ _ _ hleft).operand hmore

/-- The chains of all precedences are sound if the operands of the tightest are. -/
theorem operators_sound {inner : Level} (h : Sound n .unary (Parser.unary inner)) (l : Precedence) :
    Sound n (.chain l) ((Phrase.chain l).parser inner) := by
  have hproduct := chain_sound .product h
  have hsum := chain_sound .sum hproduct
  have hrelation := chain_sound .relation hsum
  have hequality := chain_sound .equality hrelation
  have hand := chain_sound .and hequality
  cases l with
  | or => exact chain_sound .or hand
  | and => exact hand
  | equality => exact hequality
  | relation => exact hrelation
  | sum => exact hsum
  | product => exact hproduct

/-! ## Lists -/

/-- The tokens in front of `rest` are a list of items and its closing punctuator. -/
def TakenList (n : Nat) (close : Punct) (ts : List Token) (trees : List Expr)
    (rest : List Token) : Prop :=
  ∃ front pos, ∃ args : List Item, ts = front ++ ⟨.punct close, pos⟩ :: rest ∧
    args.map Item.tree = trees ∧ deepest args ≤ n ∧
    (∀ a ∈ args, Derives .conditional a.tokens a.tree a.depth) ∧
    front.map Token.kind = separated args

theorem Taken.list {close : Punct} {ts rest : List Token} {e : Expr} {pos : Nat}
    (h : Taken n .conditional ts e (⟨.punct close, pos⟩ :: rest)) :
    TakenList n close ts [e] rest := by
  obtain ⟨front, d, hts, hd, hder⟩ := h
  exact ⟨front, pos, [⟨front.map Token.kind, e, d⟩], hts, rfl, by simpa using hd,
    by simpa using hder, by simp⟩

/-- One more item and a comma in front of a list. -/
theorem TakenList.cons {close : Punct} {ts after rest : List Token} {e : Expr}
    {others : List Expr} {pos : Nat}
    (hfirst : Taken n .conditional ts e (⟨.punct .comma, pos⟩ :: after))
    (h : TakenList n close after others rest) (hne : others ≠ []) :
    TakenList n close ts (e :: others) rest := by
  obtain ⟨front, d, rfl, hd, hder⟩ := hfirst
  obtain ⟨front', pos', args, rfl, rfl, hdeep, heach, hfront⟩ := h
  obtain ⟨second, args, rfl⟩ := List.exists_cons_of_ne_nil (by simpa using hne)
  refine ⟨front ++ ⟨.punct .comma, pos⟩ :: front', pos',
    ⟨front.map Token.kind, e, d⟩ :: second :: args, by simp, rfl, Nat.max_le.mpr ⟨hd, hdeep⟩,
    List.forall_mem_cons.mpr ⟨hder, heach⟩, ?_⟩
  simp [hfront]

theorem items_sound {item : Parser Expr} (hitem : Sound n .conditional item) {close : Punct}
    {ts rest : List Token} {trees : List Expr}
    (h : plain (items close item ts) = .ok (trees, rest)) :
    trees ≠ [] ∧ TakenList n close ts trees rest := by
  rw [plain_items, bind_eq_ok_iff] at h
  obtain ⟨⟨e, ts'⟩, hread, hnext⟩ := h
  have hlen : ts'.length < ts.length := length_lt_of_plain hread
  have hfirst := hitem _ _ _ hread
  rcases ts' with _ | ⟨⟨kind, pos⟩, after⟩
  · simp at hnext
  · dsimp only at hnext
    split at hnext
    next hclose =>
      subst hclose
      simp only [Except.ok.injEq, Prod.mk.injEq] at hnext
      obtain ⟨rfl, rfl⟩ := hnext
      exact ⟨by simp, hfirst.list⟩
    next =>
      split at hnext
      next hcomma =>
        subst hcomma
        rw [map_eq_ok_iff] at hnext
        obtain ⟨⟨others, rest'⟩, hothers, heq⟩ := hnext
        simp only [Prod.mk.injEq] at heq
        obtain ⟨rfl, rfl⟩ := heq
        have hlt : after.length < ts.length := Nat.lt_of_succ_lt hlen
        obtain ⟨hne, hlist⟩ := items_sound hitem hothers
        exact ⟨by simp, .cons hfirst hlist hne⟩
      next => simp at hnext
termination_by ts.length

theorem listUpTo_sound {item : Parser Expr} (hitem : Sound n .conditional item) {close : Punct}
    {ts rest : List Token} {trees : List Expr}
    (h : plain (listUpTo close item ts) = .ok (trees, rest)) :
    TakenList n close ts trees rest := by
  by_cases hclose : ∃ pos after, ts = ⟨.punct close, pos⟩ :: after
  · obtain ⟨pos, after, rfl⟩ := hclose
    rw [plain_listUpTo_close] at h
    simp only [Except.ok.injEq, Prod.mk.injEq] at h
    obtain ⟨rfl, rfl⟩ := h
    exact ⟨[], pos, [], rfl, rfl, Nat.zero_le n, by simp, rfl⟩
  · rw [plain_listUpTo_items] at h
    · exact (items_sound hitem h).2
    · rintro ⟨kind, pos⟩ hhead rfl
      obtain ⟨after, rfl⟩ := List.head?_eq_some_iff.mp hhead
      exact hclose ⟨pos, after, rfl⟩

/-! ## Suffixes and primary expressions -/

/-- A loop over suffixes that has read `left` goes on with one more suffix. -/
def GoesOn (n : Nat) (conditional : Parser Expr) (whole ts : List Token)
    (r : Except SyntaxError (Expr × List Token)) : Prop :=
  ∃ left ts', Taken n .suffixed whole left ts' ∧ ts'.length < ts.length ∧
    moreSuffixes conditional left ts' = r

section GoesOn

variable {conditional : Parser Expr} {whole after rest : List Token} {left e : Expr} {pos : Nat}

theorem goesOn_member (hleft : Taken n .suffixed whole left (⟨.punct .dot, pos⟩ :: after))
    (h : moreSuffixes conditional left (⟨.punct .dot, pos⟩ :: after) = .ok (e, rest)) :
    GoesOn n conditional whole (⟨.punct .dot, pos⟩ :: after) (.ok (e, rest)) := by
  obtain ⟨front, i, rfl, hi, hder⟩ := hleft
  rcases after with _ | ⟨⟨kind, pos'⟩, after⟩
  · rw [moreSuffixes_eq] at h
    simp [suffix?] at h
  · cases kind with
    | ident name =>
        rw [moreSuffixes_member] at h
        refine ⟨.member left name, after, ?_, Nat.lt_add_of_pos_right (by decide : 0 < 2), h⟩
        refine ⟨front ++ [⟨.punct .dot, pos⟩, ⟨.ident name, pos'⟩], i, by simp, hi, ?_⟩
        simpa using Derives.member hder
    | _ =>
        rw [moreSuffixes_eq] at h
        simp [suffix?] at h

theorem goesOn_index (hcond : Sound n .conditional conditional)
    (hleft : Taken n .suffixed whole left (⟨.punct .leftBracket, pos⟩ :: after))
    (h : moreSuffixes conditional left (⟨.punct .leftBracket, pos⟩ :: after) = .ok (e, rest)) :
    GoesOn n conditional whole (⟨.punct .leftBracket, pos⟩ :: after) (.ok (e, rest)) := by
  obtain ⟨front, i, rfl, hi, hder⟩ := hleft
  rw [moreSuffixes_index, bind_eq_ok_iff] at h
  obtain ⟨⟨key, ts'⟩, hkey, h⟩ := h
  obtain ⟨⟨⟨⟩, after'⟩, hclosed, h⟩ := bind_eq_ok_iff.mp h
  obtain ⟨pos', rfl⟩ := exists_eq_cons_of_plain_expect hclosed
  obtain ⟨inner, j, rfl, hj, hder'⟩ := hcond _ _ _ hkey
  refine ⟨.index left key, after', ?_, ?_, h⟩
  · refine ⟨front ++ ⟨.punct .leftBracket, pos⟩ :: (inner ++ [⟨.punct .rightBracket, pos'⟩]),
      max i j, by simp, Nat.max_le.mpr ⟨hi, hj⟩, ?_⟩
    simpa using Derives.index hder hder'
  · simp only [List.length_cons, List.length_append]
    omega

theorem goesOn_call (hcond : Sound n .conditional conditional)
    (hleft : Taken n .suffixed whole left (⟨.punct .leftParen, pos⟩ :: after))
    (h : moreSuffixes conditional left (⟨.punct .leftParen, pos⟩ :: after) = .ok (e, rest)) :
    GoesOn n conditional whole (⟨.punct .leftParen, pos⟩ :: after) (.ok (e, rest)) := by
  obtain ⟨front, i, rfl, hi, hder⟩ := hleft
  rw [moreSuffixes_call, bind_eq_ok_iff] at h
  obtain ⟨⟨trees, ts'⟩, hargs, h⟩ := h
  obtain ⟨inner, pos', args, rfl, rfl, hdeep, heach, hinner⟩ := listUpTo_sound hcond hargs
  refine ⟨.call left (args.map Item.tree), ts', ?_, ?_, h⟩
  · refine ⟨front ++ ⟨.punct .leftParen, pos⟩ :: (inner ++ [⟨.punct .rightParen, pos'⟩]),
      max i (deepest args), by simp, Nat.max_le.mpr ⟨hi, hdeep⟩, ?_⟩
    simpa [hinner] using Derives.call hder heach
  · simp only [List.length_cons, List.length_append]
    omega

end GoesOn

/-- What a loop over suffixes has read so far stands in front of what it goes on with. -/
theorem moreSuffixes_sound {conditional : Parser Expr} (hcond : Sound n .conditional conditional)
    {whole ts rest : List Token} {left e : Expr} (hleft : Taken n .suffixed whole left ts)
    (h : moreSuffixes conditional left ts = .ok (e, rest)) : Taken n .suffixed whole e rest := by
  by_cases hsuffix : ∃ p pos after, ts = ⟨.punct p, pos⟩ :: after ∧
      (p = .dot ∨ p = .leftBracket ∨ p = .leftParen)
  · have hgoesOn : GoesOn n conditional whole ts (.ok (e, rest)) := by
      obtain ⟨p, pos, after, rfl, rfl | rfl | rfl⟩ := hsuffix
      · exact goesOn_member hleft h
      · exact goesOn_index hcond hleft h
      · exact goesOn_call hcond hleft h
    obtain ⟨left', ts', hleft', hlt, h'⟩ := hgoesOn
    exact moreSuffixes_sound hcond hleft' h'
  · rw [moreSuffixes_stop] at h
    · simp only [Except.ok.injEq, Prod.mk.injEq] at h
      obtain ⟨rfl, rfl⟩ := h
      exact hleft
    · intro p pos after hts
      refine ⟨?_, ?_, ?_⟩ <;> rintro rfl <;> exact hsuffix ⟨_, pos, after, hts, by simp⟩
termination_by ts.length

theorem taken_single {kind : TokenKind} {e : Expr} (h : Derives .primary [kind] e 0) (pos : Nat)
    (after : List Token) : Taken n .primary (⟨kind, pos⟩ :: after) e after :=
  ⟨[⟨kind, pos⟩], 0, rfl, Nat.zero_le n, h⟩

theorem nameExpr_derives (name : String) : Derives .primary [.ident name] (nameExpr name) 0 := by
  unfold nameExpr
  split
  next h => exact h ▸ .true
  next =>
    split
    next h => exact h ▸ .false
    next =>
      split
      next h => exact h ▸ .null
      next =>
        split
        next h => exact h ▸ .undefined
        next => exact .name (by simp_all [reserved])

theorem primary_sound {conditional : Parser Expr} (hcond : Sound n .conditional conditional) :
    Sound n .primary (primary conditional) := by
  intro ts e rest h
  rcases ts with _ | ⟨⟨kind, pos⟩, after⟩
  · simp [primary] at h
  · cases kind with
    | number x =>
        simp only [primary, plain_ok, Except.ok.injEq, Prod.mk.injEq] at h
        obtain ⟨rfl, rfl⟩ := h
        exact taken_single .number pos after
    | string s =>
        simp only [primary, plain_ok, Except.ok.injEq, Prod.mk.injEq] at h
        obtain ⟨rfl, rfl⟩ := h
        exact taken_single .string pos after
    | ident name =>
        simp only [primary, plain_ok, Except.ok.injEq, Prod.mk.injEq] at h
        obtain ⟨rfl, rfl⟩ := h
        exact taken_single (nameExpr_derives name) pos after
    | punct p =>
        cases p with
        | leftParen =>
            rw [plain_primary_parens, bind_eq_ok_iff] at h
            obtain ⟨⟨inner, ts'⟩, hinner, h⟩ := h
            obtain ⟨⟨⟨⟩, after'⟩, hclosed, heq⟩ := map_eq_ok_iff.mp h
            simp only [Prod.mk.injEq] at heq
            obtain ⟨rfl, rfl⟩ := heq
            obtain ⟨pos', rfl⟩ := exists_eq_cons_of_plain_expect hclosed
            obtain ⟨front, d, rfl, hd, hder⟩ := hcond _ _ _ hinner
            refine ⟨⟨.punct .leftParen, pos⟩ :: (front ++ [⟨.punct .rightParen, pos'⟩]), d,
              by simp, hd, ?_⟩
            simpa using Derives.parens hder
        | leftBracket =>
            rw [plain_primary_array, map_eq_ok_iff] at h
            obtain ⟨⟨trees, ts'⟩, hlist, heq⟩ := h
            simp only [Prod.mk.injEq] at heq
            obtain ⟨rfl, rfl⟩ := heq
            obtain ⟨front, pos', args, rfl, rfl, hdeep, heach, hfront⟩ :=
              listUpTo_sound hcond hlist
            refine ⟨⟨.punct .leftBracket, pos⟩ :: (front ++ [⟨.punct .rightBracket, pos'⟩]),
              deepest args, by simp, hdeep, ?_⟩
            simpa [hfront] using Derives.array heach
        | _ => simp [primary] at h

theorem withSuffixes_sound {conditional : Parser Expr} (hcond : Sound n .conditional conditional) :
    Sound n .suffixed (withSuffixes conditional) := by
  intro ts e rest h
  rw [plain_withSuffixes, bind_eq_ok_iff] at h
  obtain ⟨⟨left, ts'⟩, hleft, hmore⟩ := h
  obtain ⟨front, d, hts, hd, hder⟩ := primary_sound hcond _ _ _ hleft
  exact moreSuffixes_sound hcond ⟨front, d, hts, hd, .unsuffixed hder⟩ hmore

/-! ## Levels -/

/-- The parsers of a level are sound: a whole expression takes at most `n` levels, and the operand
of a prefix operator one less. -/
structure LevelSound (n : Nat) (inner : Level) : Prop where
  conditional : Sound n .conditional inner.conditional
  operand : ∀ ts e rest, plain (inner.operand ts) = .ok (e, rest) →
    ∃ front d, ts = front ++ rest ∧ d < n ∧ Derives .unary (front.map Token.kind) e d

theorem unary_sound {inner : Level} (h : LevelSound n inner) :
    Sound n .unary (Parser.unary inner) := by
  intro ts e rest hts
  by_cases hop : ∃ p pos after op, ts = ⟨.punct p, pos⟩ :: after ∧ prefixOp? p = some op
  · obtain ⟨p, pos, after, op, rfl, hop⟩ := hop
    rw [plain_unary_operator hop, map_eq_ok_iff] at hts
    obtain ⟨⟨operand, ts'⟩, hoperand, heq⟩ := hts
    simp only [Prod.mk.injEq] at heq
    obtain ⟨rfl, rfl⟩ := heq
    obtain ⟨front, d, rfl, hd, hder⟩ := h.operand _ _ _ hoperand
    exact ⟨⟨.punct p, pos⟩ :: front, d + 1, rfl, hd,
      .prefixed (prefixOp?_eq_some_iff.mp hop) hder⟩
  · rw [unary_eq_withSuffixes] at hts
    · obtain ⟨front, d, hts, hd, hder⟩ := withSuffixes_sound h.conditional _ _ _ hts
      exact ⟨front, d, hts, hd, .unprefixed hder⟩
    · intro p pos after heq
      exact Option.eq_none_iff_forall_ne_some.mpr fun op hsome =>
        hop ⟨p, pos, after, op, heq, hsome⟩

theorem whole_sound {inner : Level} (h : LevelSound n inner) :
    Sound (n + 1) .conditional (whole inner) := by
  intro ts e rest hts
  rw [plain_whole, bind_eq_ok_iff] at hts
  obtain ⟨⟨test, ts'⟩, htest, hts⟩ := hts
  obtain ⟨front, i, rfl, hi, hder⟩ := operators_sound (unary_sound h) .or _ _ _ htest
  dsimp only at hts
  split at hts
  next =>
    simp only [Except.ok.injEq, Prod.mk.injEq] at hts
    obtain ⟨rfl, rfl⟩ := hts
    exact ⟨front, i + 1, rfl, Nat.succ_le_succ hi, .whole hder⟩
  next question hquestion =>
    obtain ⟨⟨consequent, ts₁⟩, hconsequent, hts⟩ := bind_eq_ok_iff.mp hts
    obtain ⟨⟨⟨⟩, ts₂⟩, hcolon, hts⟩ := bind_eq_ok_iff.mp hts
    obtain ⟨⟨alternate, ts₃⟩, halternate, heq⟩ := map_eq_ok_iff.mp hts
    simp only [Prod.mk.injEq] at heq
    obtain ⟨rfl, rfl⟩ := heq
    obtain ⟨pos, rfl⟩ := exists_eq_cons_of_plain_expect hquestion
    obtain ⟨us, j, hus, hj, hder₁⟩ := h.conditional _ _ _ hconsequent
    obtain ⟨pos', rfl⟩ := exists_eq_cons_of_plain_expect hcolon
    obtain ⟨vs, k, rfl, hk, hder₂⟩ := h.conditional _ _ _ halternate
    refine ⟨front ++ ⟨.punct .question, pos⟩ :: (us ++ ⟨.punct .colon, pos'⟩ :: vs),
      max i (max j k) + 1, by simp [hus], by omega, ?_⟩
    simpa using Derives.conditional hder hder₁ hder₂

/-- Every level reads only what the grammar derives within its number of levels. -/
theorem level_sound (stop n : Nat) : LevelSound n (level stop n) := by
  induction n with
  | zero =>
      -- Where no level is left, both parsers refuse all tokens.
      constructor
      · intro ts e rest h
        simp [level, tooDeep] at h
      · intro ts e rest h
        simp [level, tooDeep] at h
  | succ n ih =>
      constructor
      · exact whole_sound ih
      · intro ts e rest h
        obtain ⟨front, d, hts, hd, hder⟩ := unary_sound ih _ _ _ h
        exact ⟨front, d, hts, Nat.lt_succ_of_le hd, hder⟩

end RecordQuery.Grammar
