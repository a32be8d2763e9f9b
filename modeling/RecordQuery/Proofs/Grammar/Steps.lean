import RecordQuery.Proofs.Grammar
import RecordQuery.Proofs.Results

/-! # What the parsers do, step by step

A parser is seen here as a function from tokens to a value and the tokens that remain. In that view
the chains of operators and the suffixes are loops over the tree that was read so far, and each
parser has one equation for each shape of its input.
-/

namespace RecordQuery

namespace Parser

variable {α β ω : Type}

/-- A value and the tokens after it, without the proof that some were taken. -/
def plain {bound : Nat} (r : Except SyntaxError (Parsed α bound)) :
    Except SyntaxError (α × List Token) :=
  r.map fun p => (p.value, p.rest)

@[simp] theorem plain_ok {bound : Nat} (p : Parsed α bound) :
    plain (.ok p) = .ok (p.value, p.rest) := rfl

@[simp] theorem plain_error {bound : Nat} (e : SyntaxError) :
    plain (.error e : Except SyntaxError (Parsed α bound)) = .error e := rfl

@[simp] theorem plain_map {m n : Nat} (r : Except SyntaxError (Parsed α m)) (f : α → β)
    (h : m ≤ n) :
    plain (r.map fun p => p.map f h) = (plain r).map fun q => (f q.1, q.2) := by
  cases r <;> rfl

/-- A parser takes at least one token. -/
theorem length_lt_of_plain {rest : List Token} {bound : Nat} {a : α}
    {r : Except SyntaxError (Parsed α bound)} (h : plain r = .ok (a, rest)) :
    rest.length < bound := by
  cases r with
  | error e => simp at h
  | ok p =>
      simp only [plain_ok, Except.ok.injEq, Prod.mk.injEq] at h
      exact h.2 ▸ p.fewer

/-! ## Chains of operators -/

/-- The tree that a punctuator builds, if it is an operator of a table. -/
def joinWith (op? : Punct → Option ω) (build : ω → Expr → Expr → Expr) (p : Punct) :
    Option (Expr → Expr → Expr) :=
  (op? p).map build

/-- Goes on with a chain after the operands that make up `left`. -/
def moreOperands (join? : Punct → Option (Expr → Expr → Expr)) (operand : Parser Expr)
    (left : Expr) (ts : List Token) : Except SyntaxError (Expr × List Token) :=
  match ts with
  | ⟨.punct p, pos⟩ :: after =>
      match join? p with
      | none => .ok (left, ⟨.punct p, pos⟩ :: after)
      | some join =>
          match operand after with
          | .error e => .error e
          | .ok next =>
              have := next.fewer
              moreOperands join? operand (join left next.value) next.rest
  | ts => .ok (left, ts)
termination_by ts.length

theorem moreOperands_operator {join? : Punct → Option (Expr → Expr → Expr)} {p : Punct}
    {join : Expr → Expr → Expr} (h : join? p = some join) (operand : Parser Expr) (left : Expr)
    (pos : Nat) (after : List Token) :
    moreOperands join? operand left (⟨.punct p, pos⟩ :: after) =
      (plain (operand after)).bind fun q => moreOperands join? operand (join left q.1) q.2 := by
  rw [moreOperands]
  simp only [h]
  cases operand after <;> rfl

/-- A chain ends before anything but one of its operators. -/
theorem moreOperands_stop {join? : Punct → Option (Expr → Expr → Expr)} {operand : Parser Expr}
    {left : Expr} {ts : List Token}
    (h : ∀ p pos after, ts = ⟨.punct p, pos⟩ :: after → join? p = none) :
    moreOperands join? operand left ts = .ok (left, ts) := by
  rw [moreOperands.eq_def]
  split
  next p pos after => simp [h p pos after rfl]
  next => rfl

theorem plain_chain (op? : Punct → Option ω) (operand : Parser Expr) (ts : List Token) :
    plain (chain op? operand ts) =
      (plain (operand ts)).bind fun first =>
        match first.2 with
        | ⟨.punct p, pos⟩ :: after =>
            match op? p with
            | none => .ok ((first.1, []), ⟨.punct p, pos⟩ :: after)
            | some op =>
                (plain (chain op? operand after)).map fun c =>
                  ((first.1, (op, c.1.1) :: c.1.2), c.2)
        | rest => .ok ((first.1, []), rest) := by
  rw [chain]
  cases operand ts with
  | error e => rfl
  | ok first =>
      obtain ⟨value, rest, hfewer⟩ := first
      rcases rest with _ | ⟨⟨kind, pos⟩, after⟩
      · rfl
      · cases kind with
        | punct p =>
            cases hop : op? p with
            | none => simp [plain, Except.map, Except.bind, hop]
            | some op =>
                simp only [plain, Except.map, Except.bind, hop]
                cases chain op? operand after <;> rfl
        | _ => rfl

/-- Folding a chain is the loop over its operators, whatever is done with its first operand. -/
theorem chain_foldl (op? : Punct → Option ω) (build : ω → Expr → Expr → Expr)
    (operand : Parser Expr) (start : Expr → Expr) (ts : List Token) :
    (plain (chain op? operand ts)).map
        (fun c => (c.1.2.foldl (fun l o => build o.1 l o.2) (start c.1.1), c.2)) =
      (plain (operand ts)).bind fun q =>
        moreOperands (joinWith op? build) operand (start q.1) q.2 := by
  rw [plain_chain]
  -- The recursion is on the tokens after an operator, and `start` is any function there, so that
  -- the operands read so far go into it.
  cases hfirst : plain (operand ts) with
  | error e => rfl
  | ok first =>
      obtain ⟨value, rest⟩ := first
      have hrest : rest.length < ts.length := length_lt_of_plain hfirst
      simp only [Except.bind]
      rcases rest with _ | ⟨⟨kind, pos⟩, after⟩
      · rw [moreOperands_stop (by simp)]
        rfl
      · cases kind with
        | punct p =>
            cases hop : op? p with
            | none =>
                rw [moreOperands_stop (by simp [joinWith, hop])]
                simp [hop, Except.map]
            | some op =>
                have hafter : after.length < ts.length := by
                  simp at hrest
                  omega
                have hjoin : joinWith op? build p = some (build op) := by simp [joinWith, hop]
                rw [moreOperands_operator hjoin,
                  ← chain_foldl op? build operand (fun next => build op (start value) next) after]
                simp only [hop]
                cases plain (chain op? operand after) <;> rfl
        | _ =>
            rw [moreOperands_stop (by simp)]
            rfl
termination_by ts.length

theorem plain_leftGrouped (op? : Punct → Option ω) (build : ω → Expr → Expr → Expr)
    (operand : Parser Expr) (ts : List Token) :
    plain (leftGrouped op? build operand ts) =
      (plain (operand ts)).bind fun q =>
        moreOperands (joinWith op? build) operand q.1 q.2 := by
  rw [leftGrouped, plain_map]
  exact chain_foldl op? build operand (fun e => e) ts

/-! ## Expected punctuators and lists -/

theorem plain_expect (p : Punct) (pos : Nat) (rest : List Token) :
    plain (expect p (⟨.punct p, pos⟩ :: rest)) = .ok ((), rest) := by
  simp [expect]

/-- A punctuator that is taken was there. -/
theorem exists_eq_cons_of_plain_expect {p : Punct} {ts rest : List Token} {u : Unit}
    (h : plain (expect p ts) = .ok (u, rest)) : ∃ pos, ts = ⟨.punct p, pos⟩ :: rest := by
  rcases ts with _ | ⟨⟨kind, pos⟩, after⟩
  · simp [expect] at h
  · simp only [expect] at h
    split at h
    next hkind =>
      simp only [plain_ok, Except.ok.injEq, Prod.mk.injEq, true_and] at h
      exact ⟨pos, by simp_all⟩
    next => simp at h

theorem plain_items (close : Punct) (item : Parser Expr) (ts : List Token) :
    plain (items close item ts) =
      (plain (item ts)).bind fun first =>
        match first.2 with
        | [] => .error .unexpectedEnd
        | token :: after =>
            if token.kind = .punct close then .ok ([first.1], after)
            else if token.kind = .punct .comma then
              (plain (items close item after)).map fun others => (first.1 :: others.1, others.2)
            else .error (.unexpectedToken token) := by
  rw [items]
  cases item ts with
  | error e => rfl
  | ok first =>
      obtain ⟨value, rest, hfewer⟩ := first
      rcases rest with _ | ⟨token, after⟩
      · rfl
      · simp only [plain_ok, Except.bind]
        split
        · rfl
        · split
          · cases items close item after <;> rfl
          · rfl

theorem plain_listUpTo_close (close : Punct) (item : Parser Expr) (pos : Nat)
    (after : List Token) :
    plain (listUpTo close item (⟨.punct close, pos⟩ :: after)) = .ok ([], after) := by
  simp [listUpTo]

theorem plain_listUpTo_items {close : Punct} (item : Parser Expr) {ts : List Token}
    (h : ∀ token ∈ ts.head?, token.kind ≠ .punct close) :
    plain (listUpTo close item ts) = plain (items close item ts) := by
  rcases ts with _ | ⟨⟨kind, pos⟩, after⟩
  · rfl
  · have hkind : kind ≠ .punct close := h ⟨kind, pos⟩ rfl
    simp [listUpTo, hkind]

/-! ## Suffixes -/

/-- Goes on with the suffixes of the expression `e`. -/
def moreSuffixes (conditional : Parser Expr) (e : Expr) (ts : List Token) :
    Except SyntaxError (Expr × List Token) :=
  (plain (suffixes conditional ts)).map fun q => (q.1.foldl Suffix.apply e, q.2)

theorem moreSuffixes_eq (conditional : Parser Expr) (e : Expr) (ts : List Token) :
    moreSuffixes conditional e ts =
      match suffix? conditional ts with
      | .error err => .error err
      | .ok none => .ok (e, ts)
      | .ok (some first) => moreSuffixes conditional (first.value.apply e) first.rest := by
  rw [moreSuffixes, suffixes]
  cases suffix? conditional ts with
  | error err => rfl
  | ok first? =>
      cases first? with
      | none => rfl
      | some first =>
          simp only [moreSuffixes]
          cases suffixes conditional first.rest <;> rfl

theorem moreSuffixes_member (conditional : Parser Expr) (e : Expr) (name : String) (i j : Nat)
    (rest : List Token) :
    moreSuffixes conditional e (⟨.punct .dot, i⟩ :: ⟨.ident name, j⟩ :: rest) =
      moreSuffixes conditional (.member e name) rest := by
  rw [moreSuffixes_eq]
  rfl

theorem moreSuffixes_index (conditional : Parser Expr) (e : Expr) (pos : Nat)
    (after : List Token) :
    moreSuffixes conditional e (⟨.punct .leftBracket, pos⟩ :: after) =
      (plain (conditional after)).bind fun key =>
        (plain (expect .rightBracket key.2)).bind fun closed =>
          moreSuffixes conditional (.index e key.1) closed.2 := by
  rw [moreSuffixes_eq, suffix?]
  cases conditional after with
  | error err => rfl
  | ok key =>
      simp only [plain_ok, Except.bind]
      cases expect .rightBracket key.rest <;> rfl

theorem moreSuffixes_call (conditional : Parser Expr) (e : Expr) (pos : Nat)
    (after : List Token) :
    moreSuffixes conditional e (⟨.punct .leftParen, pos⟩ :: after) =
      (plain (listUpTo .rightParen conditional after)).bind fun args =>
        moreSuffixes conditional (.call e args.1) args.2 := by
  rw [moreSuffixes_eq, suffix?]
  cases listUpTo .rightParen conditional after <;> rfl

/-- Suffixes end before anything that does not open one. -/
theorem moreSuffixes_stop {conditional : Parser Expr} {e : Expr} {ts : List Token}
    (h : ∀ p pos after, ts = ⟨.punct p, pos⟩ :: after →
      p ≠ .dot ∧ p ≠ .leftBracket ∧ p ≠ .leftParen) :
    moreSuffixes conditional e ts = .ok (e, ts) := by
  have hnone : suffix? conditional ts = .ok none := by
    unfold suffix?
    split
    next pos after => exact absurd rfl (h .dot pos after rfl).1
    next pos after => exact absurd rfl (h .leftBracket pos after rfl).2.1
    next pos after => exact absurd rfl (h .leftParen pos after rfl).2.2
    next => rfl
  rw [moreSuffixes_eq, hnone]

theorem plain_withSuffixes (conditional : Parser Expr) (ts : List Token) :
    plain (withSuffixes conditional ts) =
      (plain (primary conditional ts)).bind fun q => moreSuffixes conditional q.1 q.2 := by
  rw [withSuffixes]
  cases primary conditional ts with
  | error e => rfl
  | ok first =>
      simp only [plain_ok, Except.bind, moreSuffixes]
      cases suffixes conditional first.rest <;> rfl

/-! ## Primary expressions, operands and whole expressions -/

theorem plain_primary_parens (conditional : Parser Expr) (pos : Nat) (after : List Token) :
    plain (primary conditional (⟨.punct .leftParen, pos⟩ :: after)) =
      (plain (conditional after)).bind fun inner =>
        (plain (expect .rightParen inner.2)).map fun closed => (inner.1, closed.2) := by
  rw [primary]
  cases conditional after with
  | error e => rfl
  | ok inner =>
      simp only [plain_ok, Except.bind]
      cases expect .rightParen inner.rest <;> rfl

theorem plain_primary_array (conditional : Parser Expr) (pos : Nat) (after : List Token) :
    plain (primary conditional (⟨.punct .leftBracket, pos⟩ :: after)) =
      (plain (listUpTo .rightBracket conditional after)).map fun list =>
        (.array list.1, list.2) := by
  rw [primary]
  cases listUpTo .rightBracket conditional after <;> rfl

theorem plain_unary_operator {inner : Level} {p : Punct} {op : UnaryOp}
    (h : prefixOp? p = some op) (pos : Nat) (after : List Token) :
    plain (unary inner (⟨.punct p, pos⟩ :: after)) =
      (plain (inner.operand after)).map fun operand => (.unary op operand.1, operand.2) := by
  simp only [unary, h, plain_map]

theorem unary_eq_withSuffixes {inner : Level} {ts : List Token}
    (h : ∀ p pos after, ts = ⟨.punct p, pos⟩ :: after → prefixOp? p = none) :
    unary inner ts = withSuffixes inner.conditional ts := by
  unfold unary
  split
  next p pos after => rw [h p pos after rfl]
  next => rfl

theorem plain_whole (inner : Level) (ts : List Token) :
    plain (whole inner ts) =
      (plain (operators (unary inner) ts)).bind fun test =>
        match plain (expect .question test.2) with
        | .error _ => .ok test
        | .ok question =>
            (plain (inner.conditional question.2)).bind fun consequent =>
              (plain (expect .colon consequent.2)).bind fun colon =>
                (plain (inner.conditional colon.2)).map fun alternate =>
                  (.conditional test.1 consequent.1 alternate.1, alternate.2) := by
  rw [whole]
  cases operators (unary inner) ts with
  | error e => rfl
  | ok test =>
      simp only [plain_ok, Except.bind]
      cases expect .question test.rest with
      | error e => rfl
      | ok question =>
          simp only [plain_ok]
          cases inner.conditional question.rest with
          | error e => rfl
          | ok consequent =>
              simp only [plain_ok]
              cases expect .colon consequent.rest with
              | error e => rfl
              | ok colon =>
                  simp only [plain_ok]
                  cases inner.conditional colon.rest <;> rfl

end Parser

namespace Grammar

open RecordQuery.Parser

/-! ## The parsers of phrases -/

/-- The tree that a punctuator builds, if it is an operator of a precedence. -/
def Precedence.join? : Precedence → Punct → Option (Expr → Expr → Expr)
  | or => joinWith orOp? .logical
  | and => joinWith andOp? .logical
  | equality => joinWith equalityOp? .binary
  | relation => joinWith relationOp? .binary
  | sum => joinWith sumOp? .binary
  | product => joinWith productOp? .binary

theorem join?_eq_some_iff {l : Precedence} {p : Punct} {build : Expr → Expr → Expr} :
    l.join? p = some build ↔ Operator l p build := by
  constructor
  · intro h
    cases l <;> cases p <;>
      simp only [Precedence.join?, joinWith, orOp?, andOp?, equalityOp?, relationOp?, sumOp?,
        productOp?, Option.map_some, Option.map_none, Option.some.injEq, reduceCtorEq] at h <;>
      subst h <;> constructor
  · rintro ⟨⟩ <;> rfl

theorem prefixOp?_eq_some_iff {p : Punct} {op : UnaryOp} :
    prefixOp? p = some op ↔ PrefixOperator p op := by
  constructor
  · intro h
    cases p <;> simp only [prefixOp?, Option.some.injEq, reduceCtorEq] at h <;>
      subst h <;> constructor
  · rintro ⟨⟩ <;> rfl

/-- The parser of a phrase that may open the levels below `inner`. -/
def Phrase.parser (inner : Level) : Phrase → Parser Expr
  | conditional => inner.conditional
  | chain .or => operators (Parser.unary inner)
  | chain .and =>
      leftGrouped andOp? .logical <| leftGrouped equalityOp? .binary <|
      leftGrouped relationOp? .binary <| leftGrouped sumOp? .binary <|
      leftGrouped productOp? .binary (Parser.unary inner)
  | chain .equality =>
      leftGrouped equalityOp? .binary <| leftGrouped relationOp? .binary <|
      leftGrouped sumOp? .binary <| leftGrouped productOp? .binary (Parser.unary inner)
  | chain .relation =>
      leftGrouped relationOp? .binary <| leftGrouped sumOp? .binary <|
      leftGrouped productOp? .binary (Parser.unary inner)
  | chain .sum =>
      leftGrouped sumOp? .binary <| leftGrouped productOp? .binary (Parser.unary inner)
  | chain .product => leftGrouped productOp? .binary (Parser.unary inner)
  | unary => Parser.unary inner
  | suffixed => withSuffixes inner.conditional
  | primary => Parser.primary inner.conditional

/-- A chain reads an operand and goes on with the operators of its precedence. -/
theorem plain_parser_chain (l : Precedence) (inner : Level) (ts : List Token) :
    plain ((Phrase.chain l).parser inner ts) =
      (plain (l.operand.parser inner ts)).bind fun q =>
        moreOperands l.join? (l.operand.parser inner) q.1 q.2 := by
  cases l <;> exact plain_leftGrouped _ _ _ ts

end Grammar

end RecordQuery
