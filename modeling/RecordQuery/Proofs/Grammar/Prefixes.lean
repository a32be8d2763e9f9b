import Mathlib
import RecordQuery.Proofs.Grammar.Lookahead
import RecordQuery.Proofs.Grammar.Parsing

/-! # The first token that cannot stand where it stands

Whatever is open when a parser refuses a token (parentheses, lists, suffixes, operators and
conditionals), the tokens before it begin a phrase within the levels that may be opened. So a
refused token is the first one with which the tokens stop being the beginning of an expression.
-/

namespace RecordQuery.Grammar

open RecordQuery.Parser

variable {n : Nat}

/-! ## Beginnings of phrases -/

/-- Tokens that go on to a phrase, at most `n` levels deep. -/
def Begins (n : Nat) (ph : Phrase) (us : List TokenKind) : Prop :=
  ∃ vs e d, d ≤ n ∧ Derives ph (us ++ vs) e d

/-- Tokens that go on to a list of items, one at least, and its closing punctuator. -/
def BeginsItems (n : Nat) (close : Punct) (us : List TokenKind) : Prop :=
  ∃ vs, ∃ args : List Item, args ≠ [] ∧ deepest args ≤ n ∧
    (∀ a ∈ args, Derives .conditional a.tokens a.tree a.depth) ∧
    us ++ vs = separated args ++ [.punct close]

section Beginnings

variable {us ws : List TokenKind} {e : Expr} {d : Nat} {l : Precedence} {p close : Punct}

theorem Derives.begins {ph : Phrase} (h : Derives ph us e d) (hd : d ≤ n) : Begins n ph us :=
  ⟨[], e, d, hd, by rwa [List.append_nil]⟩

/-- A name is a phrase of any kind that opens no level. -/
theorem derives_name : Derives .primary [.ident "a"] (.ident "a") 0 :=
  .name (by decide)

theorem begins_primary : Begins n .primary [] :=
  ⟨_, _, 0, Nat.zero_le n, derives_name⟩

theorem Begins.unsuffixed (h : Begins n .primary us) : Begins n .suffixed us := by
  obtain ⟨vs, e, d, hd, hder⟩ := h
  exact ⟨vs, e, d, hd, .unsuffixed hder⟩

theorem Begins.unprefixed (h : Begins n .suffixed us) : Begins n .unary us := by
  obtain ⟨vs, e, d, hd, hder⟩ := h
  exact ⟨vs, e, d, hd, .unprefixed hder⟩

theorem Begins.operand (h : Begins n l.operand us) : Begins n (.chain l) us := by
  obtain ⟨vs, e, d, hd, hder⟩ := h
  exact ⟨vs, e, d, hd, .operand hder⟩

theorem Begins.whole (h : Begins n (.chain .or) us) : Begins (n + 1) .conditional us := by
  obtain ⟨vs, e, d, hd, hder⟩ := h
  exact ⟨vs, e, d + 1, Nat.succ_le_succ hd, .whole hder⟩

theorem Begins.operator {build : Expr → Expr → Expr} (op : Operator l p build)
    (hleft : Derives (.chain l) us e d) (hd : d ≤ n) (h : Begins n l.operand ws) :
    Begins n (.chain l) (us ++ .punct p :: ws) := by
  obtain ⟨vs, right, j, hj, hright⟩ := h
  refine ⟨vs, build e right, max d j, Nat.max_le.mpr ⟨hd, hj⟩, ?_⟩
  simpa using Derives.operator op hleft hright

theorem begins_member (hobject : Derives .suffixed us e d) (hd : d ≤ n) :
    Begins n .suffixed (us ++ [.punct .dot]) := by
  refine ⟨[.ident "a"], .member e "a", d, hd, ?_⟩
  simpa using Derives.member hobject

theorem Begins.index (hobject : Derives .suffixed us e d) (hd : d ≤ n)
    (h : Begins n .conditional ws) : Begins n .suffixed (us ++ .punct .leftBracket :: ws) := by
  obtain ⟨vs, key, j, hj, hkey⟩ := h
  refine ⟨vs ++ [.punct .rightBracket], .index e key, max d j, Nat.max_le.mpr ⟨hd, hj⟩, ?_⟩
  simpa using Derives.index hobject hkey

/-- A whole expression is itself one level. -/
theorem Derives.depth_pos (h : Derives .conditional us e d) : 0 < d := by
  cases h with
  | whole | conditional => exact Nat.succ_pos _

theorem Begins.consequent (htest : Derives (.chain .or) us e d) (hd : d ≤ n)
    (h : Begins n .conditional ws) :
    Begins (n + 1) .conditional (us ++ .punct .question :: ws) := by
  obtain ⟨vs, y, j, hj, hconsequent⟩ := h
  have halternate : Derives .conditional [.ident "a"] (.ident "a") 1 :=
    (Derives.unsuffixed derives_name).asWhole
  have hpos := hconsequent.depth_pos
  refine ⟨vs ++ [.punct .colon, .ident "a"], .conditional e y (.ident "a"), max d (max j 1) + 1,
    by omega, ?_⟩
  simpa using Derives.conditional htest hconsequent halternate

theorem Begins.alternate {cs : List TokenKind} {y : Expr} {j : Nat}
    (htest : Derives (.chain .or) us e d) (hd : d ≤ n) (hconsequent : Derives .conditional cs y j)
    (hj : j ≤ n) (h : Begins n .conditional ws) :
    Begins (n + 1) .conditional (us ++ .punct .question :: (cs ++ .punct .colon :: ws)) := by
  obtain ⟨vs, z, k, hk, halternate⟩ := h
  refine ⟨vs, .conditional e y z, max d (max j k) + 1, by omega, ?_⟩
  simpa using Derives.conditional htest hconsequent halternate

theorem Begins.parens (h : Begins n .conditional us) :
    Begins n .primary (.punct .leftParen :: us) := by
  obtain ⟨vs, e, d, hd, hder⟩ := h
  refine ⟨vs ++ [.punct .rightParen], e, d, hd, ?_⟩
  simpa using Derives.parens hder

theorem Begins.item (h : Begins n .conditional us) : BeginsItems n close us := by
  obtain ⟨vs, e, d, hd, hder⟩ := h
  refine ⟨vs ++ [.punct close], [⟨us ++ vs, e, d⟩], by simp, ?_, by simpa using hder, by simp⟩
  rwa [deepest_cons, deepest_nil, Nat.max_zero]

theorem BeginsItems.cons (hfirst : Derives .conditional us e d) (hd : d ≤ n)
    (h : BeginsItems n close ws) : BeginsItems n close (us ++ .punct .comma :: ws) := by
  obtain ⟨vs, args, hne, hdeep, heach, htokens⟩ := h
  obtain ⟨second, args, rfl⟩ := List.exists_cons_of_ne_nil hne
  refine ⟨vs, ⟨us, e, d⟩ :: second :: args, by simp, Nat.max_le.mpr ⟨hd, hdeep⟩,
    List.forall_mem_cons.mpr ⟨hfirst, heach⟩, ?_⟩
  rw [separated_cons_cons, List.append_assoc, List.cons_append, htokens, List.append_assoc,
    List.cons_append]

theorem BeginsItems.call (hcallee : Derives .suffixed us e d) (hd : d ≤ n)
    (h : BeginsItems n .rightParen ws) : Begins n .suffixed (us ++ .punct .leftParen :: ws) := by
  obtain ⟨vs, args, -, hdeep, heach, htokens⟩ := h
  refine ⟨vs, .call e (args.map Item.tree), max d (deepest args),
    Nat.max_le.mpr ⟨hd, hdeep⟩, ?_⟩
  rw [List.append_assoc, List.cons_append, htokens]
  exact .call hcallee heach

theorem BeginsItems.array (h : BeginsItems n .rightBracket us) :
    Begins n .primary (.punct .leftBracket :: us) := by
  obtain ⟨vs, args, -, hdeep, heach, htokens⟩ := h
  refine ⟨vs, .array (args.map Item.tree), deepest args, hdeep, ?_⟩
  rw [List.cons_append, htokens]
  exact .array heach

end Beginnings

/-- What a sound parser has taken from the front derives its tree. -/
theorem Sound.derives {ph : Phrase} {parser : Parser Expr} (h : Sound n ph parser)
    {ts front rest : List Token} {e : Expr} (hts : ts = front ++ rest)
    (hrun : plain (parser ts) = .ok (e, rest)) :
    ∃ d ≤ n, Derives ph (front.map Token.kind) e d := by
  obtain ⟨front', d, hts', hd, hder⟩ := h _ _ _ hrun
  rw [hts, List.append_cancel_right_eq] at hts'
  exact ⟨d, hd, hts' ▸ hder⟩

theorem exists_eq_cons_of_head?_eq {ts ts' after : List Token} {token : Token}
    (h : ts'.head? = ts.head?) (hts' : ts' = token :: after) : ∃ after', ts = token :: after' := by
  rw [hts', List.head?_cons, eq_comm, List.head?_eq_some_iff] at h
  exact h

/-- Whether an operator stands in front is seen from the first token. -/
theorem eq_none_of_head?_eq {γ : Type} {operator? : Punct → Option γ} {ts ts' after : List Token}
    {p : Punct} {pos : Nat}
    (hnone : ¬ ∃ p pos after op, ts = ⟨.punct p, pos⟩ :: after ∧ operator? p = some op)
    (h : ts'.head? = ts.head?) (hts' : ts' = ⟨.punct p, pos⟩ :: after) : operator? p = none := by
  apply Option.eq_none_iff_forall_ne_some.mpr
  intro op hop
  obtain ⟨after', hts⟩ := exists_eq_cons_of_head?_eq h hts'
  exact hnone ⟨p, pos, after', op, hts, hop⟩

/-- What was taken as a punctuator is that punctuator. -/
theorem exists_eq_singleton_of_plain_expect {p : Punct} {ts front rest : List Token}
    (hts : ts = front ++ rest) (hrun : plain (expect p ts) = .ok ((), rest)) :
    ∃ pos, front = [⟨.punct p, pos⟩] := by
  obtain ⟨pos, hcons⟩ := exists_eq_cons_of_plain_expect hrun
  rw [hts, ← List.singleton_append, List.append_cancel_right_eq] at hcons
  exact ⟨pos, hcons⟩

/-! ## Chains of operators -/

/-- A parser that fails at the first token with which no phrase begins. -/
def Prompts (n : Nat) (ph : Phrase) (parser : Parser Expr) : Prop :=
  ∀ ts, Prompt (Begins n ph) (fun ts => plain (parser ts)) ts

/-- A loop over operators goes on with what it has read, or it ends. -/
theorem prompt_moreOperands {l : Precedence} {operand : Parser Expr}
    (hsound : Sound n l.operand operand) (hprompt : Prompts n l.operand operand)
    {us : List TokenKind} {left : Expr} {i : Nat} (hleft : Derives (.chain l) us left i)
    (hi : i ≤ n) (ts : List Token) :
    Prompt (fun ws => Begins n (.chain l) (us ++ ws)) (moreOperands l.join? operand left) ts := by
  by_cases hop : ∃ p pos after join, ts = ⟨.punct p, pos⟩ :: after ∧ l.join? p = some join
  · obtain ⟨p, pos, after, join, rfl, hjoin⟩ := hop
    have hop := join?_eq_some_iff.mp hjoin
    refine .cons (moreOperands_operator hjoin operand left pos) ?_
    refine .bind ((hprompt after).mono fun ws => Begins.operator hop hleft hi) ?_
    intro front right rest hafter hrun
    have hlen : rest.length < after.length := length_lt_of_plain hrun
    obtain ⟨j, hj, hright⟩ := hsound.derives hafter hrun
    have hmore := prompt_moreOperands hsound hprompt (.operator hop hleft hright)
      (Nat.max_le.mpr ⟨hi, hj⟩) rest
    exact hmore.mono fun ws hws => by simpa using hws
  · exact .congr (fun ts' hhead => moreOperands_stop fun p pos after =>
      eq_none_of_head?_eq hop hhead) (.done left)
termination_by ts.length

theorem prompts_chain (l : Precedence) {inner : Level}
    (hsound : Sound n l.operand (l.operand.parser inner))
    (hprompt : Prompts n l.operand (l.operand.parser inner)) :
    Prompts n (.chain l) ((Phrase.chain l).parser inner) := by
  intro ts
  refine .congr (fun ts' _ => plain_parser_chain l inner ts') ?_
  refine .bind ((hprompt ts).mono fun _ => Begins.operand) ?_
  intro front left rest hts hrun
  obtain ⟨i, hi, hleft⟩ := hsound.derives hts hrun
  exact prompt_moreOperands hsound hprompt (.operand hleft) hi rest

/-- The loosest operators refuse promptly if the operands of the tightest do. -/
theorem prompts_operators {inner : Level} (hsound : Sound n .unary (Parser.unary inner))
    (hprompt : Prompts n .unary (Parser.unary inner)) :
    Prompts n (.chain .or) (operators (Parser.unary inner)) := by
  have hchain := operators_sound hsound
  have hproduct := prompts_chain .product hsound hprompt
  have hsum := prompts_chain .sum (hchain .product) hproduct
  have hrelation := prompts_chain .relation (hchain .sum) hsum
  have hequality := prompts_chain .equality (hchain .relation) hrelation
  have hand := prompts_chain .and (hchain .equality) hequality
  exact prompts_chain .or (hchain .and) hand

/-! ## Lists -/

section Conditional

variable {conditional : Parser Expr} (hsound : Sound n .conditional conditional)
  (hprompt : Prompts n .conditional conditional)

include hsound hprompt

theorem prompt_items (close : Punct) (ts : List Token) :
    Prompt (BeginsItems n close) (fun ts => plain (items close conditional ts)) ts := by
  refine .congr (fun ts' _ => plain_items close conditional ts') ?_
  refine .bind ((hprompt ts).mono fun _ => Begins.item) ?_
  intro front first rest hts hrun
  have hlen : rest.length < ts.length := length_lt_of_plain hrun
  obtain ⟨d, hd, hfirst⟩ := hsound.derives hts hrun
  rcases rest with _ | ⟨⟨kind, pos⟩, after⟩
  · exact .failed rfl nofun
  · by_cases hclose : kind = .punct close
    · subst hclose
      exact .cons (fun rest => if_pos rfl) (.done [first])
    · by_cases hcomma : kind = .punct .comma
      · subst hcomma
        refine .cons (fun rest => (if_neg hclose).trans (if_pos rfl)) (.map (first :: ·) ?_)
        have hlt : after.length < ts.length := Nat.lt_of_succ_lt hlen
        exact (prompt_items close after).mono fun ws => BeginsItems.cons hfirst hd
      · refine .unexpected (fun more => (if_neg hclose).trans (if_neg hcomma)) ?_
        rw [List.append_nil]
        exact (hfirst.begins hd).item
termination_by ts.length

theorem prompt_listUpTo (close : Punct) (ts : List Token) :
    Prompt (BeginsItems n close) (fun ts => plain (listUpTo close conditional ts)) ts := by
  by_cases hclose : ∃ pos after, ts = ⟨.punct close, pos⟩ :: after
  · obtain ⟨pos, after, rfl⟩ := hclose
    exact .cons (plain_listUpTo_close close conditional pos) (.done [])
  · refine .congr (fun ts' hhead => plain_listUpTo_items conditional ?_)
      (prompt_items hsound hprompt close ts)
    rintro ⟨kind, pos⟩ htoken rfl
    rw [hhead] at htoken
    obtain ⟨after, hts⟩ := List.head?_eq_some_iff.mp htoken
    exact hclose ⟨pos, after, hts⟩

omit hprompt in
/-- The tokens of a list that was read are those of its items and its closing punctuator. -/
theorem exists_items_of_listUpTo {close : Punct} {ts front rest : List Token} {trees : List Expr}
    (hts : ts = front ++ rest)
    (hrun : plain (listUpTo close conditional ts) = .ok (trees, rest)) :
    ∃ args : List Item, args.map Item.tree = trees ∧ deepest args ≤ n ∧
      (∀ a ∈ args, Derives .conditional a.tokens a.tree a.depth) ∧
      front.map Token.kind = separated args ++ [.punct close] := by
  obtain ⟨front', pos, args, hts', htrees, hdeep, heach, hfront⟩ := listUpTo_sound hsound hrun
  refine ⟨args, htrees, hdeep, heach, ?_⟩
  have heq : front = front' ++ [⟨.punct close, pos⟩] := by
    rw [hts, ← List.singleton_append, ← List.append_assoc, List.append_cancel_right_eq] at hts'
    exact hts'
  rw [heq, List.map_append, hfront]
  rfl

/-! ## Suffixes and primary expressions -/

/-- On fewer tokens than `bound` the loop over suffixes is prompt, whatever it has read before. -/
def SuffixesPrompt (n : Nat) (conditional : Parser Expr) (bound : Nat) : Prop :=
  ∀ us e i rest, Derives .suffixed us e i → i ≤ n → rest.length < bound →
    Prompt (fun ws => Begins n .suffixed (us ++ ws)) (moreSuffixes conditional e) rest

section Suffixes

variable {us : List TokenKind} {e : Expr} {i : Nat} (hleft : Derives .suffixed us e i) (hi : i ≤ n)
  {pos : Nat} {after : List Token} (hmore : SuffixesPrompt n conditional (after.length + 1))

include hleft hi hmore

omit hsound hprompt in
theorem prompt_member : Prompt (fun ws => Begins n .suffixed (us ++ ws))
    (moreSuffixes conditional e) (⟨.punct .dot, pos⟩ :: after) := by
  refine .cons (fun rest => rfl) ?_
  rcases after with _ | ⟨⟨kind, pos'⟩, after⟩
  · have hend : moreSuffixes conditional e [⟨.punct .dot, pos⟩] = .error .unexpectedEnd := by
      rw [moreSuffixes_eq]
      rfl
    exact .failed hend nofun
  · cases kind with
    | ident name =>
        refine .cons (fun rest => moreSuffixes_member conditional e name pos pos' rest) ?_
        refine (hmore _ _ _ after hleft.member hi (by simp)).mono fun ws hws => ?_
        simpa using hws
    | _ =>
        exact .unexpected (fun more => by rw [moreSuffixes_eq]; rfl) (begins_member hleft hi)

theorem prompt_index : Prompt (fun ws => Begins n .suffixed (us ++ ws))
    (moreSuffixes conditional e) (⟨.punct .leftBracket, pos⟩ :: after) := by
  refine .cons (moreSuffixes_index conditional e pos) ?_
  refine .bind ((hprompt after).mono fun ws => Begins.index hleft hi) ?_
  intro front key rest hafter hrun
  obtain ⟨j, hj, hkey⟩ := hsound.derives hafter hrun
  dsimp only
  refine .bind (prompt_expect ?_ .rightBracket rest) ?_
  · rw [List.append_nil]
    exact .index hleft hi (hkey.begins hj)
  · rintro closed ⟨⟩ rest' hrest hclosed
    obtain ⟨pos', rfl⟩ := exists_eq_singleton_of_plain_expect hrest hclosed
    have hlen : rest'.length < after.length + 1 := by
      rw [hafter, hrest]
      simp only [List.length_append]
      omega
    refine (hmore _ _ _ rest' (hleft.index hkey) (Nat.max_le.mpr ⟨hi, hj⟩) hlen).mono ?_
    intro ws hws
    simpa using hws

theorem prompt_call : Prompt (fun ws => Begins n .suffixed (us ++ ws))
    (moreSuffixes conditional e) (⟨.punct .leftParen, pos⟩ :: after) := by
  refine .cons (moreSuffixes_call conditional e pos) ?_
  refine .bind ((prompt_listUpTo hsound hprompt .rightParen after).mono
    fun ws => BeginsItems.call hleft hi) ?_
  intro front trees rest hafter hrun
  obtain ⟨args, rfl, hdeep, heach, hfront⟩ := exists_items_of_listUpTo hsound hafter hrun
  have hlen : rest.length < after.length + 1 := Nat.lt_succ_of_lt (length_lt_of_plain hrun)
  refine (hmore _ _ _ rest (hleft.call heach) (Nat.max_le.mpr ⟨hi, hdeep⟩) hlen).mono ?_
  intro ws hws
  simpa [hfront] using hws

end Suffixes

/-- A loop over suffixes goes on with what it has read, or it ends. -/
theorem suffixesPrompt (bound : Nat) : SuffixesPrompt n conditional bound := by
  induction bound with
  | zero => exact fun us e i rest _ _ hlen => absurd hlen (Nat.not_lt_zero _)
  | succ bound ih =>
      intro us e i ts hleft hi hlen
      by_cases hsuffix : ∃ p pos after, ts = ⟨.punct p, pos⟩ :: after ∧
          (p = .dot ∨ p = .leftBracket ∨ p = .leftParen)
      · obtain ⟨p, pos, after, rfl, hp⟩ := hsuffix
        have hmore : SuffixesPrompt n conditional (after.length + 1) :=
          fun us e i rest hleft hi hrest => ih us e i rest hleft hi
            (Nat.lt_of_lt_of_le hrest (Nat.le_of_lt_succ hlen))
        rcases hp with rfl | rfl | rfl
        · exact prompt_member hleft hi hmore
        · exact prompt_index hsound hprompt hleft hi hmore
        · exact prompt_call hsound hprompt hleft hi hmore
      · refine .congr (fun ts' hhead => moreSuffixes_stop ?_) (.done e)
        intro p pos after hts'
        obtain ⟨after', hts⟩ := exists_eq_cons_of_head?_eq hhead hts'
        refine ⟨?_, ?_, ?_⟩ <;> rintro rfl <;> exact hsuffix ⟨_, pos, after', hts, by simp⟩

theorem prompts_primary : Prompts n .primary (primary conditional) := by
  intro ts
  rcases ts with _ | ⟨⟨kind, pos⟩, after⟩
  · exact .failed rfl nofun
  · cases kind with
    | number x | string s | ident name => exact .cons (fun rest => rfl) (.done _)
    | punct p =>
        cases p with
        | leftParen =>
            refine .cons (plain_primary_parens conditional pos) ?_
            refine .bind ((hprompt after).mono fun us => Begins.parens) ?_
            intro front inner rest hafter hrun
            obtain ⟨d, hd, hinner⟩ := hsound.derives hafter hrun
            refine .map (fun _ => inner) (prompt_expect ?_ .rightParen rest)
            rw [List.append_nil]
            exact .parens (hinner.begins hd)
        | leftBracket =>
            refine .cons (plain_primary_array conditional pos) (.map Expr.array ?_)
            exact (prompt_listUpTo hsound hprompt .rightBracket after).mono
              fun us => BeginsItems.array
        | _ => exact .unexpected (fun more => rfl) begins_primary

theorem prompts_withSuffixes : Prompts n .suffixed (withSuffixes conditional) := by
  intro ts
  refine .congr (fun ts' _ => plain_withSuffixes conditional ts') ?_
  refine .bind ((prompts_primary hsound hprompt ts).mono fun us => Begins.unsuffixed) ?_
  intro front left rest hts hrun
  obtain ⟨i, hi, hleft⟩ := (primary_sound hsound).derives hts hrun
  exact suffixesPrompt hsound hprompt (rest.length + 1) _ _ _ rest (.unsuffixed hleft) hi
    (Nat.lt_succ_self _)

end Conditional

/-! ## Levels -/

/-- The parsers of a level refuse promptly: a whole expression takes at most `n` levels, and the
operand of a prefix operator one less. -/
structure LevelPrompt (n : Nat) (inner : Level) : Prop where
  conditional : Prompts n .conditional inner.conditional
  operand : ∀ ts, Prompt (fun us => ∃ vs e d, d < n ∧ Derives .unary (us ++ vs) e d)
    (fun ts => plain (inner.operand ts)) ts

section Level

variable {inner : Level} (hsound : LevelSound n inner) (hprompt : LevelPrompt n inner)

include hsound hprompt

theorem prompts_unary : Prompts n .unary (Parser.unary inner) := by
  intro ts
  by_cases hop : ∃ p pos after op, ts = ⟨.punct p, pos⟩ :: after ∧ prefixOp? p = some op
  · obtain ⟨p, pos, after, op, rfl, hop⟩ := hop
    refine .cons (plain_unary_operator hop pos) (.map (Expr.unary op) ?_)
    refine (hprompt.operand after).mono fun us hus => ?_
    obtain ⟨vs, e, d, hd, hder⟩ := hus
    exact ⟨vs, .unary op e, d + 1, hd, .prefixed (prefixOp?_eq_some_iff.mp hop) hder⟩
  · have hplain := prompts_withSuffixes hsound.conditional hprompt.conditional ts
    refine .congr (fun ts' hhead => ?_) (hplain.mono fun us => Begins.unprefixed)
    rw [unary_eq_withSuffixes]
    exact fun p pos after => eq_none_of_head?_eq hop hhead

/-- Reads the branches of a conditional behind its question mark. -/
def branches (inner : Level) (test : Expr) : Run Expr := fun ts =>
  (plain (inner.conditional ts)).bind fun consequent =>
    (plain (expect .colon consequent.2)).bind fun colon =>
      (plain (inner.conditional colon.2)).map fun alternate =>
        (.conditional test consequent.1 alternate.1, alternate.2)

theorem prompt_branches {us : List TokenKind} {test : Expr} {i : Nat}
    (htest : Derives (.chain .or) us test i) (hi : i ≤ n) (ts : List Token) :
    Prompt (fun ws => Begins (n + 1) .conditional (us ++ .punct .question :: ws))
      (branches inner test) ts := by
  refine .bind ((hprompt.conditional ts).mono fun ws => Begins.consequent htest hi) ?_
  intro front consequent rest hts hrun
  obtain ⟨j, hj, hconsequent⟩ := hsound.conditional.derives hts hrun
  dsimp only
  refine .bind (prompt_expect ?_ .colon rest) ?_
  · rw [List.append_nil]
    exact .consequent htest hi (hconsequent.begins hj)
  · rintro closed ⟨⟩ rest' hrest hclosed
    obtain ⟨pos, rfl⟩ := exists_eq_singleton_of_plain_expect hrest hclosed
    exact .map (Expr.conditional test consequent) ((hprompt.conditional rest').mono
      fun ws => Begins.alternate htest hi hconsequent hj)

theorem prompts_whole : Prompts (n + 1) .conditional (whole inner) := by
  intro ts
  have hunary := unary_sound hsound
  refine .congr (fun ts' _ => plain_whole inner ts') ?_
  refine .bind ((prompts_operators hunary (prompts_unary hsound hprompt) ts).mono
    fun us => Begins.whole) ?_
  intro front test rest hts hrun
  obtain ⟨i, hi, htest⟩ := (operators_sound hunary .or).derives hts hrun
  by_cases hquestion : ∃ pos after, rest = ⟨.punct .question, pos⟩ :: after
  · obtain ⟨pos, after, rfl⟩ := hquestion
    refine .cons (fun rest => ?_) (prompt_branches hsound hprompt htest hi after)
    dsimp only
    rw [plain_expect]
    rfl
  · refine .congr (fun rest' hhead => ?_) (.done test)
    cases hexpect : plain (expect .question rest') with
    | error err => rfl
    | ok taken =>
        obtain ⟨pos, hrest'⟩ := exists_eq_cons_of_plain_expect hexpect
        obtain ⟨after, hrest⟩ := exists_eq_cons_of_head?_eq hhead hrest'
        exact absurd ⟨pos, after, hrest⟩ hquestion

end Level

/-- Every level refuses the first token with which its tokens begin no phrase. -/
theorem level_prompt (stop n : Nat) : LevelPrompt n (level stop n) := by
  induction n with
  | zero =>
      -- Where no level is left, both parsers refuse all tokens as too deep.
      constructor
      · exact fun ts => .failed rfl nofun
      · exact fun ts => .failed rfl nofun
  | succ n ih =>
      have hsound := level_sound stop n
      constructor
      · exact prompts_whole hsound ih
      · refine fun ts => (prompts_unary hsound ih ts).mono fun us hus => ?_
        obtain ⟨vs, e, d, hd, hder⟩ := hus
        exact ⟨vs, e, d, Nat.lt_succ_of_le hd, hder⟩

/-! ## Expressions -/

/-- Whether tokens are accepted does not depend on the end of the text. -/
theorem ofTokens_stop {ts : List Token} {stop : Nat} {e : Expr}
    (h : Expr.ofTokens ⟨ts, stop⟩ = .ok e) (stop' : Nat) : Expr.ofTokens ⟨ts, stop'⟩ = .ok e := by
  rw [ofTokens_eq_ok_iff] at h ⊢
  exact h

/-- Tokens that are accepted as an expression with some others behind them, wherever these stand in
a text. -/
def Viable (ts : List Token) : Prop :=
  ∃ kinds e, ∀ more stop, more.map Token.kind = kinds → Expr.ofTokens ⟨ts ++ more, stop⟩ = .ok e

theorem viable_of_begins {ts : List Token}
    (h : Begins Expr.maxDepth .conditional (ts.map Token.kind)) : Viable ts := by
  obtain ⟨vs, e, d, hd, hder⟩ := h
  refine ⟨vs, e, fun more stop hmore => ofTokens_eq_ok_iff.mpr ⟨d, hd, ?_⟩⟩
  rwa [List.map_append, hmore]

/-- A refused token comes after tokens that begin an expression, and is refused whatever follows. -/
theorem exists_refused {tokens : Tokens} {t : Token}
    (h : Expr.ofTokens tokens = .error (.unexpectedToken t)) :
    ∃ front after, tokens.list = front ++ t :: after ∧
      Begins Expr.maxDepth .conditional (front.map Token.kind) ∧
      ∀ more, Expr.ofTokens ⟨front ++ t :: more, tokens.stop⟩ = .error (.unexpectedToken t) := by
  have hne : tokens.list ≠ [] := by
    intro hnil
    simp [Expr.ofTokens, hnil] at h
  have hprompt := (level_prompt tokens.stop Expr.maxDepth).conditional tokens.list
  have hsound := (level_sound tokens.stop Expr.maxDepth).conditional
  rw [ofTokens_eq hne] at h
  rcases bind_eq_error_iff.mp h with hrefused | ⟨⟨e, rest⟩, hread, hrest⟩
  · obtain ⟨front, after, hlist, hbegins, hmore⟩ := hprompt.refuses t hrefused
    refine ⟨front, after, hlist, hbegins, fun more => ?_⟩
    rw [ofTokens_eq (by simp), hmore more]
    rfl
  · -- A whole expression has been read, and the token is behind it.
    cases rest with
    | nil => cases hrest
    | cons token after =>
        obtain rfl := SyntaxError.unexpectedToken.inj (Except.error.inj hrest)
        obtain ⟨front, hlist, hfront⟩ := hprompt.reads e _ hread
        obtain ⟨d, hd, hder⟩ := hsound.derives hlist hread
        refine ⟨front, after, hlist, hder.begins hd, fun more => ?_⟩
        rw [ofTokens_eq (by simp), hfront (token :: more) rfl]
        rfl

/-- The token that a parser refuses as unexpected is the first one that no expression goes on with:
the tokens before it can be continued to an expression, and no expression begins with these and the
token. -/
theorem unexpectedToken_first {tokens : Tokens} {t : Token}
    (h : Expr.ofTokens tokens = .error (.unexpectedToken t)) :
    ∃ i, tokens.list[i]? = some t ∧ Viable (tokens.list.take i) ∧
      ∀ more stop e, Expr.ofTokens ⟨tokens.list.take (i + 1) ++ more, stop⟩ ≠ .ok e := by
  obtain ⟨front, after, hlist, hbegins, hmore⟩ := exists_refused h
  refine ⟨front.length, by simp [hlist], ?_, fun more stop e he => ?_⟩
  · rw [hlist, List.take_left]
    exact viable_of_begins hbegins
  · have htake : tokens.list.take (front.length + 1) ++ more = front ++ t :: more := by
      rw [hlist, List.take_length_add_append]
      simp
    have hrun := ofTokens_stop he tokens.stop
    rw [htake, hmore more] at hrun
    cases hrun

/-- A closing bracket after a comma: another item could stand there, but no bracket. -/
theorem unexpectedToken_first_bracket :
    let tokens : Tokens := ⟨[⟨.punct .leftBracket, 0⟩, ⟨.ident "a", 1⟩, ⟨.punct .comma, 2⟩,
      ⟨.punct .rightBracket, 3⟩, ⟨.punct .dot, 4⟩], 5⟩
    let t : Token := ⟨.punct .rightBracket, 3⟩
    Token.scan "[a,]." = .ok tokens ∧ Expr.ofTokens tokens = .error (.unexpectedToken t) ∧
      ∃ i, tokens.list[i]? = some t ∧ Viable (tokens.list.take i) ∧
        ∀ more stop e, Expr.ofTokens ⟨tokens.list.take (i + 1) ++ more, stop⟩ ≠ .ok e := by
  intro tokens t
  have hscan : Token.scan "[a,]." = .ok tokens := by cbv
  have hrefused : Expr.ofTokens tokens = .error (.unexpectedToken t) :=
    (map_eq_error_iff (f := fun _ => ())).mp (by decide +kernel)
  exact ⟨hscan, hrefused, unexpectedToken_first hrefused⟩

end RecordQuery.Grammar
