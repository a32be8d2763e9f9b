import RecordQuery.Proofs.Grammar.Steps

/-! # Parsers read what the grammar derives, or refuse it as too deep

In front of tokens that cannot belong to it, a derived phrase is read to its end if its depth is
within the levels that the parser may open, and refused as too deep otherwise. The loops over
operators and suffixes read to the left of themselves, so what is said of a chain or of suffixes is
how the loop goes on.
-/

namespace RecordQuery.Grammar

open RecordQuery.Parser

/-! ## What ends a phrase -/

/-- How loosely a punctuator binds what stands before it. Punctuators that start a phrase or close
one are the loosest. -/
def looseness : Punct → Nat
  | .dot | .leftBracket | .leftParen => 0
  | .star | .slash | .percent => 1
  | .plus | .minus => 2
  | .less | .lessEq | .greater | .greaterEq => 3
  | .eqEq | .eqEqEq | .bangEq | .bangEqEq => 4
  | .andAnd => 5
  | .orOr => 6
  | .question => 7
  | .bang | .colon | .comma | .rightParen | .rightBracket => 8

/-- The looseness from which on a punctuator is no longer part of a phrase. -/
def Phrase.looseness : Phrase → Nat
  | primary => 0
  | suffixed | unary => 1
  | chain .product => 2
  | chain .sum => 3
  | chain .relation => 4
  | chain .equality => 5
  | chain .and => 6
  | chain .or => 7
  | conditional => 8

/-- The looseness from which on a punctuator is left to the loop that reads a phrase. -/
def Phrase.loopLooseness : Phrase → Nat
  | suffixed => 0
  | chain l => l.operand.looseness
  | ph => ph.looseness

/-- No punctuator tighter than the given looseness is in front. -/
def EndsAt (limit : Nat) (ts : List Token) : Prop :=
  ∀ p pos after, ts = ⟨.punct p, pos⟩ :: after → limit ≤ looseness p

theorem EndsAt.mono {limit limit' : Nat} {ts : List Token} (h : EndsAt limit ts)
    (hle : limit' ≤ limit) : EndsAt limit' ts :=
  fun p pos after hts => Nat.le_trans hle (h p pos after hts)

theorem endsAt_nil (limit : Nat) : EndsAt limit [] := by
  intro p pos after h
  cases h

theorem endsAt_punct {limit : Nat} {p : Punct} (h : limit ≤ looseness p) (pos : Nat)
    (after : List Token) : EndsAt limit (⟨.punct p, pos⟩ :: after) := by
  rintro p' pos' after' heq
  simp only [List.cons.injEq, Token.mk.injEq, TokenKind.punct.injEq] at heq
  exact heq.1.1 ▸ h

theorem Phrase.loopLooseness_le (ph : Phrase) : ph.loopLooseness ≤ ph.looseness := by
  cases ph with
  | chain l => cases l <;> decide
  | _ => decide

theorem Operator.looseness {l : Precedence} {p : Punct} {build : Expr → Expr → Expr}
    (h : Operator l p build) : Grammar.looseness p = l.operand.looseness := by
  cases h <;> rfl

/-- How a parser goes on once it has read `e` as far as its loop, if it has one. -/
def Phrase.goOn (inner : Level) : Phrase → Expr → List Token →
    Except SyntaxError (Expr × List Token)
  | chain l => moreOperands l.join? (l.operand.parser inner)
  | suffixed => moreSuffixes inner.conditional
  | _ => fun e rest => .ok (e, rest)

/-- A loop stops where its phrase ends. -/
theorem goOn_eq_ok {ph : Phrase} {rest : List Token} (h : EndsAt ph.looseness rest)
    (inner : Level) (e : Expr) : ph.goOn inner e rest = .ok (e, rest) := by
  cases ph with
  | chain l =>
      apply moreOperands_stop
      intro p pos after hrest
      apply Option.eq_none_iff_forall_ne_some.mpr
      intro build hbuild
      have hp := (join?_eq_some_iff.mp hbuild).looseness
      have hle := h p pos after hrest
      rw [hp] at hle
      cases l <;> simp [Phrase.looseness, Precedence.operand] at hle
  | suffixed =>
      apply moreSuffixes_stop
      intro p pos after hrest
      have hle := h p pos after hrest
      refine ⟨?_, ?_, ?_⟩ <;> rintro rfl <;> simp [Phrase.looseness, looseness] at hle
  | _ => rfl

/-! ## What starts a phrase -/

/-- The punctuators that can start a phrase. -/
def Phrase.StartsWith (ph : Phrase) (p : Punct) : Prop :=
  p = .leftParen ∨ p = .leftBracket ∨ (ph ≠ .suffixed ∧ ph ≠ .primary ∧ ∃ op, PrefixOperator p op)

theorem Phrase.StartsWith.loosen {ph ph' : Phrase} {p : Punct} (h : ph.StartsWith p)
    (hsuffixed : ph' ≠ .suffixed) (hprimary : ph' ≠ .primary) : ph'.StartsWith p := by
  rcases h with h | h | ⟨-, -, h⟩
  · exact .inl h
  · exact .inr (.inl h)
  · exact .inr (.inr ⟨hsuffixed, hprimary, h⟩)

theorem Derives.startsWith {ph : Phrase} {ts : List TokenKind} {e : Expr} {d : Nat}
    (h : Derives ph ts e d) {p : Punct} (hp : ts.head? = some (.punct p)) : ph.StartsWith p := by
  induction h with
  | whole _ ih | operand _ ih | unprefixed _ ih => exact (ih hp).loosen (by simp) (by simp)
  | conditional test _ _ ih =>
      rw [test.head?_append] at hp
      exact (ih hp).loosen (by simp) (by simp)
  | operator _ left _ ih =>
      rw [left.head?_append] at hp
      exact ih hp
  | prefixed op =>
      simp only [List.head?_cons, Option.some.injEq, TokenKind.punct.injEq] at hp
      exact .inr (.inr ⟨by simp, by simp, _, hp ▸ op⟩)
  | unsuffixed _ ih =>
      rcases ih hp with h | h | ⟨-, h, -⟩
      · exact .inl h
      · exact .inr (.inl h)
      · exact absurd rfl h
  | member object ih | index object _ ih | call object _ ih =>
      rw [object.head?_append] at hp
      exact ih hp
  | parens => exact .inl (by simpa using hp.symm)
  | array => exact .inr (.inl (by simpa using hp.symm))
  | _ => simp at hp

/-- A suffixed expression does not start with a prefix operator. -/
theorem Derives.prefixOp?_eq_none {ts : List TokenKind} {e : Expr} {d : Nat}
    (h : Derives .suffixed ts e d) {p : Punct} (hp : ts.head? = some (.punct p)) :
    prefixOp? p = none := by
  rcases h.startsWith hp with rfl | rfl | ⟨hne, -⟩
  · rfl
  · rfl
  · exact absurd rfl hne

/-- A phrase does not start with a closing punctuator. -/
theorem Derives.not_closer {ph : Phrase} {ts : List TokenKind} {e : Expr} {d : Nat}
    (h : Derives ph ts e d) {p : Punct} (hp : ts.head? = some (.punct p)) :
    p ≠ .rightParen ∧ p ≠ .rightBracket := by
  rcases h.startsWith hp with rfl | rfl | ⟨-, -, op, hop⟩
  · decide
  · decide
  · cases hop <;> decide

/-! ## Reading within a depth -/

/-- The result `s`, or a refusal if the depth is over the limit. -/
def Within {α : Type} (n d : Nat) (r s : Except SyntaxError α) : Prop :=
  if d ≤ n then r = s else ∃ pos, r = .error (.tooDeep pos)

section Within

variable {α β : Type} {n i j : Nat}

theorem Within.eq {r s : Except SyntaxError α} (h : Within n i r s) (hi : i ≤ n) : r = s := by
  rwa [Within, if_pos hi] at h

theorem Within.refused {r s : Except SyntaxError α} (h : Within n i r s) (hi : ¬ i ≤ n) :
    ∃ pos, r = .error (.tooDeep pos) := by
  rwa [Within, if_neg hi] at h

theorem Within.succ {r s : Except SyntaxError α} (h : Within n i r s) :
    Within (n + 1) (i + 1) r s := by
  simpa [Within] using h

/-- What follows a part without opening anything. -/
theorem Within.andThen {r : Except SyntaxError α} {a : α} {f : α → Except SyntaxError β}
    {s : Except SyntaxError β} (h : Within n i r (.ok a)) (hf : f a = s) :
    Within n i (r.bind f) s := by
  by_cases hi : i ≤ n
  · rw [Within, if_pos hi, h.eq hi]
    exact hf
  · obtain ⟨pos, rfl⟩ := h.refused hi
    rw [Within, if_neg hi]
    exact ⟨pos, rfl⟩

/-- The deeper of two parts decides whether the whole is refused. -/
theorem Within.bind {r : Except SyntaxError α} {a : α} {f : α → Except SyntaxError β}
    {s : Except SyntaxError β} (h : Within n i r (.ok a)) (hf : Within n j (f a) s) :
    Within n (max i j) (r.bind f) s := by
  by_cases hi : i ≤ n
  · rw [h.eq hi]
    by_cases hj : j ≤ n
    · rw [Within, if_pos (Nat.max_le.mpr ⟨hi, hj⟩)]
      exact hf.eq hj
    · rw [Within, if_neg (fun hle => hj (Nat.max_le.mp hle).2)]
      exact hf.refused hj
  · obtain ⟨pos, rfl⟩ := h.refused hi
    rw [Within, if_neg (fun hle => hi (Nat.max_le.mp hle).1)]
    exact ⟨pos, rfl⟩

theorem Within.map {r : Except SyntaxError α} {a : α} (h : Within n i r (.ok a)) (f : α → β) :
    Within n i (r.map f) (.ok (f a)) :=
  h.andThen (f := fun a => .ok (f a)) rfl

theorem Within.trans {r s t : Except SyntaxError α} (h : Within n i r s) (h' : Within n j s t) :
    Within n (max i j) r t := by
  by_cases hi : i ≤ n
  · rw [h.eq hi]
    by_cases hj : j ≤ n
    · rw [Within, if_pos (Nat.max_le.mpr ⟨hi, hj⟩)]
      exact h'.eq hj
    · rw [Within, if_neg (fun hle => hj (Nat.max_le.mp hle).2)]
      exact h'.refused hj
  · rw [Within, if_neg (fun hle => hi (Nat.max_le.mp hle).1)]
    exact h.refused hi

end Within

/-- The parser of a phrase reads the tokens of a tree as far as its loop, or refuses them as too
deep. -/
def Complete (stop : Nat) (ph : Phrase) (ts : List TokenKind) (e : Expr) (d : Nat) : Prop :=
  ∀ n tokens rest, tokens.map Token.kind = ts → EndsAt ph.loopLooseness rest →
    Within n d (plain (ph.parser (level stop n) (tokens ++ rest)))
      (ph.goOn (level stop n) e rest)

variable {stop : Nat}

/-- In front of what ends it, a phrase is read to its end. -/
theorem Complete.reads {ph : Phrase} {ts : List TokenKind} {e : Expr} {d : Nat}
    (h : Complete stop ph ts e d) (n : Nat) {tokens : List Token}
    (htokens : tokens.map Token.kind = ts) (rest : List Token) (hrest : EndsAt ph.looseness rest) :
    Within n d (plain (ph.parser (level stop n) (tokens ++ rest))) (.ok (e, rest)) := by
  rw [← goOn_eq_ok hrest]
  exact h n tokens rest htokens (hrest.mono ph.loopLooseness_le)

/-! ## One step for each rule -/

theorem exists_cons_of_kinds {tokens : List Token} {kind : TokenKind} {us : List TokenKind}
    (h : tokens.map Token.kind = kind :: us) :
    ∃ pos last, tokens = ⟨kind, pos⟩ :: last ∧ last.map Token.kind = us := by
  obtain ⟨⟨_, pos⟩, last, rfl, rfl, hlast⟩ := List.map_eq_cons_iff.mp h
  exact ⟨pos, last, rfl, hlast⟩

theorem exists_append_cons_of_kinds {tokens : List Token} {kind : TokenKind}
    {ts us : List TokenKind} (h : tokens.map Token.kind = ts ++ kind :: us) :
    ∃ front pos last, tokens = front ++ ⟨kind, pos⟩ :: last ∧ front.map Token.kind = ts ∧
      last.map Token.kind = us := by
  obtain ⟨front, tail, rfl, hfront, htail⟩ := List.map_eq_append_iff.mp h
  obtain ⟨pos, last, rfl, hlast⟩ := exists_cons_of_kinds htail
  exact ⟨front, pos, last, rfl, hfront, hlast⟩

theorem complete_whole {ts : List TokenKind} {e : Expr} {d : Nat}
    (h : Complete stop (.chain .or) ts e d) : Complete stop .conditional ts e (d + 1) := by
  intro n tokens rest htokens hrest
  cases n with
  | zero => exact ⟨_, rfl⟩
  | succ n =>
      have htest := h.reads n htokens rest (hrest.mono (by decide))
      -- No question mark follows, since it would be too tight to end the expression.
      have hquestion : ∃ err, plain (expect .question rest) = .error err := by
        cases hexpect : plain (expect .question rest) with
        | error err => exact ⟨err, rfl⟩
        | ok closed =>
            obtain ⟨pos, hpos⟩ := exists_eq_cons_of_plain_expect hexpect
            exact absurd (hrest _ _ _ hpos) (by decide)
      obtain ⟨err, hquestion⟩ := hquestion
      change Within (n + 1) (d + 1) (plain (whole (level stop n) (tokens ++ rest))) _
      rw [plain_whole]
      exact (htest.andThen (by rw [hquestion]; rfl)).succ

theorem complete_conditional {ts us vs : List TokenKind} {x y z : Expr} {i j k : Nat}
    (test : Complete stop (.chain .or) ts x i) (consequent : Complete stop .conditional us y j)
    (alternate : Complete stop .conditional vs z k) :
    Complete stop .conditional (ts ++ .punct .question :: (us ++ .punct .colon :: vs))
      (.conditional x y z) (max i (max j k) + 1) := by
  intro n tokens rest htokens hrest
  obtain ⟨front, pos, tail, rfl, hfront, htail⟩ := exists_append_cons_of_kinds htokens
  obtain ⟨middle, pos', last, rfl, hmiddle, hlast⟩ := exists_append_cons_of_kinds htail
  cases n with
  | zero => exact ⟨_, rfl⟩
  | succ n =>
      have htest := test.reads n hfront (⟨.punct .question, pos⟩ :: (middle ++
        ⟨.punct .colon, pos'⟩ :: (last ++ rest))) (endsAt_punct (by decide) _ _)
      have hconsequent := consequent.reads n hmiddle (⟨.punct .colon, pos'⟩ :: (last ++ rest))
        (endsAt_punct (by decide) _ _)
      have halternate := alternate.reads n hlast rest hrest
      change Within (n + 1) _ (plain (whole (level stop n) _)) _
      rw [plain_whole, List.append_assoc, List.cons_append, List.append_assoc, List.cons_append]
      refine (htest.bind ?_).succ
      simp only [plain_expect]
      refine hconsequent.bind ?_
      simp only [plain_expect, Except.bind]
      exact halternate.map _

theorem complete_operand {l : Precedence} {ts : List TokenKind} {e : Expr} {d : Nat}
    (h : Complete stop l.operand ts e d) : Complete stop (.chain l) ts e d := by
  intro n tokens rest htokens hrest
  rw [plain_parser_chain]
  exact (h.reads n htokens rest hrest).andThen rfl

theorem complete_operator {l : Precedence} {p : Punct} {build : Expr → Expr → Expr}
    {ts us : List TokenKind} {x y : Expr} {i j : Nat} (op : Operator l p build)
    (left : Complete stop (.chain l) ts x i) (right : Complete stop l.operand us y j) :
    Complete stop (.chain l) (ts ++ .punct p :: us) (build x y) (max i j) := by
  intro n tokens rest htokens hrest
  obtain ⟨front, pos, last, rfl, hfront, hlast⟩ := exists_append_cons_of_kinds htokens
  have hleft := left n front (⟨.punct p, pos⟩ :: (last ++ rest)) hfront
    (endsAt_punct (Nat.le_of_eq op.looseness.symm) _ _)
  have hright := right.reads n hlast rest hrest
  rw [List.append_assoc, List.cons_append]
  refine hleft.trans ?_
  -- The loop that has read the left side goes on with the operator.
  rw [Phrase.goOn, moreOperands_operator (join?_eq_some_iff.mpr op)]
  exact hright.andThen rfl

theorem complete_unprefixed {ts : List TokenKind} {e : Expr} {d : Nat}
    (hder : Derives .suffixed ts e d) (h : Complete stop .suffixed ts e d) :
    Complete stop .unary ts e d := by
  intro n tokens rest htokens hrest
  -- What starts a suffixed expression is no prefix operator.
  have hplain : Parser.unary (level stop n) (tokens ++ rest) =
      withSuffixes (level stop n).conditional (tokens ++ rest) := by
    apply unary_eq_withSuffixes
    intro p pos after heq
    apply hder.prefixOp?_eq_none
    subst htokens
    cases tokens with
    | nil => exact absurd rfl hder.ne_nil
    | cons t tokens => simp_all
  change Within n d (plain (Parser.unary (level stop n) (tokens ++ rest))) _
  rw [hplain]
  exact h.reads n htokens rest hrest

theorem complete_prefixed {p : Punct} {o : UnaryOp} {ts : List TokenKind} {e : Expr} {d : Nat}
    (op : PrefixOperator p o) (h : Complete stop .unary ts e d) :
    Complete stop .unary (.punct p :: ts) (.unary o e) (d + 1) := by
  intro n tokens rest htokens hrest
  obtain ⟨pos, last, rfl, hlast⟩ := exists_cons_of_kinds htokens
  change Within n (d + 1)
    (plain (Parser.unary (level stop n) (⟨.punct p, pos⟩ :: (last ++ rest)))) _
  rw [plain_unary_operator (prefixOp?_eq_some_iff.mpr op)]
  cases n with
  | zero => exact ⟨_, rfl⟩
  | succ n => exact (h.reads n hlast rest hrest).succ.map _

theorem complete_unsuffixed {ts : List TokenKind} {e : Expr} {d : Nat}
    (h : Complete stop .primary ts e d) : Complete stop .suffixed ts e d := by
  intro n tokens rest htokens hrest
  change Within n d (plain (withSuffixes (level stop n).conditional (tokens ++ rest))) _
  rw [plain_withSuffixes]
  exact (h n tokens rest htokens hrest).andThen rfl

theorem complete_member {ts : List TokenKind} {e : Expr} {d : Nat} {name : String}
    (object : Complete stop .suffixed ts e d) :
    Complete stop .suffixed (ts ++ [.punct .dot, .ident name]) (.member e name) d := by
  intro n tokens rest htokens hrest
  obtain ⟨front, pos, tail, rfl, hfront, htail⟩ := exists_append_cons_of_kinds htokens
  obtain ⟨pos', last, rfl, hlast⟩ := exists_cons_of_kinds htail
  obtain rfl := List.map_eq_nil_iff.mp hlast
  have hobject := object n front (⟨.punct .dot, pos⟩ :: ⟨.ident name, pos'⟩ :: rest) hfront
    (endsAt_punct (by decide) _ _)
  rw [Phrase.goOn, moreSuffixes_member] at hobject
  rw [List.append_assoc]
  exact hobject

theorem complete_index {ts us : List TokenKind} {e key : Expr} {i j : Nat}
    (object : Complete stop .suffixed ts e i) (inner : Complete stop .conditional us key j) :
    Complete stop .suffixed (ts ++ .punct .leftBracket :: (us ++ [.punct .rightBracket]))
      (.index e key) (max i j) := by
  intro n tokens rest htokens hrest
  obtain ⟨front, pos, tail, rfl, hfront, htail⟩ := exists_append_cons_of_kinds htokens
  obtain ⟨middle, pos', last, rfl, hmiddle, hlast⟩ := exists_append_cons_of_kinds htail
  obtain rfl := List.map_eq_nil_iff.mp hlast
  have hobject := object n front (⟨.punct .leftBracket, pos⟩ :: (middle ++
    ⟨.punct .rightBracket, pos'⟩ :: rest)) hfront (endsAt_punct (by decide) _ _)
  have hinner := inner.reads n hmiddle (⟨.punct .rightBracket, pos'⟩ :: rest)
    (endsAt_punct (by decide) _ _)
  rw [List.append_assoc, List.cons_append, List.append_assoc, List.cons_append, List.nil_append]
  refine hobject.trans ?_
  rw [Phrase.goOn, moreSuffixes_index]
  refine hinner.andThen ?_
  simp only [plain_expect]
  rfl

/-! ## Lists -/

/-- Items up to a closing punctuator are read, or the deepest of them is refused. -/
theorem items_complete {close : Punct} (hloose : looseness close = 8) (hcomma : close ≠ .comma)
    {n : Nat} {a : Item} {args : List Item} (hargs : ∀ b ∈ a :: args,
      Complete stop .conditional b.tokens b.tree b.depth) {tokens : List Token} (pos : Nat)
    (rest : List Token) (htokens : tokens.map Token.kind = separated (a :: args)) :
    Within n (deepest (a :: args))
      (plain (items close (level stop n).conditional (tokens ++ ⟨.punct close, pos⟩ :: rest)))
      (.ok ((a :: args).map Item.tree, rest)) := by
  -- By induction on the items after the first one, whose tokens end before a comma.
  induction args generalizing a tokens with
  | nil =>
      rw [separated_singleton] at htokens
      have hfirst := (hargs a (by simp)).reads n htokens (⟨.punct close, pos⟩ :: rest)
        (endsAt_punct (Nat.le_of_eq hloose.symm) _ _)
      rw [plain_items, deepest_cons, deepest_nil, Nat.max_zero]
      exact hfirst.andThen (by simp)
  | cons b args ih =>
      rw [separated_cons_cons] at htokens
      obtain ⟨front, pos', last, rfl, hfront, hlast⟩ := exists_append_cons_of_kinds htokens
      have hfirst := (hargs a (by simp)).reads n hfront (⟨.punct .comma, pos'⟩ ::
        (last ++ ⟨.punct close, pos⟩ :: rest)) (endsAt_punct (by decide) _ _)
      have hothers := ih (fun c hc => hargs c (List.mem_cons_of_mem a hc)) hlast
      rw [List.append_assoc, List.cons_append, plain_items, deepest_cons]
      refine hfirst.bind ?_
      simp only [TokenKind.punct.injEq, hcomma.symm, if_false, if_true]
      exact hothers.map _

theorem listUpTo_complete {close : Punct} (hclose : close = .rightParen ∨ close = .rightBracket)
    {n : Nat} {args : List Item}
    (hargs : ∀ a ∈ args, Derives .conditional a.tokens a.tree a.depth ∧
      Complete stop .conditional a.tokens a.tree a.depth) {tokens : List Token} (pos : Nat)
    (rest : List Token) (htokens : tokens.map Token.kind = separated args) :
    Within n (deepest args)
      (plain (listUpTo close (level stop n).conditional (tokens ++ ⟨.punct close, pos⟩ :: rest)))
      (.ok (args.map Item.tree, rest)) := by
  cases args with
  | nil =>
      obtain rfl := List.map_eq_nil_iff.mp htokens
      rw [List.nil_append, plain_listUpTo_close, deepest_nil, Within, if_pos (Nat.zero_le n)]
      rfl
  | cons a args =>
      rw [plain_listUpTo_items]
      · exact items_complete (by rcases hclose with rfl | rfl <;> rfl)
          (by rcases hclose with rfl | rfl <;> decide) (fun b hb => (hargs b hb).2) pos rest htokens
      · -- The first token of the list is the first one of its first item.
        have hder := (hargs a (by simp)).1
        have hhead : (separated (a :: args)).head? = a.tokens.head? := by
          cases args with
          | nil => simp
          | cons b args => rw [separated_cons_cons, hder.head?_append]
        intro token htoken hkind
        have hne : tokens ≠ [] := by
          rintro rfl
          rw [← htokens] at hhead
          exact hder.ne_nil (List.head?_eq_none_iff.mp hhead.symm)
        obtain ⟨first, others, rfl⟩ := List.exists_cons_of_ne_nil hne
        obtain rfl : first = token := by simpa using htoken
        rw [← htokens, List.map_cons, List.head?_cons, hkind] at hhead
        have hcloser := hder.not_closer hhead.symm
        rcases hclose with rfl | rfl
        · exact hcloser.1 rfl
        · exact hcloser.2 rfl

theorem complete_call {ts : List TokenKind} {e : Expr} {d : Nat} {args : List Item}
    (callee : Complete stop .suffixed ts e d)
    (hargs : ∀ a ∈ args, Derives .conditional a.tokens a.tree a.depth ∧
      Complete stop .conditional a.tokens a.tree a.depth) :
    Complete stop .suffixed (ts ++ .punct .leftParen :: (separated args ++ [.punct .rightParen]))
      (.call e (args.map Item.tree)) (max d (deepest args)) := by
  intro n tokens rest htokens hrest
  obtain ⟨front, pos, tail, rfl, hfront, htail⟩ := exists_append_cons_of_kinds htokens
  obtain ⟨middle, pos', last, rfl, hmiddle, hlast⟩ := exists_append_cons_of_kinds htail
  obtain rfl := List.map_eq_nil_iff.mp hlast
  have hcallee := callee n front (⟨.punct .leftParen, pos⟩ :: (middle ++
    ⟨.punct .rightParen, pos'⟩ :: rest)) hfront (endsAt_punct (by decide) _ _)
  have hlist := listUpTo_complete (.inl rfl) hargs (n := n) pos' rest hmiddle
  rw [List.append_assoc, List.cons_append, List.append_assoc, List.cons_append, List.nil_append]
  refine hcallee.trans ?_
  rw [Phrase.goOn, moreSuffixes_call]
  exact hlist.andThen rfl

/-! ## Primary expressions -/

theorem complete_parens {ts : List TokenKind} {e : Expr} {d : Nat}
    (inner : Complete stop .conditional ts e d) :
    Complete stop .primary (.punct .leftParen :: (ts ++ [.punct .rightParen])) e d := by
  intro n tokens rest htokens hrest
  obtain ⟨pos, tail, rfl, htail⟩ := exists_cons_of_kinds htokens
  obtain ⟨middle, pos', last, rfl, hmiddle, hlast⟩ := exists_append_cons_of_kinds htail
  obtain rfl := List.map_eq_nil_iff.mp hlast
  have hinner := inner.reads n hmiddle (⟨.punct .rightParen, pos'⟩ :: rest)
    (endsAt_punct (by decide) _ _)
  change Within n d (plain (primary (level stop n).conditional _)) _
  rw [List.cons_append, List.append_assoc, List.cons_append, List.nil_append,
    plain_primary_parens]
  exact hinner.andThen (by rw [plain_expect]; rfl)

theorem complete_array {args : List Item}
    (hargs : ∀ a ∈ args, Derives .conditional a.tokens a.tree a.depth ∧
      Complete stop .conditional a.tokens a.tree a.depth) :
    Complete stop .primary (.punct .leftBracket :: (separated args ++ [.punct .rightBracket]))
      (.array (args.map Item.tree)) (deepest args) := by
  intro n tokens rest htokens hrest
  obtain ⟨pos, tail, rfl, htail⟩ := exists_cons_of_kinds htokens
  obtain ⟨middle, pos', last, rfl, hmiddle, hlast⟩ := exists_append_cons_of_kinds htail
  obtain rfl := List.map_eq_nil_iff.mp hlast
  have hlist := listUpTo_complete (.inr rfl) hargs (n := n) pos' rest hmiddle
  change Within n _ (plain (primary (level stop n).conditional _)) _
  rw [List.cons_append, List.append_assoc, List.cons_append, List.nil_append, plain_primary_array]
  exact hlist.map _

/-- A single token is read without opening anything. -/
theorem complete_single {kind : TokenKind} {e : Expr}
    (h : ∀ conditional pos after, plain (primary conditional (⟨kind, pos⟩ :: after)) =
      .ok (e, after)) : Complete stop .primary [kind] e 0 := by
  intro n tokens rest htokens hrest
  obtain ⟨pos, last, rfl, hlast⟩ := exists_cons_of_kinds htokens
  obtain rfl := List.map_eq_nil_iff.mp hlast
  rw [Within, if_pos (Nat.zero_le n)]
  exact h _ _ _

theorem nameExpr_of_not_mem_reserved {name : String} (h : name ∉ reserved) :
    nameExpr name = .ident name := by
  simp only [reserved, List.mem_cons, List.not_mem_nil, or_false, not_or] at h
  simp [nameExpr, h]

/-- Every derived phrase is read as far as its loop, or refused as too deep. -/
theorem Derives.complete {ph : Phrase} {ts : List TokenKind} {e : Expr} {d : Nat}
    (h : Derives ph ts e d) (stop : Nat) : Complete stop ph ts e d := by
  induction h with
  | whole _ ih => exact complete_whole ih
  | conditional _ _ _ test consequent alternate =>
      exact complete_conditional test consequent alternate
  | operand _ ih => exact complete_operand ih
  | operator op _ _ left right => exact complete_operator op left right
  | unprefixed h ih => exact complete_unprefixed h ih
  | prefixed op _ ih => exact complete_prefixed op ih
  | unsuffixed _ ih => exact complete_unsuffixed ih
  | member _ ih => exact complete_member ih
  | index _ _ object inner => exact complete_index object inner
  | call _ each callee args => exact complete_call callee fun a ha => ⟨each a ha, args a ha⟩
  | parens _ ih => exact complete_parens ih
  | array each args => exact complete_array fun a ha => ⟨each a ha, args a ha⟩
  | name h =>
      refine complete_single fun conditional pos after => ?_
      rw [← nameExpr_of_not_mem_reserved h]
      rfl
  | _ => exact complete_single fun conditional pos after => rfl

end RecordQuery.Grammar
