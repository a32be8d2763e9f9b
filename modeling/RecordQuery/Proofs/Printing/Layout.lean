import RecordQuery.Proofs.Printing.Spelling

/-! # Where printed words end

In a printed expression each word ends where the next one starts, unless a property is taken of an
expression whose text ends in an integer. The point then belongs to the number.
-/

namespace RecordQuery.Expr

open Word

/-- Whether an expression is an integer. -/
def isInteger : Expr → Bool
  | literal (.number (.int _)) => true
  | _ => false

/-- Whether the text of an expression ends in an integer. -/
def endsInInteger : Expr → Bool
  | unary _ last | binary _ _ last | logical _ _ last | conditional _ _ last => last.isInteger
  | e => e.isInteger

/-- A point after the object of a property does not belong to a number. -/
def PointStands : Expr → Prop
  | member object _ => object.endsInInteger = false
  | _ => True

/-- What can follow an expression in a text. A point follows no integer. -/
def Follows (integer : Bool) (rest : List Char) : Prop :=
  ∀ c ∈ rest.head?, c ∈ [' ', ',', ')', ']', '.', '[', '('] ∧ (c = '.' → integer = false)

theorem Follows.loosen {integer : Bool} {rest : List Char} (h : Follows true rest) :
    Follows integer rest := by
  intro c hc
  obtain ⟨hmem, hdot⟩ := h c hc
  exact ⟨hmem, fun heq => absurd (hdot heq) (by decide)⟩

theorem follows_cons {c : Char} (h : c ∈ [' ', ',', ')', ']', '[', '(']) (integer : Bool)
    (rest : List Char) : Follows integer (c :: rest) := by
  rintro d ⟨⟩
  simp only [List.mem_cons, List.not_mem_nil, or_false] at h ⊢
  rcases h with rfl | rfl | rfl | rfl | rfl | rfl <;> simp

theorem follows_nil (integer : Bool) : Follows integer [] := by
  intro c hc
  cases hc

theorem follows_dot {integer : Bool} (h : integer = false) (rest : List Char) :
    Follows integer ('.' :: rest) := by
  rintro d ⟨⟩
  exact ⟨by simp, fun _ => h⟩

/-- What follows an expression ends each last word. -/
theorem Follows.endsAt {integer : Bool} {rest : List Char} (h : Follows integer rest) {w : Word}
    (hpunct : ∀ p, w = .punct p → p ≠ .dot)
    (hinteger : ∀ i, w = .number (.int i) → integer = true) : w.EndsAt rest := by
  intro c hc
  obtain ⟨hmem, hdot⟩ := h c hc
  -- None of the characters that can follow is part of a name, a sign or an equals sign.
  have hpart : isIdentPart c = false ∧ c ≠ '+' ∧ c ≠ '-' ∧ c ≠ '=' := by
    simp only [List.mem_cons, List.not_mem_nil, or_false] at hmem
    rcases hmem with rfl | rfl | rfl | rfl | rfl | rfl | rfl <;> decide
  cases w with
  | blank | text => rfl
  | punct p => simp [endsBefore, hpart, hpunct p rfl]
  | name s => simp [endsBefore, hpart]
  | number n =>
      cases n with
      | float x => simp [endsBefore, hpart]
      | int i =>
          have hne : c ≠ '.' := by
            intro heq
            rw [hinteger i rfl] at hdot
            exact absurd (hdot heq) (by decide)
          simp [endsBefore, hpart, hne]

/-! ## Parts of a text -/

theorem endsAt_punct {p : Punct} (h : p.takesEquals = false ∧ p ≠ .dot) (rest : List Char) :
    (punct p).EndsAt rest := by
  intro c _
  simp [endsBefore, h]

theorem laid_blank {k : Nat} {ws : List Word} {rest : List Char} (h : Laid k ws rest) :
    Laid k (.blank :: ws) rest :=
  .cons trivial (fun _ _ => rfl) h

theorem laid_operator {k : Nat} {ws : List Word} {rest : List Char} (p : Punct)
    (h : Laid k ws rest) : Laid k (.blank :: .punct p :: .blank :: ws) rest := by
  refine laid_blank (.cons trivial ?_ (laid_blank h))
  rintro c ⟨⟩
  simp only [endsBefore, Bool.and_eq_true, Bool.or_eq_true]
  exact ⟨.inl (by decide), .inr (by decide)⟩

theorem laid_last {k : Nat} {ws : List Word} {w : Word} {rest : List Char}
    (h : Laid k ws (w.chars ++ rest)) (hw : w.Legible) (hends : w.EndsAt rest) :
    Laid k (ws ++ [w]) rest := by
  refine Laid.append (l := 0) ?_ (.cons hw hends .nil)
  simpa using h

/-- Words in brackets end where the closing bracket stands. -/
theorem laid_between {k : Nat} {ws : List Word} {rest : List Char} {opening closing : Punct}
    (hopening : opening.takesEquals = false ∧ opening ≠ .dot)
    (hclosing : closing.takesEquals = false ∧ closing ≠ .dot)
    (h : Laid k ws ((Word.punct closing).chars ++ rest)) :
    Laid k (.punct opening :: (ws ++ [.punct closing])) rest :=
  .cons trivial (endsAt_punct hopening _) (laid_last h trivial (endsAt_punct hclosing _))

theorem laid_single {w : Word} {integer : Bool} {rest : List Char} (hrest : Follows integer rest)
    (hw : w.Legible) (hpunct : ∀ p, w = .punct p → p ≠ .dot)
    (hinteger : ∀ i, w = .number (.int i) → integer = true) : Laid 0 [w] rest :=
  .cons hw (hrest.endsAt hpunct hinteger) .nil

/-- The words of an expression lie in each text where it can stand, and run together exactly if a
point does not stand somewhere inside. -/
def LaidOut (e : Expr) : Prop :=
  ∀ rest, Follows e.endsInInteger rest →
    ∃ k, Laid k e.words rest ∧ (k = 0 ↔ Everywhere PointStands e)

theorem endsInInteger_of_not_needsParens {e : Expr} (h : ¬ e.needsParens = true) :
    e.endsInInteger = e.isInteger := by
  cases e <;> first | rfl | simp [needsParens] at h

/-- An operand stands in front of whatever can follow an expression. -/
theorem LaidOut.enclosed {e : Expr} (h : LaidOut e) {rest : List Char}
    (hrest : Follows e.isInteger rest) :
    ∃ k, Laid k (enclose e e.words) rest ∧ (k = 0 ↔ Everywhere PointStands e) := by
  unfold enclose
  split
  next hparens =>
    obtain ⟨k, hlaid, hk⟩ := h (')' :: rest) (follows_cons (by decide) _ _)
    exact ⟨k, laid_between (by decide) (by decide) hlaid, hk⟩
  next hparens =>
    rw [← endsInInteger_of_not_needsParens hparens] at hrest
    exact h rest hrest

/-- An operand stands in front of an operator and the words after it. -/
theorem LaidOut.operand {e : Expr} (h : LaidOut e) (p : Punct) {k : Nat} {ws : List Word}
    {rest : List Char} (hlaid : Laid k ws rest) :
    ∃ l, Laid (l + k) (enclose e e.words ++ .blank :: .punct p :: .blank :: ws) rest ∧
      (l = 0 ↔ Everywhere PointStands e) := by
  obtain ⟨l, hoperand, hl⟩ := h.enclosed
    (follows_cons (by decide) _ _ : Follows _ (' ' :: (spell (.punct p :: .blank :: ws) ++ rest)))
  exact ⟨l, hoperand.append (laid_operator p hlaid), hl⟩

/-- What stands before a bracket stands in front of the words in the brackets. -/
theorem LaidOut.head {e : Expr} (h : LaidOut e) {opening : Punct} (closing : Punct)
    (hopening : opening = .leftBracket ∨ opening = .leftParen)
    (hclosing : closing.takesEquals = false ∧ closing ≠ .dot) {k : Nat} {ws : List Word}
    {rest : List Char} (hlaid : Laid k ws ((Word.punct closing).chars ++ rest)) :
    ∃ l, Laid (l + k) (e.words ++ .punct opening :: (ws ++ [.punct closing])) rest ∧
      (l = 0 ↔ Everywhere PointStands e) := by
  rcases hopening with rfl | rfl
  · obtain ⟨l, hhead, hl⟩ := h ('[' :: (spell (ws ++ [.punct closing]) ++ rest))
      (follows_cons (by decide) _ _)
    exact ⟨l, hhead.append (laid_between (by decide) hclosing hlaid), hl⟩
  · obtain ⟨l, hhead, hl⟩ := h ('(' :: (spell (ws ++ [.punct closing]) ++ rest))
      (follows_cons (by decide) _ _)
    exact ⟨l, hhead.append (laid_between (by decide) hclosing hlaid), hl⟩

/-- A list stands in front of what closes it. -/
theorem laid_listed {items : List Expr} (h : ∀ e ∈ items, LaidOut e) {rest : List Char}
    (hrest : Follows true rest) :
    ∃ k, Laid k (listed (wordsList items)) rest ∧
      (k = 0 ↔ ∀ e ∈ items, Everywhere PointStands e) := by
  rw [wordsList_eq_map]
  induction items with
  | nil => exact ⟨0, .nil, by simp⟩
  | cons item items ih =>
      rw [List.forall_mem_cons] at h
      cases items with
      | nil =>
          obtain ⟨k, hlaid, hk⟩ := h.1 rest hrest.loosen
          exact ⟨k, by simpa using hlaid, by simpa using hk⟩
      | cons next items =>
          obtain ⟨k, hlaid, hk⟩ := ih h.2
          obtain ⟨k', hlaid', hk'⟩ := h.1 (spell (.punct .comma :: .blank ::
            listed ((next :: items).map words)) ++ rest) (follows_cons (by decide) _ _)
          refine ⟨k' + k, ?_, ?_⟩
          · apply Laid.append hlaid'
            exact .cons trivial (endsAt_punct (by decide) _) (laid_blank hlaid)
          · rw [List.forall_mem_cons, ← hk', ← hk, Nat.add_eq_zero_iff]

/-! ## Whole expressions -/

/-- The text of words starts with something else than an equals sign. -/
def StartsPlain (ws : List Word) : Prop :=
  ∃ c cs, spell ws = c :: cs ∧ c ≠ '='

theorem StartsPlain.append {ws : List Word} (h : StartsPlain ws) (vs : List Word) :
    StartsPlain (ws ++ vs) := by
  obtain ⟨c, cs, hcs, hc⟩ := h
  exact ⟨c, cs ++ spell vs, by rw [spell_append, hcs, List.cons_append], hc⟩

theorem StartsPlain.enclosed {e : Expr} (h : StartsPlain e.words) :
    StartsPlain (enclose e e.words) := by
  unfold enclose
  split
  · exact ⟨'(', _, rfl, by decide⟩
  · exact h

theorem startsPlain_number {n : Number} (h : n.ReadsBack) : StartsPlain [.number n] := by
  obtain ⟨whole, fraction, exponent, hnumeral, hliteral, -⟩ := h.numeral
  obtain ⟨c, cs, hwhole⟩ := List.exists_cons_of_ne_nil hnumeral.whole.1
  have hdigit := hnumeral.whole.2 c (by simp [hwhole])
  refine ⟨c, cs ++ (fraction ++ exponent), by simp [Word.chars, hliteral, hwhole], ?_⟩
  exact ne_of_isIdentPart (isIdentPart_of_isDigit hdigit) (by decide)

/-- No expression starts with an equals sign. -/
theorem startsPlain_words {e : Expr} (h : Everywhere Legible e) : StartsPlain e.words := by
  induction e with
  | literal value =>
      have hvalue := h.here
      cases value with
      | null => exact ⟨'n', _, rfl, by decide⟩
      | bool b =>
          cases b with
          | false => exact ⟨'f', _, rfl, by decide⟩
          | true => exact ⟨'t', _, rfl, by decide⟩
      | number n => exact startsPlain_number hvalue
      | string s => exact ⟨'"', _, rfl, by decide⟩
      | array | object => exact hvalue.elim
  | undefined => exact ⟨'u', _, rfl, by decide⟩
  | ident name =>
      obtain ⟨c, cs, hcs, hc, -⟩ := h.here.1
      refine ⟨c, cs, by simpa [words, Word.chars] using hcs, ?_⟩
      exact ne_of_isIdentPart (isIdentPart_of_isIdentStart hc) (by decide)
  | array items => exact ⟨'[', _, rfl, by decide⟩
  | member object name ih =>
      rw [words]
      exact (ih (Everywhere.member_iff.mp h).2).append _
  | index object key ih =>
      rw [words]
      exact (ih (Everywhere.index_iff.mp h).2.1).append _
  | call callee args ih =>
      rw [words]
      exact (ih (Everywhere.call_iff.mp h).2.1).append _
  | unary op operand => cases op <;> exact ⟨_, _, rfl, by decide⟩
  | binary op left right ih =>
      rw [words]
      exact (ih (Everywhere.binary_iff.mp h).2.1).enclosed.append _
  | logical op left right ih =>
      rw [words]
      exact (ih (Everywhere.logical_iff.mp h).2.1).enclosed.append _
  | conditional test consequent alternate ih =>
      rw [words]
      exact (ih (Everywhere.conditional_iff.mp h).2.1).enclosed.append _

theorem isName_of_all {s : String} {c : Char} {rest : List Char} (h : s.toList = c :: rest)
    (hc : isIdentStart c = true) (hrest : rest.all isIdentPart = true) : IsName s :=
  ⟨c, rest, h, hc, List.all_eq_true.mp hrest⟩

theorem isName_null : IsName "null" := isName_of_all rfl (by decide) (by decide)

theorem isName_true : IsName "true" := isName_of_all rfl (by decide) (by decide)

theorem isName_false : IsName "false" := isName_of_all rfl (by decide) (by decide)

theorem isName_undefined : IsName "undefined" := isName_of_all rfl (by decide) (by decide)

theorem endsAt_dot {name : String} (h : IsName name) (rest : List Char) :
    (Word.punct .dot).EndsAt (name.toList ++ rest) := by
  obtain ⟨d, cs, hcs, hd, -⟩ := h
  rw [hcs]
  rintro c ⟨⟩
  simp [endsBefore, (isIdentStart_ne hd).1, Punct.takesEquals]

theorem endsAt_unary {ws : List Word} (h : StartsPlain ws) (op : UnaryOp) (rest : List Char) :
    (Word.punct op.punct).EndsAt (spell ws ++ rest) := by
  obtain ⟨d, cs, hcs, hd⟩ := h
  rw [hcs]
  rintro c ⟨⟩
  cases op <;> simp [endsBefore, UnaryOp.punct, hd]

theorem exists_words_eq_of_isInteger {e : Expr} (h : Legible e) (hinteger : e.isInteger = true) :
    ∃ i, e.words = [.number (.int i)] ∧ enclose e e.words = [.number (.int i)] ∧
      (Number.int i).ReadsBack := by
  unfold isInteger at hinteger
  split at hinteger
  next i =>
    have hi : (Number.int i).ReadsBack := h
    have hnonneg : ¬ Float.ofInt i < 0.0 := hi.nonneg
    exact ⟨i, by simp [words, literalWords],
      by simp [enclose, needsParens, hnonneg, words, literalWords], hi⟩
  next => cases hinteger

/-- The text of an expression that ends in an integer has it as its last word. -/
theorem exists_words_eq_of_endsInInteger {e : Expr} (h : Everywhere Legible e)
    (hends : e.endsInInteger = true) :
    ∃ ws i, e.words = ws ++ [.number (.int i)] ∧ (Number.int i).ReadsBack := by
  have hlast : ∀ c ∈ e.children, c.isInteger = true →
      ∃ i, enclose c c.words = [.number (.int i)] ∧ (Number.int i).ReadsBack := by
    intro c hc hinteger
    obtain ⟨i, -, hwords, hi⟩ := exists_words_eq_of_isInteger (h.inside hc).here hinteger
    exact ⟨i, hwords, hi⟩
  cases e with
  | literal value =>
      obtain ⟨i, hwords, -, hi⟩ := exists_words_eq_of_isInteger h.here hends
      exact ⟨[], i, hwords, hi⟩
  | unary op operand =>
      obtain ⟨i, hwords, hi⟩ := hlast operand (by simp [children]) hends
      exact ⟨[.punct op.punct], i, by simp [words, hwords], hi⟩
  | binary op left right | logical op left right =>
      obtain ⟨i, hwords, hi⟩ := hlast right (by simp [children]) hends
      exact ⟨enclose left left.words ++ [.blank, .punct op.punct, .blank], i,
        by simp [words, hwords], hi⟩
  | conditional test consequent alternate =>
      obtain ⟨i, hwords, hi⟩ := hlast alternate (by simp [children]) hends
      exact ⟨enclose test test.words ++ .blank :: .punct .question :: .blank ::
        (enclose consequent consequent.words ++ [.blank, .punct .colon, .blank]), i,
        by simp [words, hwords], hi⟩
  | _ => cases hends

theorem laidOut_literal {value : Json} (h : Legible (literal value)) :
    LaidOut (literal value) := by
  intro rest hrest
  refine ⟨0, ?_, by simp [PointStands]⟩
  cases value with
  | null => exact laid_single hrest isName_null nofun nofun
  | bool b =>
      cases b with
      | false => exact laid_single hrest isName_false nofun nofun
      | true => exact laid_single hrest isName_true nofun nofun
  | number n =>
      refine laid_single hrest h nofun ?_
      rintro i ⟨⟩
      rfl
  | string s => exact laid_single hrest trivial nofun nofun
  | array | object => exact h.elim

theorem LaidOut.array {items : List Expr} (h : ∀ e ∈ items, LaidOut e) :
    LaidOut (array items) := by
  intro rest hrest
  obtain ⟨k, hlaid, hk⟩ := laid_listed h
    (follows_cons (by decide) true rest : Follows true (']' :: rest))
  refine ⟨k, ?_, by simp [hk, PointStands]⟩
  rw [words]
  exact laid_between (by decide) (by decide) hlaid

/-- A name after a point. The point stands apart unless an integer takes it. -/
theorem LaidOut.member {object : Expr} {name : String} (h : LaidOut object)
    (hobject : Everywhere Legible object) (hname : IsName name) :
    LaidOut (member object name) := by
  intro rest hrest
  have hends : (Word.name name).EndsAt rest := hrest.endsAt nofun nofun
  cases hinteger : object.endsInInteger with
  | false =>
      obtain ⟨k, hlaid, hk⟩ := h ('.' :: (name.toList ++ rest)) (follows_dot hinteger _)
      have hdot : Laid 0 [Word.punct .dot, .name name] rest :=
        .cons trivial (by simpa [Word.chars] using endsAt_dot hname rest) (.cons hname hends .nil)
      refine ⟨k, ?_, by simp [hk, PointStands, hinteger]⟩
      rw [words]
      exact Laid.append (by simpa [Word.chars, Punct.text] using hlaid) hdot
  | true =>
      -- The integer is the last word of the object, and takes the point and perhaps the name.
      obtain ⟨k, hlaid, -⟩ := h [] (follows_nil _)
      obtain ⟨ws, i, hwords, hi⟩ := exists_words_eq_of_endsInInteger hobject hinteger
      rw [hwords] at hlaid
      refine ⟨k + 1, ?_, by simp [PointStands, hinteger]⟩
      rw [words, hwords, List.append_assoc]
      exact hlaid.merge_last hi hname hends

theorem LaidOut.index {object key : Expr} (hobject : LaidOut object) (hkey : LaidOut key) :
    LaidOut (index object key) := by
  intro rest _
  obtain ⟨k, hlaid, hk⟩ := hkey (']' :: rest) (follows_cons (by decide) _ _)
  obtain ⟨l, hlaid, hl⟩ := hobject.head .rightBracket (.inl rfl) (by decide) hlaid
  refine ⟨l + k, ?_, by simp [Nat.add_eq_zero_iff, hk, hl, PointStands]⟩
  rw [words]
  exact hlaid

theorem LaidOut.call {callee : Expr} {args : List Expr} (hcallee : LaidOut callee)
    (hargs : ∀ e ∈ args, LaidOut e) : LaidOut (call callee args) := by
  intro rest _
  obtain ⟨k, hlaid, hk⟩ := laid_listed hargs
    (follows_cons (by decide) true rest : Follows true (')' :: rest))
  obtain ⟨l, hlaid, hl⟩ := hcallee.head .rightParen (.inr rfl) (by decide) hlaid
  refine ⟨l + k, ?_, by simp [Nat.add_eq_zero_iff, hk, hl, PointStands]⟩
  rw [words]
  exact hlaid

theorem LaidOut.unary {operand : Expr} (h : LaidOut operand) (hstart : StartsPlain operand.words)
    (op : UnaryOp) : LaidOut (unary op operand) := by
  intro rest hrest
  obtain ⟨k, hlaid, hk⟩ := h.enclosed hrest
  refine ⟨k, ?_, by simp [hk, PointStands]⟩
  rw [words]
  exact .cons trivial (endsAt_unary hstart.enclosed op _) hlaid

theorem LaidOut.binary {left right : Expr} (hleft : LaidOut left) (hright : LaidOut right)
    (op : BinaryOp) : LaidOut (binary op left right) := by
  intro rest hrest
  obtain ⟨k, hlaid, hk⟩ := hright.enclosed hrest
  obtain ⟨l, hlaid, hl⟩ := hleft.operand op.punct hlaid
  refine ⟨l + k, ?_, by simp [Nat.add_eq_zero_iff, hk, hl, PointStands]⟩
  rw [words]
  exact hlaid

theorem LaidOut.logical {left right : Expr} (hleft : LaidOut left) (hright : LaidOut right)
    (op : LogicalOp) : LaidOut (logical op left right) := by
  intro rest hrest
  obtain ⟨k, hlaid, hk⟩ := hright.enclosed hrest
  obtain ⟨l, hlaid, hl⟩ := hleft.operand op.punct hlaid
  refine ⟨l + k, ?_, by simp [Nat.add_eq_zero_iff, hk, hl, PointStands]⟩
  rw [words]
  exact hlaid

theorem LaidOut.conditional {test consequent alternate : Expr} (htest : LaidOut test)
    (hconsequent : LaidOut consequent) (halternate : LaidOut alternate) :
    LaidOut (conditional test consequent alternate) := by
  intro rest hrest
  obtain ⟨k, hlaid, hk⟩ := halternate.enclosed hrest
  obtain ⟨l, hlaid, hl⟩ := hconsequent.operand .colon hlaid
  obtain ⟨m, hlaid, hm⟩ := htest.operand .question hlaid
  refine ⟨m + (l + k), ?_, by simp [Nat.add_eq_zero_iff, hk, hl, hm, PointStands]⟩
  rw [words]
  exact hlaid

/-- The words of an expression run together exactly if a point does not stand. -/
theorem laidOut {e : Expr} (h : Everywhere Legible e) : LaidOut e := by
  induction e with
  | literal value => exact laidOut_literal h.here
  | undefined =>
      exact fun rest hrest =>
        ⟨0, laid_single hrest isName_undefined nofun nofun, by simp [PointStands]⟩
  | ident name =>
      exact fun rest hrest => ⟨0, laid_single hrest h.here.1 nofun nofun, by simp [PointStands]⟩
  | array items ih =>
      rw [Everywhere.array_iff] at h
      exact .array fun e he => ih e he (h.2 e he)
  | member object name ih =>
      rw [Everywhere.member_iff] at h
      exact (ih h.2).member h.2 h.1
  | index object key ihObject ihKey =>
      rw [Everywhere.index_iff] at h
      exact (ihObject h.2.1).index (ihKey h.2.2)
  | call callee args ihCallee ihArgs =>
      rw [Everywhere.call_iff] at h
      exact (ihCallee h.2.1).call fun e he => ihArgs e he (h.2.2 e he)
  | unary op operand ih =>
      rw [Everywhere.unary_iff] at h
      exact (ih h.2).unary (startsPlain_words h.2) op
  | binary op left right ihLeft ihRight =>
      rw [Everywhere.binary_iff] at h
      exact (ihLeft h.2.1).binary (ihRight h.2.2) op
  | logical op left right ihLeft ihRight =>
      rw [Everywhere.logical_iff] at h
      exact (ihLeft h.2.1).logical (ihRight h.2.2) op
  | conditional test consequent alternate ihTest ihConsequent ihAlternate =>
      rw [Everywhere.conditional_iff] at h
      exact (ihTest h.2.1).conditional (ihConsequent h.2.2.1) (ihAlternate h.2.2.2)

end RecordQuery.Expr
