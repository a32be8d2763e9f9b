import RecordQuery.Proofs.Grammar.Parsing
import RecordQuery.Proofs.Lexing.Delimiters

/-! # Texts of phrases

A text that can be read spells a phrase in parentheses. Such phrases are put together by their
texts: between operators, after a prefix operator, and as the parts of a conditional. The text of
the whole is read as the tree of the whole, unless it opens too many levels.
-/

namespace RecordQuery.Grammar

open Token

/-- Wherever it stands and whatever follows, a text is read as tokens that derive the tree. -/
def Spells (ph : Phrase) (cs : List Char) (e : Expr) : Prop :=
  ∃ ts d, (∀ rest, ReadsAs cs ts rest) ∧ Derives ph ts e d

/-- A punctuator with a blank on either side. -/
def spaced (p : Punct) : List Char := ' ' :: (p.text.toList ++ [' '])

theorem readsAs_blank (rest : List Char) : ReadsAs [' '] [] rest :=
  fun pos => ⟨pos + 1, (kindsFrom_blank (by decide) pos rest).trans (Word.map_nil_append _).symm⟩

theorem readsAs_punct {p : Punct} {rest : List Char} (h : (Word.punct p).EndsAt rest) :
    ReadsAs p.text.toList [.punct p] rest :=
  kindsFrom_punct h

/-- A parenthesis is no part of a longer punctuator. -/
theorem readsAs_parenthesis {p : Punct} (h : p = .leftParen ∨ p = .rightParen)
    (rest : List Char) : ReadsAs p.text.toList [.punct p] rest := by
  refine readsAs_punct fun c _ => ?_
  rcases h with rfl | rfl <;> simp [Word.endsBefore, Punct.takesEquals]

theorem readsAs_spaced (p : Punct) (rest : List Char) : ReadsAs (spaced p) [.punct p] rest := by
  have hpunct : ReadsAs p.text.toList [.punct p] ([' '] ++ rest) := by
    refine readsAs_punct ?_
    rintro c ⟨⟩
    simp [Word.endsBefore, Char.isDigit]
  exact (readsAs_blank _).append (hpunct.append (readsAs_blank rest))

/-! ## Texts in parentheses -/

theorem kindsFrom_of_scan {text : String} {tokens : Tokens} (h : scan text = .ok tokens) :
    kindsFrom 0 text.toList = .ok (tokens.list.map Token.kind) :=
  map_eq_ok_iff.mpr ⟨tokens, h, rfl⟩

/-- A text that can be read spells its tree in parentheses, as an operand of any operator. -/
theorem spells_parens {text : String} {e : Expr} (h : Expr.parse text = .ok e) :
    Spells .unary ("(" ++ text ++ ")").toList e := by
  obtain ⟨tokens, d, hscan, hder⟩ := exists_derives_of_parse h
  refine ⟨_, d, fun rest => ?_, .unprefixed (.unsuffixed (.parens hder))⟩
  have hinner := readsAs_before isDelimiter_rightParen (kindsFrom_of_scan hscan) rest
  have hclose : ReadsAs [')'] [.punct .rightParen] rest := readsAs_parenthesis (.inr rfl) rest
  have hopen : ReadsAs ['('] [.punct .leftParen] (text.toList ++ [')'] ++ rest) :=
    readsAs_parenthesis (.inl rfl) _
  simpa using hopen.append (hinner.append hclose)

/-! ## Phrases from phrases -/

/-- Texts with a separator between them, added one after the other. -/
theorem intercalate_eq_foldl {α : Type} (sep first : List α) (rest : List (List α)) :
    sep.intercalate (first :: rest) = rest.foldl (fun cs ds => cs ++ sep ++ ds) first := by
  induction rest generalizing first with
  | nil => simp
  | cons next rest ih =>
      rw [List.foldl_cons, ← ih, List.intercalate_cons_cons]
      cases rest <;> simp

namespace Spells

variable {cs ds es : List Char} {x y z : Expr}

/-- What spells an operand spells a chain of operators. -/
theorem chain (h : Spells .unary cs x) (l : Precedence) : Spells (.chain l) cs x := by
  obtain ⟨ts, d, hreads, hder⟩ := h
  exact ⟨ts, d, hreads, hder.chain l⟩

theorem operand {l : Precedence} (h : Spells l.operand cs x) : Spells (.chain l) cs x := by
  obtain ⟨ts, d, hreads, hder⟩ := h
  exact ⟨ts, d, hreads, .operand hder⟩

theorem whole (h : Spells (.chain .or) cs x) : Spells .conditional cs x := by
  obtain ⟨ts, d, hreads, hder⟩ := h
  exact ⟨ts, d + 1, hreads, .whole hder⟩

theorem operator {l : Precedence} {p : Punct} {build : Expr → Expr → Expr}
    (op : Operator l p build) (hleft : Spells (.chain l) cs x) (hright : Spells l.operand ds y) :
    Spells (.chain l) (cs ++ spaced p ++ ds) (build x y) := by
  obtain ⟨ts, i, hts, hx⟩ := hleft
  obtain ⟨us, j, hus, hy⟩ := hright
  refine ⟨_, _, fun rest => ?_, .operator op hx hy⟩
  have hreads := (hts _).append ((readsAs_spaced p _).append (hus rest))
  rwa [← List.append_assoc] at hreads

/-- A prefix operator stands right before its operand. -/
theorem prefixed {p : Punct} {o : UnaryOp} (op : PrefixOperator p o) (h : Spells .unary cs x)
    (hends : ∀ rest, (Word.punct p).EndsAt (cs ++ rest)) :
    Spells .unary (p.text.toList ++ cs) (.unary o x) := by
  obtain ⟨ts, d, hts, hx⟩ := h
  exact ⟨_, _, fun rest => (readsAs_punct (hends rest)).append (hts rest), .prefixed op hx⟩

theorem conditional (htest : Spells (.chain .or) cs x) (hconsequent : Spells .conditional ds y)
    (halternate : Spells .conditional es z) :
    Spells .conditional (cs ++ (spaced .question ++ (ds ++ (spaced .colon ++ es))))
      (.conditional x y z) := by
  obtain ⟨ts, i, hts, hx⟩ := htest
  obtain ⟨us, j, hus, hy⟩ := hconsequent
  obtain ⟨vs, k, hvs, hz⟩ := halternate
  refine ⟨_, _, fun rest => ?_, .conditional hx hy hz⟩
  have hcolon := (readsAs_spaced .colon _).append (hvs rest)
  exact (hts _).append ((readsAs_spaced .question _).append ((hus _).append hcolon))

/-- A chain of operands under one operator, which groups them to the left. -/
theorem foldl_operator {ι : Type} {l : Precedence} {p : Punct} {build : Expr → Expr → Expr}
    (op : Operator l p build) (chars : ι → List Char) (tree : ι → Expr) (items : List ι)
    (hitems : ∀ i ∈ items, Spells l.operand (chars i) (tree i)) (h : Spells (.chain l) cs x) :
    Spells (.chain l) (items.foldl (fun cs i => cs ++ spaced p ++ chars i) cs)
      (items.foldl (fun x i => build x (tree i)) x) := by
  induction items generalizing cs x with
  | nil => exact h
  | cons i items ih =>
      obtain ⟨hi, hitems⟩ := List.forall_mem_cons.mp hitems
      exact ih hitems (h.operator op hi)

end Spells

/-- A text whose tokens derive a tree is read as the tree, within the depth that is allowed. -/
theorem parse_within {text : String} {ts : List TokenKind} {e : Expr} {d : Nat}
    (hreads : ReadsAs text.toList ts []) (hder : Derives .conditional ts e d) :
    Within Expr.maxDepth d (Expr.parse text) (.ok e) := by
  obtain ⟨tokens, hscan, rfl⟩ := map_eq_ok_iff.mp (hreads.kindsFrom_eq 0)
  rw [parse_of_scan hscan]
  exact ofTokens_within hder

/-- A text of a whole expression is read as its tree, or refused as too deep. -/
theorem Spells.parse {text : String} {e : Expr} (h : Spells .conditional text.toList e) :
    Expr.parse text = .ok e ∨ ∃ pos, Expr.parse text = .error (.tooDeep pos) := by
  obtain ⟨ts, d, hreads, hder⟩ := h
  have hwithin := parse_within (hreads []) hder
  by_cases hd : d ≤ Expr.maxDepth
  · exact .inl (hwithin.eq hd)
  · exact .inr (hwithin.refused hd)

end RecordQuery.Grammar
