import RecordQuery.Proofs.Lexing.Words

/-! # Texts in front of a delimiter

A delimiter goes on with no token. So a text that can be read on its own is read in the same way in
front of a delimiter, whatever comes after it and wherever the text stands.
-/

namespace RecordQuery

open Token Decimal

/-- A character that no token before it can take in, outside of quotes. -/
structure IsDelimiter (d : Char) : Prop where
  part : isIdentPart d = false
  point : d ≠ '.'
  sign : d ≠ '+' ∧ d ≠ '-'
  punct : ∀ p : Punct, d ∉ p.text.toList.tail

theorem isDelimiter_rightParen : IsDelimiter ')' where
  part := by decide
  point := by decide
  sign := by decide
  punct p := by cases p <;> decide

theorem isDelimiter_rightBracket : IsDelimiter ']' where
  part := by decide
  point := by decide
  sign := by decide
  punct p := by cases p <;> decide

theorem isDelimiter_comma : IsDelimiter ',' where
  part := by decide
  point := by decide
  sign := by decide
  punct p := by cases p <;> decide

variable {d : Char}

/-! ## Numbers -/

theorem takeWhile_stop {p : Char → Bool} (hd : p d = false) (cs more : List Char) :
    (cs ++ d :: more).takeWhile p = cs.takeWhile p := by
  induction cs with
  | nil => simp [hd]
  | cons c cs ih => cases hc : p c <;> simp [hc, ih]

theorem dropWhile_stop {p : Char → Bool} (hd : p d = false) (cs more : List Char) :
    (cs ++ d :: more).dropWhile p = cs.dropWhile p ++ d :: more := by
  induction cs with
  | nil => simp [hd]
  | cons c cs ih => cases hc : p c <;> simp [hc, ih]

namespace IsDelimiter

variable (hd : IsDelimiter d) (cs more : List Char)
include hd

theorem not_isDigit : d.isDigit = false := (eq_false_of_isIdentPart hd.part).1

theorem not_isIdentStart : isIdentStart d = false := (eq_false_of_isIdentPart hd.part).2

theorem not_mark : ¬(d = 'e' ∨ d = 'E') := by
  rintro (rfl | rfl)
  · exact absurd hd.part (by decide)
  · exact absurd hd.part (by decide)

theorem spanDigits_before :
    spanDigits (cs ++ d :: more) = ((spanDigits cs).1, (spanDigits cs).2 ++ d :: more) := by
  rw [spanDigits, takeWhile_stop hd.not_isDigit, dropWhile_stop hd.not_isDigit, spanDigits]

theorem splitSign_before :
    splitSign (cs ++ d :: more) = ((splitSign cs).1, (splitSign cs).2 ++ d :: more) := by
  cases cs with
  | nil => exact splitSign_noSign (by rintro c ⟨⟩; exact hd.sign)
  | cons c cs =>
      by_cases hsign : c = '+' ∨ c = '-'
      · rcases hsign with rfl | rfl <;> rfl
      · rw [not_or] at hsign
        have hnone (cs : List Char) : splitSign (c :: cs) = (false, c :: cs) :=
          splitSign_noSign (by rintro e ⟨⟩; exact hsign)
        rw [List.cons_append, hnone, hnone]
        rfl

/-- The characters of the sign at the front of a text. -/
theorem signLength_before :
    (cs ++ d :: more).length - (splitSign (cs ++ d :: more)).2.length =
      cs.length - (splitSign cs).2.length := by
  rw [hd.splitSign_before, List.length_append, List.length_append]
  omega

theorem mantissaLength_before : mantissaLength (cs ++ d :: more) = mantissaLength cs := by
  rw [mantissaLength, mantissaLength, hd.spanDigits_before]
  cases hrest : (spanDigits cs).2 with
  | nil =>
      simp only [List.nil_append]
      split
      next heq => exact absurd (List.cons.inj heq).1 hd.point
      next => rfl
  | cons c rest =>
      by_cases hc : c = '.'
      · subst hc
        simp only [List.cons_append, hd.spanDigits_before]
      · simp [hc]

theorem exponentMarkLength_before :
    exponentMarkLength (cs ++ d :: more) = exponentMarkLength cs := by
  cases cs with
  | nil => simp only [List.nil_append, exponentMarkLength, if_neg hd.not_mark]
  | cons c cs => simp only [List.cons_append, exponentMarkLength, hd.signLength_before]

theorem exponentLength_before : exponentLength (cs ++ d :: more) = exponentLength cs := by
  cases cs with
  | nil => simp only [List.nil_append, exponentLength, if_neg hd.not_mark]
  | cons c cs =>
      simp only [List.cons_append, exponentLength, hd.signLength_before]
      simp only [hd.splitSign_before, hd.spanDigits_before]

end IsDelimiter

theorem length_spanDigits_add (cs : List Char) :
    (spanDigits cs).1.length + (spanDigits cs).2.length = cs.length := by
  rw [← List.length_append, spanDigits_append]

theorem mantissaLength_le (cs : List Char) : mantissaLength cs ≤ cs.length := by
  have hlength := length_spanDigits_add cs
  rw [mantissaLength]
  split
  next rest hrest =>
    have hfraction := length_spanDigits_add rest
    rw [hrest, List.length_cons] at hlength
    omega
  next => omega

theorem exponentLength_le (cs : List Char) : exponentLength cs ≤ cs.length := by
  cases cs with
  | nil => exact Nat.le_refl 0
  | cons c cs =>
      have hdigits := length_spanDigits_add (splitSign cs).2
      have hsign : (splitSign cs).2.length ≤ cs.length := by
        rw [splitSign.eq_def]
        split <;> simp
      simp only [exponentLength, List.length_cons]
      split
      · split <;> omega
      · omega

theorem exponentMarkLength_le (cs : List Char) : exponentMarkLength cs ≤ cs.length := by
  cases cs with
  | nil => exact Nat.le_refl 0
  | cons c cs =>
      simp only [exponentMarkLength, List.length_cons]
      split <;> omega

/-- A number is the same in front of a delimiter, and so is an error about one. -/
theorem readNumber_before (hd : IsDelimiter d) (cs more : List Char) :
    readNumber (cs ++ d :: more) = readNumber cs := by
  have hmantissa := mantissaLength_le cs
  have hexponent := exponentLength_le (cs.drop (mantissaLength cs))
  have hmark := exponentMarkLength_le (cs.drop (mantissaLength cs))
  rw [List.length_drop] at hexponent hmark
  have hlength : mantissaLength cs + exponentLength (cs.drop (mantissaLength cs)) ≤ cs.length := by
    omega
  have hmarked : mantissaLength cs + exponentMarkLength (cs.drop (mantissaLength cs)) ≤
      cs.length := by
    omega
  have hdrop {n : Nat} (hn : n ≤ cs.length) :
      (cs ++ d :: more).drop n = cs.drop n ++ d :: more := List.drop_append_of_le_length hn
  have htake {n : Nat} (hn : n ≤ cs.length) : (cs ++ d :: more).take n = cs.take n :=
    List.take_append_of_le_length hn
  have hhead (cs : List Char) :
      (cs ++ d :: more).head?.any isIdentStart = cs.head?.any isIdentStart := by
    cases cs with
    | nil => simp [hd.not_isIdentStart]
    | cons c cs => rfl
  simp only [readNumber, hd.mantissaLength_before, hdrop hmantissa, hd.exponentMarkLength_before,
    hd.exponentLength_before, hdrop hlength, htake hlength, htake hmarked, hhead]

theorem length_readNumber {cs : List Char} {lexeme : Lexeme} (h : readNumber cs = .ok lexeme) :
    lexeme.more ≤ cs.length - 1 := by
  have hmantissa := mantissaLength_le cs
  have hexponent := exponentLength_le (cs.drop (mantissaLength cs))
  rw [List.length_drop] at hexponent
  simp only [readNumber] at h
  split at h
  · cases h
  · split at h
    · cases h
    · split at h
      · cases h
        dsimp only
        omega
      · cases h

/-! ## Strings -/

theorem pushChar_eq_ok_iff {c : Char} {width : Nat} {r : Except SyntaxError (List Char × Nat)}
    {q : List Char × Nat} :
    pushChar c width r = .ok q ↔ ∃ p, r = .ok p ∧ q = (c :: p.1, p.2 + width) := by
  cases r <;> simp [pushChar, eq_comm]

/-- A text in quotes is read up to its closing quote, wherever it starts and whatever follows. -/
theorem readQuoted_append {quote : Char} {start pos : Nat} {cs : List Char} {q : List Char × Nat}
    (h : readQuoted quote start pos cs = .ok q) (start' pos' : Nat) (more : List Char) :
    readQuoted quote start' pos' (cs ++ more) = .ok q ∧ q.2 ≤ cs.length := by
  fun_induction readQuoted quote start pos cs generalizing q pos' with
  | case1 => cases h
  | case2 pos rest =>
      cases h
      rw [List.cons_append, readQuoted.eq_def]
      simp
  | case3 pos c rest hquote hplain ih =>
      obtain ⟨p, hp, rfl⟩ := pushChar_eq_ok_iff.mp h
      obtain ⟨hread, hlength⟩ := ih hp (pos' + c.utf8Size)
      rw [List.cons_append, readQuoted.eq_def]
      simp [hquote, hplain, hread, pushChar, hlength]
  | case4 => cases h
  | case5 pos c hquote hescape a b c' d rest r hcode ih =>
      obtain ⟨p, hp, rfl⟩ := pushChar_eq_ok_iff.mp h
      obtain ⟨hread, hlength⟩ := ih hp (pos' + 6)
      simp only [List.cons_append]
      rw [readQuoted.eq_def]
      simp [hquote, hescape, hcode, hread, pushChar, hlength]
  | case6 => cases h
  | case7 => cases h
  | case8 pos c hquote hescape e rest hletter r hsimple ih =>
      obtain ⟨p, hp, rfl⟩ := pushChar_eq_ok_iff.mp h
      obtain ⟨hread, hlength⟩ := ih hp (pos' + 2)
      simp only [List.cons_append]
      rw [readQuoted.eq_def]
      simp [hquote, hescape, hletter, hsimple, hread, pushChar, hlength]
  | case9 => cases h

/-! ## Tokens -/

/-- What goes on with a punctuator is no delimiter. -/
theorem isPrefixOf_before (hd : IsDelimiter d) (p : Punct) (c : Char) (rest more : List Char) :
    p.text.toList.isPrefixOf (c :: (rest ++ d :: more)) = p.text.toList.isPrefixOf (c :: rest) := by
  obtain ⟨first, others, htext, -⟩ := p.text_eq_cons
  have hpunct : d ∉ others := by simpa [htext] using hd.punct p
  have hothers : others.isPrefixOf (rest ++ d :: more) = others.isPrefixOf rest := by
    clear htext
    induction others generalizing rest with
    | nil => rfl
    | cons o others ih =>
        rw [List.mem_cons, not_or] at hpunct
        obtain ⟨ho, hothers⟩ := hpunct
        cases rest with
        | nil => simp [List.isPrefixOf, Ne.symm ho]
        | cons r rest => simp [List.isPrefixOf, ih rest hothers]
  rw [htext, List.isPrefixOf, List.isPrefixOf, hothers]

/-- A token is read in the same way in front of a delimiter. -/
theorem readLexeme_before (hd : IsDelimiter d) {pos : Nat} {c : Char} {rest : List Char}
    {lexeme : Lexeme} (h : readLexeme pos c rest = .ok lexeme) (pos' : Nat) (more : List Char) :
    readLexeme pos' c (rest ++ d :: more) = .ok lexeme ∧ lexeme.more ≤ rest.length := by
  have hhead : (rest ++ d :: more).head?.any Char.isDigit = rest.head?.any Char.isDigit := by
    cases rest with
    | nil => simp [hd.not_isDigit]
    | cons r rest => rfl
  rw [readLexeme] at h ⊢
  rw [hhead]
  -- In the order of the lexer: numbers, strings, names, punctuators.
  split at h
  next hnumber =>
    rw [if_pos hnumber, ← List.cons_append, readNumber_before hd]
    exact ⟨h, length_readNumber h⟩
  next hnumber =>
    rw [if_neg hnumber]
    split at h
    next hquote =>
      rw [if_pos hquote]
      obtain ⟨q, hq, rfl⟩ := map_eq_ok_iff.mp h
      obtain ⟨hread, hlength⟩ := readQuoted_append hq pos' (pos' + 1) (d :: more)
      rw [hread]
      exact ⟨rfl, hlength⟩
    next hquote =>
      rw [if_neg hquote]
      split at h
      next hstart =>
        rw [if_pos hstart, takeWhile_stop hd.part]
        cases h
        exact ⟨rfl, (List.takeWhile_prefix _).length_le⟩
      next hstart =>
        rw [if_neg hstart]
        simp only [isPrefixOf_before hd]
        split at h
        next p hp =>
          cases h
          refine ⟨rfl, ?_⟩
          have hfound := List.find?_some hp
          have hprefix := List.isPrefixOf_iff_prefix.mp hfound
          have hlength := hprefix.length_le
          simp only [List.length_cons] at hlength
          dsimp only
          omega
        next => cases h

/-! ## Texts -/

namespace Token

/-- A text in front of another is read as the given tokens, wherever it stands. -/
def ReadsAs (cs : List Char) (ks : List TokenKind) (rest : List Char) : Prop :=
  ∀ pos, ∃ next, kindsFrom pos (cs ++ rest) = (kindsFrom next rest).map fun us => ks ++ us

namespace ReadsAs

variable {cs ds rest : List Char} {ks ls : List TokenKind}

theorem nil (rest : List Char) : ReadsAs [] [] rest :=
  fun pos => ⟨pos, (Word.map_nil_append _).symm⟩

theorem append (h : ReadsAs cs ks (ds ++ rest)) (h' : ReadsAs ds ls rest) :
    ReadsAs (cs ++ ds) (ks ++ ls) rest := by
  intro pos
  obtain ⟨middle, hmiddle⟩ := h pos
  obtain ⟨next, hnext⟩ := h' middle
  refine ⟨next, ?_⟩
  rw [List.append_assoc, hmiddle, hnext]
  cases kindsFrom next rest with
  | error err => rfl
  | ok us => simp [Except.map]

/-- At the end of a text, its tokens are all there are. -/
theorem kindsFrom_eq (h : ReadsAs cs ks []) (pos : Nat) : kindsFrom pos cs = .ok ks := by
  obtain ⟨next, hnext⟩ := h pos
  rw [List.append_nil, kindsFrom_nil] at hnext
  simpa [Except.map] using hnext

end ReadsAs

/-- A text that can be read on its own is read as the same tokens in front of a delimiter. -/
theorem readsAs_before (hd : IsDelimiter d) {pos : Nat} {cs : List Char} {ks : List TokenKind}
    (h : kindsFrom pos cs = .ok ks) (more : List Char) : ReadsAs cs ks (d :: more) := by
  match cs with
  | [] =>
      rw [kindsFrom_nil] at h
      cases h
      exact .nil _
  | c :: rest =>
      intro pos'
      rw [List.cons_append]
      by_cases hblank : Text.isBlank c = true
      · rw [kindsFrom_blank hblank] at h ⊢
        exact readsAs_before hd h more _
      · rw [Bool.not_eq_true] at hblank
        obtain ⟨lexeme, next, us, hlexeme, hus, rfl⟩ := exists_lexeme_of_kindsFrom hblank h
        obtain ⟨hlexeme', hlength⟩ := readLexeme_before hd hlexeme pos' more
        obtain ⟨start, hstart⟩ := kindsFrom_lexeme hblank hlexeme'
        rw [List.drop_append_of_le_length hlength] at hstart
        obtain ⟨stop, hstop⟩ := readsAs_before hd hus more start
        refine ⟨stop, ?_⟩
        rw [hstart, hstop]
        cases kindsFrom stop (d :: more) <;> rfl
termination_by cs.length
decreasing_by
  all_goals simp only [List.length_cons, List.length_drop]
  all_goals omega

end Token

end RecordQuery
