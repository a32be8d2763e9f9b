import RecordQuery.Proofs.Lexing.Delimiters

/-! # Tokens cut out of their texts

A token looks at no more than one character after it, and only to find out that it ends. So it is
read in the same way from the characters that it takes, with nothing or with blanks after them. A
punctuator in a text is the longest one that stands there.
-/

namespace RecordQuery

open Token Decimal

/-! ## Numbers -/

theorem takeWhile_take {p : Char → Bool} {n : Nat} {cs : List Char}
    (h : (cs.takeWhile p).length ≤ n) : (cs.take n).takeWhile p = cs.takeWhile p := by
  rw [← List.take_takeWhile, List.take_of_length_le h]

theorem dropWhile_take {p : Char → Bool} {n : Nat} {cs : List Char}
    (h : (cs.takeWhile p).length ≤ n) :
    (cs.take n).dropWhile p = (cs.dropWhile p).take (n - (cs.takeWhile p).length) := by
  have htake : cs.take n =
      cs.takeWhile p ++ (cs.dropWhile p).take (n - (cs.takeWhile p).length) := by
    conv_lhs => rw [← List.takeWhile_append_dropWhile (p := p) (l := cs)]
    rw [List.take_append, List.take_of_length_le h]
  have hsplit := List.takeWhile_append_dropWhile (p := p) (l := cs.take n)
  rw [takeWhile_take h] at hsplit
  exact List.append_cancel_left (hsplit.trans htake)

theorem spanDigits_take {n : Nat} {cs : List Char} (h : (spanDigits cs).1.length ≤ n) :
    spanDigits (cs.take n) =
      ((spanDigits cs).1, (spanDigits cs).2.take (n - (spanDigits cs).1.length)) :=
  Prod.ext (takeWhile_take h) (dropWhile_take h)

theorem mantissaLength_take {n : Nat} {cs : List Char} (h : mantissaLength cs ≤ n) :
    mantissaLength (cs.take n) = mantissaLength cs := by
  have hwhole : (spanDigits cs).1.length ≤ n := by
    refine Nat.le_trans ?_ h
    rw [mantissaLength]
    split <;> omega
  rw [mantissaLength, mantissaLength, spanDigits_take hwhole]
  rw [mantissaLength] at h
  cases hrest : (spanDigits cs).2 with
  | nil => simp
  | cons c rest =>
      by_cases hc : c = '.'
      · subst hc
        simp only [hrest] at h
        obtain ⟨m, hm⟩ : ∃ m, n - (spanDigits cs).1.length = m + 1 :=
          Nat.exists_eq_succ_of_ne_zero (by omega)
        have hfraction : (spanDigits rest).1.length ≤ m := by omega
        simp only [hm, List.take_succ_cons, spanDigits_take hfraction]
      · cases n - (spanDigits cs).1.length <;> simp [hc]

/-- A text that goes on behind its sign keeps the sign. -/
theorem splitSign_take {n : Nat} {cs : List Char} (h : cs.length - (splitSign cs).2.length ≤ n) :
    (splitSign (cs.take n)).2 =
        (splitSign cs).2.take (n - (cs.length - (splitSign cs).2.length)) ∧
      (cs.take n).length - (splitSign (cs.take n)).2.length =
        cs.length - (splitSign cs).2.length := by
  cases cs with
  | nil => simp [splitSign]
  | cons c rest =>
      by_cases hsign : c = '+' ∨ c = '-'
      · have hsplit (cs : List Char) : (splitSign (c :: cs)).2 = cs := splitSign_sign hsign cs
        rw [hsplit, List.length_cons, Nat.add_sub_cancel_left] at h ⊢
        obtain ⟨m, rfl⟩ := Nat.exists_eq_succ_of_ne_zero (Nat.ne_of_gt h)
        simp [hsplit]
      · rw [not_or] at hsign
        have hsplit {cs : List Char} (hcs : ∀ d ∈ cs.head?, d = c) : splitSign cs = (false, cs) :=
          splitSign_noSign fun d hd => hcs d hd ▸ hsign
        have hfront : ∀ d ∈ ((c :: rest).take n).head?, d = c := by
          cases n <;> simp [eq_comm]
        rw [hsplit hfront, hsplit (by simp [eq_comm])]
        simp

theorem exponentLength_take (cs : List Char) :
    exponentLength (cs.take (exponentLength cs)) = exponentLength cs := by
  cases cs with
  | nil => rfl
  | cons c rest =>
      by_cases hmark : c = 'e' ∨ c = 'E'
      · have hlength (rest : List Char) : exponentLength (c :: rest) =
            if (spanDigits (splitSign rest).2).1.length = 0 then 0
            else 1 + (rest.length - (splitSign rest).2.length) +
              (spanDigits (splitSign rest).2).1.length := by
          simp only [exponentLength, if_pos hmark]
        by_cases hdigits : (spanDigits (splitSign rest).2).1.length = 0
        · rw [hlength rest, if_pos hdigits]
          rfl
        · obtain ⟨hrest, hsign⟩ := @splitSign_take _ rest (Nat.le_add_right _ _)
          rw [hlength rest, if_neg hdigits, Nat.add_assoc, Nat.add_comm 1, List.take_succ_cons,
            hlength, hsign, hrest, Nat.add_sub_cancel_left, spanDigits_take (Nat.le_refl _)]
          dsimp only
          rw [if_neg hdigits]
          omega
      · simp [exponentLength, hmark]

/-- How many characters a number at the front of a text takes. -/
def numberLength (cs : List Char) : Nat :=
  mantissaLength cs + exponentLength (cs.drop (mantissaLength cs))

theorem readNumber_eq_ok {cs : List Char} {lexeme : Lexeme} (h : readNumber cs = .ok lexeme) :
    ∃ x, readFloat? (cs.take (numberLength cs)) = some x ∧
      lexeme = ⟨.number x, numberLength cs - 1⟩ := by
  simp only [readNumber] at h
  split at h
  · cases h
  · split at h
    · cases h
    · split at h
      next x hx =>
        cases h
        exact ⟨x, hx, rfl⟩
      next => cases h

theorem readNumber_take {cs : List Char} {lexeme : Lexeme} (h : readNumber cs = .ok lexeme) :
    readNumber (cs.take (numberLength cs)) = .ok lexeme := by
  obtain ⟨x, hx, rfl⟩ := readNumber_eq_ok h
  have hmantissa : mantissaLength (cs.take (numberLength cs)) = mantissaLength cs :=
    mantissaLength_take (Nat.le_add_right _ _)
  have hdrop : (cs.take (numberLength cs)).drop (mantissaLength cs) =
      (cs.drop (mantissaLength cs)).take (exponentLength (cs.drop (mantissaLength cs))) := by
    rw [List.drop_take, numberLength, Nat.add_sub_cancel_left]
  have hmark : ¬(exponentMarkLength ((cs.drop (mantissaLength cs)).take
      (exponentLength (cs.drop (mantissaLength cs)))) ≠ 0 ∧
      exponentLength (cs.drop (mantissaLength cs)) = 0) := by
    rintro ⟨hne, hzero⟩
    rw [hzero] at hne
    exact hne rfl
  have hend : (cs.take (numberLength cs)).drop (numberLength cs) = [] :=
    List.drop_eq_nil_of_le (List.length_take_le _ _)
  simp only [readNumber, hmantissa, hdrop, exponentLength_take, if_neg hmark]
  rw [← numberLength, hend, List.take_take, Nat.min_self, hx]
  rfl

/-- A number takes its first character, and a point only with the digit after it. -/
theorem numberLength_pos {c : Char} {rest : List Char}
    (h : (c.isDigit || (c == '.' && rest.head?.any Char.isDigit)) = true) :
    1 ≤ numberLength (c :: rest) ∧ (c.isDigit = false → 2 ≤ numberLength (c :: rest)) := by
  have hmantissa : mantissaLength (c :: rest) ≤ numberLength (c :: rest) := Nat.le_add_right _ _
  cases hc : c.isDigit with
  | true =>
      have hwhole : 1 ≤ mantissaLength (c :: rest) := by
        rw [mantissaLength]
        simp only [spanDigits, List.takeWhile_cons_of_pos hc, List.length_cons]
        split <;> omega
      refine ⟨Nat.le_trans hwhole hmantissa, fun hfalse => ?_⟩
      cases hfalse
  | false =>
      simp only [hc, Bool.false_or, Bool.and_eq_true, beq_iff_eq] at h
      obtain ⟨rfl, hdigit⟩ := h
      cases rest with
      | nil => cases hdigit
      | cons d rest =>
          have hd : d.isDigit = true := hdigit
          have hpoint : mantissaLength ('.' :: d :: rest) =
              1 + (spanDigits (d :: rest)).1.length := by
            simp [mantissaLength, spanDigits, hc]
          have hfraction : 1 ≤ (spanDigits (d :: rest)).1.length := by
            simp [spanDigits, hd]
          omega

/-! ## Strings -/

/-- A text in quotes is read from the characters up to its closing quote. -/
theorem readQuoted_take {quote : Char} {start pos : Nat} {cs : List Char} {q : List Char × Nat}
    (h : readQuoted quote start pos cs = .ok q) (start' pos' : Nat) :
    readQuoted quote start' pos' (cs.take q.2) = .ok q := by
  fun_induction readQuoted quote start pos cs generalizing q pos' with
  | case1 => cases h
  | case2 pos rest =>
      cases h
      rw [List.take_succ_cons, readQuoted.eq_def]
      simp
  | case3 pos c rest hquote hplain ih =>
      obtain ⟨p, hp, rfl⟩ := pushChar_eq_ok_iff.mp h
      rw [List.take_succ_cons, readQuoted.eq_def]
      simp [hquote, hplain, ih hp, pushChar]
  | case4 => cases h
  | case5 pos c hquote hescape a b c' d rest r hcode ih =>
      obtain ⟨p, hp, rfl⟩ := pushChar_eq_ok_iff.mp h
      simp only [List.take_succ_cons]
      rw [readQuoted.eq_def]
      simp [hquote, hescape, hcode, ih hp, pushChar]
  | case6 => cases h
  | case7 => cases h
  | case8 pos c hquote hescape e rest hletter r hsimple ih =>
      obtain ⟨p, hp, rfl⟩ := pushChar_eq_ok_iff.mp h
      simp only [List.take_succ_cons]
      rw [readQuoted.eq_def]
      simp [hquote, hescape, hletter, hsimple, ih hp, pushChar]
  | case9 => cases h

/-! ## Punctuators -/

namespace Punct

/-- Of the punctuators that stand at the front of a text, the first one in the list
is the longest. -/
theorem length_le_of_find? {cs : List Char} {p q : Punct}
    (hp : (longestFirst.find? fun p => p.text.toList.isPrefixOf cs) = some p)
    (hq : q.text.toList <+: cs) : q.text.length ≤ p.text.length := by
  have hsorted : longestFirst.Pairwise fun p q => q.text.length ≤ p.text.length := by decide
  obtain ⟨-, before, after, hlist, hbefore⟩ := List.find?_eq_some_iff_append.mp hp
  have hmem := q.mem_longestFirst
  rw [hlist] at hsorted hmem
  rcases List.mem_append.mp hmem with hmem | hmem
  · have hnone := hbefore q hmem
    rw [List.isPrefixOf_iff_prefix.mpr hq] at hnone
    cases hnone
  · rcases List.mem_cons.mp hmem with rfl | hmem
    · exact Nat.le_refl _
    · exact List.rel_of_pairwise_cons (List.pairwise_append.mp hsorted).2.1 hmem

end Punct

/-- A punctuator is read where no longer one stands. -/
theorem punct_of_readLexeme {pos : Nat} {c : Char} {rest : List Char} {lexeme : Lexeme} {p : Punct}
    (h : readLexeme pos c rest = .ok lexeme) (hkind : lexeme.kind = .punct p) :
    (Punct.longestFirst.find? fun p => p.text.toList.isPrefixOf (c :: rest)) = some p := by
  rw [readLexeme] at h
  split at h
  · obtain ⟨x, -, rfl⟩ := readNumber_eq_ok h
    cases hkind
  · split at h
    · obtain ⟨q, -, rfl⟩ := map_eq_ok_iff.mp h
      cases hkind
    · split at h
      · cases h
        cases hkind
      · split at h
        next p' hp =>
          cases h
          cases hkind
          exact hp
        next => cases h

/-! ## Tokens -/

/-- A token is read from its own characters. -/
theorem readLexeme_take {pos : Nat} {c : Char} {rest : List Char} {lexeme : Lexeme}
    (h : readLexeme pos c rest = .ok lexeme) (pos' : Nat) :
    readLexeme pos' c (rest.take lexeme.more) = .ok lexeme := by
  have hhead {n : Nat} : (rest.take n).head?.any Char.isDigit = true →
      rest.head?.any Char.isDigit = true := by
    cases rest <;> cases n <;> simp
  rw [readLexeme] at h ⊢
  -- In the order of the lexer: numbers, strings, names, punctuators.
  split at h
  next hnumber =>
    obtain ⟨hpos, hpoint⟩ := numberLength_pos hnumber
    obtain ⟨x, -, rfl⟩ := readNumber_eq_ok h
    have hstart : (c.isDigit || (c == '.' &&
        (rest.take (numberLength (c :: rest) - 1)).head?.any Char.isDigit)) = true := by
      cases hc : c.isDigit with
      | true => rfl
      | false =>
          have hmore : numberLength (c :: rest) - 1 ≠ 0 := by
            have := hpoint hc
            omega
          rwa [List.head?_take, if_neg hmore, ← hc]
    rw [if_pos hstart, ← List.take_succ_cons, Nat.sub_add_cancel hpos]
    exact readNumber_take h
  next hnumber =>
    have hstart {n : Nat} :
        ¬(c.isDigit || (c == '.' && (rest.take n).head?.any Char.isDigit)) = true := by
      intro hstart
      simp only [Bool.or_eq_true, Bool.and_eq_true] at hstart hnumber
      exact hnumber (hstart.imp_right fun hpoint => ⟨hpoint.1, hhead hpoint.2⟩)
    rw [if_neg hstart]
    split at h
    next hquote =>
      rw [if_pos hquote]
      obtain ⟨q, hq, rfl⟩ := map_eq_ok_iff.mp h
      dsimp only
      rw [readQuoted_take hq]
      rfl
    next hquote =>
      rw [if_neg hquote]
      split at h
      next hname =>
        rw [if_pos hname]
        cases h
        rw [takeWhile_take (Nat.le_refl _)]
      next hname =>
        rw [if_neg hname]
        split at h
        next p hp =>
          cases h
          have hfound := List.find?_some hp
          have hprefix := List.isPrefixOf_iff_prefix.mp hfound
          have hlength : p.text.toList.length - 1 + 1 = p.text.toList.length := by
            obtain ⟨d, more, htext, -⟩ := p.text_eq_cons
            rw [htext]
            rfl
          have htext : c :: rest.take (p.text.toList.length - 1) = p.text.toList ++ [] := by
            rw [← List.take_succ_cons, hlength, ← List.prefix_iff_eq_take.mp hprefix,
              List.append_nil]
          rw [htext, Punct.find?_text (by simp)]
        next => cases h

end RecordQuery
