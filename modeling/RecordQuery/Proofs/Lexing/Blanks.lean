import RecordQuery.Proofs.Lexing.Partition

/-! # Blanks around a text

Blanks in front of a text and behind it are no part of its tokens: a text that can be read has the
same tokens without them, since no token goes on into the blanks behind it.
-/

namespace RecordQuery

namespace Text

variable {cs before after : List Char}

/-- No characters but blanks. -/
def Blanks (cs : List Char) : Prop := ∀ c ∈ cs, isBlank c = true

theorem blanks_space : Blanks [' '] :=
  List.forall_mem_singleton.mpr (by decide)

theorem trimStart_append (h : Blanks before) (cs : List Char) :
    trimStart (before ++ cs) = trimStart cs :=
  List.dropWhile_append_of_pos h

theorem trimStart_cons {c : Char} (hc : isBlank c = false) (cs : List Char) :
    trimStart (c :: cs) = c :: cs :=
  List.dropWhile_cons_of_neg (by rw [hc]; exact Bool.false_ne_true)

theorem trimEnd_append (h : Blanks after) (cs : List Char) :
    trimEnd (cs ++ after) = trimEnd cs := by
  rw [trimEnd, List.reverse_append,
    List.dropWhile_append_of_pos fun c hc => h c (List.mem_reverse.mp hc)]
  rfl

theorem trimStart_append_of_ne_nil (h : trimStart cs ≠ []) (more : List Char) :
    trimStart (cs ++ more) = trimStart cs ++ more := by
  have hsome : ¬(cs.dropWhile isBlank).isEmpty = true := by rwa [List.isEmpty_iff]
  rw [trimStart, List.dropWhile_append, if_neg hsome]
  rfl

theorem trimEnd_append_of_ne_nil (h : trimEnd cs ≠ []) (front : List Char) :
    trimEnd (front ++ cs) = front ++ trimEnd cs := by
  have hsome : ¬(cs.reverse.dropWhile isBlank).isEmpty = true := by
    rw [List.isEmpty_iff]
    exact fun hnil => h (by rw [trimEnd, hnil, List.reverse_nil])
  rw [trimEnd, List.reverse_append, List.dropWhile_append, if_neg hsome, List.reverse_append,
    List.reverse_reverse]
  rfl

theorem trimEnd_concat {c : Char} (hc : isBlank c = false) (cs : List Char) :
    trimEnd (cs ++ [c]) = cs ++ [c] :=
  List.rdropWhile_concat_neg _ _ c (by rw [hc]; exact Bool.false_ne_true)

theorem trim_append (h : Blanks before) (cs : List Char) : trim (before ++ cs) = trim cs := by
  rw [trim, trimStart_append h, trim]

/-- A text is its trimmed form with blanks around it. -/
theorem exists_blanks_around (cs : List Char) :
    ∃ before after, cs = before ++ (trim cs ++ after) ∧ Blanks before ∧ Blanks after := by
  refine ⟨cs.takeWhile isBlank, (trimStart cs).rtakeWhile isBlank, ?_, ?_, ?_⟩
  · have hend : trim cs ++ (trimStart cs).rtakeWhile isBlank = trimStart cs :=
      List.rdropWhile_append_rtakeWhile
    rw [hend]
    exact List.takeWhile_append_dropWhile.symm
  · exact fun c hc => List.mem_takeWhile_imp hc
  · exact fun c hc => List.mem_rtakeWhile_imp hc

/-- A trimmed text starts with no blank. -/
theorem isBlank_of_trim_eq_cons {c : Char} {rest : List Char} (h : trim cs = c :: rest) :
    isBlank c = false := by
  have hprefix : trim cs <+: cs.dropWhile isBlank := List.rdropWhile_prefix isBlank _
  obtain ⟨more, hmore⟩ := hprefix
  have hhead := List.head?_dropWhile_not isBlank cs
  rw [← hmore, h] at hhead
  simpa using hhead

/-- A trimmed text ends with no blank. -/
theorem eq_nil_of_trim_eq_append {front : List Char} (h : trim cs = front ++ after)
    (hafter : Blanks after) : after = [] := by
  have hstable : trimEnd (trim cs) = trim cs := List.rdropWhile_idempotent isBlank _
  rw [h, trimEnd_append hafter] at hstable
  have hprefix : trimEnd front <+: front := List.rdropWhile_prefix isBlank _
  have hlength := hprefix.length_le
  rw [hstable, List.length_append] at hlength
  exact List.length_eq_zero_iff.mp (by omega)

end Text

open Token

/-! ## Strings in front of blanks -/

theorem pushChar_eq_error_iff {c : Char} {width : Nat} {r : Except SyntaxError (List Char × Nat)}
    {e : SyntaxError} : pushChar c width r = .error e ↔ r = .error e := by
  cases r <;> simp [pushChar]

theorem ne_of_isBlank {c d : Char} (hc : Text.isBlank c = true) (hd : Text.isBlank d = false) :
    c ≠ d := by
  rintro rfl
  rw [hc] at hd
  cases hd

/-- A blank is no hexadecimal digit. -/
theorem hexDigitValue?_blank {d : Char} (hd : Text.isBlank d = true) : hexDigitValue? d = none := by
  have hdigit : d.isDigit = false := by
    rw [Bool.eq_false_iff]
    intro hdigit
    rw [isBlank_of_isIdentPart (isIdentPart_of_isDigit hdigit)] at hd
    cases hd
  have hletter {first last : Char}
      (h : ∀ r ∈ [(first.toNat, last.toNat)], ∀ s ∈ Text.blankRanges, r.2 < s.1 ∨ s.2 < r.1) :
      ¬(first ≤ d ∧ d ≤ last) := by
    rintro ⟨hfirst, hlast⟩
    have hnone : Text.isBlank d = false :=
      Text.inRanges_eq_false_of_apart h (Text.inRanges_of_le hfirst hlast [])
    rw [hnone] at hd
    cases hd
  rw [hexDigitValue?, hdigit, if_neg Bool.false_ne_true, if_neg (hletter (by decide)),
    if_neg (hletter (by decide))]

theorem codeEscape?_blank {d : Char} (hd : Text.isBlank d = true) (a b c : Char) :
    codeEscape? a b c d = none := by
  have hnone (cs : List Char) : hexValue? (cs ++ [d]) = none := by
    rw [hexValue?.eq_def]
    cases cs <;> simp [hexDigitValue?_blank hd]
  rw [codeEscape?]
  split
  · exact congrArg (Option.bind · _) (hnone [b, c])
  · exact congrArg (Option.bind · _) (hnone [a, b, c])

theorem simpleEscape?_blank {d : Char} (hd : Text.isBlank d = true) : simpleEscape? d = none := by
  rw [simpleEscape?.eq_def]
  split
  case h_10 => rfl
  all_goals exact absurd hd (by decide)

theorem readQuoted_blanks {quote : Char} (hquote : Text.isBlank quote = false) (start pos : Nat)
    {blanks : List Char} (h : Text.Blanks blanks) :
    ∃ e, readQuoted quote start pos blanks = .error e := by
  induction blanks generalizing pos with
  | nil => exact ⟨_, by rw [readQuoted.eq_def]⟩
  | cons c blanks ih =>
      obtain ⟨hc, hblanks⟩ := List.forall_mem_cons.mp h
      obtain ⟨e, he⟩ := ih (pos + c.utf8Size) hblanks
      refine ⟨e, ?_⟩
      rw [readQuoted.eq_def]
      simp [ne_of_isBlank hc hquote, ne_of_isBlank hc (d := '\\') (by decide), he, pushChar]

/-- A string that cannot be read is not closed by blanks behind it, nor is an escape at its end
completed. -/
theorem readQuoted_error_append {quote : Char} (hquote : Text.isBlank quote = false)
    {start pos : Nat} {cs blanks : List Char} {err : SyntaxError}
    (h : readQuoted quote start pos cs = .error err) (hblanks : Text.Blanks blanks) :
    ∃ e, readQuoted quote start pos (cs ++ blanks) = .error e := by
  fun_induction readQuoted quote start pos cs with
  | case1 => exact readQuoted_blanks hquote _ _ hblanks
  | case2 => cases h
  | case3 pos c rest hne hplain ih =>
      obtain ⟨e, he⟩ := ih (pushChar_eq_error_iff.mp h)
      refine ⟨e, ?_⟩
      rw [List.cons_append, readQuoted.eq_def]
      simp [hne, hplain, he, pushChar]
  | case4 pos c hne hescape =>
      cases blanks with
      | nil => exact ⟨err, by rw [List.append_nil, readQuoted.eq_def]; simp [hne, hescape, h]⟩
      | cons d blanks =>
          have hd := hblanks d List.mem_cons_self
          refine ⟨.invalidEscape pos, ?_⟩
          rw [List.singleton_append, readQuoted.eq_def]
          simp [hne, hescape, ne_of_isBlank hd (d := 'u') (by decide), simpleEscape?_blank hd]
  | case5 pos c hne hescape a b c' d rest r hcode ih =>
      obtain ⟨e, he⟩ := ih (pushChar_eq_error_iff.mp h)
      refine ⟨e, ?_⟩
      simp only [List.cons_append]
      rw [readQuoted.eq_def]
      simp [hne, hescape, hcode, he, pushChar]
  | case6 pos c hne hescape a b c' d rest hcode =>
      refine ⟨.invalidEscape pos, ?_⟩
      simp only [List.cons_append]
      rw [readQuoted.eq_def]
      simp [hne, hescape, hcode]
  | case7 pos c hne hescape rest hshort =>
      -- Of four characters that are not all there, the last one is a blank.
      have hlast {a b c' d : Char} {more : List Char}
          (hmore : rest ++ blanks = a :: b :: c' :: d :: more) : codeEscape? a b c' d = none := by
        refine codeEscape?_blank (hblanks d ?_) a b c'
        rcases rest with _ | ⟨_, _ | ⟨_, _ | ⟨_, _ | ⟨_, rest⟩⟩⟩⟩
        case cons.cons.cons.cons => exact (hshort _ _ _ _ _ rfl).elim
        all_goals simp_all
      refine ⟨.invalidEscape pos, ?_⟩
      simp only [List.cons_append]
      rw [readQuoted.eq_def]
      simp only [hne, hescape, if_false, if_true]
      split
      next hmore => simp [hlast hmore]
      next => rfl
  | case8 pos c hne hescape e rest hletter r hsimple ih =>
      obtain ⟨e, he⟩ := ih (pushChar_eq_error_iff.mp h)
      refine ⟨e, ?_⟩
      simp only [List.cons_append]
      rw [readQuoted.eq_def]
      simp [hne, hescape, hletter, hsimple, he, pushChar]
  | case9 pos c hne hescape e rest hletter hsimple =>
      refine ⟨.invalidEscape pos, ?_⟩
      simp only [List.cons_append]
      rw [readQuoted.eq_def]
      simp [hne, hescape, hletter, hsimple]

theorem readQuoted_of_append_blanks {quote : Char} (hquote : Text.isBlank quote = false)
    {start pos : Nat} {cs blanks : List Char} {q : List Char × Nat}
    (h : readQuoted quote start pos (cs ++ blanks) = .ok q) (hblanks : Text.Blanks blanks) :
    readQuoted quote start pos cs = .ok q := by
  cases hread : readQuoted quote start pos cs with
  | error err =>
      obtain ⟨e, he⟩ := readQuoted_error_append hquote hread hblanks
      rw [he] at h
      cases h
  | ok p =>
      rw [(readQuoted_append hread start pos blanks).1] at h
      exact h

/-! ## Tokens in front of blanks -/

/-- A token in front of blanks is read in the same way without them. -/
theorem readLexeme_of_append_blanks {pos : Nat} {c d : Char} {rest blanks : List Char}
    {lexeme : Lexeme} (h : readLexeme pos c (rest ++ d :: blanks) = .ok lexeme)
    (hblanks : Text.Blanks (d :: blanks)) : readLexeme pos c rest = .ok lexeme := by
  have hd := isDelimiter_of_isBlank (hblanks d List.mem_cons_self)
  have hhead : (rest ++ d :: blanks).head?.any Char.isDigit = rest.head?.any Char.isDigit := by
    cases rest with
    | nil => simp [hd.not_isDigit]
    | cons r rest => rfl
  rw [readLexeme] at h ⊢
  rw [hhead, ← List.cons_append, readNumber_before hd, List.cons_append,
    takeWhile_stop hd.part] at h
  simp only [isPrefixOf_before hd] at h
  -- Only a string could go on into the blanks.
  by_cases hquote : c = '"' ∨ c = '\''
  · have hblank : Text.isBlank c = false := by
      rcases hquote with rfl | rfl <;> decide
    have hnumber : ¬(c.isDigit || (c == '.' && rest.head?.any Char.isDigit)) = true := by
      rcases hquote with rfl | rfl <;> simp [Char.isDigit]
    rw [if_neg hnumber, if_pos hquote] at h ⊢
    obtain ⟨q, hq, rfl⟩ := map_eq_ok_iff.mp h
    rw [readQuoted_of_append_blanks hblank hq hblanks]
    rfl
  · rw [if_neg hquote] at h ⊢
    exact h

namespace Token

theorem exists_lexeme_of_scanFrom {pos : Nat} {c : Char} {rest : List Char} {tokens : Tokens}
    (hc : ¬Text.isBlank c = true) (h : scanFrom pos (c :: rest) = .ok tokens) :
    ∃ lexeme more, readLexeme pos c rest = .ok lexeme ∧
      scanFrom (pos + c.utf8Size + byteLength (rest.take lexeme.more)) (rest.drop lexeme.more) =
        .ok more ∧
      tokens = ⟨⟨lexeme.kind, pos⟩ :: more.list, more.stop⟩ := by
  rw [scanFrom, if_neg hc] at h
  split at h
  next => cases h
  next lexeme hlexeme =>
    dsimp only at h
    split at h
    next => cases h
    next more hmore => exact ⟨lexeme, more, hlexeme, hmore, (Except.ok.inj h).symm⟩

/-- A text that can be read with blanks behind it has the same tokens without them. -/
theorem scanFrom_of_append_blanks {pos : Nat} {cs blanks : List Char} {d : Char} {tokens : Tokens}
    (h : scanFrom pos (cs ++ d :: blanks) = .ok tokens) (hblanks : Text.Blanks (d :: blanks)) :
    ∃ stop, scanFrom pos cs = .ok ⟨tokens.list, stop⟩ := by
  match cs with
  | [] =>
      rw [List.nil_append, scanFrom_blanks hblanks] at h
      cases h
      exact ⟨pos, by rw [scanFrom]⟩
  | c :: rest =>
      rw [List.cons_append] at h
      by_cases hc : Text.isBlank c = true
      · rw [scanFrom, if_pos hc] at h
        obtain ⟨stop, hstop⟩ := scanFrom_of_append_blanks h hblanks
        exact ⟨stop, by rw [scanFrom, if_pos hc, hstop]⟩
      · obtain ⟨lexeme, more, hlexeme, hmore, rfl⟩ := exists_lexeme_of_scanFrom hc h
        have hread := readLexeme_of_append_blanks hlexeme hblanks
        have hlength := (readLexeme_before isDelimiter_rightParen hread pos []).2
        rw [List.take_append_of_le_length hlength, List.drop_append_of_le_length hlength] at hmore
        obtain ⟨stop, hstop⟩ := scanFrom_of_append_blanks hmore hblanks
        refine ⟨stop, ?_⟩
        rw [scanFrom, if_neg hc, hread]
        simp only [hstop]
termination_by cs.length
decreasing_by
  all_goals simp only [List.length_cons, List.length_drop]
  all_goals omega

theorem kindsFrom_of_append_blanks {pos : Nat} {cs blanks : List Char} {d : Char}
    {ks : List TokenKind} (h : kindsFrom pos (cs ++ d :: blanks) = .ok ks)
    (hblanks : Text.Blanks (d :: blanks)) : kindsFrom pos cs = .ok ks := by
  obtain ⟨tokens, htokens, rfl⟩ := map_eq_ok_iff.mp h
  obtain ⟨stop, hstop⟩ := scanFrom_of_append_blanks htokens hblanks
  rw [kindsFrom, hstop]
  rfl

/-- The tokens of a text are the same wherever the text starts. -/
theorem kindsFrom_position {pos : Nat} {cs : List Char} {ks : List TokenKind}
    (h : kindsFrom pos cs = .ok ks) (pos' : Nat) : kindsFrom pos' cs = .ok ks := by
  have hreads : ReadsAs cs ks [' '] := readsAs_before (isDelimiter_of_isBlank (by decide)) h []
  obtain ⟨next, hnext⟩ := hreads pos'
  refine kindsFrom_of_append_blanks (hnext.trans ?_) Text.blanks_space
  rw [kindsFrom_blank (by decide), kindsFrom_nil]
  exact congrArg Except.ok (List.append_nil ks)

/-- A text has the same tokens without the blanks around it. -/
theorem kindsFrom_trim {pos : Nat} {cs : List Char} {ks : List TokenKind}
    (h : kindsFrom pos cs = .ok ks) : kindsFrom pos (Text.trim cs) = .ok ks := by
  obtain ⟨before, after, hcs, hbefore, hafter⟩ := Text.exists_blanks_around cs
  generalize Text.trim cs = core at hcs
  subst hcs
  have hfront : kindsFrom pos (core ++ after) = .ok ks := by
    induction before generalizing pos with
    | nil => exact h
    | cons c before ih =>
        obtain ⟨hc, hbefore⟩ := List.forall_mem_cons.mp hbefore
        rw [List.cons_append, kindsFrom_blank hc] at h
        exact kindsFrom_position (ih hbefore h) pos
  cases after with
  | nil => rwa [List.append_nil] at hfront
  | cons d after => exact kindsFrom_of_append_blanks hfront hafter

end Token

end RecordQuery
