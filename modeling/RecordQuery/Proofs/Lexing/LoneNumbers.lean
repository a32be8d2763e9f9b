import RecordQuery.Proofs.Lexing.Blanks

/-! # Texts of one number

A text that is one number, apart from blanks, is a literal without a sign. It has none of the
characters in it that would end a string or start an escape, so in quotes it is read as a string.
-/

namespace RecordQuery

open Token Decimal

/-! ## Characters of a literal -/

/-- The characters that literals without a sign are made of. -/
def isLiteralChar (c : Char) : Bool :=
  c.isDigit || c == '.' || c == 'e' || c == 'E' || c == '+' || c == '-'

theorem isLiteralChar_of_isDigit {c : Char} (h : c.isDigit = true) : isLiteralChar c = true := by
  simp [isLiteralChar, h]

theorem forall_mem_spanDigits {p : Char → Prop} {cs : List Char}
    (hdigit : ∀ c : Char, c.isDigit = true → p c) (hrest : ∀ c ∈ (spanDigits cs).2, p c) :
    ∀ c ∈ cs, p c := by
  intro c hc
  rw [← spanDigits_append cs] at hc
  rcases List.mem_append.mp hc with hc | hc
  · exact hdigit c (List.all_eq_true.mp List.all_takeWhile c hc)
  · exact hrest c hc

theorem isLiteralChar_of_readExponent? {cs : List Char} {k : Int} (h : readExponent? cs = some k) :
    ∀ c ∈ cs, isLiteralChar c = true := by
  cases cs with
  | nil => exact List.forall_mem_nil _
  | cons c rest =>
      simp only [readExponent?] at h
      split at h
      next hmark =>
        split at h
        next hdigits =>
          have hc : isLiteralChar c = true := by
            rcases hmark with rfl | rfl <;> rfl
          have hrest : ∀ d ∈ (splitSign rest).2, isLiteralChar d = true :=
            fun d hd => isLiteralChar_of_isDigit (List.all_eq_true.mp hdigits.2 d hd)
          refine List.forall_mem_cons.mpr ⟨hc, ?_⟩
          rw [splitSign.eq_def] at hrest
          split at hrest
          · exact List.forall_mem_cons.mpr ⟨rfl, hrest⟩
          · exact List.forall_mem_cons.mpr ⟨rfl, hrest⟩
          · exact hrest
        next => cases h
      next => cases h

namespace Decimal.Literal

variable {cs : List Char} {l : Literal}

/-- After its first digits, a literal has a point and more digits or its exponent. -/
theorem rest_of_ofChars? (h : ofChars? cs = some l) :
    (∃ after, (spanDigits cs).2 = '.' :: after ∧
        readExponent? (spanDigits after).2 = some l.exponent) ∨
      (spanDigits cs).1 ≠ [] ∧ readExponent? (spanDigits cs).2 = some l.exponent := by
  simp only [ofChars?] at h
  split at h
  next after hafter =>
    split at h
    next => cases h
    next =>
      obtain ⟨k, hk, rfl⟩ := Option.map_eq_some_iff.mp h
      exact .inl ⟨after, hafter, hk⟩
  next hpoint =>
    dsimp only at h
    split at h
    next => cases h
    next hdigits =>
      obtain ⟨k, hk, rfl⟩ := Option.map_eq_some_iff.mp h
      exact .inr ⟨fun hnone => hdigits ⟨hnone, rfl⟩, hk⟩

theorem isLiteralChar_of_ofChars? (h : ofChars? cs = some l) :
    ∀ c ∈ cs, isLiteralChar c = true := by
  refine forall_mem_spanDigits (fun c => isLiteralChar_of_isDigit) ?_
  rcases rest_of_ofChars? h with ⟨after, hafter, hexponent⟩ | ⟨-, hexponent⟩
  · rw [hafter]
    exact List.forall_mem_cons.mpr ⟨rfl, forall_mem_spanDigits (fun c => isLiteralChar_of_isDigit)
      (isLiteralChar_of_readExponent? hexponent)⟩
  · exact isLiteralChar_of_readExponent? hexponent

/-- A sign starts no literal of this kind. -/
theorem splitSign_of_ofChars? (h : ofChars? cs = some l) : splitSign cs = (false, cs) := by
  refine splitSign_noSign fun c hc => ?_
  obtain ⟨rest, rfl⟩ := List.head?_eq_some_iff.mp hc
  by_contra hsign
  have hspan : spanDigits (c :: rest) = ([], c :: rest) := by
    have hdigit : c.isDigit = false := by
      rcases (by tauto : c = '+' ∨ c = '-') with rfl | rfl <;> rfl
    simp [spanDigits, hdigit]
  rcases rest_of_ofChars? h with ⟨after, hafter, -⟩ | ⟨hdigits, -⟩
  · rw [hspan] at hafter
    obtain ⟨rfl, -⟩ := List.cons_eq_cons.mp hafter
    exact hsign ⟨by decide, by decide⟩
  · exact hdigits (by rw [hspan])

end Decimal.Literal

/-! ## Texts of one number -/

/-- A number starts with a digit or with a point. -/
theorem number_of_readLexeme {pos : Nat} {c : Char} {rest : List Char} {lexeme : Lexeme} {x : Float}
    (h : readLexeme pos c rest = .ok lexeme) (hkind : lexeme.kind = .number x) :
    readNumber (c :: rest) = .ok lexeme ∧ 1 ≤ numberLength (c :: rest) ∧ c ≠ '+' ∧ c ≠ '-' := by
  rw [readLexeme] at h
  split at h
  next hnumber =>
    refine ⟨h, (numberLength_pos hnumber).1, ?_⟩
    constructor <;> rintro rfl <;> simp [Char.isDigit] at hnumber
  next =>
    split at h
    · obtain ⟨q, -, rfl⟩ := map_eq_ok_iff.mp h
      cases hkind
    · split at h
      · cases h
        cases hkind
      · split at h
        next p hp =>
          cases h
          cases hkind
        next => cases h

/-- A text without tokens is blank. -/
theorem blanks_of_kindsFrom {pos : Nat} {cs : List Char} (h : kindsFrom pos cs = .ok []) :
    Text.Blanks cs := by
  induction cs generalizing pos with
  | nil => exact List.forall_mem_nil _
  | cons c cs ih =>
      by_cases hc : Text.isBlank c = true
      · rw [kindsFrom_blank hc] at h
        exact List.forall_mem_cons.mpr ⟨hc, ih h⟩
      · rw [Bool.not_eq_true] at hc
        obtain ⟨lexeme, next, us, -, -, hks⟩ := exists_lexeme_of_kindsFrom hc h
        cases hks

/-- A text of one number is a literal with blanks around it, and the number is that
of the literal. -/
theorem exists_literal_of_scan {text : String} {x : Float} {pos stop : Nat}
    (h : scan text = .ok ⟨[⟨.number x, pos⟩], stop⟩) :
    ∃ l, Literal.ofChars? (Text.trim text.toList) = some l ∧ l.toFloat = x := by
  have hkinds : kindsFrom 0 (Text.trim text.toList) = .ok [.number x] :=
    kindsFrom_trim (map_eq_ok_iff.mpr ⟨_, h, rfl⟩)
  cases hcore : Text.trim text.toList with
  | nil =>
      rw [hcore, kindsFrom_nil] at hkinds
      cases hkinds
  | cons c rest =>
      rw [hcore] at hkinds
      obtain ⟨lexeme, next, us, hlexeme, hus, hks⟩ :=
        exists_lexeme_of_kindsFrom (Text.isBlank_of_trim_eq_cons hcore) hkinds
      obtain ⟨hkind, rfl⟩ := List.cons_eq_cons.mp hks
      obtain ⟨hread, hpos, hsign⟩ := number_of_readLexeme hlexeme hkind.symm
      obtain ⟨y, hy, rfl⟩ := readNumber_eq_ok hread
      obtain rfl : x = y := TokenKind.number.inj hkind
      -- The characters behind the number are blanks, so there are none.
      obtain ⟨n, hn⟩ : ∃ n, numberLength (c :: rest) = n + 1 := Nat.exists_eq_add_of_le' hpos
      rw [hn, List.take_succ_cons] at hy
      simp only [hn, Nat.add_sub_cancel] at hus
      have hsplit : Text.trim text.toList = c :: rest.take n ++ rest.drop n := by
        rw [hcore, List.cons_append, List.take_append_drop]
      have hend := Text.eq_nil_of_trim_eq_append hsplit (blanks_of_kindsFrom hus)
      rw [hend, List.append_nil, hcore] at hsplit
      rw [← hsplit, readFloat?, splitSign_noSign] at hy
      · obtain ⟨l, hl, rfl⟩ := Option.map_eq_some_iff.mp hy
        exact ⟨l, hl, rfl⟩
      · intro d hd
        cases hd
        exact hsign

/-! ## Texts in quotes -/

theorem readQuoted_plain {quote : Char} {cs : List Char} (h : ∀ c ∈ cs, c ≠ quote ∧ c ≠ '\\')
    (start pos : Nat) (rest : List Char) :
    readQuoted quote start pos (cs ++ quote :: rest) = .ok (cs, cs.length + 1) := by
  induction cs generalizing pos with
  | nil => rw [List.nil_append, readQuoted.eq_def]; simp
  | cons c cs ih =>
      obtain ⟨⟨hquote, hescape⟩, hcs⟩ := List.forall_mem_cons.mp h
      rw [List.cons_append, readQuoted.eq_def]
      simp [hquote, hescape, ih hcs, pushChar]

theorem readsAs_quoted {cs : List Char} (h : ∀ c ∈ cs, c ≠ '\'' ∧ c ≠ '\\') (rest : List Char) :
    ReadsAs ('\'' :: (cs ++ ['\''])) [.string (String.ofList cs)] rest := by
  intro pos
  have hlexeme : readLexeme pos '\'' (cs ++ ['\''] ++ rest) =
      .ok ⟨.string (String.ofList cs), (cs ++ ['\'']).length⟩ := by
    have hquoted := readQuoted_plain h pos (pos + 1) rest
    simp [readLexeme, hquoted, Except.map, Char.isDigit]
  exact kindsFrom_front (by decide) hlexeme

/-- No character of a text of one number ends a string or starts an escape. -/
theorem ne_of_literal_around {cs : List Char} {l : Literal}
    (h : Literal.ofChars? (Text.trim cs) = some l) : ∀ c ∈ cs, c ≠ '\'' ∧ c ≠ '\\' := by
  have hne {d : Char} (hliteral : isLiteralChar d = false) (hblank : Text.isBlank d = false) :
      d ∉ cs := by
    obtain ⟨before, after, hcs, hbefore, hafter⟩ := Text.exists_blanks_around cs
    rw [hcs, List.mem_append, List.mem_append]
    rintro (hd | hd | hd)
    · exact absurd (hbefore d hd) (Bool.eq_false_iff.mp hblank)
    · exact absurd (Literal.isLiteralChar_of_ofChars? h d hd) (Bool.eq_false_iff.mp hliteral)
    · exact absurd (hafter d hd) (Bool.eq_false_iff.mp hblank)
  intro c hc
  constructor <;> rintro rfl
  · exact hne rfl (by decide) hc
  · exact hne rfl (by decide) hc

end RecordQuery
