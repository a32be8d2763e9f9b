import RecordQuery.Expr.Lexer

/-! # Kinds of characters

The characters that names are made of are neither blank nor part of a punctuator, so one character
tells what kind of token it starts.
-/

namespace RecordQuery

namespace Text

theorem inRanges_of_le {first last code : Nat} (hfirst : first ≤ code) (hlast : code ≤ last)
    (rest : List (Nat × Nat)) : inRanges ((first, last) :: rest) code = true := by
  simp [inRanges, Nat.not_lt.mpr hfirst, hlast]

theorem inRanges_of_lt {first code : Nat} (h : code < first) (last : Nat)
    (rest : List (Nat × Nat)) : inRanges ((first, last) :: rest) code = false := by
  simp [inRanges, h]

/-- Ranges apart from each other have no code point in common. -/
theorem inRanges_eq_false_of_apart {a b : List (Nat × Nat)} {code : Nat}
    (h : ∀ r ∈ a, ∀ s ∈ b, r.2 < s.1 ∨ s.2 < r.1) (ha : inRanges a code = true) :
    inRanges b code = false := by
  rw [Bool.eq_false_iff]
  intro hb
  obtain ⟨r, hr, hrlow, hrhigh⟩ := exists_range_of_inRanges ha
  obtain ⟨s, hs, hslow, hshigh⟩ := exists_range_of_inRanges hb
  have hapart := h r hr s hs
  omega

theorem isBlank_of_isAlphabetic {c : Char} (h : isAlphabetic c = true) : isBlank c = false :=
  inRanges_eq_false_of_apart (by decide +kernel) h

theorem isBlank_of_isAlphanumeric {c : Char} (h : isAlphanumeric c = true) : isBlank c = false := by
  rw [isAlphanumeric, Bool.or_eq_true] at h
  rcases h with h | h
  · exact isBlank_of_isAlphabetic h
  · exact inRanges_eq_false_of_apart (by decide +kernel) h

end Text

theorem toNat_of_isDigit {c : Char} (h : c.isDigit = true) : 48 ≤ c.toNat ∧ c.toNat ≤ 57 := by
  simp only [Char.isDigit, Bool.and_eq_true, decide_eq_true_eq] at h
  exact h

/-- A digit is part of names. -/
theorem isIdentPart_of_isDigit {c : Char} (h : c.isDigit = true) : isIdentPart c = true := by
  obtain ⟨hlow, hhigh⟩ := toNat_of_isDigit h
  have hnumeric : Text.inRanges Text.numericRanges c.toNat = true :=
    Text.inRanges_of_le hlow hhigh _
  simp [isIdentPart, Text.isAlphanumeric, hnumeric]

/-- What starts names goes on with them. -/
theorem isIdentPart_of_isIdentStart {c : Char} (h : isIdentStart c = true) :
    isIdentPart c = true := by
  simp only [isIdentStart, isIdentPart, Text.isAlphanumeric, Bool.or_eq_true] at h ⊢
  rcases h with (h | h) | h
  · exact .inl (.inl (.inl h))
  · exact .inl (.inr h)
  · exact .inr h

theorem isBlank_of_isIdentPart {c : Char} (h : isIdentPart c = true) : Text.isBlank c = false := by
  simp only [isIdentPart, Bool.or_eq_true, beq_iff_eq] at h
  rcases h with (h | rfl) | rfl
  · exact Text.isBlank_of_isAlphanumeric h
  · decide
  · decide

/-- Digits start no name. -/
theorem isIdentStart_of_isDigit {c : Char} (h : c.isDigit = true) : isIdentStart c = false := by
  obtain ⟨hlow, hhigh⟩ := toNat_of_isDigit h
  have halphabetic : Text.isAlphabetic c = false :=
    Text.inRanges_of_lt (Nat.lt_of_le_of_lt hhigh (by decide)) _ _
  have hunderscore : c ≠ '_' := by
    rintro rfl
    revert hhigh
    decide
  have hdollar : c ≠ '$' := by
    rintro rfl
    revert hlow
    decide
  simp [isIdentStart, halphabetic, hunderscore, hdollar]

/-- What is no part of names is no digit and starts none. -/
theorem eq_false_of_isIdentPart {c : Char} (h : isIdentPart c = false) :
    c.isDigit = false ∧ isIdentStart c = false := by
  simp only [Bool.eq_false_iff] at h ⊢
  exact ⟨fun hdigit => h (isIdentPart_of_isDigit hdigit),
    fun hstart => h (isIdentPart_of_isIdentStart hstart)⟩

/-- A character of names is none of the others. -/
theorem ne_of_isIdentPart {c d : Char} (h : isIdentPart c = true) (hd : isIdentPart d = false) :
    c ≠ d := by
  rintro rfl
  rw [h] at hd
  cases hd

namespace Punct

/-- A punctuator starts with a character that starts nothing else, apart from a point. -/
theorem text_eq_cons (p : Punct) :
    ∃ c more, p.text.toList = c :: more ∧ isIdentPart c = false ∧ Text.isBlank c = false ∧
      c ≠ '"' ∧ c ≠ '\'' ∧ (c = '.' → p = .dot ∧ more = []) := by
  cases p <;> exact ⟨_, _, rfl, by decide⟩

/-- No punctuator stands where a character of names does. -/
theorem find?_eq_none {c : Char} (h : isIdentPart c = true) (rest : List Char) :
    (longestFirst.find? fun p => p.text.toList.isPrefixOf (c :: rest)) = none := by
  rw [List.find?_eq_none]
  intro p _
  obtain ⟨d, more, htext, hd, -⟩ := p.text_eq_cons
  simp [htext, (ne_of_isIdentPart h hd).symm]

/-- Whether an equals sign makes a longer punctuator of one. -/
def takesEquals : Punct → Bool
  | bang | bangEq | eqEq | less | greater => true
  | _ => false

/-- Nothing but an equals sign makes a punctuator longer. -/
theorem find?_text {p : Punct} {rest : List Char}
    (hrest : p.takesEquals = true → ∀ d ∈ rest.head?, d ≠ '=') :
    (longestFirst.find? fun q => q.text.toList.isPrefixOf (p.text.toList ++ rest)) = some p := by
  cases rest with
  | nil => cases p <;> rfl
  | cons d rest =>
      cases p
      case less | greater | bang | eqEq | bangEq =>
        have hd : ('=' == d) = false := by simpa using (hrest rfl d rfl).symm
        simp [longestFirst, text, List.isPrefixOf, hd]
      all_goals rfl

end Punct

/-- What starts a name starts no other token. -/
theorem isIdentStart_ne {c : Char} (h : isIdentStart c = true) :
    c.isDigit = false ∧ c ≠ '.' ∧ c ≠ '"' ∧ c ≠ '\'' := by
  have hpart := isIdentPart_of_isIdentStart h
  refine ⟨?_, ne_of_isIdentPart hpart (by decide), ne_of_isIdentPart hpart (by decide),
    ne_of_isIdentPart hpart (by decide)⟩
  rw [Bool.eq_false_iff]
  intro hdigit
  rw [isIdentStart_of_isDigit hdigit] at h
  cases h

end RecordQuery
