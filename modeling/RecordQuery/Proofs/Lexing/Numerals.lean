import RecordQuery.Proofs.Lexing.Characters

/-! # Numerals in a text

A numeral is digits, perhaps a fraction and perhaps an exponent. The lexer takes all of it, unless
what follows could belong to it: a digit, a name, or a point after bare digits.
-/

namespace RecordQuery

/-- At least one digit, and nothing else. -/
def IsDigits (cs : List Char) : Prop :=
  cs ≠ [] ∧ ∀ c ∈ cs, c.isDigit = true

/-- Nothing, or a point and digits. -/
inductive IsFraction : List Char → Prop where
  | none : IsFraction []
  | point {ds : List Char} (h : IsDigits ds) : IsFraction ('.' :: ds)

/-- Nothing, or an exponent with its sign. -/
inductive IsExponent : List Char → Prop where
  | none : IsExponent []
  | signed {sign : Char} {ds : List Char} (hsign : sign = '+' ∨ sign = '-') (h : IsDigits ds) :
      IsExponent ('e' :: sign :: ds)

/-- A numeral in its three parts. -/
structure IsNumeral (whole fraction exponent : List Char) : Prop where
  whole : IsDigits whole
  fraction : IsFraction fraction
  exponent : IsExponent exponent

/-- A text does not start with a digit. -/
def NoDigit (cs : List Char) : Prop :=
  ∀ c ∈ cs.head?, c.isDigit = false

theorem noDigit_point (rest : List Char) : NoDigit ('.' :: rest) := by
  rintro d ⟨⟩
  rfl

namespace Decimal

theorem spanDigits_digits {ds rest : List Char} (h : ∀ c ∈ ds, c.isDigit = true)
    (hrest : NoDigit rest) : spanDigits (ds ++ rest) = (ds, rest) := by
  have hstop : rest.takeWhile Char.isDigit = [] ∧ rest.dropWhile Char.isDigit = rest := by
    cases rest with
    | nil => exact ⟨rfl, rfl⟩
    | cons c rest =>
        have hc : c.isDigit = false := hrest c rfl
        simp [hc]
  rw [spanDigits, List.takeWhile_append_of_pos h, List.dropWhile_append_of_pos h, hstop.1, hstop.2,
    List.append_nil]

theorem exponentLength_eq_zero {rest : List Char}
    (hrest : ∀ c ∈ rest.head?, c ≠ 'e' ∧ c ≠ 'E') : exponentLength rest = 0 := by
  cases rest with
  | nil => rfl
  | cons c rest => simp [exponentLength, hrest c rfl]

theorem splitSign_sign {sign : Char} (h : sign = '+' ∨ sign = '-') (rest : List Char) :
    (splitSign (sign :: rest)).2 = rest := by
  rcases h with rfl | rfl <;> rfl

theorem splitSign_noSign {cs : List Char} (h : ∀ c ∈ cs.head?, c ≠ '+' ∧ c ≠ '-') :
    splitSign cs = (false, cs) := by
  cases cs with
  | nil => rfl
  | cons c cs => simp [splitSign, h c rfl]

theorem exponentLength_signed {sign : Char} (hsign : sign = '+' ∨ sign = '-') {ds rest : List Char}
    (h : IsDigits ds) (hrest : NoDigit rest) :
    exponentLength ('e' :: sign :: (ds ++ rest)) = 2 + ds.length := by
  have hlength : ds.length ≠ 0 := by simpa using h.1
  simp only [exponentLength, splitSign_sign hsign, spanDigits_digits h.2 hrest, true_or, if_true,
    List.length_cons, hlength, if_false]
  omega

end Decimal

namespace Token

open Decimal

theorem mantissaLength_whole {ds rest : List Char} (h : ∀ c ∈ ds, c.isDigit = true)
    (hrest : NoDigit rest) (hpoint : ∀ c ∈ rest.head?, c ≠ '.') :
    mantissaLength (ds ++ rest) = ds.length := by
  simp only [mantissaLength, spanDigits_digits h hrest]
  split
  next after => exact absurd rfl (hpoint '.' rfl)
  next => rfl

theorem mantissaLength_point {ds es rest : List Char} (h : ∀ c ∈ ds, c.isDigit = true)
    (hes : ∀ c ∈ es, c.isDigit = true) (hrest : NoDigit rest) :
    mantissaLength (ds ++ '.' :: (es ++ rest)) = ds.length + 1 + es.length := by
  simp only [mantissaLength, spanDigits_digits h (noDigit_point _), spanDigits_digits hes hrest]

theorem exponentMarkLength_eq_zero {rest : List Char}
    (hrest : ∀ c ∈ rest.head?, c ≠ 'e' ∧ c ≠ 'E') : exponentMarkLength rest = 0 := by
  cases rest with
  | nil => rfl
  | cons c rest => simp [exponentMarkLength, hrest c rfl]

/-- The exponent of a numeral is what the text in front of which it stands goes on with. -/
theorem exponentLength_exponent {exponent rest : List Char} (h : IsExponent exponent)
    (hdigit : NoDigit rest) (hmark : ∀ c ∈ rest.head?, c ≠ 'e' ∧ c ≠ 'E') :
    exponentLength (exponent ++ rest) = exponent.length ∧
      ¬(exponentMarkLength (exponent ++ rest) ≠ 0 ∧ exponent.length = 0) := by
  cases h with
  | none =>
      refine ⟨exponentLength_eq_zero hmark, ?_⟩
      rintro ⟨hne, -⟩
      exact hne (exponentMarkLength_eq_zero hmark)
  | signed hsign hds =>
      rw [List.cons_append, List.cons_append, exponentLength_signed hsign hds hdigit]
      simp only [List.length_cons]
      omega

/-- The digits of a numeral end where its exponent starts. -/
theorem mantissaLength_numeral {whole fraction exponent rest : List Char}
    (h : IsNumeral whole fraction exponent) (hdigit : NoDigit rest)
    (hpoint : fraction ++ exponent = [] → ∀ c ∈ rest.head?, c ≠ '.') :
    mantissaLength (whole ++ (fraction ++ (exponent ++ rest))) =
      whole.length + fraction.length := by
  have hstop : NoDigit (exponent ++ rest) := by
    cases h.exponent with
    | none => exact hdigit
    | signed =>
        rintro c ⟨⟩
        rfl
  cases h.fraction with
  | none =>
      -- Bare digits would take a point after them, so without an exponent none may follow.
      rw [List.nil_append, mantissaLength_whole h.whole.2 hstop]
      · rfl
      · intro c hc
        cases h.exponent with
        | none => exact hpoint rfl c hc
        | signed =>
            rintro rfl
            cases hc
  | point hds =>
      rw [List.cons_append, mantissaLength_point h.whole.2 hds.2 hstop]
      simp only [List.length_cons]
      omega

/-- A numeral is taken whole in front of what cannot belong to it. -/
theorem readNumber_numeral {whole fraction exponent rest : List Char} {x : Float}
    (h : IsNumeral whole fraction exponent)
    (hx : readFloat? (whole ++ (fraction ++ exponent)) = some x) (hdigit : NoDigit rest)
    (hname : ∀ c ∈ rest.head?, isIdentStart c = false)
    (hpoint : fraction ++ exponent = [] → ∀ c ∈ rest.head?, c ≠ '.') :
    readNumber (whole ++ (fraction ++ exponent) ++ rest) =
      .ok ⟨.number x, (whole ++ (fraction ++ exponent)).length - 1⟩ := by
  have hmark : ∀ c ∈ rest.head?, c ≠ 'e' ∧ c ≠ 'E' := by
    intro c hc
    have hstart := hname c hc
    constructor <;> rintro rfl <;> revert hstart <;> decide
  obtain ⟨hlength, hwhole⟩ := exponentLength_exponent h.exponent hdigit hmark
  have hmantissa : mantissaLength (whole ++ (fraction ++ exponent) ++ rest) =
      whole.length + fraction.length := by
    rw [List.append_assoc, List.append_assoc]
    exact mantissaLength_numeral h hdigit hpoint
  have hdrop : (whole ++ (fraction ++ exponent) ++ rest).drop (whole.length + fraction.length) =
      exponent ++ rest := by
    rw [← List.append_assoc, ← List.length_append, List.append_assoc, List.drop_left]
  have htotal : whole.length + fraction.length + exponent.length =
      (whole ++ (fraction ++ exponent)).length := by
    rw [List.length_append, List.length_append, Nat.add_assoc]
  have hafter : (rest.head?.any isIdentStart) = false := by
    cases rest with
    | nil => rfl
    | cons c rest => simpa using hname c rfl
  simp only [readNumber, hmantissa, hdrop, hlength, htotal, List.drop_left, List.take_left, hafter,
    hx, if_neg hwhole, Bool.false_eq_true, if_false]

/-! ## A name after a point -/

/-- The digits at the start of a text, in front of more text that starts with none. -/
theorem exists_digits_append (cs : List Char) {rest : List Char} (hrest : NoDigit rest) :
    ∃ digits more, cs = digits ++ more ∧ (∀ d ∈ digits, d.isDigit = true) ∧
      NoDigit (more ++ rest) := by
  refine ⟨cs.takeWhile Char.isDigit, cs.dropWhile Char.isDigit,
    List.takeWhile_append_dropWhile.symm, List.all_eq_true.mp List.all_takeWhile, ?_⟩
  intro d hd
  have hstop := List.head?_dropWhile_not Char.isDigit cs
  cases hmore : cs.dropWhile Char.isDigit with
  | nil =>
      rw [hmore] at hd
      exact hrest d hd
  | cons m more =>
      rw [hmore] at hd hstop
      obtain rfl : m = d := by simpa using hd
      simpa using hstop

/-- A name in front of what is no sign does not start with one. -/
theorem noSign_of_isIdentPart {name rest : List Char} (hname : ∀ d ∈ name, isIdentPart d = true)
    (hrest : ∀ d ∈ rest.head?, d ≠ '+' ∧ d ≠ '-') :
    ∀ d ∈ (name ++ rest).head?, d ≠ '+' ∧ d ≠ '-' := by
  intro d hd
  cases name with
  | nil => exact hrest d hd
  | cons m name =>
      cases hd
      have hpart := hname _ List.mem_cons_self
      exact ⟨ne_of_isIdentPart hpart (by decide), ne_of_isIdentPart hpart (by decide)⟩

/-- An exponent without a sign is its mark and its digits. -/
theorem exponentLength_unsigned {c : Char} (hc : c = 'e' ∨ c = 'E') {digits rest : List Char}
    (hdigits : ∀ d ∈ digits, d.isDigit = true) (hrest : NoDigit rest)
    (hsign : ∀ d ∈ (digits ++ rest).head?, d ≠ '+' ∧ d ≠ '-') :
    exponentMarkLength (c :: (digits ++ rest)) = 1 ∧
      exponentLength (c :: (digits ++ rest)) =
        if digits.length = 0 then 0 else 1 + digits.length := by
  have hsplit := splitSign_noSign hsign
  constructor
  · simp only [exponentMarkLength, hc, if_true, hsplit, Nat.sub_self]
  · simp only [exponentLength, hc, if_true, hsplit, Nat.sub_self, spanDigits_digits hdigits hrest,
      Nat.add_zero]

/-- After bare digits, a point belongs to the number. A name after the point is then an exponent as
far as it is taken, and what is left of it starts neither a name nor digits. -/
theorem readNumber_point {ds name rest : List Char} {c : Char} {lexeme : Lexeme}
    (h : ∀ d ∈ ds, d.isDigit = true) (hc : isIdentStart c = true)
    (hrest : ∀ d ∈ rest.head?, isIdentPart d = false ∧ d ≠ '+' ∧ d ≠ '-')
    (hname : ∀ d ∈ name, isIdentPart d = true)
    (hread : readNumber (ds ++ '.' :: c :: (name ++ rest)) = .ok lexeme) :
    ∃ x digits more, lexeme = ⟨.number x, ds.length + 1 + digits.length⟩ ∧ name = digits ++ more ∧
      ∀ d ∈ more.head?, isIdentStart d = false ∧ d.isDigit = false := by
  have hstop : NoDigit (c :: (name ++ rest)) := by
    rintro d ⟨⟩
    exact (isIdentStart_ne hc).1
  have hnone : ∀ d ∈ ([] : List Char), d.isDigit = true := nofun
  have hmantissa : mantissaLength (ds ++ '.' :: c :: (name ++ rest)) = ds.length + 1 :=
    mantissaLength_point h hnone hstop
  have hdrop : (ds ++ '.' :: c :: (name ++ rest)).drop (ds.length + 1) = c :: (name ++ rest) := by
    simp [List.drop_append]
  by_cases hmark : c = 'e' ∨ c = 'E'
  · obtain ⟨digits, more, rfl, hdigits, hmore⟩ := exists_digits_append name
      (fun d hd => (eq_false_of_isIdentPart (hrest d hd).1).1 : NoDigit rest)
    have hsign := noSign_of_isIdentPart hname fun d hd => (hrest d hd).2
    rw [List.append_assoc] at hsign hmantissa hdrop hread
    obtain ⟨hnoMark, hexponent⟩ := exponentLength_unsigned hmark hdigits hmore hsign
    by_cases hnone : digits.length = 0
    · -- A mark without digits is an error.
      simp only [readNumber, hmantissa, hdrop, hnoMark, hexponent, hnone, if_true, ne_eq,
        Nat.one_ne_zero, not_false_eq_true, and_self] at hread
      cases hread
    · have hdropAll : (ds ++ '.' :: c :: (digits ++ (more ++ rest))).drop
          (ds.length + 1 + (1 + digits.length)) = more ++ rest := by
        rw [← List.drop_drop, hdrop, Nat.add_comm 1, List.drop_succ_cons, List.drop_left]
      have hpositive : 1 + digits.length ≠ 0 := by omega
      simp only [readNumber, hmantissa, hdrop, hnoMark, hexponent, hnone, if_false, hdropAll,
        hpositive, and_false] at hread
      split at hread
      next => cases hread
      next hstart =>
        split at hread
        next x hx =>
          obtain rfl := Except.ok.inj hread
          refine ⟨x, digits, more, ?_, rfl, ?_⟩
          · congr 1
            omega
          · intro d hd
            cases more with
            | nil => cases hd
            | cons m more =>
                cases hd
                exact ⟨by simpa using hstart, hmore _ rfl⟩
        next => cases hread
  · -- Without an exponent, a name right after the number is an error.
    have hzero : exponentLength (c :: (name ++ rest)) = 0 := by
      simp [exponentLength, hmark]
    have hnoMark : exponentMarkLength (c :: (name ++ rest)) = 0 := by
      simp [exponentMarkLength, hmark]
    simp only [readNumber, hmantissa, hdrop, hzero, hnoMark, Nat.add_zero, List.head?_cons,
      Option.any_some, hc, if_true, ne_eq, not_true, false_and, if_false] at hread
    cases hread

end Token

end RecordQuery
