import RecordQuery.Proofs.Grammar.Steps
import RecordQuery.Proofs.Lexing.Numerals
import RecordQuery.Proofs.Lexing.Strings

/-! # Words

A printed expression is a list of words: tokens and blanks. If no word goes on into the next one,
the lexer reads just their tokens. The one way for words to run together is an integer before a
point, which takes the point and perhaps the name after it.
-/

namespace RecordQuery

open Token

/-- A text is a name. -/
def IsName (s : String) : Prop :=
  ∃ c rest, s.toList = c :: rest ∧ isIdentStart c = true ∧ ∀ d ∈ rest, isIdentPart d = true

/-- A number that is not negative is printed as a numeral, which reads back as the number. Only an
integer has bare digits. -/
structure Number.ReadsBack (n : Number) : Prop where
  numeral : ∃ whole fraction exponent, IsNumeral whole fraction exponent ∧
    n.literal = whole ++ (fraction ++ exponent) ∧
    (fraction ++ exponent = [] ↔ ∃ i, n = .int i)
  value : Decimal.readFloat? n.literal = some n.toFloat
  stored : Json.ofFloat n.toFloat = .number n
  nonneg : ¬ n.toFloat < 0.0

/-- What printed expressions are made of. -/
inductive Word where
  | blank
  | punct (p : Punct)
  | name (s : String)
  | number (n : Number)
  | text (s : String)

namespace Word

/-- The characters of a word. -/
def chars : Word → List Char
  | blank => [' ']
  | punct p => p.text.toList
  | name s => s.toList
  | number n => n.literal
  | text s => Json.quote s

/-- What a word says as a token. -/
def kind? : Word → Option TokenKind
  | blank => none
  | punct p => some (.punct p)
  | name s => some (.ident s)
  | number n => some (.number n.toFloat)
  | text s => some (.string s)

/-- Whether a word can be read. -/
def Legible : Word → Prop
  | name s => IsName s
  | number n => n.ReadsBack
  | _ => True

/-- Whether a word ends in front of a character. A name keeps away from signs as well, since it
could be read as the exponent of a number. -/
def endsBefore : Word → Char → Bool
  | blank, _ => true
  | punct p, c => (c != '=' || !p.takesEquals) && (p != .dot || !c.isDigit)
  | name _, c => !isIdentPart c && c != '+' && c != '-'
  | number (.int _), c => !isIdentPart c && c != '.'
  | number (.float _), c => !isIdentPart c
  | text _, _ => true

/-- A word ends in front of a text. -/
def EndsAt (w : Word) (rest : List Char) : Prop :=
  ∀ c ∈ rest.head?, w.endsBefore c = true

/-- The text of words. -/
def spell (ws : List Word) : List Char :=
  ws.flatMap chars

/-- The tokens of words. -/
def kinds (ws : List Word) : List TokenKind :=
  ws.filterMap kind?

@[simp] theorem spell_nil : spell [] = [] := rfl

@[simp] theorem spell_cons (w : Word) (ws : List Word) : spell (w :: ws) = w.chars ++ spell ws :=
  rfl

@[simp] theorem spell_append (ws vs : List Word) : spell (ws ++ vs) = spell ws ++ spell vs :=
  List.flatMap_append

@[simp] theorem kinds_nil : kinds [] = [] := rfl

@[simp] theorem kinds_cons (w : Word) (ws : List Word) :
    kinds (w :: ws) = w.kind?.toList ++ kinds ws := by
  cases w <;> rfl

@[simp] theorem kinds_append (ws vs : List Word) : kinds (ws ++ vs) = kinds ws ++ kinds vs :=
  List.filterMap_append

end Word

/-! ## One word in front of a text -/

namespace Token

/-- The tokens of a text without their positions. -/
def kindsFrom (pos : Nat) (cs : List Char) : Except SyntaxError (List TokenKind) :=
  (scanFrom pos cs).map fun tokens => tokens.list.map Token.kind

theorem kindsFrom_nil (pos : Nat) : kindsFrom pos [] = .ok [] := by
  simp [kindsFrom, scanFrom, Except.map]

theorem kindsFrom_blank {c : Char} (h : Text.isBlank c = true) (pos : Nat) (rest : List Char) :
    kindsFrom pos (c :: rest) = kindsFrom (pos + c.utf8Size) rest := by
  rw [kindsFrom, scanFrom]
  simp only [h, if_true]
  rfl

theorem kindsFrom_lexeme {pos : Nat} {c : Char} {rest : List Char} {lexeme : Lexeme}
    (hblank : Text.isBlank c = false) (h : readLexeme pos c rest = .ok lexeme) :
    ∃ next, kindsFrom pos (c :: rest) =
      (kindsFrom next (rest.drop lexeme.more)).map fun ks => lexeme.kind :: ks := by
  refine ⟨pos + c.utf8Size + byteLength (rest.take lexeme.more), ?_⟩
  rw [kindsFrom, scanFrom]
  simp only [hblank, Bool.false_eq_true, if_false, h, kindsFrom]
  cases scanFrom (pos + c.utf8Size + byteLength (rest.take lexeme.more))
    (rest.drop lexeme.more) <;> rfl

theorem kindsFrom_front {pos : Nat} {c : Char} {more rest : List Char} {kind : TokenKind}
    (hblank : Text.isBlank c = false)
    (h : readLexeme pos c (more ++ rest) = .ok ⟨kind, more.length⟩) :
    ∃ next, kindsFrom pos (c :: (more ++ rest)) =
      (kindsFrom next rest).map fun ks => kind :: ks := by
  obtain ⟨next, hnext⟩ := kindsFrom_lexeme hblank h
  rw [List.drop_left] at hnext
  exact ⟨next, hnext⟩

theorem kindsFrom_error {pos : Nat} {c : Char} {rest : List Char} {err : SyntaxError}
    (hblank : Text.isBlank c = false) (h : readLexeme pos c rest = .error err) :
    kindsFrom pos (c :: rest) = .error err := by
  rw [kindsFrom, scanFrom]
  simp only [hblank, Bool.false_eq_true, if_false, h]
  rfl

/-- Tokens are read one after another. -/
theorem exists_lexeme_of_kindsFrom {pos : Nat} {c : Char} {rest : List Char}
    {ks : List TokenKind} (hblank : Text.isBlank c = false)
    (h : kindsFrom pos (c :: rest) = .ok ks) :
    ∃ lexeme next us, readLexeme pos c rest = .ok lexeme ∧
      kindsFrom next (rest.drop lexeme.more) = .ok us ∧ ks = lexeme.kind :: us := by
  cases hlexeme : readLexeme pos c rest with
  | error err =>
      rw [kindsFrom_error hblank hlexeme] at h
      cases h
  | ok lexeme =>
      obtain ⟨next, hnext⟩ := kindsFrom_lexeme hblank hlexeme
      rw [hnext] at h
      obtain ⟨us, hus, rfl⟩ := map_eq_ok_iff.mp h
      exact ⟨lexeme, next, us, rfl, hus, rfl⟩

theorem kindsFrom_punct {p : Punct} {rest : List Char} (h : (Word.punct p).EndsAt rest)
    (pos : Nat) :
    ∃ next, kindsFrom pos (p.text.toList ++ rest) =
      (kindsFrom next rest).map fun ks => .punct p :: ks := by
  obtain ⟨c, more, htext, hpart, hblank, hdouble, hsingle, hdot⟩ := p.text_eq_cons
  have hequals : p.takesEquals = true → ∀ d ∈ rest.head?, d ≠ '=' := by
    intro htakes d hd
    have hends := h d hd
    simp only [Word.endsBefore, htakes, Bool.not_true, Bool.or_false, Bool.and_eq_true,
      bne_iff_ne] at hends
    exact hends.1
  obtain ⟨hdigit, hstart⟩ := eq_false_of_isIdentPart hpart
  have hnumber : (c.isDigit || (c == '.' && (more ++ rest).head?.any Char.isDigit)) = false := by
    -- A point starts a number only in front of a digit, and there the word would not end.
    by_cases hc : c = '.'
    · obtain ⟨rfl, rfl⟩ := hdot hc
      cases rest with
      | nil => simp [hdigit]
      | cons d rest =>
          have hends : (Word.punct .dot).endsBefore d = true := h d rfl
          simp only [Word.endsBefore, Bool.and_eq_true, bne_self_eq_false, Bool.false_or,
            Bool.not_eq_true'] at hends
          simp [hdigit, hends.2]
    · simp [hdigit, hc]
  have hlexeme : readLexeme pos c (more ++ rest) = .ok ⟨.punct p, more.length⟩ := by
    have hfind := Punct.find?_text (p := p) hequals
    rw [htext, List.cons_append] at hfind
    simp only [readLexeme, hnumber, Bool.false_eq_true, if_false, hdouble, hsingle, or_self, hstart,
      hfind, htext, List.length_cons, Nat.add_sub_cancel]
  rw [htext, List.cons_append]
  exact kindsFrom_front hblank hlexeme

/-- A name is read up to the first character that cannot go on with it. -/
theorem readLexeme_name {c : Char} {more rest : List Char} (hc : isIdentStart c = true)
    (hmore : ∀ d ∈ more, isIdentPart d = true) (hrest : ∀ d ∈ rest.head?, isIdentPart d = false)
    (pos : Nat) :
    readLexeme pos c (more ++ rest) = .ok ⟨.ident (String.ofList (c :: more)), more.length⟩ := by
  obtain ⟨hdigit, hdot, hdouble, hsingle⟩ := isIdentStart_ne hc
  have hstop : rest.takeWhile isIdentPart = [] := by
    cases rest with
    | nil => rfl
    | cons d rest => simp [hrest d rfl]
  simp [readLexeme, hdigit, hdot, hdouble, hsingle, hc, List.takeWhile_append_of_pos hmore, hstop]

theorem kindsFrom_name {s : String} {rest : List Char} (hs : IsName s)
    (hrest : ∀ d ∈ rest.head?, isIdentPart d = false) (pos : Nat) :
    ∃ next, kindsFrom pos (s.toList ++ rest) =
      (kindsFrom next rest).map fun ks => .ident s :: ks := by
  obtain ⟨c, more, htext, hc, hmore⟩ := hs
  have hlexeme := readLexeme_name hc hmore hrest pos
  rw [← htext, String.ofList_toList] at hlexeme
  rw [htext, List.cons_append]
  exact kindsFrom_front (isBlank_of_isIdentPart (isIdentPart_of_isIdentStart hc)) hlexeme

/-- A JSON string is read as the text that it was made from, whatever follows. -/
theorem readLexeme_text (s : String) (rest : List Char) (pos : Nat) :
    readLexeme pos '"' (s.toList.flatMap Json.escapeChar ++ ['"'] ++ rest) =
      .ok ⟨.string s, (s.toList.flatMap Json.escapeChar ++ ['"']).length⟩ := by
  have hquoted := readQuoted_escaped pos (pos + 1) s.toList rest
  simp [readLexeme, hquoted, Except.map, Char.isDigit]

theorem kindsFrom_text (s : String) (rest : List Char) (pos : Nat) :
    ∃ next, kindsFrom pos (Json.quote s ++ rest) =
      (kindsFrom next rest).map fun ks => .string s :: ks :=
  kindsFrom_front (by decide) (readLexeme_text s rest pos)

/-- A numeral is read as its float in front of what cannot belong to it. -/
theorem kindsFrom_numeral {whole fraction exponent rest : List Char} {x : Float}
    (hnumeral : IsNumeral whole fraction exponent)
    (hvalue : Decimal.readFloat? (whole ++ (fraction ++ exponent)) = some x)
    (hpart : ∀ d ∈ rest.head?, isIdentPart d = false)
    (hpoint : fraction ++ exponent = [] → ∀ d ∈ rest.head?, d ≠ '.') (pos : Nat) :
    ∃ next, kindsFrom pos (whole ++ (fraction ++ exponent) ++ rest) =
      (kindsFrom next rest).map fun ks => .number x :: ks := by
  have hread := readNumber_numeral hnumeral hvalue
    (fun d hd => (eq_false_of_isIdentPart (hpart d hd)).1)
    (fun d hd => (eq_false_of_isIdentPart (hpart d hd)).2) hpoint
  obtain ⟨c, more, htext⟩ := List.exists_cons_of_ne_nil hnumeral.whole.1
  have hdigit : c.isDigit = true := hnumeral.whole.2 c (by simp [htext])
  rw [htext, List.cons_append] at hread ⊢
  refine kindsFrom_front (isBlank_of_isIdentPart (isIdentPart_of_isDigit hdigit)) ?_
  simp only [readLexeme, hdigit, Bool.true_or, if_true]
  exact hread

theorem kindsFrom_number {n : Number} {rest : List Char} (hn : n.ReadsBack)
    (h : (Word.number n).EndsAt rest) (pos : Nat) :
    ∃ next, kindsFrom pos (n.literal ++ rest) =
      (kindsFrom next rest).map fun ks => .number n.toFloat :: ks := by
  obtain ⟨whole, fraction, exponent, hnumeral, hliteral, hbare⟩ := hn.numeral
  have hpart : ∀ d ∈ rest.head?, isIdentPart d = false := by
    intro d hd
    have hends := h d hd
    cases n with
    | int i =>
        simp only [Word.endsBefore, Bool.and_eq_true, Bool.not_eq_true'] at hends
        exact hends.1
    | float x => simpa [Word.endsBefore] using hends
  have hvalue := hn.value
  rw [hliteral] at hvalue ⊢
  refine kindsFrom_numeral hnumeral hvalue hpart ?_ pos
  intro hnil d hd
  obtain ⟨i, rfl⟩ := hbare.mp hnil
  have hends := h d hd
  simp only [Word.endsBefore, Bool.and_eq_true, bne_iff_ne] at hends
  exact hends.2

/-- A character that goes on with names and starts none is an error. -/
theorem readLexeme_stranded {c : Char} (h : isIdentPart c = true)
    (hc : isIdentStart c = false ∧ c.isDigit = false) (rest : List Char) (pos : Nat) :
    readLexeme pos c rest = .error (.unexpectedChar c pos) := by
  have hdot := ne_of_isIdentPart h (by decide : isIdentPart '.' = false)
  have hdouble := ne_of_isIdentPart h (by decide : isIdentPart '"' = false)
  have hsingle := ne_of_isIdentPart h (by decide : isIdentPart '\'' = false)
  simp only [readLexeme, hc.1, hc.2, beq_iff_eq, hdot, hdouble, hsingle, Punct.find?_eq_none h,
    Bool.false_or, Bool.and_eq_true, false_and, or_self, Bool.false_eq_true, if_false]

/-- After an integer and a point, a name is lost in the number or stops the lexer. -/
theorem kindsFrom_point {i : Int} {s : String} {rest : List Char} {pos : Nat}
    {ks : List TokenKind} (hi : (Number.int i).ReadsBack) (hs : IsName s)
    (hrest : (Word.name s).EndsAt rest)
    (h : kindsFrom pos ((Number.int i).literal ++ '.' :: (s.toList ++ rest)) = .ok ks) :
    ∃ x next us, kindsFrom next rest = .ok us ∧ ks = .number x :: us := by
  obtain ⟨whole, fraction, exponent, hnumeral, hliteral, hbare⟩ := hi.numeral
  rw [hbare.mpr ⟨i, rfl⟩, List.append_nil] at hliteral
  obtain ⟨c, name, hname, hc, hpart⟩ := hs
  obtain ⟨d, ds, hds⟩ := List.exists_cons_of_ne_nil hnumeral.whole.1
  have hdigit : d.isDigit = true := hnumeral.whole.2 d (by simp [hds])
  have hblank := isBlank_of_isIdentPart (isIdentPart_of_isDigit hdigit)
  have hends : ∀ e ∈ rest.head?, isIdentPart e = false ∧ e ≠ '+' ∧ e ≠ '-' := by
    intro e he
    have hends := hrest e he
    simp only [Word.endsBefore, Bool.and_eq_true, Bool.not_eq_true', bne_iff_ne] at hends
    exact ⟨hends.1.1, hends.1.2, hends.2⟩
  rw [hliteral, hname, List.cons_append, hds, List.cons_append] at h
  obtain ⟨lexeme, next, us, hlexeme, hus, rfl⟩ := exists_lexeme_of_kindsFrom hblank h
  have hread : readNumber (whole ++ '.' :: c :: (name ++ rest)) = .ok lexeme := by
    rw [hds, List.cons_append]
    simpa only [readLexeme, hdigit, Bool.true_or, if_true] using hlexeme
  obtain ⟨x, digits, more, rfl, rfl, hmore⟩ :=
    readNumber_point hnumeral.whole.2 hc hends hpart hread
  have hdrop : (ds ++ '.' :: c :: (digits ++ more ++ rest)).drop
      (whole.length + 1 + digits.length) = more ++ rest := by
    have hfront : ds ++ '.' :: c :: (digits ++ more ++ rest) =
        (ds ++ '.' :: c :: digits) ++ (more ++ rest) := by simp
    have hlength : whole.length + 1 + digits.length = (ds ++ '.' :: c :: digits).length := by
      simp only [hds, List.length_append, List.length_cons]
      omega
    rw [hfront, hlength, List.drop_left]
  rw [hdrop] at hus
  cases more with
  | nil => exact ⟨x, next, us, hus, rfl⟩
  | cons m more =>
      -- What is left of the name starts no token.
      have hm : isIdentPart m = true := hpart m (by simp)
      rw [List.cons_append, kindsFrom_error (isBlank_of_isIdentPart hm)
        (readLexeme_stranded hm (hmore m rfl) _ _)] at hus
      cases hus

end Token

/-! ## Many words -/

namespace Word

theorem map_nil_append {α ε : Type} (r : Except ε (List α)) :
    (r.map fun xs => [] ++ xs) = r := by
  cases r <;> rfl

/-- Whether a word ends in front of a text is seen at the first character. -/
theorem EndsAt.of_front {w : Word} {front rest : List Char} (h : w.EndsAt (front ++ rest))
    (hfront : front ≠ []) (rest' : List Char) : w.EndsAt (front ++ rest') := by
  obtain ⟨c, front, rfl⟩ := List.exists_cons_of_ne_nil hfront
  exact h

/-- A word that ends in front of a text is read as its token. -/
theorem kindsFrom_chars {w : Word} {rest : List Char} (hw : w.Legible) (h : w.EndsAt rest)
    (pos : Nat) :
    ∃ next, kindsFrom pos (w.chars ++ rest) =
      (kindsFrom next rest).map fun ks => w.kind?.toList ++ ks := by
  cases w with
  | blank =>
      refine ⟨pos + 1, (kindsFrom_blank (by decide) pos rest).trans ?_⟩
      exact (map_nil_append _).symm
  | punct p => exact kindsFrom_punct h pos
  | name s =>
      refine kindsFrom_name hw (fun d hd => ?_) pos
      have hends := h d hd
      simp only [endsBefore, Bool.and_eq_true, Bool.not_eq_true'] at hends
      exact hends.1.1
  | number n => exact kindsFrom_number hw h pos
  | text s => exact kindsFrom_text s rest pos

/-- Legible words in front of a text, each of which ends where the next one starts. The exceptions
are counted: integers before a point and a name. -/
inductive Laid : Nat → List Word → List Char → Prop where
  | nil {rest : List Char} : Laid 0 [] rest
  | cons {k : Nat} {w : Word} {ws : List Word} {rest : List Char} (hw : w.Legible)
      (hends : w.EndsAt (spell ws ++ rest)) (h : Laid k ws rest) : Laid k (w :: ws) rest
  | merge {k : Nat} {i : Int} {s : String} {ws : List Word} {rest : List Char}
      (hi : (Number.int i).ReadsBack) (hs : IsName s) (hends : (name s).EndsAt (spell ws ++ rest))
      (h : Laid k ws rest) : Laid (k + 1) (number (.int i) :: punct .dot :: name s :: ws) rest

theorem Laid.append {k l : Nat} {ws vs : List Word} {rest : List Char}
    (h : Laid k ws (spell vs ++ rest)) (hvs : Laid l vs rest) : Laid (k + l) (ws ++ vs) rest := by
  generalize htail : spell vs ++ rest = tail at h
  induction h with
  | nil => rwa [Nat.zero_add, List.nil_append]
  | cons hw hends _ ih =>
      refine .cons hw ?_ (ih htail)
      rwa [List.append_eq, spell_append, List.append_assoc, htail]
  | merge hi hs hends _ ih =>
      rw [Nat.add_right_comm]
      refine .merge hi hs ?_ (ih htail)
      rwa [List.append_eq, spell_append, List.append_assoc, htail]

/-- Words that end where they should are read as their tokens. -/
theorem Laid.kindsFrom_spell {ws : List Word} {rest : List Char} (h : Laid 0 ws rest) (pos : Nat) :
    ∃ next, kindsFrom pos (spell ws ++ rest) =
      (kindsFrom next rest).map fun ks => kinds ws ++ ks := by
  generalize hk : 0 = k at h
  -- By induction on the words; none of them is a merge, since none is counted.
  induction h generalizing pos with
  | nil => exact ⟨pos, (map_nil_append _).symm⟩
  | @cons k w ws rest hw hends _ ih =>
      obtain ⟨next, hnext⟩ := kindsFrom_chars hw hends pos
      obtain ⟨last, hlast⟩ := ih next hk
      refine ⟨last, ?_⟩
      rw [spell_cons, List.append_assoc, hnext, hlast]
      cases kindsFrom last rest with
      | error err => rfl
      | ok ks => simp [Except.map]
  | merge => omega

/-- Each merge costs the text a point. -/
theorem Laid.count_dot {k : Nat} {ws : List Word} (h : Laid k ws []) {pos : Nat}
    {ks : List TokenKind} (hks : kindsFrom pos (spell ws) = .ok ks) :
    ks.count (.punct .dot) + k = (kinds ws).count (.punct .dot) := by
  generalize hrest : [] = rest at h
  -- Words apart from each other keep their points; a merge loses the one between its words.
  induction h generalizing pos ks with
  | nil =>
      rw [spell_nil, kindsFrom_nil] at hks
      cases hks
      rfl
  | @cons k w ws rest hw hends _ ih =>
      subst hrest
      rw [List.append_nil] at hends
      obtain ⟨next, hnext⟩ := kindsFrom_chars hw hends pos
      rw [spell_cons, hnext] at hks
      obtain ⟨us, hus, rfl⟩ := map_eq_ok_iff.mp hks
      have hcount := ih hus rfl
      rw [kinds_cons, List.count_append, List.count_append]
      omega
  | @merge k i s ws rest hi hs hends _ ih =>
      subst hrest
      rw [List.append_nil] at hends
      obtain ⟨x, next, us, hus, rfl⟩ := kindsFrom_point hi hs hends hks
      have hcount := ih hus rfl
      simp [kind?]
      omega

/-- A point and a name after an integer at the end are one more merge. -/
theorem Laid.merge_last {k : Nat} {i : Int} {s : String} {ws : List Word} {rest rest' : List Char}
    (h : Laid k (ws ++ [number (.int i)]) rest) (hi : (Number.int i).ReadsBack) (hs : IsName s)
    (hends : (name s).EndsAt rest') :
    Laid (k + 1) (ws ++ [number (.int i), punct .dot, name s]) rest' := by
  have hliteral : (Number.int i).literal ≠ [] := by
    obtain ⟨whole, fraction, exponent, hnumeral, hliteral, -⟩ := hi.numeral
    simp [hliteral, hnumeral.whole.1]
  -- What stands in front of the last words does not see that there are more of them.
  have hfront : ∀ {w : Word} {vs : List Word}, w.EndsAt (spell (vs ++ [number (.int i)]) ++ rest) →
      w.EndsAt (spell (vs ++ [number (.int i), punct .dot, name s]) ++ rest') := by
    intro w vs hw
    have hne : spell (vs ++ [number (.int i)]) ≠ [] := by simp [chars, hliteral]
    have hswap := hw.of_front hne (spell [punct .dot, name s] ++ rest')
    simpa using hswap
  generalize hvs : ws ++ [number (.int i)] = vs at h
  induction h generalizing ws with
  | nil => simp at hvs
  | @cons k w vs rest hw hends' h ih =>
      cases ws with
      | nil =>
          obtain ⟨rfl, rfl⟩ := List.cons.inj hvs
          cases h
          exact .merge hi hs hends .nil
      | cons v ws =>
          obtain ⟨rfl, rfl⟩ := List.cons.inj hvs
          exact .cons hw (hfront hends') (ih hfront rfl)
  | @merge k j t vs rest hj ht hends' h ih =>
      rcases ws with _ | ⟨w₁, _ | ⟨w₂, _ | ⟨w₃, ws⟩⟩⟩
      · simp at hvs
      · simp at hvs
      · simp at hvs
      · obtain ⟨rfl, rfl, rfl, rfl⟩ : w₁ = _ ∧ w₂ = _ ∧ w₃ = _ ∧ ws ++ _ = vs := by
          simpa using hvs
        exact .merge hj ht (hfront hends') (ih hfront rfl)

end Word

end RecordQuery
