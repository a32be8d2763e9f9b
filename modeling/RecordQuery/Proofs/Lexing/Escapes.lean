import RecordQuery.Proofs.Lexing.Partition
import RecordQuery.Proofs.Numbers.Hexadecimal

/-! # Escapes in a text in quotes

A text in quotes is spelled by its characters, by escapes of one letter and by escapes that give the
code point of a character. The code point is four hexadecimal digits, or three after a plus sign,
and no surrogate. The reader takes all that is spelled in this way, up to the closing quote, and
nothing else.
-/

namespace RecordQuery

open String

/-- The code points that stand for no character. -/
def IsSurrogate (code : Nat) : Prop :=
  0xD800 ≤ code ∧ code ≤ 0xDFFF

/-- The code point that the characters of an escape give. -/
inductive EscapeCode : List Char → Nat → Prop where
  | digits {ds n} (hlength : ds.length = 4) (h : HexDenotes ds n) : EscapeCode ds n
  | signed {ds n} (hlength : ds.length = 3) (h : HexDenotes ds n) : EscapeCode ('+' :: ds) n

/-- Characters between quotes spell a text. -/
inductive SpellsText (quote : Char) : List Char → List Char → Prop where
  | nil : SpellsText quote [] []
  | plain {c body text} (hc : c ≠ quote ∧ c ≠ '\\') (next : SpellsText quote body text) :
      SpellsText quote (c :: body) (c :: text)
  | letter {e c body text} (he : Token.simpleEscape? e = some c)
      (next : SpellsText quote body text) : SpellsText quote ('\\' :: e :: body) (c :: text)
  | code {code c body text} (hcode : EscapeCode code c.toNat)
      (next : SpellsText quote body text) :
      SpellsText quote ('\\' :: 'u' :: (code ++ body)) (c :: text)

/-! ## Code points -/

theorem HexDenotes.utf8Len_eq {cs : List Char} {n : Nat} (h : HexDenotes cs n) :
    utf8Len cs = cs.length := by
  obtain ⟨-, values, hvalues, -⟩ := h
  clear n
  induction hvalues with
  | nil => rfl
  | @cons c v cs values hc _ ih =>
      have hsize : c.utf8Size = 1 :=
        Char.utf8Size_eq_one_iff.mpr (UInt32.le_iff_toNat_le.mpr (Nat.le_of_lt_succ hc.toNat_lt))
      rw [utf8Len_cons, ih, hsize, List.length_cons]

namespace EscapeCode

variable {code : List Char} {n : Nat}

theorem length_eq (h : EscapeCode code n) : code.length = 4 := by
  cases h with
  | digits hlength => exact hlength
  | signed hlength => rw [List.length_cons, hlength]

theorem utf8Len_eq (h : EscapeCode code n) : utf8Len code = 4 := by
  cases h with
  | digits hlength hdigits => rw [hdigits.utf8Len_eq, hlength]
  | signed hlength hdigits =>
      rw [utf8Len_cons, hdigits.utf8Len_eq, hlength]
      rfl

theorem lt (h : EscapeCode code n) : n < 0x10000 := by
  cases h with
  | digits hlength hdigits =>
      have hlt := hdigits.lt_pow
      rw [hlength] at hlt
      exact hlt
  | signed hlength hdigits =>
      have hlt := hdigits.lt_pow
      rw [hlength] at hlt
      omega

/-- The code point of an escape is that of a character unless it is a surrogate. -/
theorem exists_char_iff (h : EscapeCode code n) : (∃ c : Char, c.toNat = n) ↔ ¬IsSurrogate n := by
  have hlt := h.lt
  constructor
  · rintro ⟨c, rfl⟩ ⟨hlow, hhigh⟩
    rcases c.valid with hvalid | ⟨hvalid, -⟩
    · exact absurd hlow (Nat.not_le_of_lt hvalid)
    · exact absurd hhigh (Nat.not_le_of_lt hvalid)
  · intro hsurrogate
    have hvalid : n.isValidChar := by
      rw [IsSurrogate] at hsurrogate
      rw [Nat.isValidChar]
      omega
    exact ⟨Char.ofNat n, by rw [Char.toNat_ofNat, if_pos hvalid]⟩

end EscapeCode

namespace Token

variable {quote c e : Char} {body text code rest : List Char}

theorem charOfCode?_eq_some_iff {n : Nat} : charOfCode? n = some c ↔ c.toNat = n := by
  rw [charOfCode?]
  constructor
  · intro h
    split at h
    next hvalid =>
      cases h
      rw [Char.toNat_ofNat, if_pos hvalid]
    next => cases h
  · rintro rfl
    rw [if_pos (show c.toNat.isValidChar from c.valid), Char.ofNat_toNat]

theorem codeEscape?_eq_some_iff {a b d f : Char} :
    codeEscape? a b d f = some c ↔ EscapeCode [a, b, d, f] c.toNat := by
  have hbind (cs : List Char) :
      (hexValue? cs).bind charOfCode? = some c ↔ HexDenotes cs c.toNat := by
    simp [Option.bind_eq_some_iff, hexValue?_eq_some_iff, charOfCode?_eq_some_iff]
  have hplus : hexValue? ['+', b, d, f] = none := rfl
  rw [codeEscape?]
  constructor
  · intro h
    split at h
    next hsign =>
      subst hsign
      exact .signed rfl ((hbind _).mp h)
    next => exact .digits rfl ((hbind _).mp h)
  · intro h
    cases h with
    | digits hlength hdigits =>
        have hsign : a ≠ '+' := by
          rintro rfl
          rw [← hexValue?_eq_some_iff, hplus] at hdigits
          cases hdigits
        rw [if_neg hsign]
        exact (hbind _).mpr hdigits
    | signed hlength hdigits =>
        rw [if_pos rfl]
        exact (hbind _).mpr hdigits

/-! ## Texts in front of a text -/

/-- Adds characters in front of a text that has been read, and to the number of characters that
spell it. -/
def pushText (text : List Char) (width : Nat) (r : Except SyntaxError (List Char × Nat)) :
    Except SyntaxError (List Char × Nat) :=
  r.map fun q => (text ++ q.1, width + q.2)

theorem pushText_nil (r : Except SyntaxError (List Char × Nat)) : pushText [] 0 r = r := by
  cases r with
  | error => rfl
  | ok q => simp [pushText, Except.map]

theorem pushText_error (text : List Char) (width : Nat) (err : SyntaxError) :
    pushText text width (.error err) = .error err :=
  rfl

theorem pushChar_pushText (c : Char) (text : List Char) (width length : Nat)
    (r : Except SyntaxError (List Char × Nat)) :
    pushChar c width (pushText text length r) = pushText (c :: text) (length + width) r := by
  cases r with
  | error => rfl
  | ok q =>
      rw [pushText, pushText, Except.map, Except.map, pushChar, Nat.add_right_comm,
        List.cons_append]

theorem pushText_pushChar (c : Char) (text : List Char) (width length : Nat)
    (r : Except SyntaxError (List Char × Nat)) :
    pushText text length (pushChar c width r) = pushText (text ++ [c]) (length + width) r := by
  cases r with
  | error => rfl
  | ok q =>
      rw [pushChar, pushText, pushText, Except.map, Except.map, List.append_assoc, Nat.add_assoc,
        Nat.add_comm width, List.singleton_append]

/-! ## One character -/

theorem readQuoted_char (hc : c ≠ quote ∧ c ≠ '\\') (start pos : Nat) (rest : List Char) :
    readQuoted quote start pos (c :: rest) =
      pushChar c 1 (readQuoted quote start (pos + c.utf8Size) rest) := by
  rw [readQuoted.eq_def]
  simp only [if_neg hc.1, if_pos hc.2]

theorem readQuoted_letter (hquote : quote ≠ '\\') (he : simpleEscape? e = some c)
    (start pos : Nat) (rest : List Char) :
    readQuoted quote start pos ('\\' :: e :: rest) =
      pushChar c 2 (readQuoted quote start (pos + 2) rest) := by
  have hletter : e ≠ 'u' := by
    rintro rfl
    cases he
  rw [readQuoted.eq_def]
  simp only [if_neg hquote.symm, if_neg hletter, he, ne_eq, not_true, if_false]

theorem readQuoted_code (hquote : quote ≠ '\\') (hcode : EscapeCode code c.toNat)
    (start pos : Nat) (rest : List Char) :
    readQuoted quote start pos ('\\' :: 'u' :: (code ++ rest)) =
      pushChar c 6 (readQuoted quote start (pos + 6) rest) := by
  obtain ⟨a, b, d, f, rfl⟩ := List.length_eq_four.mp hcode.length_eq
  rw [readQuoted.eq_def]
  simp only [if_neg hquote.symm, codeEscape?_eq_some_iff.mpr hcode, List.cons_append,
    List.nil_append, ne_eq, not_true, if_false, if_true]

/-- Characters that give the code point of no character are no escape. -/
theorem readQuoted_noCode (hquote : quote ≠ '\\')
    (hcode : ∀ c : Char, ¬EscapeCode (rest.take 4) c.toNat) (start pos : Nat) :
    readQuoted quote start pos ('\\' :: 'u' :: rest) = .error (.invalidEscape pos) := by
  rw [readQuoted.eq_def]
  simp only [if_neg hquote.symm, ne_eq, not_true, if_false, if_true]
  split
  next a b d f rest =>
    have hnone : codeEscape? a b d f = none := by
      rw [Option.eq_none_iff_forall_ne_some]
      intro c hc
      exact hcode c (codeEscape?_eq_some_iff.mp hc)
    simp only [hnone]
  next => rfl

/-! ## A whole text -/

theorem utf8Size_of_simpleEscape? (he : simpleEscape? e = some c) : e.utf8Size = 1 := by
  rw [simpleEscape?.eq_def] at he
  split at he
  case h_10 => cases he
  all_goals rfl

/-- What spells a text is read as that text, and the reading goes on behind it. -/
theorem readQuoted_spells (hquote : quote ≠ '\\') (h : SpellsText quote body text)
    (start pos : Nat) (rest : List Char) :
    readQuoted quote start pos (body ++ rest) =
      pushText text body.length (readQuoted quote start (pos + utf8Len body) rest) := by
  induction h generalizing pos with
  | nil => exact (pushText_nil _).symm
  | @plain c body text hc _ ih =>
      have hpos : pos + c.utf8Size + utf8Len body = pos + utf8Len (c :: body) := by
        rw [utf8Len_cons]
        omega
      rw [List.cons_append, readQuoted_char hc, ih, pushChar_pushText, hpos]
      rfl
  | @letter e c body text he _ ih =>
      have hpos : pos + 2 + utf8Len body = pos + utf8Len ('\\' :: e :: body) := by
        have hsize := utf8Size_of_simpleEscape? he
        have hbackslash : Char.utf8Size '\\' = 1 := rfl
        rw [utf8Len_cons, utf8Len_cons]
        omega
      rw [List.cons_append, List.cons_append, readQuoted_letter hquote he, ih, pushChar_pushText,
        hpos]
      rfl
  | @code code c body text hcode _ ih =>
      have hlength : ('\\' :: 'u' :: (code ++ body)).length = body.length + 6 := by
        simp only [List.length_cons, List.length_append, hcode.length_eq]
        omega
      have hpos : pos + 6 + utf8Len body = pos + utf8Len ('\\' :: 'u' :: (code ++ body)) := by
        have hbackslash : Char.utf8Size '\\' = 1 := rfl
        have hletter : Char.utf8Size 'u' = 1 := rfl
        rw [utf8Len_cons, utf8Len_cons, utf8Len_append, hcode.utf8Len_eq]
        omega
      rw [List.cons_append, List.cons_append, List.append_assoc, readQuoted_code hquote hcode, ih,
        pushChar_pushText, hpos, hlength]

/-- A text in quotes is read up to its closing quote just when all before the quote spells it. -/
theorem readQuoted_eq_ok_iff (hquote : quote ≠ '\\') {start pos length : Nat} {cs : List Char} :
    readQuoted quote start pos cs = .ok (text, length) ↔
      ∃ body rest, cs = body ++ quote :: rest ∧ SpellsText quote body text ∧
        length = body.length + 1 := by
  constructor
  · intro h
    fun_induction readQuoted quote start pos cs generalizing text length with
    | case1 => cases h
    | case2 pos rest =>
        cases h
        exact ⟨[], rest, rfl, .nil, rfl⟩
    | case3 pos c rest hc hplain ih =>
        obtain ⟨p, hp, hq⟩ := pushChar_eq_ok_iff.mp h
        obtain ⟨rfl, rfl⟩ := Prod.mk.inj hq
        obtain ⟨body, more, rfl, hspells, hlength⟩ := ih hp
        exact ⟨c :: body, more, rfl, .plain ⟨hc, hplain⟩ hspells, by rw [hlength]; rfl⟩
    | case4 => cases h
    | case5 pos c hc hescape a b c' d rest r hcode ih =>
        obtain ⟨p, hp, hq⟩ := pushChar_eq_ok_iff.mp h
        obtain ⟨rfl, rfl⟩ := Prod.mk.inj hq
        obtain ⟨body, more, rfl, hspells, hlength⟩ := ih hp
        obtain rfl := not_not.mp hescape
        exact ⟨_, more, rfl, .code (codeEscape?_eq_some_iff.mp hcode) hspells, by rw [hlength]; rfl⟩
    | case6 => cases h
    | case7 => cases h
    | case8 pos c hc hescape e rest hletter r hsimple ih =>
        obtain ⟨p, hp, hq⟩ := pushChar_eq_ok_iff.mp h
        obtain ⟨rfl, rfl⟩ := Prod.mk.inj hq
        obtain ⟨body, more, rfl, hspells, hlength⟩ := ih hp
        obtain rfl := not_not.mp hescape
        exact ⟨_, more, rfl, .letter hsimple hspells, by rw [hlength]; rfl⟩
    | case9 => cases h
  · rintro ⟨body, rest, rfl, hspells, rfl⟩
    have hend (pos : Nat) : readQuoted quote start pos (quote :: rest) = .ok ([], 1) := by
      rw [readQuoted.eq_def]
      simp only [if_true]
    rw [readQuoted_spells hquote hspells, hend, pushText, Except.map, List.append_nil]

/-! ## In a source -/

theorem isDelimiter_of_quote (hquote : quote = '"' ∨ quote = '\'') : IsDelimiter quote where
  part := by rcases hquote with rfl | rfl <;> decide
  point := by rcases hquote with rfl | rfl <;> decide
  sign := by rcases hquote with rfl | rfl <;> decide
  punct p := by rcases hquote with rfl | rfl <;> cases p <;> decide

/-- In front of a delimiter, a text that can be read on its own gives its tokens, and those of what
follows come after them. -/
theorem scanFrom_before {d : Char} (hd : IsDelimiter d) {pos : Nat} {cs : List Char}
    {tokens : Tokens} (h : scanFrom pos cs = .ok tokens) (more : List Char) :
    scanFrom pos (cs ++ d :: more) =
      (scanFrom (pos + utf8Len cs) (d :: more)).map fun next =>
        ⟨tokens.list ++ next.list, next.stop⟩ := by
  fun_induction scanFrom pos cs generalizing tokens with
  | case1 pos =>
      cases h
      rw [List.nil_append, utf8Len_nil, Nat.add_zero]
      cases scanFrom pos (d :: more) <;> rfl
  | case2 pos c rest hblank ih =>
      rw [List.cons_append, scanFrom, if_pos hblank, ih h, utf8Len_cons, Nat.add_assoc,
        Nat.add_comm c.utf8Size]
  | case3 => cases h
  | case4 => cases h
  | case5 pos c rest hblank lexeme hlexeme stop tokens htokens =>
      rename_i ih
      cases h
      obtain ⟨hread, hlength⟩ := readLexeme_before hd hlexeme pos more
      have hstop : stop + utf8Len (rest.drop lexeme.more) = pos + utf8Len (c :: rest) := by
        have hrest := utf8Len_append (rest.take lexeme.more) (rest.drop lexeme.more)
        rw [List.take_append_drop] at hrest
        rw [utf8Len_cons, hrest]
        simp only [stop, byteLength_eq_utf8Len]
        omega
      rw [List.cons_append, scanFrom, if_neg hblank, hread]
      dsimp only
      rw [List.take_append_of_le_length hlength, List.drop_append_of_le_length hlength, ih htokens,
        hstop]
      cases scanFrom (pos + utf8Len (c :: rest)) (d :: more) <;> rfl

/-- An error in a text in quotes is an error of the source in which it stands. -/
theorem scan_error_of_readQuoted (hquote : quote = '"' ∨ quote = '\'') {before : List Char}
    {tokens : Tokens} (hbefore : scan (String.ofList before) = .ok tokens) {err : SyntaxError}
    (h : readQuoted quote (utf8Len before) (utf8Len before + 1) rest = .error err) :
    scan (String.ofList (before ++ quote :: rest)) = .error err := by
  have hblank : ¬Text.isBlank quote = true := by
    rcases hquote with rfl | rfl <;> decide
  have hdigit : (quote.isDigit || (quote == '.' && rest.head?.any Char.isDigit)) = false := by
    rcases hquote with rfl | rfl <;> rfl
  rw [scan, String.toList_ofList] at hbefore ⊢
  rw [scanFrom_before (isDelimiter_of_quote hquote) hbefore, Nat.zero_add, scanFrom, if_neg hblank,
    readLexeme, hdigit, if_neg Bool.false_ne_true, if_pos hquote, h]
  rfl

/-- In a text in quotes, four hexadecimal digits after a backslash and a letter u, or a plus sign
and three of them, stand for the character with that code point, unless it is a surrogate, and the
reading goes on right behind them. All else after a backslash and a letter u is an error at the
offset of the backslash, in every source that can be read up to the opening quote. -/
theorem readQuoted_codeEscape (hquote : quote = '"' ∨ quote = '\'')
    (hbody : SpellsText quote body text) (rest : List Char) :
    (∀ n, EscapeCode (rest.take 4) n → ¬IsSurrogate n → ∃ c : Char, c.toNat = n ∧
      ∀ start pos, readQuoted quote start pos (body ++ '\\' :: 'u' :: rest) =
        pushText (text ++ [c]) (body.length + 6)
          (readQuoted quote start (pos + utf8Len body + 6) (rest.drop 4))) ∧
    ((∀ n, EscapeCode (rest.take 4) n → IsSurrogate n) →
      (∀ start pos, readQuoted quote start pos (body ++ '\\' :: 'u' :: rest) =
        .error (.invalidEscape (pos + utf8Len body))) ∧
      ∀ before tokens, scan (String.ofList before) = .ok tokens →
        scan (String.ofList (before ++ quote :: (body ++ '\\' :: 'u' :: rest))) =
          .error (.invalidEscape (utf8Len (before ++ quote :: body)))) := by
  have hbackslash : quote ≠ '\\' := by
    rcases hquote with rfl | rfl <;> decide
  have hsize : quote.utf8Size = 1 := by
    rcases hquote with rfl | rfl <;> rfl
  constructor
  · intro n hcode hsurrogate
    obtain ⟨c, rfl⟩ := hcode.exists_char_iff.mpr hsurrogate
    refine ⟨c, rfl, fun start pos => ?_⟩
    have hread := readQuoted_code hbackslash hcode start (pos + utf8Len body) (rest.drop 4)
    rw [List.take_append_drop] at hread
    rw [readQuoted_spells hbackslash hbody, hread, pushText_pushChar]
  · intro hsurrogate
    have hnone (c : Char) : ¬EscapeCode (rest.take 4) c.toNat :=
      fun hcode => hcode.exists_char_iff.mp ⟨c, rfl⟩ (hsurrogate _ hcode)
    have hread (start pos : Nat) : readQuoted quote start pos (body ++ '\\' :: 'u' :: rest) =
        .error (.invalidEscape (pos + utf8Len body)) := by
      rw [readQuoted_spells hbackslash hbody, readQuoted_noCode hbackslash hnone, pushText_error]
    refine ⟨hread, fun before tokens hbefore => ?_⟩
    rw [scan_error_of_readQuoted hquote hbefore (hread _ _), utf8Len_append, utf8Len_cons, hsize]
    congr 2
    omega

/-- Behind a letter of two bytes, the escape of a letter is read and half of a surrogate pair is an
error. -/
theorem readQuoted_codeEscape_surrogate :
    let before := ['f', ' ', '+', ' ']
    let body := ['é', '\\', 'u', '0', '0', '4', '1']
    let rest := ['d', '8', '3', 'd', '\'']
    scan (String.ofList before) = .ok ⟨[⟨.ident "f", 0⟩, ⟨.punct .plus, 2⟩], 4⟩ ∧
      SpellsText '\'' body ['é', 'A'] ∧
      (∀ start pos, readQuoted '\'' start pos (body ++ '\\' :: 'u' :: rest) =
        pushText ['é', 'A'] 7 (readQuoted '\'' start (pos + 8) ('\\' :: 'u' :: rest))) ∧
      scan (String.ofList (before ++ '\'' :: (body ++ '\\' :: 'u' :: rest))) =
        .error (.invalidEscape 13) := by
  intro before body rest
  have hbefore : scan (String.ofList before) =
      .ok ⟨[⟨.ident "f", 0⟩, ⟨.punct .plus, 2⟩], 4⟩ := by cbv
  have hletter : EscapeCode ['0', '0', '4', '1'] 0x41 :=
    .digits rfl (hexValue?_eq_some_iff.mp (by decide))
  have hhalf : HexDenotes ['d', '8', '3', 'd'] 0xD83D := hexValue?_eq_some_iff.mp (by decide)
  have hfirst : SpellsText '\'' ['é'] ['é'] := .plain (by decide) .nil
  have hescape : SpellsText '\'' ('\\' :: 'u' :: (['0', '0', '4', '1'] ++ [])) ['A'] :=
    .code hletter .nil
  have hbody : SpellsText '\'' body ['é', 'A'] := .plain (by decide) hescape
  have hsurrogate : ∀ n, EscapeCode (rest.take 4) n → IsSurrogate n := by
    intro n h
    cases h with
    | digits _ hdigits =>
        rw [hdigits.unique hhalf, IsSurrogate]
        decide
  refine ⟨hbefore, hbody, ?_, ?_⟩
  · obtain ⟨c, hc, hread⟩ := (readQuoted_codeEscape (.inr rfl) hfirst
      (['0', '0', '4', '1', '\\', 'u'] ++ rest)).1 0x41 hletter (by rw [IsSurrogate]; decide)
    obtain rfl : c = 'A' := Char.toNat_inj.mp hc
    exact hread
  · exact ((readQuoted_codeEscape (.inr rfl) hbody rest).2 hsurrogate).2 _ _ hbefore

/-- Three digits after a plus sign are no four digits, and are read as the code point
of a letter. -/
theorem readQuoted_codeEscape_signed :
    (∀ n, ¬HexDenotes "+041".toList n) ∧
      scan "'\\u+041'" = .ok ⟨[⟨.string "A", 0⟩], 8⟩ := by
  refine ⟨fun n h => ?_, by cbv⟩
  rw [← hexValue?_eq_some_iff] at h
  cases h

end Token

end RecordQuery
