import Mathlib
import RecordQuery.Proofs.Lexing.Cuts

/-! # A text as its tokens

A text that can be read is blanks, and then one piece for each token: the characters of the token
and the blanks after it. Each piece is read on its own as just that token. The offsets of the tokens
are where the pieces start, so they are offsets of characters, one after the other, and the last
piece ends with the text.
-/

namespace RecordQuery

open Token String

theorem byteLength_eq_utf8Len (cs : List Char) : byteLength cs = utf8Len cs := by
  have hfold (n : Nat) : cs.foldl (fun n c => n + c.utf8Size) n = n + utf8Len cs := by
    induction cs generalizing n with
    | nil => rfl
    | cons c cs ih =>
        rw [List.foldl_cons, ih, utf8Len_cons]
        omega
  rw [byteLength, hfold, Nat.zero_add]

/-! ## Blanks -/

theorem isDelimiter_of_isBlank {d : Char} (h : Text.isBlank d = true) : IsDelimiter d where
  part := by
    rw [Bool.eq_false_iff]
    intro hpart
    rw [isBlank_of_isIdentPart hpart] at h
    cases h
  point := by
    rintro rfl
    exact absurd h (by decide)
  sign := by
    constructor
    · rintro rfl
      exact absurd h (by decide)
    · rintro rfl
      exact absurd h (by decide)
  punct p := by
    have htail : (p.text.toList.tail.any Text.isBlank) = false := by
      cases p <;> decide
    intro hmem
    rw [List.any_eq_true.mpr ⟨d, hmem, h⟩] at htail
    cases htail

namespace Token

theorem scanFrom_blanks {blanks : List Char} (h : ∀ c ∈ blanks, Text.isBlank c = true)
    (pos : Nat) : scanFrom pos blanks = .ok ⟨[], pos + utf8Len blanks⟩ := by
  induction blanks generalizing pos with
  | nil => rw [scanFrom, utf8Len_nil, Nat.add_zero]
  | cons c blanks ih =>
      obtain ⟨hc, hblanks⟩ := List.forall_mem_cons.mp h
      rw [scanFrom, if_pos hc, ih hblanks, utf8Len_cons, Nat.add_assoc, Nat.add_comm c.utf8Size]

/-! ## Pieces -/

/-- A token can be read from a piece of a text alone, and what comes after the piece makes no longer
punctuator of it. -/
structure IsPiece (kind : TokenKind) (piece after : List Char) : Prop where
  ne_nil : piece ≠ []
  alone : scanFrom 0 piece = .ok ⟨[⟨kind, 0⟩], utf8Len piece⟩
  longest : ∀ p, kind = .punct p → p.text.toList <+: piece ++ after ∧
    ∀ q : Punct, q.text.toList <+: piece ++ after → q.text.length ≤ p.text.length

/-- A word, the blanks after it and what remains are the text. -/
theorem cons_take_append {c : Char} {rest blanks after : List Char} {n : Nat}
    (h : rest.drop n = blanks ++ after) : c :: (rest.take n ++ blanks) ++ after = c :: rest := by
  rw [List.cons_append, List.append_assoc, ← h, List.take_append_drop]

theorem isPiece_of_readLexeme {pos : Nat} {c : Char} {rest blanks after : List Char}
    {lexeme : Lexeme} (hc : Text.isBlank c = false) (h : readLexeme pos c rest = .ok lexeme)
    (hblanks : ∀ d ∈ blanks, Text.isBlank d = true)
    (hrest : rest.drop lexeme.more = blanks ++ after) :
    IsPiece lexeme.kind (c :: (rest.take lexeme.more ++ blanks)) after where
  ne_nil := List.cons_ne_nil _ _
  alone := by
    have hmore : (rest.take lexeme.more).length = lexeme.more :=
      List.length_take_of_le (readLexeme_before isDelimiter_rightParen h pos []).2
    have hread : readLexeme 0 c (rest.take lexeme.more ++ blanks) = .ok lexeme := by
      have hword := readLexeme_take h 0
      cases blanks with
      | nil => rwa [List.append_nil]
      | cons d blanks =>
          have hd := isDelimiter_of_isBlank (hblanks d List.mem_cons_self)
          exact (readLexeme_before hd hword 0 blanks).1
    rw [scanFrom, if_neg (by simp [hc]), hread]
    dsimp only
    rw [List.drop_left' hmore, scanFrom_blanks hblanks, List.take_left' hmore,
      byteLength_eq_utf8Len, utf8Len_cons, utf8Len_append]
    dsimp only
    congr 2
    omega
  longest p hkind := by
    have hp := punct_of_readLexeme h hkind
    have hfound := List.find?_some hp
    rw [cons_take_append hrest]
    exact ⟨List.isPrefixOf_iff_prefix.mp hfound, fun q hq => Punct.length_le_of_find? hp hq⟩

/-- Tokens stand in a text at an offset, each one with its piece. -/
inductive Pieces : Nat → List Char → List Token → Prop where
  | nil {start} : Pieces start [] []
  | cons {start kind piece after ts} (here : IsPiece kind piece after)
      (next : Pieces (start + utf8Len piece) after ts) :
      Pieces start (piece ++ after) (⟨kind, start⟩ :: ts)

/-- A text that can be read is blanks and the pieces of its tokens. -/
theorem pieces_of_scanFrom {pos : Nat} {cs : List Char} {tokens : Tokens}
    (h : scanFrom pos cs = .ok tokens) :
    tokens.stop = pos + utf8Len cs ∧
      ∃ blanks rest, cs = blanks ++ rest ∧ (∀ c ∈ blanks, Text.isBlank c = true) ∧
        Pieces (pos + utf8Len blanks) rest tokens.list := by
  fun_induction scanFrom pos cs generalizing tokens with
  | case1 pos =>
      cases h
      exact ⟨rfl, [], [], rfl, List.forall_mem_nil _, .nil⟩
  | case2 pos c rest hblank ih =>
      obtain ⟨hstop, blanks, more, rfl, hblanks, hpieces⟩ := ih h
      have hshift : pos + c.utf8Size + utf8Len blanks = pos + utf8Len (c :: blanks) := by
        rw [utf8Len_cons]
        omega
      refine ⟨?_, c :: blanks, more, rfl, List.forall_mem_cons.mpr ⟨hblank, hblanks⟩,
        hshift ▸ hpieces⟩
      rw [hstop, utf8Len_cons]
      omega
  | case3 => cases h
  | case4 => cases h
  | case5 pos c rest hblank lexeme hlexeme stop tokens htokens =>
      rename_i ih
      cases h
      rw [Bool.not_eq_true] at hblank
      obtain ⟨hstop, blanks, after, hrest, hblanks, hpieces⟩ := ih htokens
      simp only [stop, byteLength_eq_utf8Len] at hstop hpieces
      have hcs := (cons_take_append (c := c) hrest).symm
      have hstart : pos + c.utf8Size + utf8Len (rest.take lexeme.more) + utf8Len blanks =
          pos + utf8Len (c :: (rest.take lexeme.more ++ blanks)) := by
        rw [utf8Len_cons, utf8Len_append]
        omega
      rw [hstart] at hpieces
      refine ⟨?_, [], _, hcs, List.forall_mem_nil _,
        .cons (isPiece_of_readLexeme hblank hlexeme hblanks hrest) hpieces⟩
      rw [hcs, utf8Len_append, ← Nat.add_assoc, ← hstart, hstop, hrest, utf8Len_append]
      omega

namespace Pieces

variable {start : Nat} {cs : List Char} {ts : List Token}

/-- The first piece starts at the offset of its token, and no piece starts at the end. -/
theorem position_eq (h : Pieces start cs ts) :
    Parser.position (start + utf8Len cs) ts = start := by
  cases h <;> rfl

theorem pairwise_lt (h : Pieces start cs ts) :
    (ts.map Token.pos ++ [start + utf8Len cs]).Pairwise (· < ·) ∧
      ∀ pos ∈ ts.map Token.pos ++ [start + utf8Len cs], start ≤ pos := by
  induction h with
  | nil => simp
  | @cons start kind piece after ts here next ih =>
      obtain ⟨hpairwise, hle⟩ := ih
      rw [Nat.add_assoc, ← utf8Len_append] at hpairwise hle
      have hpos : 0 < utf8Len piece :=
        Nat.pos_of_ne_zero fun hzero => here.ne_nil (utf8Len_eq_zero.mp hzero)
      have hlt : ∀ pos ∈ ts.map Token.pos ++ [start + utf8Len (piece ++ after)], start < pos :=
        fun pos hmem => Nat.lt_of_lt_of_le (Nat.lt_add_of_pos_right hpos) (hle pos hmem)
      rw [List.map_cons, List.cons_append]
      exact ⟨List.pairwise_cons.mpr ⟨hlt, hpairwise⟩,
        List.forall_mem_cons.mpr ⟨Nat.le_refl _, fun pos hmem => Nat.le_of_lt (hlt pos hmem)⟩⟩

/-- The piece of a token, with the text before it and the pieces after it. -/
theorem exists_piece {front rest : List Token} {t : Token} (h : Pieces start cs (front ++ t :: rest)) :
    ∃ before piece after, cs = before ++ piece ++ after ∧ t.pos = start + utf8Len before ∧
      IsPiece t.kind piece after ∧ Pieces (t.pos + utf8Len piece) after rest := by
  induction front generalizing start cs with
  | nil =>
      cases h with
      | @cons _ _ piece after _ here next => exact ⟨[], piece, after, rfl, rfl, here, next⟩
  | cons u front ih =>
      cases h with
      | @cons _ _ first others _ here next =>
          obtain ⟨before, piece, after, rfl, hpos, hpiece, hafter⟩ := ih next
          refine ⟨first ++ before, piece, after, ?_, ?_, hpiece, hafter⟩
          · simp only [List.append_assoc]
          · rw [hpos, utf8Len_append, Nat.add_assoc]

end Pieces

/-! ## Slices of a text -/

/-- The part of a text between two byte offsets. -/
def slice (text : String) (start stop : Nat) : String :=
  String.Pos.Raw.extract text ⟨start⟩ ⟨stop⟩

theorem slice_append (before piece after : List Char) :
    slice (String.ofList (before ++ piece ++ after)) (utf8Len before)
      (utf8Len before + utf8Len piece) = String.ofList piece :=
  extract_of_valid before piece after

theorem isValid_append (before after : List Char) :
    String.Pos.Raw.IsValid (String.ofList (before ++ after)) ⟨utf8Len before⟩ := by
  rw [String.Pos.Raw.isValid_iff_exists_append]
  exact ⟨String.ofList before, String.ofList after, String.ofList_append,
    (rawEndPos_ofList before).symm⟩

/-- The whole text of tokens: blanks, and the pieces up to the end. -/
theorem pieces_of_scan {text : String} {tokens : Tokens} (h : scan text = .ok tokens) :
    ∃ blanks cs, text = String.ofList (blanks ++ cs) ∧ (∀ c ∈ blanks, Text.isBlank c = true) ∧
      tokens.stop = utf8Len blanks + utf8Len cs ∧ Pieces (utf8Len blanks) cs tokens.list := by
  obtain ⟨hstop, blanks, cs, htext, hblanks, hpieces⟩ := pieces_of_scanFrom h
  rw [htext, utf8Len_append, Nat.zero_add] at hstop
  rw [Nat.zero_add] at hpieces
  exact ⟨blanks, cs, by rw [← htext, String.ofList_toList], hblanks, hstop, hpieces⟩

/-- A token in the text: what stands before it, its piece up to the next token, and the rest. -/
theorem exists_piece_of_scan {text : String} {tokens : Tokens} {front rest : List Token} {t : Token}
    (h : scan text = .ok tokens) (hlist : tokens.list = front ++ t :: rest) :
    ∃ before piece after, text = String.ofList (before ++ piece ++ after) ∧
      t.pos = utf8Len before ∧ IsPiece t.kind piece after ∧
      Parser.position tokens.stop rest = utf8Len before + utf8Len piece ∧
      tokens.stop = utf8Len before + utf8Len (piece ++ after) := by
  obtain ⟨blanks, cs, rfl, -, hstop, hpieces⟩ := pieces_of_scan h
  rw [hlist] at hpieces
  obtain ⟨before, piece, after, rfl, hpos, hpiece, hafter⟩ := hpieces.exists_piece
  rw [← utf8Len_append] at hpos
  have hend : tokens.stop = t.pos + utf8Len piece + utf8Len after := by
    rw [hstop, hpos]
    simp only [utf8Len_append]
    omega
  refine ⟨blanks ++ before, piece, after, ?_, hpos, hpiece, ?_, ?_⟩
  · simp only [List.append_assoc]
  · rw [hend, hafter.position_eq, hpos]
  · rw [hend, hpos, utf8Len_append piece, Nat.add_assoc]

end Token

/-- The byte offsets at which tokens start, and the end of the text. -/
def Tokens.positions (tokens : Tokens) : List Nat :=
  tokens.list.map Token.pos ++ [tokens.stop]

/-- Tokens divide a text into blanks and one slice for each token, from its offset to the next one.
The slice is read alone as just that token, and no punctuator could be longer where it stands. -/
structure Tokens.Divide (tokens : Tokens) (text : String) : Prop where
  increasing : tokens.positions.Pairwise (· < ·)
  boundary : ∀ pos ∈ tokens.positions, String.Pos.Raw.IsValid text ⟨pos⟩
  stop_eq : tokens.stop = text.utf8ByteSize
  leading : ∀ c ∈ (slice text 0 (Parser.position tokens.stop tokens.list)).toList,
    Text.isBlank c = true
  alone : ∀ front t rest, tokens.list = front ++ t :: rest →
    scan (slice text t.pos (Parser.position tokens.stop rest)) =
      .ok ⟨[⟨t.kind, 0⟩], Parser.position tokens.stop rest - t.pos⟩
  longest : ∀ p pos, ⟨.punct p, pos⟩ ∈ tokens.list →
    p.text.toList <+: (slice text pos tokens.stop).toList ∧
      ∀ q : Punct, q.text.toList <+: (slice text pos tokens.stop).toList →
        q.text.length ≤ p.text.length

/-- The tokens of a text that can be read divide it. -/
theorem Tokens.divide_of_scan {text : String} {tokens : Tokens} (h : scan text = .ok tokens) :
    tokens.Divide text := by
  obtain ⟨blanks, cs, htext, hblanks, hstop, hpieces⟩ := pieces_of_scan h
  have hsize : tokens.stop = text.utf8ByteSize := by
    rw [htext, utf8ByteSize_ofList, utf8Len_append, hstop]
  constructor
  case increasing =>
    rw [Tokens.positions, hstop]
    exact hpieces.pairwise_lt.1
  case boundary =>
    intro pos hpos
    rcases List.mem_append.mp hpos with hpos | hpos
    · obtain ⟨t, ht, rfl⟩ := List.mem_map.mp hpos
      obtain ⟨front, rest, hlist⟩ := List.append_of_mem ht
      obtain ⟨before, piece, after, rfl, hpos, -⟩ := exists_piece_of_scan h hlist
      rw [hpos, List.append_assoc]
      exact isValid_append before (piece ++ after)
    · rw [List.mem_singleton.mp hpos, hsize]
      exact String.Pos.Raw.isValid_rawEndPos
  case stop_eq => exact hsize
  case leading =>
    have hslice := slice_append [] blanks cs
    rw [List.nil_append, utf8Len_nil, Nat.zero_add, ← htext] at hslice
    rw [hstop, hpieces.position_eq, hslice, String.toList_ofList]
    exact hblanks
  case alone =>
    intro front t rest hlist
    obtain ⟨before, piece, after, rfl, hpos, hpiece, hnext, -⟩ := exists_piece_of_scan h hlist
    rw [hnext, hpos, slice_append, Nat.add_sub_cancel_left, scan, String.toList_ofList]
    exact hpiece.alone
  case longest =>
    intro p pos hmem
    obtain ⟨front, rest, hlist⟩ := List.append_of_mem hmem
    obtain ⟨before, piece, after, rfl, hpos, hpiece, -, hend⟩ := exists_piece_of_scan h hlist
    have hslice := slice_append before (piece ++ after) []
    rw [List.append_nil, ← List.append_assoc, ← hend, ← hpos] at hslice
    rw [hslice, String.toList_ofList]
    exact hpiece.longest p rfl

/-- A letter of two bytes, a text with a letter of two bytes in it, and punctuators side by side. -/
theorem Tokens.divide_of_scan_accented :
    let text := " é !==!'é'"
    let tokens : Tokens :=
      ⟨[⟨.ident "é", 1⟩, ⟨.punct .bangEqEq, 4⟩, ⟨.punct .bang, 7⟩, ⟨.string "é", 8⟩], 12⟩
    scan text = .ok tokens ∧ tokens.Divide text ∧
      scan (slice text 1 4) = .ok ⟨[⟨.ident "é", 0⟩], 3⟩ := by
  intro text tokens
  have hscan : scan text = .ok tokens := by cbv
  have hdivide := Tokens.divide_of_scan hscan
  have halone := hdivide.alone [] ⟨.ident "é", 1⟩ _ rfl
  exact ⟨hscan, hdivide, halone⟩

end RecordQuery
