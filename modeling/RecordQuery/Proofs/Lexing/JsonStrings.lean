import RecordQuery.Proofs.Lexing.Partition
import RecordQuery.Proofs.Lexing.Words
import RecordQuery.Proofs.Numbers.Hexadecimal

/-! # JSON strings among tokens

JSON writes a text in quotes, with an escape of one letter for the characters that have one, and an
escape by number for the other control characters. The lexer reads what JSON writes as one token,
and goes on right behind the closing quote.
-/

namespace RecordQuery

open Json

variable {c d e : Char} {v n : Nat} {ds piece : List Char}

/-! ## Digits in lower case -/

theorem isHexDigit_hexDigit (hv : v < 16) : IsHexDigit (hexDigit v) v := by
  revert v
  decide

/-- A number has one digit that is no capital letter. -/
theorem IsHexDigit.eq_hexDigit (h : IsHexDigit d v) (hlower : ¬ d.isUpper) : d = hexDigit v := by
  have hdigit : ∀ v < 16, hexDigits[v]? = some (hexDigit v) := by decide
  have hv := h.lt
  rw [IsHexDigit, Char.toLower_eq_of_not_isUpper hlower, hdigit v hv] at h
  exact (Option.some.inj h).symm

theorem not_isUpper_hexDigit (hv : v < 16) : ¬ (hexDigit v).isUpper := by
  revert v
  decide

/-- A number of two digits has one numeral of two digits in lower case. -/
theorem hexDenotes_pair_iff (hn : n < 256) :
    (ds.length = 2 ∧ (∀ d ∈ ds, ¬ d.isUpper) ∧ HexDenotes ds n) ↔
      ds = [hexDigit (n / 16), hexDigit (n % 16)] := by
  have hhigh : n / 16 < 16 := by omega
  have hlow : n % 16 < 16 := by omega
  constructor
  · rintro ⟨hlength, hlower, -, values, hvalues, rfl⟩
    obtain ⟨a, b, rfl⟩ := List.length_eq_two.mp hlength
    match values, hvalues with
    | [x, y], .cons hx (.cons hy .nil) =>
        have hvalue : Nat.ofDigits 16 [x, y].reverse = 16 * x + y := by
          simp [Nat.ofDigits]
          omega
        have hy16 := hy.lt
        have hfirst : (16 * x + y) / 16 = x := by omega
        have hsecond : (16 * x + y) % 16 = y := by omega
        rw [hvalue, hfirst, hsecond, hx.eq_hexDigit (hlower a (by simp)),
          hy.eq_hexDigit (hlower b (by simp))]
  · rintro rfl
    refine ⟨rfl, ?_, List.cons_ne_nil _ _, [n / 16, n % 16], ?_, ?_⟩
    · simp only [List.forall_mem_cons]
      exact ⟨not_isUpper_hexDigit hhigh, not_isUpper_hexDigit hlow, List.forall_mem_nil _⟩
    · exact .cons (isHexDigit_hexDigit hhigh) (.cons (isHexDigit_hexDigit hlow) .nil)
    · simp [Nat.ofDigits]
      omega

namespace Json

/-! ## What JSON writes -/

/-- How JSON writes a character in a string. -/
inductive WrittenAs (c : Char) : List Char → Prop where
  | letter {e : Char} (he : (c, e) ∈ letterEscapes) : WrittenAs c ['\\', e]
  | code {ds : List Char} (hletter : ∀ e, (c, e) ∉ letterEscapes) (hcontrol : c.toNat < 0x20)
      (hlength : ds.length = 2) (hlower : ∀ d ∈ ds, ¬ d.isUpper) (hdigits : HexDenotes ds c.toNat) :
      WrittenAs c ('\\' :: 'u' :: '0' :: '0' :: ds)
  | verbatim (hletter : ∀ e, (c, e) ∉ letterEscapes) (hplain : 0x20 ≤ c.toNat) : WrittenAs c [c]

/-- A text in quotes in which every character is written as JSON does. -/
def IsQuoted (s : String) (q : List Char) : Prop :=
  ∃ pieces, List.Forall₂ WrittenAs s.toList pieces ∧ q = '"' :: pieces.flatten ++ ['"']

theorem writtenAs_iff : WrittenAs c piece ↔ escapeChar c = piece := by
  constructor
  · intro h
    cases h with
    | letter he => exact escapeChar_of_mem he
    | code hletter hcontrol hlength hlower hdigits =>
        rw [escapeChar_of_not_mem hletter, if_pos hcontrol,
          (hexDenotes_pair_iff (by omega)).mp ⟨hlength, hlower, hdigits⟩]
    | verbatim hletter hplain =>
        rw [escapeChar_of_not_mem hletter, if_neg (Nat.not_lt.mpr hplain)]
  · rintro rfl
    by_cases hletter : ∃ e, (c, e) ∈ letterEscapes
    · obtain ⟨e, he⟩ := hletter
      rw [escapeChar_of_mem he]
      exact .letter he
    · rw [not_exists] at hletter
      rw [escapeChar_of_not_mem hletter]
      split
      next hcontrol =>
        obtain ⟨hlength, hlower, hdigits⟩ :=
          (hexDenotes_pair_iff (n := c.toNat) (by omega)).mpr rfl
        exact .code hletter hcontrol hlength hlower hdigits
      next hplain => exact .verbatim hletter (Nat.not_lt.mp hplain)

/-- The text of a string is the one that JSON writes. -/
theorem isQuoted_iff {s : String} {q : List Char} :
    IsQuoted s q ↔ q = (Json.string s).compact := by
  have hwritten : WrittenAs = fun c piece => escapeChar c = piece := by
    funext c piece
    exact propext writtenAs_iff
  have hpieces (pieces : List (List Char)) :
      List.Forall₂ WrittenAs s.toList pieces ↔ pieces = s.toList.map escapeChar := by
    rw [hwritten, ← List.forall₂_map_left_iff (R := Eq), List.forall₂_eq_eq_eq, eq_comm]
  simp only [IsQuoted, hpieces, exists_eq_left, ← List.flatMap_def]
  rfl

end Json

namespace Token

open String

/-- JSON's text of a string is read as the string, and the lexer goes on behind it with whatever
follows. -/
theorem scanFrom_string (s : String) (rest : List Char) (pos : Nat) :
    (∀ q, IsQuoted s q ↔ q = (Json.string s).compact) ∧
      ∃ body, (Json.string s).compact = '"' :: body ∧
        readLexeme pos '"' (body ++ rest) = .ok ⟨.string s, body.length⟩ ∧
        scanFrom pos ('"' :: (body ++ rest)) =
          (scanFrom (pos + utf8Len ('"' :: body)) rest).map fun next =>
            ⟨⟨.string s, pos⟩ :: next.list, next.stop⟩ := by
  refine ⟨fun q => isQuoted_iff, s.toList.flatMap escapeChar ++ ['"'], rfl,
    readLexeme_text s rest pos, ?_⟩
  rw [scanFrom, if_neg (by decide), readLexeme_text]
  dsimp only
  rw [List.take_left, List.drop_left, byteLength_eq_utf8Len, utf8Len_cons, Nat.add_assoc,
    Nat.add_comm (Char.utf8Size _)]
  cases scanFrom (pos + (utf8Len (s.toList.flatMap escapeChar ++ ['"']) + Char.utf8Size '"'))
    rest <;> rfl

end Token

end RecordQuery
