import RecordQuery.Expr.Lexer
import RecordQuery.Json.Printer

/-! # JSON strings in a text

The lexer reads a JSON string back as the text that it was made from, and takes just the string.
-/

namespace RecordQuery

namespace Json

variable {c e : Char}

/-- The characters with an escape of one letter, each with the letter. -/
def letterEscapes : List (Char × Char) :=
  [('"', '"'), ('\\', '\\'), ('\x08', 'b'), ('\x0c', 'f'), ('\n', 'n'), ('\r', 'r'), ('\t', 't')]

theorem escapeChar_of_mem (h : (c, e) ∈ letterEscapes) : escapeChar c = ['\\', e] := by
  have hall : ∀ p ∈ letterEscapes, escapeChar p.1 = ['\\', p.2] := by decide
  exact hall _ h

theorem escapeChar_of_not_mem (h : ∀ e, (c, e) ∉ letterEscapes) : escapeChar c =
    if c.toNat < 0x20 then ['\\', 'u', '0', '0', hexDigit (c.toNat / 16), hexDigit (c.toNat % 16)]
    else [c] := by
  have hne : c ∉ letterEscapes.map Prod.fst := by
    intro hmem
    obtain ⟨⟨_, e⟩, he, rfl⟩ := List.mem_map.mp hmem
    exact h e he
  simp only [letterEscapes, List.map_cons, List.map_nil, List.mem_cons, List.not_mem_nil, or_false,
    not_or] at hne
  simp [escapeChar, hne]

end Json

namespace Token

open Json

/-- The escape by number of a control character. -/
theorem codeEscape?_hexDigit {n : Nat} (h : n < 32) :
    codeEscape? '0' '0' (hexDigit (n / 16)) (hexDigit (n % 16)) = some (Char.ofNat n) := by
  revert n
  decide +kernel

/-- A character stands for itself, or has an escape of one letter or by its number. -/
theorem escapeChar_cases (c : Char) :
    (escapeChar c = [c] ∧ c ≠ '"' ∧ c ≠ '\\') ∨
    (∃ e, escapeChar c = ['\\', e] ∧ simpleEscape? e = some c ∧ e ≠ 'u') ∨
    (escapeChar c = ['\\', 'u', '0', '0', hexDigit (c.toNat / 16), hexDigit (c.toNat % 16)] ∧
      c.toNat < 32) := by
  by_cases hletter : ∃ e, (c, e) ∈ letterEscapes
  · obtain ⟨e, he⟩ := hletter
    have hread : ∀ p ∈ letterEscapes, simpleEscape? p.2 = some p.1 ∧ p.2 ≠ 'u' := by decide
    exact .inr (.inl ⟨e, escapeChar_of_mem he, hread _ he⟩)
  · rw [not_exists] at hletter
    rw [escapeChar_of_not_mem hletter]
    split
    next hcontrol => exact .inr (.inr ⟨rfl, hcontrol⟩)
    next =>
      refine .inl ⟨rfl, ?_, ?_⟩
      · rintro rfl
        exact hletter '"' (by decide)
      · rintro rfl
        exact hletter '\\' (by decide)

/-- What stands for a character in a JSON string is read as the character. -/
theorem readQuoted_escapeChar (start pos : Nat) (c : Char) (rest : List Char) :
    ∃ next, readQuoted '"' start pos (escapeChar c ++ rest) =
      pushChar c (escapeChar c).length (readQuoted '"' start next rest) := by
  rcases escapeChar_cases c with
    ⟨hself, hquote, hbackslash⟩ | ⟨e, hletter, hsimple, hne⟩ | ⟨hnumber, hcontrol⟩
  · rw [hself]
    refine ⟨pos + c.utf8Size, ?_⟩
    rw [List.cons_append, readQuoted.eq_def]
    simp [hquote, hbackslash]
  · rw [hletter]
    refine ⟨pos + 2, ?_⟩
    rw [List.cons_append, List.cons_append, readQuoted.eq_def]
    simp [hsimple, hne]
  · have hescape := codeEscape?_hexDigit hcontrol
    rw [Char.ofNat_toNat] at hescape
    rw [hnumber]
    refine ⟨pos + 6, ?_⟩
    simp only [List.cons_append]
    rw [readQuoted.eq_def]
    simp [hescape]

/-- A JSON string is read up to its closing quote. -/
theorem readQuoted_escaped (start pos : Nat) (cs rest : List Char) :
    readQuoted '"' start pos (cs.flatMap escapeChar ++ '"' :: rest) =
      .ok (cs, (cs.flatMap escapeChar).length + 1) := by
  induction cs generalizing pos with
  | nil =>
      rw [List.flatMap_nil, List.nil_append, readQuoted.eq_def]
      rfl
  | cons c cs ih =>
      rw [List.flatMap_cons, List.append_assoc]
      obtain ⟨next, hnext⟩ :=
        readQuoted_escapeChar start pos c (cs.flatMap escapeChar ++ '"' :: rest)
      rw [hnext, ih, pushChar, List.length_append]
      congr 2
      omega

end Token

end RecordQuery
