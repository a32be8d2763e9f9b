import RecordQuery.Expr.Printer
import RecordQuery.Proofs.Lexing.Words
import RecordQuery.Proofs.Trees

/-! # Printed expressions as words

The text of an expression is the text of its words, and the words run together only where an
integer stands before a point.
-/

namespace RecordQuery

/-- The punctuator of an operator with one operand. -/
def UnaryOp.punct : UnaryOp → Punct
  | not => .bang
  | neg => .minus
  | plus => .plus

/-- The punctuator of an operator with two operands. -/
def BinaryOp.punct : BinaryOp → Punct
  | add => .plus
  | sub => .minus
  | mul => .star
  | div => .slash
  | rem => .percent
  | eq => .eqEq
  | ne => .bangEq
  | strictEq => .eqEqEq
  | strictNe => .bangEqEq
  | lt => .less
  | le => .lessEq
  | gt => .greater
  | ge => .greaterEq

/-- The punctuator of a logical operator. -/
def LogicalOp.punct : LogicalOp → Punct
  | and => .andAnd
  | or => .orOr

theorem UnaryOp.text_punct (op : UnaryOp) : op.punct.text = op.text := by
  cases op <;> rfl

theorem BinaryOp.text_punct (op : BinaryOp) : op.punct.text = op.text := by
  cases op <;> rfl

theorem LogicalOp.text_punct (op : LogicalOp) : op.punct.text = op.text := by
  cases op <;> rfl

namespace Expr

/-- The words of a literal. Arrays and objects are not literals in a text. -/
def literalWords : Json → List Word
  | .null => [.name "null"]
  | .bool true => [.name "true"]
  | .bool false => [.name "false"]
  | .number n => [.number n]
  | .string s => [.text s]
  | .array _ | .object _ => []

/-- The words of a list, given the words of its items. -/
def listed (items : List (List Word)) : List Word :=
  [Word.punct .comma, .blank].intercalate items

/-- The words of an operand, given its words as an expression. -/
def enclose (e : Expr) (ws : List Word) : List Word :=
  if e.needsParens then .punct .leftParen :: (ws ++ [.punct .rightParen]) else ws

mutual

/-- The words of an expression. -/
def words : Expr → List Word
  | literal value => literalWords value
  | undefined => [.name "undefined"]
  | ident name => [.name name]
  | array items => .punct .leftBracket :: (listed (wordsList items) ++ [.punct .rightBracket])
  | member object name => words object ++ [.punct .dot, .name name]
  | index object key => words object ++ .punct .leftBracket :: (words key ++ [.punct .rightBracket])
  | call callee args =>
      words callee ++ .punct .leftParen :: (listed (wordsList args) ++ [.punct .rightParen])
  | unary op operand => .punct op.punct :: enclose operand (words operand)
  | binary op left right =>
      enclose left (words left) ++ .blank :: .punct op.punct :: .blank ::
        enclose right (words right)
  | logical op left right =>
      enclose left (words left) ++ .blank :: .punct op.punct :: .blank ::
        enclose right (words right)
  | conditional test consequent alternate =>
      enclose test (words test) ++ .blank :: .punct .question :: .blank ::
        (enclose consequent (words consequent) ++ .blank :: .punct .colon :: .blank ::
          enclose alternate (words alternate))

/-- The words of expressions. -/
def wordsList : List Expr → List (List Word)
  | [] => []
  | item :: rest => words item :: wordsList rest

end

theorem wordsList_eq_map (items : List Expr) : wordsList items = items.map words := by
  induction items with
  | nil => rfl
  | cons item rest ih => rw [wordsList, ih, List.map_cons]

theorem charsList_eq_map (items : List Expr) : charsList items = items.map chars := by
  induction items with
  | nil => rfl
  | cons item rest ih => rw [charsList, ih, List.map_cons]

@[simp] theorem listed_nil : listed [] = [] := rfl

@[simp] theorem listed_singleton (ws : List Word) : listed [ws] = ws := by
  simp [listed]

@[simp] theorem listed_cons_cons (ws vs : List Word) (rest : List (List Word)) :
    listed (ws :: vs :: rest) = ws ++ .punct .comma :: .blank :: listed (vs :: rest) := by
  simp [listed]

/-- A name or a literal is read back as it is. -/
def Legible : Expr → Prop
  | literal (.number n) => n.ReadsBack
  | literal (.array _) | literal (.object _) => False
  | ident name => IsName name ∧ name ∉ Grammar.reserved
  | member _ name => IsName name
  | _ => True

/-! ## The text of the words -/

theorem spell_listed (items : List (List Word)) :
    Word.spell (listed items) = Text.join [',', ' '] (items.map Word.spell) := by
  induction items with
  | nil => rfl
  | cons ws rest ih =>
      cases rest with
      | nil => simp [Text.join]
      | cons vs rest =>
          rw [listed_cons_cons, Word.spell_append, Word.spell_cons, Word.spell_cons, ih]
          simp [Text.join, Word.chars, Punct.text]

theorem spell_enclose {e : Expr} {ws : List Word} {cs : List Char} (h : cs = Word.spell ws) :
    parenthesize e cs = Word.spell (enclose e ws) := by
  unfold parenthesize enclose
  split <;> simp [h, Word.chars, Punct.text]

theorem join_charsList {items : List Expr}
    (h : ∀ e ∈ items, e.chars = Word.spell e.words) :
    Text.join [',', ' '] (charsList items) = Word.spell (listed (wordsList items)) := by
  rw [spell_listed, charsList_eq_map, wordsList_eq_map, List.map_map]
  exact congrArg _ (List.map_congr_left h)

/-- The text of an expression is the text of its words. -/
theorem chars_eq_spell {e : Expr} (h : Everywhere Legible e) : e.chars = Word.spell e.words := by
  -- The equations of `chars` are taken from its definition, one constructor at a time.
  induction e with
  | literal value =>
      have hvalue := h.here
      cases value with
      | array | object => exact hvalue.elim
      | bool b => cases b <;> simp [chars.eq_def, words, literalWords, Json.compact, Word.chars]
      | _ => simp [chars.eq_def, words, literalWords, Json.compact, Word.chars]
  | undefined | ident name => simp [chars.eq_def, words, Word.chars]
  | array items ih =>
      rw [Everywhere.array_iff] at h
      have hitems := join_charsList fun e he => ih e he (h.2 e he)
      simp [chars.eq_def (array items), words, hitems, Word.chars, Punct.text]
  | member object name ih =>
      rw [Everywhere.member_iff] at h
      simp [chars.eq_def (member object name), words, ih h.2, Word.chars, Punct.text]
  | index object key ihObject ihKey =>
      rw [Everywhere.index_iff] at h
      simp [chars.eq_def (index object key), words, ihObject h.2.1, ihKey h.2.2, Word.chars,
        Punct.text]
  | call callee args ihCallee ihArgs =>
      rw [Everywhere.call_iff] at h
      have hargs := join_charsList fun e he => ihArgs e he (h.2.2 e he)
      simp [chars.eq_def (call callee args), words, ihCallee h.2.1, hargs, Word.chars, Punct.text]
  | unary op operand ih =>
      rw [Everywhere.unary_iff] at h
      simp [chars.eq_def (unary op operand), words, spell_enclose (ih h.2), Word.chars,
        op.text_punct]
  | binary op left right ihLeft ihRight =>
      rw [Everywhere.binary_iff] at h
      simp [chars.eq_def (binary op left right), words, spell_enclose (ihLeft h.2.1),
        spell_enclose (ihRight h.2.2), Word.chars, op.text_punct]
  | logical op left right ihLeft ihRight =>
      rw [Everywhere.logical_iff] at h
      simp [chars.eq_def (logical op left right), words, spell_enclose (ihLeft h.2.1),
        spell_enclose (ihRight h.2.2), Word.chars, op.text_punct]
  | conditional test consequent alternate ihTest ihConsequent ihAlternate =>
      rw [Everywhere.conditional_iff] at h
      simp [chars.eq_def (conditional test consequent alternate), words,
        spell_enclose (ihTest h.2.1), spell_enclose (ihConsequent h.2.2.1),
        spell_enclose (ihAlternate h.2.2.2), Word.chars, Punct.text]

end Expr

end RecordQuery
