import RecordQuery.Decimal.Literal
import RecordQuery.Expr.Error
import RecordQuery.Text.Fragment
import RecordQuery.Text.Numeric
import RecordQuery.Value.Conversion

/-! # From text to tokens

Blanks separate tokens. A token is as long as it can be, and a number must not run into a name. A
text in quotes may span lines and hold escapes.
-/

namespace RecordQuery

def isIdentStart (c : Char) : Bool :=
  Text.isAlphabetic c || c == '_' || c == '$'

def isIdentPart (c : Char) : Bool :=
  Text.isAlphanumeric c || c == '_' || c == '$'

def byteLength (cs : List Char) : Nat :=
  cs.foldl (fun n c => n + c.utf8Size) 0

namespace Token

/-- A token at the front of a text: what it says, and how many characters it takes
after the first. -/
structure Lexeme where
  kind : TokenKind
  more : Nat
deriving DecidableEq, Repr

/-- The number of characters of the digits, with a point, at the front of a text. -/
def mantissaLength (cs : List Char) : Nat :=
  let whole := (Decimal.spanDigits cs).1.length
  match (Decimal.spanDigits cs).2 with
  | '.' :: rest => whole + 1 + (Decimal.spanDigits rest).1.length
  | _ => whole

/-- The number of characters of an exponent mark and its sign at the front of a text. -/
def exponentMarkLength : List Char → Nat
  | c :: rest =>
      if c = 'e' ∨ c = 'E' then 1 + (rest.length - (Decimal.splitSign rest).2.length) else 0
  | [] => 0

/-- Reads a number. An exponent mark needs digits, and no name may follow. -/
def readNumber (cs : List Char) : Except SyntaxError Lexeme :=
  let mantissa := mantissaLength cs
  let rest := cs.drop mantissa
  let mark := exponentMarkLength rest
  let length := mantissa + Decimal.exponentLength rest
  if mark ≠ 0 ∧ Decimal.exponentLength rest = 0 then
    .error (.invalidNumber (String.ofList (cs.take (mantissa + mark))))
  else if (cs.drop length).head?.any isIdentStart then
    .error (.invalidNumber (String.ofList (cs.take length)))
  else
    match Decimal.readFloat? (cs.take length) with
    | some x => .ok ⟨.number x, length - 1⟩
    | none => .error (.invalidNumber (String.ofList (cs.take length)))

/-- The character that a single-letter escape stands for. -/
def simpleEscape? (c : Char) : Option Char :=
  match c with
  | 'n' => some '\n'
  | 't' => some '\t'
  | 'r' => some '\r'
  | 'b' => some '\x08'
  | 'f' => some '\x0c'
  | '/' => some '/'
  | '\\' => some '\\'
  | '\'' => some '\''
  | '"' => some '"'
  | _ => none

/-- The character with the given code point, if there is one. -/
def charOfCode? (code : Nat) : Option Char :=
  if code.isValidChar then some (Char.ofNat code) else none

/-- The character that an escape by number stands for: four hexadecimal digits, or a plus sign and
three of them. -/
def codeEscape? (a b c d : Char) : Option Char :=
  if a = '+' then (hexValue? [b, c, d]).bind charOfCode?
  else (hexValue? [a, b, c, d]).bind charOfCode?

/-- Adds a character in front of a text that has been read, and the characters that spell it to
their number. -/
def pushChar (c : Char) (width : Nat) :
    Except SyntaxError (List Char × Nat) → Except SyntaxError (List Char × Nat)
  | .ok (cs, length) => .ok (c :: cs, length + width)
  | .error e => .error e

/-- Reads a text up to its closing quote. Yields the text and the number of characters that spell
it, the closing quote included. The opening quote is at `start`, the first character at `pos`. -/
def readQuoted (quote : Char) (start pos : Nat) :
    List Char → Except SyntaxError (List Char × Nat)
  | [] => .error (.unclosedString start)
  | c :: rest =>
      if c = quote then .ok ([], 1)
      else if c ≠ '\\' then pushChar c 1 (readQuoted quote start (pos + c.utf8Size) rest)
      else
        match rest with
        | [] => .error (.unclosedString start)
        | e :: rest =>
            if e = 'u' then
              match rest with
              | a :: b :: c :: d :: rest =>
                  match codeEscape? a b c d with
                  | some r => pushChar r 6 (readQuoted quote start (pos + 6) rest)
                  | none => .error (.invalidEscape pos)
              | _ => .error (.invalidEscape pos)
            else
              match simpleEscape? e with
              | some r => pushChar r 2 (readQuoted quote start (pos + 2) rest)
              | none => .error (.invalidEscape pos)

/-- Reads the token that starts with the character `c` at `pos`. -/
def readLexeme (pos : Nat) (c : Char) (rest : List Char) : Except SyntaxError Lexeme :=
  if c.isDigit || (c == '.' && rest.head?.any Char.isDigit) then readNumber (c :: rest)
  else if c = '"' ∨ c = '\'' then
    (readQuoted c pos (pos + 1) rest).map fun (text, length) =>
      ⟨.string (String.ofList text), length⟩
  else if isIdentStart c then
    let more := rest.takeWhile isIdentPart
    .ok ⟨.ident (String.ofList (c :: more)), more.length⟩
  else
    match Punct.longestFirst.find? fun p => p.text.toList.isPrefixOf (c :: rest) with
    | some p => .ok ⟨.punct p, p.text.toList.length - 1⟩
    | none => .error (.unexpectedChar c pos)

/-- The tokens of a text that starts at the byte offset `pos`. -/
def scanFrom (pos : Nat) : List Char → Except SyntaxError Tokens
  | [] => .ok ⟨[], pos⟩
  | c :: rest =>
      if Text.isBlank c then scanFrom (pos + c.utf8Size) rest
      else
        match readLexeme pos c rest with
        | .error e => .error e
        | .ok lexeme =>
            let stop := pos + c.utf8Size + byteLength (rest.take lexeme.more)
            match scanFrom stop (rest.drop lexeme.more) with
            | .error e => .error e
            | .ok tokens => .ok ⟨⟨lexeme.kind, pos⟩ :: tokens.list, tokens.stop⟩
termination_by cs => cs.length
decreasing_by
  all_goals simp only [List.length_cons, List.length_drop]
  all_goals omega

def scan (text : String) : Except SyntaxError Tokens :=
  scanFrom 0 text.toList

end Token

end RecordQuery
