import RecordQuery.Formula

/-! # Shorthand for formulas

Two ways to write a formula with its parameters in one text: `f(a, b) body` or `fn(a, b) body`,
where the body may stand in braces, and `lambda a, b: body` or `lambda(a, b): body`. Other texts are
no shorthand. Blanks around the parts do not count.
-/

namespace RecordQuery

/-! ## Parameter lists

Names separated by commas and blanks. A list without names means the single parameter `d`, and a
list with anything but names is none.
-/

/-- Whether a character separates parameters. -/
def separatesParams (c : Char) : Bool :=
  c == ',' || Text.isBlank c

/-- The pieces of a text between separators, the first one open on the left. -/
def paramPieces : List Char → List (List Char)
  | [] => [[]]
  | c :: rest =>
      if separatesParams c then [] :: paramPieces rest
      else
        match paramPieces rest with
        | [] => [[c]]
        | piece :: pieces => (c :: piece) :: pieces

/-- The words that stand for constants and cannot be names. -/
def reservedWords : List String := ["true", "false", "null", "undefined"]

def isName : List Char → Bool
  | [] => false
  | c :: rest =>
      isIdentStart c && rest.all isIdentPart && !reservedWords.contains (String.ofList (c :: rest))

def readParams? (cs : List Char) : Option (List String) :=
  match (paramPieces cs).filter (· ≠ []) with
  | [] => some ["d"]
  | pieces => if pieces.all isName then some (pieces.map String.ofList) else none

namespace Formula

/-! ## Texts with parameters -/

/-- A shorthand taken apart: the text of the parameters and that of the body. -/
structure Shorthand where
  params : List Char
  body : List Char
deriving DecidableEq, Repr

/-- A text without a closing brace at its end and the blanks before it. -/
def dropClosingBrace (cs : List Char) : List Char :=
  match cs.reverse with
  | '\x7d' :: rest => Text.trimEnd rest.reverse
  | _ => cs

/-- The body after the parameters. An opening brace with anything behind it is no part of the body,
nor is a closing brace at the end then. -/
def bracedBody? (cs : List Char) : Option (List Char) :=
  match cs, Text.trimStart cs with
  | [], _ => none
  | _, ['\x7b'] => some ['\x7b']
  | _, '\x7b' :: inner => some (dropClosingBrace (Text.trim inner))
  | _, body => some (Text.trimEnd body)

/-- Takes a function text apart: `f` or `fn`, parameters in parentheses, and a body. -/
def functionShorthand? (cs : List Char) : Option Shorthand :=
  let afterKeyword :=
    match cs with
    | 'f' :: 'n' :: rest => some rest
    | 'f' :: rest => some rest
    | _ => none
  match afterKeyword.map Text.trimStart with
  | some ('(' :: rest) =>
      match rest.dropWhile (· ≠ ')') with
      | [] => none
      | _ :: afterParams =>
          (bracedBody? afterParams).map fun body => ⟨rest.takeWhile (· ≠ ')'), body⟩
  | _ => none

/-- The parameters between the keyword `lambda` and the colon: in parentheses, or after a blank, or
none. -/
def lambdaParams? (head : List Char) : Option (List Char) :=
  match Text.trim head with
  | [] => some []
  | '(' :: inner =>
      if inner.dropWhile (· ≠ ')') = [')'] then some (inner.takeWhile (· ≠ ')'))
      else if head.head?.any Text.isBlank then some ('(' :: inner) else none
  | params => if head.head?.any Text.isBlank then some params else none

/-- Takes a lambda text apart: the keyword, parameters up to the first colon, and a body. -/
def lambdaShorthand? (cs : List Char) : Option Shorthand :=
  if "lambda".toList.isPrefixOf cs then
    let rest := cs.drop 6
    match rest.dropWhile (· ≠ ':') with
    | [] | [_] => none
    | _ :: body =>
        (lambdaParams? (rest.takeWhile (· ≠ ':'))).map fun params => ⟨params, Text.trim body⟩
  else none

/-- Reads a formula from its shorthand; none if there is no shorthand, or one whose parameters are
no names. -/
def ofShorthand? (options : FormulaOptions) :
    Option Shorthand → Except SyntaxError (Option Formula)
  | none => .ok none
  | some shorthand =>
      match readParams? shorthand.params with
      | none => .ok none
      | some params => (compile options params (String.ofList shorthand.body)).map some

/-- Reads a formula from a function text. -/
def ofFunctionText? (options : FormulaOptions) (text : String) :
    Except SyntaxError (Option Formula) :=
  ofShorthand? options (functionShorthand? text.toList)

/-- Reads a formula from a lambda text. -/
def ofLambdaText? (options : FormulaOptions) (text : String) :
    Except SyntaxError (Option Formula) :=
  ofShorthand? options (lambdaShorthand? text.toList)

end Formula

end RecordQuery
