import RecordQuery.Pattern.Reader
import RecordQuery.Pattern.Size

/-! # Delimited patterns

A pattern is written bare, or between slashes with flags behind the second one. Texts that do not
have that form are bare patterns, slashes and all.
-/

namespace RecordQuery

/-- Why a text is no pattern. -/
inductive PatternError where
  | unsupportedFlag (flag : Char) (pattern : String)
  | malformed
  | tooLarge
deriving DecidableEq, Repr

def PatternError.message : PatternError → String
  | unsupportedFlag flag pattern =>
      "unsupported flag '" ++ String.singleton flag ++ "' in " ++ pattern
  | malformed => "malformed"
  | tooLarge => "too large"

namespace Pattern

/-- Whether a character can be a flag behind the second slash. -/
def isFlagLetter (c : Char) : Bool :=
  'a' ≤ c && c ≤ 'z'

/-- The pattern between slashes and the flags behind them. -/
def splitDelimited? (cs : List Char) : Option (List Char × List Char) :=
  match cs with
  | '/' :: rest =>
      let flags := (rest.reverse.takeWhile isFlagLetter).reverse
      match rest.reverse.dropWhile isFlagLetter with
      | '/' :: body => some (body.reverse, flags)
      | _ => none
  | _ => none

/-- The flags that letters stand for. Searching all matches makes no difference to whether there is
one. -/
def delimitedFlags (pattern : String) : Flags → List Char → Except PatternError Flags
  | flags, [] => .ok flags
  | flags, c :: rest =>
      match c with
      | 'i' => delimitedFlags pattern { flags with ignoreCase := true } rest
      | 'm' => delimitedFlags pattern { flags with multiLine := true } rest
      | 's' => delimitedFlags pattern { flags with dotAll := true } rest
      | 'g' => delimitedFlags pattern flags rest
      | c => .error (.unsupportedFlag c pattern)

/-- Reads a bare or delimited pattern. -/
def ofText (text : String) : Except PatternError Pattern :=
  let read (flags : Flags) (cs : List Char) : Except PatternError Pattern :=
    match read? flags cs with
    | some p => if p.isWithinLimit then .ok p else .error .tooLarge
    | none => .error .malformed
  match splitDelimited? text.toList with
  | none => read .none text.toList
  | some (body, letters) =>
      match delimitedFlags text .none letters with
      | .error e => .error e
      | .ok flags => read flags body

end Pattern

end RecordQuery
