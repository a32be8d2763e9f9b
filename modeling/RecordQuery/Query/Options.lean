import RecordQuery.Json.Outline
import RecordQuery.Json.Printer
import RecordQuery.Query.Accessor

/-! # Options as JSON

Options are written as an object, in which every field may be missing, or as a list of the fields in
their order. Unknown fields are passed over, a known one must not be repeated.
-/

namespace RecordQuery.ExprOptions

/-- The value of a field that may be missing; none if it is repeated or a key has no text. -/
def field? (key : String) : List (Option String × Outline) → Option (Option Outline)
  | [] => some none
  | (none, _) :: _ => none
  | (some k, value) :: rest =>
      match field? key rest with
      | none => none
      | some found =>
          if k = key then if found.isNone then some (some value) else none else some found

/-- A truth value, `false` if it is missing. -/
def flag? : Option Outline → Option Bool
  | none => some false
  | some (.bool b) => some b
  | some _ => none

/-- The strictness of evaluation options. -/
def strict? : Option Outline → Option Bool
  | none => some false
  | some (.object fields) => (field? "strict" fields).bind flag?
  | some (.array []) => some false
  | some (.array [item]) => flag? (some item)
  | some _ => none

/-- Options from the outline of their text. -/
def ofOutline? : Outline → Option ExprOptions
  | .object fields => do
      let strict ← (field? "eval" fields).bind strict?
      let sanitizeKeys ← (field? "sanitize_keys" fields).bind flag?
      return ⟨strict, sanitizeKeys⟩
  | .array [] => some standard
  | .array [eval] => do return ⟨← strict? (some eval), false⟩
  | .array [eval, sanitize] => do return ⟨← strict? (some eval), ← flag? (some sanitize)⟩
  | _ => none

/-- Reads options; none if the text does not describe any. -/
def ofText? (text : String) : Option ExprOptions :=
  (Outline.ofText? text).bind ofOutline?

def toJson (o : ExprOptions) : Json :=
  .object [("eval", .object [("strict", .bool o.strict)]), ("sanitize_keys", .bool o.sanitizeKeys)]

end RecordQuery.ExprOptions
