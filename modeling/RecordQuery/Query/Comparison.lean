import RecordQuery.Json.Printer
import RecordQuery.Pattern.Marked
import RecordQuery.Query.Accessor

/-! # Comparisons with a fixed value

An operator between the record and a value, compiled from their texts, and the tests of types and
patterns.
-/

namespace RecordQuery.Accessor

/-- The expression that compares the parameter `d` with a value. -/
def comparisonText (op : String) (value : Json) : String :=
  "d " ++ op ++ " " ++ value.toText

/-- The operator between the record and a value. -/
def compare (op : String) (value : Json) : Except SyntaxError Accessor :=
  match Formula.compile .standard ["d"] (comparisonText op value) with
  | .error e => .error e
  | .ok f => .ok (new (op ++ (Value.json value).toText) fun d => f.call [d])

/-- The operator of a comparison by its short name. -/
def comparisonOp? (name : String) : Option String :=
  [("eq", "=="), ("eqq", "==="), ("neq", "!="), ("neqq", "!=="), ("gt", ">"), ("gte", ">="),
   ("lt", "<"), ("lte", "<="), ("modulo", "%"), ("plus", "+"), ("minus", "-")].lookup name

/-- Whether the type of the record has the given name. -/
def hasType (name : String) : Accessor :=
  ofFunction ("type:" ++ name) fun d => .ofBool (d.typeName == name)

/-- Whether the record is a text in which a pattern has a match. -/
def matching (pattern : String) : Except PatternError Accessor :=
  match Pattern.ofText pattern with
  | .error e => .error e
  | .ok p =>
      .ok (ofFunction ("re:" ++ pattern) fun d =>
        match d with
        | .json (.string s) => .ofBool (p.isMatch s.toList)
        | _ => .ofBool false)

end RecordQuery.Accessor
