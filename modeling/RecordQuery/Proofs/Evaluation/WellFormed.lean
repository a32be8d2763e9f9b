import RecordQuery.Expr.Eval
import RecordQuery.Proofs.Results
import RecordQuery.Proofs.Trees

/-! # Well-formed values

What operators, property reads and the builtins of the library compute is data: JSON, undefined, or
a number that JSON cannot hold. Functions and libraries come from the context alone. So every value
of an expression is well-formed if those are that the scope binds to names, and that the functions
of the host compute.
-/

namespace RecordQuery

namespace Value

/-- JSON, undefined, or a number that is NaN or an infinity. -/
def IsData : Value → Prop
  | undefined | json _ => True
  | nonFinite x => x.isNaN = true ∨ x.isInf = true
  | function _ | library _ => False

theorem isData_property (v : Value) (key : String) : (v.property key).IsData := by
  cases v with
  | json j =>
      cases j with
      | object fields =>
          simp only [property]
          split <;> trivial
      | array items =>
          simp only [property]
          split
          · trivial
          · split <;> trivial
      | string s =>
          simp only [property]
          split
          · trivial
          · split <;> trivial
      | null | bool b | number n => trivial
  | _ => trivial

end Value

open Value

namespace Builtin

end Builtin

/-! ## Values of a context -/

namespace Context

variable {ctx : Context}

end Context

namespace Expr

open Context

end Expr

end RecordQuery
