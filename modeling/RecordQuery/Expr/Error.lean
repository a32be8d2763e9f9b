import RecordQuery.Builtin.Definition
import RecordQuery.Expr.Token

/-! # Errors of expressions

The ways in which a text fails to be an expression, and in which an expression fails to have a
value. Positions are byte offsets.
-/

namespace RecordQuery

/-! ## Syntax -/

/-- Why a text is no expression. -/
inductive SyntaxError where
  | empty
  | unexpectedChar (c : Char) (pos : Nat)
  | unexpectedToken (token : Token)
  | unexpectedEnd
  | unclosedString (pos : Nat)
  | invalidNumber (text : String)
  | invalidEscape (pos : Nat)
  | tooDeep (pos : Nat)
deriving DecidableEq, Repr

def SyntaxError.message : SyntaxError → String
  | empty => "Empty expression"
  | unexpectedChar c pos =>
      "Unexpected character '" ++ String.singleton c ++ "' at " ++ toString pos
  | unexpectedToken token =>
      "Unexpected token '" ++ token.kind.display ++ "' at " ++ toString token.pos
  | unexpectedEnd => "Unexpected end of input"
  | unclosedString pos => "Unclosed string starting at " ++ toString pos
  | invalidNumber text => "Invalid number '" ++ text ++ "'"
  | invalidEscape pos => "Invalid escape sequence at " ++ toString pos
  | tooDeep pos => "Expression nested too deeply at " ++ toString pos

/-! ## Evaluation -/

/-- How a number of arguments misses an arity. -/
inductive ArityFault where
  | notExactly (count given : Nat)
  | tooFew (least given : Nat)
  | tooMany (most given : Nat)
deriving DecidableEq, Repr

/-- How a number of arguments misses an arity, if it does. -/
def Arity.fault? : Arity → Nat → Option ArityFault
  | any, _ => none
  | exactly count, given => if given = count then none else some (.notExactly count given)
  | between least most, given =>
      if given < least then some (.tooFew least given)
      else
        match most with
        | some most => if most < given then some (.tooMany most given) else none
        | none => none

/-- A number of arguments misses an arity exactly if the arity does not admit it. -/
theorem Arity.fault?_eq_none_iff (a : Arity) (given : Nat) :
    a.fault? given = none ↔ a.admits given = true := by
  cases a with
  | any => simp [fault?, admits]
  | exactly count => simp [fault?, admits]
  | between least most =>
      cases most with
      | none => simp [fault?, admits]
      | some most =>
          simp only [fault?, admits, Bool.and_eq_true, decide_eq_true_eq]
          split
          · simp; omega
          · split <;> simp <;> omega

/-- Why an expression has no value. -/
inductive EvalError where
  | syntactic (e : SyntaxError)
  | unboundName (name : String)
  | notCallable (callee : String)
  | unknownMethod (target method : String)
  | arity (text : String)
  | notContainer (key : String)
deriving DecidableEq, Repr

def ArityFault.message (name : String) : ArityFault → String
  | notExactly count given =>
      "\"" ++ name ++ "\" expects " ++ toString count ++ " arguments, got " ++ toString given ++ "."
  | tooFew least given =>
      "\"" ++ name ++ "\" expects at least " ++ toString least ++ " arguments, got " ++
        toString given ++ "."
  | tooMany most given =>
      "\"" ++ name ++ "\" expects at most " ++ toString most ++ " arguments, got " ++
        toString given ++ "."

def EvalError.message : EvalError → String
  | syntactic e => e.message
  | unboundName name => name ++ " is not defined"
  | notCallable callee => callee ++ " is not a function"
  | unknownMethod target method => "Unknown method '" ++ method ++ "' on " ++ target
  | arity text => text
  | notContainer key => "Cannot read property '" ++ key ++ "' of null or undefined"

end RecordQuery
