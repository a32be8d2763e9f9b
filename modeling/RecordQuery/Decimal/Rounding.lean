/-! # Rounding of quotients

The integer nearest to a quotient of natural numbers, with the choice made at a tie.
-/

namespace RecordQuery.Decimal

/-- Where a tie between two neighbours goes. -/
inductive Tie where
  | toEven
  | up
deriving DecidableEq, Repr

/-- The integer nearest to `num / den`. -/
def roundDiv (num den : Nat) (tie : Tie) : Nat :=
  let below := num / den
  match compare (2 * (num % den)) den with
  | .lt => below
  | .gt => below + 1
  | .eq =>
      match tie with
      | .toEven => if below % 2 = 0 then below else below + 1
      | .up => below + 1

/-- The nearest integer is the quotient or the one above it. -/
theorem roundDiv_eq_or (num den : Nat) (tie : Tie) :
    roundDiv num den tie = num / den ∨ roundDiv num den tie = num / den + 1 := by
  simp only [roundDiv]
  split
  · exact Or.inl rfl
  · exact Or.inr rfl
  · cases tie with
    | up => exact Or.inr rfl
    | toEven =>
        dsimp only
        split
        · exact Or.inl rfl
        · exact Or.inr rfl

end RecordQuery.Decimal
