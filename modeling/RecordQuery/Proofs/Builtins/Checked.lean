import Mathlib
import RecordQuery.Value.Conversion

/-! # Checked arithmetic

Lengths are numbers of 64 bits without a sign, and positions are numbers of 64 bits with a sign. The
operations on them, and on the parts of lists that they bound, are given here as a machine carries
them out: each says where it has no result. Conversions between the two kinds of numbers always have
one and wrap around.
-/

namespace RecordQuery.Checked

/-- Why an operation has no result. -/
inductive Fault where
  | overflow
  | belowZero
  | disordered
  | outOfRange
deriving DecidableEq, Repr

/-- A sum of numbers with a sign. -/
def addSigned (a b : Int) : Except Fault Int :=
  if minInt64 ≤ a + b ∧ a + b ≤ maxInt64 then .ok (a + b) else .error .overflow

/-- A sum of numbers without a sign. -/
def addSize (a b : Nat) : Except Fault Nat :=
  if a + b < 2 ^ 64 then .ok (a + b) else .error .overflow

/-- A difference of numbers without a sign. -/
def subSize (a b : Nat) : Except Fault Nat :=
  if b ≤ a then .ok (a - b) else .error .belowZero

/-- The nearest number between two bounds, which have to be in order. -/
def clamp (n least most : Int) : Except Fault Int :=
  if least ≤ most then .ok (max least (min n most)) else .error .disordered

/-- The part of a list between two positions, which have to be in order and within the list. -/
def part {α : Type} (list : List α) (start stop : Nat) : Except Fault (List α) :=
  if stop < start then .error .disordered
  else if list.length < stop then .error .outOfRange
  else .ok (list.extract start stop)

/-- The number with a sign that has the same bits. -/
def toSigned (n : Nat) : Int :=
  (n : Int).bmod (2 ^ 64)

/-- The number without a sign that has the same bits. -/
def toSize (n : Int) : Nat :=
  (n % 2 ^ 64).toNat

variable {a b : Nat} {n least most : Int}

theorem addSigned_eq {a b : Int} (hleast : minInt64 ≤ a + b) (hmost : a + b ≤ maxInt64) :
    addSigned a b = .ok (a + b) :=
  if_pos ⟨hleast, hmost⟩

theorem addSize_eq (h : a + b < 2 ^ 64) : addSize a b = .ok (a + b) :=
  if_pos h

theorem subSize_eq (h : b ≤ a) : subSize a b = .ok (a - b) :=
  if_pos h

theorem clamp_eq (h : least ≤ most) : clamp n least most = .ok (max least (min n most)) :=
  if_pos h

section

variable {α : Type} {list : List α} {start stop : Nat}

theorem part_eq (horder : start ≤ stop) (hrange : stop ≤ list.length) :
    part list start stop = .ok (list.extract start stop) := by
  rw [part, if_neg (Nat.not_lt.mpr horder), if_neg (Nat.not_lt.mpr hrange)]

theorem part_zero (hstop : stop ≤ list.length) : part list 0 stop = .ok (list.take stop) := by
  rw [part_eq (Nat.zero_le stop) hstop, List.extract_eq_take_drop, List.drop_zero, Nat.sub_zero]

theorem part_length (hstart : start ≤ list.length) :
    part list start list.length = .ok (list.drop start) := by
  rw [part_eq hstart (Nat.le_refl _), List.extract_eq_take_drop,
    List.take_of_length_le (Nat.le_of_eq List.length_drop)]

end

theorem toSigned_eq (h : a ≤ maxInt64) : toSigned a = a := by
  unfold maxInt64 at h
  exact Int.bmod_eq_of_le (by omega) (by omega)

theorem toSize_eq (hpos : 0 ≤ n) (h : n ≤ maxInt64) : toSize n = n.toNat := by
  unfold maxInt64 at h
  rw [toSize, Int.emod_eq_of_lt hpos (by omega)]

end RecordQuery.Checked
