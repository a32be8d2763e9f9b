import RecordQuery.Builtin.Sequence
import RecordQuery.Proofs.Builtins.Checked
import RecordQuery.Proofs.Builtins.Slicing
import RecordQuery.Proofs.Results

/-! # Positions are safe

The methods that take positions are carried out in checked arithmetic: every sum, difference and
part of a list may be a fault. None is, whatever the arguments, and the results are those of the
methods. The lists have at most as many elements as the largest number with a sign says.
-/

namespace RecordQuery

open Checked

/-! ## Positions -/

namespace Value

/-- The position that counts from the end if it is negative. -/
def checkedRelativeIndex (v : Value) (length default : Nat) : Except Fault Nat :=
  match v with
  | undefined => .ok default
  | v =>
      let n := v.toInteger
      if n < 0 then (addSigned (toSigned length) n).map fun i => toSize (max i 0)
      else .ok (toSize (min n (toSigned length)))

/-- The position that is the start if it is negative. -/
def checkedClampedIndex (v : Value) (length default : Nat) : Except Fault Nat :=
  match v with
  | undefined => .ok default
  | v => (clamp v.toInteger 0 (toSigned length)).map toSize

variable {length : Nat} (hlength : length ≤ maxInt64) (v : Value) (default : Nat)
include hlength

theorem checkedRelativeIndex_eq :
    v.checkedRelativeIndex length default = .ok (v.relativeIndex length default) := by
  unfold checkedRelativeIndex
  split
  next => rfl
  next hdefined =>
    obtain ⟨hleast, hmost⟩ := v.toInteger_range
    dsimp only
    rw [relativeIndex_of_ne hdefined, toSigned_eq hlength]
    generalize v.toInteger = n at hleast hmost ⊢
    -- The sum is between its operands, since only one of them has a sign.
    split
    next hneg =>
      have hsum : minInt64 ≤ length + n := by
        unfold minInt64 at *
        omega
      have hmax : max (length + n) 0 ≤ maxInt64 := by
        unfold maxInt64 at *
        omega
      rw [addSigned_eq hsum ((le_max_left _ _).trans hmax)]
      change Except.ok (toSize _) = _
      rw [toSize_eq (le_max_right _ _) hmax]
      congr 1
      omega
    next hpos =>
      rw [toSize_eq (by omega) ((min_le_left _ _).trans hmost)]
      congr 1
      omega

theorem checkedClampedIndex_eq :
    v.checkedClampedIndex length default = .ok (v.clampedIndex length default) := by
  unfold checkedClampedIndex
  split
  next => rfl
  next hdefined =>
    rw [clampedIndex_of_ne hdefined, toSigned_eq hlength, clamp_eq (Int.natCast_nonneg length)]
    change Except.ok (toSize _) = _
    rw [toSize_eq (le_max_left _ _) (by omega)]
    congr 1
    omega

end Value

/-! ## Searching -/

/-- The first of some successive positions at which a test succeeds. -/
def firstFrom (test : Nat → Except Fault Bool) : Nat → Nat → Except Fault (Option Nat)
  | _, 0 => .ok none
  | start, count + 1 => do
      if ← test start then return some start
      else firstFrom test (start + 1) count

theorem firstFrom_eq {test : Nat → Except Fault Bool} {p : Nat → Bool} {start count : Nat}
    (h : ∀ i, start ≤ i → i < start + count → test i = .ok (p i)) :
    firstFrom test start count = .ok ((List.range' start count).find? p) := by
  induction count generalizing start with
  | zero => rfl
  | succ count ih =>
      rw [firstFrom, h start le_rfl (by omega), List.range'_succ, List.find?_cons,
        ih fun i hstart hi => h i (by omega) (by omega)]
      change (if p start = true then _ else _) = _
      cases p start <;> rfl

namespace Text

/-- Whether a needle stands at a position. -/
def checkedStandsAt (needle cs : List Char) (i : Nat) : Except Fault Bool := do
  let stop ← addSize i needle.length
  let piece ← part cs i stop
  return piece == needle

/-- The position from `start` on at which a needle stands. The last position to try is the one at
which the needle ends with the text. -/
def checkedIndexFrom (needle cs : List Char) (start : Nat) : Except Fault (Option Nat) :=
  if needle.isEmpty then .ok (some (min start cs.length))
  else if cs.length < needle.length then .ok none
  else do
    let last ← subSize cs.length needle.length
    firstFrom (checkedStandsAt needle cs) start (last + 1 - start)

variable {needle cs : List Char} {start i : Nat}

theorem checkedStandsAt_eq (hlength : cs.length ≤ maxInt64) (hi : i + needle.length ≤ cs.length) :
    checkedStandsAt needle cs i = .ok (cs.extract i (i + needle.length) == needle) := by
  have hsize : i + needle.length < 2 ^ 64 := by
    unfold maxInt64 at hlength
    omega
  rw [checkedStandsAt, addSize_eq hsize, ok_bind, part_eq (Nat.le_add_right _ _) hi]
  rfl

/-- Trying the positions one after the other finds the first occurrence. -/
theorem find?_range'_eq_indexFrom? (hstart : start ≤ cs.length)
    (hneedle : needle.length ≤ cs.length) :
    (List.range' start (cs.length - needle.length + 1 - start)).find?
        (fun i => cs.extract i (i + needle.length) == needle) = indexFrom? needle start cs := by
  cases h : indexFrom? needle start cs with
  | some k =>
      obtain ⟨⟨hfrom, hstands⟩, hleast⟩ := isLeast_of_indexFrom? hstart h
      have hend := hstands.1
      refine List.find?_range'_eq_some.mpr ⟨beq_iff_eq.mpr hstands.2, ?_, ?_⟩
      · rw [List.mem_range'_1]
        omega
      · intro j hj hjk
        rw [Bool.not_eq_true', beq_eq_false_iff_ne]
        intro heq
        have hle : k ≤ j := hleast ⟨hj, by omega, heq⟩
        omega
  | none =>
      refine List.find?_range'_eq_none.mpr fun j hj hjlast => ?_
      rw [Bool.not_eq_true', beq_eq_false_iff_ne]
      intro heq
      exact not_standsAt_of_indexFrom? hstart h hj ⟨by omega, heq⟩

theorem checkedIndexFrom_eq (hlength : cs.length ≤ maxInt64) (hstart : start ≤ cs.length) :
    checkedIndexFrom needle cs start = .ok (indexFrom? needle start cs) := by
  unfold checkedIndexFrom
  split
  next hempty =>
    obtain rfl := List.isEmpty_iff.mp hempty
    have hfirst : indexOf? [] (cs.drop start) = some 0 := by cases cs.drop start <;> rfl
    rw [indexFrom?, hfirst, Nat.min_eq_left hstart, Option.map_some, Nat.zero_add]
  next =>
    split
    next hshort =>
      cases h : indexFrom? needle start cs with
      | none => rfl
      | some k =>
          obtain ⟨-, hle, -⟩ := (isLeast_of_indexFrom? hstart h).1
          omega
    next hlong =>
      have hneedle : needle.length ≤ cs.length := Nat.le_of_not_lt hlong
      rw [subSize_eq hneedle]
      change firstFrom _ start _ = _
      rw [firstFrom_eq fun i hi hlast => checkedStandsAt_eq hlength (by omega),
        find?_range'_eq_indexFrom? hstart hneedle]

end Text

/-! ## Parts of lists -/

namespace Builtin

section

variable {α : Type}

/-- The part from one position up to another, empty if they are not in order. -/
def checkedBetween (list : List α) (start stop : Nat) : Except Fault (List α) :=
  if start < stop then part list start stop else .ok []

/-- The part between two positions in either order. -/
def checkedSpan (list : List α) (a b : Nat) : Except Fault (List α) :=
  if a ≤ b then part list a b else part list b a

/-- How many of the remaining elements an argument allows. -/
def checkedCount (limit : Value) (rest : Nat) : Except Fault Nat :=
  match limit with
  | .undefined => .ok rest
  | limit => (clamp limit.toInteger 0 (toSigned rest)).map toSize

/-- The part from a position on, with as many elements as an argument allows. -/
def checkedLimited (limit : Value) (list : List α) (start : Nat) : Except Fault (List α) := do
  let rest ← subSize list.length start
  let count ← checkedCount limit rest
  let stop ← addSize start count
  part list start stop

variable {list : List α} {start stop a b : Nat}

theorem checkedBetween_eq (hstop : stop ≤ list.length) :
    checkedBetween list start stop = .ok (between list start stop) := by
  rw [checkedBetween, between]
  split
  next h => rw [part_eq h.le hstop, List.extract_eq_take_drop]
  next => rfl

theorem checkedSpan_eq (ha : a ≤ list.length) (hb : b ≤ list.length) :
    checkedSpan list a b = .ok (between list (min a b) (max a b)) := by
  rw [checkedSpan, between_eq_extract]
  split
  next h => rw [part_eq h hb, Nat.min_eq_left h, Nat.max_eq_right h]
  next h =>
    have h := (Nat.lt_of_not_le h).le
    rw [part_eq h ha, Nat.min_eq_right h, Nat.max_eq_left h]

theorem limited_of_ne {limit : Value} (hdefined : limit ≠ .undefined) (list : List α) :
    limited limit list = list.take limit.toInteger.toNat := by
  cases limit with
  | undefined => exact absurd rfl hdefined
  | _ => rfl

theorem exists_checkedCount_eq (limit : Value) (list : List α) (hlength : list.length ≤ maxInt64) :
    ∃ count ≤ list.length, checkedCount limit list.length = .ok count ∧
      limited limit list = list.take count := by
  unfold checkedCount
  split
  next => exact ⟨list.length, le_rfl, rfl, List.take_length.symm⟩
  next hdefined =>
    refine ⟨min limit.toInteger.toNat list.length, Nat.min_le_right _ _, ?_, ?_⟩
    · rw [toSigned_eq hlength, clamp_eq (Int.natCast_nonneg _)]
      change Except.ok (toSize _) = _
      rw [toSize_eq (le_max_left _ _) (by omega)]
      congr 1
      omega
    · rw [limited_of_ne hdefined, List.take_eq_take_min]

theorem checkedLimited_eq (hlength : list.length ≤ maxInt64) (hstart : start ≤ list.length)
    (limit : Value) : checkedLimited limit list start = .ok (limited limit (list.drop start)) := by
  have hrest : (list.drop start).length = list.length - start := List.length_drop
  obtain ⟨count, hcount, hchecked, hlimited⟩ :=
    exists_checkedCount_eq limit (list.drop start) (by omega)
  rw [hrest] at hcount hchecked
  have hsize : start + count < 2 ^ 64 := by
    unfold maxInt64 at hlength
    omega
  rw [checkedLimited, subSize_eq hstart, ok_bind, hchecked, ok_bind, addSize_eq hsize]
  change part list start (start + count) = _
  rw [part_eq (Nat.le_add_right _ _) (by omega), List.extract_eq_take_drop, Nat.add_sub_cancel_left,
    hlimited]

end

/-- The position of an item that is strictly equal to a value, not before `start`. -/
def checkedItemPosition (items : List Json) (needle : Value) (start : Nat) :
    Except Fault (Option Nat) := do
  let rest ← part items start items.length
  match rest.findIdx? fun item => (Value.json item).strictEq needle with
  | none => return none
  | some i => return some (← addSize i start)

theorem checkedItemPosition_eq {items : List Json} {start : Nat} (hlength : items.length ≤ maxInt64)
    (hstart : start ≤ items.length) (needle : Value) :
    checkedItemPosition items needle start = .ok (itemPosition? items needle start) := by
  rw [checkedItemPosition, part_length hstart, itemPosition?]
  change (match (items.drop start).findIdx? _ with | none => _ | some i => _) = _
  cases h : (items.drop start).findIdx? fun item => (Value.json item).strictEq needle with
  | none => rfl
  | some i =>
      obtain ⟨hi, -⟩ := List.findIdx?_eq_some_iff_getElem.mp h
      rw [List.length_drop] at hi
      have hsize : i + start < 2 ^ 64 := by
        unfold maxInt64 at hlength
        omega
      change (addSize i start).bind _ = _
      rw [addSize_eq hsize]
      rfl

/-! ## Methods -/

/-- The methods of texts that take positions, in checked arithmetic. The other ones cut texts at
characters and at whole separators. -/
def TextFn.checked (f : TextFn) (cs : List Char) (args : List Value) : Except Fault Value :=
  match f with
  | .charAt =>
      let i := (arg args 0).toInteger
      .ok (.ofChars (if i < 0 then none else cs[i.toNat]?).toList)
  | .indexOf => do
      let start ← (arg args 1).checkedClampedIndex cs.length 0
      let position ← Text.checkedIndexFrom (arg args 0).chars cs start
      return positionValue position
  | .includes => do
      let start ← (arg args 1).checkedClampedIndex cs.length 0
      let position ← Text.checkedIndexFrom (arg args 0).chars cs start
      return .ofBool position.isSome
  | .startsWith => do
      let start ← (arg args 1).checkedClampedIndex cs.length 0
      let rest ← part cs start cs.length
      return .ofBool ((arg args 0).chars.isPrefixOf rest)
  | .endsWith => do
      let stop ← (arg args 1).checkedClampedIndex cs.length cs.length
      let front ← part cs 0 stop
      return .ofBool ((arg args 0).chars.isSuffixOf front)
  | .slice => do
      let start ← (arg args 0).checkedRelativeIndex cs.length 0
      let stop ← (arg args 1).checkedRelativeIndex cs.length cs.length
      let piece ← checkedBetween cs start stop
      return .ofChars piece
  | .substring => do
      let a ← (arg args 0).checkedClampedIndex cs.length 0
      let b ← (arg args 1).checkedClampedIndex cs.length cs.length
      let piece ← checkedSpan cs a b
      return .ofChars piece
  | .substr => do
      let start ← (arg args 0).checkedRelativeIndex cs.length 0
      let piece ← checkedLimited (arg args 1) cs start
      return .ofChars piece
  | .toUpperCase | .toLowerCase | .trim | .split | .concat | .replace =>
      .ok (TextFn.apply f cs args)

/-- The methods of arrays that take positions, in checked arithmetic. -/
def ArrayFn.checked (f : ArrayFn) (items : List Json) (args : List Value) : Except Fault Value :=
  match f with
  | .indexOf => do
      let start ← (arg args 1).checkedRelativeIndex items.length 0
      let position ← checkedItemPosition items (arg args 0) start
      return positionValue position
  | .includes => do
      let start ← (arg args 1).checkedRelativeIndex items.length 0
      let position ← checkedItemPosition items (arg args 0) start
      return .ofBool position.isSome
  | .slice => do
      let start ← (arg args 0).checkedRelativeIndex items.length 0
      let stop ← (arg args 1).checkedRelativeIndex items.length items.length
      let piece ← checkedBetween items start stop
      return .json (.array piece)
  | .join | .concat => .ok (ArrayFn.apply f items args)

theorem TextFn.checked_eq {cs : List Char} (hlength : cs.length ≤ maxInt64) (f : TextFn)
    (args : List Value) : TextFn.checked f cs args = .ok (TextFn.apply f cs args) := by
  have hrelative (v : Value) {default : Nat} (hdefault : default ≤ cs.length) :=
    v.relativeIndex_le hdefault
  have hclamped (v : Value) {default : Nat} (hdefault : default ≤ cs.length) :=
    v.clampedIndex_le_of_le hdefault
  cases f with
  | charAt =>
      rw [checked, apply]
      congr 2
      split
      next => rfl
      next => rw [List.take_one, List.head?_drop]
  | indexOf =>
      rw [checked, Value.checkedClampedIndex_eq hlength, ok_bind,
        Text.checkedIndexFrom_eq hlength (hclamped _ (Nat.zero_le _))]
      rfl
  | includes =>
      rw [checked, Value.checkedClampedIndex_eq hlength, ok_bind,
        Text.checkedIndexFrom_eq hlength (hclamped _ (Nat.zero_le _))]
      rfl
  | startsWith =>
      rw [checked, Value.checkedClampedIndex_eq hlength, ok_bind,
        part_length (hclamped _ (Nat.zero_le _))]
      rfl
  | endsWith =>
      rw [checked, Value.checkedClampedIndex_eq hlength, ok_bind, part_zero (hclamped _ le_rfl)]
      rfl
  | slice =>
      rw [checked, Value.checkedRelativeIndex_eq hlength, ok_bind,
        Value.checkedRelativeIndex_eq hlength, ok_bind, checkedBetween_eq (hrelative _ le_rfl)]
      rfl
  | substring =>
      rw [checked, Value.checkedClampedIndex_eq hlength, ok_bind,
        Value.checkedClampedIndex_eq hlength, ok_bind,
        checkedSpan_eq (hclamped _ (Nat.zero_le _)) (hclamped _ le_rfl)]
      rfl
  | substr =>
      rw [checked, Value.checkedRelativeIndex_eq hlength, ok_bind,
        checkedLimited_eq hlength (hrelative _ (Nat.zero_le _))]
      rfl
  | toUpperCase => rfl
  | toLowerCase => rfl
  | trim => rfl
  | split => rfl
  | concat => rfl
  | replace => rfl

theorem ArrayFn.checked_eq {items : List Json} (hlength : items.length ≤ maxInt64) (f : ArrayFn)
    (args : List Value) : ArrayFn.checked f items args = .ok (ArrayFn.apply f items args) := by
  have hrelative (v : Value) {default : Nat} (hdefault : default ≤ items.length) :=
    v.relativeIndex_le hdefault
  cases f with
  | indexOf =>
      rw [checked, Value.checkedRelativeIndex_eq hlength, ok_bind,
        checkedItemPosition_eq hlength (hrelative _ (Nat.zero_le _))]
      rfl
  | includes =>
      rw [checked, Value.checkedRelativeIndex_eq hlength, ok_bind,
        checkedItemPosition_eq hlength (hrelative _ (Nat.zero_le _))]
      rfl
  | slice =>
      rw [checked, Value.checkedRelativeIndex_eq hlength, ok_bind,
        Value.checkedRelativeIndex_eq hlength, ok_bind, checkedBetween_eq (hrelative _ le_rfl)]
      rfl
  | join => rfl
  | concat => rfl

/-- No argument makes a method of a text or an array leave its list, take a part with its ends out
of order, go below zero or overflow. -/
theorem checked_methods (args : List Value) :
    (∀ (f : TextFn) (cs : List Char), cs.length ≤ maxInt64 →
      TextFn.checked f cs args = .ok (TextFn.apply f cs args)) ∧
      ∀ (f : ArrayFn) (items : List Json), items.length ≤ maxInt64 →
        ArrayFn.checked f items args = .ok (ArrayFn.apply f items args) :=
  ⟨fun f _ hlength => TextFn.checked_eq hlength f args,
    fun f _ hlength => ArrayFn.checked_eq hlength f args⟩

/-- The least and the largest position: the rest of a text, and a whole array. -/
theorem checked_methods_extreme :
    let least : Value := .json (.number (.float (-1e300)))
    let largest : Value := .json (.number (.int 18446744073709551615))
    least.toInteger = minInt64 ∧ largest.toInteger = maxInt64 ∧
      TextFn.checked .substr ['a', 'é'] [least, largest] = .ok (.ofString "aé") ∧
      ArrayFn.checked .slice [.null, .bool true] [least, largest] =
        .ok (.json (.array [.null, .bool true])) := by
  intro least largest
  have hleast : least.toInteger = minInt64 := by decide +kernel
  have hlargest : largest.toInteger = maxInt64 := by decide +kernel
  have hstart : least.relativeIndex 2 0 = 0 := by decide +kernel
  have hstop : largest.relativeIndex 2 2 = 2 := by decide +kernel
  obtain ⟨htext, harray⟩ := checked_methods [least, largest]
  refine ⟨hleast, hlargest, (htext .substr ['a', 'é'] (by decide)).trans ?_,
    (harray .slice [.null, .bool true] (by decide)).trans ?_⟩
  · change Except.ok (Value.ofChars ((['a', 'é'].drop (least.relativeIndex 2 0)).take
      largest.toInteger.toNat)) = _
    rw [hstart, hlargest]
    rfl
  · change Except.ok (Value.json (.array (between [.null, .bool true] (least.relativeIndex 2 0)
      (largest.relativeIndex 2 2)))) = _
    rw [hstart, hstop]
    rfl

end Builtin

end RecordQuery
