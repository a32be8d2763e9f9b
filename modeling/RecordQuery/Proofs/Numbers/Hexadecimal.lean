import Mathlib
import RecordQuery.Value.Conversion

/-! # Hexadecimal numerals

A run of hexadecimal digits of either case denotes a number in base sixteen, and it is read as that
number. What holds anything else, and the empty text, is not read.
-/

namespace RecordQuery

/-- The digits from zero to fifteen. -/
def hexDigits : List Char := "0123456789abcdef".toList

/-- A character is the digit of a number, as a small or a capital letter from ten on. -/
def IsHexDigit (c : Char) (value : Nat) : Prop :=
  hexDigits[value]? = some c.toLower

instance (c : Char) (value : Nat) : Decidable (IsHexDigit c value) :=
  inferInstanceAs (Decidable (hexDigits[value]? = some c.toLower))

/-- At least one digit, the leading one first, denotes a number in base sixteen. -/
def HexDenotes (cs : List Char) (n : Nat) : Prop :=
  cs ≠ [] ∧ ∃ values, List.Forall₂ IsHexDigit cs values ∧ n = Nat.ofDigits 16 values.reverse

variable {c : Char} {v n : Nat} {cs : List Char}

theorem IsHexDigit.lt (h : IsHexDigit c v) : v < 16 := by
  obtain ⟨hlt, -⟩ := List.getElem?_eq_some_iff.mp h
  exact hlt

/-- A digit is one of the first 128 characters. -/
theorem IsHexDigit.toNat_lt (h : IsHexDigit c v) : c.toNat < 128 := by
  have hmem : c.toLower ∈ hexDigits := List.mem_of_getElem? h
  have hascii : ∀ d ∈ hexDigits, d.toNat < 128 := by
    intro d hd
    have hall : (hexDigits.all fun d => d.toNat < 128) = true := by decide
    simpa using List.all_eq_true.mp hall d hd
  by_cases hupper : c.isUpper = true
  · simp only [Char.isUpper, decide_eq_true_eq] at hupper
    exact Nat.lt_of_le_of_lt (UInt32.le_iff_toNat_le.mp hupper.2) (by decide)
  · rw [Char.toLower_eq_of_not_isUpper hupper] at hmem
    exact hascii _ hmem

theorem toNat_lt_of_hexDigitValue? (h : hexDigitValue? c = some v) : c.toNat < 128 := by
  have hlt {last : Char} (hlast : last.toNat < 128) (hle : c ≤ last) : c.toNat < 128 :=
    Nat.lt_of_le_of_lt (UInt32.le_iff_toNat_le.mp hle) hlast
  rw [hexDigitValue?] at h
  split at h
  next hdigit =>
    simp only [Char.isDigit, Bool.and_eq_true, decide_eq_true_eq] at hdigit
    exact Nat.lt_of_le_of_lt (UInt32.le_iff_toNat_le.mp hdigit.2) (by decide)
  next =>
    split at h
    next hletter => exact hlt (by decide) hletter.2
    next =>
      split at h
      next hletter => exact hlt (by decide) hletter.2
      next => cases h

theorem hexDigitValue?_eq_some_iff : hexDigitValue? c = some v ↔ IsHexDigit c v := by
  have hascii : ∀ n < 128, ∀ v < 16,
      hexDigitValue? (Char.ofNat n) = some v ↔ IsHexDigit (Char.ofNat n) v := by
    decide +kernel
  have hbound : ∀ n < 128, ∀ v ∈ hexDigitValue? (Char.ofNat n), v < 16 := by
    decide +kernel
  constructor
  · intro h
    have hc := toNat_lt_of_hexDigitValue? h
    have hv := hbound _ hc v (by rw [Char.ofNat_toNat]; exact h)
    have hiff := hascii _ hc v hv
    rw [Char.ofNat_toNat] at hiff
    exact hiff.mp h
  · intro h
    have hiff := hascii _ h.toNat_lt v h.lt
    rw [Char.ofNat_toNat] at hiff
    exact hiff.mpr h

/-- Digits after a number that has been read are read as the lower digits of a longer numeral. -/
theorem foldlM_hexDigit_eq_some_iff (acc : Nat) :
    cs.foldlM (fun n c => (hexDigitValue? c).map (16 * n + ·)) acc = some n ↔
      ∃ values, List.Forall₂ IsHexDigit cs values ∧
        n = Nat.ofDigits 16 (values.reverse ++ [acc]) := by
  induction cs generalizing acc with
  | nil => simp [eq_comm]
  | cons c cs ih =>
      simp only [List.foldlM_cons, Option.bind_eq_bind, Option.bind_eq_some_iff,
        Option.map_eq_some_iff, hexDigitValue?_eq_some_iff, List.forall₂_cons_left_iff]
      constructor
      · rintro ⟨m, ⟨v, hv, rfl⟩, hrest⟩
        obtain ⟨values, hvalues, rfl⟩ := (ih _).mp hrest
        refine ⟨v :: values, ⟨v, values, hv, hvalues, rfl⟩, ?_⟩
        simp [Nat.ofDigits_append, Nat.ofDigits_cons, Nat.add_comm]
      · rintro ⟨values, ⟨v, rest, hv, hrest, rfl⟩, rfl⟩
        refine ⟨_, ⟨v, hv, rfl⟩, (ih _).mpr ⟨rest, hrest, ?_⟩⟩
        simp [Nat.ofDigits_append, Nat.ofDigits_cons, Nat.add_comm]

theorem hexValue?_eq_some_iff : hexValue? cs = some n ↔ HexDenotes cs n := by
  cases cs with
  | nil => simp [hexValue?, HexDenotes]
  | cons c cs =>
      rw [hexValue?, foldlM_hexDigit_eq_some_iff]
      · simp [HexDenotes, Nat.ofDigits_append_zero]
      · exact List.cons_ne_nil c cs

/-- A numeral of `k` digits is below the power of sixteen with that exponent. -/
theorem HexDenotes.lt_pow (h : HexDenotes cs n) : n < 16 ^ cs.length := by
  obtain ⟨-, values, hvalues, rfl⟩ := h
  have hdigits : ∀ v ∈ values.reverse, v < 16 := by
    intro v hv
    obtain ⟨i, hi, rfl⟩ := List.getElem_of_mem (List.mem_reverse.mp hv)
    exact (hvalues.get (hvalues.length_eq ▸ hi) hi).lt
  have hlt := Nat.ofDigits_lt_base_pow_length (by decide) hdigits
  rwa [List.length_reverse, ← hvalues.length_eq] at hlt

theorem HexDenotes.unique {m : Nat} (h : HexDenotes cs m) (h' : HexDenotes cs n) : m = n := by
  rw [← hexValue?_eq_some_iff] at h h'
  exact Option.some.inj (h.symm.trans h')

end RecordQuery
