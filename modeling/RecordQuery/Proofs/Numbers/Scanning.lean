import Mathlib
import RecordQuery.Proofs.Numbers.Prefixes

/-! # Numbers read byte by byte

The number at the front of a text is found by a walk over its bytes. The text is cut where the walk
ends, which is a fault inside a character, and what is cut off is read as a literal, which is a
fault if it is none. Neither happens: the walk passes only characters of one byte, and it ends where
the longest literal does.
-/

namespace RecordQuery

open Decimal String

namespace Bytes

/-! ## The walk -/

/-- The bytes of a text. -/
def utf8 (cs : List Char) : List UInt8 :=
  cs.flatMap utf8EncodeChar

/-- There is a byte at an offset, and the character with its number passes a test. -/
def testAt (p : Char → Bool) (bytes : List UInt8) (i : Nat) : Bool :=
  (bytes[i]?).any fun b => p (Char.ofUInt8 b)

theorem lt_length_of_testAt {p : Char → Bool} {bytes : List UInt8} {i : Nat}
    (h : testAt p bytes i = true) : i < bytes.length := by
  by_contra hle
  rw [testAt, List.getElem?_eq_none (Nat.le_of_not_lt hle)] at h
  cases h

/-- The offset behind the digits at an offset. -/
def digitsEnd (bytes : List UInt8) (i : Nat) : Nat :=
  if h : testAt Char.isDigit bytes i then digitsEnd bytes (i + 1) else i
termination_by bytes.length - i
decreasing_by
  have hlt := lt_length_of_testAt h
  omega

/-- The offset behind the sign at an offset, if there is one. -/
def signEnd (bytes : List UInt8) (i : Nat) : Nat :=
  if testAt ['+', '-'].contains bytes i then i + 1 else i

/-- The offset behind the mantissa at an offset. A mantissa has a digit. -/
def mantissaEnd? (bytes : List UInt8) (start : Nat) : Option Nat :=
  let whole := digitsEnd bytes start
  if testAt ['.'].contains bytes whole then
    let fraction := digitsEnd bytes (whole + 1)
    if whole + 1 < fraction ∨ start < whole then some fraction else none
  else if start < whole then some whole
  else none

/-- The offset behind the exponent at an offset, if there is one with a digit. -/
def exponentEnd (bytes : List UInt8) (i : Nat) : Nat :=
  if testAt ['e', 'E'].contains bytes i then
    let digits := signEnd bytes (i + 1)
    let stop := digitsEnd bytes digits
    if digits < stop then stop else i
  else i

/-- Why a number has no result. -/
inductive ScanFault where
  | insideCharacter
  | notNumber
deriving DecidableEq, Repr

/-- Cuts a text at an offset in its bytes, which has to be that of a character or of the end. -/
def cut : List Char → Nat → Except ScanFault (List Char × List Char)
  | cs, 0 => .ok ([], cs)
  | [], _ + 1 => .error .insideCharacter
  | c :: cs, i + 1 =>
      if i + 1 < c.utf8Size then .error .insideCharacter
      else do
        let (front, rest) ← cut cs (i + 1 - c.utf8Size)
        return (c :: front, rest)

/-- The number at the front of a text, found in its bytes. -/
def scanDecimal (cs : List Char) : Except ScanFault Float := do
  let text := Text.trimStart cs
  let bytes := utf8 text
  let start := signEnd bytes 0
  let (_, unsigned) ← cut text start
  if "Infinity".toList.isPrefixOf unsigned then
    return if text.head? = some '-' then -infinity else infinity
  else
    match mantissaEnd? bytes start with
    | none => return nan
    | some stop =>
        let (literal, _) ← cut text (exponentEnd bytes stop)
        match readFloat? literal with
        | some x => return x
        | none => .error .notNumber

/-! ## Characters of one byte -/

/-- A text has only characters of one byte. -/
def IsAscii (cs : List Char) : Prop :=
  ∀ c ∈ cs, c.toNat < 128

theorem IsAscii.append {cs ds : List Char} (hcs : IsAscii cs) (hds : IsAscii ds) :
    IsAscii (cs ++ ds) :=
  List.forall_mem_append.mpr ⟨hcs, hds⟩

theorem isAscii_singleton {c : Char} (h : c.toNat < 128) : IsAscii [c] :=
  List.forall_mem_singleton.mpr h

theorem toNat_ofUInt8 (b : UInt8) : (Char.ofUInt8 b).toNat = b.toNat :=
  UInt8.toNat_toUInt32 b

theorem exists_byte {c : Char} (h : c.toNat < 128) :
    ∃ b, utf8EncodeChar c = [b] ∧ Char.ofUInt8 b = c := by
  have hone : c.val.toNat ≤ 127 := Nat.le_of_lt_succ h
  refine ⟨UInt8.ofNat c.val.toNat, if_pos hone, ?_⟩
  rw [← Char.toNat_inj, toNat_ofUInt8, UInt8.toNat_ofNat']
  exact Nat.mod_eq_of_lt (by omega)

/-- The first of several bytes is the number of no character of one byte. -/
theorem exists_large_byte {c : Char} (h : 128 ≤ c.toNat) :
    ∃ b bs, utf8EncodeChar c = b :: bs ∧ 128 ≤ (Char.ofUInt8 b).toNat := by
  have hbyte {n : Nat} (hlow : 128 ≤ n) (hhigh : n < 256) :
      128 ≤ (Char.ofUInt8 (UInt8.ofNat n)).toNat := by
    rw [toNat_ofUInt8, UInt8.toNat_ofNat', Nat.mod_eq_of_lt hhigh]
    exact hlow
  have hone : ¬c.val.toNat ≤ 127 := Nat.not_le_of_lt h
  rw [utf8EncodeChar, if_neg hone]
  by_cases htwo : c.val.toNat ≤ 2047
  · rw [if_pos htwo]
    exact ⟨_, _, rfl, hbyte (by omega) (by omega)⟩
  rw [if_neg htwo]
  by_cases hthree : c.val.toNat ≤ 65535
  · rw [if_pos hthree]
    exact ⟨_, _, rfl, hbyte (by omega) (by omega)⟩
  · rw [if_neg hthree]
    exact ⟨_, _, rfl, hbyte (by omega) (by omega)⟩

theorem lt_of_isDigit (c : Char) (h : c.isDigit = true) : c.toNat < 128 :=
  Nat.lt_of_le_of_lt (toNat_of_isDigit h).2 (by decide)

theorem isAscii_signs : IsAscii ['+', '-'] := by simp [IsAscii]

theorem isAscii_point : IsAscii ['.'] := by simp [IsAscii]

theorem isAscii_marks : IsAscii ['e', 'E'] := by simp [IsAscii]

theorem lt_of_contains {chars : List Char} (h : IsAscii chars) (c : Char)
    (hc : chars.contains c = true) : c.toNat < 128 :=
  h c (List.contains_iff_mem.mp hc)

theorem utf8_append (cs ds : List Char) : utf8 (cs ++ ds) = utf8 cs ++ utf8 ds :=
  List.flatMap_append

theorem length_utf8_cons (c : Char) (cs : List Char) :
    (utf8 (c :: cs)).length = c.utf8Size + (utf8 cs).length := by
  rw [utf8, List.flatMap_cons, List.length_append, length_utf8EncodeChar, utf8]

theorem cut_append (front rest : List Char) :
    cut (front ++ rest) (utf8 front).length = .ok (front, rest) := by
  induction front with
  | nil => cases rest <;> rfl
  | cons c front ih =>
      have hlength := length_utf8_cons c front
      have hpos := c.utf8Size_pos
      generalize (utf8 (c :: front)).length = offset at hlength ⊢
      obtain ⟨i, rfl⟩ := Nat.exists_eq_succ_of_ne_zero (by omega : offset ≠ 0)
      have hrest : i + 1 - c.utf8Size = (utf8 front).length := by omega
      rw [List.cons_append, cut, if_neg (by omega), hrest, ih]
      rfl

variable {front rest sign : List Char} {negative : Bool} {p : Char → Bool}

theorem length_utf8 (h : IsAscii front) : (utf8 front).length = front.length := by
  induction front with
  | nil => rfl
  | cons c front ih =>
      obtain ⟨hc, hfront⟩ := List.forall_mem_cons.mp h
      obtain ⟨b, hb, -⟩ := exists_byte hc
      rw [length_utf8_cons, ih hfront, ← length_utf8EncodeChar, hb, List.length_cons]
      exact Nat.add_comm _ _

/-- Behind characters of one byte, a test for such characters sees the next one. -/
theorem testAt_front (hp : ∀ c, p c = true → c.toNat < 128) (hfront : IsAscii front)
    (rest : List Char) : testAt p (utf8 (front ++ rest)) front.length = rest.head?.any p := by
  rw [testAt, utf8_append, List.getElem?_append_right (Nat.le_of_eq (length_utf8 hfront)),
    length_utf8 hfront, Nat.sub_self]
  cases rest with
  | nil => rfl
  | cons c rest =>
      rw [utf8, List.flatMap_cons]
      rcases Nat.lt_or_ge c.toNat 128 with hc | hc
      · obtain ⟨b, hbyte, hb⟩ := exists_byte hc
        rw [hbyte]
        exact congrArg p hb
      · -- Neither the character nor its first byte, taken for a character, passes the test.
        obtain ⟨b, bs, hbytes, hb⟩ := exists_large_byte hc
        have hfalse {d : Char} (hd : 128 ≤ d.toNat) : p d = false := by
          rw [Bool.eq_false_iff]
          exact fun h => Nat.not_lt_of_le hd (hp d h)
        rw [hbytes]
        exact (hfalse hb).trans (hfalse hc).symm

theorem cut_ascii (h : IsAscii front) (rest : List Char) :
    cut (front ++ rest) front.length = .ok (front, rest) := by
  rw [← length_utf8 h]
  exact cut_append front rest

/-! ## Where the parts of a number end -/

theorem digitsEnd_front (hfront : IsAscii front) (rest : List Char) :
    digitsEnd (utf8 (front ++ rest)) front.length = front.length + (spanDigits rest).1.length := by
  induction rest generalizing front with
  | nil =>
      have htest := testAt_front lt_of_isDigit hfront []
      rw [digitsEnd, htest]
      rfl
  | cons c rest ih =>
      have htest := testAt_front lt_of_isDigit hfront (c :: rest)
      rw [digitsEnd, htest]
      by_cases hc : c.isDigit = true
      · have hrest := ih (hfront.append (isAscii_singleton (lt_of_isDigit c hc)))
        rw [List.append_assoc, List.singleton_append, List.length_append,
          List.length_singleton] at hrest
        simp only [List.head?_cons, Option.any_some, hc, dite_true, hrest, spanDigits,
          List.takeWhile_cons_of_pos hc, List.length_cons]
        omega
      · rw [Bool.not_eq_true] at hc
        simp [hc, spanDigits]

theorem isAscii_sign (h : IsSign sign negative) : IsAscii sign := by
  cases h <;> simp [IsAscii]

theorem signEnd_front (hfront : IsAscii front) (hsign : IsSign sign negative)
    (hsplit : splitSign (sign ++ rest) = (negative, rest)) :
    signEnd (utf8 (front ++ (sign ++ rest))) front.length = (front ++ sign).length := by
  rw [signEnd, testAt_front (lt_of_contains isAscii_signs) hfront, List.length_append]
  cases hsign with
  | none =>
      have hnone : rest.head?.any ['+', '-'].contains = false := by
        cases rest with
        | nil => rfl
        | cons c rest => simp [noSign_of_splitSign hsplit c rfl]
      rw [List.nil_append, hnone]
      rfl
  | plus => rfl
  | minus => rfl

theorem mantissaEnd?_front (hfront : IsAscii front) (rest : List Char) :
    mantissaEnd? (utf8 (front ++ rest)) front.length =
      if frontMantissa rest = 0 then none else some (front.length + frontMantissa rest) := by
  have hwhole := digitsEnd_front hfront rest
  obtain ⟨ds, after, hds, hafter⟩ := exists_digits_point rest
  have hbefore : IsAscii (front ++ ds) := hfront.append fun d hd => lt_of_isDigit d (hds d hd)
  rcases hafter with rfl | ⟨rfl, hrest, hpoint⟩
  · have htest := testAt_front (lt_of_contains isAscii_point) hbefore ('.' :: after)
    have hfraction := digitsEnd_front (hbefore.append isAscii_point) after
    rw [spanDigits_digits hds (noDigit_point after), ← List.append_assoc] at hwhole
    rw [← List.append_cons, List.length_append, List.length_append, List.length_singleton]
      at hfraction
    rw [← List.append_assoc, frontMantissa_point hds]
    have hdot : ['.'].contains '.' = true := rfl
    rw [List.head?_cons, Option.any_some, hdot, List.length_append] at htest
    simp only [mantissaEnd?, hwhole, htest, if_true, hfraction]
    generalize (spanDigits after).1.length = k
    -- Without a digit on either side, the point is not taken.
    by_cases hempty : ds.length = 0 ∧ k = 0
    · simp [hempty]
    · have hdigit : front.length + ds.length + 1 < front.length + ds.length + 1 + k ∨
          front.length < front.length + ds.length := by
        omega
      rw [if_neg hempty, if_pos hdigit, if_neg (by omega)]
      exact congrArg some (by omega)
  · rw [spanDigits_digits hds hrest, ← List.append_assoc] at hwhole
    have hnone : after.head?.any ['.'].contains = false := by
      cases after with
      | nil => rfl
      | cons c after => simp [hpoint c rfl]
    have htest := testAt_front (lt_of_contains isAscii_point) hbefore after
    rw [hnone, List.length_append] at htest
    rw [← List.append_assoc, frontMantissa_whole hpoint hds hrest]
    simp only [mantissaEnd?, hwhole, htest]
    by_cases hempty : ds.length = 0
    · simp [hempty]
    · rw [if_neg hempty, if_neg Bool.false_ne_true, if_pos (by omega)]

theorem exponentEnd_front (hfront : IsAscii front) (rest : List Char) :
    exponentEnd (utf8 (front ++ rest)) front.length = front.length + exponentLength rest := by
  have htest := testAt_front (lt_of_contains isAscii_marks) hfront rest
  cases rest with
  | nil =>
      rw [exponentEnd, htest]
      rfl
  | cons c rest =>
      by_cases hc : c = 'e' ∨ c = 'E'
      · obtain ⟨sign, negative, after, hsign, rfl, hsplit⟩ := exists_split rest
        have hmark : ['e', 'E'].contains c = true := by simp [hc]
        have hbefore := hfront.append (isAscii_singleton (lt_of_contains isAscii_marks c hmark))
        have hsigned := signEnd_front hbefore hsign hsplit
        have hdigits := digitsEnd_front (hbefore.append (isAscii_sign hsign)) after
        rw [← List.append_cons, List.length_append, List.length_singleton] at hsigned
        rw [List.append_assoc (front ++ [c]), ← List.append_cons] at hdigits
        rw [List.head?_cons, Option.any_some, hmark] at htest
        simp only [exponentEnd, htest, if_true, hsigned, hdigits, exponentLength_mark hc hsplit]
        generalize (spanDigits after).1.length = k
        rw [List.length_append, List.length_append, List.length_singleton]
        by_cases hk : k = 0
        · simp [hk]
        · rw [if_pos (by omega), if_neg hk]
          omega
      · have hmark : ['e', 'E'].contains c = false := by
          rw [not_or] at hc
          simp [hc]
        rw [exponentEnd, htest, exponentLength, if_neg hc]
        exact if_neg (ne_true_of_eq_false hmark)

/-! ## The number that is found -/

theorem isAscii_decimal {cs : List Char} (h : IsDecimal cs) : IsAscii cs := by
  obtain ⟨l, hl⟩ := Literal.exists_ofChars?_iff.mpr h
  intro c hc
  have hliteral := Literal.isLiteralChar_of_ofChars? hl c hc
  simp only [isLiteralChar, Bool.or_eq_true, beq_iff_eq] at hliteral
  rcases hliteral with ((((hdigit | rfl) | rfl) | rfl) | rfl) | rfl
  · exact lt_of_isDigit c hdigit
  all_goals decide

theorem head?_eq_minus_iff (hsign : IsSign sign negative)
    (hsplit : splitSign (sign ++ rest) = (negative, rest)) :
    (sign ++ rest).head? = some '-' ↔ negative = true := by
  cases hsign with
  | none => exact ⟨fun h => absurd rfl (noSign_of_splitSign hsplit '-' h).2, nofun⟩
  | plus => simp
  | minus => simp

theorem exponentEnd_mantissa (hfront : IsAscii front) (h : frontMantissa rest ≠ 0) :
    exponentEnd (utf8 (front ++ rest)) (front.length + frontMantissa rest) =
      front.length + literalLength rest := by
  have hdecimal := IsDecimal.intro (measures_frontMantissa.take h) .none
  rw [List.append_nil] at hdecimal
  have hend := exponentEnd_front (hfront.append (isAscii_decimal hdecimal))
    (rest.drop (frontMantissa rest))
  rw [List.append_assoc, List.take_append_drop, List.length_append,
    List.length_take_of_le (measures_frontMantissa.le_length rest)] at hend
  rw [hend, literalLength_eq, if_neg h, Nat.add_assoc]

theorem cut_literal (hfront : IsAscii front) (h : literalLength rest ≠ 0) :
    cut (front ++ rest) (front.length + literalLength rest) =
      .ok (front ++ rest.take (literalLength rest), rest.drop (literalLength rest)) := by
  have hcut := cut_ascii (hfront.append (isAscii_decimal (measures_literalLength.take h)))
    (rest.drop (literalLength rest))
  rwa [List.append_assoc, List.take_append_drop, List.length_append,
    List.length_take_of_le (measures_literalLength.le_length rest)] at hcut

/-- The walk over the bytes has no fault, and finds the number at the front. -/
theorem scanDecimal_eq (cs : List Char) : scanDecimal cs = .ok (Builtin.parseDecimal cs) := by
  obtain ⟨sign, negative, rest, hsign, htrim, hsplit⟩ := exists_split (Text.trimStart cs)
  have hascii := isAscii_sign hsign
  have hstart : signEnd (utf8 (sign ++ rest)) 0 = sign.length :=
    signEnd_front (List.forall_mem_nil _) hsign hsplit
  rw [Builtin.parseDecimal_eq htrim hsplit]
  simp only [scanDecimal, htrim, hstart, cut_ascii hascii rest, ok_bind]
  by_cases hinfinity : "Infinity".toList.isPrefixOf rest = true
  · simp only [if_pos hinfinity, head?_eq_minus_iff hsign hsplit]
    rfl
  rw [if_neg hinfinity, if_neg hinfinity, mantissaEnd?_front hascii]
  by_cases hmantissa : frontMantissa rest = 0
  · rw [literalLength_eq, if_pos hmantissa, if_pos hmantissa, if_pos rfl]
    rfl
  · have hlength : literalLength rest ≠ 0 := by
      rw [literalLength_eq, if_neg hmantissa]
      omega
    have hdecimal := measures_literalLength.take hlength
    obtain ⟨x, hx⟩ := exists_readFloat?_iff.mpr ⟨_, _, _, hsign, hdecimal, rfl⟩
    rw [if_neg hmantissa, if_neg hlength, ← readFloat?_sign hsign hdecimal, hx]
    simp only [exponentEnd_mantissa hascii hmantissa, cut_literal hascii hlength, ok_bind, hx]
    rfl

end Bytes

/-- The number of a text is the one at its front, behind blanks: an infinity, or else the longest
prefix that is a literal, or else NaN. Found in the bytes of the text, it needs no cut inside a
character, and what is cut off is a literal. -/
theorem Builtin.parseDecimal_reads (cs : List Char) :
    Bytes.scanDecimal cs = .ok (parseDecimal cs) ∧
      ∀ x, ReadsFront (Text.trimStart cs) x ↔ x = parseDecimal cs := by
  refine ⟨Bytes.scanDecimal_eq cs, fun x => ⟨fun h => ?_, ?_⟩⟩
  · exact h.unique (readsFront_parseDecimal cs)
  · rintro rfl
    exact readsFront_parseDecimal cs

/-- A point needs no digits after it, but an exponent does. -/
example : Builtin.parseDecimal "\t-2.e+ off".toList = -2.0 := by decide +kernel

end RecordQuery
