import RecordQuery.Proofs.Floats.Integers
import RecordQuery.Proofs.Floats.Overflow
import RecordQuery.Proofs.Lexing.LoneNumbers
import RecordQuery.Proofs.Numbers.Hexadecimal

/-! # Texts that denote numbers

Apart from blanks around it, a text that converts to a number is empty, an infinity, a decimal
literal or, after `0x`, an integer of 64 bits with an optional sign. All other texts convert to NaN.
-/

namespace RecordQuery

open Decimal

/-! ## Parts of a number -/

/-- Nothing, or a sign; `true` is a minus. -/
inductive IsSign : List Char → Bool → Prop where
  | none : IsSign [] false
  | plus : IsSign ['+'] false
  | minus : IsSign ['-'] true

/-- Nothing, or an exponent mark of either case with an optional sign and digits. -/
inductive IsScale : List Char → Prop where
  | none : IsScale []
  | mark {c sign negative ds} (hc : c = 'e' ∨ c = 'E') (hsign : IsSign sign negative)
      (hdigits : IsDigits ds) : IsScale (c :: (sign ++ ds))

/-- At least one digit, with an optional point before, between or behind the digits. -/
inductive IsMantissa : List Char → Prop where
  | whole {ds} (h : IsDigits ds) : IsMantissa ds
  | point {ds es} (h : IsDigits (ds ++ es)) : IsMantissa (ds ++ '.' :: es)

/-- A decimal literal without a sign. -/
inductive IsDecimal : List Char → Prop where
  | intro {mantissa scale} (hmantissa : IsMantissa mantissa) (hscale : IsScale scale) :
      IsDecimal (mantissa ++ scale)

/-- A text without blanks around it denotes a number. What may follow `0x` is a parameter. -/
inductive IsNumberText (hexadecimal : List Char → Prop) : List Char → Prop where
  | empty : IsNumberText hexadecimal []
  | infinity {sign negative} (hsign : IsSign sign negative) :
      IsNumberText hexadecimal (sign ++ "Infinity".toList)
  | decimal {sign negative cs} (hsign : IsSign sign negative) (h : IsDecimal cs) :
      IsNumberText hexadecimal (sign ++ cs)
  | prefixed {mark cs} (hmark : mark = 'x' ∨ mark = 'X') (h : hexadecimal cs) :
      IsNumberText hexadecimal ('0' :: mark :: cs)

/-- An optional sign and hexadecimal digits give an integer of 64 bits. -/
inductive GivesInt64 : List Char → Int → Prop where
  | intro {sign negative ds n} (hsign : IsSign sign negative) (hdigits : HexDenotes ds n)
      (hlow : minInt64 ≤ signed negative n) (hhigh : signed negative n ≤ maxInt64) :
      GivesInt64 (sign ++ ds) (signed negative n)

/-- An exponent ends the digits before it, and starts with no point. -/
theorem IsScale.noDigit {scale : List Char} (h : IsScale scale) :
    NoDigit scale ∧ ∀ c ∈ scale.head?, c ≠ '.' := by
  cases h with
  | none => exact ⟨nofun, nofun⟩
  | mark hc =>
      constructor
      · rintro d ⟨⟩
        rcases hc with rfl | rfl <;> rfl
      · rintro d ⟨⟩
        rcases hc with rfl | rfl <;> decide

namespace Decimal

variable {cs rest : List Char} {negative : Bool}

/-! ## Signs -/

theorem exists_sign (cs : List Char) :
    ∃ sign, IsSign sign (splitSign cs).1 ∧ cs = sign ++ (splitSign cs).2 := by
  rw [splitSign.eq_def]
  split
  · exact ⟨['-'], .minus, rfl⟩
  · exact ⟨['+'], .plus, rfl⟩
  · exact ⟨[], .none, rfl⟩

theorem splitSign_append {sign : List Char} (hsign : IsSign sign negative)
    (hrest : splitSign rest = (false, rest)) : splitSign (sign ++ rest) = (negative, rest) := by
  cases hsign with
  | none => exact hrest
  | plus => rfl
  | minus => rfl

theorem splitSign_digits {ds : List Char} (h : IsDigits ds) : splitSign ds = (false, ds) := by
  refine splitSign_noSign fun c hc => ?_
  have hdigit := h.2 c (List.mem_of_mem_head? hc)
  constructor <;> rintro rfl <;> cases hdigit

/-! ## Decimal literals -/

theorem exists_readExponent?_iff : (∃ k, readExponent? cs = some k) ↔ IsScale cs := by
  constructor
  · rintro ⟨k, h⟩
    cases cs with
    | nil => exact .none
    | cons c rest =>
        obtain ⟨sign, hsign, hrest⟩ := exists_sign rest
        simp only [readExponent?] at h
        split at h
        next hc =>
          split at h
          next hdigits =>
            rw [hrest]
            exact .mark hc hsign ⟨hdigits.1, List.all_eq_true.mp hdigits.2⟩
          next => cases h
        next => cases h
  · intro h
    cases h with
    | none => exact ⟨0, rfl⟩
    | @mark c sign negative ds hc hsign hdigits =>
        have hsplit := splitSign_append hsign (splitSign_digits hdigits)
        have hall : ds ≠ [] ∧ ds.all Char.isDigit = true :=
          ⟨hdigits.1, List.all_eq_true.mpr hdigits.2⟩
        simp only [readExponent?, if_pos hc, hsplit, if_pos hall]
        exact ⟨_, rfl⟩

theorem Literal.exists_ofChars?_iff : (∃ l, ofChars? cs = some l) ↔ IsDecimal cs := by
  have hdigits (cs : List Char) : ∀ c ∈ (spanDigits cs).1, c.isDigit = true :=
    List.all_eq_true.mp List.all_takeWhile
  constructor
  · rintro ⟨l, h⟩
    have hwhole := hdigits cs
    rw [← spanDigits_append cs]
    simp only [ofChars?] at h
    split at h
    next after hafter =>
      have hfraction := hdigits after
      split at h
      next => cases h
      next hsome =>
        obtain ⟨k, hk, -⟩ := Option.map_eq_some_iff.mp h
        have hmantissa : IsMantissa ((spanDigits cs).1 ++ '.' :: (spanDigits after).1) := by
          refine .point ⟨?_, List.forall_mem_append.mpr ⟨hwhole, hfraction⟩⟩
          rwa [ne_eq, List.append_eq_nil_iff]
        rw [hafter, ← spanDigits_append after, ← List.cons_append, ← List.append_assoc]
        exact .intro hmantissa (exists_readExponent?_iff.mp ⟨k, hk⟩)
    next =>
      dsimp only at h
      split at h
      next => cases h
      next hsome =>
        obtain ⟨k, hk, -⟩ := Option.map_eq_some_iff.mp h
        exact .intro (.whole ⟨fun hnone => hsome ⟨hnone, rfl⟩, hwhole⟩)
          (exists_readExponent?_iff.mp ⟨k, hk⟩)
  · rintro @⟨mantissa, scale, hmantissa, hscale⟩
    obtain ⟨k, hk⟩ := exists_readExponent?_iff.mpr hscale
    obtain ⟨hstop, hpoint⟩ := hscale.noDigit
    cases hmantissa with
    | whole h =>
        refine ⟨⟨mantissa, [], k⟩, ?_⟩
        simp only [ofChars?, spanDigits_digits h.2 hstop]
        split
        next after => exact absurd rfl (hpoint '.' rfl)
        next => simp [h.1, hk]
    | @point ds es h =>
        obtain ⟨hds, hes⟩ := List.forall_mem_append.mp h.2
        have hdot := noDigit_point (es ++ scale)
        refine ⟨⟨ds, es, k⟩, ?_⟩
        have hsome : ¬(ds = [] ∧ es = []) := by
          rw [← List.append_eq_nil_iff]
          exact h.1
        rw [List.append_assoc, List.cons_append]
        simp only [ofChars?, spanDigits_digits hds hdot, spanDigits_digits hes hstop, if_neg hsome,
          hk, Option.map_some]

theorem exists_readFloat?_iff :
    (∃ x, readFloat? cs = some x) ↔
      ∃ sign negative rest, IsSign sign negative ∧ IsDecimal rest ∧ cs = sign ++ rest := by
  constructor
  · rintro ⟨x, h⟩
    obtain ⟨sign, hsign, hcs⟩ := exists_sign cs
    obtain ⟨l, hl, -⟩ := Option.map_eq_some_iff.mp h
    exact ⟨sign, _, _, hsign, Literal.exists_ofChars?_iff.mp ⟨l, hl⟩, hcs⟩
  · rintro ⟨sign, negative, rest, hsign, hdecimal, rfl⟩
    obtain ⟨l, hl⟩ := Literal.exists_ofChars?_iff.mpr hdecimal
    rw [readFloat?, splitSign_append hsign (Literal.splitSign_of_ofChars? hl)]
    simp only [hl, Option.map_some]
    exact ⟨_, rfl⟩

end Decimal

/-! ## Floats that are numbers -/

namespace Binary

variable {x : Float}

theorem isNaN_of_isFinite (h : x.isFinite = true) : x.isNaN = false := by
  change x.toModel.unpack.isFinite = true at h
  change x.toModel.unpack.isNaN = false
  generalize x.toModel.unpack = f at h
  cases f with
  | notANumber => cases h
  | infinity s => cases h
  | zero s => rfl
  | finite s m e hm => rfl

theorem isNaN_neg (x : Float) : (-x).isNaN = x.isNaN := by
  change (-x).toModel.unpack.isNaN = x.toModel.unpack.isNaN
  rw [unpack_neg]
  cases x.toModel.unpack <;> rfl

theorem isNaN_nan : nan.isNaN = true := by decide +kernel

theorem isNaN_infinity : infinity.isNaN = false := by decide +kernel

end Binary

theorem Decimal.Literal.isNaN_toFloat (l : Literal) : l.toFloat.isNaN = false := by
  rcases lt_or_ge l.value Binary.overflow with hlt | hle
  · exact Binary.isNaN_of_isFinite (l.isFinite_toFloat hlt)
  · rw [l.toFloat_eq_infinity hle, Binary.isNaN_infinity]

theorem Decimal.isNaN_of_readFloat? {cs : List Char} {x : Float} (h : readFloat? cs = some x) :
    x.isNaN = false := by
  simp only [readFloat?] at h
  generalize (splitSign cs).1 = negative at h
  obtain ⟨l, -, rfl⟩ := Option.map_eq_some_iff.mp h
  cases negative with
  | true => rw [if_pos rfl, Binary.isNaN_neg, l.isNaN_toFloat]
  | false => exact l.isNaN_toFloat

/-! ## After the prefix -/

/-- Hexadecimal digits start with no sign. -/
theorem HexDenotes.splitSign_eq {ds : List Char} {n : Nat} (h : HexDenotes ds n) :
    splitSign ds = (false, ds) := by
  obtain ⟨-, values, hvalues, -⟩ := h
  refine splitSign_noSign fun c hc => ?_
  obtain ⟨rest, rfl⟩ := List.head?_eq_some_iff.mp hc
  obtain ⟨v, vs, hv, -, -⟩ := List.forall₂_cons_left_iff.mp hvalues
  have hdigit : c.toLower ∈ hexDigits := List.mem_of_getElem? hv
  constructor <;> rintro rfl <;> exact absurd hdigit (by decide)

theorem hexInteger?_eq_some_iff {cs : List Char} {i : Int} :
    hexInteger? cs = some i ↔ GivesInt64 cs i := by
  constructor
  · intro h
    obtain ⟨sign, hsign, hcs⟩ := exists_sign cs
    simp only [hexInteger?] at h
    generalize splitSign cs = parts at h hsign hcs
    subst hcs
    split at h
    next => cases h
    next n hn =>
      split at h
      next hrange =>
        cases h
        exact .intro hsign (hexValue?_eq_some_iff.mp hn) hrange.1 hrange.2
      next => cases h
  · rintro ⟨hsign, hdigits, hlow, hhigh⟩
    simp only [hexInteger?, splitSign_append hsign hdigits.splitSign_eq,
      hexValue?_eq_some_iff.mpr hdigits, if_pos (And.intro hlow hhigh)]

theorem GivesInt64.natAbs_lt {cs : List Char} {i : Int} (h : GivesInt64 cs i) :
    i.natAbs < 2 ^ 64 := by
  obtain ⟨-, -, hlow, hhigh⟩ := h
  rw [minInt64] at hlow
  rw [maxInt64] at hhigh
  omega

/-! ## Whole texts -/

section

variable {text rest : List Char} {mark : Char} {hexadecimal : List Char → Prop}

/-- A text that starts with `0x` is no decimal literal. -/
theorem IsNumberText.prefixed_iff (hmark : mark = 'x' ∨ mark = 'X') :
    IsNumberText hexadecimal ('0' :: mark :: rest) ↔ hexadecimal rest := by
  constructor
  · intro h
    generalize htext : '0' :: mark :: rest = text at h
    cases h with
    | empty => cases htext
    | infinity hsign => cases hsign <;> cases htext
    | @decimal sign negative cs hsign hdecimal =>
        cases hsign with
        | none =>
            obtain rfl : '0' :: mark :: rest = cs := htext
            obtain ⟨l, hl⟩ := Literal.exists_ofChars?_iff.mpr hdecimal
            have hliteral := Literal.isLiteralChar_of_ofChars? hl mark (by simp)
            rcases hmark with rfl | rfl <;> cases hliteral
        | plus => cases htext
        | minus => cases htext
    | prefixed hmark h =>
        cases htext
        exact h
  · exact .prefixed hmark

theorem IsNumberText.plain_iff (hempty : text ≠ [])
    (hunmarked : ∀ mark rest, mark = 'x' ∨ mark = 'X' → text ≠ '0' :: mark :: rest) :
    IsNumberText hexadecimal text ↔
      (text = "Infinity".toList ∨ text = "+Infinity".toList ∨ text = "-Infinity".toList) ∨
        ∃ x, readFloat? text = some x := by
  rw [exists_readFloat?_iff]
  constructor
  · intro h
    cases h with
    | empty => exact absurd rfl hempty
    | infinity hsign => cases hsign <;> exact .inl (by decide)
    | decimal hsign hdecimal => exact .inr ⟨_, _, _, hsign, hdecimal, rfl⟩
    | prefixed hmark => exact absurd rfl (hunmarked _ _ hmark)
  · rintro ((rfl | rfl | rfl) | ⟨sign, negative, rest, hsign, hdecimal, rfl⟩)
    · exact .infinity .none
    · exact .infinity .plus
    · exact .infinity .minus
    · exact .decimal hsign hdecimal

end

variable {cs rest : List Char} {mark : Char}

theorem textToNumber_prefixed (hmark : mark = 'x' ∨ mark = 'X')
    (h : Text.trim cs = '0' :: mark :: rest) :
    textToNumber cs = ((hexInteger? rest).map Float.ofInt).getD nan := by
  rcases hmark with rfl | rfl
  · cases hinteger : hexInteger? rest <;> simp only [textToNumber, h, hinteger] <;> rfl
  · cases hinteger : hexInteger? rest <;> simp only [textToNumber, h, hinteger] <;> rfl

theorem textToNumber_plain (hempty : Text.trim cs ≠ [])
    (hunmarked : ∀ mark rest, mark = 'x' ∨ mark = 'X' → Text.trim cs ≠ '0' :: mark :: rest) :
    textToNumber cs =
      if Text.trim cs = "Infinity".toList ∨ Text.trim cs = "+Infinity".toList then infinity
      else if Text.trim cs = "-Infinity".toList then -infinity
      else (readFloat? (Text.trim cs)).getD nan := by
  rw [textToNumber]
  split
  next h => exact absurd h hempty
  next h => exact absurd h (hunmarked _ _ (.inl rfl))
  next h => exact absurd h (hunmarked _ _ (.inr rfl))
  next => rfl

/-- What is read is no NaN, and all else is. -/
theorem isNaN_getD {o : Option Float} (h : ∀ x, o = some x → x.isNaN = false) :
    (o.getD nan).isNaN = false ↔ ∃ x, o = some x := by
  cases o with
  | none =>
      rw [Option.getD_none, Binary.isNaN_nan]
      exact ⟨nofun, nofun⟩
  | some x => exact ⟨fun _ => ⟨x, rfl⟩, fun _ => h x rfl⟩

theorem isNaN_textToNumber_iff (cs : List Char) :
    (textToNumber cs).isNaN = false ↔
      IsNumberText (fun rest => ∃ i, GivesInt64 rest i) (Text.trim cs) := by
  by_cases hempty : Text.trim cs = []
  · rw [textToNumber, hempty]
    exact ⟨fun _ => .empty, fun _ => rfl⟩
  by_cases hunmarked : ∃ mark rest, (mark = 'x' ∨ mark = 'X') ∧ Text.trim cs = '0' :: mark :: rest
  · obtain ⟨mark, rest, hmark, h⟩ := hunmarked
    rw [textToNumber_prefixed hmark h, h, IsNumberText.prefixed_iff hmark]
    simp only [← hexInteger?_eq_some_iff]
    rw [isNaN_getD]
    · simp
    · intro x hx
      obtain ⟨i, hi, rfl⟩ := Option.map_eq_some_iff.mp hx
      exact Binary.isNaN_of_isFinite
        (Binary.isFinite_ofInt (hexInteger?_eq_some_iff.mp hi).natAbs_lt)
  · have hplain : ∀ mark rest, mark = 'x' ∨ mark = 'X' → Text.trim cs ≠ '0' :: mark :: rest :=
      fun mark rest hmark h => hunmarked ⟨mark, rest, hmark, h⟩
    rw [textToNumber_plain hempty hplain, IsNumberText.plain_iff hempty hplain]
    split
    next hpositive =>
      exact ⟨fun _ => .inl (hpositive.imp_right .inl), fun _ => Binary.isNaN_infinity⟩
    next hpositive =>
      split
      next hnegative =>
        rw [Binary.isNaN_neg, Binary.isNaN_infinity]
        exact ⟨fun _ => .inl (.inr (.inr hnegative)), fun _ => rfl⟩
      next hnegative =>
        rw [isNaN_getD fun x => isNaN_of_readFloat?]
        refine ⟨.inr, fun h => h.resolve_left ?_⟩
        rw [← or_assoc]
        exact not_or.mpr ⟨hpositive, hnegative⟩

/-- The number of a text is no NaN just when the text, without the blanks around it, is empty, an
infinity, a decimal literal, or an integer of 64 bits after `0x`. Such an integer is rounded to the
nearest float. -/
theorem Value.isNaN_toNumber_string (s : String) :
    ((Value.json (.string s)).toNumber.isNaN = false ↔
      IsNumberText (fun rest => ∃ i, GivesInt64 rest i) (Text.trim s.toList)) ∧
    ∀ mark rest i, mark = 'x' ∨ mark = 'X' → Text.trim s.toList = '0' :: mark :: rest →
      GivesInt64 rest i →
        Binary.IsRounded i (Value.json (.string s)).toNumber.toModel.unpack := by
  refine ⟨isNaN_textToNumber_iff s.toList, fun mark rest i hmark h hi => ?_⟩
  change Binary.IsRounded i (textToNumber s.toList).toModel.unpack
  rw [textToNumber_prefixed hmark h, hexInteger?_eq_some_iff.mpr hi]
  exact Binary.isRounded_ofInt hi.natAbs_lt

/-- Digits of both cases after a minus sign, with blanks around the text. -/
theorem Value.isNaN_toNumber_string_minus :
    Text.trim " 0X-1fFF\n".toList = '0' :: 'X' :: "-1fFF".toList ∧
      GivesInt64 "-1fFF".toList (-8191) ∧
      (Value.json (.string " 0X-1fFF\n")).toNumber.isNaN = false ∧
      Binary.IsRounded (-8191) (Value.json (.string " 0X-1fFF\n")).toNumber.toModel.unpack := by
  have htrim : Text.trim " 0X-1fFF\n".toList = '0' :: 'X' :: "-1fFF".toList := by decide +kernel
  have hinteger : GivesInt64 "-1fFF".toList (-8191) := hexInteger?_eq_some_iff.mp (by decide)
  obtain ⟨hnan, hrounded⟩ := Value.isNaN_toNumber_string " 0X-1fFF\n"
  refine ⟨htrim, hinteger, hnan.mpr ?_, ?_⟩
  · rw [htrim]
    exact .prefixed (.inr rfl) ⟨_, hinteger⟩
  · exact_mod_cast hrounded 'X' _ _ (.inr rfl) htrim hinteger

/-- A sign after the prefix is no digit and is read all the same, and digits of a number with more
than 63 bits are not read. -/
theorem Value.isNaN_toNumber_string_differs :
    (¬IsNumberText (fun rest => ∃ n, HexDenotes rest n) (Text.trim "0x-1".toList) ∧
      (Value.json (.string "0x-1")).toNumber.isNaN = false) ∧
    (IsNumberText (fun rest => ∃ n, HexDenotes rest n) (Text.trim "0x8000000000000000".toList) ∧
      (Value.json (.string "0x8000000000000000")).toNumber.isNaN = true) := by
  have hsigned : Text.trim "0x-1".toList = '0' :: 'x' :: ['-', '1'] := by decide +kernel
  have hlarge : Text.trim "0x8000000000000000".toList =
      '0' :: 'x' :: "8000000000000000".toList := by
    decide +kernel
  rw [hsigned, hlarge, IsNumberText.prefixed_iff (.inl rfl), IsNumberText.prefixed_iff (.inl rfl)]
  refine ⟨⟨?_, by decide +kernel⟩, ⟨2 ^ 63, hexValue?_eq_some_iff.mp (by decide +kernel)⟩,
    by decide +kernel⟩
  rintro ⟨n, h⟩
  rw [← hexValue?_eq_some_iff] at h
  cases h

end RecordQuery
