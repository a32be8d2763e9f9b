import RecordQuery.Builtin.Conversion
import RecordQuery.Proofs.Lexing.Delimiters
import RecordQuery.Proofs.Numbers.Texts

/-! # Numbers at the front of a text

The number at the front of a text is read from the longest prefix that is a literal. Its length is
added up from the longest mantissa and the longest exponent after it: an exponent mark cannot stand
inside a mantissa, so a shorter mantissa is not followed by an exponent at all.
-/

namespace RecordQuery

open Decimal

/-! ## Longest prefixes -/

/-- The longest prefix of a text with a property. -/
structure IsLongestPrefix (P : List Char → Prop) (front cs : List Char) : Prop where
  isPrefix : front <+: cs
  holds : P front
  longest : ∀ {p}, p <+: cs → P p → p.length ≤ front.length

/-- Two prefixes that are the longest are one. -/
theorem IsLongestPrefix.unique {P : List Char → Prop} {front other cs : List Char}
    (h : IsLongestPrefix P front cs) (h' : IsLongestPrefix P other cs) : front = other := by
  have hle := h'.longest h.isPrefix h.holds
  have hprefix := List.prefix_of_prefix_length_le h.isPrefix h'.isPrefix hle
  exact hprefix.eq_of_length_le (h.longest h'.isPrefix h'.holds)

/-- A function measures the longest prefix with a property. Without a prefix that has characters, it
is zero. -/
structure Measures (length : List Char → Nat) (P : List Char → Prop) : Prop where
  le_length : ∀ cs, length cs ≤ cs.length
  take : ∀ {cs}, length cs ≠ 0 → P (cs.take (length cs))
  length_le : ∀ {p cs}, p <+: cs → P p → p.length ≤ length cs

namespace Decimal

variable {cs ds rest sign : List Char} {c : Char} {negative : Bool}

/-! ## Signs and digits -/

/-- A text is an optional sign and what follows it. -/
theorem exists_split (cs : List Char) :
    ∃ sign negative rest, IsSign sign negative ∧ cs = sign ++ rest ∧
      splitSign (sign ++ rest) = (negative, rest) := by
  obtain ⟨sign, hsign, hcs⟩ := exists_sign cs
  exact ⟨sign, _, _, hsign, hcs, congrArg splitSign hcs.symm⟩

theorem noSign_of_splitSign (h : splitSign cs = (false, cs)) :
    ∀ c ∈ cs.head?, c ≠ '+' ∧ c ≠ '-' := by
  intro c hc
  obtain ⟨rest, rfl⟩ := List.head?_eq_some_iff.mp hc
  constructor <;> rintro rfl <;> simp [splitSign] at h

/-- What starts with no sign does so before any text. -/
theorem splitSign_before_noSign (hne : cs ≠ []) (h : splitSign cs = (false, cs))
    (rest : List Char) : splitSign (cs ++ rest) = (false, cs ++ rest) := by
  refine splitSign_noSign fun c hc => noSign_of_splitSign h c ?_
  rwa [List.head?_append_of_ne_nil cs hne] at hc

theorem take_spanDigits (cs : List Char) :
    cs.take (spanDigits cs).1.length = (spanDigits cs).1 :=
  (List.prefix_iff_eq_take.mp (List.takeWhile_prefix _)).symm

theorem le_length_spanDigits (h : ∀ d ∈ ds, d.isDigit = true) (rest : List Char) :
    ds.length ≤ (spanDigits (ds ++ rest)).1.length := by
  rw [spanDigits, List.takeWhile_append_of_pos h, List.length_append]
  exact Nat.le_add_right _ _

/-! ## Exponents -/

theorem exponentLength_mark (hc : c = 'e' ∨ c = 'E')
    (hsplit : splitSign (sign ++ rest) = (negative, rest)) :
    exponentLength (c :: (sign ++ rest)) =
      if (spanDigits rest).1.length = 0 then 0
      else 1 + sign.length + (spanDigits rest).1.length := by
  simp only [exponentLength, if_pos hc, hsplit, List.length_append, Nat.add_sub_cancel]

theorem measures_exponentLength : Measures exponentLength IsScale where
  le_length := exponentLength_le
  take {cs} h := by
    cases cs with
    | nil => exact absurd rfl h
    | cons c rest =>
        by_cases hc : c = 'e' ∨ c = 'E'
        · obtain ⟨sign, negative, after, hsign, rfl, hsplit⟩ := exists_split rest
          rw [exponentLength_mark hc hsplit, ite_ne_left_iff] at h
          have htake : (c :: (sign ++ after)).take (1 + sign.length + (spanDigits after).1.length) =
              c :: (sign ++ (spanDigits after).1) := by
            rw [Nat.add_assoc, Nat.add_comm 1, List.take_succ_cons, List.take_length_add_append,
              take_spanDigits]
          rw [exponentLength_mark hc hsplit, if_neg h.1, htake]
          refine .mark hc hsign ⟨fun hnone => h.1 (congrArg List.length hnone), ?_⟩
          exact List.all_eq_true.mp List.all_takeWhile
        · rw [exponentLength, if_neg hc] at h
          exact absurd rfl h
  length_le {p cs} hp h := by
    obtain ⟨rest, rfl⟩ := hp
    cases h with
    | none => exact Nat.zero_le _
    | @mark c sign negative ds hc hsign hdigits =>
        have hfirst := splitSign_before_noSign hdigits.1 (splitSign_digits hdigits) rest
        have hsplit := splitSign_append hsign hfirst
        have hle := le_length_spanDigits hdigits.2 rest
        have hpos := List.length_pos_of_ne_nil hdigits.1
        rw [List.cons_append, List.append_assoc, exponentLength_mark hc hsplit, if_neg (by omega),
          List.length_cons, List.length_append]
        omega

/-! ## Mantissas -/

/-- The length of the longest mantissa at the front of a text, or zero if there is none. -/
def frontMantissa (cs : List Char) : Nat :=
  let whole := (spanDigits cs).1.length
  match (spanDigits cs).2 with
  | '.' :: afterPoint =>
      let fraction := (spanDigits afterPoint).1.length
      if whole = 0 ∧ fraction = 0 then 0 else whole + 1 + fraction
  | _ => whole

theorem literalLength_eq (cs : List Char) :
    literalLength cs =
      if frontMantissa cs = 0 then 0
      else frontMantissa cs + exponentLength (cs.drop (frontMantissa cs)) :=
  rfl

theorem frontMantissa_point (h : ∀ d ∈ ds, d.isDigit = true) (rest : List Char) :
    frontMantissa (ds ++ '.' :: rest) =
      if ds.length = 0 ∧ (spanDigits rest).1.length = 0 then 0
      else ds.length + 1 + (spanDigits rest).1.length := by
  simp only [frontMantissa, spanDigits_digits h (noDigit_point rest)]

theorem frontMantissa_whole (h : ∀ c ∈ rest.head?, c ≠ '.') (hds : ∀ d ∈ ds, d.isDigit = true)
    (hrest : NoDigit rest) : frontMantissa (ds ++ rest) = ds.length := by
  rw [frontMantissa, spanDigits_digits hds hrest]
  split
  next after hafter => exact absurd rfl (h '.' (congrArg List.head? hafter))
  next => rfl

/-- The digits at the front, and a point or what is neither a digit nor a point. -/
theorem exists_digits_point (cs : List Char) :
    ∃ ds rest, (∀ d ∈ ds, d.isDigit = true) ∧
      (cs = ds ++ '.' :: rest ∨ cs = ds ++ rest ∧ NoDigit rest ∧ ∀ c ∈ rest.head?, c ≠ '.') := by
  obtain ⟨ds, more, rfl, hds, hstop⟩ := @Token.exists_digits_append cs [] nofun
  rw [List.append_nil] at hstop
  by_cases hpoint : ∃ rest, more = '.' :: rest
  · obtain ⟨rest, rfl⟩ := hpoint
    exact ⟨ds, rest, hds, .inl rfl⟩
  · refine ⟨ds, more, hds, .inr ⟨rfl, hstop, ?_⟩⟩
    rintro c hc rfl
    exact hpoint (List.head?_eq_some_iff.mp hc)

theorem measures_frontMantissa : Measures frontMantissa IsMantissa where
  le_length cs := by
    obtain ⟨ds, rest, hds, rfl | ⟨rfl, hrest, hpoint⟩⟩ := exists_digits_point cs
    · have hfraction := length_spanDigits_add rest
      rw [frontMantissa_point hds, List.length_append, List.length_cons]
      split <;> omega
    · rw [frontMantissa_whole hpoint hds hrest, List.length_append]
      exact Nat.le_add_right _ _
  take {cs} h := by
    obtain ⟨ds, rest, hds, rfl | ⟨rfl, hrest, hpoint⟩⟩ := exists_digits_point cs
    · rw [frontMantissa_point hds, ite_ne_left_iff] at h
      rw [frontMantissa_point hds, if_neg h.1, Nat.add_assoc, Nat.add_comm 1,
        List.take_length_add_append, List.take_succ_cons, take_spanDigits]
      refine .point ⟨?_, List.forall_mem_append.mpr ⟨hds, List.all_eq_true.mp List.all_takeWhile⟩⟩
      rw [ne_eq, List.append_eq_nil_iff, ← List.length_eq_zero_iff, ← List.length_eq_zero_iff]
      exact h.1
    · rw [frontMantissa_whole hpoint hds hrest] at h ⊢
      rw [List.take_left]
      exact .whole ⟨fun hnone => h (congrArg List.length hnone), hds⟩
  length_le {p cs} hp h := by
    obtain ⟨more, rfl⟩ := hp
    cases h with
    | whole hds =>
        have hle := le_length_spanDigits hds.2 more
        rw [frontMantissa]
        split
        next =>
          dsimp only
          split <;> omega
        next => exact hle
    | @point ds es hds =>
        obtain ⟨hwhole, hfraction⟩ := List.forall_mem_append.mp hds.2
        have hle := le_length_spanDigits hfraction more
        have hpos := List.length_pos_of_ne_nil hds.1
        rw [List.length_append] at hpos
        rw [List.append_assoc, List.cons_append, frontMantissa_point hwhole, if_neg (by omega),
          List.length_append, List.length_cons]
        omega

theorem frontMantissa_before (h : IsMantissa cs) (hrest : NoDigit rest)
    (hpoint : ∀ c ∈ rest.head?, c ≠ '.') : frontMantissa (cs ++ rest) = cs.length := by
  cases h with
  | whole hds => exact frontMantissa_whole hpoint hds.2 hrest
  | @point ds es hds =>
      obtain ⟨hwhole, hfraction⟩ := List.forall_mem_append.mp hds.2
      have hpos : ¬(ds.length = 0 ∧ es.length = 0) := by
        rw [List.length_eq_zero_iff, List.length_eq_zero_iff, ← List.append_eq_nil_iff]
        exact hds.1
      rw [List.append_assoc, List.cons_append, frontMantissa_point hwhole,
        spanDigits_digits hfraction hrest, if_neg hpos, List.length_append, List.length_cons,
        Nat.add_assoc, Nat.add_comm 1]

theorem ne_nil_of_isMantissa (h : IsMantissa cs) : cs ≠ [] := by
  cases h with
  | whole hds => exact hds.1
  | point hds => simp

/-! ## Literals without a sign -/

theorem measures_literalLength : Measures literalLength IsDecimal where
  le_length cs := by
    have hmantissa := measures_frontMantissa.le_length cs
    have hscale := exponentLength_le (cs.drop (frontMantissa cs))
    rw [List.length_drop] at hscale
    rw [literalLength_eq]
    split <;> omega
  take {cs} h := by
    rw [literalLength_eq, ite_ne_left_iff] at h
    rw [literalLength_eq, if_neg h.1, List.take_add]
    refine .intro (measures_frontMantissa.take h.1) ?_
    by_cases hscale : exponentLength (cs.drop (frontMantissa cs)) = 0
    · rw [hscale, List.take_zero]
      exact .none
    · exact measures_exponentLength.take hscale
  length_le {p cs} hp h := by
    obtain ⟨more, rfl⟩ := hp
    obtain @⟨mantissa, scale, hmantissa, hscale⟩ := h
    have hle := measures_frontMantissa.length_le (List.prefix_append mantissa (scale ++ more))
      hmantissa
    have hpos := List.length_pos_of_ne_nil (ne_nil_of_isMantissa hmantissa)
    rw [List.append_assoc, literalLength_eq, if_neg (by omega), List.length_append]
    cases hscale with
    | none => exact hle.trans (Nat.le_add_right _ _)
    | @mark c sign negative es hc hsign hdigits =>
        -- The mark ends the longest mantissa, so this one is no shorter.
        have hscale := IsScale.mark hc hsign hdigits
        obtain ⟨hstop, hpoint⟩ := hscale.noDigit
        have hfront : frontMantissa (mantissa ++ (c :: (sign ++ es) ++ more)) = mantissa.length :=
          frontMantissa_before hmantissa hstop hpoint
        rw [hfront, List.drop_left]
        have hexponent := measures_exponentLength.length_le (List.prefix_append _ more) hscale
        omega

end Decimal

/-! ## Literals with a sign -/

/-- A decimal literal with an optional sign. -/
inductive IsSignedDecimal : List Char → Prop where
  | intro {sign negative cs} (hsign : IsSign sign negative) (h : IsDecimal cs) :
      IsSignedDecimal (sign ++ cs)

/-- An infinity with an optional sign; `true` is a minus. -/
inductive IsInfinity : List Char → Bool → Prop where
  | intro {sign negative} (hsign : IsSign sign negative) :
      IsInfinity (sign ++ "Infinity".toList) negative

namespace Decimal

variable {cs front p rest sign word : List Char} {negative : Bool}

theorem ne_nil_of_isDecimal (h : IsDecimal cs) : cs ≠ [] := by
  obtain ⟨hmantissa, -⟩ := h
  exact List.append_ne_nil_of_left_ne_nil (ne_nil_of_isMantissa hmantissa) _

theorem splitSign_decimal (hsign : IsSign sign negative) (h : IsDecimal cs) (rest : List Char) :
    splitSign (sign ++ (cs ++ rest)) = (negative, cs ++ rest) := by
  obtain ⟨l, hl⟩ := Literal.exists_ofChars?_iff.mpr h
  have hcs := Literal.splitSign_of_ofChars? hl
  exact splitSign_append hsign (splitSign_before_noSign (ne_nil_of_isDecimal h) hcs rest)

theorem splitSign_infinity (h : IsInfinity word negative) (rest : List Char) :
    splitSign (word ++ rest) = (negative, "Infinity".toList ++ rest) := by
  obtain @⟨sign, _, hsign⟩ := h
  rw [List.append_assoc]
  exact splitSign_append hsign rfl

/-- A signed literal at the front of a text has the sign of the text. -/
theorem exists_decimal_of_prefix (hsplit : splitSign (sign ++ rest) = (negative, rest))
    (hp : p <+: sign ++ rest) (h : IsSignedDecimal p) :
    ∃ ds, p = sign ++ ds ∧ IsDecimal ds ∧ ds <+: rest := by
  obtain @⟨other, _, ds, hother, hds⟩ := h
  obtain ⟨more, hmore⟩ := hp
  rw [List.append_assoc] at hmore
  rw [← hmore, splitSign_decimal hother hds more] at hsplit
  obtain ⟨-, rfl⟩ := Prod.mk.inj hsplit
  obtain rfl : other = sign := List.append_cancel_right hmore
  exact ⟨ds, rfl, hds, List.prefix_append _ _⟩

theorem isLongestPrefix_signed (hsign : IsSign sign negative)
    (hsplit : splitSign (sign ++ rest) = (negative, rest)) (h : literalLength rest ≠ 0) :
    IsLongestPrefix IsSignedDecimal (sign ++ rest.take (literalLength rest)) (sign ++ rest) where
  isPrefix := (List.prefix_append_right_inj sign).mpr (List.take_prefix _ _)
  holds := .intro hsign (measures_literalLength.take h)
  longest {p} hp hsigned := by
    obtain ⟨ds, rfl, hds, hprefix⟩ := exists_decimal_of_prefix hsplit hp hsigned
    rw [List.length_append, List.length_append,
      List.length_take_of_le (measures_literalLength.le_length _)]
    exact Nat.add_le_add_left (measures_literalLength.length_le hprefix hds) _

/-- A sign in front of a literal is that of its number. -/
theorem readFloat?_sign (hsign : IsSign sign negative) (h : IsDecimal cs) :
    readFloat? (sign ++ cs) =
      (readFloat? cs).map fun x => if negative then -x else x := by
  have hsigned := splitSign_decimal hsign h []
  have hplain := splitSign_decimal .none h []
  rw [List.append_nil] at hsigned hplain
  rw [List.nil_append] at hplain
  rw [readFloat?, readFloat?, hsigned, hplain, Option.map_map]
  rfl

end Decimal

/-! ## The number that is read -/

/-- The number at the front of a text. -/
inductive ReadsFront (cs : List Char) : Float → Prop where
  | infinity {word negative} (hword : IsInfinity word negative) (h : word <+: cs) :
      ReadsFront cs (if negative then -infinity else infinity)
  | decimal {front x} (hfinite : ∀ word negative, IsInfinity word negative → ¬word <+: cs)
      (hfront : IsLongestPrefix IsSignedDecimal front cs) (hx : readFloat? front = some x) :
      ReadsFront cs x
  | nothing (hfinite : ∀ word negative, IsInfinity word negative → ¬word <+: cs)
      (h : ∀ front, front <+: cs → ¬IsSignedDecimal front) : ReadsFront cs nan

/-- At most one number is at the front of a text. -/
theorem ReadsFront.unique {cs : List Char} {x y : Float} (h : ReadsFront cs x)
    (h' : ReadsFront cs y) : x = y := by
  cases h with
  | infinity hword hprefix =>
      cases h' with
      | infinity hword' hprefix' =>
          obtain ⟨rest, rfl⟩ := hprefix
          obtain ⟨rest', hrest⟩ := hprefix'
          have hsplit := congrArg splitSign hrest
          rw [splitSign_infinity hword, splitSign_infinity hword'] at hsplit
          obtain ⟨rfl, -⟩ := Prod.mk.inj hsplit
          rfl
      | decimal hfinite => exact absurd hprefix (hfinite _ _ hword)
      | nothing hfinite => exact absurd hprefix (hfinite _ _ hword)
  | decimal hfinite hfront hx =>
      cases h' with
      | infinity hword hprefix => exact absurd hprefix (hfinite _ _ hword)
      | decimal _ hfront' hx' =>
          rw [hfront.unique hfront', hx'] at hx
          exact (Option.some.inj hx).symm
      | nothing _ h' => exact absurd hfront.holds (h' _ hfront.isPrefix)
  | nothing hfinite h =>
      cases h' with
      | infinity hword hprefix => exact absurd hprefix (hfinite _ _ hword)
      | decimal _ hfront => exact absurd hfront.holds (h _ hfront.isPrefix)
      | nothing => rfl

namespace Builtin

variable {cs text rest : List Char} {negative : Bool}

theorem parseDecimal_eq (htrim : Text.trimStart cs = text)
    (hsplit : splitSign text = (negative, rest)) :
    parseDecimal cs =
      if "Infinity".toList.isPrefixOf rest then if negative then -infinity else infinity
      else if literalLength rest = 0 then nan
      else ((readFloat? (rest.take (literalLength rest))).map
        fun x => if negative then -x else x).getD nan := by
  simp only [parseDecimal, htrim, hsplit]
  cases readFloat? (rest.take (literalLength rest)) <;> rfl

theorem readsFront_parseDecimal (cs : List Char) :
    ReadsFront (Text.trimStart cs) (parseDecimal cs) := by
  obtain ⟨sign, negative, rest, hsign, htrim, hsplit⟩ := exists_split (Text.trimStart cs)
  rw [parseDecimal_eq htrim hsplit, htrim]
  by_cases hinfinity : "Infinity".toList.isPrefixOf rest = true
  · rw [if_pos hinfinity]
    refine .infinity (.intro hsign) ?_
    exact (List.prefix_append_right_inj sign).mpr (List.isPrefixOf_iff_prefix.mp hinfinity)
  · have hfinite : ∀ word negative, IsInfinity word negative → ¬word <+: sign ++ rest := by
      rintro word _ hword ⟨more, hmore⟩
      rw [← hmore, splitSign_infinity hword] at hsplit
      obtain ⟨-, rfl⟩ := Prod.mk.inj hsplit
      exact hinfinity (List.isPrefixOf_iff_prefix.mpr (List.prefix_append _ _))
    rw [if_neg hinfinity]
    by_cases hlength : literalLength rest = 0
    · rw [if_pos hlength]
      refine .nothing hfinite fun front hfront hsigned => ?_
      obtain ⟨ds, -, hds, hprefix⟩ := exists_decimal_of_prefix hsplit hfront hsigned
      have hle := measures_literalLength.length_le hprefix hds
      rw [hlength, Nat.le_zero, List.length_eq_zero_iff] at hle
      exact ne_nil_of_isDecimal hds hle
    · have hdecimal := measures_literalLength.take hlength
      obtain ⟨x, hx⟩ := exists_readFloat?_iff.mpr ⟨_, _, _, hsign, hdecimal, rfl⟩
      rw [if_neg hlength, ← readFloat?_sign hsign hdecimal, hx]
      exact .decimal hfinite (isLongestPrefix_signed hsign hsplit hlength) hx

end Builtin

end RecordQuery
