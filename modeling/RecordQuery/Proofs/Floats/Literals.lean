import RecordQuery.Decimal.Layout
import RecordQuery.Proofs.Floats.Shortest
import RecordQuery.Proofs.Lexing.Numerals

/-! # Reading numerals

The value of a numeral, and the float that it is read as.
-/

namespace RecordQuery.Decimal

open Binary

/-! ## Digits -/

theorem digitsValue_eq (cs : List Char) : digitsValue cs = Nat.ofDigitChars 10 cs 0 :=
  Nat.ofDigitChars_eq_foldl.symm

theorem digitsValue_append (cs ds : List Char) :
    digitsValue (cs ++ ds) = 10 ^ ds.length * digitsValue cs + digitsValue ds := by
  simp only [digitsValue_eq, Nat.ofDigitChars_append]
  exact Nat.ofDigitChars_eq_ofDigitChars_zero

@[simp] theorem digitsValue_zeros (n : Nat) : digitsValue (List.replicate n '0') = 0 := by
  simp [digitsValue_eq]

@[simp] theorem digitsValue_digitsOf (n : Nat) : digitsValue (digitsOf n) = n := by
  rw [digitsValue_eq, digitsOf, Nat.ofDigitChars_ten_toDigits]

theorem isDigits_digitsOf (n : Nat) : IsDigits (digitsOf n) :=
  ⟨Nat.toDigits_ne_nil, fun _ hc => Nat.isDigit_of_mem_toDigits (by decide) (by decide) hc⟩

/-! ## Literals -/

/-- The exact value of a literal. -/
def Literal.value (l : Literal) : ℚ :=
  digitsValue (l.whole ++ l.fraction) * 10 ^ (l.exponent - l.fraction.length)

/-- A literal is the float of a decimal with its value. -/
theorem Literal.exists_scaled (l : Literal) :
    ∃ d negative k,
      l.toFloat = Float.ofScientific d negative k ∧ l.value = scaled d negative k := by
  simp only [Literal.toFloat, Literal.value]
  generalize l.exponent - (l.fraction.length : Int) = places
  split
  next hplaces =>
    obtain ⟨n, rfl⟩ := Int.eq_ofNat_of_zero_le hplaces
    exact ⟨_, false, n, rfl, rfl⟩
  next hplaces =>
    obtain ⟨n, rfl⟩ : ∃ n : Nat, places = -n := ⟨(-places).toNat, by omega⟩
    refine ⟨_, true, n, by rw [neg_neg, Int.toNat_natCast], ?_⟩
    rw [zpow_neg, zpow_natCast, ← div_eq_mul_inv]
    rfl

/-- A literal is the float that its value is rounded to. -/
theorem Literal.toFloat_eq {m : Nat} {e : Int} (h : Normal m e) (htop : e ≤ topExponent)
    {l : Literal} (hv : ReadsAs m e l.value) : l.toFloat = .ofModel (.pack (positive h)) := by
  obtain ⟨d, negative, k, hfloat, hvalue⟩ := l.exists_scaled
  rw [hvalue] at hv
  rw [hfloat, ofScientific_eq h htop hv]

theorem readExponent?_signed {sign : Char} {ds : List Char} (hsign : sign = '+' ∨ sign = '-')
    (h : IsDigits ds) :
    readExponent? ('e' :: sign :: ds) =
      some (if sign = '-' then -(digitsValue ds : Int) else digitsValue ds) := by
  have hall : ds ≠ [] ∧ ds.all Char.isDigit = true := ⟨h.1, List.all_eq_true.mpr h.2⟩
  rcases hsign with rfl | rfl
  · simp [readExponent?, splitSign, hall]
  · simp [readExponent?, splitSign, hall]

/-- The parts of a numeral are the parts of its literal. -/
theorem ofChars?_numeral {whole fraction exponent : List Char} {k : Int}
    (h : IsNumeral whole fraction exponent) (hk : readExponent? exponent = some k) :
    Literal.ofChars? (whole ++ (fraction ++ exponent)) = some ⟨whole, fraction.drop 1, k⟩ := by
  have hexponent : NoDigit exponent := by
    cases h.exponent with
    | none => nofun
    | signed =>
        rintro d ⟨⟩
        rfl
  cases h.fraction with
  | none =>
      have hspan := spanDigits_digits h.whole.2 hexponent
      cases h.exponent with
      | none =>
          rw [List.append_nil] at hspan
          simp [Literal.ofChars?, hspan, hk, h.whole.1]
      | signed => simp [Literal.ofChars?, hspan, hk, h.whole.1]
  | @point ds hds =>
      have hspan := spanDigits_digits h.whole.2 (noDigit_point (ds ++ exponent))
      have hspan' := spanDigits_digits hds.2 hexponent
      simp [Literal.ofChars?, hspan, hspan', hk, h.whole.1]

/-- A numeral is read as the literal of its parts. -/
theorem readFloat?_numeral {whole fraction exponent : List Char} {k : Int}
    (h : IsNumeral whole fraction exponent) (hk : readExponent? exponent = some k) :
    readFloat? (whole ++ (fraction ++ exponent)) =
      some (Literal.toFloat ⟨whole, fraction.drop 1, k⟩) := by
  obtain ⟨c, more, hwhole⟩ := List.exists_cons_of_ne_nil h.whole.1
  have hdigit : c.isDigit = true := h.whole.2 c (by simp [hwhole])
  have hsign : splitSign (whole ++ (fraction ++ exponent)) =
      (false, whole ++ (fraction ++ exponent)) := by
    apply splitSign_noSign
    intro d hd
    obtain rfl : c = d := by simpa [hwhole] using hd
    constructor <;> rintro rfl <;> revert hdigit <;> decide
  simp only [readFloat?, hsign, ofChars?_numeral h hk, Option.map_some, Bool.false_eq_true,
    if_false]

/-! ## Layouts -/

/-- A text spells a value as a numeral that is no bare integer. -/
def Spells (cs : List Char) (v : ℚ) : Prop :=
  ∃ whole fraction exponent k, IsNumeral whole fraction exponent ∧
    cs = whole ++ (fraction ++ exponent) ∧ fraction ++ exponent ≠ [] ∧
    readExponent? exponent = some k ∧ (Literal.mk whole (fraction.drop 1) k).value = v

/-- Digits with a point among them. -/
theorem spells_point {ws fs : List Char} (hws : IsDigits ws) (hfs : IsDigits fs) :
    Spells (ws ++ '.' :: fs) (digitsValue (ws ++ fs) * 10 ^ (-(fs.length : Int))) := by
  refine ⟨ws, '.' :: fs, [], 0, ⟨hws, .point hfs, .none⟩, by rw [List.append_nil], by simp, rfl, ?_⟩
  simp [Literal.value]

theorem isDigits_append {cs ds : List Char} (hcs : ∀ c ∈ cs, c.isDigit = true)
    (hds : IsDigits ds) : IsDigits (cs ++ ds) := by
  refine ⟨by simp [hds.1], ?_⟩
  intro c hc
  rcases List.mem_append.mp hc with hc | hc
  · exact hcs c hc
  · exact hds.2 c hc

theorem isDigit_of_mem_zeros {n : Nat} : ∀ c ∈ List.replicate n '0', c.isDigit = true := by
  intro c hc
  rw [List.eq_of_mem_replicate hc]
  rfl

theorem isDigits_zero : IsDigits ['0'] := ⟨by simp, by simp⟩

/-- Digits and zeros after them, with a fraction of zero. -/
theorem spells_zeros {ds : List Char} (hds : IsDigits ds) (n : Nat) :
    Spells (ds ++ List.replicate n '0' ++ ['.', '0']) (digitsValue ds * 10 ^ n) := by
  have hwhole : IsDigits (ds ++ List.replicate n '0') := by
    refine ⟨by simp [hds.1], ?_⟩
    intro c hc
    rcases List.mem_append.mp hc with hc | hc
    · exact hds.2 c hc
    · exact isDigit_of_mem_zeros c hc
  have hspells := spells_point hwhole isDigits_zero
  have hdigits : digitsValue (ds ++ List.replicate n '0' ++ ['0']) =
      digitsValue ds * 10 ^ n * 10 := by
    rw [digitsValue_append, digitsValue_append, digitsValue_zeros, List.length_replicate]
    simp [digitsValue]
    ring
  have hcancel : ((digitsValue ds * 10 ^ n * 10 : ℕ) : ℚ) * 10 ^ (-(['0'].length : Int)) =
      digitsValue ds * 10 ^ n := by
    simp
  rwa [hdigits, hcancel] at hspells

/-- Digits with a point in front of the last `n` of them. -/
theorem spells_inside {ds : List Char} (hds : IsDigits ds) {n : Nat} (hpos : 0 < n)
    (hn : n < ds.length) :
    Spells (ds.take (ds.length - n) ++ '.' :: ds.drop (ds.length - n))
      (digitsValue ds * 10 ^ (-(n : Int))) := by
  have hfront : IsDigits (ds.take (ds.length - n)) := by
    refine ⟨?_, fun c hc => hds.2 c (List.mem_of_mem_take hc)⟩
    rw [← List.length_pos_iff, List.length_take]
    omega
  have hback : IsDigits (ds.drop (ds.length - n)) := by
    refine ⟨?_, fun c hc => hds.2 c (List.mem_of_mem_drop hc)⟩
    rw [← List.length_pos_iff, List.length_drop]
    omega
  have hspells := spells_point hfront hback
  have hlength : (ds.drop (ds.length - n)).length = n := by
    rw [List.length_drop]
    omega
  rwa [List.take_append_drop, hlength] at hspells

/-- Zeros after a point, up to `n` places with the digits after them. -/
theorem spells_front {ds : List Char} (hds : IsDigits ds) {n : Nat} (hn : ds.length ≤ n) :
    Spells ('0' :: '.' :: (List.replicate (n - ds.length) '0' ++ ds))
      (digitsValue ds * 10 ^ (-(n : Int))) := by
  have hback := isDigits_append (isDigit_of_mem_zeros (n := n - ds.length)) hds
  have hspells := spells_point isDigits_zero hback
  have hlength : (List.replicate (n - ds.length) '0' ++ ds).length = n := by
    rw [List.length_append, List.length_replicate]
    omega
  have hdigits : digitsValue (['0'] ++ (List.replicate (n - ds.length) '0' ++ ds)) =
      digitsValue ds := by
    rw [digitsValue_append, digitsValue_append, digitsValue_zeros]
    simp [digitsValue]
  rwa [hlength, hdigits] at hspells

/-- Positional notation spells the decimal. -/
theorem spells_positional (d : Decimal) : Spells (positional ['.', '0'] d) d.value := by
  have hds := isDigits_digitsOf d.digits
  have hvalue := digitsValue_digitsOf d.digits
  simp only [positional, value]
  generalize digitsOf d.digits = ds at hds hvalue
  rw [← hvalue]
  split
  next hexponent =>
    obtain ⟨n, hn⟩ := Int.eq_ofNat_of_zero_le hexponent
    rw [hn, Int.toNat_natCast, zpow_natCast]
    exact spells_zeros hds n
  next hexponent =>
    obtain ⟨n, hn⟩ : ∃ n : Nat, d.exponent = -n := ⟨(-d.exponent).toNat, by omega⟩
    rw [hn, neg_neg, Int.toNat_natCast]
    split
    next hplaces => exact spells_inside hds (by omega) hplaces
    next hplaces => exact spells_front hds (Nat.le_of_not_lt hplaces)

/-- The exponent of scientific notation is read as the position of the leading digit. -/
theorem readExponent?_scientific (k : Int) :
    IsExponent ('e' :: (if k < 0 then '-' else '+') :: digitsOf k.natAbs) ∧
      readExponent? ('e' :: (if k < 0 then '-' else '+') :: digitsOf k.natAbs) = some k := by
  have hdigits := isDigits_digitsOf k.natAbs
  by_cases hneg : k < 0
  · simp only [hneg, if_true]
    refine ⟨.signed (.inr rfl) hdigits, ?_⟩
    rw [readExponent?_signed (.inr rfl) hdigits, digitsValue_digitsOf, if_pos rfl,
      Option.some.injEq]
    omega
  · simp only [hneg, if_false]
    refine ⟨.signed (.inl rfl) hdigits, ?_⟩
    rw [readExponent?_signed (.inl rfl) hdigits, digitsValue_digitsOf, if_neg (by decide),
      Option.some.injEq]
    omega

/-- Scientific notation spells the decimal. -/
theorem spells_scientific (d : Decimal) : Spells (scientific d) d.value := by
  have hds := isDigits_digitsOf d.digits
  have hvalue := digitsValue_digitsOf d.digits
  have hleading : d.leading = d.exponent + (digitsOf d.digits).length - 1 := rfl
  obtain ⟨hexponent, hread⟩ := readExponent?_scientific d.leading
  simp only [scientific]
  generalize digitsOf d.digits = ds at hds hvalue hleading
  split
  next first second rest =>
    have hfirst : IsDigits [first] := ⟨by simp, by simpa using hds.2 first (by simp)⟩
    have hrest : IsDigits (second :: rest) :=
      ⟨by simp, fun c hc => hds.2 c (List.mem_cons_of_mem _ hc)⟩
    refine ⟨[first], '.' :: second :: rest, _, d.leading, ⟨hfirst, .point hrest, hexponent⟩,
      by simp, by simp, hread, ?_⟩
    have hplaces : d.leading - ((second :: rest).length : Int) = d.exponent := by
      rw [hleading, List.length_cons, List.length_cons]
      omega
    simp only [Literal.value, List.drop_one, List.tail_cons, hplaces]
    rw [List.singleton_append, hvalue, value]
  next hshort =>
    refine ⟨ds, [], _, d.leading, ⟨hds, .none, hexponent⟩, by simp, by simp, hread, ?_⟩
    have hone : ds.length = 1 := by
      cases ds with
      | nil => exact absurd rfl hds.1
      | cons first rest =>
          cases rest with
          | nil => rfl
          | cons second rest => exact (hshort first second rest rfl).elim
    have hplaces : d.leading - (([] : List Char).length : Int) = d.exponent := by
      rw [hleading, hone, List.length_nil]
      omega
    simp only [Literal.value, List.drop_nil, hplaces]
    rw [List.append_nil, hvalue, value]

end RecordQuery.Decimal
