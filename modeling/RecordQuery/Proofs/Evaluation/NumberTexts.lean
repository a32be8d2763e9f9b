import RecordQuery.Expr.Eval
import RecordQuery.Proofs.Floats.Overflow
import RecordQuery.Proofs.Floats.ReadBack
import RecordQuery.Proofs.Grammar.Texts
import RecordQuery.Proofs.Lexing.LoneNumbers
import RecordQuery.Proofs.Printing.Layout

/-! # Numbers in a text and from a text

A text that is one number can be evaluated, or it can be quoted and converted. The two agree up to
the overflow. From there on the conversion gives the infinity, and the number itself becomes null,
since a literal holds JSON.
-/

namespace RecordQuery

open Grammar Token Decimal

/-! ## Conversion of a text -/

theorem textToNumber_of_literal {cs : List Char} {l : Literal}
    (h : Literal.ofChars? (Text.trim cs) = some l) : textToNumber cs = l.toFloat := by
  have hchars := Literal.isLiteralChar_of_ofChars? h
  have hread : readFloat? (Text.trim cs) = some l.toFloat := by
    rw [readFloat?, Literal.splitSign_of_ofChars? h]
    simp [h]
  have hletter {d : Char} (hd : isLiteralChar d = false) : d ∉ Text.trim cs :=
    fun hmem => absurd (hchars d hmem) (Bool.eq_false_iff.mp hd)
  have hx : 'x' ∉ Text.trim cs := hletter rfl
  have hX : 'X' ∉ Text.trim cs := hletter rfl
  have hI : 'I' ∉ Text.trim cs := hletter rfl
  rw [textToNumber]
  split
  next hempty =>
    rw [hempty] at h
    cases h
  next hhex => simp [hhex] at hx
  next hhex => simp [hhex] at hX
  next =>
    have hpositive : ¬(Text.trim cs = "Infinity".toList ∨ Text.trim cs = "+Infinity".toList) := by
      rintro (heq | heq) <;> simp [heq] at hI
    have hnegative : ¬Text.trim cs = "-Infinity".toList := by
      intro heq
      simp [heq] at hI
    rw [if_neg hpositive, if_neg hnegative, hread, Option.getD_some]

/-! ## Values of the texts -/

section

variable {text : String} {x : Float} {pos stop : Nat}

/-- A text of one number has the JSON form of the number as its value. -/
theorem evalText_number (h : scan text = .ok ⟨[⟨.number x, pos⟩], stop⟩) (ctx : Context) :
    Expr.evalText ctx text = .ok (.json (Json.ofFloat x)) := by
  have hder : Derives .conditional [.number x] (.literal (Json.ofFloat x)) 1 :=
    (Derives.unsuffixed .number).asWhole
  have hparse : Expr.parse text = .ok (.literal (Json.ofFloat x)) := by
    have hwithin : Within Expr.maxDepth 1 (Expr.ofTokens ⟨[⟨.number x, pos⟩], stop⟩) _ :=
      ofTokens_within hder
    rw [parse_of_scan h]
    exact hwithin.eq (by decide)
  rw [Expr.evalText, hparse]
  rfl

/-- The text of a call with a text in quotes as its one argument. -/
def quotedCall (name text : String) : String := name ++ "('" ++ text ++ "')"

theorem parse_quotedCall {name : String} (hname : IsName name) (hreserved : name ∉ reserved)
    (htext : ∀ c ∈ text.toList, c ≠ '\'' ∧ c ≠ '\\') :
    Expr.parse (quotedCall name text) = .ok (.call (.ident name) [.literal (.string text)]) := by
  have hargument : Derives .conditional [.string text] (.literal (.string text)) 1 :=
    (Derives.unsuffixed .string).asWhole
  have hcall := Derives.call (.unsuffixed (.name hreserved))
    (List.forall_mem_singleton.mpr hargument : ∀ a ∈ [Item.mk _ _ _], _)
  have hwhole : Derives .conditional _ (.call (.ident name) [.literal (.string text)]) 2 :=
    hcall.asWhole
  refine (parse_within ?_ hwhole).eq (by decide)
  have hclose : ReadsAs [')'] [.punct .rightParen] [] := readsAs_parenthesis (.inr rfl) _
  have hstring := (readsAs_quoted htext ([')'] ++ [])).append hclose
  have hopen : ReadsAs ['('] [.punct .leftParen]
      (('\'' :: (text.toList ++ ['\'']) ++ [')']) ++ []) :=
    readsAs_parenthesis (.inl rfl) _
  have hcallee : ReadsAs name.toList [.ident name]
      (['('] ++ ('\'' :: (text.toList ++ ['\'']) ++ [')']) ++ []) :=
    kindsFrom_name hname (by rintro d ⟨⟩; decide)
  have hreads := hcallee.append (hopen.append hstring)
  simpa [quotedCall] using hreads

/-- The conversion of a text to a number, in an empty scope. -/
theorem eval_toNumber (strict : Bool) (text : String) :
    Expr.eval ⟨.empty, .standard, strict⟩ (.call (.ident "Number") [.literal (.string text)]) =
      .ok (.ofFloat (textToNumber text.toList)) := by
  have hfind : BuiltinMap.standard.find? .global "Number" =
      some (.conversion "Number" (.between 0 (some 1)) .toNumber) := by decide
  have hresolve : Context.resolve ⟨.empty, .standard, strict⟩ "Number" =
      .ok (.function (.conversion "Number" (.between 0 (some 1)) .toNumber)) := by
    simp only [Context.resolve, hfind]
    rfl
  simp only [Expr.eval, hresolve]
  rfl

theorem evalText_toNumber (h : scan text = .ok ⟨[⟨.number x, pos⟩], stop⟩) (strict : Bool) :
    Expr.evalText ⟨.empty, .standard, strict⟩ (quotedCall "Number" text) = .ok (.ofFloat x) := by
  obtain ⟨l, hl, rfl⟩ := exists_literal_of_scan h
  have hname : IsName "Number" := Expr.isName_of_all rfl (by decide) (by decide)
  rw [Expr.evalText, parse_quotedCall hname (by decide) (ne_of_literal_around hl)]
  exact (eval_toNumber strict text).trans (by rw [textToNumber_of_literal hl])

/-- A text of one number is a literal. Below the overflow, the value of the text and its conversion
are the same number, the float of the literal. From the overflow on the conversion gives the
infinity, but the text itself is null. -/
theorem number_texts_agree (h : scan text = .ok ⟨[⟨.number x, pos⟩], stop⟩) (strict : Bool) :
    ∃ l, Literal.ofChars? (Text.trim text.toList) = some l ∧
      (l.value < Binary.overflow →
        Expr.evalText ⟨.empty, .standard, strict⟩ text =
          .ok (.json (.number (.ofFinite l.toFloat))) ∧
        Expr.evalText ⟨.empty, .standard, strict⟩ (quotedCall "Number" text) =
          .ok (.json (.number (.ofFinite l.toFloat)))) ∧
      (Binary.overflow ≤ l.value →
        Expr.evalText ⟨.empty, .standard, strict⟩ text = .ok (.json .null) ∧
        Expr.evalText ⟨.empty, .standard, strict⟩ (quotedCall "Number" text) =
          .ok (.nonFinite infinity)) := by
  have hnumber := evalText_number h ⟨.empty, .standard, strict⟩
  have hconversion := evalText_toNumber h strict
  obtain ⟨l, hl, rfl⟩ := exists_literal_of_scan h
  refine ⟨l, hl, fun hlt => ?_, fun hle => ?_⟩
  · have hfinite := l.isFinite_toFloat hlt
    rw [Number.stored_of_finite hfinite] at hnumber
    rw [Value.ofFloat, if_pos hfinite] at hconversion
    exact ⟨hnumber, hconversion⟩
  · rw [l.toFloat_eq_infinity hle] at hnumber hconversion
    exact ⟨hnumber, hconversion⟩

/-- A point without a digit before it, and blanks around the number. -/
theorem number_texts_agree_five :
    scan " .5e+1\n" = .ok ⟨[⟨.number 5.0, 1⟩], 7⟩ ∧
      Expr.evalText ⟨.empty, .standard, false⟩ " .5e+1\n" = .ok (.ofInt 5) ∧
      Expr.evalText ⟨.empty, .standard, false⟩ "Number(' .5e+1\n')" = .ok (.ofInt 5) := by
  have hscan : scan " .5e+1\n" = .ok ⟨[⟨.number 5.0, 1⟩], 7⟩ := by decide +kernel
  obtain ⟨l, hl, hagree, -⟩ := number_texts_agree hscan false
  obtain rfl : (⟨[], ['5'], 1⟩ : Literal) = l := Option.some.inj hl
  have hdigits : digitsValue ['5'] = 5 := rfl
  have hvalue : Literal.value ⟨[], ['5'], 1⟩ < Binary.overflow :=
    Binary.lt_overflow_of_le_pow (by norm_num [Literal.value, hdigits])
  have hfive : Number.ofFinite (Literal.toFloat ⟨[], ['5'], 1⟩) = .int 5 := by decide +kernel
  rw [hfive] at hagree
  exact ⟨hscan, hagree hvalue⟩

/-- A number above the range is of another type than its conversion. -/
theorem number_texts_differ :
    scan "1e400" = .ok ⟨[⟨.number infinity, 0⟩], 5⟩ ∧
      Expr.evalText ⟨.empty, .standard, false⟩ "1e400" = .ok (.json .null) ∧
      Expr.evalText ⟨.empty, .standard, false⟩ "Number('1e400')" = .ok (.nonFinite infinity) := by
  have hscan : scan "1e400" = .ok ⟨[⟨.number infinity, 0⟩], 5⟩ := by decide +kernel
  exact ⟨hscan, evalText_number hscan _, evalText_toNumber hscan false⟩

end

end RecordQuery
