import RecordQuery.Expr.Eval
import RecordQuery.Json.Printer
import RecordQuery.Proofs.Floats.ReadBack
import RecordQuery.Proofs.Grammar.Parsing
import RecordQuery.Proofs.Lexing.Delimiters
import RecordQuery.Proofs.Printing.Layout

/-! # JSON text as an operand

The text of a value is read as an operand with the same value, wherever it is evaluated. A minus
sign is an operator before a number, and a number comes back as its float is stored.
-/

namespace RecordQuery

open Grammar Token

theorem Value.negate_ofFinite {x : Float} (hx : x.isFinite = true) :
    (json (.number (.ofFinite x))).negate = json (.number (.ofFinite (-x))) := by
  have hfinite : (-(Number.ofFinite x).toFloat).isFinite = true := by
    rw [Binary.isFinite_neg]
    exact (Number.isStored_ofFinite hx).isFinite
  change ofFloat (-(Number.ofFinite x).toFloat) = _
  rw [ofFloat, if_pos hfinite, Number.ofFinite_neg_toFloat hx]

theorem Decimal.literalText_neg {x : Float} {m : Nat} {e : Int} (h : exact x = .finite false m e) :
    literalText (-x) = '-' :: literalText x := by
  rw [literalText, literalText, Binary.exact_neg h, h]
  rfl

/-- A text is read as an operand that has a given value in every context, with at most `n` levels
open in it. -/
def Denotes (n : Nat) (cs : List Char) (value : Json) : Prop :=
  ∃ ts e d, ReadsAs cs ts [] ∧ Derives .unary ts e d ∧ d ≤ n ∧
    ∀ ctx : Context, e.eval ctx = .ok (.json value)

namespace Denotes

variable {n : Nat} {cs : List Char} {value : Json}

theorem mono {k : Nat} (h : Denotes n cs value) (hle : n ≤ k) : Denotes k cs value := by
  obtain ⟨ts, e, d, hreads, hder, hd, hvalue⟩ := h
  exact ⟨ts, e, d, hreads, hder, hd.trans hle, hvalue⟩

/-- The token of a literal. -/
theorem of_primary {t : TokenKind} (hreads : ReadsAs cs [t] [])
    (hder : Derives .primary [t] (.literal value) 0) : Denotes 0 cs value :=
  ⟨[t], .literal value, 0, hreads, .unprefixed (.unsuffixed hder), le_rfl, fun _ => rfl⟩

theorem null : Denotes 0 Json.null.compact .null :=
  of_primary (kindsFrom_name Expr.isName_null nofun) .null

theorem bool (b : Bool) : Denotes 0 (Json.bool b).compact (.bool b) := by
  cases b with
  | true => exact of_primary (kindsFrom_name Expr.isName_true nofun) .true
  | false => exact of_primary (kindsFrom_name Expr.isName_false nofun) .false

theorem string (s : String) : Denotes 0 (Json.quote s) (.string s) :=
  of_primary (kindsFrom_text s []) .string

/-! ## Numbers -/

/-- A numeral has the value of its float. -/
theorem numeral {whole fraction exponent : List Char} {x : Float}
    (hnumeral : IsNumeral whole fraction exponent)
    (hread : Decimal.readFloat? (whole ++ (fraction ++ exponent)) = some x)
    (hx : x.isFinite = true) :
    Denotes 0 (whole ++ (fraction ++ exponent)) (.number (.ofFinite x)) := by
  have hreads : ReadsAs (whole ++ (fraction ++ exponent)) [.number x] [] :=
    kindsFrom_numeral hnumeral hread nofun (fun _ => nofun)
  have hder : Derives .primary [.number x] (.literal (Json.ofFloat x)) 0 := .number
  rw [Number.stored_of_finite hx] at hder
  exact of_primary hreads hder

theorem digits {k : Nat} (hk : k < 2 ^ 64) :
    Denotes 0 (Decimal.digitsOf k) (.number (.ofFinite (Float.ofNat k))) := by
  have hnumeral : IsNumeral (Decimal.digitsOf k) [] [] :=
    ⟨Decimal.isDigits_digitsOf k, .none, .none⟩
  have hfinite : (Float.ofNat k).isFinite = true := Binary.isFinite_ofInt (n := k) hk
  have hread := Number.readFloat?_digitsOf k
  rw [← List.append_nil (Decimal.digitsOf k)] at hread ⊢
  exact numeral hnumeral hread hfinite

/-- A float without a sign is printed as a numeral of it. -/
theorem unsigned {x : Float} {m : Nat} {e : Int} (h : Decimal.exact x = .finite false m e)
    (hx : x.isFinite = true) : Denotes 0 (Decimal.literalText x) (.number (.ofFinite x)) := by
  by_cases hm : m = 0
  · subst hm
    have hdigit : IsDigits ['0'] := ⟨nofun, List.forall_mem_singleton.mpr rfl⟩
    have htext : Decimal.literalText x = ['0'] ++ (['.', '0'] ++ []) := by
      rw [Decimal.literalText, h]
      rfl
    rw [htext]
    refine numeral ⟨hdigit, .point hdigit, .none⟩ ?_ hx
    rw [Binary.eq_zero_of_exact hx h]
    decide +kernel
  · obtain ⟨hnormal, htop, hunpack⟩ := Binary.unpack_of_exact h hm
    obtain ⟨whole, fraction, exponent, hnumeral, htext, -, hread⟩ :=
      Number.exists_numeral hnormal htop hunpack
    rw [htext] at hread ⊢
    exact numeral hnumeral hread hx

/-- A minus sign stores the number anew. -/
theorem neg {x : Float} (h : Denotes n cs (.number (.ofFinite x))) (hx : x.isFinite = true) :
    Denotes (n + 1) ('-' :: cs) (.number (.ofFinite (-x))) := by
  obtain ⟨ts, e, d, hreads, hder, hd, hvalue⟩ := h
  have hminus : ReadsAs ['-'] [.punct .minus] (cs ++ []) := by
    refine kindsFrom_punct (p := .minus) fun c _ => ?_
    simp [Word.endsBefore, Punct.takesEquals]
  refine ⟨.punct .minus :: ts, .unary .neg e, d + 1, hminus.append hreads, .prefixed .neg hder,
    by omega, fun ctx => ?_⟩
  rw [Expr.eval, hvalue ctx]
  exact congrArg Except.ok (Value.negate_ofFinite hx)

/-- The text of a number has the value of its float. -/
theorem literal {v : Number} (hv : v.IsStored) :
    Denotes 1 v.literal (.number (.ofFinite v.toFloat)) := by
  cases v with
  | int i =>
      by_cases hneg : i < 0
      · have htext : (Number.int i).literal = '-' :: Decimal.digitsOf i.natAbs := by
          rw [Number.literal, Decimal.integerText, if_pos hneg]
        have hfloat : Float.ofInt i = -Float.ofNat i.natAbs := by
          rw [← Binary.ofInt_neg (show i.natAbs ≠ 0 by omega)]
          congr 1
          omega
        rw [htext, Number.toFloat_int, hfloat]
        exact (digits hv.natAbs_lt).neg (Binary.isFinite_ofInt (n := i.natAbs) hv.natAbs_lt)
      · have htext : (Number.int i).literal = Decimal.digitsOf i.natAbs := by
          rw [Number.literal, Decimal.integerText, if_neg hneg]
        obtain ⟨k, rfl⟩ := Int.eq_ofNat_of_zero_le (not_lt.mp hneg)
        rw [htext]
        exact (digits hv.natAbs_lt).mono (Nat.zero_le 1)
  | float x =>
      have habs : x.abs.isFinite = true := by rwa [Binary.isFinite_abs]
      obtain ⟨m, e, hexact⟩ := Binary.exact_abs hv
      have hunsigned := unsigned hexact habs
      rcases Binary.eq_abs_or_eq_neg_abs hv with heq | heq
      · rw [← heq] at hunsigned
        exact hunsigned.mono (Nat.zero_le 1)
      · rw [heq, Number.literal, Decimal.literalText_neg hexact]
        exact hunsigned.neg habs

/-! ## Arrays -/

/-- Before a delimiter a text is read as a whole expression. -/
theorem item (h : Denotes n cs value) :
    ∃ a : Item, Derives .conditional a.tokens a.tree a.depth ∧ a.depth ≤ n + 1 ∧
      (∀ ctx, a.tree.eval ctx = .ok (.json value)) ∧
      ∀ d more, IsDelimiter d → ReadsAs cs a.tokens (d :: more) := by
  obtain ⟨ts, e, d, hreads, hder, hd, hvalue⟩ := h
  refine ⟨⟨ts, e, d + 1⟩, .whole (hder.chain .or), Nat.succ_le_succ hd, hvalue, ?_⟩
  exact fun _ more hdelimiter => readsAs_before hdelimiter (hreads.kindsFrom_eq 0) more

theorem readsAs_comma (rest : List Char) : ReadsAs [','] [.punct .comma] rest :=
  kindsFrom_punct (p := .comma) fun c _ => by simp [Word.endsBefore, Punct.takesEquals]

/-- Texts with commas between them are read as the items of an array. -/
theorem exists_items {texts : List (List Char)} {values : List Json}
    (h : List.Forall₂ (Denotes n) texts values) :
    ∃ items : List Item, items.length = texts.length ∧
      (∀ a ∈ items, Derives .conditional a.tokens a.tree a.depth) ∧ deepest items ≤ n + 1 ∧
      (∀ ctx, Expr.evalList ctx (items.map Item.tree) = .ok (values.map .json)) ∧
      ∀ more, ReadsAs (Text.join [','] texts) (separated items) (']' :: more) := by
  induction h with
  | nil => exact ⟨[], rfl, nofun, Nat.zero_le _, fun _ => rfl, fun _ => .nil _⟩
  | @cons text value texts values hfirst _ ih =>
      obtain ⟨a, hder, hdepth, hvalue, hreads⟩ := hfirst.item
      obtain ⟨items, hlength, hders, hdeepest, hvalues, hrest⟩ := ih
      refine ⟨a :: items, by rw [List.length_cons, hlength, List.length_cons],
        List.forall_mem_cons.mpr ⟨hder, hders⟩, max_le hdepth hdeepest, fun ctx => ?_,
        fun more => ?_⟩
      · rw [List.map_cons, Expr.evalList, hvalue ctx, hvalues ctx]
        rfl
      · cases texts with
        | nil =>
            obtain rfl := List.length_eq_zero_iff.mp hlength
            rw [separated_singleton]
            exact hreads ']' more isDelimiter_rightBracket
        | cons next texts =>
            obtain ⟨b, items, rfl⟩ := List.exists_cons_of_length_eq_add_one hlength
            rw [separated_cons_cons, Text.join, List.append_assoc]
            have hcomma := hreads ',' (Text.join [','] (next :: texts) ++ ']' :: more)
              isDelimiter_comma
            exact hcomma.append ((readsAs_comma _).append (hrest more))

theorem array {texts : List (List Char)} {values : List Json}
    (h : List.Forall₂ (Denotes n) texts values) :
    Denotes (n + 1) ('[' :: Text.join [','] texts ++ [']']) (.array values) := by
  obtain ⟨items, -, hders, hdeepest, hvalues, hreads⟩ := exists_items h
  have hclose : ReadsAs [']'] [.punct .rightBracket] [] :=
    kindsFrom_punct (p := .rightBracket) nofun
  have hitems : ReadsAs (Text.join [','] texts ++ [']'])
      (separated items ++ [.punct .rightBracket]) [] := (hreads []).append hclose
  have hopen : ReadsAs ['['] [.punct .leftBracket] (Text.join [','] texts ++ [']'] ++ []) :=
    kindsFrom_punct (p := .leftBracket) fun c _ => by simp [Word.endsBefore, Punct.takesEquals]
  refine ⟨_, _, _, hopen.append hitems, .unprefixed (.unsuffixed (.array hders)), hdeepest,
    fun ctx => ?_⟩
  rw [Expr.eval, hvalues ctx]
  simp [bind, Except.bind, pure, Except.pure, Function.comp_def]

end Denotes

/-! ## Values -/

/-- Null, truth values, texts and integers below `2 ^ 53`, and arrays of them nested at most `n`
deep. -/
inductive Json.Plain : Nat → Json → Prop where
  | null {n : Nat} : Plain n .null
  | bool {n : Nat} (b : Bool) : Plain n (.bool b)
  | string {n : Nat} (s : String) : Plain n (.string s)
  | int {n : Nat} {i : Int} (h : i.natAbs < 2 ^ 53) : Plain n (.number (.int i))
  | array {n : Nat} {items : List Json} (h : ∀ item ∈ items, Plain n item) :
      Plain (n + 1) (.array items)

theorem Json.compactItems_eq_map (items : List Json) :
    compactItems items = items.map compact := by
  induction items with
  | nil => rfl
  | cons item items ih => rw [compactItems, ih, List.map_cons]

/-- The text of such a value has the value itself, one level deeper than its arrays. -/
theorem Json.Plain.denotes {n : Nat} {v : Json} (h : v.Plain n) :
    Denotes (n + 1) v.compact v := by
  induction h with
  | null => exact Denotes.null.mono (Nat.zero_le _)
  | bool b => exact (Denotes.bool b).mono (Nat.zero_le _)
  | string s => exact (Denotes.string s).mono (Nat.zero_le _)
  | @int n i hi =>
      have hstored : (Number.int i).IsStored := by
        unfold Number.IsStored
        omega
      have hdenotes := Denotes.literal hstored
      rw [Number.toFloat_int, Number.ofFinite_ofInt hi] at hdenotes
      exact hdenotes.mono (Nat.succ_le_succ (Nat.zero_le n))
  | @array n items h ih =>
      rw [compact, compactItems_eq_map]
      refine Denotes.array ?_
      rw [List.forall₂_map_left_iff]
      exact List.forall₂_same.mpr ih

end RecordQuery
