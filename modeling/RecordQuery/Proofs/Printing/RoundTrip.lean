import RecordQuery.Proofs.Grammar.Parsing
import RecordQuery.Proofs.Printing.Heads
import RecordQuery.Proofs.Printing.Layout
import RecordQuery.Proofs.Printing.Printable

/-! # Reading a printed expression

The text of a legible expression reads back as the expression exactly if each suffix stands after
what it belongs to and the text does not open too many levels.
-/

namespace RecordQuery.Expr

open Grammar Token

theorem kindsFrom_toText {e : Expr} (h : Everywhere Legible e) :
    kindsFrom 0 e.toText.toList = kindsFrom 0 (Word.spell e.words) := by
  rw [toText, String.toList_ofList, chars_eq_spell h]

/-- If each point stands, the tokens of the text are those of the words. -/
theorem scan_toText {e : Expr} (h : Everywhere Legible e) (hpoints : Everywhere PointStands e) :
    ∃ tokens, scan e.toText = .ok tokens ∧ tokens.list.map Token.kind = Word.kinds e.words := by
  obtain ⟨k, hlaid, hk⟩ := laidOut h [] (follows_nil _)
  obtain rfl := hk.mpr hpoints
  obtain ⟨next, hnext⟩ := hlaid.kindsFrom_spell 0
  rw [List.append_nil, kindsFrom_nil, ← kindsFrom_toText h] at hnext
  obtain ⟨tokens, htokens, hkinds⟩ := map_eq_ok_iff.mp hnext
  exact ⟨tokens, htokens, by simpa using hkinds⟩

/-- If heads and points stand, the text is read as the expression or refused as too deep. -/
theorem parse_toText_within {e : Expr} (hlegible : Everywhere Legible e)
    (hheads : Everywhere HeadStands e) (hpoints : Everywhere PointStands e) :
    Within maxDepth (e.opens + 1) (parse e.toText) (.ok e) := by
  obtain ⟨tokens, htokens, hkinds⟩ := scan_toText hlegible hpoints
  have hder := (spelled hlegible hheads).whole
  rw [← hkinds] at hder
  rw [parse_of_scan htokens]
  exact ofTokens_within hder

/-- A point that does not stand is missing among the tokens of the text. -/
theorem pointStands_of_parse_toText {e : Expr} (hlegible : Everywhere Legible e)
    (h : parse e.toText = .ok e) : Everywhere PointStands e := by
  obtain ⟨tokens, d, hscan, hder⟩ := exists_derives_of_parse h
  obtain ⟨k, hlaid, hk⟩ := laidOut hlegible [] (follows_nil _)
  have hkinds : kindsFrom 0 (Word.spell e.words) = .ok (tokens.list.map Token.kind) := by
    rw [← kindsFrom_toText hlegible]
    exact map_eq_ok_iff.mpr ⟨tokens, hscan, rfl⟩
  have hmissing := hlaid.count_dot hkinds
  -- The tokens derive the expression, so they have all of its points and no merge has taken one.
  have hcount := countP_eq_of_derives counted_dot hder
  unfold List.count at hmissing
  rw [hcount] at hmissing
  exact hk.mp (by omega)

/-- The head of a suffix is no operator expression, and no integer if the suffix is a property. -/
def SuffixStands : Expr → Prop
  | member object _ => object.isOperator = false ∧ object.isInteger = false
  | index head _ | call head _ => head.isOperator = false
  | _ => True

theorem suffixStands_iff {e : Expr} : SuffixStands e ↔ HeadStands e ∧ PointStands e := by
  cases e with
  | member object name =>
      have hends : object.isOperator = false → object.endsInInteger = object.isInteger := by
        cases object <;> simp [isOperator, endsInInteger]
      constructor
      · rintro ⟨hoperator, hinteger⟩
        exact ⟨hoperator, (hends hoperator).trans hinteger⟩
      · rintro ⟨hoperator, hpoint⟩
        exact ⟨hoperator, (hends hoperator).symm.trans hpoint⟩
  | _ => simp [SuffixStands, HeadStands, PointStands]

/-- When the text of a legible expression reads back as the expression. -/
theorem parse_toText_eq_ok_iff {e : Expr} (hlegible : Everywhere Legible e) :
    parse e.toText = .ok e ↔ Everywhere SuffixStands e ∧ e.opens < maxDepth := by
  rw [Everywhere.congr fun _ => suffixStands_iff, Everywhere.and_iff]
  constructor
  · intro h
    have hpoints := pointStands_of_parse_toText hlegible h
    obtain ⟨tokens, hscan, hkinds⟩ := scan_toText hlegible hpoints
    have hheads : Everywhere HeadStands e := by
      obtain ⟨tokens', d, hscan', hder⟩ := exists_derives_of_parse h
      obtain rfl : tokens' = tokens := Except.ok.inj (hscan'.symm.trans hscan)
      rw [hkinds] at hder
      exact headsStand hder (.inl rfl) hlegible
    refine ⟨⟨hheads, hpoints⟩, ?_⟩
    -- Too many levels would be refused, whatever the heads and the points.
    rw [← Nat.not_le]
    intro hdeep
    obtain ⟨pos, hpos⟩ := (parse_toText_within hlegible hheads hpoints).refused (by omega)
    rw [h] at hpos
    cases hpos
  · rintro ⟨⟨hheads, hpoints⟩, hopens⟩
    exact (parse_toText_within hlegible hheads hpoints).eq hopens

/-- What a text can go on from with a property, a key or arguments, without a change of what the
suffix belongs to. -/
def isHead : Expr → Bool
  | literal .null | literal (.bool _) | literal (.string _) => true
  | undefined | ident _ | array _ | member .. | index .. | call .. => true
  | _ => false

/-- The object of a property or a key and the callee of a call are heads. -/
def HasHead : Expr → Prop
  | member head _ | index head _ | call head _ => head.isHead = true
  | _ => True

theorem HasHead.suffixStands {e : Expr} (h : HasHead e) : SuffixStands e := by
  have hhead : ∀ {head : Expr}, head.isHead = true →
      head.isOperator = false ∧ head.isInteger = false := by
    intro head h
    fun_cases isHead head <;> simp_all [isOperator, isInteger, isHead]
  cases e with
  | member object name => exact hhead h
  | index object key => exact (hhead h).1
  | call callee args => exact (hhead h).1
  | _ => trivial

/-- The text of a printable expression whose suffixes follow heads reads back as the expression, if
it opens at most 127 levels. -/
theorem parse_toText {e : Expr} (hprintable : Everywhere Printable e)
    (hheads : Everywhere HasHead e) (hopens : e.opens ≤ 127) : parse e.toText = .ok e := by
  apply (parse_toText_eq_ok_iff (hprintable.mono fun _ => Printable.legible)).mpr
  exact ⟨hheads.mono fun _ => HasHead.suffixStands, Nat.lt_succ_of_le hopens⟩

/-- The text `a.b(-1.5)` reads back. -/
theorem parse_toText_method :
    parse (call (member (ident "a") "b") [unary .neg (literal (Json.ofFloat 1.5))]).toText =
      .ok (call (member (ident "a") "b") [unary .neg (literal (Json.ofFloat 1.5))]) := by
  have ha : Printable (ident "a") := ⟨⟨'a', [], rfl, by decide, nofun⟩, by decide⟩
  have hb : IsName "b" := ⟨'b', [], rfl, by decide, nofun⟩
  have hnumber : Everywhere Printable (literal (Json.ofFloat 1.5)) :=
    Everywhere.literal_iff.mpr (printable_ofFloat fun _ => by decide +kernel)
  refine parse_toText ?_ ?_ (by decide +kernel)
  · rw [Everywhere.call_iff, Everywhere.member_iff, Everywhere.ident_iff,
      List.forall_mem_singleton, Everywhere.unary_iff]
    exact ⟨trivial, ⟨hb, ha⟩, trivial, hnumber⟩
  · rw [Everywhere.call_iff, Everywhere.member_iff, Everywhere.ident_iff,
      List.forall_mem_singleton, Everywhere.unary_iff, Everywhere.literal_iff]
    exact ⟨rfl, ⟨rfl, trivial⟩, trivial, trivial⟩

/-- An expression that is read from a text is printed as a text that reads back as it exactly if
each suffix stands after what it belongs to and the new text does not open too many levels. -/
theorem parse_toText_iff_of_parse {text : String} {e : Expr} (h : parse text = .ok e) :
    parse e.toText = .ok e ↔ Everywhere SuffixStands e ∧ e.opens < maxDepth :=
  parse_toText_eq_ok_iff ((printable_of_parse h).mono fun _ => Printable.legible)

theorem derives_sum : Derives (.chain .or) [.ident "a", .punct .plus, .ident "b"]
    (.binary .add (.ident "a") (.ident "b")) 0 := by
  have ha : Derives .suffixed [.ident "a"] (.ident "a") 0 := .unsuffixed (.name (by decide))
  have hb : Derives .suffixed [.ident "b"] (.ident "b") 0 := .unsuffixed (.name (by decide))
  exact Derives.between .add ha hb

/-- The text `a + b` reads back. -/
theorem parse_toText_iff_of_parse_sum :
    parse (binary .add (ident "a") (ident "b")).toText =
      .ok (binary .add (ident "a") (ident "b")) := by
  have hscan : scan "a + b" =
      .ok ⟨[⟨.ident "a", 0⟩, ⟨.punct .plus, 2⟩, ⟨.ident "b", 4⟩], 5⟩ := by cbv
  have hparse : parse "a + b" = .ok (binary .add (ident "a") (ident "b")) := by
    rw [parse_of_scan hscan, ofTokens_eq_ok_iff]
    exact ⟨1, by decide, .whole derives_sum⟩
  refine (parse_toText_iff_of_parse hparse).mpr ⟨?_, by decide +kernel⟩
  rw [Everywhere.binary_iff, Everywhere.ident_iff, Everywhere.ident_iff]
  exact ⟨trivial, trivial, trivial⟩

/-- The property of a sum is printed as the sum with a property. -/
theorem exists_parse_toText_ne :
    ∃ text e, parse text = .ok e ∧ parse e.toText ≠ .ok e := by
  have hscan : scan "(a + b).c" = .ok ⟨[⟨.punct .leftParen, 0⟩, ⟨.ident "a", 1⟩, ⟨.punct .plus, 3⟩,
      ⟨.ident "b", 5⟩, ⟨.punct .rightParen, 6⟩, ⟨.punct .dot, 7⟩, ⟨.ident "c", 8⟩], 9⟩ := by cbv
  have hparse : parse "(a + b).c" = .ok (member (binary .add (ident "a") (ident "b")) "c") := by
    rw [parse_of_scan hscan, ofTokens_eq_ok_iff]
    have hsum : Derives .suffixed _ _ 1 := .unsuffixed (.parens (.whole derives_sum))
    exact ⟨2, by decide, .whole ((Derives.unprefixed (.member hsum)).chain .or)⟩
  refine ⟨_, _, hparse, fun h => ?_⟩
  have hlegible := (printable_of_parse hparse).mono fun _ => Printable.legible
  have hstands := ((parse_toText_eq_ok_iff hlegible).mp h).1.here
  exact absurd hstands.1 (by decide)

end RecordQuery.Expr
