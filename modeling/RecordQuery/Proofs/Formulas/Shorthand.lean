import RecordQuery.Proofs.Formulas.Parameters
import RecordQuery.Proofs.Grammar.Texts

/-! # Shorthands of one formula

Whichever shorthand names the parameters and the body of a formula, it is taken apart into just
these, whatever the body holds: the parameters end at the first parenthesis or colon, neither of
which is in a name, and the body starts with no brace, since no expression does.
-/

namespace RecordQuery

open Token

/-! ## Bodies without the blanks around them -/

/-- An expression is the same without the blanks around it. -/
theorem Expr.parse_trim {text : String} {e : Expr} (h : parse text = .ok e) :
    parse (String.ofList (Text.trim text.toList)) = .ok e := by
  cases hscan : scan text with
  | error err => simp [parse, hscan] at h
  | ok tokens =>
      have hkinds := kindsFrom_trim (Grammar.kindsFrom_of_scan hscan)
      obtain ⟨trimmed, htrimmed, hlist⟩ := map_eq_ok_iff.mp hkinds
      have hscan' : scan (String.ofList (Text.trim text.toList)) = .ok trimmed := by
        rw [scan, String.toList_ofList, htrimmed]
      rw [Grammar.parse_of_scan hscan, Grammar.ofTokens_eq_ok_iff, ← hlist] at h
      rwa [Grammar.parse_of_scan hscan', Grammar.ofTokens_eq_ok_iff]

/-- No token starts with a brace. -/
theorem readLexeme_brace (pos : Nat) (rest : List Char) :
    readLexeme pos '\x7b' rest = .error (.unexpectedChar '\x7b' pos) := by
  have hstart : isIdentStart '\x7b' = false := by decide
  have hnone :
      (Punct.longestFirst.find? fun p => p.text.toList.isPrefixOf ('\x7b' :: rest)) = none := by
    rw [List.find?_eq_none]
    intro p _
    cases p <;> simp [Punct.text]
  rw [readLexeme, hnone]
  simp [Char.isDigit, hstart]

/-- An expression starts with a character that is neither blank nor a brace. -/
theorem Expr.trim_eq_cons_of_parse {text : String} {e : Expr} (h : parse text = .ok e) :
    ∃ c rest, Text.trim text.toList = c :: rest ∧ Text.isBlank c = false ∧ c ≠ '\x7b' := by
  have hparse := parse_trim h
  cases htrim : Text.trim text.toList with
  | nil =>
      rw [htrim] at hparse
      obtain ⟨tokens, d, hscan, hder⟩ := Grammar.exists_derives_of_parse hparse
      rw [scan, String.toList_ofList, scanFrom] at hscan
      cases hscan
      exact absurd rfl hder.ne_nil
  | cons c rest =>
      have hblank := Text.isBlank_of_trim_eq_cons htrim
      refine ⟨c, rest, rfl, hblank, ?_⟩
      rintro rfl
      rw [htrim] at hparse
      obtain ⟨tokens, d, hscan, -⟩ := Grammar.exists_derives_of_parse hparse
      rw [scan, String.toList_ofList, scanFrom, if_neg (by simp [hblank]),
        readLexeme_brace] at hscan
      cases hscan

/-! ## Taking a text apart -/

theorem takeWhile_ne {d : Char} {cs : List Char} (h : d ∉ cs) (rest : List Char) :
    (cs ++ d :: rest).takeWhile (· ≠ d) = cs := by
  have hall : ∀ c ∈ cs, decide (c ≠ d) = true :=
    fun c hc => decide_eq_true (ne_of_mem_of_not_mem hc h)
  rw [takeWhile_stop (by simp), List.takeWhile_eq_self_iff.mpr hall]

theorem dropWhile_ne {d : Char} {cs : List Char} (h : d ∉ cs) (rest : List Char) :
    (cs ++ d :: rest).dropWhile (· ≠ d) = d :: rest := by
  have hall : ∀ c ∈ cs, decide (c ≠ d) = true :=
    fun c hc => decide_eq_true (ne_of_mem_of_not_mem hc h)
  rw [dropWhile_stop (by simp), List.dropWhile_eq_nil_iff.mpr hall, List.nil_append]

namespace Formula

/-- A function text ends its parameters at the first parenthesis, after either keyword. -/
theorem functionShorthand?_append {keyword params : List Char}
    (hkeyword : keyword = ['f'] ∨ keyword = ['f', 'n']) (hparams : ')' ∉ params)
    (rest : List Char) :
    functionShorthand? (keyword ++ '(' :: (params ++ ')' :: rest)) =
      (bracedBody? rest).map fun body => ⟨params, body⟩ := by
  have hopen (cs : List Char) : functionShorthand? (keyword ++ '(' :: cs) =
      functionShorthand? ('f' :: '(' :: cs) := by
    rcases hkeyword with rfl | rfl <;> rfl
  have htrim (cs : List Char) : Text.trimStart ('(' :: cs) = '(' :: cs := rfl
  rw [hopen, functionShorthand?]
  simp only [Option.map_some, htrim, dropWhile_ne hparams, takeWhile_ne hparams]
  -- The parenthesis is not the second letter of a keyword.
  simp

/-- A lambda text ends its parameters at the first colon. -/
theorem lambdaShorthand?_append {head body : List Char} (hhead : ':' ∉ head) (hbody : body ≠ []) :
    lambdaShorthand? ("lambda".toList ++ (head ++ ':' :: body)) =
      (lambdaParams? head).map fun params => ⟨params, Text.trim body⟩ := by
  obtain ⟨c, more, rfl⟩ := List.exists_cons_of_ne_nil hbody
  have hdrop : ("lambda".toList ++ (head ++ ':' :: c :: more)).drop 6 = head ++ ':' :: c :: more :=
    rfl
  have hprefix :
      "lambda".toList.isPrefixOf ("lambda".toList ++ (head ++ ':' :: c :: more)) = true :=
    List.isPrefixOf_iff_prefix.mpr (List.prefix_append _ _)
  rw [lambdaShorthand?, if_pos hprefix, hdrop]
  simp only
  rw [dropWhile_ne hhead, takeWhile_ne hhead]

section

variable {text : String} {e : Expr} (h : Expr.parse text = .ok e)
include h

theorem trimStart_eq_cons :
    ∃ c more, Text.trimStart text.toList = c :: more ∧ c ≠ '\x7b' := by
  obtain ⟨c, rest, htrim, -, hc⟩ := Expr.trim_eq_cons_of_parse h
  have hprefix : Text.trim text.toList <+: Text.trimStart text.toList :=
    List.rdropWhile_prefix Text.isBlank _
  obtain ⟨after, hafter⟩ := hprefix
  rw [htrim, List.cons_append] at hafter
  exact ⟨c, _, hafter.symm, hc⟩

theorem bracedBody?_blank :
    bracedBody? (' ' :: text.toList) = some (Text.trim text.toList) := by
  obtain ⟨c, more, hstart, hc⟩ := trimStart_eq_cons h
  have hblank : Text.trimStart (' ' :: text.toList) = c :: more := hstart
  rw [Text.trim, hstart]
  simp [bracedBody?, hblank, hc]

theorem bracedBody?_braces :
    bracedBody? (' ' :: '\x7b' :: ' ' :: (text.toList ++ [' ', '\x7d'])) =
      some (Text.trim text.toList) := by
  obtain ⟨c, more, hstart, -⟩ := trimStart_eq_cons h
  have hne : Text.trimStart text.toList ≠ [] := by
    rw [hstart]
    exact List.cons_ne_nil _ _
  have hbrace (cs : List Char) : bracedBody? (' ' :: '\x7b' :: ' ' :: cs) =
      some (dropClosingBrace (Text.trim (' ' :: cs))) := rfl
  -- The closing brace keeps the blank before it, which goes away with the brace.
  have hinner : Text.trim (' ' :: (text.toList ++ [' ', '\x7d'])) =
      Text.trimStart text.toList ++ [' '] ++ ['\x7d'] := by
    rw [← List.singleton_append, Text.trim_append Text.blanks_space, Text.trim,
      Text.trimStart_append_of_ne_nil hne, ← Text.trimEnd_concat (c := '\x7d') (by decide)]
    simp
  have hclosed : dropClosingBrace (Text.trimStart text.toList ++ [' '] ++ ['\x7d']) =
      Text.trim text.toList := by
    rw [dropClosingBrace, List.reverse_append, List.reverse_singleton, List.singleton_append]
    simp only
    rw [List.reverse_reverse]
    exact Text.trimEnd_append Text.blanks_space _
  rw [hbrace, hinner, hclosed]

end

section

variable {params : List String} (hne : params ≠ [])
  (hparams : ∀ p ∈ params, isName p.toList = true)
include hne hparams

theorem lambdaParams?_blank :
    lambdaParams? (' ' :: (paramList params).toList) = some (paramList params).toList := by
  obtain ⟨c, more, hlist, hpart, hend⟩ := exists_cons_paramList hne hparams
  have hopen : c ≠ '(' := ne_of_isIdentPart hpart (by decide)
  have htrim : Text.trim (' ' :: c :: more) = c :: more := by
    rw [hlist] at hend
    exact (congrArg Text.trimEnd
      (Text.trimStart_cons (isBlank_of_isIdentPart hpart) more)).trans hend
  rw [hlist, lambdaParams?, htrim]
  split
  next h => cases h
  next h => exact absurd (List.cons.inj h).1 hopen
  next => rfl

theorem lambdaParams?_parens :
    lambdaParams? ('(' :: ((paramList params).toList ++ [')'])) =
      some (paramList params).toList := by
  have hparen : ')' ∉ (paramList params).toList :=
    not_mem_paramList hne hparams (by decide) (by decide) (by decide)
  have htrim : Text.trim ('(' :: ((paramList params).toList ++ [')'])) =
      '(' :: ((paramList params).toList ++ [')']) := by
    rw [Text.trim, Text.trimStart_cons (by decide), ← List.cons_append]
    exact Text.trimEnd_concat (by decide) _
  rw [lambdaParams?, htrim]
  simp only
  rw [dropWhile_ne hparen, if_pos rfl, takeWhile_ne hparen]

end

/-! ## All shorthands -/

/-- The formula of a body without the blanks around it. -/
def ofTrimmed (options : FormulaOptions) (params : List String) (text : String) (body : Expr) :
    Formula :=
  ⟨params, body, String.ofList (Text.trim text.toList), options.builtins, options.strict⟩

section

variable {params : List String} {text s : String} {body : Expr} (options : FormulaOptions)
  (hne : params ≠ []) (hparams : ∀ p ∈ params, isName p.toList = true)
  (hbody : Expr.parse text = .ok body)
include hne hparams hbody

theorem ofShorthand?_trim :
    ofShorthand? options (some ⟨(paramList params).toList, Text.trim text.toList⟩) =
      .ok (some (ofTrimmed options params text body)) := by
  simp only [ofShorthand?, readParams?_paramList hne hparams, compile, Expr.parse_trim hbody]
  rfl

theorem ofFunctionText?_eq {keyword rest : List Char}
    (hkeyword : keyword = ['f'] ∨ keyword = ['f', 'n'])
    (hrest : bracedBody? rest = some (Text.trim text.toList))
    (hs : s.toList = keyword ++ '(' :: ((paramList params).toList ++ ')' :: rest)) :
    ofFunctionText? options s = .ok (some (ofTrimmed options params text body)) := by
  have hparen : ')' ∉ (paramList params).toList :=
    not_mem_paramList hne hparams (by decide) (by decide) (by decide)
  rw [ofFunctionText?, hs, functionShorthand?_append hkeyword hparen, hrest]
  exact ofShorthand?_trim options hne hparams hbody

theorem ofLambdaText?_eq {head : List Char}
    (hhead : lambdaParams? head = some (paramList params).toList) (hcolon : ':' ∉ head)
    (hs : s.toList = "lambda".toList ++ (head ++ ':' :: ' ' :: text.toList)) :
    ofLambdaText? options s = .ok (some (ofTrimmed options params text body)) := by
  have htrim : Text.trim (' ' :: text.toList) = Text.trim text.toList := rfl
  rw [ofLambdaText?, hs, lambdaShorthand?_append hcolon (List.cons_ne_nil _ _), hhead, htrim]
  exact ofShorthand?_trim options hne hparams hbody

end

/-- Each shorthand for parameters that are names and a body that is an expression is recognized,
and gives the formula of just these parameters and this body. So does the text that a formula is
printed as. -/
theorem shorthands_agree {params : List String} {text : String} {body : Expr}
    (options : FormulaOptions) (hne : params ≠ [])
    (hparams : ∀ p ∈ params, isName p.toList = true) (hbody : Expr.parse text = .ok body) :
    (∀ s ∈ ["f(" ++ paramList params ++ ") " ++ text,
        "fn(" ++ paramList params ++ ") " ++ text,
        "f(" ++ paramList params ++ ") \x7b " ++ text ++ " \x7d"],
      ofFunctionText? options s = .ok (some (ofTrimmed options params text body))) ∧
    (∀ s ∈ ["lambda " ++ paramList params ++ ": " ++ text,
        "lambda(" ++ paramList params ++ "): " ++ text],
      ofLambdaText? options s = .ok (some (ofTrimmed options params text body))) ∧
    ∃ f, compile options params text = .ok f ∧ f.params = params ∧ f.body = body ∧
      ofFunctionText? options f.toText = .ok (some (ofTrimmed options params text body)) := by
  have hplain {keyword : List Char} (hkeyword : keyword = ['f'] ∨ keyword = ['f', 'n']) {s : String}
      (hs : s.toList =
        keyword ++ '(' :: ((paramList params).toList ++ ')' :: ' ' :: text.toList)) :
      ofFunctionText? options s = .ok (some (ofTrimmed options params text body)) :=
    ofFunctionText?_eq options hne hparams hbody hkeyword (bracedBody?_blank hbody) hs
  have hcolon : ':' ∉ (paramList params).toList :=
    not_mem_paramList hne hparams (by decide) (by decide) (by decide)
  refine ⟨?_, ?_, ?_⟩
  · simp only [List.forall_mem_cons, List.not_mem_nil, false_implies, implies_true, and_true]
    refine ⟨hplain (.inl rfl) ?_, hplain (.inr rfl) ?_,
      ofFunctionText?_eq options hne hparams hbody (.inl rfl) (bracedBody?_braces hbody) ?_⟩
    all_goals simp [String.toList_append]
  · simp only [List.forall_mem_cons, List.not_mem_nil, false_implies, implies_true, and_true]
    refine ⟨ofLambdaText?_eq options hne hparams hbody (lambdaParams?_blank hne hparams) ?_ ?_,
      ofLambdaText?_eq options hne hparams hbody (lambdaParams?_parens hne hparams) ?_ ?_⟩
    · simp [hcolon]
    · simp
    · simp [hcolon]
    · simp
  · refine ⟨⟨params, body, text, options.builtins, options.strict⟩, ?_, rfl, rfl,
      hplain (.inr rfl) ?_⟩
    · simp only [compile, hbody]
    · simp [toText, paramList]

/-- A body with a brace and a colon in quotes, a conditional, and a line break at its end. -/
theorem shorthands_agree_conditional :
    let text := "x ? '\x7d:' : f(y_1)\n"
    ∃ body, Expr.parse text = .ok body ∧
      ofFunctionText? .standard "f(x, y_1) \x7b x ? '\x7d:' : f(y_1)\n \x7d" =
        .ok (some (ofTrimmed .standard ["x", "y_1"] text body)) ∧
      ofLambdaText? .standard "lambda x, y_1: x ? '\x7d:' : f(y_1)\n" =
        .ok (some (ofTrimmed .standard ["x", "y_1"] text body)) := by
  intro text
  have hbody : ∃ body, Expr.parse text = .ok body := by decide +kernel
  obtain ⟨body, hbody⟩ := hbody
  have hnames : ∀ p ∈ ["x", "y_1"], isName p.toList = true := by decide
  obtain ⟨hfunction, hlambda, -⟩ :=
    shorthands_agree .standard (List.cons_ne_nil _ _) hnames hbody
  exact ⟨body, hbody, hfunction _ (by simp [text, paramList]),
    hlambda _ (by simp [text, paramList])⟩

end Formula

end RecordQuery
