import Mathlib
import RecordQuery.Proofs.Formulas.Calls
import RecordQuery.Proofs.Formulas.Shorthand
import RecordQuery.Proofs.Results

/-! # The shape of function texts

A formula is read from a keyword, parameters in parentheses and a body, and its source is the body
without the blanks around it. The body may stand in braces. A brace that opens it is dropped, and so
is one at its end then; but nothing asks for the one at the end, so a body that is opened and never
closed makes a formula as well.
-/

namespace RecordQuery

/-! ## Blanks around a text -/

namespace Text

variable {cs after : List Char}

theorem exists_blanks_before (cs : List Char) :
    ∃ blanks, Blanks blanks ∧ cs = blanks ++ trimStart cs :=
  ⟨_, fun _ hc => List.mem_takeWhile_imp hc, List.takeWhile_append_dropWhile.symm⟩

theorem trimStart_concat {c : Char} (hc : isBlank c = false) (cs : List Char) :
    trimStart (cs ++ [c]) = trimStart cs ++ [c] := by
  by_cases hcs : trimStart cs = []
  · have hblanks : Blanks cs := List.dropWhile_eq_nil_iff.mp hcs
    rw [trimStart_append hblanks, hcs]
    exact trimStart_cons hc []
  · exact trimStart_append_of_ne_nil hcs [c]

theorem trim_append_blanks (h : Blanks after) (cs : List Char) : trim (cs ++ after) = trim cs := by
  by_cases hcs : trimStart cs = []
  · have hblanks : Blanks cs := List.dropWhile_eq_nil_iff.mp hcs
    have hafter : trimStart after = [] := List.dropWhile_eq_nil_iff.mpr h
    rw [trim_append hblanks, trim, hafter, trim, hcs]
  · rw [trim, trimStart_append_of_ne_nil hcs, trimEnd_append h, trim]

end Text

namespace Formula

/-! ## Bodies and what encloses them -/

/-- What stands around the body of a function text. -/
inductive Enclosure where
  | bare
  | braces
  | openBrace

/-- The text behind the parameters holds a body: as it stands, between two braces with blanks around
them, or behind a brace that no brace at the end closes. -/
inductive Encloses : Enclosure → List Char → List Char → Prop where
  | bare {body} (h : (Text.trimStart body).head? ≠ some '\x7b') : Encloses .bare body body
  | braces {before body after} (hbefore : Text.Blanks before) (hafter : Text.Blanks after) :
      Encloses .braces (before ++ '\x7b' :: (body ++ '\x7d' :: after)) body
  | openBrace {before body} (hbefore : Text.Blanks before)
      (h : (Text.trim body).getLast? ≠ some '\x7d') :
      Encloses .openBrace (before ++ '\x7b' :: body) body

variable {enclosure : Enclosure} {rest body : List Char}

theorem dropClosingBrace_concat (cs : List Char) :
    dropClosingBrace (cs ++ ['\x7d']) = Text.trimEnd cs := by
  simp [dropClosingBrace]

theorem dropClosingBrace_of_getLast? {cs : List Char} (h : cs.getLast? ≠ some '\x7d') :
    dropClosingBrace cs = cs := by
  rcases cs.eq_nil_or_concat' with rfl | ⟨front, c, rfl⟩
  · rfl
  · have hc : c ≠ '\x7d' := by simpa using h
    rw [dropClosingBrace, List.reverse_append, List.reverse_singleton, List.singleton_append]
    split
    next heq => exact absurd (List.cons.inj heq).1 hc
    next => rfl

theorem bracedBody?_bare (hne : rest ≠ []) (h : (Text.trimStart rest).head? ≠ some '\x7b') :
    bracedBody? rest = some (Text.trim rest) := by
  unfold bracedBody?
  split
  next => exact absurd rfl hne
  next heq => exact absurd (congrArg List.head? heq) h
  next heq => exact absurd (congrArg List.head? heq) h
  next => rfl

/-- The text that starts with a brace, apart from blanks. -/
theorem trimStart_brace {before : List Char} (hbefore : Text.Blanks before) (inner : List Char) :
    Text.trimStart (before ++ '\x7b' :: inner) = '\x7b' :: inner := by
  rw [Text.trimStart_append hbefore]
  exact Text.trimStart_cons (by decide) inner

theorem bracedBody?_brace {before inner : List Char} (hbefore : Text.Blanks before)
    (hne : inner ≠ []) :
    bracedBody? (before ++ '\x7b' :: inner) = some (dropClosingBrace (Text.trim inner)) := by
  have htrim := trimStart_brace hbefore inner
  unfold bracedBody?
  split
  next heq => simp at heq
  next heq _ => exact absurd (List.cons.inj (htrim.symm.trans heq)).2 hne
  next heq _ => rw [(List.cons.inj (htrim.symm.trans heq)).2]
  next hbrace => exact absurd htrim (hbrace inner)

theorem bracedBody?_loneBrace {before : List Char} (hbefore : Text.Blanks before) :
    bracedBody? (before ++ ['\x7b']) = some ['\x7b'] := by
  have htrim := trimStart_brace hbefore []
  unfold bracedBody?
  split
  next heq => simp at heq
  next => rfl
  next hinner heq _ => exact absurd (List.cons.inj (heq.symm.trans htrim)).2 hinner
  next hlone _ => exact absurd htrim hlone

/-- However a text begins and ends, it holds a body. -/
theorem exists_encloses (rest : List Char) : ∃ enclosure body, Encloses enclosure rest body := by
  by_cases hbrace : (Text.trimStart rest).head? = some '\x7b'
  · obtain ⟨inner, hinner⟩ := List.head?_eq_some_iff.mp hbrace
    obtain ⟨before, hbefore, hrest⟩ := Text.exists_blanks_before rest
    rw [hrest, hinner]
    by_cases hclosed : (Text.trim inner).getLast? = some '\x7d'
    · obtain ⟨front, hfront⟩ := List.getLast?_eq_some_iff.mp hclosed
      obtain ⟨start, after, hsplit, -, hafter⟩ := Text.exists_blanks_around inner
      rw [hfront, List.append_assoc, ← List.append_assoc] at hsplit
      rw [hsplit]
      exact ⟨.braces, start ++ front, .braces hbefore hafter⟩
    · exact ⟨.openBrace, inner, .openBrace hbefore hclosed⟩
  · exact ⟨.bare, rest, .bare hbrace⟩

namespace Encloses

/-- The body is found without the blanks around it, or it is blank and there is at most a brace. -/
theorem bracedBody?_eq (h : Encloses enclosure rest body) :
    bracedBody? rest = some (Text.trim body) ∨
      Text.trim body = [] ∧ ∀ found ∈ bracedBody? rest, found = ['\x7b'] := by
  cases h with
  | bare h =>
      by_cases hne : rest = []
      · subst hne
        exact .inr ⟨rfl, nofun⟩
      · exact .inl (bracedBody?_bare hne h)
  | @braces before _ after hbefore hafter =>
      left
      have hinner : Text.trim (body ++ '\x7d' :: after) = Text.trimStart body ++ ['\x7d'] := by
        rw [← List.singleton_append, ← List.append_assoc, Text.trim_append_blanks hafter, Text.trim,
          Text.trimStart_concat (by decide)]
        exact Text.trimEnd_concat (by decide) _
      rw [bracedBody?_brace hbefore (by simp), hinner, dropClosingBrace_concat, Text.trim]
  | openBrace hbefore h =>
      by_cases hne : body = []
      · subst hne
        rw [bracedBody?_loneBrace hbefore]
        exact .inr ⟨rfl, by simp⟩
      · left
        rw [bracedBody?_brace hbefore hne, dropClosingBrace_of_getLast? h]

end Encloses

/-! ## Function texts -/

/-- A keyword, parameters in parentheses, and a body behind them. -/
inductive IsFunctionText (enclosure : Enclosure) : List Char → List Char → List Char → Prop where
  | intro {keyword blanks params rest body} (hkeyword : keyword = ['f'] ∨ keyword = ['f', 'n'])
      (hblanks : Text.Blanks blanks) (hparams : ')' ∉ params)
      (hbody : Encloses enclosure rest body) :
      IsFunctionText enclosure (keyword ++ (blanks ++ '(' :: (params ++ ')' :: rest))) params body

variable {cs blanks params : List Char}

/-- Either keyword will do, and blanks between it and the parenthesis do not count. -/
theorem functionShorthand?_of_trimStart {keyword after : List Char}
    (hkeyword : keyword = ['f'] ∨ keyword = ['f', 'n'])
    (h : Text.trimStart after = '(' :: cs) :
    functionShorthand? (keyword ++ after) = functionShorthand? ('f' :: '(' :: cs) := by
  have hletter : ∀ more, after ≠ 'n' :: more := by
    rintro more rfl
    rw [Text.trimStart_cons (by decide)] at h
    cases h
  rcases hkeyword with rfl | rfl
  · simp only [functionShorthand?, List.cons_append, List.nil_append, Option.map_some, h]
    rfl
  · simp only [functionShorthand?, List.cons_append, List.nil_append, Option.map_some, h]
    rfl

theorem exists_keyword_of_functionShorthand? {s : Shorthand} (h : functionShorthand? cs = some s) :
    ∃ keyword after rest, (keyword = ['f'] ∨ keyword = ['f', 'n']) ∧ cs = keyword ++ after ∧
      Text.trimStart after = '(' :: rest ∧ functionShorthand? ('f' :: '(' :: rest) = some s := by
  unfold functionShorthand? at h
  split at h
  next after =>
    simp only [Option.map_some] at h
    split at h
    next rest hopen =>
      exact ⟨['f', 'n'], after, rest, .inr rfl, rfl, Option.some.inj hopen, h⟩
    next => cases h
  next after _ =>
    simp only [Option.map_some] at h
    split at h
    next rest hopen =>
      exact ⟨['f'], after, rest, .inl rfl, rfl, Option.some.inj hopen, h⟩
    next => cases h
  next => cases h

theorem functionShorthand?_unclosed (h : ')' ∉ cs) :
    functionShorthand? ('f' :: '(' :: cs) = none := by
  have hnone : cs.dropWhile (· ≠ ')') = [] := by
    rw [List.dropWhile_eq_nil_iff]
    intro c hc
    exact decide_eq_true (ne_of_mem_of_not_mem hc h)
  have hopen : Text.trimStart ('(' :: cs) = '(' :: cs := Text.trimStart_cons (by decide) cs
  rw [← functionShorthand?_of_trimStart (.inr rfl) hopen]
  simp only [functionShorthand?, List.cons_append, List.nil_append, Option.map_some, hopen, hnone]

/-- A function text is taken apart into its parameters and the body behind them. -/
theorem functionShorthand?_eq_some_iff {s : Shorthand} :
    functionShorthand? cs = some s ↔
      ∃ keyword blanks rest, (keyword = ['f'] ∨ keyword = ['f', 'n']) ∧ Text.Blanks blanks ∧
        ')' ∉ s.params ∧ cs = keyword ++ (blanks ++ '(' :: (s.params ++ ')' :: rest)) ∧
        bracedBody? rest = some s.body := by
  have hopened (params rest : List Char) (hparams : ')' ∉ params) :
      functionShorthand? ('f' :: '(' :: (params ++ ')' :: rest)) =
        (bracedBody? rest).map fun body => ⟨params, body⟩ :=
    functionShorthand?_append (.inl rfl) hparams rest
  constructor
  · intro h
    obtain ⟨keyword, after, inner, hkeyword, hcs, hinner, hshort⟩ :=
      exists_keyword_of_functionShorthand? h
    obtain ⟨blanks, hblanks, hafter⟩ := Text.exists_blanks_before after
    have hclosed : ')' ∈ inner := by
      by_contra hopen
      rw [functionShorthand?_unclosed hopen] at hshort
      cases hshort
    obtain ⟨params, rest, rfl, hparams⟩ := List.eq_append_cons_of_mem hclosed
    rw [hopened params rest hparams] at hshort
    obtain ⟨body, hbody, rfl⟩ := Option.map_eq_some_iff.mp hshort
    rw [hafter, hinner] at hcs
    exact ⟨keyword, blanks, rest, hkeyword, hblanks, hparams, hcs, hbody⟩
  · rintro ⟨keyword, blanks, rest, hkeyword, hblanks, hparams, rfl, hbody⟩
    have htrim : Text.trimStart (blanks ++ '(' :: (s.params ++ ')' :: rest)) =
        '(' :: (s.params ++ ')' :: rest) := by
      rw [Text.trimStart_append hblanks]
      exact Text.trimStart_cons (by decide) _
    rw [functionShorthand?_of_trimStart hkeyword htrim, hopened _ _ hparams, hbody]
    rfl

/-! ## Formulas of function texts -/

variable {options : FormulaOptions} {f : Formula}

theorem eq_of_compile {names : List String} {source : String}
    (h : compile options names source = .ok f) : f.params = names ∧ f.source = source := by
  obtain ⟨_, _, rfl⟩ := compile_eq_ok_iff.mp h
  exact ⟨rfl, rfl⟩

/-- A shorthand gives a formula if its parameters are names and its body is an expression. -/
theorem ofShorthand?_eq_some_iff {params body : List Char} :
    ofShorthand? options (some ⟨params, body⟩) = .ok (some f) ↔
      readParams? params = some f.params ∧
        compile options f.params (String.ofList body) = .ok f := by
  cases hnames : readParams? params with
  | none => simp [ofShorthand?, hnames]
  | some names =>
      have hread : ofShorthand? options (some ⟨params, body⟩) =
          (compile options names (String.ofList body)).map some := by
        simp only [ofShorthand?, hnames]
      rw [hread, map_eq_ok_iff]
      constructor
      · rintro ⟨g, hg, heq⟩
        obtain rfl := Option.some.inj heq
        rw [(eq_of_compile hg).1]
        exact ⟨rfl, hg⟩
      · rintro ⟨heq, hf⟩
        obtain rfl := Option.some.inj heq
        exact ⟨f, hf, rfl⟩

/-- Neither a blank text nor a brace is an expression. -/
theorem parse_ne_ok_of_mem {cs : List Char} (h : cs = [] ∨ cs = ['\x7b']) (e : Expr) :
    Expr.parse (String.ofList cs) ≠ .ok e := by
  intro hparse
  obtain ⟨c, rest, htrim, -, hc⟩ := Expr.trim_eq_cons_of_parse hparse
  rcases h with rfl | rfl
  · cases htrim
  · cases htrim
    exact hc rfl

section

variable {text : String}

/-- What is taken apart is a function text. -/
theorem exists_isFunctionText (h : ofFunctionText? options text = .ok (some f)) :
    ∃ enclosure params body, IsFunctionText enclosure text.toList params body ∧
      readParams? params = some f.params ∧
        compile options f.params (String.ofList (Text.trim body)) = .ok f := by
  rw [ofFunctionText?] at h
  cases hshort : functionShorthand? text.toList with
  | none =>
      rw [hshort] at h
      cases h
  | some s =>
      rw [hshort, ofShorthand?_eq_some_iff] at h
      obtain ⟨hparams, hcompile⟩ := h
      obtain ⟨keyword, blanks, rest, hkeyword, hblanks, hparen, htext, hfound⟩ :=
        functionShorthand?_eq_some_iff.mp hshort
      obtain ⟨enclosure, body, hbody⟩ := exists_encloses rest
      refine ⟨enclosure, s.params, body, ?_, hparams, ?_⟩
      · rw [htext]
        exact .intro hkeyword hblanks hparen hbody
      · rcases hbody.bracedBody?_eq with htrim | ⟨-, hlone⟩
        · rwa [← Option.some.inj (hfound.symm.trans htrim)]
        · obtain ⟨e, hparse, -⟩ := compile_eq_ok_iff.mp hcompile
          exact absurd hparse (parse_ne_ok_of_mem (.inr (hlone _ hfound)) e)

/-- A function text gives a formula if its parameters are names and its body is an expression. -/
theorem IsFunctionText.ofFunctionText?_eq
    (h : IsFunctionText enclosure text.toList params body)
    (hparams : readParams? params = some f.params)
    (hcompile : compile options f.params (String.ofList (Text.trim body)) = .ok f) :
    ofFunctionText? options text = .ok (some f) := by
  rw [ofFunctionText?]
  generalize text.toList = cs at h
  obtain @⟨keyword, blanks, _, rest, _, hkeyword, hblanks, hparen, hbody⟩ := h
  have hfound : bracedBody? rest = some (Text.trim body) := by
    refine hbody.bracedBody?_eq.resolve_right ?_
    rintro ⟨hblank, -⟩
    obtain ⟨e, hparse, -⟩ := compile_eq_ok_iff.mp hcompile
    exact parse_ne_ok_of_mem (.inl hblank) e hparse
  have hshort : functionShorthand? (keyword ++ (blanks ++ '(' :: (params ++ ')' :: rest))) =
      some ⟨params, Text.trim body⟩ :=
    functionShorthand?_eq_some_iff.mpr
      ⟨keyword, blanks, rest, hkeyword, hblanks, hparen, rfl, hfound⟩
  rw [hshort, ofShorthand?_eq_some_iff]
  exact ⟨hparams, hcompile⟩

/-- A formula is read from a text just when the text is a keyword, parameters in parentheses that
are names, and a body that is an expression: bare, in braces, or behind a brace that is never
closed. The source of the formula is the body without the blanks around it. -/
theorem ofFunctionText?_eq_some_iff :
    ofFunctionText? options text = .ok (some f) ↔
      ∃ enclosure params body, IsFunctionText enclosure text.toList params body ∧
        readParams? params = some f.params ∧ f.source = String.ofList (Text.trim body) ∧
        compile options f.params f.source = .ok f := by
  constructor
  · intro h
    obtain ⟨enclosure, params, body, hshape, hparams, hcompile⟩ := exists_isFunctionText h
    have hsource : f.source = String.ofList (Text.trim body) := (eq_of_compile hcompile).2
    rw [← hsource] at hcompile
    exact ⟨enclosure, params, body, hshape, hparams, hsource, hcompile⟩
  · rintro ⟨enclosure, params, body, hshape, hparams, hsource, hcompile⟩
    rw [hsource] at hcompile
    exact hshape.ofFunctionText?_eq hparams hcompile

end

/-- What stands behind the first closing parenthesis holds the body. -/
theorem IsFunctionText.exists_encloses (h : IsFunctionText enclosure cs params body) :
    ∃ rest, cs.dropWhile (· ≠ ')') = ')' :: rest ∧ Encloses enclosure rest body := by
  obtain @⟨keyword, blanks, _, rest, _, hkeyword, hblanks, hparen, hbody⟩ := h
  have hfront : ')' ∉ keyword ++ (blanks ++ '(' :: params) := by
    have hblank : ')' ∉ blanks := fun hmem => absurd (hblanks _ hmem) (by decide)
    rcases hkeyword with rfl | rfl
    · simp [hblank, hparen]
    · simp [hblank, hparen]
  have hdrop := dropWhile_ne hfront rest
  simp only [List.append_assoc, List.cons_append] at hdrop
  exact ⟨rest, hdrop, hbody⟩

/-- A body with a brace in front and none behind has no other shape. -/
theorem Encloses.eq_openBrace {before inner : List Char} (hbefore : Text.Blanks before)
    (hinner : '\x7d' ∉ inner) (h : Encloses enclosure (before ++ '\x7b' :: inner) body) :
    enclosure = .openBrace := by
  generalize hrest : before ++ '\x7b' :: inner = rest at h
  cases h with
  | bare hopen =>
      rw [← hrest, trimStart_brace hbefore] at hopen
      exact absurd rfl hopen
  | @braces start _ after hstart hafter =>
      have hsame := congrArg Text.trimStart hrest
      rw [trimStart_brace hbefore, trimStart_brace hstart] at hsame
      rw [(List.cons.inj hsame).2] at hinner
      exact absurd (List.mem_append_right _ List.mem_cons_self) hinner
  | openBrace => rfl

/-- A brace that opens the body and none that closes it: the text has no shape with a brace at both
ends or at none, and still makes a formula. -/
theorem ofFunctionText?_openBrace :
    (∃ f, ofFunctionText? .standard "f(a) \x7bb" = .ok (some f) ∧ f.source = "b") ∧
      ∀ enclosure params body, IsFunctionText enclosure "f(a) \x7bb".toList params body →
        enclosure = .openBrace := by
  have hblanks : Text.Blanks [' '] := Text.blanks_space
  have htext : "f(a) \x7bb".toList =
      ['f'] ++ ([] ++ '(' :: (['a'] ++ ')' :: ([' '] ++ '\x7b' :: ['b']))) := rfl
  constructor
  · have hshape : IsFunctionText .openBrace "f(a) \x7bb".toList ['a'] ['b'] := by
      rw [htext]
      exact .intro (.inl rfl) (List.forall_mem_nil _) (by decide) (.openBrace hblanks (by decide))
    have hparse : ∃ body, Expr.parse "b" = .ok body := by decide +kernel
    obtain ⟨body, hbody⟩ := hparse
    refine ⟨⟨["a"], body, "b", .standard, false⟩, ?_, rfl⟩
    apply hshape.ofFunctionText?_eq rfl
    exact compile_eq_ok_iff.mpr ⟨body, hbody, rfl⟩
  · intro enclosure params body h
    obtain ⟨rest, hdrop, hrest⟩ := h.exists_encloses
    obtain rfl : [' '] ++ '\x7b' :: ['b'] = rest := (List.cons.inj hdrop).2
    exact hrest.eq_openBrace hblanks (by decide)

end Formula

end RecordQuery
