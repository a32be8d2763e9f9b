import Mathlib
import RecordQuery.Proofs.Evaluation.Paths
import RecordQuery.Proofs.Lexing.Partition
import RecordQuery.Proofs.Records

/-! # Sanitized keys

A key is made into a name for the expressions of accessors. It keeps its first character if that is
a letter, and gets an underscore in front of a digit. A numeral of another kind is neither: names go
on with it, but none starts with it, and a key in front of which it stands becomes no name.
-/

namespace RecordQuery

open Token RecordQuery.Parser

/-- The characters that a key keeps. -/
def isKeyPart (c : Char) : Bool := Text.isAlphanumeric c || c == '_'

/-- Numerals that are no letters, apart from the decimal digits of ASCII. -/
def isStrayNumeral (c : Char) : Bool :=
  Text.isAlphanumeric c && !Text.isAlphabetic c && !c.isDigit

/-- What a character of a key becomes. -/
def sanitizeChar (c : Char) : Char := if isKeyPart c then c else '_'

/-- The name that is made of a key. -/
def sanitized (key : String) : String := String.ofList (sanitizeKey key.toList)

/-! ## The form of sanitized keys -/

/-- The characters of a sanitized key. An underscore at the end is the only character. -/
structure IsSanitized (name : List Char) : Prop where
  part : ∀ c ∈ name, isKeyPart c = true
  front : ∀ c ∈ name.head?, c.isDigit = false
  last : name.tail.getLast? ≠ some '_'

theorem isKeyPart_sanitizeChar (c : Char) : isKeyPart (sanitizeChar c) = true := by
  rw [sanitizeChar]
  split
  next h => exact h
  next => decide

theorem rdropWhile_underscore_eq_self_iff {cs : List Char} :
    cs.rdropWhile (· == '_') = cs ↔ cs.getLast? ≠ some '_' := by
  rw [List.rdropWhile_eq_self_iff]
  rcases cs.eq_nil_or_concat' with rfl | ⟨front, d, rfl⟩
  · simp
  · simp

/-- The characters one by one, without the underscores at the end, and with one before a digit. -/
theorem sanitizeKey_cons (c : Char) (rest : List Char) : sanitizeKey (c :: rest) =
    if (sanitizeChar c).isDigit then
      '_' :: sanitizeChar c :: (rest.map sanitizeChar).rdropWhile (· == '_')
    else sanitizeChar c :: (rest.map sanitizeChar).rdropWhile (· == '_') := rfl

/-- A sanitized key is what it would be made into. -/
theorem sanitizeKey_eq_self {name : List Char} (h : IsSanitized name) :
    sanitizeKey name = name := by
  cases name with
  | nil => rfl
  | cons c rest =>
      have hkeep : ∀ d ∈ c :: rest, sanitizeChar d = d := fun d hd => if_pos (h.part d hd)
      obtain ⟨hc, hrest⟩ := List.forall_mem_cons.mp hkeep
      have hdrop : rest.rdropWhile (· == '_') = rest := rdropWhile_underscore_eq_self_iff.mpr h.last
      rw [sanitizeKey_cons, hc, List.map_congr_left hrest, List.map_id', hdrop,
        if_neg (Bool.eq_false_iff.mp (h.front c rfl))]

theorem isSanitized_sanitizeKey (key : List Char) : IsSanitized (sanitizeKey key) := by
  cases key with
  | nil => exact ⟨nofun, nofun, nofun⟩
  | cons c rest =>
      rw [sanitizeKey_cons]
      generalize hmore : (rest.map sanitizeChar).rdropWhile (· == '_') = more
      have hlast : more.getLast? ≠ some '_' := by
        rw [← rdropWhile_underscore_eq_self_iff, ← hmore, List.rdropWhile_idempotent]
      have hpart : ∀ d ∈ sanitizeChar c :: more, isKeyPart d = true := by
        refine List.forall_mem_cons.mpr ⟨isKeyPart_sanitizeChar c, fun d hd => ?_⟩
        rw [← hmore] at hd
        obtain ⟨e, -, rfl⟩ := List.mem_map.mp ((List.rdropWhile_prefix _ _).mem hd)
        exact isKeyPart_sanitizeChar e
      split
      next hdigit =>
        refine ⟨List.forall_mem_cons.mpr ⟨by decide, hpart⟩, by rintro d ⟨⟩; decide, ?_⟩
        rw [List.tail_cons, List.getLast?_cons]
        -- Behind the new underscore stands a digit, so no underscore is the last character.
        cases hget : more.getLast? with
        | none =>
            intro heq
            rw [Option.getD_none, Option.some.injEq] at heq
            rw [heq] at hdigit
            exact absurd hdigit (by decide)
        | some d => exact hget ▸ hlast
      next hdigit => exact ⟨hpart, by rintro d ⟨⟩; exact Bool.eq_false_iff.mpr hdigit, hlast⟩

theorem sanitized_sanitized (key : String) : sanitized (sanitized key) = sanitized key := by
  rw [sanitized, sanitized, String.toList_ofList, sanitizeKey_eq_self (isSanitized_sanitizeKey _)]

/-! ## Sanitized keys as names -/

theorem isIdentPart_of_isKeyPart {c : Char} (h : isKeyPart c = true) : isIdentPart c = true := by
  rw [isKeyPart] at h
  rw [isIdentPart, h, Bool.true_or]

/-- What stands in front of a sanitized key. -/
theorem head?_sanitizeKey (c : Char) (rest : List Char) : (sanitizeKey (c :: rest)).head? =
    some (if isKeyPart c && !c.isDigit then c else '_') := by
  rw [sanitizeKey_cons, sanitizeChar]
  cases hpart : isKeyPart c with
  | false => rfl
  | true => cases hdigit : c.isDigit <;> simp [hdigit]

theorem isIdentStart_front (c : Char) :
    isIdentStart (if isKeyPart c && !c.isDigit then c else '_') = !isStrayNumeral c := by
  by_cases hunderscore : c = '_'
  · subst hunderscore
    decide
  by_cases hdollar : c = '$'
  · subst hdollar
    decide
  have hstart : isIdentStart c = Text.isAlphabetic c := by
    rw [isIdentStart, beq_false_of_ne hunderscore, beq_false_of_ne hdollar, Bool.or_false,
      Bool.or_false]
  have hpart : isKeyPart c = Text.isAlphanumeric c := by
    rw [isKeyPart, beq_false_of_ne hunderscore, Bool.or_false]
  rw [hpart, isStrayNumeral, Bool.and_right_comm]
  split
  next h => rw [h, hstart, Bool.true_and, Bool.not_not]
  next h =>
    rw [Bool.eq_false_iff.mpr h, Bool.false_and, Bool.not_false]
    decide

variable {key : String} {c : Char} {rest : List Char}

/-- A key becomes a name, unless a stray numeral stands in front of it. -/
theorem isName_sanitized (hkey : key.toList = c :: rest) (hc : isStrayNumeral c = false) :
    IsName (sanitized key) := by
  have hpart := (isSanitized_sanitizeKey (c :: rest)).part
  obtain ⟨more, hname⟩ := List.head?_eq_some_iff.mp (head?_sanitizeKey c rest)
  rw [hname] at hpart
  refine ⟨_, more, by rw [sanitized, String.toList_ofList, hkey, hname], ?_, fun d hd => ?_⟩
  · rw [isIdentStart_front, hc, Bool.not_false]
  · exact isIdentPart_of_isKeyPart (hpart d (List.mem_cons_of_mem _ hd))

theorem scan_of_isName {name : String} (h : IsName name) :
    scan name = .ok ⟨[⟨.ident name, 0⟩], byteLength name.toList⟩ := by
  obtain ⟨d, more, hname, hd, hmore⟩ := h
  have hlexeme : readLexeme 0 d (more ++ []) = .ok ⟨.ident (String.ofList (d :: more)), _⟩ :=
    readLexeme_name hd hmore (by rintro e ⟨⟩) 0
  rw [List.append_nil, ← hname, String.ofList_toList] at hlexeme
  have hpiece : IsPiece (.ident name) (d :: (more.take more.length ++ [])) [] :=
    isPiece_of_readLexeme (isBlank_of_isIdentPart (isIdentPart_of_isIdentStart hd)) hlexeme
      (List.forall_mem_nil _) (List.drop_length ..)
  rw [List.append_nil, List.take_length, ← hname] at hpiece
  rw [scan, hpiece.alone, byteLength_eq_utf8Len]

/-- The lexer stops at a stray numeral in front. -/
theorem scan_sanitized_of_isStrayNumeral (hkey : key.toList = c :: rest)
    (hc : isStrayNumeral c = true) : scan (sanitized key) = .error (.unexpectedChar c 0) := by
  obtain ⟨⟨hnumeric, -⟩, hdigit⟩ :
      (Text.isAlphanumeric c = true ∧ Text.isAlphabetic c = false) ∧ c.isDigit = false := by
    simpa [isStrayNumeral] using hc
  have hkept : isKeyPart c = true := by rw [isKeyPart, hnumeric, Bool.true_or]
  have hfront : (if isKeyPart c && !c.isDigit then c else '_') = c := by simp [hkept, hdigit]
  have hstart := isIdentStart_front c
  have hhead := head?_sanitizeKey c rest
  rw [hfront, hc, Bool.not_true] at hstart
  rw [hfront] at hhead
  obtain ⟨more, hname⟩ := List.head?_eq_some_iff.mp hhead
  have hpart := isIdentPart_of_isKeyPart hkept
  rw [scan, sanitized, String.toList_ofList, hkey, hname, scanFrom,
    if_neg (Bool.eq_false_iff.mp (isBlank_of_isIdentPart hpart)),
    readLexeme_stranded hpart ⟨hstart, hdigit⟩]

/-! ## Fields under their names -/

/-- The value of the last field whose key is made into a name. -/
def Fields.lastNamed? (fields : Fields) (name : String) : Option Json :=
  (fields.reverse.find? fun field => sanitized field.1 == name).map Prod.snd

namespace Fields

variable {front back : Fields} {key name : String} {value : Json}

theorem get?_sanitizeFields_eq (fields : Fields) (name : String) :
    (sanitizeFields fields).get? name = fields.lastNamed? name := by
  change (insertAll [] (fields.map fun field => (sanitized field.1, field.2))).get? name = _
  rw [get?_insertAll_map, get?_nil, Option.or_none]
  rfl

theorem lastNamed?_eq_none_iff {fields : Fields} :
    fields.lastNamed? name = none ↔ ∀ field ∈ fields, sanitized field.1 ≠ name := by
  simp [lastNamed?, List.find?_eq_none]

/-- The fields behind a field of that name come before it, and those in front of it do not count. -/
theorem lastNamed?_append_cons (hkey : sanitized key = name) :
    (front ++ (key, value) :: back).lastNamed? name =
      some ((back.lastNamed? name).getD value) := by
  rw [lastNamed?, List.reverse_append, List.reverse_cons, List.append_assoc, List.find?_append]
  cases hlast : back.reverse.find? fun field => sanitized field.1 == name with
  | none => simp [lastNamed?, hlast, hkey]
  | some field => simp [lastNamed?, hlast]

/-- Of the fields whose keys become the same, the last one is read. -/
theorem get?_sanitizeFields (front back : Fields) (field : String × Json)
    (hback : ∀ other ∈ back, sanitized other.1 ≠ sanitized field.1) :
    (sanitizeFields (front ++ field :: back)).get? (sanitized field.1) = some field.2 := by
  rw [get?_sanitizeFields_eq, lastNamed?_append_cons rfl, lastNamed?_eq_none_iff.mpr hback,
    Option.getD_none]

end Fields

/-- An expression with sanitized keys reads the last of the fields whose keys become its text. -/
def NamesField (name : String) : Prop :=
  ∀ strict, ∃ a, Accessor.exprWith ⟨strict, true⟩ (.text name) = .ok a ∧
    ∀ (front back : Fields) (field : String × Json), sanitized field.1 = name →
      (∀ other ∈ back, sanitized other.1 ≠ name) →
      a.call (.json (.object (front ++ field :: back))) = .ok (.json field.2)

theorem Accessor.exprWith_of_isName {name : String} (h : IsName name) (options : ExprOptions) :
    exprWith options (.text name) = .ok (new name fun d =>
      let env := if options.sanitizeKeys then sanitizeRecord d else d
      (nameExpr name).eval ⟨.ofEnv env, .standard, options.strict⟩) := by
  have hparse : Expr.parse name = .ok (nameExpr name) :=
    Grammar.SpellsPath.parse ⟨[.ident name], fun _ hrest => kindsFrom_name h hrest,
      .unsuffixed (Grammar.nameExpr_derives name)⟩
  simp only [exprWith, Formula.compile, hparse]
  rfl

theorem Context.resolve_of_get? {fields : Fields} {name : String} {j : Json}
    (h : fields.get? name = some j) (builtins : BuiltinMap) (strict : Bool) :
    resolve ⟨.ofEnv (.json (.object fields)), builtins, strict⟩ name = .ok (.json j) := by
  simp [resolve, Scope.lookup, Scope.ofEnv, Scope.binding?, h]

theorem nameExpr_eval_of_mem_reserved {name : String} (h : name ∈ Grammar.reserved)
    (ctx ctx' : Context) : (nameExpr name).eval ctx = (nameExpr name).eval ctx' := by
  simp only [Grammar.reserved, List.mem_cons, List.not_mem_nil, or_false] at h
  rcases h with rfl | rfl | rfl | rfl <;> rfl

/-- A name reads the fields whose keys become it, if it stands for no constant. -/
theorem namesField_iff {name : String} (hname : IsName name) (hsanitized : sanitized name = name) :
    NamesField name ↔ name ∉ Grammar.reserved := by
  constructor
  · intro hnames hreserved
    -- A constant is the same on two records that differ in the field.
    obtain ⟨a, ha, hcall⟩ := hnames false
    rw [Accessor.exprWith_of_isName hname] at ha
    obtain rfl := Except.ok.inj ha
    have htrue := hcall [] [] (name, .bool true) hsanitized (List.forall_mem_nil _)
    have hfalse := hcall [] [] (name, .bool false) hsanitized (List.forall_mem_nil _)
    have hsame := nameExpr_eval_of_mem_reserved hreserved
      ⟨.ofEnv (sanitizeRecord (.json (.object [(name, .bool true)]))), .standard, false⟩
      ⟨.ofEnv (sanitizeRecord (.json (.object [(name, .bool false)]))), .standard, false⟩
    cases htrue.symm.trans (hsame.trans hfalse)
  · intro hreserved strict
    refine ⟨_, Accessor.exprWith_of_isName hname _, fun front back field hfield hback => ?_⟩
    subst hfield
    have hget := Fields.get?_sanitizeFields front back field hback
    change (nameExpr _).eval _ = _
    rw [Grammar.nameExpr_of_not_mem_reserved hreserved, Expr.eval]
    exact Context.resolve_of_get? hget _ _

theorem not_namesField_of_scan {name : String} {e : SyntaxError} (h : scan name = .error e) :
    ¬ NamesField name := by
  intro hnames
  obtain ⟨a, ha, -⟩ := hnames false
  simp only [Accessor.exprWith, Formula.compile, Expr.parse, h] at ha
  cases ha

/-- Keys with characters are sanitized once and for all. They become one name, unless a
stray numeral stands in front, where the lexer stops; and the name reads the field,
unless it is reserved. -/
theorem sanitized_isName (hkey : key.toList = c :: rest) :
    sanitized (sanitized key) = sanitized key ∧
      scan (sanitized key) = (if isStrayNumeral c then .error (.unexpectedChar c 0)
        else .ok ⟨[⟨.ident (sanitized key), 0⟩], byteLength (sanitized key).toList⟩) ∧
      (NamesField (sanitized key) ↔
        isStrayNumeral c = false ∧ sanitized key ∉ Grammar.reserved) := by
  refine ⟨sanitized_sanitized key, ?_⟩
  cases hc : isStrayNumeral c with
  | true =>
      have hscan := scan_sanitized_of_isStrayNumeral hkey hc
      exact ⟨hscan, iff_of_false (not_namesField_of_scan hscan) nofun⟩
  | false =>
      have hname := isName_sanitized hkey hc
      refine ⟨scan_of_isName hname, ?_⟩
      rw [namesField_iff hname (sanitized_sanitized key), eq_self_iff_true, true_and]

/-- A digit in front gets an underscore, and of two fields whose keys become the same the last one
is read. -/
theorem sanitized_isName_digit :
    "2 £".toList = ['2', ' ', '£'] ∧ sanitized "2 £" = "_2" ∧ sanitized "_2" = "_2" ∧
      scan "_2" = .ok ⟨[⟨.ident "_2", 0⟩], 2⟩ ∧
      ∀ strict, ∃ a, Accessor.exprWith ⟨strict, true⟩ (.text "_2") = .ok a ∧
        a.call (.json (.object [("2 €", .null), ("2 £", .bool true), ("2", .bool false)])) =
          .ok (.json (.bool false)) := by
  have hkey : "2 £".toList = ['2', ' ', '£'] := rfl
  have hname : sanitized "2 £" = "_2" := by decide +kernel
  obtain ⟨hagain, hscan, hnames⟩ := sanitized_isName hkey
  have hstray : isStrayNumeral '2' = false := by decide +kernel
  rw [hname] at hagain hscan hnames
  rw [hstray] at hscan
  refine ⟨hkey, hname, hagain, hscan, fun strict => ?_⟩
  obtain ⟨a, ha, hcall⟩ := hnames.mpr ⟨hstray, by decide⟩ strict
  refine ⟨a, ha, hcall [("2 €", .null), ("2 £", .bool true)] [] ("2", .bool false) ?_ ?_⟩
  · decide +kernel
  · exact List.forall_mem_nil _

/-- The fullwidth digit two in front gets no underscore, and it starts no name. -/
theorem sanitized_not_isName :
    let key := "\uff12nd"
    sanitized key = key ∧ scan key = .error (.unexpectedChar '\uff12' 0) ∧ ¬ NamesField key := by
  intro key
  have hkey : key.toList = ['\uff12', 'n', 'd'] := by decide +kernel
  have hname : sanitized key = key := by decide +kernel
  have hscan := scan_sanitized_of_isStrayNumeral hkey (by decide +kernel)
  rw [hname] at hscan
  exact ⟨hname, hscan, not_namesField_of_scan hscan⟩

end RecordQuery
