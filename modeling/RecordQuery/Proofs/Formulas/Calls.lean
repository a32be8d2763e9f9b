import Mathlib
import RecordQuery.Proofs.Evaluation.Paths
import RecordQuery.Proofs.Formulas.Parameters

/-! # Formulas that return a parameter

The pieces of a parameter list are names or the list is refused. A name of the list is an expression
that means the parameter: a call finds it in the bindings before it looks into the record or at the
builtins, and of parameters of one name it finds the last.
-/

namespace RecordQuery

/-! ## Pieces of a list -/

/-- A run of characters that do not separate parameters, from one separator or end of the list to
the next. -/
def IsPieceOf (piece list : List Char) : Prop :=
  ∃ front back, list = front ++ (piece ++ back) ∧ (∀ c ∈ piece, separatesParams c = false) ∧
    (∀ c ∈ front.getLast?, separatesParams c = true) ∧ ∀ c ∈ back.head?, separatesParams c = true

variable {piece cs : List Char}

theorem paramPieces_ne_nil (cs : List Char) : paramPieces cs ≠ [] := by
  unfold paramPieces
  split
  · exact List.cons_ne_nil _ _
  · split
    · exact List.cons_ne_nil _ _
    · split
      · exact List.cons_ne_nil _ _
      · exact List.cons_ne_nil _ _

/-- A separator ends the pieces in front of it. -/
theorem paramPieces_append_cons {sep : Char} (hsep : separatesParams sep = true)
    (front rest : List Char) :
    paramPieces (front ++ sep :: rest) = paramPieces front ++ paramPieces rest := by
  induction front with
  | nil => simp [paramPieces, hsep]
  | cons c front ih =>
      obtain ⟨first, others, hfront⟩ := List.exists_cons_of_ne_nil (paramPieces_ne_nil front)
      by_cases hc : separatesParams c = true
      · simp [paramPieces, hc, ih]
      · simp [paramPieces, hc, ih, hfront]

/-- The first piece goes up to the first separator. -/
theorem paramPieces_cases (cs : List Char) :
    ∃ first, (∀ c ∈ first, separatesParams c = false) ∧
      (cs = first ∧ paramPieces cs = [first] ∨
        ∃ sep rest, separatesParams sep = true ∧ cs = first ++ sep :: rest ∧
          paramPieces cs = first :: paramPieces rest) := by
  have hfirst : ∀ c ∈ cs.takeWhile (!separatesParams ·), separatesParams c = false := by
    intro c hc
    simpa using List.mem_takeWhile_imp hc
  refine ⟨_, hfirst, ?_⟩
  have hsplit := List.takeWhile_append_dropWhile (p := (!separatesParams ·)) (l := cs)
  cases hrest : cs.dropWhile (!separatesParams ·) with
  | nil =>
      rw [hrest, List.append_nil] at hsplit
      rw [hsplit] at hfirst ⊢
      exact .inl ⟨rfl, paramPieces_name hfirst⟩
  | cons sep rest =>
      have hsep : separatesParams sep = true := by
        have hhead := List.head?_dropWhile_not (!separatesParams ·) cs
        simpa [hrest] using hhead
      refine .inr ⟨sep, rest, hsep, by rw [← hrest, hsplit], ?_⟩
      conv_lhs => rw [← hsplit, hrest]
      exact paramPieces_append hfirst hsep rest

theorem IsPieceOf.append_cons {sep : Char} {rest : List Char} (hsep : separatesParams sep = true)
    (h : IsPieceOf piece rest) (front : List Char) : IsPieceOf piece (front ++ sep :: rest) := by
  obtain ⟨before, back, rfl, hpiece, hbefore, hback⟩ := h
  refine ⟨front ++ sep :: before, back, by simp, hpiece, ?_, hback⟩
  cases before with
  | nil => simpa using hsep
  | cons c before => simpa using hbefore

/-- A list is cut into its pieces. -/
theorem mem_paramPieces_iff : piece ∈ paramPieces cs ↔ IsPieceOf piece cs := by
  constructor
  · intro h
    induction hlength : cs.length using Nat.strong_induction_on generalizing cs with
    | _ n ih =>
      obtain ⟨first, hfirst, ⟨rfl, hpieces⟩ | ⟨sep, rest, hsep, rfl, hpieces⟩⟩ :=
        paramPieces_cases cs
      · rw [hpieces, List.mem_singleton] at h
        subst h
        exact ⟨[], [], by simp, hfirst, nofun, nofun⟩
      · rw [hpieces, List.mem_cons] at h
        rcases h with rfl | h
        · refine ⟨[], sep :: rest, rfl, hfirst, nofun, ?_⟩
          rintro c ⟨⟩
          exact hsep
        · have hshort : rest.length < n := by
            rw [← hlength, List.length_append, List.length_cons]
            omega
          exact (ih _ hshort h rfl).append_cons hsep first
  · rintro ⟨front, back, rfl, hpiece, hfront, hback⟩
    have hmem : piece ∈ paramPieces (piece ++ back) := by
      cases back with
      | nil => simp [paramPieces_name hpiece]
      | cons sep back => simp [paramPieces_append hpiece (hback sep rfl)]
    rcases front.eq_nil_or_concat' with rfl | ⟨front, sep, rfl⟩
    · exact hmem
    · have hsep : separatesParams sep = true := hfront sep (by simp)
      rw [List.append_assoc, List.singleton_append, paramPieces_append_cons hsep]
      exact List.mem_append_right _ hmem

/-! ## Names in a list -/

/-- The names of parameters are those that expressions read as bare names. -/
theorem isName_iff :
    isName cs = true ↔ IsName (String.ofList cs) ∧ String.ofList cs ∉ Grammar.reserved := by
  have hreserved : reservedWords = Grammar.reserved := rfl
  cases cs with
  | nil =>
      refine iff_of_false Bool.false_ne_true ?_
      rintro ⟨⟨c, rest, h, -⟩, -⟩
      cases h
  | cons c rest =>
      simp only [isName, IsName, hreserved, Bool.and_eq_true, List.all_eq_true,
        Bool.not_eq_true', List.contains_eq_mem, decide_eq_false_iff_not, String.toList_ofList]
      apply and_congr_left'
      constructor
      · rintro ⟨hc, hrest⟩
        exact ⟨c, rest, rfl, hc, hrest⟩
      · rintro ⟨_, _, heq, hc, hrest⟩
        cases heq
        exact ⟨hc, hrest⟩

/-- A list is refused just when one of its pieces with characters is no name, or a reserved one. -/
theorem readParams?_eq_none_iff :
    readParams? cs = none ↔
      ∃ piece, IsPieceOf piece cs ∧ piece ≠ [] ∧
        ¬(IsName (String.ofList piece) ∧ String.ofList piece ∉ Grammar.reserved) := by
  have hall : readParams? cs = none ↔
      ((paramPieces cs).filter (· ≠ [])).all isName = false := by
    unfold readParams?
    generalize (paramPieces cs).filter (· ≠ []) = pieces
    cases pieces with
    | nil => simp
    | cons first others =>
        dsimp only
        split
        next h => simp [h]
        next h => simpa using h
  simp only [hall, List.all_eq_false, List.mem_filter, decide_eq_true_eq, mem_paramPieces_iff,
    isName_iff, and_assoc]

theorem isName_of_readParams? {params : List String} (h : readParams? cs = some params) :
    ∀ p ∈ params, IsName p ∧ p ∉ Grammar.reserved := by
  unfold readParams? at h
  split at h
  next =>
    obtain rfl := Option.some.inj h
    rw [List.forall_mem_singleton]
    exact ⟨Expr.isName_of_all rfl (by decide) (by decide), by decide⟩
  next =>
    split at h
    next hall =>
      obtain rfl := Option.some.inj h
      rw [List.forall_mem_map]
      intro piece hpiece
      exact isName_iff.mp (List.all_eq_true.mp hall piece hpiece)
    next => cases h

/-! ## Bindings of parameters -/

/-- The last position at which a list has a name. -/
structure IsLastPosition (params : List String) (name : String) (i : Nat) : Prop where
  here : params[i]? = some name
  last : ∀ j, i < j → params[j]? ≠ some name

section

variable {params : List String} {param name : String} {i : Nat}

theorem IsLastPosition.cons (h : IsLastPosition params name i) (param : String) :
    IsLastPosition (param :: params) name (i + 1) := by
  refine ⟨h.here, ?_⟩
  intro j hj
  obtain ⟨k, rfl⟩ := Nat.exists_eq_succ_of_ne_zero (Nat.ne_zero_of_lt hj)
  exact h.last k (Nat.lt_of_succ_lt_succ hj)

theorem isLastPosition_zero (h : name ∉ params) : IsLastPosition (name :: params) name 0 := by
  refine ⟨rfl, ?_⟩
  intro j hj hname
  obtain ⟨k, rfl⟩ := Nat.exists_eq_succ_of_ne_zero (Nat.ne_zero_of_lt hj)
  exact h (List.mem_of_getElem? hname)

theorem IsLastPosition.cases_cons (h : IsLastPosition (param :: params) name i) :
    i = 0 ∧ param = name ∧ name ∉ params ∨ ∃ k, i = k + 1 ∧ IsLastPosition params name k := by
  obtain ⟨hhere, hlast⟩ := h
  cases i with
  | zero =>
      refine .inl ⟨rfl, Option.some.inj hhere, ?_⟩
      intro hmem
      obtain ⟨k, hk⟩ := List.mem_iff_getElem?.mp hmem
      exact hlast (k + 1) (Nat.succ_pos k) hk
  | succ k => exact .inr ⟨k, rfl, hhere, fun j hj => hlast (j + 1) (Nat.succ_lt_succ hj)⟩

theorem exists_isLastPosition (h : name ∈ params) : ∃ i, IsLastPosition params name i := by
  induction params with
  | nil => cases h
  | cons param params ih =>
      by_cases hmem : name ∈ params
      · obtain ⟨i, hi⟩ := ih hmem
        exact ⟨i + 1, hi.cons param⟩
      · obtain rfl := (List.mem_cons.mp h).resolve_right hmem
        exact ⟨0, isLastPosition_zero hmem⟩

end

namespace Scope

variable {s : Scope} {name other : String}

theorem bindAll_cons (s : Scope) (pair : String × Value) (pairs : List (String × Value)) :
    s.bindAll (pair :: pairs) = (s.bind pair.1 pair.2).bindAll pairs := rfl

theorem binding?_bind_self (s : Scope) (name : String) (value : Value) :
    (s.bind name value).binding? name = some value := by
  simp [bind, binding?]

theorem lookup_filter_of_ne {pairs : List (String × Value)} (h : other ≠ name) :
    (pairs.filter fun pair => pair.1 != name).lookup other = pairs.lookup other := by
  induction pairs with
  | nil => rfl
  | cons pair pairs ih =>
      obtain ⟨key, value⟩ := pair
      by_cases hkey : key = name
      · subst hkey
        have hother : (other == key) = false := beq_false_of_ne h
        simp [List.lookup, hother, ih]
      · simp [List.lookup, hkey, ih]

theorem binding?_bind_of_ne (h : other ≠ name) (value : Value) :
    (s.bind name value).binding? other = s.binding? other := by
  have hother : (other == name) = false := beq_false_of_ne h
  simp only [bind, binding?, erase, List.lookup, hother]
  exact lookup_filter_of_ne h

end Scope

namespace Formula

variable {params : List String} {name : String}

theorem arguments_cons (param : String) (params : List String) (args : List Value) :
    arguments (param :: params) args =
      (param, args.head?.getD .undefined) :: arguments params args.tail := by
  cases args <;> rfl

/-- A name that is no parameter is bound as before. -/
theorem binding?_arguments_of_not_mem (h : name ∉ params) (s : Scope) (args : List Value) :
    (s.bindAll (arguments params args)).binding? name = s.binding? name := by
  induction params generalizing s args with
  | nil => rfl
  | cons param params ih =>
      rw [arguments_cons, Scope.bindAll_cons, ih (List.not_mem_of_not_mem_cons h),
        Scope.binding?_bind_of_ne (List.ne_of_not_mem_cons h)]

/-- A parameter is bound to the argument at the last position of its name. -/
theorem binding?_arguments {i : Nat} (h : IsLastPosition params name i) (s : Scope)
    (args : List Value) :
    (s.bindAll (arguments params args)).binding? name = some (args[i]?.getD .undefined) := by
  induction params generalizing s args i with
  | nil => cases h.here
  | cons param params ih =>
      rw [arguments_cons, Scope.bindAll_cons]
      rcases h.cases_cons with ⟨rfl, rfl, hrest⟩ | ⟨k, rfl, hk⟩
      · rw [binding?_arguments_of_not_mem hrest, Scope.binding?_bind_self, List.head?_eq_getElem?]
      · rw [ih hk, List.getElem?_tail]

theorem compile_eq_ok_iff {options : FormulaOptions} {params : List String} {source : String}
    {f : Formula} :
    compile options params source = .ok f ↔
      ∃ body, Expr.parse source = .ok body ∧
        f = ⟨params, body, source, options.builtins, options.strict⟩ := by
  rw [compile]
  cases hparse : Expr.parse source with
  | error e => simp
  | ok body => simp [eq_comm]

/-- A formula with a parameter as its body returns the argument, whatever else is in scope. -/
theorem run_ident {f : Formula} {i : Nat} (hbody : f.body = .ident name)
    (h : IsLastPosition f.params name i) (s : Scope) (args : List Value) :
    f.run s args = .ok (args[i]?.getD .undefined) := by
  rw [run, hbody, Expr.eval, Context.resolve, Scope.lookup, binding?_arguments h]

/-- Of a parameter list that is not refused, each name makes a formula as its body. The formula
returns the argument at the last position of the name, or undefined if there is none, whatever the
record and the builtins are. A list is refused just when one of its pieces is no name or a reserved
one. -/
theorem compile_parameter (cs : List Char) :
    (∀ params, readParams? cs = some params → ∀ name ∈ params, ∀ options,
      ∃ f i, compile options params name = .ok f ∧ IsLastPosition params name i ∧
        ∀ args, f.call args = .ok (args[i]?.getD .undefined) ∧
          ∀ env, f.callWith env args = .ok (args[i]?.getD .undefined)) ∧
    (readParams? cs = none ↔
      ∃ piece, IsPieceOf piece cs ∧ piece ≠ [] ∧
        ¬(IsName (String.ofList piece) ∧ String.ofList piece ∉ Grammar.reserved)) := by
  refine ⟨?_, readParams?_eq_none_iff⟩
  intro params hparams name hmem options
  obtain ⟨hname, hreserved⟩ := isName_of_readParams? hparams name hmem
  obtain ⟨i, hi⟩ := exists_isLastPosition hmem
  have hparse : Expr.parse name = .ok (.ident name) :=
    Grammar.SpellsPath.parse (.name hname hreserved)
  refine ⟨_, i, compile_eq_ok_iff.mpr ⟨_, hparse, rfl⟩, hi, fun args => ?_⟩
  exact ⟨run_ident rfl hi .empty args, fun env => run_ident rfl hi (.ofEnv env) args⟩

/-- The name of a library, twice in a list with a wide blank in it, and arguments for the first two
parameters: the last one has none. -/
theorem compile_parameter_repeated :
    readParams? "Math,\u2003x Math".toList = some ["Math", "x", "Math"] ∧
      ∃ f, compile .standard ["Math", "x", "Math"] "Math" = .ok f ∧
        f.callWith (.json (.object [("Math", .null)])) [.ofBool true, .ofBool false] =
          .ok .undefined := by
  have hparams : readParams? "Math,\u2003x Math".toList = some ["Math", "x", "Math"] := by
    decide +kernel
  obtain ⟨hnames, -⟩ := compile_parameter "Math,\u2003x Math".toList
  obtain ⟨f, i, hf, hi, hcall⟩ := hnames _ hparams "Math" List.mem_cons_self .standard
  have hlast : 2 ≤ i := by
    by_contra hlt
    exact hi.last 2 (Nat.lt_of_not_le hlt) rfl
  have hmissing : [Value.ofBool true, Value.ofBool false][i]? = none :=
    List.getElem?_eq_none hlast
  refine ⟨hparams, f, hf, ?_⟩
  rw [(hcall _).2, hmissing, Option.getD_none]

end Formula

end RecordQuery
