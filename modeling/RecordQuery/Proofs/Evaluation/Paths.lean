import RecordQuery.Proofs.Evaluation.Combinations
import RecordQuery.Proofs.Evaluation.WellFormed
import RecordQuery.Proofs.Printing.Layout

/-! # Paths of names

A composition of keys reads one property after another. So does the expression that has the keys as
names with points between them, if the first one means nothing but a field of the record.
-/

namespace RecordQuery

/-- A name that can mean nothing but a field of the record: it is not reserved, and there is no
builtin and no library of that name. -/
structure IsFieldName (key : String) : Prop where
  name : IsName key
  notReserved : key ∉ Grammar.reserved
  notBuiltin : BuiltinMap.standard.find? .global key = none
  notLibrary : key ∉ Builtin.libraries

/-- The tree of a path: a name, and the names of properties behind it. -/
def Expr.path (key : String) (keys : List String) : Expr :=
  keys.foldl .member (.ident key)

/-! ## The text of a path -/

namespace Grammar

open Token

/-- A text that is read as a phrase with suffixes wherever the last name in it can end. It opens no
levels. -/
def SpellsPath (cs : List Char) (e : Expr) : Prop :=
  ∃ ts, (∀ rest : List Char, (∀ d ∈ rest.head?, isIdentPart d = false) → ReadsAs cs ts rest) ∧
    Derives .suffixed ts e 0

namespace SpellsPath

theorem name {key : String} (hname : IsName key) (hreserved : key ∉ reserved) :
    SpellsPath key.toList (.ident key) :=
  ⟨[.ident key], fun _ hrest => kindsFrom_name hname hrest, .unsuffixed (.name hreserved)⟩

theorem member {cs : List Char} {e : Expr} {key : String} (h : SpellsPath cs e)
    (hkey : IsName key) : SpellsPath (cs ++ ['.'] ++ key.toList) (.member e key) := by
  obtain ⟨ts, hreads, hder⟩ := h
  refine ⟨_, fun rest hrest => ?_, .member hder⟩
  have hobject : ReadsAs cs ts (['.'] ++ key.toList ++ rest) :=
    hreads _ (by rintro d ⟨⟩; decide)
  have hdot : ReadsAs ['.'] [.punct .dot] (key.toList ++ rest) :=
    readsAs_punct (Expr.endsAt_dot hkey rest)
  have hname : ReadsAs key.toList [.ident key] rest := kindsFrom_name hkey hrest
  simpa using hobject.append (hdot.append hname)

theorem foldl_member {cs : List Char} {e : Expr} {keys : List String} (h : SpellsPath cs e)
    (hkeys : ∀ key ∈ keys, IsName key) :
    SpellsPath (keys.foldl (fun cs key => cs ++ ['.'] ++ key.toList) cs)
      (keys.foldl .member e) := by
  induction keys generalizing cs e with
  | nil => exact h
  | cons key keys ih =>
      obtain ⟨hkey, hkeys⟩ := List.forall_mem_cons.mp hkeys
      exact ih (h.member hkey) hkeys

theorem parse {text : String} {e : Expr} (h : SpellsPath text.toList e) :
    Expr.parse text = .ok e := by
  obtain ⟨ts, hreads, hder⟩ := h
  exact (parse_within (hreads [] (by rintro d ⟨⟩)) hder.asWhole).eq (by decide)

end SpellsPath

theorem parse_path {key : String} {keys : List String} (hname : IsName key)
    (hreserved : key ∉ reserved) (hkeys : ∀ k ∈ keys, IsName k) :
    Expr.parse (".".intercalate (key :: keys)) = .ok (.path key keys) := by
  refine SpellsPath.parse ?_
  rw [String.toList_intercalate, List.map_cons, intercalate_eq_foldl, List.foldl_map]
  exact (SpellsPath.name hname hreserved).foldl_member hkeys

end Grammar

/-! ## The value of a path -/

/-- What the environment does not have is undefined, as the property of a record is
that it lacks. -/
theorem Scope.lookup_ofEnv_getD (d : Value) (name : String) :
    ((Scope.ofEnv d).lookup name).getD .undefined = d.property name := by
  simp only [lookup, ofEnv, binding?, List.lookup_nil]
  split
  next h => cases h
  next fields h =>
      obtain rfl := Option.some.inj h
      rw [Value.property]
      cases Fields.get? fields name <;> rfl
  next env _ h =>
      obtain rfl := Option.some.inj h
      split
      next hproperty => rw [hproperty, Option.getD_none]
      next => rfl

namespace Context

/-- A name that means nothing else is a property of the environment, be it a record or not. -/
theorem resolve_ofEnv {key : String} (hkey : IsFieldName key) (d : Value) :
    (ofScope (.ofEnv d)).resolve key = .ok (d.property key) := by
  rw [← Scope.lookup_ofEnv_getD]
  simp only [resolve, ofScope]
  cases (Scope.ofEnv d).lookup key with
  | some v => rfl
  | none => simp [hkey.notBuiltin, hkey.notLibrary]

/-- Without strictness, a property of data is read as such: data is no library, and the properties
of null and undefined are undefined. -/
theorem readMember_of_isData {ctx : Context} (hstrict : ctx.strict = false) {v : Value}
    (hv : v.IsData) (key : String) : ctx.readMember v key = .ok (v.property key) := by
  cases v with
  | library name => exact hv.elim
  | undefined => simp [readMember, Value.isNullish, hstrict, Value.property]
  | function f => rfl
  | nonFinite x => rfl
  | json j =>
      cases j with
      | null => simp [readMember, Value.isNullish, hstrict, Value.property]
      | _ => rfl

end Context

namespace Expr

/-- Member reads after an expression with data as its value are the properties of that data. -/
theorem eval_foldl_member {ctx : Context} (hstrict : ctx.strict = false) {e : Expr} {v : Value}
    (heval : eval ctx e = .ok v) (hv : v.IsData) (keys : List String) :
    eval ctx (keys.foldl .member e) = .ok (keys.foldl .property v) := by
  induction keys generalizing e v with
  | nil => exact heval
  | cons key keys ih =>
      have hmember : eval ctx (.member e key) = .ok (v.property key) := by
        rw [eval, heval]
        exact Context.readMember_of_isData hstrict hv key
      exact ih hmember (Value.isData_property v key)

theorem eval_path {key : String} (hkey : IsFieldName key) (keys : List String) (d : Value) :
    eval (.ofScope (.ofEnv d)) (path key keys) = .ok ((key :: keys).foldl .property d) := by
  have hident : eval (.ofScope (.ofEnv d)) (.ident key) = .ok (d.property key) := by
    rw [eval]
    exact Context.resolve_ofEnv hkey d
  exact eval_foldl_member rfl hident (Value.isData_property d key) keys

end Expr

namespace Accessor

theorem call_compose_keys (keys : List String) (d : Value) :
    (compose (keys.map .text)).call d = .ok (keys.foldl .property d) := by
  change ((keys.map Spec.text).map property).foldlM (fun v a => a.call v) d = _
  induction keys generalizing d with
  | nil => rfl
  | cons key keys ih => exact ih (d.property key)

/-- A composition of keys agrees with the expression of the path through them, on records and all
other values. Only the first key must not mean anything else: the others may be reserved. -/
theorem compose_eq_path {key : String} {keys : List String} (hkey : IsFieldName key)
    (hkeys : ∀ k ∈ keys, IsName k) :
    ∃ a, expr (.text (".".intercalate (key :: keys))) = .ok a ∧
      ∀ d, (compose ((key :: keys).map .text)).call d = a.call d := by
  rw [expr_text, Grammar.parse_path hkey.name hkey.notReserved hkeys]
  refine ⟨_, rfl, fun d => ?_⟩
  rw [call_compose_keys]
  exact (Expr.eval_path hkey keys d).symm

/-- A reserved word and the length of a text behind a field. -/
theorem compose_eq_path_reserved :
    ∃ a, expr (.text "$x.null.length") = .ok a ∧
      (∀ d, (compose [.text "$x", .text "null", .text "length"]).call d = a.call d) ∧
      a.call (.json (.object [("$x", .object [("null", .string "abc")])])) = .ok (.ofInt 3) := by
  have hkey : IsFieldName "$x" :=
    ⟨Expr.isName_of_all rfl (by decide) (by decide), by decide, by decide, by decide⟩
  have hkeys : ∀ k ∈ ["null", "length"], IsName k := by
    simp only [List.mem_cons, List.not_mem_nil, or_false]
    rintro k (rfl | rfl)
    · exact Expr.isName_of_all rfl (by decide) (by decide)
    · exact Expr.isName_of_all rfl (by decide) (by decide)
  obtain ⟨a, ha, hcall⟩ := compose_eq_path hkey hkeys
  refine ⟨a, ha, hcall, ?_⟩
  rw [← hcall]
  rfl

end Accessor

end RecordQuery
