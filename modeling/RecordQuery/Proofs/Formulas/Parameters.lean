import RecordQuery.Formula.Shorthand
import RecordQuery.Proofs.Lexing.Blanks

/-! # Parameter lists

Parameters that are names are read back from their list: no name has a separator, a parenthesis or a
colon in it, and each name but the last is followed by a comma and a blank.
-/

namespace RecordQuery

/-- The parameters of a formula as its text lists them. -/
def paramList (params : List String) : String :=
  ", ".intercalate params

/-! ## Names -/

theorem isIdentPart_of_isName {cs : List Char} (h : isName cs = true) :
    cs ≠ [] ∧ ∀ c ∈ cs, isIdentPart c = true := by
  cases cs with
  | nil => cases h
  | cons c rest =>
      simp only [isName, Bool.and_eq_true] at h
      obtain ⟨⟨hstart, hrest⟩, -⟩ := h
      exact ⟨List.cons_ne_nil _ _, List.forall_mem_cons.mpr
        ⟨isIdentPart_of_isIdentStart hstart, List.all_eq_true.mp hrest⟩⟩

theorem separatesParams_of_isIdentPart {c : Char} (h : isIdentPart c = true) :
    separatesParams c = false := by
  have hcomma : c ≠ ',' := ne_of_isIdentPart h (by decide)
  simp [separatesParams, hcomma, isBlank_of_isIdentPart h]

/-! ## Pieces -/

theorem paramPieces_name {cs : List Char} (h : ∀ c ∈ cs, separatesParams c = false) :
    paramPieces cs = [cs] := by
  induction cs with
  | nil => rfl
  | cons c cs ih =>
      obtain ⟨hc, hcs⟩ := List.forall_mem_cons.mp h
      simp [paramPieces, hc, ih hcs]

theorem paramPieces_append {cs : List Char} (h : ∀ c ∈ cs, separatesParams c = false) {sep : Char}
    (hsep : separatesParams sep = true) (rest : List Char) :
    paramPieces (cs ++ sep :: rest) = cs :: paramPieces rest := by
  induction cs with
  | nil => simp [paramPieces, hsep]
  | cons c cs ih =>
      obtain ⟨hc, hcs⟩ := List.forall_mem_cons.mp h
      simp [paramPieces, hc, ih hcs]

/-- Between a comma and the blank after it is a piece without characters. -/
theorem filter_paramPieces {first : List Char} {rest : List (List Char)}
    (h : ∀ cs ∈ first :: rest, cs ≠ [] ∧ ∀ c ∈ cs, isIdentPart c = true) :
    (paramPieces ([',', ' '].intercalate (first :: rest))).filter (· ≠ []) = first :: rest := by
  induction rest generalizing first with
  | nil =>
      obtain ⟨hne, hpart⟩ := h first List.mem_cons_self
      rw [List.intercalate_singleton,
        paramPieces_name fun c hc => separatesParams_of_isIdentPart (hpart c hc)]
      simp [hne]
  | cons second rest ih =>
      obtain ⟨⟨hne, hpart⟩, hrest⟩ := List.forall_mem_cons.mp h
      rw [List.intercalate_cons_cons, List.append_assoc, List.cons_append,
        paramPieces_append (fun c hc => separatesParams_of_isIdentPart (hpart c hc)) rfl,
        List.singleton_append, paramPieces, if_pos (by decide)]
      simpa [hne] using ih hrest

/-! ## Names in a list -/

theorem trimEnd_name {cs : List Char} (hne : cs ≠ []) (h : ∀ c ∈ cs, isIdentPart c = true) :
    Text.trimEnd cs = cs := by
  obtain ⟨front, c, rfl⟩ := List.eq_nil_or_concat cs |>.resolve_left hne
  rw [List.concat_eq_append] at h ⊢
  exact Text.trimEnd_concat (isBlank_of_isIdentPart (h c (by simp))) front

theorem trimEnd_names {first : List Char} {rest : List (List Char)}
    (h : ∀ cs ∈ first :: rest, cs ≠ [] ∧ ∀ c ∈ cs, isIdentPart c = true) :
    Text.trimEnd ([',', ' '].intercalate (first :: rest)) =
      [',', ' '].intercalate (first :: rest) := by
  induction rest generalizing first with
  | nil =>
      obtain ⟨hne, hpart⟩ := h first List.mem_cons_self
      rw [List.intercalate_singleton, trimEnd_name hne hpart]
  | cons second rest ih =>
      have hrest := ih (List.forall_mem_cons.mp h).2
      have hne : [',', ' '].intercalate (second :: rest) ≠ [] := by
        have hsecond := (h second (by simp)).1
        cases rest <;> simp [hsecond]
      rw [List.intercalate_cons_cons, Text.trimEnd_append_of_ne_nil (by rwa [hrest]), hrest]

theorem mem_names {first : List Char} {rest : List (List Char)} {c : Char}
    (h : ∀ cs ∈ first :: rest, cs ≠ [] ∧ ∀ c ∈ cs, isIdentPart c = true)
    (hc : c ∈ [',', ' '].intercalate (first :: rest)) :
    isIdentPart c = true ∨ c = ',' ∨ c = ' ' := by
  induction rest generalizing first with
  | nil =>
      rw [List.intercalate_singleton] at hc
      exact .inl ((h first List.mem_cons_self).2 c hc)
  | cons second rest ih =>
      obtain ⟨⟨-, hfirst⟩, hrest⟩ := List.forall_mem_cons.mp h
      rw [List.intercalate_cons_cons] at hc
      simp only [List.mem_append, List.mem_cons, List.not_mem_nil, or_false] at hc
      rcases hc with (hc | hc) | hc
      · exact .inl (hfirst c hc)
      · exact .inr hc
      · exact ih hrest hc

section

variable {params : List String} (hne : params ≠ [])
  (hparams : ∀ p ∈ params, isName p.toList = true)
include hne hparams

theorem exists_names :
    ∃ first rest, params.map String.toList = first :: rest ∧
      (paramList params).toList = [',', ' '].intercalate (first :: rest) ∧
      (∀ cs ∈ first :: rest, isName cs = true) ∧
      ∀ cs ∈ first :: rest, cs ≠ [] ∧ ∀ c ∈ cs, isIdentPart c = true := by
  obtain ⟨param, params, rfl⟩ := List.exists_cons_of_ne_nil hne
  have hnames : ∀ cs ∈ (param :: params).map String.toList, isName cs = true :=
    List.forall_mem_map.mpr hparams
  exact ⟨_, _, rfl, String.toList_intercalate, hnames,
    fun cs hcs => isIdentPart_of_isName (hnames cs hcs)⟩

/-- A list of names is read back. -/
theorem readParams?_paramList : readParams? (paramList params).toList = some params := by
  obtain ⟨first, rest, hmap, hlist, hnames, hparts⟩ := exists_names hne hparams
  have hpieces := filter_paramPieces hparts
  have hback : (first :: rest).map String.ofList = params := by
    rw [← hmap, List.map_map]
    simp [Function.comp_def]
  rw [readParams?, hlist, hpieces]
  dsimp only
  rw [if_pos (List.all_eq_true.mpr hnames), hback]

/-- A list of names starts with a name and has no blank at its end. -/
theorem exists_cons_paramList :
    ∃ c more, (paramList params).toList = c :: more ∧ isIdentPart c = true ∧
      Text.trimEnd (paramList params).toList = (paramList params).toList := by
  obtain ⟨first, rest, -, hlist, -, hparts⟩ := exists_names hne hparams
  obtain ⟨hfirst, hpart⟩ := hparts first List.mem_cons_self
  obtain ⟨c, more, rfl⟩ := List.exists_cons_of_ne_nil hfirst
  rw [hlist, trimEnd_names hparts]
  cases rest with
  | nil => exact ⟨c, _, rfl, hpart c List.mem_cons_self, rfl⟩
  | cons second rest =>
      rw [List.intercalate_cons_cons]
      exact ⟨c, _, rfl, hpart c List.mem_cons_self, rfl⟩

/-- What is no part of names and no separator is not in a list of names. -/
theorem not_mem_paramList {c : Char} (hpart : isIdentPart c = false) (hcomma : c ≠ ',')
    (hblank : c ≠ ' ') : c ∉ (paramList params).toList := by
  obtain ⟨first, rest, -, hlist, -, hparts⟩ := exists_names hne hparams
  rw [hlist]
  intro hmem
  rcases mem_names hparts hmem with h | h | h
  · rw [h] at hpart
    cases hpart
  · exact hcomma h
  · exact hblank h

end

end RecordQuery
