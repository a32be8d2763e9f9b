import RecordQuery.Proofs.Builtins.Searching

/-! # Slicing

A position cuts a text or an array in two. Whatever is given for it, the slice up to the position
and the slice from there on are the whole again: both clamp the position in the same way.
-/

namespace RecordQuery

namespace Builtin

variable {α : Type} {position : Value}

/-- The slice of a list up to a position. -/
theorem between_zero_relativeIndex (list : List α) (position : Value) :
    between list ((Value.ofInt 0).relativeIndex list.length 0)
        (position.relativeIndex list.length list.length) =
      list.take (position.relativeIndex list.length list.length) := by
  have hzero : (Value.ofInt 0).relativeIndex list.length 0 = 0 :=
    (Value.relativeIndex_ofInt (Nat.zero_le _) list.length 0).trans (Nat.zero_min _)
  rw [hzero, between_eq_extract, List.extract_eq_take_drop, List.drop_zero, Nat.sub_zero]

/-- The slice of a list from a position on. -/
theorem between_relativeIndex_length (list : List α) (hdefined : position ≠ .undefined) :
    between list (position.relativeIndex list.length 0) list.length =
      list.drop (position.relativeIndex list.length list.length) := by
  rw [Value.relativeIndex_of_ne hdefined, Value.relativeIndex_of_ne hdefined, between_eq_extract,
    List.extract_eq_take_drop, List.take_of_length_le (by rw [List.length_drop])]

theorem apply_concat_ofChars (cs ds : List Char) :
    TextFn.apply .concat cs [.ofChars ds] = .ofChars (cs ++ ds) := by
  change Value.ofChars (cs ++ ((String.ofList ds).toList ++ [])) = _
  rw [String.toList_ofList, List.append_nil]

theorem apply_concat_array (items others : List Json) :
    ArrayFn.apply .concat items [.json (.array others)] = .json (.array (items ++ others)) := by
  change Value.json (.array (items ++ (others ++ []))) = _
  rw [List.append_nil]

end Builtin

namespace Expr

variable {ctx : Context} {x k : Expr} {this position : Value} {n : Nat}

/-- How a text or an array is cut in two at a position, which is `cut` elements from its start. The
first slice has the elements before the position, the second one the rest, and joined they are what
was cut. -/
structure CutsInTwo (ctx : Context) (x k : Expr) (this front back : Value) (cut rest : Nat) :
    Prop where
  sliceTo : eval ctx (x.method "slice" [.literal (.number (.int 0)), k]) = .ok front
  sliceFrom : eval ctx (x.method "slice" [k]) = .ok back
  lengthTo : front.length? = some cut
  lengthFrom : back.length? = some rest
  joined : eval ctx ((x.method "slice" [.literal (.number (.int 0)), k]).method "concat"
    [x.method "slice" [k]]) = .ok this

/-- A kind of value that is built from lists, whose slices are parts of the list and whose
concatenation is that of the lists. -/
structure Sliceable (ctx : Context) {α : Type} (ofList : List α → Value) : Prop where
  length_eq : ∀ list, (ofList list).length? = some list.length
  slice : ∀ {x : Expr} {args : List Expr} {values : List Value} {list : List α},
    eval ctx x = .ok (ofList list) → evalList ctx args = .ok values →
    (Arity.between 0 (some 2)).admits values.length = true →
    eval ctx (x.method "slice" args) =
      .ok (ofList (Builtin.between list ((Builtin.arg values 0).relativeIndex list.length 0)
        ((Builtin.arg values 1).relativeIndex list.length list.length)))
  concat : ∀ {x y : Expr} {list other : List α}, eval ctx x = .ok (ofList list) →
    eval ctx y = .ok (ofList other) → eval ctx (x.method "concat" [y]) = .ok (ofList (list ++ other))

theorem sliceable_text (hctx : ctx.builtins = .standard) : Sliceable ctx Value.ofChars where
  length_eq cs := congrArg (fun cs => some (List.length cs)) String.toList_ofList
  slice hx hargs hcount := eval_slice hctx hx hargs hcount
  concat hx hy := by
    have hfind : BuiltinMap.standard.find? .string "concat" =
        some (.text "concat" .any .concat) := by decide
    rw [eval_textMethod hctx hfind hx (evalList_cons hy evalList_nil) rfl,
      Builtin.apply_concat_ofChars]

theorem sliceable_array (hctx : ctx.builtins = .standard) :
    Sliceable ctx (fun items => .json (.array items)) where
  length_eq _ := rfl
  slice hx hargs hcount := by
    have hfind : BuiltinMap.standard.find? .array "slice" =
        some (.array "slice" (.between 0 (some 2)) .slice) := by decide
    exact eval_arrayMethod hctx hfind hx hargs hcount
  concat hx hy := by
    have hfind : BuiltinMap.standard.find? .array "concat" =
        some (.array "concat" .any .concat) := by decide
    rw [eval_arrayMethod hctx hfind hx (evalList_cons hy evalList_nil) rfl,
      Builtin.apply_concat_array]

theorem Sliceable.exists_cuts {α : Type} {ofList : List α → Value} {list : List α}
    (h : Sliceable ctx ofList) (hx : eval ctx x = .ok (ofList list)) (hk : eval ctx k = .ok position)
    (hdefined : position ≠ .undefined) :
    ∃ front back, CutsInTwo ctx x k (ofList list) front back
      (position.relativeIndex list.length list.length)
      (list.length - position.relativeIndex list.length list.length) := by
  have hzero : eval ctx (.literal (.number (.int 0))) = .ok (.ofInt 0) := by rw [eval, Value.ofInt]
  have hle := position.relativeIndex_le (Nat.le_refl list.length)
  have hfront := h.slice hx (evalList_cons hzero (evalList_cons hk evalList_nil)) rfl
  have hback := h.slice hx (evalList_cons hk evalList_nil) rfl
  simp only [Builtin.arg_cons_zero, Builtin.arg_cons_succ, Builtin.arg_nil] at hfront hback
  rw [Builtin.between_zero_relativeIndex] at hfront
  rw [Value.relativeIndex, Builtin.between_relativeIndex_length list hdefined] at hback
  refine ⟨_, _, hfront, hback, ?_, ?_, ?_⟩
  · rw [h.length_eq, List.length_take, Nat.min_eq_left hle]
  · rw [h.length_eq, List.length_drop]
  · rw [h.concat hfront hback, List.take_append_drop]

/-- With the standard builtins every position that is not undefined cuts a text or an
array in two. -/
theorem exists_cutsInTwo (hctx : ctx.builtins = .standard) (hk : eval ctx k = .ok position)
    (hdefined : position ≠ .undefined) (hx : eval ctx x = .ok this)
    (hlength : this.length? = some n) :
    ∃ front back, CutsInTwo ctx x k this front back (position.relativeIndex n n)
      (n - position.relativeIndex n n) := by
  unfold Value.length? at hlength
  split at hlength
  next s =>
    obtain rfl := Option.some.inj hlength
    have htext : Value.json (.string s) = .ofChars s.toList :=
      congrArg Value.ofString String.ofList_toList.symm
    rw [htext] at hx ⊢
    exact (sliceable_text hctx).exists_cuts hx hk hdefined
  next items =>
    obtain rfl := Option.some.inj hlength
    exact (sliceable_array hctx).exists_cuts hx hk hdefined
  next => cases hlength

/-- A list of one text is its number, here a fraction that counts from the end, and infinity is the
end of a text. -/
theorem exists_cutsInTwo_negative :
    let ctx : Context := ⟨.empty, .standard, true⟩
    let x : Expr := .literal (.array [.null, .string "é", .array []])
    let y : Expr := .literal (.string "é→")
    let k : Expr := .literal (.array [.string " -1.5"])
    let l : Expr := .literal (.string "Infinity")
    (∃ front back,
      CutsInTwo ctx x k (.json (.array [.null, .string "é", .array []])) front back 2 1) ∧
      ∃ front back, CutsInTwo ctx y l (.ofString "é→") front back 2 0 := by
  intro ctx x y k l
  have hx : eval ctx x = .ok (.json (.array [.null, .string "é", .array []])) := rfl
  have hy : eval ctx y = .ok (.ofString "é→") := rfl
  have hk : eval ctx k = .ok (.json (.array [.string " -1.5"])) := rfl
  have hl : eval ctx l = .ok (.ofString "Infinity") := rfl
  have hcut : (Value.json (.array [.string " -1.5"])).relativeIndex 3 3 = 2 := by decide +kernel
  have hend : (Value.ofString "Infinity").relativeIndex 2 2 = 2 := by decide +kernel
  have hcuts := exists_cutsInTwo rfl hk nofun hx (n := 3) rfl
  have hends := exists_cutsInTwo rfl hl nofun hy (n := 2) rfl
  rw [hcut] at hcuts
  rw [hend] at hends
  exact ⟨hcuts, hends⟩

end Expr

end RecordQuery
