import RecordQuery.Expr.Eval

/-! # Method calls

A method call with the standard builtins computes the primitive of that name on the value of the
receiver and the values of the arguments.
-/

namespace RecordQuery.Expr

variable {ctx : Context} {x y : Expr} {args : List Expr} {name : String} {this v : Value}
  {values : List Value} {arity : Arity}

/-- The call of a method on an expression. -/
def method (x : Expr) (name : String) (args : List Expr) : Expr :=
  .call (.member x name) args

theorem evalList_nil : evalList ctx [] = .ok [] := by
  rw [evalList]

theorem evalList_cons (hy : eval ctx y = .ok v) (hargs : evalList ctx args = .ok values) :
    evalList ctx (y :: args) = .ok (v :: values) := by
  rw [evalList, hy, hargs]
  rfl

/-- A method that is found and takes as many arguments as are given. -/
theorem eval_method {receiver : Receiver} {f : Builtin} (hx : eval ctx x = .ok this)
    (hreceiver : Context.receiver? this = some receiver)
    (hfind : ctx.builtins.find? receiver name = some f) (hargs : evalList ctx args = .ok values)
    (harity : f.arity.admits values.length = true) :
    eval ctx (x.method name args) =
      Builtin.Primitive.apply f.primitive ctx.builtins.host (Context.receiverValue this) values := by
  have hmethod : ctx.method this name (.member x name) = .ok f := by
    simp only [Context.method, hreceiver, hfind]
  have hfault := (f.arity.fault?_eq_none_iff values.length).mpr harity
  rw [method, eval, hx]
  change (ctx.method this name (.member x name)).bind _ = _
  rw [hmethod]
  change (evalList ctx args).bind _ = _
  rw [hargs]
  change f.call _ _ values = _
  rw [Builtin.call, hfault]

theorem eval_textMethod (hctx : ctx.builtins = .standard) {f : TextFn} {cs : List Char}
    (hfind : BuiltinMap.standard.find? .string name = some (.text name arity f))
    (hx : eval ctx x = .ok (.ofChars cs)) (hargs : evalList ctx args = .ok values)
    (harity : arity.admits values.length = true) :
    eval ctx (x.method name args) = .ok (Builtin.TextFn.apply f cs values) := by
  rw [eval_method hx rfl (hctx ▸ hfind) hargs harity]
  change Except.ok (Builtin.TextFn.apply f (String.ofList cs).toList values) = _
  rw [String.toList_ofList]

theorem eval_arrayMethod (hctx : ctx.builtins = .standard) {f : ArrayFn} {items : List Json}
    (hfind : BuiltinMap.standard.find? .array name = some (.array name arity f))
    (hx : eval ctx x = .ok (.json (.array items))) (hargs : evalList ctx args = .ok values)
    (harity : arity.admits values.length = true) :
    eval ctx (x.method name args) = .ok (Builtin.ArrayFn.apply f items values) :=
  eval_method hx rfl (hctx ▸ hfind) hargs harity

end RecordQuery.Expr
