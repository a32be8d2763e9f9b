import RecordQuery.Builtin.Call

/-! # The catalog of builtins

All builtin definitions, and the maps in which expressions look them up. In a map a later definition
takes the place of an earlier one with the same receiver and name; a definition is found under its
name and under each of its aliases. A map comes with the host program of its functions.
-/

namespace RecordQuery

/-- Definitions by receiver and name, and what the functions of the host compute, both those of the
definitions and those that a scope binds to a name. -/
structure BuiltinMap where
  entries : List ((Receiver × String) × Builtin)
  host : Host

namespace BuiltinMap

def find? (m : BuiltinMap) (receiver : Receiver) (name : String) : Option Builtin :=
  m.entries.lookup (receiver, name)

/-- A map with one more definition, before those of the same key. -/
def add (m : BuiltinMap) (name : String) (b : Builtin) : BuiltinMap :=
  { m with
    entries := ((b.receiver, name), b) :: m.entries.filter fun entry =>
      entry.1 != (b.receiver, name) }

/-- The map of some definitions under their names and aliases. -/
def ofList (host : Host) (builtins : List Builtin) : BuiltinMap :=
  builtins.foldl (fun m b => b.aliases.foldl (fun m a => add m a b) (add m b.name b)) ⟨[], host⟩

end BuiltinMap

namespace Builtin

/-- A function that is called by its bare name. -/
def conversion (name : String) (arity : Arity) (f : ConversionFn) : Builtin :=
  ⟨name, [], .global, arity, .conversion f⟩

def math (name : String) (arity : Arity) (f : MathFn) : Builtin :=
  ⟨name, [], .library "Math", arity, .math f⟩

def text (name : String) (arity : Arity) (f : TextFn) : Builtin :=
  ⟨name, [], .string, arity, .text f⟩

def array (name : String) (arity : Arity) (f : ArrayFn) : Builtin :=
  ⟨name, [], .array, arity, .array f⟩

def number (name : String) (arity : Arity) (f : NumberFn) : Builtin :=
  ⟨name, [], .number, arity, .number f⟩

def catalog : List Builtin :=
  [conversion "String" (.between 0 (some 1)) .toText,
   conversion "Number" (.between 0 (some 1)) .toNumber,
   conversion "Boolean" (.between 0 (some 1)) .toBoolean,
   conversion "parseInt" (.between 1 (some 2)) .parseInteger,
   conversion "parseFloat" (.exactly 1) .parseDecimal,
   conversion "isNaN" (.exactly 1) .isNaN,
   conversion "isFinite" (.exactly 1) .isFinite,
   math "abs" (.exactly 1) .abs,
   math "ceil" (.exactly 1) .ceil,
   math "floor" (.exactly 1) .floor,
   math "round" (.exactly 1) .round,
   math "trunc" (.exactly 1) .trunc,
   math "sign" (.exactly 1) .sign,
   math "sqrt" (.exactly 1) .sqrt,
   math "exp" (.exactly 1) .exp,
   math "log" (.exactly 1) .log,
   math "pow" (.exactly 2) .pow,
   math "min" .any .min,
   math "max" .any .max,
   text "toUpperCase" (.exactly 0) .toUpperCase,
   text "toLowerCase" (.exactly 0) .toLowerCase,
   text "trim" (.exactly 0) .trim,
   text "charAt" (.between 0 (some 1)) .charAt,
   text "indexOf" (.between 1 (some 2)) .indexOf,
   text "includes" (.between 1 (some 2)) .includes,
   text "startsWith" (.between 1 (some 2)) .startsWith,
   text "endsWith" (.between 1 (some 2)) .endsWith,
   text "slice" (.between 0 (some 2)) .slice,
   text "substring" (.between 1 (some 2)) .substring,
   text "substr" (.between 1 (some 2)) .substr,
   text "split" (.between 0 (some 2)) .split,
   text "concat" .any .concat,
   text "replace" (.exactly 2) .replace,
   array "indexOf" (.between 1 (some 2)) .indexOf,
   array "includes" (.between 1 (some 2)) .includes,
   array "join" (.between 0 (some 1)) .join,
   array "slice" (.between 0 (some 2)) .slice,
   array "concat" .any .concat,
   number "toFixed" (.between 0 (some 1)) .toFixed]

def libraries : List String := ["Math"]

def constant? (library name : String) : Option Value :=
  if library = "Math" then mathConstant? name else none

end Builtin

/-- A host program whose functions compute nothing. -/
def Host.idle : Host := fun _ _ _ => .ok .undefined

/-- The whole catalog, and no functions of a host. -/
def BuiltinMap.standard : BuiltinMap :=
  ofList .idle Builtin.catalog

end RecordQuery
