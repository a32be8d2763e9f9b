import RecordQuery.Proofs.Grammar.Parsing
import RecordQuery.Proofs.Trees

/-! # Paths in expression trees

How many steps a path from the root of a tree takes. The steps to a left operand, to an object and
to a callee are the ones that a chain of operators or suffixes is made of, and a text can go on with
a chain for ever. Every other step needs a bracket, a prefix operator, a tighter phrase or a branch
of a conditional, so the levels that may be open at once bound the number of such steps.
-/

namespace RecordQuery

namespace Expr

/-! ## Steps from an expression to a part of it -/

/-- The part that a chain goes on with. -/
def chained : Expr → Option Expr
  | member object _ | index object _ => some object
  | call callee _ => some callee
  | binary _ left _ | logical _ left _ => some left
  | literal _ | undefined | ident _ | array _ | unary .. | conditional .. => none

/-- The parts that no chain goes on with. -/
def branches : Expr → List Expr
  | array items => items
  | index _ key => [key]
  | call _ args => args
  | unary _ operand => [operand]
  | binary _ _ right | logical _ _ right => [right]
  | conditional test consequent alternate => [test, consequent, alternate]
  | literal _ | undefined | ident _ | member .. => []

theorem mem_children_iff {c e : Expr} :
    c ∈ e.children ↔ e.chained = some c ∨ c ∈ e.branches := by
  cases e <;> simp [children, chained, branches, eq_comm]

/-- The number of steps along the chain that starts at the root. -/
def chainLength : Expr → Nat
  | member object _ | index object _ => chainLength object + 1
  | call callee _ => chainLength callee + 1
  | binary _ left _ | logical _ left _ => chainLength left + 1
  | literal _ | undefined | ident _ | array _ | unary .. | conditional .. => 0

theorem chainLength_of_chained {c e : Expr} (h : e.chained = some c) :
    e.chainLength = c.chainLength + 1 := by
  cases e with
  | literal | undefined | ident | array | unary | conditional => cases h
  | member | index | call | binary | logical =>
      obtain rfl := Option.some.inj h
      rw [chainLength]

/-! ## Lengths of paths -/

mutual

/-- The length of the longest path from the root. A step along a chain counts `along`, and any other
step counts `aside`. -/
def longest (along aside : Nat) : Expr → Nat
  | literal _ | undefined | ident _ => 0
  | array items => longestOfAll along aside items
  | member object _ => longest along aside object + along
  | index object key => max (longest along aside object + along) (longest along aside key + aside)
  | call callee args =>
      max (longest along aside callee + along) (longestOfAll along aside args)
  | unary _ operand => longest along aside operand + aside
  | binary _ left right | logical _ left right =>
      max (longest along aside left + along) (longest along aside right + aside)
  | conditional test consequent alternate =>
      max (longest along aside test + aside)
        (max (longest along aside consequent + aside) (longest along aside alternate + aside))

/-- The length of the longest path that starts with a step aside to one of the items. -/
def longestOfAll (along aside : Nat) : List Expr → Nat
  | [] => 0
  | item :: rest => max (longest along aside item + aside) (longestOfAll along aside rest)

end

/-- The number of expressions on the longest path from the root. -/
def height (e : Expr) : Nat := longest 1 1 e + 1

/-- The number of steps aside on a path from the root, at most. -/
def nesting (e : Expr) : Nat := longest 0 1 e

variable {along aside n : Nat} {c e : Expr}

theorem longestOfAll_le_iff {items : List Expr} :
    longestOfAll along aside items ≤ n ↔ ∀ e ∈ items, longest along aside e + aside ≤ n := by
  induction items with
  | nil => simp [longestOfAll]
  | cons item rest ih => rw [longestOfAll, Nat.max_le, ih, List.forall_mem_cons]

theorem longest_le_iff :
    longest along aside e ≤ n ↔
      (∀ c, e.chained = some c → longest along aside c + along ≤ n) ∧
        ∀ c ∈ e.branches, longest along aside c + aside ≤ n := by
  cases e <;>
    simp only [longest, chained, branches, longestOfAll_le_iff, Nat.max_le] <;> simp

theorem longest_of_chained (along aside : Nat) (h : e.chained = some c) :
    longest along aside c + along ≤ longest along aside e :=
  (longest_le_iff.mp (Nat.le_refl _)).1 c h

theorem longest_of_mem_branches (along aside : Nat) (h : c ∈ e.branches) :
    longest along aside c + aside ≤ longest along aside e :=
  (longest_le_iff.mp (Nat.le_refl _)).2 c h

theorem height_lt_of_mem_children (h : c ∈ e.children) : c.height < e.height := by
  refine Nat.add_lt_add_right (Nat.lt_of_succ_le ?_) 1
  rcases mem_children_iff.mp h with h | h
  · exact longest_of_chained 1 1 h
  · exact longest_of_mem_branches 1 1 h

theorem nesting_le_of_chained (h : e.chained = some c) : c.nesting ≤ e.nesting :=
  longest_of_chained 0 1 h

theorem nesting_lt_of_mem_branches (h : c ∈ e.branches) : c.nesting < e.nesting :=
  longest_of_mem_branches 0 1 h

/-- A path is a chain, then a step aside, then a chain again: as many times as there are steps
aside. -/
theorem height_le_of_chainLength_le (h : Everywhere (fun c => c.chainLength ≤ n) e) :
    e.height ≤ (e.nesting + 1) * (n + 1) := by
  have hpath : longest 1 1 e ≤ e.chainLength + e.nesting * (n + 1) := by
    induction h with
    | intro here inside ih =>
        rw [longest_le_iff]
        constructor
        · intro c hc
          have hlength := chainLength_of_chained hc
          have hnesting := Nat.mul_le_mul_right (n + 1) (nesting_le_of_chained hc)
          have := ih c (mem_children_iff.mpr (.inl hc))
          omega
        · intro c hc
          have hlength := (inside c (mem_children_iff.mpr (.inr hc))).here
          have hnesting := Nat.mul_le_mul_right (n + 1) (nesting_lt_of_mem_branches hc)
          rw [Nat.succ_mul] at hnesting
          have := ih c (mem_children_iff.mpr (.inr hc))
          omega
  have := h.here
  rw [height, Nat.succ_mul]
  omega

end Expr

namespace Grammar

/-! ## Steps aside in what is read -/

/-- How many operators with two operands can stand between a phrase and its loosest operand. -/
def Precedence.looseness : Precedence → Nat
  | or => 7
  | and => 6
  | equality => 5
  | relation => 4
  | sum => 3
  | product => 2

/-- The steps aside in a phrase that opens no level are fewer than this. -/
def Phrase.room : Phrase → Nat
  | .conditional => 0
  | .chain l => l.looseness
  | .unary | .suffixed | .primary => 1

theorem room_operand (l : Precedence) : l.operand.room + 1 = (Phrase.chain l).room := by
  cases l <;> rfl

theorem longestOfAll_trees_le {args : List Item}
    (h : ∀ a ∈ args, a.tree.nesting < 8 * a.depth) :
    Expr.longestOfAll 0 1 (args.map Item.tree) ≤ 8 * deepest args := by
  induction args with
  | nil => simp [Expr.longestOfAll]
  | cons a rest ih =>
      obtain ⟨ha, hrest⟩ := List.forall_mem_cons.mp h
      have := ih hrest
      rw [Expr.nesting] at ha
      rw [List.map_cons, Expr.longestOfAll, deepest_cons]
      omega

/-- Between two levels that open there are at most eight steps aside: one for each kind of phrase
with two operands, one into a bracket or behind a prefix operator, and one into a conditional. -/
theorem Derives.nesting_lt {ph : Phrase} {ts : List TokenKind} {e : Expr} {d : Nat}
    (h : Derives ph ts e d) : e.nesting < 8 * d + ph.room := by
  induction h with
  | whole h ih =>
      simp only [Phrase.room, Precedence.looseness] at ih ⊢
      omega
  | conditional test consequent alternate ihTest ihConsequent ihAlternate =>
      simp only [Phrase.room, Precedence.looseness, Expr.nesting, Expr.longest] at *
      omega
  | operand h ih =>
      rw [← room_operand]
      omega
  | operator op left right ihLeft ihRight =>
      rw [← room_operand] at ihLeft ⊢
      cases op <;> (simp only [Expr.nesting, Expr.longest] at *; omega)
  | unprefixed h ih | unsuffixed h ih => exact ih
  | prefixed op operand ih =>
      simp only [Phrase.room, Expr.nesting, Expr.longest] at *
      omega
  | member object ih => exact ih
  | index object inner ihObject ihInner =>
      simp only [Phrase.room, Expr.nesting, Expr.longest] at *
      omega
  | call callee each ihCallee ihEach =>
      have hargs := longestOfAll_trees_le ihEach
      simp only [Phrase.room, Expr.nesting, Expr.longest] at *
      omega
  | parens inner ih =>
      simp only [Phrase.room] at *
      omega
  | array each ih =>
      have hitems := longestOfAll_trees_le ih
      simp only [Phrase.room, Expr.nesting, Expr.longest] at *
      omega
  | number | string | true | false | null | undefined | name =>
      simp [Phrase.room, Expr.nesting, Expr.longest]

theorem nesting_lt_of_parse {text : String} {e : Expr} (h : Expr.parse text = .ok e) :
    e.nesting < 8 * Expr.maxDepth := by
  cases hscan : Token.scan text with
  | error err => simp [Expr.parse, hscan] at h
  | ok tokens =>
      rw [parse_of_scan hscan, ofTokens_eq_ok_iff] at h
      obtain ⟨d, hd, hder⟩ := h
      exact Nat.lt_of_lt_of_le hder.nesting_lt (Nat.mul_le_mul_left 8 hd)

end Grammar

end RecordQuery
