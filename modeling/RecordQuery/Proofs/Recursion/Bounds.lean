import RecordQuery.Proofs.Grammar.Texts
import RecordQuery.Proofs.Printing.Derivation
import RecordQuery.Proofs.Recursion.Calls

/-! # How deep the trees of texts are

The levels that may be open at once bound the steps aside in a tree that is read, and so its height
and the recursion over it as far as its chains are bounded. A chain opens no level: sums of any
number of terms are read, and their trees are as high as the sums are long.
-/

namespace RecordQuery.Expr

open Token Grammar

/-- The steps aside in a tree that is read are limited by the levels that may be open. Where no
chain is longer than `n`, so are its height and the calls of the evaluator and of the printer. -/
theorem bounds_of_parse {text : String} {e : Expr} (h : Expr.parse text = .ok e) :
    e.nesting < 8 * maxDepth ∧
      ∀ n, Everywhere (fun c => c.chainLength ≤ n) e →
        e.height ≤ 8 * maxDepth * (n + 1) ∧
          (∀ ctx, RecursesWithin (evalStep ctx) (eval ctx) (8 * maxDepth * (n + 1)) e) ∧
          RecursesWithin charsStep chars (8 * maxDepth * (n + 1)) e := by
  have hnesting := nesting_lt_of_parse h
  refine ⟨hnesting, fun n hchains => ?_⟩
  have hheight : e.height ≤ 8 * maxDepth * (n + 1) :=
    Nat.le_trans (height_le_of_chainLength_le hchains) (Nat.mul_le_mul_right (n + 1) hnesting)
  exact ⟨hheight, fun ctx => (isStep_evalStep ctx).recursesWithin hheight,
    isStep_charsStep.recursesWithin hheight⟩

/-- A prefix operator ends the chain inside of it, and a sum goes on with its first term. -/
theorem bounds_of_parse_sum :
    let e : Expr := .binary .add (.unary .neg (.member (.ident "a") "b")) (.ident "c")
    Expr.parse "-a.b + c" = .ok e ∧ Everywhere (fun c => c.chainLength ≤ 1) e ∧
      e.nesting < 1024 ∧ e.height ≤ 2048 ∧
      (∀ ctx, RecursesWithin (evalStep ctx) (eval ctx) 2048 e) ∧
      RecursesWithin charsStep chars 2048 e := by
  intro e
  have hscan : scan "-a.b + c" = .ok ⟨[⟨.punct .minus, 0⟩, ⟨.ident "a", 1⟩, ⟨.punct .dot, 2⟩,
      ⟨.ident "b", 3⟩, ⟨.punct .plus, 5⟩, ⟨.ident "c", 7⟩], 8⟩ := by cbv
  have hname : ∀ name, name ∉ reserved → Derives .suffixed [.ident name] (.ident name) 0 :=
    fun name hname => .unsuffixed (.name hname)
  have hleft : Derives .unary [.punct .minus, .ident "a", .punct .dot, .ident "b"]
      (.unary .neg (.member (.ident "a") "b")) 1 :=
    .prefixed .neg (.unprefixed (.member (hname "a" (by decide))))
  have hsum : Derives (.chain .sum) _ e 1 :=
    .operator .add (hleft.chain .sum) ((Derives.unprefixed (hname "c" (by decide))).chain .product)
  have hparse : Expr.parse "-a.b + c" = .ok e := by
    rw [parse_of_scan hscan, ofTokens_eq_ok_iff]
    exact ⟨2, by decide, .whole hsum.loosest⟩
  have hchains : Everywhere (fun c => c.chainLength ≤ 1) e := by
    simp [e, chainLength]
  obtain ⟨hnesting, hbounds⟩ := bounds_of_parse hparse
  exact ⟨hparse, hchains, hnesting, hbounds 1 hchains⟩

/-! ## Long chains -/

/-- A sum of empty texts, with so many plus signs. -/
def emptySum : Nat → Expr
  | 0 => .literal (.string "")
  | n + 1 => .binary .add (emptySum n) (.literal (.string ""))

namespace emptySum

def tokens : Nat → List TokenKind
  | 0 => [.string ""]
  | n + 1 => tokens n ++ [.punct .plus, .string ""]

def chars : Nat → List Char
  | 0 => Json.quote ""
  | n + 1 => chars n ++ (spaced .plus ++ Json.quote "")

theorem readsAs (n : Nat) (rest : List Char) : ReadsAs (chars n) (tokens n) rest := by
  have hempty (rest : List Char) : ReadsAs (Json.quote "") [.string ""] rest :=
    kindsFrom_text "" rest
  induction n generalizing rest with
  | zero => exact hempty rest
  | succ n ih => exact (ih _).append ((readsAs_spaced .plus _).append (hempty rest))

theorem derives (n : Nat) : Derives (.chain .sum) (tokens n) (emptySum n) 0 := by
  have hempty : Derives .unary [.string ""] (.literal (.string "")) 0 :=
    .unprefixed (.unsuffixed .string)
  induction n with
  | zero => exact hempty.chain .sum
  | succ n ih => exact .operator .add ih (hempty.chain .product)

theorem parse (n : Nat) : Expr.parse (String.ofList (chars n)) = .ok (emptySum n) := by
  have hkinds := (readsAs n []).kindsFrom_eq 0
  rw [← String.toList_ofList (l := chars n)] at hkinds
  obtain ⟨scanned, hscan, htokens⟩ := map_eq_ok_iff.mp hkinds
  rw [parse_of_scan hscan, ofTokens_eq_ok_iff, htokens]
  exact ⟨1, by decide, .whole (derives n).loosest⟩

theorem height_eq (n : Nat) : (emptySum n).height = n + 1 := by
  rw [height]
  induction n with
  | zero => rfl
  | succ n ih =>
      rw [emptySum, longest, longest]
      omega

/-- The evaluator has a call open for each plus sign when it comes to the first term. -/
theorem within_evalStep (ctx : Context) (err : EvalError) (n : Nat) :
    within (evalStep ctx) (.error err) n (emptySum n) = .error err := by
  induction n with
  | zero => rfl
  | succ n ih =>
      rw [within, emptySum, evalStep, ih]
      rfl

/-- So has the printer. -/
theorem length_le_within_charsStep (overflow : List Char) (n : Nat) :
    overflow.length ≤ (within charsStep overflow n (emptySum n)).length := by
  induction n with
  | zero => exact Nat.le_refl _
  | succ n ih =>
      have hoperand (cs : List Char) : cs.length ≤ (parenthesize (emptySum n) cs).length := by
        rw [parenthesize]
        split
        · simp only [List.length_cons, List.length_append]
          omega
        · exact Nat.le_refl _
      rw [within, emptySum, charsStep.eq_def]
      simp only [List.length_append]
      have := hoperand (within charsStep overflow n (emptySum n))
      omega

end emptySum

/-- No number bounds the height of the trees that are read, and none bounds the calls of the
evaluator or of the printer on them. -/
theorem not_exists_bound_of_parse :
    (¬ ∃ bound, ∀ text e, Expr.parse text = .ok e → e.height ≤ bound) ∧
      (¬ ∃ bound, ∀ text e ctx, Expr.parse text = .ok e →
        RecursesWithin (evalStep ctx) (eval ctx) bound e) ∧
      ¬ ∃ bound, ∀ text e, Expr.parse text = .ok e → RecursesWithin charsStep chars bound e := by
  refine ⟨?_, ?_, ?_⟩
  · rintro ⟨bound, hbound⟩
    have hheight := hbound _ _ (emptySum.parse bound)
    rw [emptySum.height_eq] at hheight
    omega
  · rintro ⟨bound, hbound⟩
    -- The result would be any error that calls beyond the bound could have.
    have heval (err : EvalError) :
        eval (.ofScope .empty) (emptySum bound) = .error err := by
      have hwithin := hbound _ _ (.ofScope .empty) (emptySum.parse bound) (.error err)
      rw [← hwithin, emptySum.within_evalStep]
    have hsame := (heval (.unboundName "a")).symm.trans (heval (.notContainer "a"))
    cases hsame
  · rintro ⟨bound, hbound⟩
    have hwithin := hbound _ _ (emptySum.parse bound) (' ' :: (emptySum bound).chars)
    have hlength := emptySum.length_le_within_charsStep (' ' :: (emptySum bound).chars) bound
    rw [hwithin, List.length_cons] at hlength
    omega

end RecordQuery.Expr
