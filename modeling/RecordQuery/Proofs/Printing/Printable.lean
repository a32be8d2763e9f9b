import RecordQuery.Proofs.Grammar.Parsing
import RecordQuery.Proofs.Lexing.Tokens
import RecordQuery.Proofs.Printing.Derivation

/-! # Printable expressions

What the names and literals of an expression have to be for its text to spell them. All expressions
that are read from a text are printable.
-/

namespace RecordQuery

open Grammar

namespace Expr

/-- The literals are constants, texts and the numbers of finite floats that are not negative; the
names are names, and an identifier is no constant. -/
def Printable : Expr → Prop
  | literal (.number n) => ∃ x : Float, x.isFinite = true ∧ 0.0 ≤ x ∧ Json.ofFloat x = .number n
  | literal (.array _) | literal (.object _) => False
  | ident name => IsName name ∧ name ∉ reserved
  | member _ name => IsName name
  | _ => True

/-- What is printable reads back. -/
theorem Printable.legible {e : Expr} (h : Printable e) : Legible e := by
  cases e with
  | literal value =>
      cases value with
      | number n =>
          obtain ⟨x, hfinite, hx, hn⟩ := h
          rw [Number.stored_of_finite hfinite] at hn
          cases hn
          exact Number.readsBack_ofFinite hfinite hx
      | _ => exact h
  | _ => exact h

theorem printable_ofFloat {x : Float} (h : x.isFinite = true → 0.0 ≤ x) :
    Printable (.literal (Json.ofFloat x)) := by
  by_cases hfinite : x.isFinite = true
  · have hstored := Number.stored_of_finite hfinite
    rw [hstored]
    exact ⟨x, hfinite, h hfinite, hstored⟩
  · have hnull : Json.ofFloat x = .null := by
      rw [Json.ofFloat, if_neg hfinite]
    rw [hnull]
    trivial

end Expr

namespace Grammar

theorem mem_separated {items : List Item} {a : Item} (ha : a ∈ items) {k : TokenKind}
    (hk : k ∈ a.tokens) : k ∈ separated items := by
  induction items with
  | nil => cases ha
  | cons b rest ih =>
      cases rest with
      | nil =>
          obtain rfl : a = b := by simpa using ha
          simpa using hk
      | cons c rest =>
          rw [separated_cons_cons, List.mem_append, List.mem_cons]
          rcases List.mem_cons.mp ha with rfl | ha
          · exact Or.inl hk
          · exact Or.inr (Or.inr (ih ha))

theorem printable_between {l : Precedence} {p : Punct} {build : Expr → Expr → Expr}
    (h : Operator l p build) (left right : Expr) : Expr.Printable (build left right) := by
  rcases h.build_eq with ⟨op, rfl, -⟩ | ⟨op, rfl, -⟩
  · trivial
  · trivial

/-- Proper tokens derive printable trees. -/
theorem Derives.printable {ph : Phrase} {ts : List TokenKind} {e : Expr} {d : Nat}
    (h : Derives ph ts e d) (hts : ∀ k ∈ ts, k.Proper) : e.Everywhere Expr.Printable := by
  induction h with
  | whole h ih | operand h ih | unprefixed h ih | unsuffixed h ih => exact ih hts
  | conditional test consequent alternate ihTest ihConsequent ihAlternate =>
      simp only [List.forall_mem_append, List.forall_mem_cons] at hts
      obtain ⟨htest, -, hconsequent, -, halternate⟩ := hts
      rw [Expr.Everywhere.conditional_iff]
      exact ⟨trivial, ihTest htest, ihConsequent hconsequent, ihAlternate halternate⟩
  | operator op left right ihLeft ihRight =>
      simp only [List.forall_mem_append, List.forall_mem_cons] at hts
      obtain ⟨hleft, -, hright⟩ := hts
      rw [Expr.everywhere_between op]
      exact ⟨printable_between op _ _, ihLeft hleft, ihRight hright⟩
  | prefixed op operand ih =>
      rw [Expr.Everywhere.unary_iff]
      exact ⟨trivial, ih (List.forall_mem_cons.mp hts).2⟩
  | member object ih =>
      simp only [List.forall_mem_append, List.forall_mem_cons] at hts
      obtain ⟨hobject, -, hname, -⟩ := hts
      rw [Expr.Everywhere.member_iff]
      exact ⟨hname, ih hobject⟩
  | index object inner ihObject ihInner =>
      simp only [List.forall_mem_append, List.forall_mem_cons] at hts
      obtain ⟨hobject, -, hinner, -⟩ := hts
      rw [Expr.Everywhere.index_iff]
      exact ⟨trivial, ihObject hobject, ihInner hinner⟩
  | call callee each ihCallee ihEach =>
      simp only [List.forall_mem_append, List.forall_mem_cons] at hts
      obtain ⟨hcallee, -, hargs, -⟩ := hts
      rw [Expr.Everywhere.call_iff, List.forall_mem_map]
      exact ⟨trivial, ihCallee hcallee, fun a ha => ihEach a ha fun k hk =>
        hargs k (mem_separated ha hk)⟩
  | number =>
      exact Expr.Everywhere.literal_iff.mpr
        (Expr.printable_ofFloat (hts _ (List.mem_singleton_self _)))
  | string | true | false | null => exact Expr.Everywhere.literal_iff.mpr trivial
  | undefined => exact Expr.Everywhere.undefined_iff.mpr trivial
  | name h => exact Expr.Everywhere.ident_iff.mpr ⟨hts _ (List.mem_singleton_self _), h⟩
  | parens inner ih =>
      simp only [List.forall_mem_append, List.forall_mem_cons] at hts
      exact ih hts.2.1
  | array each ih =>
      simp only [List.forall_mem_append, List.forall_mem_cons] at hts
      obtain ⟨-, hitems, -⟩ := hts
      rw [Expr.Everywhere.array_iff, List.forall_mem_map]
      exact ⟨trivial, fun a ha => ih a ha fun k hk => hitems k (mem_separated ha hk)⟩

end Grammar

/-- Every expression that is read from a text is printable. -/
theorem Expr.printable_of_parse {text : String} {e : Expr} (h : parse text = .ok e) :
    e.Everywhere Printable := by
  obtain ⟨tokens, d, hscan, hder⟩ := exists_derives_of_parse h
  apply hder.printable
  simp only [List.forall_mem_map]
  exact Token.scan_proper hscan

end RecordQuery
