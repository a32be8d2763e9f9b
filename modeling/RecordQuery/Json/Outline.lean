import RecordQuery.Value.Conversion

/-! # Outlines of JSON texts

The shape of a JSON text: its literals, lists and fields. Numbers and texts are checked for their
form and otherwise passed over. Fields are kept as they are written, repeated keys included; a key
that spells half a surrogate pair has no text.
-/

namespace RecordQuery

/-- The shape of a JSON text. -/
inductive Outline where
  | null
  | bool (b : Bool)
  | number
  | string
  | array (items : List Outline)
  | object (fields : List (Option String × Outline))
deriving Inhabited

namespace Outline

/-- Something read from the front of a text, and what follows it, shorter than `bound`. -/
structure Read (α : Type) (bound : Nat) where
  value : α
  rest : List Char
  shorter : rest.length < bound

/-- The blanks of the format. -/
def isSpace (c : Char) : Bool :=
  c == ' ' || c == '\n' || c == '\t' || c == '\r'

/-- A text without the blanks at its front. -/
def skipSpace (cs : List Char) : List Char :=
  cs.dropWhile isSpace

theorem length_skipSpace_le (cs : List Char) : (skipSpace cs).length ≤ cs.length :=
  (List.dropWhile_suffix isSpace).length_le

/-- A piece of a text in quotes: a character, or a surrogate by its number. -/
inductive Unit16 where
  | char (c : Char)
  | surrogate (code : Nat)

/-- The text that pieces spell; none if a surrogate stands alone. -/
def spell? : List Unit16 → Option (List Char)
  | [] => some []
  | .char c :: rest => (spell? rest).map (c :: ·)
  | .surrogate high :: .surrogate low :: rest =>
      if high < 0xDC00 ∧ 0xDC00 ≤ low then
        (spell? rest).map (Char.ofNat (0x10000 + (high - 0xD800) * 0x400 + (low - 0xDC00)) :: ·)
      else none
  | .surrogate _ :: _ => none

/-- The character of a single-letter escape. -/
def escape? (c : Char) : Option Char :=
  match c with
  | '"' => some '"'
  | '\\' => some '\\'
  | '/' => some '/'
  | 'b' => some '\x08'
  | 'f' => some '\x0c'
  | 'n' => some '\n'
  | 'r' => some '\r'
  | 't' => some '\t'
  | _ => none

/-- The piece of an escape by number. -/
def unit? (a b c d : Char) : Option Unit16 :=
  (hexValue? [a, b, c, d]).map fun code =>
    if 0xD800 ≤ code ∧ code < 0xE000 then .surrogate code else .char (Char.ofNat code)

/-- Reads a text in quotes after its opening quote. -/
def readText? : (cs : List Char) → Option (List Unit16 × List Char)
  | [] => none
  | c :: rest =>
      if c = '"' then some ([], rest)
      else if c.toNat < 0x20 then none
      else if c ≠ '\\' then (readText? rest).map fun r => (.char c :: r.1, r.2)
      else
        match rest with
        | [] => none
        | e :: rest =>
            if e = 'u' then
              match rest with
              | a :: b :: c :: d :: rest =>
                  match unit? a b c d with
                  | none => none
                  | some u => (readText? rest).map fun r => (u :: r.1, r.2)
              | _ => none
            else
              match escape? e with
              | none => none
              | some r => (readText? rest).map fun more => (.char r :: more.1, more.2)

/-- What follows a text is shorter than it. -/
theorem length_lt_of_readText? {cs : List Char} {r : List Unit16 × List Char}
    (h : readText? cs = some r) : r.2.length < cs.length := by
  fun_induction readText? cs generalizing r with
  | case1 => simp at h
  | case2 => obtain rfl := Option.some.inj h; simp
  | case3 => simp at h
  | case4 c rest _ _ _ ih =>
      obtain ⟨s, hs, rfl⟩ := Option.map_eq_some_iff.mp h
      have := ih hs
      simp only [List.length_cons]
      omega
  | case5 => simp at h
  | case6 => simp at h
  | case7 _ _ _ _ a b c d rest u _ ih =>
      obtain ⟨s, hs, rfl⟩ := Option.map_eq_some_iff.mp h
      have := ih hs
      simp only [List.length_cons]
      omega
  | case8 => simp at h
  | case9 => simp at h
  | case10 _ _ _ _ e rest _ ch _ ih =>
      obtain ⟨s, hs, rfl⟩ := Option.map_eq_some_iff.mp h
      have := ih hs
      simp only [List.length_cons]
      omega

/-- The digits that a number goes on with; none if there are none. -/
def digits? (cs : List Char) : Option (List Char) :=
  if cs.head?.any Char.isDigit then some (cs.dropWhile Char.isDigit) else none

/-- What follows the integer part of a number: a zero alone, or digits that start
with another one. -/
def afterInteger? (cs : List Char) : Option (List Char) :=
  match cs with
  | '0' :: rest => if rest.head?.any Char.isDigit then none else some rest
  | cs => digits? cs

/-- What follows the fraction of a number, if there is one. -/
def afterFraction? : List Char → Option (List Char)
  | '.' :: rest => digits? rest
  | cs => some cs

/-- What follows the exponent of a number, if there is one. -/
def afterExponent? : List Char → Option (List Char)
  | c :: rest => if c = 'e' ∨ c = 'E' then digits? (Decimal.splitSign rest).2 else some (c :: rest)
  | [] => some []

/-- What follows a number. -/
def afterNumber? (cs : List Char) : Option (List Char) :=
  let unsigned :=
    match cs with
    | '-' :: rest => rest
    | cs => cs
  ((afterInteger? unsigned).bind afterFraction?).bind afterExponent?

/-- Accepts what follows something that was read if it is shorter. -/
def Read.check? {α : Type} (value : α) (rest : List Char) (bound : Nat) : Option (Read α bound) :=
  if h : rest.length < bound then some ⟨value, rest, h⟩ else none

def word? {bound : Nat} (word : String) (value : Outline) (cs : List Char) :
    Option (Read Outline bound) :=
  if word.toList.isPrefixOf cs then Read.check? value (cs.drop word.toList.length) bound else none

mutual

/-- Reads a value, without blanks in front. -/
def value? (cs : List Char) : Option (Read Outline cs.length) :=
  match cs with
  | [] => none
  | c :: rest =>
      if c = '[' then
        match hrest : skipSpace rest with
        | ']' :: after => Read.check? (.array []) after _
        | after =>
            have : after.length ≤ rest.length := hrest ▸ length_skipSpace_le rest
            match items? after with
            | none => none
            | some r => Read.check? (.array r.value) r.rest _
      else if c = '\x7b' then
        match hrest : skipSpace rest with
        | '\x7d' :: after => Read.check? (.object []) after _
        | after =>
            have : after.length ≤ rest.length := hrest ▸ length_skipSpace_le rest
            match fields? after with
            | none => none
            | some r => Read.check? (.object r.value) r.rest _
      else if c = '"' then
        match readText? rest with
        | none => none
        | some r => Read.check? .string r.2 _
      else if c = 'n' then word? "null" .null (c :: rest)
      else if c = 't' then word? "true" (.bool true) (c :: rest)
      else if c = 'f' then word? "false" (.bool false) (c :: rest)
      else
        match afterNumber? (c :: rest) with
        | none => none
        | some after => Read.check? .number after _
termination_by 2 * cs.length

/-- Reads the items of an array and its closing bracket. -/
def items? (cs : List Char) : Option (Read (List Outline) cs.length) :=
  match value? cs with
  | none => none
  | some first =>
      have := first.shorter
      match hrest : skipSpace first.rest with
      | ']' :: after => Read.check? [first.value] after _
      | ',' :: after =>
          have : (skipSpace after).length < cs.length := by
            have h1 := length_skipSpace_le after
            have h2 := length_skipSpace_le first.rest
            rw [hrest, List.length_cons] at h2
            omega
          match items? (skipSpace after) with
          | none => none
          | some others => Read.check? (first.value :: others.value) others.rest _
      | _ => none
termination_by 2 * cs.length + 1

/-- Reads the fields of an object and its closing brace. -/
def fields? (cs : List Char) : Option (Read (List (Option String × Outline)) cs.length) :=
  match cs with
  | '"' :: afterQuote =>
      match htext : readText? afterQuote with
      | none => none
      | some (units, afterText) =>
          match hcolon : skipSpace afterText with
          | ':' :: afterColon =>
              have hvalue : (skipSpace afterColon).length < afterQuote.length := by
                have h1 := length_skipSpace_le afterColon
                have h2 := length_skipSpace_le afterText
                have h3 := length_lt_of_readText? htext
                rw [hcolon, List.length_cons] at h2
                simp only at h3
                omega
              match value? (skipSpace afterColon) with
              | none => none
              | some first =>
                  have := first.shorter
                  let field := ((spell? units).map String.ofList, first.value)
                  match hrest : skipSpace first.rest with
                  | '\x7d' :: after => Read.check? [field] after _
                  | ',' :: after =>
                      have : (skipSpace after).length < afterQuote.length := by
                        have h1 := length_skipSpace_le after
                        have h2 := length_skipSpace_le first.rest
                        rw [hrest, List.length_cons] at h2
                        omega
                      match fields? (skipSpace after) with
                      | none => none
                      | some others => Read.check? (field :: others.value) others.rest _
                  | _ => none
          | _ => none
  | _ => none
termination_by 2 * cs.length + 1

end

/-- The outline of a whole text. -/
def ofText? (text : String) : Option Outline :=
  match value? (skipSpace text.toList) with
  | none => none
  | some r => if skipSpace r.rest = [] then some r.value else none

end Outline

end RecordQuery
