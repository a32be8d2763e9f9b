import RecordQuery.Number

/-! # JSON values

Plain data: null, booleans, numbers, texts, arrays and objects. An object keeps its fields in the
order in which they were first written, and holds each key once.
-/

namespace RecordQuery

inductive Json where
  | null
  | bool (b : Bool)
  | number (n : Number)
  | string (s : String)
  | array (items : List Json)
  | object (fields : List (String × Json))
deriving Inhabited, Repr

/-- The fields of an object in order. -/
abbrev Fields := List (String × Json)

namespace Fields

/-- The value under a key. -/
def get? (fields : Fields) (key : String) : Option Json :=
  match fields with
  | [] => none
  | (k, v) :: rest => if key = k then some v else get? rest key

/-- Writes a field: in place if the key is there, else at the end. -/
def insert (key : String) (value : Json) : Fields → Fields
  | [] => [(key, value)]
  | (k, v) :: rest => if k = key then (key, value) :: rest else (k, v) :: insert key value rest

def keys (fields : Fields) : List String :=
  fields.map Prod.fst

def values (fields : Fields) : List Json :=
  fields.map Prod.snd

/-- Writes pairs one after the other, so that the last value of a repeated key stays. -/
def insertAll (fields : Fields) (pairs : List (String × Json)) : Fields :=
  pairs.foldl (fun out pair => out.insert pair.1 pair.2) fields

def ofPairs (pairs : List (String × Json)) : Fields :=
  insertAll [] pairs

@[simp] theorem get?_nil (key : String) : get? [] key = none := rfl

theorem get?_cons (k : String) (v : Json) (rest : Fields) (key : String) :
    get? ((k, v) :: rest) key = if key = k then some v else get? rest key := rfl

/-- Reading after writing. -/
theorem get?_insert (fields : Fields) (key other : String) (value : Json) :
    (insert key value fields).get? other =
      if other = key then some value else fields.get? other := by
  induction fields with
  | nil => simp [insert, get?_cons]
  | cons field rest ih =>
      obtain ⟨k, v⟩ := field
      by_cases hk : k = key
      · subst hk
        by_cases ho : other = k <;> simp [insert, get?_cons, ho]
      · by_cases ho : other = k
        · subst ho
          simp [insert, get?_cons, hk]
        · simp [insert, get?_cons, hk, ho, ih]

/-- Writing keeps the keys in place and appends a new one. -/
theorem keys_insert (fields : Fields) (key : String) (value : Json) :
    (insert key value fields).keys =
      if key ∈ fields.keys then fields.keys else fields.keys ++ [key] := by
  induction fields with
  | nil => simp [insert, keys]
  | cons field rest ih =>
      obtain ⟨k, v⟩ := field
      by_cases hk : k = key
      · subst hk
        simp [insert, keys]
      · have hkey : key ≠ k := fun h => hk h.symm
        simp only [keys] at ih
        by_cases hmem : key ∈ rest.map Prod.fst <;>
          simp [insert, keys, hk, hkey, hmem, ih]

end Fields

/-- A finite float as JSON; a float that is not finite has no JSON form and becomes null. -/
def Json.ofFloat (x : Float) : Json :=
  if x.isFinite then .number (Number.ofFinite x) else .null

end RecordQuery
