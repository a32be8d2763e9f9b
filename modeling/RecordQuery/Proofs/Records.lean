import Mathlib.Data.List.Induction
import Mathlib.Data.List.Nodup
import RecordQuery.Json

/-! # Records from pairs

What is read from a record that was written pair by pair: of a repeated key the last value, and
else what the record held before.
-/

namespace RecordQuery.Fields

variable {ι : Type} (name : ι → String) (value : ι → Json)

/-- Reading after one write for each item. The last item of a name counts. -/
theorem get?_insertAll_map (items : List ι) (fields : Fields) (key : String) :
    (insertAll fields (items.map fun x => (name x, value x))).get? key =
      ((items.reverse.find? fun x => name x == key).map value).or (fields.get? key) := by
  induction items generalizing fields with
  | nil => rfl
  | cons x items ih =>
      have hstep : insertAll fields ((x :: items).map fun x => (name x, value x)) =
          insertAll (fields.insert (name x) (value x)) (items.map fun x => (name x, value x)) := rfl
      rw [hstep, ih, get?_insert, List.reverse_cons, List.find?_append]
      cases items.reverse.find? fun x => name x == key with
      | some y => rfl
      | none =>
          by_cases hx : key = name x
          · simp [hx]
          · simp [hx, Ne.symm hx]

theorem insertAll_append_singleton (fields : Fields) (pairs : List (String × Json))
    (pair : String × Json) :
    insertAll fields (pairs ++ [pair]) = (insertAll fields pairs).insert pair.1 pair.2 := by
  rw [insertAll, List.foldl_append]
  rfl

theorem insert_of_not_mem {fields : Fields} {key : String} (h : key ∉ fields.keys) (value : Json) :
    fields.insert key value = fields ++ [(key, value)] := by
  induction fields with
  | nil => rfl
  | cons field rest ih =>
      obtain ⟨hne, hrest⟩ := not_or.mp (mt List.mem_cons.mpr h)
      rw [insert, if_neg (Ne.symm hne), ih hrest, List.cons_append]

/-- A record with distinct keys is the copy that is written of it. -/
theorem insertAll_nil {fields : Fields} (h : fields.keys.Nodup) : insertAll [] fields = fields := by
  induction fields using List.reverseRecOn with
  | nil => rfl
  | append_singleton fields field ih =>
      rw [keys, List.map_append, List.map_singleton, ← List.concat_eq_append,
        List.nodup_concat] at h
      rw [insertAll_append_singleton, ih h.2, insert_of_not_mem h.1]

/-- Reading from a record that holds one value for each of its keys. -/
theorem get?_map (f : String → Json) (keys : List String) (key : String) :
    get? (keys.map fun k => (k, f k)) key = if key ∈ keys then some (f key) else none := by
  induction keys with
  | nil => rfl
  | cons k keys ih =>
      rw [List.map_cons, get?_cons, ih]
      by_cases hk : key = k
      · simp [hk]
      · simp [hk]

theorem keys_map (f : String → Json) (keys : List String) :
    Fields.keys (keys.map fun k => (k, f k)) = keys := by
  simp [Fields.keys, Function.comp_def]

/-- What is read from a record is one of its fields. -/
theorem mem_of_get? {fields : Fields} {key : String} {v : Json} (h : fields.get? key = some v) :
    (key, v) ∈ fields := by
  induction fields with
  | nil => cases h
  | cons field rest ih =>
      obtain ⟨k, x⟩ := field
      rw [get?_cons] at h
      split at h
      next heq =>
        obtain rfl := Option.some.inj h
        exact heq ▸ List.mem_cons_self
      next => exact List.mem_cons_of_mem _ (ih h)

/-- With each key once, every field is the one that is found under its key. -/
theorem get?_of_mem {fields : Fields} (hkeys : fields.keys.Nodup) {key : String} {v : Json}
    (h : (key, v) ∈ fields) : fields.get? key = some v := by
  induction fields with
  | nil => cases h
  | cons field rest ih =>
      obtain ⟨hnot, hrest⟩ := List.nodup_cons.mp hkeys
      rw [get?_cons]
      rcases List.mem_cons.mp h with rfl | hmem
      · exact if_pos rfl
      · have hne : key ≠ field.1 := by
          rintro rfl
          exact hnot (List.mem_map.mpr ⟨_, hmem, rfl⟩)
        rw [if_neg hne, ih hrest hmem]

end RecordQuery.Fields
