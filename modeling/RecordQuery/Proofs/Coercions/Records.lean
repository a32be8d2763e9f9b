import Mathlib
import RecordQuery.Proofs.Grouping.FirstSeen
import RecordQuery.Query.Coercion

/-! # Coerced records

Coercions of fields run one after the other. A field goes through the kinds that are asked for its
key, in order and starting from undefined if the record lacks it, and all other fields stay as they
are. No field moves, and new ones come behind the others.
-/

namespace RecordQuery

/-! ## What a record holds under a key -/

namespace Fields

variable {fields other : Fields} {key : String} {j : Json}

/-- The value under a key, undefined if there is none. -/
def read (fields : Fields) (key : String) : Value :=
  Value.property (.json (.object fields)) key

theorem read_eq : fields.read key = ((fields.get? key).map Value.json).getD .undefined := by
  rw [read, Value.property]
  cases fields.get? key <;> rfl

theorem read_eq_json_iff : fields.read key = .json j ↔ fields.get? key = some j := by
  rw [read_eq]
  cases fields.get? key with
  | none => exact ⟨nofun, nofun⟩
  | some i => simp

/-- Undefined is the value of no field, so a value tells whether there is one. -/
theorem get?_eq_of_read_eq (h : fields.read key = other.read key) :
    fields.get? key = other.get? key := by
  cases hget : other.get? key with
  | some j => exact read_eq_json_iff.mp (h.trans (read_eq_json_iff.mpr hget))
  | none =>
      rw [read_eq, read_eq, hget] at h
      cases hget' : fields.get? key with
      | none => rfl
      | some i =>
          rw [hget'] at h
          cases h

/-- Writing what is there changes nothing. -/
theorem insert_of_get? (h : fields.get? key = some j) : fields.insert key j = fields := by
  induction fields with
  | nil => cases h
  | cons field rest ih =>
      obtain ⟨k, i⟩ := field
      rw [get?_cons] at h
      rw [insert]
      split at h
      next heq =>
        obtain rfl := Option.some.inj h
        rw [if_pos heq.symm, heq]
      next hne => rw [if_neg (Ne.symm hne), ih h]

end Fields

/-! ## One coercion -/

namespace KeyCoercion

variable (c : KeyCoercion) (record : Fields)

theorem apply_eq_insert :
    c.apply record = record.insert c.key (c.kind.apply (record.read c.key)) := by
  rw [apply, Fields.read_eq]
  cases record.get? c.key <;> rfl

/-- A coercion changes the field of its key alone. -/
theorem read_apply (key : String) : (c.apply record).read key =
    if key = c.key then .json (c.kind.apply (record.read key)) else record.read key := by
  rw [apply_eq_insert, Fields.read_eq, Fields.get?_insert]
  split
  next h => rw [h, Option.map_some, Option.getD_some]
  next => exact Fields.read_eq.symm

/-- A coerced field stays in its place, and a new one is the last. -/
theorem keys_apply : (c.apply record).keys =
    if c.key ∈ record.keys then record.keys else record.keys ++ [c.key] := by
  rw [apply_eq_insert, Fields.keys_insert]

/-- A second coercion changes nothing just when it leaves the value that the first one wrote. -/
theorem apply_apply_eq_iff : c.apply (c.apply record) = c.apply record ↔
    c.kind.apply (.json (c.kind.apply (record.read c.key))) =
      c.kind.apply (record.read c.key) := by
  have hread : (c.apply record).read c.key = .json (c.kind.apply (record.read c.key)) := by
    rw [c.read_apply, if_pos rfl]
  constructor
  · intro h
    have hagain : (c.apply (c.apply record)).read c.key =
        .json (c.kind.apply (record.read c.key)) := by
      rw [h, hread]
    rw [c.read_apply, if_pos rfl, hread] at hagain
    exact Value.json.inj hagain
  · intro h
    rw [c.apply_eq_insert (c.apply record), hread, h]
    exact Fields.insert_of_get? (Fields.read_eq_json_iff.mp hread)

end KeyCoercion

/-! ## Coercions one after the other -/

/-- A value made into one kind after the other. -/
def CoercionKind.applyAll (kinds : List CoercionKind) (v : Value) : Value :=
  kinds.foldl (fun v kind => .json (kind.apply v)) v

/-- The kinds that are asked for a key, in order. -/
def kindsFor (coercions : List KeyCoercion) (key : String) : List CoercionKind :=
  (coercions.filter fun c => key == c.key).map KeyCoercion.kind

/-- The keys that are coerced and that a record lacks, in the order in which they are first asked
for. -/
def missingKeys (coercions : List KeyCoercion) (record : Fields) : List String :=
  (coercions.map KeyCoercion.key).eraseDups.filter fun key => key ∉ record.keys

/-- What coercions make of a record: its own keys are followed by the missing ones, a named field
has its value made into the kinds that are asked for it, and every other field is as it was. -/
structure IsCoerced (coercions : List KeyCoercion) (record out : Fields) : Prop where
  keys : out.keys = record.keys ++ missingKeys coercions record
  named : ∀ key ∈ coercions.map KeyCoercion.key,
    out.read key = CoercionKind.applyAll (kindsFor coercions key) (record.read key)
  other : ∀ key ∉ coercions.map KeyCoercion.key, out.get? key = record.get? key

variable {coercions : List KeyCoercion} {record : Fields}

/-- A field goes through the kinds that are asked for it. -/
theorem read_coerceFields (key : String) : (coerceFields coercions record).read key =
    CoercionKind.applyAll (kindsFor coercions key) (record.read key) := by
  induction coercions generalizing record with
  | nil => rfl
  | cons c coercions ih =>
      have hstep : coerceFields (c :: coercions) record =
          coerceFields coercions (c.apply record) := rfl
      rw [hstep, ih, c.read_apply, kindsFor, kindsFor, List.filter_cons]
      by_cases hkey : key = c.key
      · rw [if_pos hkey, if_pos (beq_iff_eq.mpr hkey)]
        rfl
      · rw [if_neg hkey, if_neg (mt beq_iff_eq.mp hkey)]

theorem keys_coerceFields (coercions : List KeyCoercion) (record : Fields) :
    (coerceFields coercions record).keys = record.keys ++ missingKeys coercions record := by
  induction coercions using List.reverseRecOn with
  | nil => exact (List.append_nil _).symm
  | append_singleton coercions c ih =>
      have hstep : coerceFields (coercions ++ [c]) record =
          c.apply (coerceFields coercions record) := List.foldl_concat ..
      rw [hstep, c.keys_apply, ih, missingKeys, missingKeys, List.map_append, List.map_singleton]
      by_cases hasked : c.key ∈ coercions.map KeyCoercion.key
      · rw [FirstSeen.eraseDups_append_of_mem hasked, if_pos]
        by_cases hkey : c.key ∈ record.keys
        · exact List.mem_append_left _ hkey
        · exact List.mem_append_right _ (by simp [hkey, hasked])
      · rw [FirstSeen.eraseDups_append_of_not_mem hasked, List.filter_append]
        by_cases hkey : c.key ∈ record.keys
        · rw [if_pos (List.mem_append_left _ hkey)]
          simp [hkey]
        · rw [if_neg (by simp [hkey, hasked])]
          simp [hkey]

/-- Nothing is asked of a key that no coercion names. -/
theorem kindsFor_eq_nil {key : String} (h : key ∉ coercions.map KeyCoercion.key) :
    kindsFor coercions key = [] := by
  rw [kindsFor, List.map_eq_nil_iff, List.filter_eq_nil_iff]
  rintro c hc heq
  exact h (beq_iff_eq.mp heq ▸ List.mem_map_of_mem hc)

/-- Coercions change the fields that they name, add those that the record lacks and keep the rest,
each in its place. Of values that are no records nothing changes. -/
theorem coerceRecord_isCoerced (coercions : List KeyCoercion) :
    (∀ record, ∃ out, coerceRecord coercions (.object record) = .object out ∧
      IsCoerced coercions record out) ∧
    ∀ j, (∀ record, j ≠ .object record) → coerceRecord coercions j = j := by
  refine ⟨fun record => ⟨coerceFields coercions record, rfl, ?_⟩, fun j hj => ?_⟩
  · refine ⟨keys_coerceFields coercions record, fun key _ => read_coerceFields key, ?_⟩
    intro key hkey
    apply Fields.get?_eq_of_read_eq
    rw [read_coerceFields, kindsFor_eq_nil hkey]
    rfl
  · cases j with
    | object record => exact absurd rfl (hj record)
    | null | bool b | number n | string s | array items => rfl

/-- A field that the record lacks is coerced twice, the second time as the first left it, and stands
before another one that is asked for later. -/
theorem coerceRecord_isCoerced_missing :
    let coercions : List KeyCoercion :=
      [⟨"b", .list⟩, ⟨"d", .string⟩, ⟨"c", .list⟩, ⟨"d", .list⟩]
    let record : Fields := [("a", .null), ("b", .bool true), ("e", .string "x")]
    (∃ out : Fields, coerceRecord coercions (.object record) = .object out ∧
      out.keys = ["a", "b", "e", "d", "c"] ∧
      out.read "d" = .json (.array [.string "undefined"]) ∧
      out.read "b" = .json (.array [.bool true]) ∧ out.get? "e" = some (.string "x")) ∧
    coerceRecord coercions (.array []) = .array [] := by
  intro coercions record
  obtain ⟨hobject, hother⟩ := coerceRecord_isCoerced coercions
  obtain ⟨out, hout, h⟩ := hobject record
  have hkeys : missingKeys coercions record = ["d", "c"] := by decide
  refine ⟨⟨out, hout, ?_, ?_, ?_, ?_⟩, hother _ nofun⟩
  · rw [h.keys, hkeys]
    rfl
  · rw [h.named "d" (by decide)]
    rfl
  · rw [h.named "b" (by decide)]
    rfl
  · rw [h.other "e" (by decide)]
    rfl

end RecordQuery
