import RecordQuery.Json.Collections
import RecordQuery.Proofs.Records

/-! # Lists under keys

A list goes into a record over a list of keys, item by item, and is read back in the order of the
keys. With distinct keys nothing is lost but what has no place: items past the last key, and fields
under other keys.
-/

namespace RecordQuery.Fields

variable {keys : List String} {record : Fields}

theorem keys_pairUp (items : List Json) (keys : List String) :
    Fields.keys (pairUp items keys) = keys := by
  induction keys generalizing items with
  | nil => cases items <;> rfl
  | cons key keys ih => cases items <;> exact congrArg (key :: ·) (ih _)

/-- The paired items are the first ones, with null for those that are missing. -/
theorem values_pairUp (items : List Json) (keys : List String) : values (pairUp items keys) =
    items.take keys.length ++ List.replicate (keys.length - items.length) .null := by
  induction keys generalizing items with
  | nil =>
      rw [List.length_nil, List.take_zero, Nat.zero_sub]
      cases items <;> rfl
  | cons key keys ih =>
      cases items with
      | nil =>
          have hnull : values (pairUp [] keys) = List.replicate keys.length .null := by
            rw [ih, List.take_nil, List.nil_append, List.length_nil, Nat.sub_zero]
          exact congrArg (Json.null :: ·) hnull
      | cons item items =>
          rw [List.length_cons, List.length_cons, List.take_succ_cons, Nat.add_sub_add_right]
          exact congrArg (item :: ·) (ih items)

theorem pairUp_map (f : String → Json) (keys : List String) :
    pairUp (keys.map f) keys = keys.map fun key => (key, f key) := by
  induction keys with
  | nil => rfl
  | cons key keys ih => exact congrArg ((key, f key) :: ·) ih

theorem delist_eq_pairUp (hkeys : keys.Nodup) (items : List Json) :
    delist items keys = pairUp items keys := by
  apply insertAll_nil
  rwa [keys_pairUp]

/-- What a record with distinct keys holds under them, in their order, is its values. -/
theorem enlist_keys (hkeys : record.keys.Nodup) : record.enlist record.keys = record.values := by
  rw [enlist, keys, values, List.map_map]
  apply List.map_congr_left
  intro field hfield
  exact congrArg (Option.getD · Json.null) (get?_of_mem hkeys hfield)

/-- Over distinct keys, a list comes back cut or padded with null to their number, and a record
comes back with these keys only, in this order. -/
theorem enlist_delist (hkeys : keys.Nodup) (items : List Json) (record : Fields) :
    (delist items keys).enlist keys =
        items.take keys.length ++ List.replicate (keys.length - items.length) .null ∧
      delist (record.enlist keys) keys =
        keys.map fun key => (key, (record.get? key).getD .null) := by
  rw [delist_eq_pairUp hkeys, delist_eq_pairUp hkeys]
  have hdistinct : (Fields.keys (pairUp items keys)).Nodup := by rwa [keys_pairUp]
  have henlist := enlist_keys hdistinct
  rw [keys_pairUp, values_pairUp] at henlist
  exact ⟨henlist, pairUp_map _ keys⟩

/-- A list that is too short, one that is too long, and a record that lacks a key and has another
one. -/
theorem enlist_delist_two_keys :
    let keys := ["a", "b"]
    let record : Fields := [("z", .bool false), ("b", .bool true)]
    keys.Nodup ∧ (delist [.bool true] keys).enlist keys = [.bool true, .null] ∧
      (delist [.bool true, .bool false, .null] keys).enlist keys = [.bool true, .bool false] ∧
      delist (record.enlist keys) keys = [("a", .null), ("b", .bool true)] := by
  intro keys record
  have hkeys : keys.Nodup := by decide
  exact ⟨hkeys, (enlist_delist hkeys [.bool true] record).1,
    (enlist_delist hkeys [.bool true, .bool false, .null] record).1,
    (enlist_delist hkeys [] record).2⟩

end RecordQuery.Fields
