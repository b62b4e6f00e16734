import JJDai.Primitive.CanonicalOrder
import JJDai.Primitive.Witness

/-! What is read back from a journal line: the same fields, in another order. -/

namespace JJDai

open PyText Canonical

theorem subscript_sortKeys {j value : Json} {key : Str} (sound : j.valid)
    (read : subscript j key = .ok value) : subscript j.sortKeys key = .ok value.sortKeys := by
  obtain ⟨fields, rfl⟩ := obj_of_subscript read
  rw [Json.sortKeys_obj, subscript_obj, Json.get?_sortKeys (Json.valid_obj.mp sound).1,
    subscript_obj.mp read]
  rfl

theorem valid_of_get? {fields : Dict Str Json} {key : Str} {value : Json}
    (sound : (Json.obj fields).valid) (found : Dict.get? fields key = some value) : value.valid :=
  (Json.valid_obj.mp sound).2 _ (Dict.mem_of_get? found)

theorem valid_of_subscript {j value : Json} {key : Str} (sound : j.valid)
    (read : subscript j key = .ok value) : value.valid := by
  obtain ⟨fields, rfl⟩ := obj_of_subscript read
  exact valid_of_get? sound (subscript_obj.mp read)

theorem bytesFromHex_sortKeys {j : Json} {bytes : Bytes} (read : bytesFromHex j = .ok bytes) :
    bytesFromHex j.sortKeys = .ok bytes := by
  cases j with
  | str s => exact read
  | _ => cases read

/-- The fields of a dict as they are read back. -/
def sortedFields (fields : Dict Str Json) : Dict Str Json :=
  Json.sortEntries (fields.map (fun entry => (entry.1, entry.2.sortKeys)))

theorem get?_sortedFields {fields : Dict Str Json} (sound : (Json.obj fields).valid) {key : Str}
    {value : Json} (found : Dict.get? fields key = some value) :
    Dict.get? (sortedFields fields) key = some value.sortKeys := by
  rw [sortedFields, Json.get?_sortKeys (Json.valid_obj.mp sound).1, found]
  rfl

theorem dotGet_sortKeys {j value : Json} {key : Str} (sound : j.valid) (read : dotGet j key = .ok value) :
    dotGet j.sortKeys key = .ok value.sortKeys := by
  obtain ⟨fields, rfl⟩ := obj_of_dotGet read
  rw [dotGet_obj] at read
  rw [Json.sortKeys_obj, dotGet_obj, Json.get?_sortKeys (Json.valid_obj.mp sound).1,
    ← Except.ok.inj read]
  cases Dict.get? fields key <;> rfl

theorem canonical_perm {fields other : Dict Str Json} (order : fields.Perm other)
    (unique : (Dict.keys fields).Nodup) : canonical (.obj fields) = canonical (.obj other) := by
  rw [canonical, serialize_perm order unique, canonical]

theorem canonical_unsigned {fields : Dict Str Json} (sound : (Json.obj fields).valid) :
    canonical (.obj (unsignedRecord (sortedFields fields))) =
      canonical (.obj (unsignedRecord fields)) := by
  have sublist : (unsignedRecord fields).Sublist fields := List.filter_sublist
  have inner : (Json.obj (unsignedRecord fields)).valid := by
    obtain ⟨unique, values⟩ := Json.valid_obj.mp sound
    exact Json.valid_obj.mpr ⟨unique.sublist (sublist.map _), fun entry member =>
      values entry (sublist.subset member)⟩
  have order : (unsignedRecord (sortedFields fields)).Perm
      ((unsignedRecord fields).map (fun entry => (entry.1, entry.2.sortKeys))) := by
    have filtered := (Json.sortEntries_perm
      (fields.map (fun entry => (entry.1, entry.2.sortKeys)))).filter
        (fun entry => decide (entry.1 ≠ Str.ofString "this_hash" ∧ entry.1 ≠ Str.ofString "sig"))
    rw [List.filter_map] at filtered
    exact filtered
  have unique : (Dict.keys (unsignedRecord (sortedFields fields))).Nodup := by
    have keys : (Dict.keys (unsignedRecord (sortedFields fields))).Perm
        (Dict.keys (unsignedRecord fields)) := by
      have mapped := order.map Prod.fst
      rw [List.map_map] at mapped
      exact mapped
    rw [keys.nodup_iff]
    exact (Json.valid_obj.mp inner).1
  rw [canonical_perm order unique, ← canonical_sortKeys inner, Json.sortKeys_obj]
  refine canonical_perm (Json.sortEntries_perm _).symm ?_
  rw [Json.keys_map]
  exact (Json.valid_obj.mp inner).1

end JJDai
