import JJDai.Lib.Dict

/-! A dictionary filled from a list of entries keeps the last value of each key. -/

namespace Dict

universe u v

variable {κ : Type u} {ν : Type v} [DecidableEq κ] {d entries others : Dict κ ν}

omit [DecidableEq κ] in
def IsLast (entries : Dict κ ν) (entry : κ × ν) : Prop :=
  ∃ front back, entries = front ++ entry :: back ∧ entry.1 ∉ keys back

omit [DecidableEq κ] in
theorem IsLast.mem {entry : κ × ν} (last : IsLast entries entry) : entry ∈ entries := by
  obtain ⟨front, back, rfl, _⟩ := last
  exact List.mem_append_right front List.mem_cons_self

omit [DecidableEq κ] in
theorem isLast_cons {first entry : κ × ν} :
    IsLast (first :: entries) entry ↔ IsLast entries entry ∨ entry = first ∧ first.1 ∉ keys entries := by
  constructor
  · intro last
    obtain ⟨front, back, shape, absent⟩ := last
    cases front with
    | nil =>
      obtain ⟨rfl, rfl⟩ := List.cons.inj shape
      exact .inr ⟨rfl, absent⟩
    | cons head front =>
      obtain ⟨rfl, rfl⟩ := List.cons.inj shape
      exact .inl ⟨front, back, rfl, absent⟩
  · intro either
    cases either with
    | inl later =>
      obtain ⟨front, back, rfl, absent⟩ := later
      exact ⟨first :: front, back, rfl, absent⟩
    | inr here =>
      obtain ⟨rfl, absent⟩ := here
      exact ⟨[], entries, rfl, absent⟩

theorem exists_last {entry : κ × ν} (member : entry ∈ entries) : ∃ value, IsLast entries (entry.1, value) := by
  induction entries generalizing entry with
  | nil => cases member
  | cons first rest ih =>
    by_cases again : entry.1 ∈ keys rest
    · obtain ⟨other, inside, same⟩ := List.mem_map.mp again
      obtain ⟨value, last⟩ := ih inside
      rw [same] at last
      exact ⟨value, isLast_cons.mpr (.inl last)⟩
    · cases List.mem_cons.mp member with
      | inl here =>
        subst here
        exact ⟨entry.2, isLast_cons.mpr (.inr ⟨rfl, again⟩)⟩
      | inr later => exact absurd (List.mem_map_of_mem later) again

omit [DecidableEq κ] in
theorem IsLast.unique {key : κ} {value other : ν} (first : IsLast entries (key, value))
    (second : IsLast entries (key, other)) : value = other := by
  induction entries with
  | nil =>
    obtain ⟨front, back, shape, _⟩ := first
    cases front <;> cases shape
  | cons head rest ih =>
    cases isLast_cons.mp first with
    | inl later =>
      cases isLast_cons.mp second with
      | inl later' => exact ih later later'
      | inr here =>
        obtain ⟨rfl, absent⟩ := here
        exact absurd (List.mem_map_of_mem later.mem) absent
    | inr here =>
      obtain ⟨rfl, absent⟩ := here
      cases isLast_cons.mp second with
      | inl later => exact absurd (List.mem_map_of_mem later.mem) absent
      | inr here => exact ((Prod.mk.inj here.1).2).symm

theorem mem_set_iff (unique : (keys d).Nodup) {key : κ} {value : ν} {entry : κ × ν} :
    entry ∈ set d key value ↔ entry = (key, value) ∨ entry ∈ d ∧ entry.1 ≠ key := by
  have held {d : Dict κ ν} (unique : (keys d).Nodup) (entry : κ × ν) :
      entry ∈ d ↔ get? d entry.1 = some entry.2 :=
    ⟨fun member => get?_of_mem unique member, mem_of_get?⟩
  obtain ⟨name, found⟩ := entry
  rw [held (nodup_set unique key value), held unique, get?_set]
  by_cases same : key = name
  · subst same
    simp [eq_comm]
  · simp [same, Ne.symm same]

theorem mem_update_iff (unique : (keys d).Nodup) {entry : κ × ν} :
    entry ∈ update d entries ↔ IsLast entries entry ∨ entry ∈ d ∧ entry.1 ∉ keys entries := by
  induction entries generalizing d with
  | nil =>
    have none_last : ¬IsLast ([] : Dict κ ν) entry := fun last => absurd last.mem List.not_mem_nil
    simp [update, keys, none_last]
  | cons first rest ih =>
    rw [update, List.foldl_cons, ← update, ih (nodup_set unique first.1 first.2), mem_set_iff unique, isLast_cons]
    have named : entry.1 ∉ keys (first :: rest) ↔ entry.1 ≠ first.1 ∧ entry.1 ∉ keys rest := by
      simp [keys, eq_comm]
    rw [named]
    constructor
    · intro kept
      rcases kept with later | ⟨rfl | ⟨old, different⟩, absent⟩
      · exact .inl (.inl later)
      · exact .inl (.inr ⟨rfl, absent⟩)
      · exact .inr ⟨old, different, absent⟩
    · intro kept
      rcases kept with (later | ⟨rfl, absent⟩) | ⟨old, different, absent⟩
      · exact .inl later
      · exact .inr ⟨.inl rfl, absent⟩
      · exact .inr ⟨.inr ⟨old, different⟩, absent⟩

theorem mem_update_nil {entry : κ × ν} : entry ∈ update [] entries ↔ IsLast entries entry := by
  have empty : (keys ([] : Dict κ ν)).Nodup := List.nodup_nil
  rw [mem_update_iff empty]
  simp

theorem nodup_update_nil : (keys (update [] entries)).Nodup := by
  have empty : (keys ([] : Dict κ ν)).Nodup := List.nodup_nil
  exact nodup_update empty entries

theorem update_of_nodup {d : Dict κ ν} (unique : (keys (d ++ entries)).Nodup) : update d entries = d ++ entries := by
  induction entries generalizing d with
  | nil => rw [update, List.foldl_nil, List.append_nil]
  | cons first rest ih =>
    have absent : first.1 ∉ keys d := by
      intro member
      rw [keys, List.map_append] at unique
      exact (List.nodup_append.mp unique).2.2 _ member _ List.mem_cons_self rfl
    rw [update, List.foldl_cons, ← update, set_absent absent, ih]
    · rw [List.append_assoc, List.singleton_append]
    · rwa [List.append_assoc, List.singleton_append]

theorem update_nil_eq_nil : update [] entries = [] ↔ entries = [] := by
  constructor
  · intro empty
    cases entries with
    | nil => rfl
    | cons first rest =>
      obtain ⟨value, last⟩ := exists_last (@List.mem_cons_self _ first rest)
      have member := mem_update_nil.mpr last
      rw [empty] at member
      cases member
  · intro empty
    rw [empty]
    rfl

theorem update_perm (order : entries.Perm others) (keeps : ∀ entry, IsLast entries entry → IsLast others entry) :
    (update [] entries).Perm (update [] others) := by
  have left := (@nodup_update_nil _ _ _ entries).of_map
  have right := (@nodup_update_nil _ _ _ others).of_map
  refine (List.perm_ext_iff_of_nodup left right).mpr (fun entry => ?_)
  rw [mem_update_nil, mem_update_nil]
  refine ⟨keeps entry, fun last => ?_⟩
  obtain ⟨value, kept⟩ := exists_last (order.mem_iff.mpr last.mem)
  rwa [(keeps _ kept).unique last] at kept

end Dict
