import JJDai.Lib.Dict
import JJDai.Lib.Number
import Mathlib.Data.List.Sort

/-! JSON values as Python's `json` module holds them: dicts keep insertion
order, integers are unbounded, floats may be non-finite. -/

namespace PyText

inductive Json where
  | null
  | bool (value : Bool)
  | int (value : Int)
  | float (value : PyFloat)
  | str (value : Str)
  | arr (items : List Json)
  | obj (fields : List (Str × Json))

namespace Json

@[elab_as_elim, induction_eliminator]
theorem induct {P : Json → Prop} (null : P .null) (bool : ∀ b, P (.bool b))
    (int : ∀ n, P (.int n)) (float : ∀ x, P (.float x)) (str : ∀ s, P (.str s))
    (arr : ∀ items, (∀ item ∈ items, P item) → P (.arr items))
    (obj : ∀ fields, (∀ entry ∈ fields, P entry.2) → P (.obj fields)) (j : Json) : P j := by
  refine Json.rec (motive_2 := fun items => ∀ item ∈ items, P item)
    (motive_3 := fun fields => ∀ entry ∈ fields, P entry.2) (motive_4 := fun entry => P entry.2)
    null bool int float str arr obj ?_ ?_ ?_ ?_ ?_ j
  · intro item absent; cases absent
  · intro head tail first rest item member
    rcases List.mem_cons.mp member with rfl | member
    · exact first
    · exact rest item member
  · intro entry absent; cases absent
  · intro head tail first rest entry member
    rcases List.mem_cons.mp member with rfl | member
    · exact first
    · exact rest entry member
  · intro key value ih; exact ih

mutual

private def same : Json → Json → Bool
  | .null, .null => true
  | .bool a, .bool b => a == b
  | .int a, .int b => a == b
  | .float a, .float b => a == b
  | .str a, .str b => a == b
  | .arr a, .arr b => sameItems a b
  | .obj a, .obj b => sameFields a b
  | _, _ => false

private def sameItems : List Json → List Json → Bool
  | [], [] => true
  | a :: as, b :: bs => same a b && sameItems as bs
  | _, _ => false

private def sameFields : Dict Str Json → Dict Str Json → Bool
  | [], [] => true
  | (k, a) :: as, (l, b) :: bs => k == l && same a b && sameFields as bs
  | _, _ => false

end

private theorem same_iff (a b : Json) : same a b = true ↔ a = b := by
  induction a generalizing b with
  | arr items ih =>
    cases b with
    | arr others =>
      simp only [same, arr.injEq]
      induction items generalizing others with
      | nil => cases others <;> simp [sameItems]
      | cons head tail rest =>
        cases others with
        | nil => simp [sameItems]
        | cons other others =>
          simp only [List.mem_cons, forall_eq_or_imp] at ih
          simp [sameItems, ih.1, rest ih.2]
    | _ => simp [same]
  | obj fields ih =>
    cases b with
    | obj others =>
      simp only [same, obj.injEq]
      induction fields generalizing others with
      | nil => cases others <;> simp [sameFields]
      | cons head tail rest =>
        cases others with
        | nil => simp [sameFields]
        | cons other others =>
          simp only [List.mem_cons, forall_eq_or_imp] at ih
          simp [sameFields, ih.1, rest ih.2, Prod.ext_iff]
    | _ => simp [same]
  | _ => cases b <;> simp [same]

instance : DecidableEq Json := fun a b => decidable_of_iff (same a b = true) (same_iff a b)

mutual

/-- Every dict inside has pairwise different keys, as Python dicts do. -/
def valid : Json → Bool
  | .arr items => validItems items
  | .obj fields => decide (Dict.keys fields).Nodup && validFields fields
  | _ => true

private def validItems : List Json → Bool
  | [] => true
  | item :: rest => valid item && validItems rest

private def validFields : Dict Str Json → Bool
  | [] => true
  | (_, value) :: rest => valid value && validFields rest

end

theorem valid_arr {items : List Json} : valid (.arr items) ↔ ∀ item ∈ items, valid item := by
  rw [valid]
  induction items with
  | nil => simp [validItems]
  | cons head tail ih => simp [validItems, ih]

theorem valid_obj {fields : Dict Str Json} :
    valid (.obj fields) ↔ (Dict.keys fields).Nodup ∧ ∀ entry ∈ fields, valid entry.2 := by
  have inner : validFields fields ↔ ∀ entry ∈ fields, valid entry.2 := by
    induction fields with
    | nil => simp [validFields]
    | cons head tail ih => simp [validFields, ih]
  rw [valid, Bool.and_eq_true, decide_eq_true_iff, inner]

/-- Entries in the order of their keys, as `sort_keys=True` writes them. -/
def sortEntries (fields : Dict Str Json) : Dict Str Json :=
  fields.insertionSort (fun a b => a.1 ≤ b.1)

mutual

/-- A value as it is read back after `sort_keys=True`. -/
def sortKeys : Json → Json
  | .arr items => .arr (sortKeysItems items)
  | .obj fields => .obj (sortEntries (sortKeysFields fields))
  | j => j

private def sortKeysItems : List Json → List Json
  | [] => []
  | item :: rest => sortKeys item :: sortKeysItems rest

private def sortKeysFields : Dict Str Json → Dict Str Json
  | [] => []
  | (key, value) :: rest => (key, sortKeys value) :: sortKeysFields rest

end

@[simp] theorem sortKeys_arr (items : List Json) :
    sortKeys (.arr items) = .arr (items.map sortKeys) := by
  rw [sortKeys]
  congr 1
  induction items with
  | nil => rfl
  | cons head tail ih => simp [sortKeysItems, ih]

@[simp] theorem sortKeys_obj (fields : Dict Str Json) :
    sortKeys (.obj fields) = .obj (sortEntries (fields.map (fun entry => (entry.1, sortKeys entry.2)))) := by
  have inner : sortKeysFields fields = fields.map (fun entry => (entry.1, sortKeys entry.2)) := by
    induction fields with
    | nil => rfl
    | cons head tail ih => simp [sortKeysFields, ih]
  rw [sortKeys, inner]

theorem sortEntries_perm (fields : Dict Str Json) : (sortEntries fields).Perm fields :=
  List.perm_insertionSort _ _

theorem mem_sortEntries {fields : Dict Str Json} {entry : Str × Json} :
    entry ∈ sortEntries fields ↔ entry ∈ fields :=
  (sortEntries_perm fields).mem_iff

private theorem sortEntries_sorted (fields : Dict Str Json) :
    (sortEntries fields).Pairwise (fun a b => a.1 ≤ b.1) :=
  @List.pairwise_insertionSort _ (fun a b : Str × Json => a.1 ≤ b.1) _
    ⟨fun a b => le_total a.1 b.1⟩ ⟨fun _ _ _ => le_trans⟩ fields

theorem sortEntries_of_sorted {fields : Dict Str Json}
    (sorted : fields.Pairwise (fun a b => a.1 ≤ b.1)) : sortEntries fields = fields :=
  List.Pairwise.insertionSort_eq sorted

theorem sortEntries_map (f : Json → Json) (fields : Dict Str Json) :
    sortEntries (fields.map (fun entry => (entry.1, f entry.2))) =
      (sortEntries fields).map (fun entry => (entry.1, f entry.2)) :=
  (List.map_insertionSort (fun a b : Str × Json => a.1 ≤ b.1) (fun a b : Str × Json => a.1 ≤ b.1)
    (fun entry => (entry.1, f entry.2)) fields (fun _ _ _ _ => Iff.rfl)).symm

theorem keys_map (f : Json → Json) (fields : Dict Str Json) :
    Dict.keys (fields.map (fun entry => (entry.1, f entry.2))) = Dict.keys fields := by
  simp [Dict.keys]

theorem keys_sortEntries (fields : Dict Str Json) :
    (Dict.keys (sortEntries fields)).Perm (Dict.keys fields) :=
  (sortEntries_perm fields).map _

theorem get?_sortKeys {fields : Dict Str Json} (unique : (Dict.keys fields).Nodup) (key : Str) :
    Dict.get? (sortEntries (fields.map (fun entry => (entry.1, sortKeys entry.2)))) key =
      (Dict.get? fields key).map sortKeys := by
  rw [← Dict.get?_map]
  refine (Dict.get?_perm (sortEntries_perm _).symm ?_ key).symm
  rwa [keys_map]

theorem sortEntries_ext {fields other : Dict Str Json} (unique : (Dict.keys fields).Nodup)
    (unique' : (Dict.keys other).Nodup) (same : ∀ key, Dict.get? fields key = Dict.get? other key) :
    sortEntries fields = sortEntries other := by
  have members : ∀ entry, entry ∈ fields ↔ entry ∈ other := by
    intro entry
    constructor
    · intro member
      exact Dict.mem_of_get? (same entry.1 ▸ Dict.get?_of_mem unique member)
    · intro member
      exact Dict.mem_of_get? ((same entry.1).symm ▸ Dict.get?_of_mem unique' member)
  have order : (sortEntries fields).Perm (sortEntries other) := by
    refine (sortEntries_perm fields).trans (List.Perm.trans ?_ (sortEntries_perm other).symm)
    exact (List.perm_ext_iff_of_nodup (List.Nodup.of_map _ unique) (List.Nodup.of_map _ unique')).mpr members
  refine List.Perm.eq_of_pairwise (fun a b first second le ge => ?_) (sortEntries_sorted fields)
    (sortEntries_sorted other) order
  have keys : a.1 = b.1 := le_antisymm le ge
  have foundA := Dict.get?_of_mem unique (mem_sortEntries.mp first)
  have foundB := Dict.get?_of_mem unique' (mem_sortEntries.mp second)
  rw [← keys, ← same, foundA] at foundB
  exact Prod.ext keys (Option.some.inj foundB)

theorem sortKeys_obj_ext {fields other : Dict Str Json} (unique : (Dict.keys fields).Nodup)
    (unique' : (Dict.keys other).Nodup) :
    sortKeys (.obj fields) = sortKeys (.obj other) ↔
      ∀ key, (Dict.get? fields key).map sortKeys = (Dict.get? other key).map sortKeys := by
  constructor
  · intro same key
    rw [sortKeys_obj, sortKeys_obj, obj.injEq] at same
    rw [← get?_sortKeys unique, ← get?_sortKeys unique', same]
  · intro same
    rw [sortKeys_obj, sortKeys_obj, obj.injEq]
    refine sortEntries_ext (by rwa [keys_map]) (by rwa [keys_map]) (fun key => ?_)
    rw [Dict.get?_map, Dict.get?_map]
    exact same key

theorem valid_sortKeys {j : Json} (sound : valid j) : valid (sortKeys j) := by
  induction j with
  | arr items ih =>
    rw [valid_arr] at sound
    rw [sortKeys_arr, valid_arr]
    intro item member
    obtain ⟨source, present, rfl⟩ := List.mem_map.mp member
    exact ih source present (sound source present)
  | obj fields ih =>
    rw [valid_obj] at sound
    rw [sortKeys_obj, valid_obj]
    constructor
    · rw [(keys_sortEntries _).nodup_iff, keys_map]
      exact sound.1
    · intro entry member
      obtain ⟨source, present, rfl⟩ := List.mem_map.mp (mem_sortEntries.mp member)
      exact ih source present (sound.2 source present)
  | _ => simpa [sortKeys] using sound

theorem sortKeys_sortKeys (j : Json) : sortKeys (sortKeys j) = sortKeys j := by
  induction j with
  | arr items ih =>
    simp only [sortKeys_arr, List.map_map, arr.injEq]
    exact List.map_congr_left (fun item member => ih item member)
  | obj fields ih =>
    simp only [sortKeys_obj, obj.injEq]
    rw [← sortEntries_map, List.map_map, sortEntries_of_sorted (sortEntries_sorted _)]
    congr 1
    apply List.map_congr_left
    intro entry member
    simp [ih entry member]
  | _ => rfl

mutual

/-- Normal form under which Python's `==` is equality: `True` is 1, an
integer-valued float is that integer, dict order is forgotten. `NaN` is left
equal to itself. -/
def comparisonKey : Json → Json
  | .bool value => .int (if value then 1 else 0)
  | .float value =>
    match value.toInt? with
    | some whole => .int whole
    | none => .float value
  | .arr items => .arr (comparisonKeyItems items)
  | .obj fields => .obj (sortEntries (comparisonKeyFields fields))
  | j => j

private def comparisonKeyItems : List Json → List Json
  | [] => []
  | item :: rest => comparisonKey item :: comparisonKeyItems rest

private def comparisonKeyFields : Dict Str Json → Dict Str Json
  | [] => []
  | (key, value) :: rest => (key, comparisonKey value) :: comparisonKeyFields rest

end

private theorem comparisonKey_arr (items : List Json) :
    comparisonKey (.arr items) = .arr (items.map comparisonKey) := by
  rw [comparisonKey]
  congr 1
  induction items with
  | nil => rfl
  | cons head tail ih => simp [comparisonKeyItems, ih]

private theorem comparisonKey_obj (fields : Dict Str Json) : comparisonKey (.obj fields) =
    .obj (sortEntries (fields.map (fun entry => (entry.1, comparisonKey entry.2)))) := by
  have inner : comparisonKeyFields fields =
      fields.map (fun entry => (entry.1, comparisonKey entry.2)) := by
    induction fields with
    | nil => rfl
    | cons head tail ih => simp [comparisonKeyFields, ih]
  rw [comparisonKey, inner]

private theorem comparisonKey_sortKeys (j : Json) : comparisonKey (sortKeys j) = comparisonKey j := by
  induction j with
  | arr items ih =>
    simp only [sortKeys_arr, comparisonKey_arr, List.map_map, arr.injEq]
    exact List.map_congr_left (fun item member => ih item member)
  | obj fields ih =>
    have texts : (fields.map (fun entry => (entry.1, sortKeys entry.2))).map
        (fun entry => (entry.1, comparisonKey entry.2)) =
        fields.map (fun entry => (entry.1, comparisonKey entry.2)) := by
      rw [List.map_map]
      refine List.map_congr_left (fun entry member => ?_)
      exact congrArg (Prod.mk entry.1) (ih entry member)
    simp only [sortKeys_obj, comparisonKey_obj, obj.injEq]
    rw [← sortEntries_map, texts, sortEntries_of_sorted (sortEntries_sorted _)]
  | _ => rfl

def pyEq (a b : Json) : Prop := comparisonKey a = comparisonKey b

instance (a b : Json) : Decidable (pyEq a b) := inferInstanceAs (Decidable (_ = _))

@[refl, simp] theorem pyEq.refl (a : Json) : pyEq a a := rfl

theorem pyEq.symm {a b : Json} (same : pyEq a b) : pyEq b a := Eq.symm same

theorem pyEq.trans {a b c : Json} (first : pyEq a b) (second : pyEq b c) : pyEq a c :=
  Eq.trans first second

theorem pyEq_null {j : Json} : pyEq .null j ↔ j = .null := by
  constructor
  · intro equal
    cases j with
    | float value =>
      simp only [pyEq, comparisonKey] at equal
      split at equal <;> cases equal
    | _ => first | rfl | cases equal
  · rintro rfl
    rfl

theorem pyEq_str {j : Json} {text : Str} : pyEq j (.str text) ↔ j = .str text := by
  constructor
  · intro equal
    cases j with
    | str other =>
      simp only [pyEq, comparisonKey] at equal
      exact equal
    | float value =>
      simp only [pyEq, comparisonKey] at equal
      split at equal <;> cases equal
    | _ => cases equal
  · rintro rfl
    rfl

theorem pyEq_sortKeys (j : Json) : pyEq j.sortKeys j := comparisonKey_sortKeys j

theorem pyEq_get? {fields other : Dict Str Json} (unique : (Dict.keys fields).Nodup)
    (unique' : (Dict.keys other).Nodup) (same : pyEq (.obj fields) (.obj other)) (key : Str) :
    (Dict.get? fields key).map comparisonKey = (Dict.get? other key).map comparisonKey := by
  have read (d : Dict Str Json) (unique : (Dict.keys d).Nodup) :
      Dict.get? (sortEntries (d.map (fun entry => (entry.1, comparisonKey entry.2)))) key =
        (Dict.get? d key).map comparisonKey := by
    rw [← Dict.get?_map]
    refine (Dict.get?_perm (sortEntries_perm _).symm ?_ key).symm
    rwa [keys_map]
  simp only [pyEq, comparisonKey_obj, obj.injEq] at same
  rw [← read fields unique, ← read other unique', same]

end Json

end PyText
