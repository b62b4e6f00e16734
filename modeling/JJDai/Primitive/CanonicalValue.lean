import JJDai.Primitive.CanonicalUnique

/-! Without floats, canonical bytes are the value: they can be read back, and two
values have the same bytes only when they are equal. -/

namespace JJDai.Canonical

open PyText

mutual

/-- The value with every dict in the order of its canonical text. -/
def inKeyOrder : Json → Json
  | .arr items => .arr (inKeyOrderItems items)
  | .obj fields => .obj ((inKeyOrderFields fields).insertionSort (fun a b => keyUnits a.1 ≤ keyUnits b.1))
  | j => j

private def inKeyOrderItems : List Json → List Json
  | [] => []
  | item :: rest => inKeyOrder item :: inKeyOrderItems rest

private def inKeyOrderFields : Dict Str Json → Dict Str Json
  | [] => []
  | (key, value) :: rest => (key, inKeyOrder value) :: inKeyOrderFields rest

end

theorem inKeyOrder_arr (items : List Json) : inKeyOrder (.arr items) = .arr (items.map inKeyOrder) := by
  have inner : inKeyOrderItems items = items.map inKeyOrder := by
    induction items with
    | nil => rfl
    | cons item rest ih => rw [inKeyOrderItems, ih, List.map_cons]
  rw [inKeyOrder, inner]

def orderedFields (fields : Dict Str Json) : Dict Str Json :=
  (fields.map (fun entry => (entry.1, inKeyOrder entry.2))).insertionSort (fun a b => keyUnits a.1 ≤ keyUnits b.1)

theorem inKeyOrder_obj (fields : Dict Str Json) : inKeyOrder (.obj fields) = .obj (orderedFields fields) := by
  have inner : inKeyOrderFields fields = fields.map (fun entry => (entry.1, inKeyOrder entry.2)) := by
    induction fields with
    | nil => rfl
    | cons entry rest ih => rw [inKeyOrderFields, ih, List.map_cons]
  rw [inKeyOrder, inner, orderedFields]

theorem orderedFields_perm (fields : Dict Str Json) :
    (orderedFields fields).Perm (fields.map (fun entry => (entry.1, inKeyOrder entry.2))) :=
  List.perm_insertionSort _ _

theorem keys_orderedFields (fields : Dict Str Json) :
    (Dict.keys (orderedFields fields)).Perm (Dict.keys fields) := by
  have keys : Dict.keys (fields.map (fun entry => (entry.1, inKeyOrder entry.2))) = Dict.keys fields := by
    simp [Dict.keys]
  exact keys ▸ (orderedFields_perm fields).map Prod.fst

theorem valid_inKeyOrder {j : Json} (sound : j.valid) : (inKeyOrder j).valid := by
  induction j with
  | arr items ih =>
    rw [Json.valid_arr] at sound
    rw [inKeyOrder_arr, Json.valid_arr]
    intro item member
    obtain ⟨source, inside, rfl⟩ := List.mem_map.mp member
    exact ih source inside (sound source inside)
  | obj fields ih =>
    obtain ⟨unique, inner⟩ := Json.valid_obj.mp sound
    rw [inKeyOrder_obj, Json.valid_obj]
    constructor
    · exact (keys_orderedFields fields).nodup_iff.mpr unique
    · intro entry member
      obtain ⟨source, inside, rfl⟩ := List.mem_map.mp ((orderedFields_perm fields).mem_iff.mp member)
      exact ih source inside (inner source inside)
  | _ => exact sound

theorem sortKeys_inKeyOrder {j : Json} (sound : j.valid) : (inKeyOrder j).sortKeys = j.sortKeys := by
  induction j with
  | arr items ih =>
    rw [Json.valid_arr] at sound
    rw [inKeyOrder_arr, Json.sortKeys_arr, Json.sortKeys_arr, List.map_map]
    exact congrArg Json.arr (List.map_congr_left (fun item member => ih item member (sound item member)))
  | obj fields ih =>
    obtain ⟨unique, inner⟩ := Json.valid_obj.mp sound
    have ordered : (Dict.keys (orderedFields fields)).Nodup := (keys_orderedFields fields).nodup_iff.mpr unique
    rw [inKeyOrder_obj, Json.sortKeys_obj_ext ordered unique]
    intro key
    rw [Dict.get?_perm (orderedFields_perm fields) ordered, Dict.get?_map]
    cases found : Dict.get? fields key with
    | none => rfl
    | some value =>
      have member := Dict.mem_of_get? found
      exact congrArg some (ih _ member (inner _ member))
  | _ => rfl

mutual

def floatless : Json → Bool
  | .float _ => false
  | .arr items => floatlessItems items
  | .obj fields => floatlessFields fields
  | _ => true

private def floatlessItems : List Json → Bool
  | [] => true
  | item :: rest => floatless item && floatlessItems rest

private def floatlessFields : Dict Str Json → Bool
  | [] => true
  | (_, value) :: rest => floatless value && floatlessFields rest

end

theorem floatless_arr {items : List Json} : floatless (.arr items) ↔ ∀ item ∈ items, floatless item := by
  rw [floatless]
  induction items with
  | nil => simp [floatlessItems]
  | cons item rest ih => simp [floatlessItems, ih]

theorem floatless_obj {fields : Dict Str Json} : floatless (.obj fields) ↔ ∀ entry ∈ fields, floatless entry.2 := by
  rw [floatless]
  induction fields with
  | nil => simp [floatlessFields]
  | cons entry rest ih => simp [floatlessFields, ih]

theorem serialize_eq_spell {j : Json} (encodes : writable j) (whole : floatless j) :
    serialize j = .ok ((inKeyOrder j).spell []) := by
  induction j with
  | null => rfl
  | bool value => cases value <;> rfl
  | int n => rfl
  | float x => cases whole
  | str s => rfl
  | arr items ih =>
    rw [writable_arr] at encodes
    rw [floatless_arr] at whole
    have texts : (items.map serialize).mapM id = .ok (items.map (fun item => (inKeyOrder item).spell [])) := by
      rw [List.mapM_map]
      exact mapM_ok_map (fun item member => ih item member (encodes item member) (whole item member))
    rw [serialize_arr_ok.mpr ⟨_, texts, rfl⟩, inKeyOrder_arr, Json.spell_arr, List.map_map]
    rfl
  | obj fields ih =>
    rw [writable_obj] at encodes
    rw [floatless_obj] at whole
    have keys : ∀ key ∈ Dict.keys fields, encodable key := by
      intro key member
      obtain ⟨entry, inside, rfl⟩ := List.mem_map.mp member
      exact (encodes entry inside).1
    have keyed : (fields.map (fun entry => (keyUnits entry.1, entry.1, serialize entry.2))).insertionSort
        (fun a b => a.1 ≤ b.1) = (orderedFields fields).map (fun entry =>
          (keyUnits entry.1, entry.1, (.ok (entry.2.spell []) : Py Str))) := by
      have each : fields.map (fun entry => (keyUnits entry.1, entry.1, serialize entry.2)) =
          (fields.map (fun entry => (entry.1, inKeyOrder entry.2))).map (fun entry =>
            (keyUnits entry.1, entry.1, (.ok (entry.2.spell []) : Py Str))) := by
        rw [List.map_map]
        apply List.map_congr_left
        intro entry member
        rw [ih entry member (encodes entry member).2 (whole entry member)]
        rfl
      have sorted := @List.map_insertionSort _ _ (fun a b : Str × Json => keyUnits a.1 ≤ keyUnits b.1)
        (fun a b : List Nat × Str × Py Str => a.1 ≤ b.1) _ _
        (fun entry => (keyUnits entry.1, entry.1, (.ok (entry.2.spell []) : Py Str)))
        (fields.map (fun entry => (entry.1, inKeyOrder entry.2))) (fun _ _ _ _ => Iff.rfl)
      rw [each, orderedFields, sorted]
    have texts : ((fields.map (fun entry => (keyUnits entry.1, entry.1, serialize entry.2))).insertionSort
        (fun a b => a.1 ≤ b.1)).mapM (fun item => (do
          let text ← item.2.2
          return escapeString item.2.1 ++ ch ':' :: text : Py Str)) =
        .ok ((orderedFields fields).map (Json.spellEntry [])) := by
      rw [keyed, List.mapM_map]
      exact mapM_ok_map (fun entry _ => rfl)
    rw [serialize_obj_ok.mpr ⟨keys, _, texts, rfl⟩, inKeyOrder_obj, Json.spell_obj]

/-- A JSON value without floats: dicts have no repeated key, strings are made of
Unicode scalar values. -/
structure PlainValue where
  json : Json
  valid : json.valid
  encodes : writable json
  whole : floatless json

/-- Equal as JSON values: lists by position, dicts by key in any order. -/
def PlainValue.Same (a b : PlainValue) : Prop := a.json.sortKeys = b.json.sortKeys

theorem canonical_reads (value : PlainValue) : ∃ bytes text, canonical value.json = .ok bytes ∧
    decodeUtf8 bytes = some text ∧ Json.loads text = some (inKeyOrder value.json) := by
  obtain ⟨bytes, made⟩ := Py.exists_of_isOk ((canonical_isOk value.json).mpr value.encodes)
  obtain ⟨text, written, _⟩ := serialize_of_canonical made made
  have spelled := serialize_eq_spell value.encodes value.whole
  obtain rfl := Except.ok.inj (written.symm.trans spelled)
  refine ⟨bytes, _, made, ?_, loads_spell (fun c absent => absurd absent List.not_mem_nil) (valid_inKeyOrder value.valid)⟩
  simp only [canonical, spelled, bind, Except.bind] at made
  unfold encode at made
  cases utf8 : encodeUtf8 ((inKeyOrder value.json).spell []) with
  | none => simp [utf8, raise] at made
  | some found =>
    rw [utf8] at made
    obtain rfl := Except.ok.inj made
    exact decodeUtf8_encodeUtf8 utf8

end JJDai.Canonical
