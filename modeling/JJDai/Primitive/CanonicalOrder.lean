import JJDai.Primitive.Canonical

/-! The canonical text does not see the order of a dict's keys: a value that was
written and read back has the text it had before. -/

namespace JJDai.Canonical

open PyText

/-- The code units of a key, without the check for lone surrogates. -/
def units (c : CodePoint) : List Nat :=
  if c.val < 0x10000 then [c.val]
  else [0xD800 + (c.val - 0x10000) / 0x400, 0xDC00 + (c.val - 0x10000) % 0x400]

def isSurrogate (c : CodePoint) : Bool := 0xD800 ≤ c.val && c.val ≤ 0xDFFF

def keyUnits (key : Str) : List Nat := key.flatMap units

theorem keySort_eq (key : Str) :
    keySort key = if key.any isSurrogate then raise .unicodeEncodeError else .ok (keyUnits key) := by
  have encoded : key.mapM utf16 =
      if key.any isSurrogate then raise .unicodeEncodeError else .ok (key.map units) := by
    induction key with
    | nil => rfl
    | cons c rest ih =>
      rw [List.mapM_cons, ih]
      by_cases lone : isSurrogate c
      · have bounds : 0xD800 ≤ c.val ∧ c.val ≤ 0xDFFF := by simpa [isSurrogate] using lone
        simp [utf16, bounds, lone, raise, bind, Except.bind]
      · have bounds : ¬(0xD800 ≤ c.val ∧ c.val ≤ 0xDFFF) := by simpa [isSurrogate] using lone
        have one : utf16 c = .ok (units c) := by
          simp only [utf16, if_neg bounds, units]
          split <;> rfl
        simp only [one, List.any_cons, lone, Bool.false_or, List.map_cons]
        split <;> rfl
  simp only [keySort, encoded, keyUnits, List.flatMap_def]
  split <;> rfl

theorem units_append_inj {c d : CodePoint} {rest more : List Nat} (plainC : ¬isSurrogate c)
    (plainD : ¬isSurrogate d) (same : units c ++ rest = units d ++ more) : c = d ∧ rest = more := by
  have boundC := c.isLt
  have boundD := d.isLt
  simp only [isSurrogate, Bool.and_eq_true, decide_eq_true_eq] at plainC plainD
  unfold units at same
  split at same <;> split at same <;>
    simp only [List.cons_append, List.nil_append, List.cons.injEq] at same
  · exact ⟨Fin.ext same.1, same.2⟩
  · omega
  · omega
  · obtain ⟨high, low, rest⟩ := same
    refine ⟨Fin.ext ?_, rest⟩
    omega

private theorem units_ne_nil (c : CodePoint) : units c ≠ [] := by
  unfold units
  split <;> simp

theorem keyUnits_injective {a b : Str} (plainA : ¬a.any isSurrogate) (plainB : ¬b.any isSurrogate)
    (same : keyUnits a = keyUnits b) : a = b := by
  induction a generalizing b with
  | nil =>
    cases b with
    | nil => rfl
    | cons d b => simp [keyUnits, units_ne_nil] at same
  | cons c a ih =>
    cases b with
    | nil => simp [keyUnits, units_ne_nil] at same
    | cons d b =>
      simp only [List.any_cons, Bool.or_eq_true, not_or] at plainA plainB
      simp only [keyUnits, List.flatMap_cons] at same
      obtain ⟨rfl, rest⟩ := units_append_inj plainA.1 plainB.1 same
      rw [ih plainA.2 plainB.2 rest]

theorem insertionSort_perm {α : Type} {front back : List (List Nat × α)}
    (order : front.Perm back) (apart : (front.map Prod.fst).Nodup) :
    front.insertionSort (fun a b => a.1 ≤ b.1) = back.insertionSort (fun a b => a.1 ≤ b.1) := by
  have sorted : ∀ items : List (List Nat × α),
      (items.insertionSort (fun a b => a.1 ≤ b.1)).Pairwise (fun a b => a.1 ≤ b.1) :=
    fun items => @List.pairwise_insertionSort _ (fun a b : List Nat × α => a.1 ≤ b.1) _
      ⟨fun a b => le_total a.1 b.1⟩ ⟨fun _ _ _ => le_trans⟩ items
  refine List.Perm.eq_of_pairwise ?_ (sorted front) (sorted back)
    ((List.perm_insertionSort _ _).trans (order.trans (List.perm_insertionSort _ _).symm))
  intro a b first second le ge
  have memberA := (List.perm_insertionSort _ _).mem_iff.mp first
  have memberB := order.mem_iff.mpr ((List.perm_insertionSort _ _).mem_iff.mp second)
  exact List.inj_on_of_nodup_map apart memberA memberB (le_antisymm le ge)

theorem serializeItems_eq (items : List Json) : serializeItems items = items.map serialize := by
  induction items with
  | nil => rfl
  | cons item rest ih => rw [serializeItems, ih, List.map_cons]

theorem serializeFields_eq (fields : Dict Str Json) :
    serializeFields fields = fields.map (fun entry => (entry.1, serialize entry.2)) := by
  induction fields with
  | nil => rfl
  | cons entry rest ih => rw [serializeFields, ih, List.map_cons]

theorem keyed_eq (fields : Dict Str (Py Str)) :
    fields.mapM (fun entry => (do
      let units ← keySort entry.1
      return (units, entry) : Py (List Nat × Str × Py Str))) =
    if (Dict.keys fields).any (fun key => key.any isSurrogate) then raise .unicodeEncodeError
    else .ok (fields.map (fun entry => (keyUnits entry.1, entry))) := by
  induction fields with
  | nil => rfl
  | cons entry rest ih =>
    rw [List.mapM_cons, ih, keySort_eq]
    simp only [Dict.keys, List.map_cons, List.any_cons]
    cases entry.1.any isSurrogate with
    | true => rfl
    | false =>
      rw [Bool.false_or]
      by_cases later : (rest.map Prod.fst).any (fun key => key.any isSurrogate)
      · simp only [later, if_true]; rfl
      · simp only [later]; rfl

private theorem apart_of_plain {fields : Dict Str (Py Str)} (unique : (Dict.keys fields).Nodup)
    (plain : ¬(Dict.keys fields).any (fun key => key.any isSurrogate)) :
    ((fields.map (fun entry => (keyUnits entry.1, entry))).map Prod.fst).Nodup := by
  have shape : (fields.map (fun entry => (keyUnits entry.1, entry))).map Prod.fst =
      (Dict.keys fields).map keyUnits := by
    simp [Dict.keys]
  rw [shape]
  refine List.Nodup.map_on ?_ unique
  intro a memberA b memberB same
  simp only [List.any_eq_true, not_exists, not_and] at plain
  exact keyUnits_injective (by simpa using plain a memberA) (by simpa using plain b memberB) same

theorem serialize_perm {fields other : Dict Str Json} (order : fields.Perm other)
    (unique : (Dict.keys fields).Nodup) : serialize (.obj fields) = serialize (.obj other) := by
  have texts : (serializeFields fields).Perm (serializeFields other) := by
    rw [serializeFields_eq, serializeFields_eq]
    exact order.map _
  have keys : Dict.keys (serializeFields fields) = Dict.keys fields := by
    simp [serializeFields_eq, Dict.keys]
  rw [← keys] at unique
  have lones : (Dict.keys (serializeFields other)).any (fun key => key.any isSurrogate) =
      (Dict.keys (serializeFields fields)).any (fun key => key.any isSurrogate) :=
    (texts.map Prod.fst).any_eq.symm
  rw [serialize, serialize, keyed_eq, keyed_eq]
  by_cases lone : (Dict.keys (serializeFields fields)).any (fun key => key.any isSurrogate)
  · simp only [lones, lone, if_true]
  · have sorted := insertionSort_perm (texts.map (fun entry => (keyUnits entry.1, entry)))
      (apart_of_plain unique lone)
    simp only [lones, lone, Bool.false_eq_true, if_false, bind, Except.bind, sorted]

theorem serialize_sortKeys {j : Json} (sound : j.valid) : serialize j.sortKeys = serialize j := by
  induction j with
  | arr items ih =>
    rw [Json.valid_arr] at sound
    rw [Json.sortKeys_arr, serialize, serialize, serializeItems_eq, serializeItems_eq, List.map_map]
    have texts : items.map (serialize ∘ Json.sortKeys) = items.map serialize :=
      List.map_congr_left (fun item member => ih item member (sound item member))
    rw [texts]
  | obj fields ih =>
    obtain ⟨unique, inner⟩ := Json.valid_obj.mp sound
    rw [Json.sortKeys_obj]
    rw [serialize_perm (Json.sortEntries_perm _) (by
      rw [(Json.keys_sortEntries _).nodup_iff, Json.keys_map]; exact unique)]
    have texts : serializeFields (fields.map (fun entry => (entry.1, entry.2.sortKeys))) =
        serializeFields fields := by
      rw [serializeFields_eq, serializeFields_eq, List.map_map]
      refine List.map_congr_left (fun entry member => ?_)
      exact congrArg (Prod.mk entry.1) (ih entry member (inner entry member))
    rw [serialize, serialize, texts]
  | _ => rfl

theorem canonical_sortKeys {j : Json} (sound : j.valid) : canonical j.sortKeys = canonical j := by
  rw [canonical, serialize_sortKeys sound, canonical]

end JJDai.Canonical
