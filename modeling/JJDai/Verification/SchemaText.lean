import JJDai.Verification.Verdict

/-! What a schema lets through: the same canonical text as the value that came in. -/

namespace JJDai

open PyText Canonical

/-- What is accepted has the text of what was given. -/
def Preserves (validate : Validator) : Prop :=
  ∀ value path result, value.valid → validate value path = .ok result →
    serialize result = serialize value

theorem validated_bind {x : Validated α} {g : α → Validated β} {b : β} :
    x.bind g = .ok b ↔ ∃ a, x = .ok a ∧ g a = .ok b := by
  cases x with
  | error e => simp [Except.bind]
  | ok a => simp [Except.bind]

theorem invalid_unless {p : Prop} [Decidable p] {path code detail : Str} {g : α → Validated β}
    {rest : Validated β} {b : β} :
    (if p then (invalid path code detail : Validated α).bind g else rest) = .ok b ↔
      ¬p ∧ rest = .ok b := by
  split <;> simp [*, invalid, Except.bind]

theorem invalid_last {p : Prop} [Decidable p] {path code detail : Str} :
    (if p then (invalid path code detail : Validated Unit) else .ok ()) = .ok () ↔ ¬p := by
  split <;> simp [*, invalid]

namespace Field

variable {f : Field}

theorem validate_ok {value result : Json} {path : Str} :
    f.validate value path = .ok result ↔
      (value = .null ∧ f.nullable = true ∧ result = .null) ∨
      (value ≠ .null ∧ ∃ coerced, f.coerce value path = .ok coerced ∧ f.type.holds coerced = true ∧
        (f.enum ≠ [] → f.enum.any (fun allowed => Json.pyEq coerced allowed)) ∧ f.checkValue coerced path = .ok result) := by
  unfold validate
  by_cases absent : value = .null
  · rw [if_pos absent]
    by_cases allowed : f.nullable
    · rw [if_pos allowed]
      constructor
      · intro made
        exact .inl ⟨absent, allowed, (Except.ok.inj made).symm⟩
      · rintro (⟨_, _, rfl⟩ | ⟨present, _⟩)
        · rfl
        · exact absurd absent present
    · rw [if_neg allowed]
      constructor
      · intro made
        cases made
      · rintro (⟨_, nullable, _⟩ | ⟨present, _⟩)
        · exact absurd nullable allowed
        · exact absurd absent present
  · rw [if_neg absent]
    simp only [bind, validated_bind, invalid_unless]
    constructor
    · rintro ⟨coerced, converted, holds, listed, checked⟩
      refine .inr ⟨absent, coerced, converted, by simpa using holds, fun some_left => ?_, checked⟩
      by_contra outside
      exact listed ⟨some_left, outside⟩
    · rintro (⟨null, _⟩ | ⟨_, coerced, converted, holds, listed, checked⟩)
      · exact absurd null absent
      · exact ⟨coerced, converted, by simpa using holds, fun both => both.2 (listed both.1), checked⟩

/-- What a field keeps, once its bounds are those of a small whole number. -/
structure Modest (f : Field) : Prop where
  float : f.type = .float → f.minVal = some (floatBound 0) ∧
    (f.maxVal = some (floatBound 1) ∨ f.maxVal = some (floatBound 2))
  item : ∀ validate ∈ f.item, Preserves validate
  schema : ∀ validate ∈ f.schema, Preserves validate

theorem coerce_ok {value coerced : Json} {path : Str} (made : f.coerce value path = .ok coerced) :
    coerced = value ∨ f.type = .float ∧ ∃ n x, value = .int n ∧ PyFloat.ofInt n = some x ∧
      coerced = .float x := by
  unfold coerce at made
  split at made
  · cases made
  · cases made
  · rename_i n float
    split at made
    · rename_i x converted
      exact .inr ⟨float, n, x, rfl, converted, (Except.ok.inj made).symm⟩
    · cases made
  · exact .inl (Except.ok.inj made).symm

theorem checkRange_ok {value : Json} {path : Str} : f.checkRange value path = .ok () ↔
    (∀ least ∈ f.minVal, numberLess value least.toJson = false) ∧
      ∀ most ∈ f.maxVal, numberLess most.toJson value = false := by
  unfold checkRange
  cases f.minVal <;> cases f.maxVal <;>
    simp only [bind, invalid_unless, invalid_last, Option.mem_def, Option.some.injEq, forall_eq',
      reduceCtorEq, false_implies, implies_true, true_and, and_true, Bool.not_eq_true, pure, Except.pure]

theorem checkText_ok {s path : Str} : f.checkText s path = .ok () ↔
    (∀ least ∈ f.minLen, least ≤ s.length) ∧ (∀ most ∈ f.maxLen, s.length ≤ most) ∧
      ∀ pattern ∈ f.pattern, pattern.accepts s = true := by
  unfold checkText
  cases f.minLen <;> cases f.maxLen <;> cases f.pattern <;>
    simp only [bind, invalid_unless, invalid_last, Option.mem_def, Option.some.injEq, forall_eq',
      reduceCtorEq, false_implies, implies_true, true_and, and_true, not_lt, Bool.not_eq_true',
      Bool.not_eq_false, pure, Except.pure]

theorem checkSize_ok {items : List Json} {path : Str} : f.checkSize items path = .ok () ↔
    (∀ least ∈ f.minLen, least ≤ items.length) ∧ ∀ most ∈ f.maxLen, items.length ≤ most := by
  unfold checkSize
  cases f.minLen <;> cases f.maxLen <;>
    simp only [bind, invalid_unless, invalid_last, Option.mem_def, Option.some.injEq, forall_eq',
      reduceCtorEq, false_implies, implies_true, true_and, and_true, not_lt, pure, Except.pure]

theorem mapM_items {check : α → Validated β} {items : List α} {checked : List β} :
    items.mapM check = .ok checked ↔
      List.Forall₂ (fun item result => check item = .ok result) items checked := by
  induction items generalizing checked with
  | nil => simp [pure, Except.pure, eq_comm]
  | cons item rest ih =>
    simp only [List.mapM_cons, bind, validated_bind, pure, Except.pure, Except.ok.injEq, ih]
    constructor
    · rintro ⟨first, made, later, others, rfl⟩
      exact .cons made others
    · rintro (_ | ⟨made, others⟩)
      exact ⟨_, made, _, others, rfl⟩

theorem serialize_checked {check : Json × Nat → Validated Json} {items : List (Json × Nat)}
    {checked : List Json} (keeps : ∀ entry ∈ items, ∀ result, check entry = .ok result →
      serialize result = serialize entry.1)
    (all : List.Forall₂ (fun entry result => check entry = .ok result) items checked) :
    checked.map serialize = (items.map Prod.fst).map serialize := by
  induction all with
  | nil => rfl
  | cons made _ ih =>
    have first := keeps _ List.mem_cons_self _ made
    have rest := ih (fun entry member => keeps entry (List.mem_cons_of_mem _ member))
    rw [List.map_cons, List.map_cons, List.map_cons, first, rest]

theorem checkValue_preserves (modest : f.Modest) {value result : Json} {path : Str}
    (sound : value.valid) (made : f.checkValue value path = .ok result) :
    serialize result = serialize value := by
  unfold checkValue at made
  cases value with
  | arr items =>
    simp only [bind, validated_bind] at made
    obtain ⟨_, _, made⟩ := made
    cases item : f.item with
    | none =>
      rw [item] at made
      rw [← Except.ok.inj made]
    | some validate =>
      simp only [item, validated_bind] at made
      obtain ⟨checked, all, made⟩ := made
      obtain rfl := Except.ok.inj made
      have keeps := modest.item validate item
      have texts : checked.map serialize = items.map serialize := by
        have same := serialize_checked (fun entry member result => keeps _ _ result
          (Json.valid_arr.mp sound _ (List.fst_mem_of_mem_zipIdx member))) (mapM_items.mp all)
        rwa [List.zipIdx_map_fst] at same
      rw [serialize, serialize, serializeItems_eq, serializeItems_eq, texts]
  | obj fields =>
    cases schema : f.schema with
    | none =>
      rw [schema] at made
      rw [← Except.ok.inj made]
    | some validate =>
      rw [schema] at made
      exact modest.schema validate schema _ path result sound made
  | str s =>
    simp only [bind, validated_bind] at made
    obtain ⟨_, _, made⟩ := made
    rw [← Except.ok.inj made]
  | bool b =>
    simp only [bind, validated_bind] at made
    obtain ⟨_, _, made⟩ := made
    rw [← Except.ok.inj made]
  | int n =>
    simp only [bind, validated_bind] at made
    obtain ⟨_, _, made⟩ := made
    rw [← Except.ok.inj made]
  | float x =>
    simp only [bind, validated_bind] at made
    obtain ⟨_, _, made⟩ := made
    rw [← Except.ok.inj made]
  | _ => rw [← Except.ok.inj made]

theorem serialize_ofInt {n : Int} {x : PyFloat} (converted : PyFloat.ofInt n = some x) (low : 0 ≤ n)
    (high : n ≤ 2) : serialize (.float x) = serialize (.int n) := by
  have cases : n = 0 ∨ n = 1 ∨ n = 2 := by omega
  rcases cases with rfl | rfl | rfl
  all_goals
    obtain rfl := Option.some.inj converted
    decide +kernel

theorem preserves (modest : f.Modest) : Preserves f.validate := by
  intro value path result sound made
  rcases validate_ok.mp made with ⟨rfl, _, rfl⟩ | ⟨_, coerced, converted, _, _, checked⟩
  · rfl
  · rcases coerce_ok converted with rfl | ⟨float, n, x, rfl, exact, rfl⟩
    · exact checkValue_preserves modest sound checked
    · obtain ⟨low, high⟩ := modest.float float
      simp only [checkValue, bind, validated_bind] at checked
      obtain ⟨_, passed, checked⟩ := checked
      obtain rfl := Except.ok.inj checked
      have range := checkRange_ok.mp passed
      have above := range.1 _ low
      rcases high with one | two
      · obtain ⟨positive, small⟩ := PyFloat.ofInt_within (by decide) exact above (range.2 _ one)
        exact serialize_ofInt exact positive (by omega)
      · obtain ⟨positive, small⟩ := PyFloat.ofInt_within (by decide) exact above (range.2 _ two)
        exact serialize_ofInt exact positive (by omega)

end Field

namespace Schema

variable {entries out : Dict Str Json} {p : Str} {fields : List (Str × Field)}

def fieldPath (p name : Str) : Str := if p ≠ [] then p ++ "." ++ name else name

theorem collect_some {name : Str} {f : Field} {value : Json} (found : Dict.get? entries name = some value) :
    collect entries p ((name, f) :: fields) = .ok out ↔
      ∃ checked later, f.validate value (fieldPath p name) = .ok checked ∧
        collect entries p fields = .ok later ∧ out = (name, checked) :: later := by
  simp only [collect, found, bind, validated_bind, pure, Except.pure, Except.ok.injEq, fieldPath]
  constructor
  · rintro ⟨checked, made, later, others, rfl⟩
    exact ⟨checked, later, made, others, rfl⟩
  · rintro ⟨checked, later, made, others, rfl⟩
    exact ⟨checked, made, later, others, rfl⟩

theorem collect_none {name : Str} {f : Field} (absent : Dict.get? entries name = none)
    (no_default : f.default = none) :
    collect entries p ((name, f) :: fields) = .ok out ↔
      f.required = false ∧ collect entries p fields = .ok out := by
  simp only [collect, absent, no_default, bind, invalid_unless, Bool.not_eq_true]
  cases collect entries p fields <;> simp [Except.bind, pure, Except.pure]

theorem collect_get (made : collect entries p fields = .ok out)
    (no_default : ∀ entry ∈ fields, entry.2.default = none) (unique : (fields.map Prod.fst).Nodup)
    {name : Str} {f : Field} (member : (name, f) ∈ fields) :
    (Dict.get? entries name = none ∧ f.required = false ∧ Dict.get? out name = none) ∨
      ∃ value checked, Dict.get? entries name = some value ∧
        f.validate value (fieldPath p name) = .ok checked ∧ Dict.get? out name = some checked := by
  have named : ∀ fields out, collect entries p fields = .ok out →
      (∀ entry ∈ fields, entry.2.default = none) → ∀ key ∈ Dict.keys out, key ∈ fields.map Prod.fst := by
    intro fields
    induction fields with
    | nil =>
      intro out made _ key member
      obtain rfl := Except.ok.inj made
      cases member
    | cons entry rest ih =>
      intro out made no_default key member
      obtain ⟨other, g⟩ := entry
      have inner := fun entry inside => no_default entry (List.mem_cons_of_mem _ inside)
      cases found : Dict.get? entries other with
      | none =>
        have later := ((collect_none found (no_default _ List.mem_cons_self)).mp made).2
        exact List.mem_cons_of_mem _ (ih out later inner key member)
      | some value =>
        obtain ⟨checked, later, _, others, rfl⟩ := (collect_some found).mp made
        rcases List.mem_cons.mp member with rfl | inside
        · exact List.mem_cons_self
        · exact List.mem_cons_of_mem _ (ih later others inner key inside)
  induction fields generalizing out with
  | nil => cases member
  | cons entry rest ih =>
    obtain ⟨other, g⟩ := entry
    have inner := fun entry inside => no_default entry (List.mem_cons_of_mem _ inside)
    rw [List.map_cons, List.nodup_cons] at unique
    rcases List.mem_cons.mp member with first | inside
    · obtain ⟨rfl, rfl⟩ := Prod.mk.inj first
      cases found : Dict.get? entries name with
      | none =>
        obtain ⟨optional, later⟩ := (collect_none found (no_default _ List.mem_cons_self)).mp made
        refine .inl ⟨rfl, optional, ?_⟩
        cases kept : Dict.get? out name with
        | none => rfl
        | some value =>
          have key : name ∈ Dict.keys out := Dict.mem_keys.mpr (by rw [kept]; rfl)
          exact absurd (named rest out later inner name key) unique.1
      | some value =>
        obtain ⟨checked, later, valid, _, rfl⟩ := (collect_some found).mp made
        exact .inr ⟨value, checked, rfl, valid, by simp⟩
    · have known : name ∈ rest.map Prod.fst := List.mem_map.mpr ⟨_, inside, rfl⟩
      have different : name ≠ other := by
        intro same
        rw [same] at known
        exact unique.1 known
      cases found : Dict.get? entries other with
      | none =>
        have later := ((collect_none found (no_default _ List.mem_cons_self)).mp made).2
        exact ih later inner unique.2 inside
      | some value =>
        obtain ⟨checked, later, _, others, rfl⟩ := (collect_some found).mp made
        simpa [Ne.symm different] using ih others inner unique.2 inside

/-- The entries of an object in the order of a schema's fields. -/
def picked (entries : Dict Str Json) (fields : List (Str × Field)) : Dict Str Json :=
  fields.filterMap (fun field => (Dict.get? entries field.1).map (fun value => (field.1, value)))

theorem keys_picked_sublist : (Dict.keys (picked entries fields)).Sublist (fields.map Prod.fst) := by
  induction fields with
  | nil => exact List.Sublist.refl _
  | cons field rest ih =>
    unfold picked at ih ⊢
    rw [List.filterMap_cons]
    cases Dict.get? entries field.1 with
    | none => exact ih.cons _
    | some value => exact ih.cons_cons _

theorem picked_perm (unique : (Dict.keys entries).Nodup) (names : (fields.map Prod.fst).Nodup)
    (known : ∀ key ∈ Dict.keys entries, key ∈ fields.map Prod.fst) :
    (picked entries fields).Perm entries := by
  have inner : (Dict.keys (picked entries fields)).Nodup := names.sublist keys_picked_sublist
  refine (List.perm_ext_iff_of_nodup inner.of_map unique.of_map).mpr (fun entry => ?_)
  unfold picked
  simp only [List.mem_filterMap, Option.map_eq_some_iff]
  constructor
  · rintro ⟨field, _, value, found, rfl⟩
    exact Dict.mem_of_get? found
  · intro member
    obtain ⟨field, inside, same⟩ := List.mem_map.mp (known entry.1 (List.mem_map_of_mem member))
    exact ⟨field, inside, entry.2, by rw [same]; exact Dict.get?_of_mem unique member, by rw [same]⟩

theorem serializeFields_collect (keeps : ∀ field ∈ fields, Preserves field.2.validate)
    (no_default : ∀ field ∈ fields, field.2.default = none)
    (sound : ∀ entry ∈ entries, entry.2.valid) (made : collect entries p fields = .ok out) :
    serializeFields out = serializeFields (picked entries fields) := by
  induction fields generalizing out with
  | nil =>
    obtain rfl := Except.ok.inj made
    rfl
  | cons field rest ih =>
    obtain ⟨name, f⟩ := field
    have inner := fun field inside => keeps field (List.mem_cons_of_mem _ inside)
    have plain := fun field inside => no_default field (List.mem_cons_of_mem _ inside)
    cases found : Dict.get? entries name with
    | none =>
      have later := ((collect_none found (no_default _ List.mem_cons_self)).mp made).2
      have shape : picked entries ((name, f) :: rest) = picked entries rest := by simp [picked, found]
      rw [shape]
      exact ih inner plain later
    | some value =>
      obtain ⟨checked, later, valid, others, rfl⟩ := (collect_some found).mp made
      have shape : picked entries ((name, f) :: rest) = (name, value) :: picked entries rest := by
        simp [picked, found]
      have text := keeps (name, f) List.mem_cons_self value _ checked
        (sound _ (Dict.mem_of_get? found)) valid
      rw [shape, serializeFields, serializeFields, text, ih inner plain others]

variable {schema : Schema}

theorem validate_cases (schema : Schema) (value : Json) (path : Str) :
    (∃ entries, value = .obj entries ∧
        (schema.strict = true → ∀ key ∈ Dict.keys entries, key ∈ schema.fields.map Prod.fst) ∧
        schema.validate value path =
          (collect entries (if path ≠ [] then path else schema.name) schema.fields).bind (fun out => .ok (.obj out))) ∨
      ((¬∃ entries, value = .obj entries ∧
          (schema.strict = true → ∀ key ∈ Dict.keys entries, key ∈ schema.fields.map Prod.fst)) ∧
        ∃ at_ code detail, schema.validate value path = invalid at_ code detail) := by
  unfold validate
  cases value with
  | obj entries =>
    have none_left : ((Dict.keys entries).filter (fun key => key ∉ schema.fields.map Prod.fst) = []) ↔
        ∀ key ∈ Dict.keys entries, key ∈ schema.fields.map Prod.fst := by
      simp [List.filter_eq_nil_iff]
    by_cases strict : schema.strict = true
    · simp only [strict, if_true]
      cases sorted : ((Dict.keys entries).filter (fun key => key ∉ schema.fields.map Prod.fst)).insertionSort
          (· ≤ ·) with
      | nil =>
        have empty : (Dict.keys entries).filter (fun key => key ∉ schema.fields.map Prod.fst) = [] := by
          have length := (List.perm_insertionSort (· ≤ ·) ((Dict.keys entries).filter
            (fun key => key ∉ schema.fields.map Prod.fst))).length_eq
          rw [sorted] at length
          exact List.length_eq_zero_iff.mp length.symm
        exact .inl ⟨entries, rfl, fun _ => none_left.mp empty, rfl⟩
      | cons first rest =>
        refine .inr ⟨?_, _, _, _, rfl⟩
        intro ⟨_, same, known⟩
        obtain rfl := Json.obj.inj same
        rw [none_left.mpr (known trivial)] at sorted
        cases sorted
    · simp only [strict, Bool.false_eq_true, if_false]
      exact .inl ⟨entries, rfl, fun all => absurd all (by simp), rfl⟩
  | _ => exact .inr ⟨fun ⟨_, same, _⟩ => (nomatch same), _, _, _, rfl⟩

theorem validate_iff {value result : Json} {path : Str} :
    schema.validate value path = .ok result ↔ ∃ entries out, value = .obj entries ∧ result = .obj out ∧
      (schema.strict = true → ∀ key ∈ Dict.keys entries, key ∈ schema.fields.map Prod.fst) ∧
      collect entries (if path ≠ [] then path else schema.name) schema.fields = .ok out := by
  rcases validate_cases schema value path with ⟨entries, rfl, known, made⟩ | ⟨none_left, _, _, _, made⟩
  · rw [made, validated_bind]
    constructor
    · intro ⟨out, collected, same⟩
      exact ⟨entries, out, rfl, (Except.ok.inj same).symm, known, collected⟩
    · intro ⟨_, out, same, shape, _, collected⟩
      obtain rfl := Json.obj.inj same
      exact ⟨out, collected, congrArg Except.ok shape.symm⟩
  · rw [made]
    constructor
    · exact fun answered => (nomatch answered)
    · exact fun ⟨entries, _, same, _, known, _⟩ => absurd ⟨entries, same, known⟩ none_left

theorem validate_ok {obj result : Json} {path : Str} (strict : schema.strict = true) :
    schema.validate obj path = .ok result ↔ ∃ entries out, obj = .obj entries ∧ result = .obj out ∧
      (∀ key ∈ Dict.keys entries, key ∈ schema.fields.map Prod.fst) ∧
      collect entries (if path ≠ [] then path else schema.name) schema.fields = .ok out := by
  rw [validate_iff]
  simp only [strict, forall_const]

theorem preserves (strict : schema.strict = true) (names : (schema.fields.map Prod.fst).Nodup)
    (no_default : ∀ field ∈ schema.fields, field.2.default = none)
    (keeps : ∀ field ∈ schema.fields, Preserves field.2.validate) : Preserves schema.validate := by
  intro obj path result sound made
  obtain ⟨entries, out, rfl, rfl, known, made⟩ := (validate_ok strict).mp made
  obtain ⟨unique, inner⟩ := Json.valid_obj.mp sound
  have texts := serializeFields_collect keeps no_default inner made
  have order := picked_perm unique names known
  have picks : serialize (.obj out) = serialize (.obj (picked entries schema.fields)) := by
    rw [serialize, serialize, texts]
  rw [picks]
  exact serialize_perm order (names.sublist keys_picked_sublist)

end Schema

end JJDai
