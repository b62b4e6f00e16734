import JJDai.Verification.SchemaText

/-! Every field and schema that is built: what it admits, what it makes of what it
admits, and when it stops with another exception than a rejection. -/

namespace JJDai.TypedBoundary

open PyText

mutual

/-- A field, with what is built for the items and for the dict inside it. -/
inductive FieldSpec where
  | mk (base : Field) (item : ItemSpec) (dict : DictSpec)

inductive ItemSpec where
  | free
  | each (spec : FieldSpec)

inductive DictSpec where
  | free
  | schema (name : Str) (fields : FieldsSpec) (strict : Bool)

inductive FieldsSpec where
  | nil
  | cons (name : Str) (spec : FieldSpec) (rest : FieldsSpec)

end

mutual

def FieldSpec.build : FieldSpec → Field
  | .mk base item dict => { base with item := item.build, schema := dict.build }

def ItemSpec.build : ItemSpec → Option Validator
  | .free => none
  | .each spec => some spec.build.validate

def DictSpec.build : DictSpec → Option Validator
  | .free => none
  | .schema name fields strict => some (Schema.validate { name, fields := fields.build, strict })

def FieldsSpec.build : FieldsSpec → List (Str × Field)
  | .nil => []
  | .cons name spec rest => (name, spec.build) :: rest.build

end

def FieldSpec.base : FieldSpec → Field
  | .mk base _ _ => base

def FieldsSpec.names : FieldsSpec → List Str
  | .nil => []
  | .cons name _ rest => name :: rest.names

mutual

def FieldSpec.Unique : FieldSpec → Prop
  | .mk _ item dict => item.Unique ∧ dict.Unique

def ItemSpec.Unique : ItemSpec → Prop
  | .free => True
  | .each spec => spec.Unique

def DictSpec.Unique : DictSpec → Prop
  | .free => True
  | .schema _ fields _ => fields.Unique

def FieldsSpec.Unique : FieldsSpec → Prop
  | .nil => True
  | .cons name spec rest => name ∉ rest.names ∧ spec.Unique ∧ rest.Unique

end

/-- `float(value)` of an integer in a float field; a `bool` is no number. -/
def converted (f : Field) (value : Json) : Option Json :=
  match f.type, value with
  | .int, .bool _ => none
  | .float, .bool _ => none
  | .float, .int n => (PyFloat.ofInt n).map .float
  | _, value => some value

/-- An integer in a float field that no float is near to. -/
def Huge (f : Field) (value : Json) : Prop := f.type = .float ∧ ∃ n, value = .int n ∧ PyFloat.ofInt n = none

/-- What a field asks of a value itself, and not of what is inside it. -/
structure Fits (f : Field) (value : Json) : Prop where
  type : f.type.holds value = true
  enum : f.enum ≠ [] → f.enum.any (fun allowed => Json.pyEq value allowed)
  least : ∀ least ∈ f.minVal, numberLess value least.toJson = false
  most : ∀ most ∈ f.maxVal, numberLess most.toJson value = false
  text : ∀ s, value = .str s → (∀ least ∈ f.minLen, least ≤ s.length) ∧ (∀ most ∈ f.maxLen, s.length ≤ most) ∧
    ∀ pattern ∈ f.pattern, pattern.accepts s = true
  size : ∀ items, value = .arr items → (∀ least ∈ f.minLen, least ≤ items.length) ∧
    ∀ most ∈ f.maxLen, items.length ≤ most

/-- What holds of the items of a list, of the entries of a dict, or of any other value. -/
def Inside (items : List Json → Prop) (entries : Dict Str Json → Prop) (other : Prop) : Json → Prop
  | .arr list => items list
  | .obj dict => entries dict
  | _ => other

def Known (strict : Bool) (names : List Str) (entries : Dict Str Json) : Prop :=
  strict = true → ∀ key ∈ Dict.keys entries, key ∈ names

mutual

def FieldSpec.Admits : FieldSpec → Json → Prop
  | .mk base item dict, value =>
    (value = .null ∧ base.nullable = true) ∨ (value ≠ .null ∧ ∃ inner, converted base value = some inner ∧
      Fits base inner ∧ Inside item.Admits dict.Admits True inner)

def ItemSpec.Admits : ItemSpec → List Json → Prop
  | .free, _ => True
  | .each spec, items => ∀ item ∈ items, spec.Admits item

def DictSpec.Admits : DictSpec → Dict Str Json → Prop
  | .free, _ => True
  | .schema _ fields strict, entries => Known strict fields.names entries ∧ fields.Admits entries

def FieldsSpec.Admits : FieldsSpec → Dict Str Json → Prop
  | .nil, _ => True
  | .cons name spec rest, entries =>
    (match Dict.get? entries name with
      | none => spec.base.required = false
      | some value => spec.Admits value) ∧ rest.Admits entries

end

mutual

/-- What is made of a value that is admitted: floats of integers, and defaults where nothing is. -/
def FieldSpec.normal : FieldSpec → Json → Json
  | .mk base item dict, value =>
    match converted base value with
    | some (.arr items) => .arr (item.normal items)
    | some (.obj entries) => .obj (dict.normal entries)
    | some inner => inner
    | none => value

def ItemSpec.normal : ItemSpec → List Json → List Json
  | .free, items => items
  | .each spec, items => items.map (fun item => spec.normal item)

def DictSpec.normal : DictSpec → Dict Str Json → Dict Str Json
  | .free, entries => entries
  | .schema _ fields _, entries => fields.normal entries

def FieldsSpec.normal : FieldsSpec → Dict Str Json → Dict Str Json
  | .nil, _ => []
  | .cons name spec rest, entries =>
    match Dict.get? entries name with
    | some value => (name, spec.normal value) :: rest.normal entries
    | none =>
      match spec.base.default with
      | some value => (name, value) :: rest.normal entries
      | none => rest.normal entries

end

mutual

/-- What was admitted up to there is followed by an integer that is huge for its field. -/
def FieldSpec.Overflows : FieldSpec → Json → Prop
  | .mk base item dict, value =>
    Huge base value ∨ (value ≠ .null ∧ ∃ inner, converted base value = some inner ∧ Fits base inner ∧
      Inside item.Overflows dict.Overflows False inner)

def ItemSpec.Overflows : ItemSpec → List Json → Prop
  | .free, _ => False
  | .each spec, items => ∃ before item after, items = before ++ item :: after ∧
    (∀ earlier ∈ before, spec.Admits earlier) ∧ spec.Overflows item

def DictSpec.Overflows : DictSpec → Dict Str Json → Prop
  | .free, _ => False
  | .schema _ fields strict, entries => Known strict fields.names entries ∧ fields.Overflows entries

def FieldsSpec.Overflows : FieldsSpec → Dict Str Json → Prop
  | .nil, _ => False
  | .cons name spec rest, entries =>
    (∃ value, Dict.get? entries name = some value ∧ spec.Overflows value) ∨
      ((match Dict.get? entries name with
        | none => spec.base.required = false
        | some value => spec.Admits value) ∧ rest.Overflows entries)

end

variable {f : Field}

/-- The conversion, as it answers: with a value, with a rejection, or with `OverflowError`. -/
theorem coerce_cases (f : Field) (value : Json) (path : Str) :
    (∃ inner, f.coerce value path = .ok inner ∧ converted f value = some inner ∧ ¬Huge f value) ∨
      (∃ detail, f.coerce value path = invalid path "type" detail ∧ converted f value = none ∧ ¬Huge f value) ∨
        (∃ e, f.coerce value path = .error (.raised e) ∧ converted f value = none ∧ Huge f value) := by
  unfold Field.coerce converted Huge
  generalize f.type = type
  by_cases number : ∃ n, type = .float ∧ value = .int n
  · obtain ⟨n, rfl, rfl⟩ := number
    cases large : PyFloat.ofInt n with
    | none => exact .inr (.inr ⟨⟨.overflowError, []⟩, by simp only [large], by simp only [large]; rfl, rfl, n, rfl, large⟩)
    | some x => exact .inl ⟨.float x, by simp only [large]; rfl, by simp only [large]; rfl, by simp [large]⟩
  · have modest : ¬(type = .float ∧ ∃ n, value = .int n ∧ PyFloat.ofInt n = none) :=
      fun huge => number ⟨huge.2.choose, huge.1, huge.2.choose_spec.1⟩
    cases type with
    | int =>
      cases value with
      | bool b => exact .inr (.inl ⟨_, rfl, rfl, modest⟩)
      | _ => exact .inl ⟨_, rfl, rfl, modest⟩
    | float =>
      cases value with
      | bool b => exact .inr (.inl ⟨_, rfl, rfl, modest⟩)
      | int n => exact absurd ⟨n, rfl, rfl⟩ number
      | _ => exact .inl ⟨_, rfl, rfl, modest⟩
    | _ => exact .inl ⟨_, rfl, rfl, modest⟩

theorem coerce_iff {value inner : Json} {path : Str} : f.coerce value path = .ok inner ↔ converted f value = some inner := by
  rcases coerce_cases f value path with ⟨_, made, same, _⟩ | ⟨_, made, same, _⟩ | ⟨_, made, same, _⟩
  · rw [made, same, Except.ok.injEq, Option.some.injEq]
  · rw [made, same]
    exact ⟨nofun, nofun⟩
  · rw [made, same]
    exact ⟨nofun, nofun⟩

/-- It stops with another exception than a rejection. -/
def Raises (x : Validated α) : Prop := ∃ e, x = .error (.raised e)

theorem coerce_raises {value : Json} {path : Str} : Raises (f.coerce value path) ↔ Huge f value := by
  unfold Raises
  rcases coerce_cases f value path with ⟨_, made, _, modest⟩ | ⟨_, made, _, modest⟩ | ⟨_, made, _, huge⟩
  · rw [made]
    exact ⟨fun ⟨_, failed⟩ => (nomatch failed), fun huge => absurd huge modest⟩
  · rw [made]
    exact ⟨fun ⟨_, failed⟩ => (nomatch failed), fun huge => absurd huge modest⟩
  · rw [made]
    exact ⟨fun _ => huge, fun _ => ⟨_, rfl⟩⟩

theorem raises_bind {x : Validated α} {g : α → Validated β} :
    Raises (x.bind g) ↔ Raises x ∨ ∃ a, x = .ok a ∧ Raises (g a) := by
  cases x with
  | error e => simp [Raises, Except.bind]
  | ok a => simp [Raises, Except.bind]

theorem not_raises_ok {a : α} : ¬Raises (.ok a : Validated α) := fun ⟨_, same⟩ => (nomatch same)

theorem not_raises_invalid {path code detail : Str} : ¬Raises (invalid path code detail : Validated α) :=
  fun ⟨_, same⟩ => (nomatch same)

theorem raises_unless {p : Prop} [Decidable p] {path code detail : Str} {g : α → Validated β} {rest : Validated β} :
    Raises (if p then (invalid path code detail : Validated α).bind g else rest) ↔ ¬p ∧ Raises rest := by
  split <;> simp [*, invalid, Except.bind, Raises]

theorem not_raises_last {p : Prop} [Decidable p] {path code detail : Str} :
    ¬Raises (if p then (invalid path code detail : Validated Unit) else .ok ()) := by
  split
  · exact not_raises_invalid
  · exact not_raises_ok

theorem not_raises_checkText {s path : Str} : ¬Raises (f.checkText s path) := by
  unfold Field.checkText
  cases f.minLen <;> cases f.maxLen <;> cases f.pattern <;>
    simp only [bind, raises_unless, not_raises_last, pure, Except.pure, not_raises_ok, and_false, not_false_eq_true]

theorem not_raises_checkRange {value : Json} {path : Str} : ¬Raises (f.checkRange value path) := by
  unfold Field.checkRange
  cases f.minVal <;> cases f.maxVal <;>
    simp only [bind, raises_unless, not_raises_last, pure, Except.pure, not_raises_ok, and_false, not_false_eq_true]

theorem not_raises_checkSize {items : List Json} {path : Str} : ¬Raises (f.checkSize items path) := by
  unfold Field.checkSize
  cases f.minLen <;> cases f.maxLen <;>
    simp only [bind, raises_unless, not_raises_last, pure, Except.pure, not_raises_ok, and_false, not_false_eq_true]

def insideItems (item : Option Validator) (items : List Json) (path : Str) : Validated Json :=
  match item with
  | none => .ok (.arr items)
  | some validate =>
    (items.zipIdx.mapM (fun entry => validate entry.1 (path ++ "[" ++ natText entry.2 ++ "]"))).bind (fun out => .ok (.arr out))

def insideDict (schema : Option Validator) (entries : Dict Str Json) (path : Str) : Validated Json :=
  match schema with
  | none => .ok (.obj entries)
  | some validate => validate (.obj entries) path

def inside (f : Field) (value : Json) (path : Str) : Validated Json :=
  match value with
  | .arr items => insideItems f.item items path
  | .obj entries => insideDict f.schema entries path
  | _ => .ok value

/-- The check of a value itself, by its type. -/
def flat (f : Field) (value : Json) (path : Str) : Validated Unit :=
  match value with
  | .str s => f.checkText s path
  | .bool _ => f.checkRange value path
  | .int _ => f.checkRange value path
  | .float _ => f.checkRange value path
  | .arr items => f.checkSize items path
  | _ => .ok ()

theorem not_raises_flat {value : Json} {path : Str} : ¬Raises (flat f value path) := by
  cases value with
  | str s => exact not_raises_checkText
  | bool b => exact not_raises_checkRange
  | int n => exact not_raises_checkRange
  | float x => exact not_raises_checkRange
  | arr items => exact not_raises_checkSize
  | null => exact not_raises_ok
  | obj entries => exact not_raises_ok

theorem checkValue_eq (f : Field) (value : Json) (path : Str) :
    f.checkValue value path = (flat f value path).bind (fun _ => inside f value path) := by
  cases value with
  | arr items =>
    simp only [Field.checkValue, flat, inside, insideItems, bind]
    cases f.item <;> rfl
  | obj entries =>
    simp only [Field.checkValue, flat, inside, insideDict]
    cases f.schema <;> rfl
  | _ => rfl

theorem fits_iff {value : Json} {path : Str} (holds : f.type.holds value = true)
    (listed : f.enum ≠ [] → f.enum.any (fun allowed => Json.pyEq value allowed)) :
    flat f value path = .ok () ↔ Fits f value := by
  have plain (other : asInt? value = none ∧ ∀ x, value ≠ .float x) (bound : Number) :
      numberLess value bound.toJson = false ∧ numberLess bound.toJson value = false := by
    obtain ⟨integer, float⟩ := other
    cases value with
    | float x => exact absurd rfl (float x)
    | int n => cases integer
    | bool b => cases integer
    | _ => cases bound <;> exact ⟨rfl, rfl⟩
  cases value with
  | str s =>
    have free := plain ⟨rfl, fun _ => nofun⟩
    rw [flat, Field.checkText_ok]
    constructor
    · intro texts
      exact ⟨holds, listed, fun bound _ => (free bound).1, fun bound _ => (free bound).2,
        fun t same => Json.str.inj same ▸ texts, fun _ => nofun⟩
    · exact fun fits => fits.text s rfl
  | arr items =>
    have free := plain ⟨rfl, fun _ => nofun⟩
    rw [flat, Field.checkSize_ok]
    constructor
    · intro sizes
      exact ⟨holds, listed, fun bound _ => (free bound).1, fun bound _ => (free bound).2, fun _ => nofun,
        fun t same => Json.arr.inj same ▸ sizes⟩
    · exact fun fits => fits.size items rfl
  | null =>
    have free := plain ⟨rfl, fun _ => nofun⟩
    exact ⟨fun _ => ⟨holds, listed, fun bound _ => (free bound).1, fun bound _ => (free bound).2, fun _ => nofun,
      fun _ => nofun⟩, fun _ => rfl⟩
  | obj entries =>
    have free := plain ⟨rfl, fun _ => nofun⟩
    exact ⟨fun _ => ⟨holds, listed, fun bound _ => (free bound).1, fun bound _ => (free bound).2, fun _ => nofun,
      fun _ => nofun⟩, fun _ => rfl⟩
  | bool b =>
    rw [flat, Field.checkRange_ok]
    exact ⟨fun range => ⟨holds, listed, range.1, range.2, fun _ => nofun, fun _ => nofun⟩,
      fun fits => ⟨fits.least, fits.most⟩⟩
  | int n =>
    rw [flat, Field.checkRange_ok]
    exact ⟨fun range => ⟨holds, listed, range.1, range.2, fun _ => nofun, fun _ => nofun⟩,
      fun fits => ⟨fits.least, fits.most⟩⟩
  | float x =>
    rw [flat, Field.checkRange_ok]
    exact ⟨fun range => ⟨holds, listed, range.1, range.2, fun _ => nofun, fun _ => nofun⟩,
      fun fits => ⟨fits.least, fits.most⟩⟩

theorem field_ok {value result : Json} {path : Str} : f.validate value path = .ok result ↔
    (value = .null ∧ f.nullable = true ∧ result = .null) ∨ (value ≠ .null ∧ ∃ inner, converted f value = some inner ∧
      Fits f inner ∧ inside f inner path = .ok result) := by
  rw [Field.validate_ok]
  apply or_congr_right
  apply and_congr_right
  intro _
  apply exists_congr
  intro inner
  rw [coerce_iff]
  apply and_congr_right
  intro _
  rw [checkValue_eq, validated_bind]
  constructor
  · intro ⟨holds, listed, _, flatly, deep⟩
    exact ⟨(fits_iff holds listed).mp flatly, deep⟩
  · intro ⟨fits, deep⟩
    exact ⟨fits.type, fits.enum, (), (fits_iff fits.type fits.enum).mpr fits, deep⟩

theorem field_raises {value : Json} {path : Str} : Raises (f.validate value path) ↔
    Huge f value ∨ (value ≠ .null ∧ ∃ inner, converted f value = some inner ∧ Fits f inner ∧
      Raises (inside f inner path)) := by
  have present : Huge f value → value ≠ .null := by
    intro ⟨_, n, same, _⟩ null
    rw [same] at null
    cases null
  unfold Field.validate
  by_cases absent : value = .null
  · rw [if_pos absent]
    constructor
    · split
      · exact fun raises => absurd raises not_raises_ok
      · exact fun raises => absurd raises not_raises_invalid
    · rintro (huge | ⟨other, _⟩)
      · exact absurd absent (present huge)
      · exact absurd absent other
  · rw [if_neg absent]
    simp only [bind, raises_bind, coerce_raises, raises_unless]
    apply or_congr_right
    rw [and_iff_right absent]
    apply exists_congr
    intro inner
    rw [coerce_iff]
    apply and_congr_right
    intro _
    rw [checkValue_eq, raises_bind]
    constructor
    · intro ⟨holds, listed, deep⟩
      have type : f.type.holds inner = true := by simpa using holds
      have enum : f.enum ≠ [] → f.enum.any (fun allowed => Json.pyEq inner allowed) :=
        fun some_left => by_contra (fun outside => listed ⟨some_left, outside⟩)
      rcases deep with early | ⟨_, flatly, later⟩
      · exact absurd early not_raises_flat
      · exact ⟨(fits_iff type enum).mp flatly, later⟩
    · intro ⟨fits, later⟩
      exact ⟨by simpa using fits.type, fun both => both.2 (fits.enum both.1),
        .inr ⟨(), (fits_iff fits.type fits.enum).mpr fits, later⟩⟩

section
variable {validate : Validator} {admits overflows : Json → Prop} {normal : Json → Json}

theorem each_ok (single : ∀ value path result, validate value path = .ok result ↔ admits value ∧ result = normal value)
    (text : Nat → Str) (items : List Json) (start : Nat) (out : List Json) :
    (items.zipIdx start).mapM (fun entry => validate entry.1 (text entry.2)) = .ok out ↔
      (∀ item ∈ items, admits item) ∧ out = items.map normal := by
  induction items generalizing start out with
  | nil => simp [pure, Except.pure, eq_comm]
  | cons item rest ih =>
    simp only [List.zipIdx_cons, List.mapM_cons, bind, validated_bind, single, ih, pure, Except.pure, Except.ok.injEq,
      List.forall_mem_cons, List.map_cons]
    constructor
    · rintro ⟨_, ⟨first, rfl⟩, _, ⟨later, rfl⟩, rfl⟩
      exact ⟨⟨first, later⟩, rfl⟩
    · rintro ⟨⟨first, later⟩, rfl⟩
      exact ⟨_, ⟨first, rfl⟩, _, ⟨later, rfl⟩, rfl⟩

theorem each_raises (single : ∀ value path result, validate value path = .ok result ↔ admits value ∧ result = normal value)
    (stops : ∀ value path, Raises (validate value path) ↔ overflows value) (text : Nat → Str) (items : List Json)
    (start : Nat) : Raises ((items.zipIdx start).mapM (fun entry => validate entry.1 (text entry.2))) ↔
      ∃ before item after, items = before ++ item :: after ∧ (∀ earlier ∈ before, admits earlier) ∧ overflows item := by
  induction items generalizing start with
  | nil =>
    simp only [List.zipIdx_nil, List.mapM_nil]
    constructor
    · exact fun raises => absurd raises not_raises_ok
    · rintro ⟨before, item, after, split, _⟩
      exact absurd split (by simp)
  | cons item rest ih =>
    simp only [List.zipIdx_cons, List.mapM_cons, bind, raises_bind, stops, single, ih]
    constructor
    · rintro (first | ⟨_, ⟨fine, rfl⟩, later | ⟨_, _, last⟩⟩)
      · exact ⟨[], item, rest, rfl, by simp, first⟩
      · obtain ⟨before, next, after, rfl, all, stopped⟩ := later
        exact ⟨item :: before, next, after, rfl, List.forall_mem_cons.mpr ⟨fine, all⟩, stopped⟩
      · exact absurd last not_raises_ok
    · rintro ⟨before, next, after, split, all, stopped⟩
      cases before with
      | nil =>
        obtain ⟨rfl, rfl⟩ := List.cons.inj split
        exact .inl stopped
      | cons earlier before =>
        obtain ⟨rfl, rfl⟩ := List.cons.inj split
        obtain ⟨fine, all⟩ := List.forall_mem_cons.mp all
        exact .inr ⟨_, ⟨fine, rfl⟩, .inl ⟨before, next, after, rfl, all, stopped⟩⟩

end

theorem FieldSpec.build_base (spec : FieldSpec) :
    spec.build.required = spec.base.required ∧ spec.build.default = spec.base.default := by
  cases spec with
  | mk base item dict => exact ⟨rfl, rfl⟩

theorem FieldsSpec.names_build (fields : FieldsSpec) : fields.build.map Prod.fst = fields.names :=
  match fields with
  | .nil => rfl
  | .cons name _ rest => congrArg (name :: ·) rest.names_build

theorem schema_ok {schema : Schema} {value result : Json} {path : Str} :
    schema.validate value path = .ok result ↔ ∃ entries out, value = .obj entries ∧ result = .obj out ∧
      Known schema.strict (schema.fields.map Prod.fst) entries ∧
      Schema.collect entries (if path ≠ [] then path else schema.name) schema.fields = .ok out :=
  Schema.validate_iff

theorem schema_raises {schema : Schema} {value : Json} {path : Str} :
    Raises (schema.validate value path) ↔ ∃ entries, value = .obj entries ∧
      Known schema.strict (schema.fields.map Prod.fst) entries ∧
      Raises (Schema.collect entries (if path ≠ [] then path else schema.name) schema.fields) := by
  rcases schema.validate_cases value path with ⟨entries, rfl, known, made⟩ | ⟨none_left, _, _, _, made⟩
  · rw [made, raises_bind]
    constructor
    · rintro (stops | ⟨_, _, ended⟩)
      · exact ⟨entries, rfl, known, stops⟩
      · exact absurd ended not_raises_ok
    · intro ⟨_, same, _, stops⟩
      obtain rfl := Json.obj.inj same
      exact .inl stops
  · rw [made]
    constructor
    · exact fun stops => absurd stops not_raises_invalid
    · exact fun ⟨entries, same, known, _⟩ => absurd ⟨entries, same, known⟩ none_left

theorem FieldsSpec.collect_cons (name : Str) (spec : FieldSpec) (rest : FieldsSpec) (entries : Dict Str Json) (p : Str) :
    Schema.collect entries p (FieldsSpec.cons name spec rest).build =
      match Dict.get? entries name with
      | none =>
        if spec.base.required then invalid (Schema.fieldPath p name) "missing" "required field absent"
        else (Schema.collect entries p rest.build).bind (fun later =>
          match spec.base.default with
          | some value => .ok ((name, value) :: later)
          | none => .ok later)
      | some value => (spec.build.validate value (Schema.fieldPath p name)).bind (fun checked =>
          (Schema.collect entries p rest.build).bind (fun later => .ok ((name, checked) :: later))) := by
  obtain ⟨required, default⟩ := spec.build_base
  rw [FieldsSpec.build, Schema.collect]
  cases Dict.get? entries name with
  | some value => rfl
  | none =>
    simp only [required, default]
    cases spec.base.required <;> cases spec.base.default <;> rfl

/-- The inside of a value, in its normal form. -/
def normalInside (item : ItemSpec) (dict : DictSpec) : Json → Json
  | .arr items => .arr (item.normal items)
  | .obj entries => .obj (dict.normal entries)
  | value => value

theorem normal_inside {base : Field} {item : ItemSpec} {dict : DictSpec} {value inner : Json}
    (became : converted base value = some inner) : (FieldSpec.mk base item dict).normal value = normalInside item dict inner := by
  rw [FieldSpec.normal, became]
  cases inner <;> rfl

theorem converted_null (base : Field) : converted base .null = some .null := by
  unfold converted
  cases base.type <;> rfl

mutual

theorem FieldSpec.validate_ok (spec : FieldSpec) (value : Json) (path : Str) (result : Json) :
    spec.build.validate value path = .ok result ↔ spec.Admits value ∧ result = spec.normal value := by
  cases spec with
  | mk base item dict =>
    have deep (inner : Json) : inside { base with item := item.build, schema := dict.build } inner path = .ok result ↔
        Inside item.Admits dict.Admits True inner ∧ result = normalInside item dict inner := by
      cases inner with
      | arr items => exact item.inside_ok items path result
      | obj entries => exact dict.inside_ok entries path result
      | _ => simp [inside, Inside, normalInside, eq_comm]
    rw [FieldSpec.build, field_ok, FieldSpec.Admits]
    constructor
    · rintro (⟨rfl, nullable, rfl⟩ | ⟨present, inner, became, fits, deeply⟩)
      · exact ⟨.inl ⟨rfl, nullable⟩, by rw [normal_inside (converted_null base)]; rfl⟩
      · obtain ⟨all, rfl⟩ := (deep inner).mp deeply
        exact ⟨.inr ⟨present, inner, became, ⟨fits.type, fits.enum, fits.least, fits.most, fits.text, fits.size⟩, all⟩,
          (normal_inside became).symm⟩
    · rintro ⟨⟨rfl, nullable⟩ | ⟨present, inner, became, fits, all⟩, rfl⟩
      · exact .inl ⟨rfl, nullable, by rw [normal_inside (converted_null base)]; rfl⟩
      · exact .inr ⟨present, inner, became, ⟨fits.type, fits.enum, fits.least, fits.most, fits.text, fits.size⟩,
          (deep inner).mpr ⟨all, normal_inside became⟩⟩

theorem ItemSpec.inside_ok (item : ItemSpec) (items : List Json) (path : Str) (result : Json) :
    insideItems item.build items path = .ok result ↔ item.Admits items ∧ result = .arr (item.normal items) := by
  cases item with
  | free => simp [ItemSpec.build, insideItems, ItemSpec.Admits, ItemSpec.normal, eq_comm]
  | each spec =>
    have all := each_ok spec.validate_ok (fun i => path ++ Str.ofString "[" ++ natText i ++ Str.ofString "]") items 0
    rw [ItemSpec.build, insideItems, validated_bind, ItemSpec.Admits, ItemSpec.normal]
    constructor
    · intro ⟨out, made, same⟩
      obtain ⟨admitted, rfl⟩ := (all out).mp made
      exact ⟨admitted, (Except.ok.inj same).symm⟩
    · intro ⟨admitted, same⟩
      exact ⟨_, (all _).mpr ⟨admitted, rfl⟩, congrArg Except.ok same.symm⟩

theorem DictSpec.inside_ok (dict : DictSpec) (entries : Dict Str Json) (path : Str) (result : Json) :
    insideDict dict.build entries path = .ok result ↔ dict.Admits entries ∧ result = .obj (dict.normal entries) := by
  cases dict with
  | free => simp [DictSpec.build, insideDict, DictSpec.Admits, DictSpec.normal, eq_comm]
  | schema name fields strict =>
    rw [DictSpec.build, insideDict, schema_ok, DictSpec.Admits, DictSpec.normal]
    simp only [fields.names_build, fields.collect_ok]
    constructor
    · intro ⟨_, out, same, shape, known, admitted, normal⟩
      obtain rfl := Json.obj.inj same
      exact ⟨⟨known, admitted⟩, normal ▸ shape⟩
    · intro ⟨⟨known, admitted⟩, shape⟩
      exact ⟨entries, _, rfl, shape, known, admitted, rfl⟩

theorem FieldsSpec.collect_ok (fields : FieldsSpec) (entries : Dict Str Json) (p : Str) (out : Dict Str Json) :
    Schema.collect entries p fields.build = .ok out ↔ fields.Admits entries ∧ out = fields.normal entries := by
  cases fields with
  | nil => simp [FieldsSpec.build, Schema.collect, FieldsSpec.Admits, FieldsSpec.normal, pure, Except.pure, eq_comm]
  | cons name spec rest =>
    have first := spec.validate_ok
    have later := rest.collect_ok entries p
    rw [FieldsSpec.collect_cons, FieldsSpec.Admits, FieldsSpec.normal]
    cases Dict.get? entries name with
    | some value =>
      simp only [validated_bind, first, later]
      constructor
      · rintro ⟨_, ⟨admitted, rfl⟩, _, ⟨others, rfl⟩, same⟩
        exact ⟨⟨admitted, others⟩, (Except.ok.inj same).symm⟩
      · rintro ⟨⟨admitted, others⟩, rfl⟩
        exact ⟨_, ⟨admitted, rfl⟩, _, ⟨others, rfl⟩, rfl⟩
    | none =>
      cases required : spec.base.required with
      | true =>
        simp only [if_true, invalid]
        exact ⟨fun answered => (nomatch answered), fun admitted => (nomatch admitted.1.1)⟩
      | false =>
        simp only [Bool.false_eq_true, if_false, validated_bind, later, true_and]
        cases spec.base.default with
        | none =>
          constructor
          · rintro ⟨_, ⟨others, rfl⟩, same⟩
            exact ⟨others, (Except.ok.inj same).symm⟩
          · rintro ⟨others, rfl⟩
            exact ⟨_, ⟨others, rfl⟩, rfl⟩
        | some value =>
          constructor
          · rintro ⟨_, ⟨others, rfl⟩, same⟩
            exact ⟨others, (Except.ok.inj same).symm⟩
          · rintro ⟨others, rfl⟩
            exact ⟨_, ⟨others, rfl⟩, rfl⟩

end

mutual

theorem FieldSpec.validate_raises (spec : FieldSpec) (value : Json) (path : Str) :
    Raises (spec.build.validate value path) ↔ spec.Overflows value := by
  cases spec with
  | mk base item dict =>
    have deep (inner : Json) : Raises (inside { base with item := item.build, schema := dict.build } inner path) ↔
        Inside item.Overflows dict.Overflows False inner := by
      cases inner with
      | arr items => exact item.inside_raises items path
      | obj entries => exact dict.inside_raises entries path
      | _ => exact iff_of_false not_raises_ok id
    rw [FieldSpec.build, field_raises, FieldSpec.Overflows]
    apply or_congr_right
    apply and_congr_right
    intro _
    apply exists_congr
    intro inner
    apply and_congr_right
    intro _
    rw [deep]
    apply and_congr_left
    intro _
    exact ⟨fun fits => ⟨fits.type, fits.enum, fits.least, fits.most, fits.text, fits.size⟩,
      fun fits => ⟨fits.type, fits.enum, fits.least, fits.most, fits.text, fits.size⟩⟩

theorem ItemSpec.inside_raises (item : ItemSpec) (items : List Json) (path : Str) :
    Raises (insideItems item.build items path) ↔ item.Overflows items := by
  cases item with
  | free => exact iff_of_false not_raises_ok id
  | each spec =>
    have all := each_raises spec.validate_ok spec.validate_raises
      (fun i => path ++ Str.ofString "[" ++ natText i ++ Str.ofString "]") items 0
    rw [ItemSpec.build, insideItems, raises_bind, ItemSpec.Overflows]
    constructor
    · rintro (stops | ⟨_, _, ended⟩)
      · exact all.mp stops
      · exact absurd ended not_raises_ok
    · exact fun stops => .inl (all.mpr stops)

theorem DictSpec.inside_raises (dict : DictSpec) (entries : Dict Str Json) (path : Str) :
    Raises (insideDict dict.build entries path) ↔ dict.Overflows entries := by
  cases dict with
  | free => exact iff_of_false not_raises_ok id
  | schema name fields strict =>
    rw [DictSpec.build, insideDict, schema_raises, DictSpec.Overflows]
    simp only [fields.names_build, fields.collect_raises]
    constructor
    · intro ⟨_, same, known, stops⟩
      obtain rfl := Json.obj.inj same
      exact ⟨known, stops⟩
    · exact fun ⟨known, stops⟩ => ⟨entries, rfl, known, stops⟩

theorem FieldsSpec.collect_raises (fields : FieldsSpec) (entries : Dict Str Json) (p : Str) :
    Raises (Schema.collect entries p fields.build) ↔ fields.Overflows entries := by
  cases fields with
  | nil => exact iff_of_false not_raises_ok id
  | cons name spec rest =>
    have first := spec.validate_raises
    have later := rest.collect_raises entries p
    rw [FieldsSpec.collect_cons, FieldsSpec.Overflows]
    cases Dict.get? entries name with
    | some value =>
      simp only [raises_bind, first, later, spec.validate_ok, rest.collect_ok, Option.some.injEq, exists_eq_left']
      apply or_congr_right
      constructor
      · rintro ⟨_, ⟨admitted, rfl⟩, stops | ⟨_, _, ended⟩⟩
        · exact ⟨admitted, stops⟩
        · exact absurd ended not_raises_ok
      · exact fun ⟨admitted, stops⟩ => ⟨_, ⟨admitted, rfl⟩, .inl stops⟩
    | none =>
      cases required : spec.base.required with
      | true =>
        simp only [if_true]
        refine iff_of_false not_raises_invalid ?_
        rintro (⟨_, found, _⟩ | ⟨free, _⟩)
        · cases found
        · cases free
      | false =>
        simp only [Bool.false_eq_true, if_false, raises_bind, later, reduceCtorEq, false_and, exists_false, false_or,
          true_and]
        constructor
        · rintro (stops | ⟨_, _, ended⟩)
          · exact stops
          · cases default : spec.base.default <;> simp only [default] at ended <;> exact absurd ended not_raises_ok
        · exact .inl

end

end JJDai.TypedBoundary
