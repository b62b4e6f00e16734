import JJDai.Verification.BuiltSchema

/-! When a boundary is sound and total: what it returns is bounded throughout, and is
returned unchanged when it is validated again. -/

namespace JJDai.TypedBoundary

open PyText

def numberLe (a b : Json) : Prop := a ≠ .float .nan ∧ b ≠ .float .nan ∧ numberLess b a = false

/-- A number within the bounds, a string within its lengths and in full match, a list within its sizes. -/
structure Bounded (f : Field) (value : Json) : Prop where
  least : (asInt? value).isSome ∨ (∃ x, value = .float x) → ∀ least ∈ f.minVal, numberLe least.toJson value
  most : (asInt? value).isSome ∨ (∃ x, value = .float x) → ∀ most ∈ f.maxVal, numberLe value most.toJson
  text : ∀ s, value = .str s → (∀ least ∈ f.minLen, least ≤ s.length) ∧ (∀ most ∈ f.maxLen, s.length ≤ most) ∧
    ∀ pattern ∈ f.pattern, pattern.fullmatch s = true
  size : ∀ items, value = .arr items → (∀ least ∈ f.minLen, least ≤ items.length) ∧
    ∀ most ∈ f.maxLen, items.length ≤ most

mutual

/-- Everything inside a result is bounded, and every key is declared. -/
def FieldSpec.Sound : FieldSpec → Json → Prop
  | .mk base item dict, value => Bounded base value ∧ Inside item.Sound dict.Sound True value

def ItemSpec.Sound : ItemSpec → List Json → Prop
  | .free, _ => True
  | .each spec, items => ∀ item ∈ items, spec.Sound item

def DictSpec.Sound : DictSpec → Dict Str Json → Prop
  | .free, _ => True
  | .schema _ fields _, entries => (∀ key ∈ Dict.keys entries, key ∈ fields.names) ∧ fields.Sound entries

def FieldsSpec.Sound : FieldsSpec → Dict Str Json → Prop
  | .nil, _ => True
  | .cons name spec rest, entries =>
    (∀ value, Dict.get? entries name = some value → spec.Sound value) ∧ rest.Sound entries

end

/-- A default that the field itself returns as it is, and that is sound. -/
def FieldSpec.Settled (spec : FieldSpec) (value : Json) : Prop :=
  spec.Admits value ∧ spec.normal value = value ∧ spec.Sound value

/-- No NaN meets a bound, as the value or as the bound, and no pattern is met in part only. -/
structure Exact (f : Field) (value : Json) : Prop where
  number : (asInt? value).isSome ∨ (∃ x, value = .float x) → (∀ least ∈ f.minVal, value ≠ .float .nan ∧ least ≠ .float .nan) ∧
    ∀ most ∈ f.maxVal, value ≠ .float .nan ∧ most ≠ .float .nan
  text : ∀ s, value = .str s → ∀ pattern ∈ f.pattern, pattern.fullmatch s = true

mutual

/-- What must be so of a value that is admitted: it is exact throughout, what is filled in is
settled, and an enum of lists or dicts has the value as it is filled in. -/
def FieldSpec.Strict : FieldSpec → Json → Prop
  | .mk base item dict, value => ∀ inner, converted base value = some inner → value ≠ .null →
    Exact base inner ∧ Inside item.Strict dict.Strict True inner ∧
      (base.enum ≠ [] → base.enum.any (fun allowed => Json.pyEq (normalInside item dict inner) allowed))

def ItemSpec.Strict : ItemSpec → List Json → Prop
  | .free, _ => True
  | .each spec, items => ∀ item ∈ items, spec.Strict item

def DictSpec.Strict : DictSpec → Dict Str Json → Prop
  | .free, _ => True
  | .schema _ fields _, entries => fields.Strict entries

def FieldsSpec.Strict : FieldsSpec → Dict Str Json → Prop
  | .nil, _ => True
  | .cons name spec rest, entries =>
    (match Dict.get? entries name with
      | none => ∀ value ∈ spec.base.default, spec.Settled value
      | some value => spec.Strict value) ∧ rest.Strict entries

end

theorem FieldsSpec.admits_congr (fields : FieldsSpec) {entries others : Dict Str Json}
    (same : ∀ name ∈ fields.names, Dict.get? entries name = Dict.get? others name) :
    fields.Admits entries ↔ fields.Admits others := by
  cases fields with
  | nil => rfl
  | cons name spec rest =>
    obtain ⟨first, later⟩ := List.forall_mem_cons.mp same
    rw [FieldsSpec.Admits, FieldsSpec.Admits, first, rest.admits_congr later]

theorem FieldsSpec.sound_congr (fields : FieldsSpec) {entries others : Dict Str Json}
    (same : ∀ name ∈ fields.names, Dict.get? entries name = Dict.get? others name) :
    fields.Sound entries ↔ fields.Sound others := by
  cases fields with
  | nil => rfl
  | cons name spec rest =>
    obtain ⟨first, later⟩ := List.forall_mem_cons.mp same
    rw [FieldsSpec.Sound, FieldsSpec.Sound, first, rest.sound_congr later]

theorem FieldsSpec.normal_congr (fields : FieldsSpec) {entries others : Dict Str Json}
    (same : ∀ name ∈ fields.names, Dict.get? entries name = Dict.get? others name) :
    fields.normal entries = fields.normal others := by
  cases fields with
  | nil => rfl
  | cons name spec rest =>
    obtain ⟨first, later⟩ := List.forall_mem_cons.mp same
    rw [FieldsSpec.normal, FieldsSpec.normal, first, rest.normal_congr later]

theorem FieldsSpec.keys_normal (fields : FieldsSpec) (entries : Dict Str Json) :
    ∀ key ∈ Dict.keys (fields.normal entries), key ∈ fields.names := by
  cases fields with
  | nil => exact fun key member => absurd member List.not_mem_nil
  | cons name spec rest =>
    have later := rest.keys_normal entries
    have widen {value : Json} : ∀ key ∈ Dict.keys ((name, value) :: rest.normal entries), key ∈ name :: rest.names := by
      intro key member
      rcases List.mem_cons.mp member with rfl | inside
      · exact List.mem_cons_self
      · exact List.mem_cons_of_mem _ (later key inside)
    rw [FieldsSpec.normal, FieldsSpec.names]
    cases Dict.get? entries name with
    | some value => exact widen
    | none =>
      cases spec.base.default with
      | some value => exact widen
      | none => exact fun key member => List.mem_cons_of_mem _ (later key member)

theorem ItemSpec.length_normal (item : ItemSpec) (items : List Json) : (item.normal items).length = items.length := by
  cases item with
  | free => rfl
  | each spec => exact List.length_map _

section
variable {base : Field} {item : ItemSpec} {dict : DictSpec} {value inner : Json}

theorem converted_normal (became : converted base value = some inner) (holds : base.type.holds inner = true) :
    converted base (normalInside item dict inner) = some (normalInside item dict inner) := by
  unfold converted at became ⊢
  generalize base.type = type at became holds ⊢
  cases type with
  | int =>
    cases inner with
    | bool b => cases value <;> cases became
    | int n => rfl
    | _ => cases holds
  | float =>
    cases inner with
    | float x => rfl
    | _ => cases holds
  | _ => rfl

theorem holds_normal (type : FieldType) : type.holds (normalInside item dict inner) = type.holds inner := by
  cases inner <;> cases type <;> rfl

theorem fits_normal (fits : Fits base inner) : Fits base (normalInside item dict inner) ↔
    (base.enum ≠ [] → base.enum.any (fun allowed => Json.pyEq (normalInside item dict inner) allowed)) := by
  constructor
  · exact fun again => again.enum
  · intro listed
    have type : base.type.holds (normalInside item dict inner) = true := (holds_normal base.type).trans fits.type
    cases inner with
    | arr items =>
      refine ⟨type, listed, ?_, ?_, fun _ => nofun, ?_⟩
      · intro least _
        cases least <;> rfl
      · intro most _
        cases most <;> rfl
      · intro list same
        obtain rfl := Json.arr.inj same
        rw [item.length_normal]
        exact fits.size items rfl
    | obj entries =>
      refine ⟨type, listed, ?_, ?_, fun _ => nofun, fun _ => nofun⟩
      · intro least _
        cases least <;> rfl
      · intro most _
        cases most <;> rfl
    | _ => exact ⟨type, listed, fits.least, fits.most, fits.text, fits.size⟩

theorem toJson_nan {bound : Number} : bound.toJson ≠ .float .nan ↔ bound ≠ .float .nan := by
  cases bound with
  | int n => simp [Number.toJson]
  | float x => simp [Number.toJson]

/-- Of what fits, the numbers are in order unless one is NaN, and the strings need a full match. -/
theorem bounded_normal (fits : Fits base inner) : Bounded base (normalInside item dict inner) ↔ Exact base inner := by
  have scalar (number : (asInt? inner).isSome ∨ ∃ x, inner = .float x) : normalInside item dict inner = inner := by
    cases inner with
    | arr items => rcases number with absent | ⟨_, same⟩ <;> [cases absent; cases same]
    | obj entries => rcases number with absent | ⟨_, same⟩ <;> [cases absent; cases same]
    | _ => rfl
  have back (number : (asInt? (normalInside item dict inner)).isSome ∨ ∃ x, normalInside item dict inner = .float x) :
      (asInt? inner).isSome ∨ ∃ x, inner = .float x := by
    cases inner with
    | arr items => rcases number with absent | ⟨_, same⟩ <;> [cases absent; cases same]
    | obj entries => rcases number with absent | ⟨_, same⟩ <;> [cases absent; cases same]
    | _ => exact number
  constructor
  · intro bounded
    refine ⟨fun number => ⟨?_, ?_⟩, ?_⟩
    · intro least member
      have order := bounded.least (by rw [scalar number]; exact number) least member
      rw [scalar number] at order
      exact ⟨order.2.1, toJson_nan.mp order.1⟩
    · intro most member
      have order := bounded.most (by rw [scalar number]; exact number) most member
      rw [scalar number] at order
      exact ⟨order.1, toJson_nan.mp order.2.1⟩
    · intro s same
      subst same
      exact (bounded.text s rfl).2.2
  · intro exact_
    refine ⟨fun number least member => ?_, fun number most member => ?_, ?_, ?_⟩
    · have plain := back number
      rw [scalar plain]
      obtain ⟨present, bound⟩ := (exact_.number plain).1 least member
      exact ⟨toJson_nan.mpr bound, present, fits.least least member⟩
    · have plain := back number
      rw [scalar plain]
      obtain ⟨present, bound⟩ := (exact_.number plain).2 most member
      exact ⟨present, toJson_nan.mpr bound, fits.most most member⟩
    · intro s same
      cases inner with
      | str t =>
        obtain ⟨low, high, _⟩ := fits.text t rfl
        obtain rfl := Json.str.inj same
        exact ⟨low, high, exact_.text t rfl⟩
      | _ => cases same
    · intro items same
      cases inner with
      | arr list =>
        obtain rfl := Json.arr.inj same
        rw [item.length_normal]
        exact fits.size list rfl
      | _ => cases same

end

mutual

theorem FieldSpec.settled_iff (spec : FieldSpec) (unique : spec.Unique) (value : Json) (admitted : spec.Admits value) :
    spec.Settled (spec.normal value) ↔ spec.Strict value := by
  cases spec with
  | mk base item dict =>
    obtain ⟨itemUnique, dictUnique⟩ := unique
    rcases admitted with ⟨rfl, nullable⟩ | ⟨present, inner, became, fits, deep⟩
    · have same : (FieldSpec.mk base item dict).normal .null = .null := normal_inside (converted_null base)
      refine iff_of_true ⟨?_, ?_, ?_⟩ (fun _ _ other => absurd rfl other)
      · rw [same]
        exact .inl ⟨rfl, nullable⟩
      · rw [same, same]
      · rw [same]
        refine ⟨⟨?_, ?_, fun _ => nofun, fun _ => nofun⟩, trivial⟩
        · rintro (absent | ⟨_, other⟩) <;> [cases absent; cases other]
        · rintro (absent | ⟨_, other⟩) <;> [cases absent; cases other]
    · have again := @converted_normal base item dict value inner became fits.type
      have shape : (FieldSpec.mk base item dict).normal value = normalInside item dict inner := normal_inside became
      have solid : normalInside item dict inner ≠ .null := by
        have holds := fits.type
        cases inner with
        | null => cases type : base.type <;> rw [type] at holds <;> cases holds
        | _ => exact nofun
      have inside_iff : (Inside item.Admits dict.Admits True (normalInside item dict inner) ∧
          normalInside item dict (normalInside item dict inner) = normalInside item dict inner ∧
          Inside item.Sound dict.Sound True (normalInside item dict inner)) ↔ Inside item.Strict dict.Strict True inner := by
        cases inner with
        | arr items =>
          have all := item.settled_iff itemUnique items deep
          simp only [Inside, normalInside, Json.arr.injEq]
          exact all
        | obj entries =>
          have all := dict.settled_iff dictUnique entries deep
          simp only [Inside, normalInside, Json.obj.injEq]
          exact all
        | _ => exact iff_of_true ⟨trivial, rfl, trivial⟩ trivial
      have whole : (FieldSpec.mk base item dict).Strict value ↔ Exact base inner ∧ Inside item.Strict dict.Strict True inner ∧
          (base.enum ≠ [] → base.enum.any (fun allowed => Json.pyEq (normalInside item dict inner) allowed)) := by
        constructor
        · exact fun strict => strict inner became present
        · intro strict other same _
          obtain rfl := Option.some.inj (became.symm.trans same)
          exact strict
      rw [FieldSpec.Settled, shape, normal_inside again, whole, FieldSpec.Admits, FieldSpec.Sound, bounded_normal fits,
        ← inside_iff, ← fits_normal fits]
      constructor
      · intro ⟨admits, same, exact_, sound⟩
        rcases admits with ⟨absent, _⟩ | ⟨_, found, same', fit, admits⟩
        · exact absurd absent solid
        · obtain rfl := Option.some.inj (again.symm.trans same')
          exact ⟨exact_, ⟨admits, same, sound⟩, fit⟩
      · intro ⟨exact_, ⟨admits, same, sound⟩, fit⟩
        exact ⟨.inr ⟨solid, _, again, fit, admits⟩, same, exact_, sound⟩

theorem ItemSpec.settled_iff (item : ItemSpec) (unique : item.Unique) (items : List Json) (admitted : item.Admits items) :
    (item.Admits (item.normal items) ∧ item.normal (item.normal items) = item.normal items ∧
      item.Sound (item.normal items)) ↔ item.Strict items := by
  cases item with
  | free => exact iff_of_true ⟨trivial, rfl, trivial⟩ trivial
  | each spec =>
    have single := spec.settled_iff unique
    simp only [ItemSpec.Admits, ItemSpec.normal, ItemSpec.Sound, ItemSpec.Strict, List.forall_mem_map, List.map_map,
      List.map_inj_left, Function.comp]
    constructor
    · intro ⟨admits, same, sound⟩ x member
      exact (single x (admitted x member)).mp ⟨admits x member, same x member, sound x member⟩
    · intro strict
      have settled x member := (single x (admitted x member)).mpr (strict x member)
      exact ⟨fun x member => (settled x member).1, fun x member => (settled x member).2.1,
        fun x member => (settled x member).2.2⟩

theorem DictSpec.settled_iff (dict : DictSpec) (unique : dict.Unique) (entries : Dict Str Json)
    (admitted : dict.Admits entries) : (dict.Admits (dict.normal entries) ∧
      dict.normal (dict.normal entries) = dict.normal entries ∧ dict.Sound (dict.normal entries)) ↔ dict.Strict entries := by
  cases dict with
  | free => exact iff_of_true ⟨trivial, rfl, trivial⟩ trivial
  | schema name fields strict =>
    have declared := fields.keys_normal entries
    have all := fields.settled_iff unique entries admitted.2
    simp only [DictSpec.Admits, DictSpec.normal, DictSpec.Sound, DictSpec.Strict]
    rw [← all]
    constructor
    · exact fun ⟨⟨_, admits⟩, same, _, sound⟩ => ⟨admits, same, sound⟩
    · exact fun ⟨admits, same, sound⟩ => ⟨⟨fun _ => declared, admits⟩, same, declared, sound⟩

theorem FieldsSpec.settled_iff (fields : FieldsSpec) (unique : fields.Unique) (entries : Dict Str Json)
    (admitted : fields.Admits entries) : (fields.Admits (fields.normal entries) ∧
      fields.normal (fields.normal entries) = fields.normal entries ∧ fields.Sound (fields.normal entries)) ↔
        fields.Strict entries := by
  cases fields with
  | nil => exact iff_of_true ⟨trivial, rfl, trivial⟩ trivial
  | cons name spec rest =>
    obtain ⟨fresh, specUnique, restUnique⟩ := unique
    obtain ⟨first, later⟩ := admitted
    have all := rest.settled_iff restUnique entries later
    -- what stands before the other fields is not read by them
    have apart (value : Json) : ∀ other ∈ rest.names,
        Dict.get? ((name, value) :: rest.normal entries) other = Dict.get? (rest.normal entries) other := by
      intro other member
      rw [Dict.get?_cons, if_neg (fun same : name = other => fresh (same ▸ member))]
    have filled (value : Json) : ((FieldsSpec.cons name spec rest).Admits ((name, value) :: rest.normal entries) ∧
        (FieldsSpec.cons name spec rest).normal ((name, value) :: rest.normal entries) = (name, value) :: rest.normal entries ∧
        (FieldsSpec.cons name spec rest).Sound ((name, value) :: rest.normal entries)) ↔
          spec.Settled value ∧ rest.Strict entries := by
      simp only [FieldsSpec.Admits, FieldsSpec.normal, FieldsSpec.Sound, Dict.get?_cons, if_true, Option.some.injEq,
        forall_eq', rest.admits_congr (apart value), rest.normal_congr (apart value), rest.sound_congr (apart value),
        List.cons.injEq, Prod.mk.injEq, true_and, FieldSpec.Settled]
      rw [← all]
      constructor
      · exact fun ⟨⟨a, b⟩, ⟨c, d⟩, e, f⟩ => ⟨⟨a, c, e⟩, b, d, f⟩
      · exact fun ⟨⟨a, c, e⟩, b, d, f⟩ => ⟨⟨a, b⟩, ⟨c, d⟩, e, f⟩
    cases found : Dict.get? entries name with
    | some value =>
      rw [found] at first
      simp only [FieldsSpec.Strict, found]
      rw [← spec.settled_iff specUnique value first, ← filled, FieldsSpec.normal]
      simp only [found]
    | none =>
      rw [found] at first
      cases default : spec.base.default with
      | some value =>
        simp only [FieldsSpec.Strict, found, default, Option.mem_def, Option.some.injEq, forall_eq']
        rw [← filled, FieldsSpec.normal]
        simp only [found, default]
      | none =>
        have absent : Dict.get? (rest.normal entries) name = none := by
          cases present : Dict.get? (rest.normal entries) name with
          | none => rfl
          | some value =>
            exact absurd (rest.keys_normal entries name (List.mem_map_of_mem (Dict.mem_of_get? present))) fresh
        have same : (FieldsSpec.cons name spec rest).normal entries = rest.normal entries := by
          rw [FieldsSpec.normal]
          simp only [found, default]
        rw [same]
        simp only [FieldsSpec.Admits, FieldsSpec.normal, FieldsSpec.Sound, FieldsSpec.Strict, found, absent, default,
          Option.mem_def, reduceCtorEq, false_implies, implies_true, true_and, first]
        exact all

end

structure SchemaSpec where
  name : Str
  fields : FieldsSpec
  strict : Bool := true

def SchemaSpec.build (spec : SchemaSpec) : Schema := { name := spec.name, fields := spec.fields.build, strict := spec.strict }

/-- `validate` rejects, or returns a value that is sound and that it returns unchanged when it is given it again. -/
def SoundAndTotal (spec : SchemaSpec) (value : Json) (path : Str) : Prop :=
  (∃ at_ code detail, spec.build.validate value path = invalid at_ code detail) ∨
    ∃ entries, spec.build.validate value path = .ok (.obj entries) ∧
      ((∀ key ∈ Dict.keys entries, key ∈ spec.fields.names) ∧ spec.fields.Sound entries) ∧
      spec.build.validate (.obj entries) path = .ok (.obj entries)

/-- No integer that is huge for its field stands behind what is admitted only, and an object
that is admitted is strict. -/
structure Safe (spec : SchemaSpec) (value : Json) : Prop where
  modest : ∀ entries, value = .obj entries → Known spec.strict spec.fields.names entries → ¬spec.fields.Overflows entries
  strict : ∀ entries, value = .obj entries → Known spec.strict spec.fields.names entries → spec.fields.Admits entries →
    spec.fields.Strict entries

/-- For every schema and every value: the boundary is sound and total exactly where it is safe. -/
theorem sound_and_total_iff (spec : SchemaSpec) (unique : spec.fields.Unique) (value : Json) (path : Str) :
    SoundAndTotal spec value path ↔ Safe spec value := by
  have accepts (value result : Json) : spec.build.validate value path = .ok result ↔ ∃ entries, value = .obj entries ∧
      Known spec.strict spec.fields.names entries ∧ spec.fields.Admits entries ∧
        result = .obj (spec.fields.normal entries) := by
    rw [schema_ok]
    simp only [SchemaSpec.build, spec.fields.names_build, spec.fields.collect_ok]
    constructor
    · rintro ⟨entries, _, shape, became, known, admitted, rfl⟩
      exact ⟨entries, shape, known, admitted, became⟩
    · rintro ⟨entries, shape, known, admitted, became⟩
      exact ⟨entries, _, shape, became, known, admitted, rfl⟩
  have stops : Raises (spec.build.validate value path) ↔ ∃ entries, value = .obj entries ∧
      Known spec.strict spec.fields.names entries ∧ spec.fields.Overflows entries := by
    rw [schema_raises]
    simp only [SchemaSpec.build, spec.fields.names_build, spec.fields.collect_raises]
  have declared := spec.fields.keys_normal
  constructor
  · rintro (⟨_, _, _, rejected⟩ | ⟨out, accepted, ⟨_, sound⟩, again⟩)
    · refine ⟨?_, ?_⟩
      · intro entries shape known overflow
        have raised := stops.mpr ⟨entries, shape, known, overflow⟩
        rw [rejected] at raised
        exact not_raises_invalid raised
      · intro entries shape known admitted
        have accepted := (accepts value _).mpr ⟨entries, shape, known, admitted, rfl⟩
        rw [rejected] at accepted
        cases accepted
    · refine ⟨?_, ?_⟩
      · intro entries shape known overflow
        have raised := stops.mpr ⟨entries, shape, known, overflow⟩
        rw [accepted] at raised
        exact absurd raised not_raises_ok
      · intro entries shape known admitted
        have result := (accepts value _).mpr ⟨entries, shape, known, admitted, rfl⟩
        obtain rfl := Json.obj.inj (Except.ok.inj (accepted.symm.trans result))
        obtain ⟨_, same, _, admits, normal⟩ := (accepts _ _).mp again
        obtain rfl := Json.obj.inj same
        exact (spec.fields.settled_iff unique entries admitted).mp ⟨admits, (Json.obj.inj normal).symm, sound⟩
  · intro safe
    cases outcome : spec.build.validate value path with
    | ok result =>
      obtain ⟨entries, shape, known, admitted, rfl⟩ := (accepts value result).mp outcome
      obtain ⟨admits, normal, sound⟩ :=
        (spec.fields.settled_iff unique entries admitted).mpr (safe.strict entries shape known admitted)
      refine .inr ⟨_, outcome, ⟨declared entries, sound⟩, ?_⟩
      exact (accepts _ _).mpr ⟨_, rfl, fun _ => declared entries, admits, congrArg Json.obj normal.symm⟩
    | error e =>
      cases e with
      | invalid at_ code detail => exact .inl ⟨at_, code, detail, outcome⟩
      | raised e =>
        obtain ⟨entries, shape, known, overflow⟩ := stops.mp ⟨e, outcome⟩
        exact absurd overflow (safe.modest entries shape known)

def FieldSpec.plain (base : Field) : FieldSpec := .mk base .free .free

def sampling : SchemaSpec where
  name := "Sampling"
  fields :=
    .cons "seed" (.plain {
      type := .int, required := false, minVal := some (.int 0), maxVal := some (.int (2 ^ 63 - 1)) })
    (.cons "temperature" (.plain { type := .float, minVal := some (floatBound 0), maxVal := some (floatBound 2) })
    (.cons "top_p" (.plain { type := .float, minVal := some (floatBound 0), maxVal := some (floatBound 1) })
    (.cons "top_k" (.plain { type := .int, required := false, minVal := some (.int 0), maxVal := some (.int 100000) })
    (.cons "max_tokens" (.plain { type := .int, minVal := some (.int 1), maxVal := some (.int maxTokensHard) }) .nil))))

theorem sampling_unique : sampling.fields.Unique := by
  simp only [sampling, FieldsSpec.Unique, FieldsSpec.names, FieldSpec.plain, FieldSpec.Unique, ItemSpec.Unique,
    DictSpec.Unique, and_true]
  decide

def sampleParameters (temperature : PyFloat) : Dict Str Json :=
  [("temperature", .float temperature), ("top_p", .float (.finite (.ofDigits false 1 0))), ("max_tokens", .int 16)]

theorem plain_number {base : Field} {value : Json} (number : (asInt? value).isSome ∨ ∃ x, value = .float x)
    (low : ∀ least ∈ base.minVal, numberLe least.toJson value) (high : ∀ most ∈ base.maxVal, numberLe value most.toJson) :
    (FieldSpec.plain base).Sound value := by
  refine ⟨⟨fun _ => low, fun _ => high, ?_, ?_⟩, ?_⟩
  · rintro s rfl
    rcases number with absent | ⟨_, other⟩ <;> [cases absent; cases other]
  · rintro items rfl
    rcases number with absent | ⟨_, other⟩ <;> [cases absent; cases other]
  · cases value with
    | arr items => trivial
    | obj entries => trivial
    | _ => trivial

theorem sampling_sound : sampling.fields.Sound (sampleParameters (.finite (.ofDigits false 5 (-1)))) := by
  refine ⟨fun _ absent => (nomatch absent), ?_, ?_, fun _ absent => (nomatch absent), ?_, trivial⟩
  · rintro _ ⟨⟩
    apply plain_number (.inr ⟨_, rfl⟩)
    · rintro _ ⟨⟩
      exact ⟨nofun, nofun, by decide⟩
    · rintro _ ⟨⟩
      exact ⟨nofun, nofun, by decide⟩
  · rintro _ ⟨⟩
    apply plain_number (.inr ⟨_, rfl⟩)
    · rintro _ ⟨⟩
      exact ⟨nofun, nofun, by decide⟩
    · rintro _ ⟨⟩
      exact ⟨nofun, nofun, by decide⟩
  · rintro _ ⟨⟩
    apply plain_number (.inl rfl)
    · rintro _ ⟨⟩
      exact ⟨nofun, nofun, by decide⟩
    · rintro _ ⟨⟩
      exact ⟨nofun, nofun, by decide⟩

/-- A temperature within its bounds. -/
theorem sound_and_total_sampling : Safe sampling (.obj (sampleParameters (.finite (.ofDigits false 5 (-1))))) :=
  (sound_and_total_iff sampling sampling_unique _ "sampling").mp
    (.inr ⟨_, by decide +kernel, ⟨by decide +kernel, sampling_sound⟩, by decide +kernel⟩)

/-- A temperature that is not a number is let through. -/
theorem nan_temperature_accepted : ¬SoundAndTotal sampling (.obj (sampleParameters .nan)) "sampling" := by
  have accepted : sampling.build.validate (.obj (sampleParameters .nan)) "sampling" = .ok (.obj (sampleParameters .nan)) := by
    decide +kernel
  rintro (⟨_, _, _, rejected⟩ | ⟨entries, made, ⟨_, sound⟩, _⟩)
  · rw [accepted] at rejected
    cases rejected
  · obtain rfl := Json.obj.inj (Except.ok.inj (accepted.symm.trans made))
    obtain ⟨_, temperature, _⟩ := sound
    obtain ⟨bounded, _⟩ := temperature (.float .nan) rfl
    exact (bounded.least (.inr ⟨_, rfl⟩) _ rfl).2.1 rfl

end JJDai.TypedBoundary
