import JJDai.Primitive.ChainVerification
import JJDai.Primitive.PlaneAccepts
import JJDai.Verification.SchemaText

/-! A verdict that is sealed over the validated request opens against the raw one. -/

namespace JJDai

open PyText Canonical

variable {crypto : Crypto}

theorem modest_plain {f : Field} (number : f.type ≠ .float) (items : f.item = none)
    (nested : f.schema = none) : f.Modest where
  float := fun float => absurd float number
  item := by rw [items]; nofun
  schema := by rw [nested]; nofun

theorem modest_float {f : Field} (low : f.minVal = some (floatBound 0))
    (high : f.maxVal = some (floatBound 1) ∨ f.maxVal = some (floatBound 2)) (items : f.item = none)
    (nested : f.schema = none) : f.Modest where
  float := fun _ => ⟨low, high⟩
  item := by rw [items]; nofun
  schema := by rw [nested]; nofun

theorem modest_list {f g : Field} (number : f.type ≠ .float) (items : f.item = some g.validate)
    (nested : f.schema = none) (modest : g.Modest) : f.Modest where
  float := fun float => absurd float number
  item := by
    intro validate found
    rw [items] at found
    rw [← Option.some.inj found]
    exact g.preserves modest
  schema := by rw [nested]; nofun

theorem modest_dict {f : Field} {schema : Schema} (number : f.type ≠ .float) (items : f.item = none)
    (nested : f.schema = some schema.validate) (keeps : Preserves schema.validate) : f.Modest where
  float := fun float => absurd float number
  item := by rw [items]; nofun
  schema := by
    intro validate found
    rw [nested] at found
    rw [← Option.some.inj found]
    exact keeps

theorem message_preserves : Preserves messageSchema.validate := by
  refine Schema.preserves rfl (by decide) (by simp [messageSchema]) (fun field member => ?_)
  apply Field.preserves
  simp only [messageSchema, List.mem_cons, List.not_mem_nil, or_false] at member
  rcases member with rfl | rfl
  · exact modest_plain (by simp) rfl rfl
  · exact modest_plain (by simp) rfl rfl

theorem sampling_preserves : Preserves samplingSchema.validate := by
  refine Schema.preserves rfl (by decide) (by simp [samplingSchema]) (fun field member => ?_)
  apply Field.preserves
  simp only [samplingSchema, List.mem_cons, List.not_mem_nil, or_false] at member
  rcases member with rfl | rfl | rfl | rfl | rfl
  · exact modest_plain (by simp) rfl rfl
  · exact modest_float rfl (.inr rfl) rfl rfl
  · exact modest_float rfl (.inl rfl) rfl rfl
  · exact modest_plain (by simp) rfl rfl
  · exact modest_plain (by simp) rfl rfl

theorem request_fields_preserve : ∀ field ∈ inferenceRequest.fields, Preserves field.2.validate := by
  intro field member
  apply Field.preserves
  simp only [inferenceRequest, List.mem_cons, List.not_mem_nil, or_false] at member
  rcases member with rfl | rfl | rfl | rfl | rfl | rfl | rfl | rfl
  · exact modest_plain (by simp) rfl rfl
  · exact modest_list (by simp) rfl rfl (modest_plain (by simp) rfl rfl)
  · exact modest_list (by simp) rfl rfl (modest_dict (by simp) rfl rfl message_preserves)
  · exact modest_dict (by simp) rfl rfl sampling_preserves
  · exact modest_plain (by simp) rfl rfl
  · exact modest_plain (by simp) rfl rfl
  · exact modest_plain (by simp) rfl rfl
  · exact modest_list (by simp) rfl rfl (modest_plain (by simp) rfl rfl)

/-- A request as it was sent and as it was validated. -/
structure Accepted (raw validated : Dict Str Json) : Prop where
  sound : (Json.obj raw).valid
  made : Schema.collect raw inferenceRequest.name inferenceRequest.fields = .ok validated

theorem accepted_of_validate {raw validated : Json} (sound : raw.valid)
    (made : inferenceRequest.validate raw "InferenceRequest" = .ok validated) :
    ∃ entries out, raw = .obj entries ∧ validated = .obj out ∧ Accepted entries out := by
  obtain ⟨entries, out, rfl, rfl, _, collected⟩ := (Schema.validate_ok rfl).mp made
  exact ⟨entries, out, rfl, rfl, sound, collected⟩

section Context

variable {raw validated : Dict Str Json}

theorem no_defaults : ∀ entry ∈ inferenceRequest.fields, entry.2.default = none := by
  simp [inferenceRequest]

theorem names_unique : (inferenceRequest.fields.map Prod.fst).Nodup := by decide

theorem Accepted.get (accepted : Accepted raw validated) {name : Str} {f : Field}
    (member : (name, f) ∈ inferenceRequest.fields) :
    (Dict.get? raw name = none ∧ f.required = false ∧ Dict.get? validated name = none) ∨
      ∃ value checked, Dict.get? raw name = some value ∧
        f.validate value (Schema.fieldPath inferenceRequest.name name) = .ok checked ∧
          Dict.get? validated name = some checked :=
  Schema.collect_get accepted.made no_defaults names_unique member

/-- The entries of the scored context of a request. -/
def contextEntries (request : Dict Str Json) : Dict Str Json :=
  contextFields.map (fun entry => (entry.1, (Dict.get? request entry.1).getD entry.2))

theorem scoringContext_obj (request : Dict Str Json) :
    scoringContext (.obj request) = .ok (.obj (contextEntries request)) := rfl

theorem context_text (accepted : Accepted raw validated) :
    serialize (.obj (contextEntries validated)) = serialize (.obj (contextEntries raw)) := by
  have field (entry : Str × Json) (member : entry ∈ contextFields) :
      serialize ((Dict.get? validated entry.1).getD entry.2) =
        serialize ((Dict.get? raw entry.1).getD entry.2) := by
    have known : ∃ f, (entry.1, f) ∈ inferenceRequest.fields := by
      simp only [contextFields, List.mem_cons, List.not_mem_nil, or_false] at member
      rcases member with rfl | rfl | rfl | rfl | rfl | rfl | rfl <;> simp [inferenceRequest]
    obtain ⟨f, known⟩ := known
    rcases accepted.get known with ⟨absent, _, left⟩ | ⟨value, checked, found, valid, became⟩
    · rw [absent, left]
    · rw [found, became]
      exact request_fields_preserve _ known value _ checked
        ((Json.valid_obj.mp accepted.sound).2 _ (Dict.mem_of_get? found)) valid
  have texts : serializeFields (contextEntries validated) = serializeFields (contextEntries raw) := by
    rw [serializeFields_eq, serializeFields_eq, contextEntries, contextEntries, List.map_map, List.map_map]
    exact List.map_congr_left (fun entry member => congrArg (Prod.mk entry.1) (field entry member))
  rw [serialize, serialize, texts]

theorem contextHash_validated (accepted : Accepted raw validated) :
    scoringContextHash crypto (.obj validated) = scoringContextHash crypto (.obj raw) := by
  simp only [scoringContextHash, scoringContext_obj, bind, Except.bind, canonical, context_text accepted]

/-- No value of the scored context has a lone surrogate, an infinity or NaN. -/
def Expressible (request : Json) : Prop :=
  ∀ name ∈ contextFields.map Prod.fst, ∀ value, subscript request name = .ok value → writable value

theorem writable_context {request : Dict Str Json} :
    writable (.obj (contextEntries request)) ↔ Expressible (.obj request) := by
  have plain : ∀ entry ∈ contextFields, encodable entry.1 ∧ writable entry.2 := by decide
  rw [writable_obj, contextEntries, List.forall_mem_map]
  constructor
  · intro all name member value read
    obtain ⟨entry, inside, rfl⟩ := List.mem_map.mp member
    have written := (all entry inside).2
    rwa [subscript_obj.mp read] at written
  · intro all entry member
    refine ⟨(plain entry member).1, ?_⟩
    simp only
    cases found : Dict.get? request entry.1 with
    | none => exact (plain entry member).2
    | some value => exact all _ (List.mem_map_of_mem member) value (subscript_obj.mpr found)

theorem contextHash_ok {request : Dict Str Json} :
    (∃ hash, scoringContextHash crypto (.obj request) = .ok hash) ↔ Expressible (.obj request) := by
  rw [← writable_context, ← canonical_isOk]
  simp only [scoringContextHash, scoringContext_obj, bind, Except.bind]
  cases canonical (.obj (contextEntries request)) <;> simp [pure, Except.pure, Except.isOk, Except.toBool]

end Context

namespace Field

variable {f : Field}

theorem validate_str (text : f.type = .str) (strict : f.nullable = false) {value result : Json}
    {path : Str} : f.validate value path = .ok result ↔ ∃ s, value = .str s ∧ result = .str s ∧
      (f.enum ≠ [] → f.enum.any (fun allowed => Json.pyEq (.str s) allowed)) ∧ f.checkText s path = .ok () := by
  rw [validate_ok]
  simp only [strict, coerce, text, Bool.false_eq_true, false_and, and_false, false_or]
  constructor
  · rintro ⟨_, coerced, converted, holds, member, checked⟩
    obtain rfl := Except.ok.inj converted
    cases value with
    | str s =>
      simp only [checkValue, bind, validated_bind] at checked
      obtain ⟨_, passed, checked⟩ := checked
      exact ⟨s, rfl, (Except.ok.inj checked).symm, member, passed⟩
    | _ => cases holds
  · rintro ⟨s, rfl, rfl, member, passed⟩
    refine ⟨by simp, _, rfl, rfl, member, ?_⟩
    simp only [checkValue, bind, validated_bind]
    exact ⟨(), passed, rfl⟩

theorem validate_free (free : f.enum = []) {value result : Json} {path : Str} (present : value ≠ .null)
    (same : f.coerce value path = .ok value) (holds : f.type.holds value = true) :
    f.validate value path = .ok result ↔ f.checkValue value path = .ok result := by
  rw [validate_ok]
  constructor
  · rintro (⟨null, _⟩ | ⟨_, coerced, converted, _, _, checked⟩)
    · exact absurd null present
    · obtain rfl := Except.ok.inj (same.symm.trans converted)
      exact checked
  · intro checked
    exact .inr ⟨present, value, same, holds, fun some_left => absurd free some_left, checked⟩

theorem validate_bool (truth : f.type = .bool) (free : f.enum = []) (least : f.minVal = none) (most : f.maxVal = none)
    {b : Bool} {result : Json} {path : Str} : f.validate (.bool b) path = .ok result ↔ result = .bool b := by
  have same : f.coerce (.bool b) path = .ok (.bool b) := by
    simp only [coerce, truth]
    rfl
  rw [validate_free free (by simp) same (by rw [truth]; rfl)]
  simp only [checkValue, checkRange, least, most, bind, Except.bind, pure, Except.pure, Except.ok.injEq, eq_comm]

theorem validate_float (number : f.type = .float) (free : f.enum = []) {x : PyFloat} {result : Json}
    {path : Str} : f.validate (.float x) path = .ok result ↔
      f.checkRange (.float x) path = .ok () ∧ result = .float x := by
  have same : f.coerce (.float x) path = .ok (.float x) := by
    simp only [coerce, number]
    rfl
  rw [validate_free free (by simp) same (by rw [number]; rfl)]
  simp only [checkValue, bind, validated_bind, pure, Except.pure, Except.ok.injEq]
  constructor
  · rintro ⟨_, passed, rfl⟩
    exact ⟨passed, rfl⟩
  · rintro ⟨passed, rfl⟩
    exact ⟨(), passed, rfl⟩

theorem validate_bools (items : f.type = .list) (free : f.enum = []) {g : Field}
    (each : f.item = some g.validate) (truth : g.type = .bool) (any : g.enum = []) (least : g.minVal = none)
    (most : g.maxVal = none) {bools : List Bool} {result : Json} {path : Str} : f.validate (.arr (bools.map Json.bool)) path = .ok result ↔
      f.checkSize (bools.map Json.bool) path = .ok () ∧ result = .arr (bools.map Json.bool) := by
  have inner : ((bools.map Json.bool).zipIdx.mapM (fun entry =>
      g.validate entry.1 (path ++ Str.ofString "[" ++ natText entry.2 ++ Str.ofString "]"))) =
      .ok (bools.map Json.bool) := by
    rw [mapM_items, List.forall₂_iff_get]
    refine ⟨by simp, fun i left right => ?_⟩
    simp only [List.get_eq_getElem, List.getElem_zipIdx, List.getElem_map, validate_bool truth any least most]
  have same : f.coerce (.arr (bools.map Json.bool)) path = .ok (.arr (bools.map Json.bool)) := by
    simp only [coerce, items]
    rfl
  rw [validate_free free (by simp) same (by rw [items]; rfl)]
  simp only [checkValue, each, bind, validated_bind, inner, pure, Except.pure, Except.ok.injEq,
    exists_eq_left']
  constructor
  · rintro ⟨_, passed, rfl⟩
    exact ⟨passed, rfl⟩
  · rintro ⟨passed, rfl⟩
    exact ⟨(), passed, rfl⟩

end Field

theorem Pattern.line_accepts {source head body : Str} {inner : CodePoint → Bool} {least : Nat} {most : Option Nat}
    (inside : body.all inner) (line : inner (ch '\n') = false) (low : least ≤ body.length)
    (high : most.all (fun most => body.length ≤ most)) :
    (Pattern.line source head inner least most).accepts (head ++ body) = true := by
  have last : body.getLast? ≠ some (ch '\n') := by
    intro ended
    have member := List.all_eq_true.mp inside _ (List.mem_of_getLast? ended)
    rw [line] at member
    cases member
  simp [Pattern.line, last, inside, low, high]

theorem isIdChar_of_isLowerHex {c : CodePoint} (hex : isLowerHex c) : isIdChar c := by
  simp only [isLowerHex, isIdChar, Bool.or_eq_true, Bool.and_eq_true, decide_eq_true_eq] at hex ⊢
  rcases hex with digit | letter
  · simp [digit]
  · left; left; left; right
    omega

theorem nodeId_accepted (crypto : Crypto) (pub : Bytes) :
    nodeIdPattern.accepts (canonicalNodeId crypto pub) = true := by
  have size : (H_hex crypto pub).length = 64 := by rw [H_hex, length_toHex, crypto.length_H]
  have inside : (H_hex crypto pub).all isIdChar = true := by
    rw [List.all_eq_true]
    exact fun c member => isIdChar_of_isLowerHex (List.all_eq_true.mp (isLowerHex_toHex _) c member)
  exact Pattern.line_accepts inside (by decide) (by rw [size]; decide) (by rw [size]; decide)

theorem hash_accepted (crypto : Crypto) (data : Bytes) :
    hex64Pattern.accepts (H_hex crypto data) = true := by
  have size : (H_hex crypto data).length = 64 := by rw [H_hex, length_toHex, crypto.length_H]
  have accepted := @Pattern.line_accepts "^[0-9a-f]\x7b64\x7d$" [] _ _ 64 (some 64) (isLowerHex_toHex (crypto.H data))
    (by decide) (by rw [← H_hex, size]) (by rw [← H_hex, size]; decide)
  exact accepted

theorem sig_accepted {sig : Bytes} (size : sig.length = 64) :
    hexAnyPattern.accepts (toHex sig) = true ∧ (toHex sig).length = 128 := by
  have length : (toHex sig).length = 128 := by rw [length_toHex, size]
  have accepted := @Pattern.line_accepts "^[0-9a-f]+$" [] _ _ 1 none (isLowerHex_toHex sig) (by decide)
    (by rw [length]; decide) rfl
  exact ⟨accepted, length⟩

structure Binding where
  nodeId : Str
  contextHash : Str
  nonce : Str

def signedEntries (verdict : Verdict) (binding : Binding) : Dict Str Json :=
  [("ok", .bool verdict.ok), ("reachable", .arr (verdict.reachable.map Json.bool)),
    ("min_margin", .float verdict.minMargin), ("verifier_fp", .str verdict.verifierFp),
    ("determinism", .str verdict.determinism), ("verifier_node_id", .str binding.nodeId),
    ("context_hash", .str binding.contextHash), ("nonce", .str binding.nonce)]

def envelopeEntries (verdict : Verdict) (binding : Binding) (sig : Str) : Dict Str Json :=
  ([("ok", .bool verdict.ok), ("reachable", .arr (verdict.reachable.map Json.bool)),
    ("min_margin", .float verdict.minMargin), ("verifier_fp", .str verdict.verifierFp),
    ("determinism", .str verdict.determinism)] : Dict Str Json) ++ (noteField verdict ++
  ([("verifier_node_id", .str binding.nodeId), ("context_hash", .str binding.contextHash),
    ("nonce", .str binding.nonce), ("sig", .str sig)] : Dict Str Json))

/-- A dict with exactly the values of a sealed verdict. -/
structure Carries (entries : Dict Str Json) (verdict : Verdict) (binding : Binding) : Prop where
  signed : ∀ entry ∈ signedEntries verdict binding, Dict.get? entries entry.1 = some entry.2
  note : Dict.get? entries "note" = if verdict.note ≠ [] then some (.str (verdict.note.take 512)) else none
  known : ∀ key ∈ Dict.keys entries, key ∈ verdictEnvelope.fields.map Prod.fst

variable {verdict : Verdict} {binding : Binding} {entries : Dict Str Json} {sig : Str}

theorem signedBody_ok
    (signed : ∀ entry ∈ signedEntries verdict binding, Dict.get? entries entry.1 = some entry.2) :
    signedBody (.obj entries) = .ok (.obj (signedEntries verdict binding)) := by
  have fields : signedFields.mapM (fun field => (do
      let value ← subscript (.obj entries) field
      return (field, value) : Py (Str × Json))) = .ok (signedEntries verdict binding) := by
    rw [Py.mapM_ok]
    have shape : signedFields = (signedEntries verdict binding).map Prod.fst := rfl
    rw [shape, List.forall₂_map_left_iff, List.forall₂_same]
    intro entry member
    rw [subscript_obj.mpr (signed entry member)]
    rfl
  simp only [signedBody, bind, Py.bind_ok, pure, Except.pure]
  exact ⟨_, fields, rfl⟩

/-- What the schema asks of a verdict's own values. -/
structure WellFormed (verdict : Verdict) : Prop where
  reachable : verdict.reachable.length ≤ maxList
  low : verdict.minMargin.less (.finite (.ofDigits false 0 0)) = false
  high : PyFloat.less (.finite (.ofDigits false 1 0)) verdict.minMargin = false
  named : 1 ≤ verdict.verifierFp.length
  short : verdict.verifierFp.length ≤ maxIdLen
  level : verdict.determinism ∈ determinismLevels

structure Bound (binding : Binding) (sig : Str) : Prop where
  nodeId : nodeIdPattern.accepts binding.nodeId = true
  contextHash : hex64Pattern.accepts binding.contextHash = true
  least : 8 ≤ binding.nonce.length
  most : binding.nonce.length ≤ maxIdLen
  length : sig.length = 128
  hex : hexAnyPattern.accepts sig = true

theorem collect_nil (p : Str) : Schema.collect entries p [] = .ok [] := rfl

theorem collect_kept {name p : Str} {f : Field} {value : Json} {fields : List (Str × Field)}
    {out : Dict Str Json} {condition : Prop} (found : Dict.get? entries name = some value)
    (valid : ∀ path result, f.validate value path = .ok result ↔ condition ∧ result = value) :
    Schema.collect entries p ((name, f) :: fields) = .ok out ↔ condition ∧
      ∃ later, Schema.collect entries p fields = .ok later ∧ out = (name, value) :: later := by
  rw [Schema.collect_some found]
  constructor
  · rintro ⟨checked, later, made, others, rfl⟩
    obtain ⟨met, rfl⟩ := (valid _ _).mp made
    exact ⟨met, later, others, rfl⟩
  · rintro ⟨met, later, others, rfl⟩
    exact ⟨value, later, (valid _ _).mpr ⟨met, rfl⟩, others, rfl⟩

theorem validate_kept {f : Field} (text : f.type = .str) (strict : f.nullable = false) (s : Str)
    (path : Str) (result : Json) : f.validate (.str s) path = .ok result ↔
      ((f.enum ≠ [] → f.enum.any (fun allowed => Json.pyEq (.str s) allowed)) ∧ f.checkText s path = .ok ()) ∧
        result = .str s := by
  rw [Field.validate_str text strict]
  constructor
  · rintro ⟨_, ⟨⟩, rfl, listed, passed⟩
    exact ⟨⟨listed, passed⟩, rfl⟩
  · rintro ⟨⟨listed, passed⟩, rfl⟩
    exact ⟨s, rfl, rfl, listed, passed⟩

theorem collect_note (carries : Carries entries verdict binding) {p : Str} {fields : List (Str × Field)}
    {out : Dict Str Json} : Schema.collect entries p (("note",
      { type := .str, required := false, maxLen := some maxReasonLen }) :: fields) = .ok out ↔
      ∃ later, Schema.collect entries p fields = .ok later ∧ out = noteField verdict ++ later := by
  by_cases noted : verdict.note = []
  · have absent : Dict.get? entries "note" = none := by rw [carries.note, if_neg (not_not.mpr noted)]
    rw [Schema.collect_none absent rfl, noteField, if_neg (not_not.mpr noted)]
    simp
  · have found : Dict.get? entries "note" = some (.str (verdict.note.take 512)) := by
      rw [carries.note, if_pos noted]
    have valid : ∀ path result, Field.validate
        { type := .str, required := false, maxLen := some maxReasonLen }
          (.str (verdict.note.take 512)) path = .ok result ↔
          True ∧ result = .str (verdict.note.take 512) := by
      intro path result
      rw [validate_kept rfl rfl, Field.checkText_ok]
      simp [maxReasonLen]
    rw [collect_kept found valid, noteField, if_pos noted]
    simp

theorem collect_envelope (carries : Carries entries verdict binding)
    (signed : Dict.get? entries "sig" = some (.str sig)) (bound : Bound binding sig) {p : Str}
    {out : Dict Str Json} : Schema.collect entries p verdictEnvelope.fields = .ok out ↔
      WellFormed verdict ∧ out = envelopeEntries verdict binding sig := by
  have found := carries.signed
  simp only [signedEntries, List.forall_mem_cons, List.not_mem_nil, false_implies, implies_true,
    and_true] at found
  obtain ⟨ok, reachable, margin, named, level, node, context, nonce⟩ := found
  have okKept : ∀ path result, Field.validate { type := .bool } (.bool verdict.ok) path = .ok result ↔
      True ∧ result = .bool verdict.ok := by
    intro path result
    rw [Field.validate_bool rfl rfl rfl rfl, true_and]
  have reachableKept : ∀ path result, Field.validate
      { type := .list, maxLen := some maxList, item := some (Field.validate { type := .bool }) }
        (.arr (verdict.reachable.map Json.bool)) path = .ok result ↔
        verdict.reachable.length ≤ maxList ∧ result = .arr (verdict.reachable.map Json.bool) := by
    intro path result
    rw [Field.validate_bools rfl rfl rfl rfl rfl rfl rfl, Field.checkSize_ok]
    simp
  have marginKept : ∀ path result, Field.validate
      { type := .float, minVal := some (floatBound 0), maxVal := some (floatBound 1) }
        (.float verdict.minMargin) path = .ok result ↔
        (verdict.minMargin.less (.finite (.ofDigits false 0 0)) = false ∧
          PyFloat.less (.finite (.ofDigits false 1 0)) verdict.minMargin = false) ∧
          result = .float verdict.minMargin := by
    intro path result
    rw [Field.validate_float rfl rfl, Field.checkRange_ok]
    simp only [Option.mem_def, Option.some.injEq, forall_eq', floatBound, Number.toJson, numberLess]
  have namedKept : ∀ path result, Field.validate
      { type := .str, minLen := some 1, maxLen := some maxIdLen } (.str verdict.verifierFp) path = .ok result ↔
        (1 ≤ verdict.verifierFp.length ∧ verdict.verifierFp.length ≤ maxIdLen) ∧
          result = .str verdict.verifierFp := by
    intro path result
    rw [validate_kept rfl rfl, Field.checkText_ok]
    simp
  have levelKept : ∀ path result, Field.validate { type := .str, enum := determinismLevels.map .str }
      (.str verdict.determinism) path = .ok result ↔
        verdict.determinism ∈ determinismLevels ∧ result = .str verdict.determinism := by
    intro path result
    have levels : determinismLevels.map Json.str ≠ [] := by decide
    have listed : ((determinismLevels.map Json.str).any (fun allowed => Json.pyEq (.str verdict.determinism) allowed)) =
        true ↔ verdict.determinism ∈ determinismLevels := by
      simp only [List.any_map, List.any_eq_true, Function.comp, decide_eq_true_eq, Json.pyEq_str, Json.str.injEq,
        exists_eq_right']
    rw [validate_kept rfl rfl, Field.checkText_ok]
    constructor
    · intro ⟨⟨member, _⟩, same⟩
      exact ⟨listed.mp (member levels), same⟩
    · intro ⟨member, same⟩
      exact ⟨⟨fun _ => listed.mpr member, by simp⟩, same⟩
  have nodeKept : ∀ path result, Field.validate
      { type := .str, required := false, pattern := some nodeIdPattern } (.str binding.nodeId) path =
        .ok result ↔ True ∧ result = .str binding.nodeId := by
    intro path result
    rw [validate_kept rfl rfl, Field.checkText_ok]
    simp [bound.nodeId]
  have contextKept : ∀ path result, Field.validate
      { type := .str, required := false, pattern := some hex64Pattern } (.str binding.contextHash) path =
        .ok result ↔ True ∧ result = .str binding.contextHash := by
    intro path result
    rw [validate_kept rfl rfl, Field.checkText_ok]
    simp [bound.contextHash]
  have nonceKept : ∀ path result, Field.validate
      { type := .str, required := false, minLen := some 8, maxLen := some maxIdLen }
        (.str binding.nonce) path = .ok result ↔ True ∧ result = .str binding.nonce := by
    intro path result
    rw [validate_kept rfl rfl, Field.checkText_ok]
    simp [bound.least, bound.most]
  have sigKept : ∀ path result, Field.validate
      { type := .str, required := false, pattern := some hexAnyPattern, minLen := some 128,
        maxLen := some 128 } (.str sig) path = .ok result ↔ True ∧ result = .str sig := by
    intro path result
    rw [validate_kept rfl rfl, Field.checkText_ok]
    simp [bound.length, bound.hex]
  simp only [verdictEnvelope, collect_kept ok okKept, collect_kept reachable reachableKept,
    collect_kept margin marginKept, collect_kept named namedKept, collect_kept level levelKept,
    collect_note carries, collect_kept node nodeKept, collect_kept context contextKept,
    collect_kept nonce nonceKept, collect_kept signed sigKept, collect_nil, Except.ok.injEq, true_and]
  constructor
  · rintro ⟨_, ⟨short, _, ⟨range, _, ⟨sized, _, ⟨listed, _, ⟨_, ⟨_, ⟨_, ⟨_, ⟨_, rfl, rfl⟩, rfl⟩, rfl⟩,
      rfl⟩, rfl⟩, rfl⟩, rfl⟩, rfl⟩, rfl⟩, rfl⟩
    exact ⟨⟨short, range.1, range.2, sized.1, sized.2, listed⟩, rfl⟩
  · rintro ⟨formed, rfl⟩
    exact ⟨_, ⟨formed.reachable, _, ⟨⟨formed.low, formed.high⟩, _, ⟨⟨formed.named, formed.short⟩, _,
      ⟨formed.level, _, ⟨_, ⟨_, ⟨_, ⟨_, ⟨_, rfl, rfl⟩, rfl⟩, rfl⟩, rfl⟩, rfl⟩, rfl⟩, rfl⟩, rfl⟩, rfl⟩,
      rfl⟩

theorem get?_signedEntries {entry : Str × Json} (member : entry ∈ signedEntries verdict binding) :
    Dict.get? (signedEntries verdict binding) entry.1 = some entry.2 := by
  have keys : (Dict.keys (signedEntries verdict binding)).Nodup := by
    have same : Dict.keys (signedEntries verdict binding) = signedFields := rfl
    rw [same]
    decide
  exact Dict.get?_of_mem keys member

theorem carries_of_members (unique : (Dict.keys entries).Nodup)
    (signed : ∀ entry ∈ signedEntries verdict binding, entry ∈ entries)
    (note : ∀ entry ∈ noteField verdict, entry ∈ entries)
    (bare : verdict.note = [] → Str.ofString "note" ∉ Dict.keys entries)
    (known : ∀ key ∈ Dict.keys entries, key ∈ verdictEnvelope.fields.map Prod.fst) :
    Carries entries verdict binding where
  signed := fun entry member => Dict.get?_of_mem unique (signed entry member)
  note := by
    by_cases noted : verdict.note = []
    · rw [if_neg (not_not.mpr noted)]
      cases found : Dict.get? entries "note" with
      | none => rfl
      | some value => exact absurd (Dict.mem_keys.mpr (by rw [found]; rfl)) (bare noted)
    · rw [if_pos noted]
      exact Dict.get?_of_mem unique (note _ (by simp [noteField, noted]))
  known := known

theorem keys_noteField (verdict : Verdict) :
    Dict.keys (noteField verdict) = [] ∨ Dict.keys (noteField verdict) = ["note"] := by
  unfold noteField
  split
  · exact .inr rfl
  · exact .inl rfl

/-- The body that is validated when a verdict is sealed. -/
def sealedBody (verdict : Verdict) (binding : Binding) (sig : Str) : Dict Str Json :=
  signedEntries verdict binding ++ noteField verdict ++ ([("sig", .str sig)] : Dict Str Json)

theorem carries_body (verdict : Verdict) (binding : Binding) (sig : Str) :
    Carries (sealedBody verdict binding sig) verdict binding := by
  have keys : Dict.keys (sealedBody verdict binding sig) =
      signedFields ++ Dict.keys (noteField verdict) ++ [Str.ofString "sig"] := by
    simp only [sealedBody, Dict.keys, List.map_append]
    rfl
  refine carries_of_members ?_ (fun entry member => ?_) (fun entry member => ?_) (fun bare => ?_) ?_
  · rw [keys]
    rcases keys_noteField verdict with none_left | some_left
    · rw [none_left]; decide
    · rw [some_left]; decide
  · exact List.mem_append_left _ (List.mem_append_left _ member)
  · exact List.mem_append_left _ (List.mem_append_right _ member)
  · have none_left : Dict.keys (noteField verdict) = [] := by simp [noteField, bare, Dict.keys]
    rw [keys, none_left]
    decide
  · rw [keys]
    rcases keys_noteField verdict with none_left | some_left
    · rw [none_left]; decide
    · rw [some_left]; decide

theorem carries_envelope (verdict : Verdict) (binding : Binding) (sig : Str) :
    Carries (envelopeEntries verdict binding sig) verdict binding := by
  have keys : Dict.keys (envelopeEntries verdict binding sig) =
      signedFields.take 5 ++ (Dict.keys (noteField verdict) ++ boundFields) := by
    simp only [envelopeEntries, Dict.keys, List.map_append]
    rfl
  refine carries_of_members ?_ (fun entry member => ?_) (fun entry member => ?_) (fun bare => ?_) ?_
  · rw [keys]
    rcases keys_noteField verdict with none_left | some_left
    · rw [none_left]; decide
    · rw [some_left]; decide
  · simp only [signedEntries, List.mem_cons, List.not_mem_nil, or_false] at member
    simp only [envelopeEntries, List.mem_append, List.mem_cons, List.not_mem_nil, or_false]
    rcases member with ok | reachable | margin | named | level | node | context | nonce
    · exact .inl (.inl ok)
    · exact .inl (.inr (.inl reachable))
    · exact .inl (.inr (.inr (.inl margin)))
    · exact .inl (.inr (.inr (.inr (.inl named))))
    · exact .inl (.inr (.inr (.inr (.inr level))))
    · exact .inr (.inr (.inl node))
    · exact .inr (.inr (.inr (.inl context)))
    · exact .inr (.inr (.inr (.inr (.inl nonce))))
  · exact List.mem_append_right _ (List.mem_append_left _ member)
  · have none_left : Dict.keys (noteField verdict) = [] := by simp [noteField, bare, Dict.keys]
    rw [keys, none_left]
    decide
  · rw [keys]
    rcases keys_noteField verdict with none_left | some_left
    · rw [none_left]; decide
    · rw [some_left]; decide

theorem get?_sig (front : Dict Str Json) (absent : Str.ofString "sig" ∉ Dict.keys front) (sig : Str) :
    Dict.get? (front ++ ([("sig", .str sig)] : Dict Str Json)) "sig" = some (.str sig) := by
  rw [Dict.get?_append]
  cases found : Dict.get? front "sig" with
  | none => rfl
  | some value => exact absurd (Dict.mem_keys.mpr (by rw [found]; rfl)) absent

theorem sig_body (verdict : Verdict) (binding : Binding) (sig : Str) :
    Dict.get? (sealedBody verdict binding sig) "sig" = some (.str sig) := by
  refine get?_sig _ ?_ sig
  have keys : Dict.keys (signedEntries verdict binding ++ noteField verdict) =
      signedFields ++ Dict.keys (noteField verdict) := by
    simp only [Dict.keys, List.map_append]
    rfl
  rw [keys]
  rcases keys_noteField verdict with none_left | some_left
  · rw [none_left]; decide
  · rw [some_left]; decide

theorem sig_envelope (verdict : Verdict) (binding : Binding) (sig : Str) :
    Dict.get? (envelopeEntries verdict binding sig) "sig" = some (.str sig) := by
  have shape : envelopeEntries verdict binding sig =
      (([("ok", .bool verdict.ok), ("reachable", .arr (verdict.reachable.map Json.bool)),
        ("min_margin", .float verdict.minMargin), ("verifier_fp", .str verdict.verifierFp),
        ("determinism", .str verdict.determinism)] : Dict Str Json) ++ (noteField verdict ++
      ([("verifier_node_id", .str binding.nodeId), ("context_hash", .str binding.contextHash),
        ("nonce", .str binding.nonce)] : Dict Str Json))) ++ ([("sig", .str sig)] : Dict Str Json) := by
    simp [envelopeEntries]
  rw [shape]
  refine get?_sig _ ?_ sig
  simp only [Dict.keys, List.map_append]
  rcases keys_noteField verdict with none_left | some_left
  · rw [show (noteField verdict).map Prod.fst = [] from none_left]; simp only [List.map_cons, List.map_nil]; decide
  · rw [show (noteField verdict).map Prod.fst = ["note"] from some_left]
    simp only [List.map_cons, List.map_nil]
    decide

/-- Signatures of 64 bytes, as Ed25519 has them. -/
def Crypto.Sized (crypto : Crypto) : Prop := ∀ seed msg, seed.length = 32 →
  (crypto.sign seed msg).length = 64

section RoundTrip

variable {request raw : Dict Str Json} {sk : SigningKey} {hash nonce : Str} {env : Json}

def bindingOf (crypto : Crypto) (sk : SigningKey) (hash nonce : Str) : Binding where
  nodeId := canonicalNodeId crypto (sk.publicKey crypto)
  contextHash := hash
  nonce := nonce

theorem bound_of_signed (sized : crypto.Sized) {context data : Bytes} (least : 8 ≤ nonce.length)
    (most : nonce.length ≤ maxIdLen) :
    Bound (bindingOf crypto sk (H_hex crypto context) nonce) (toHex (sk.sign crypto data)) where
  nodeId := nodeId_accepted crypto _
  contextHash := hash_accepted crypto context
  least := least
  most := most
  length := (sig_accepted (sized _ _ sk.length_seed)).2
  hex := (sig_accepted (sized _ _ sk.length_seed)).1

theorem contextHash_hash (hashed : scoringContextHash crypto (.obj request) = .ok hash) :
    ∃ context, hash = H_hex crypto context := by
  simp only [scoringContextHash, bind, Py.bind_ok] at hashed
  obtain ⟨_, _, data, _, made⟩ := hashed
  exact ⟨data, (Except.ok.inj made).symm⟩

/-- The answer of `sealVerdict` to its own validation. -/
def rethrown (validated : Validated Json) : Py Json :=
  match validated with
  | .ok envelope => .ok envelope
  | .error e => .error e.err

theorem sealVerdict_ok (sized : crypto.Sized) (hashed : scoringContextHash crypto (.obj request) = .ok hash)
    (read : Dict.get? request "nonce" = some (.str nonce)) (least : 8 ≤ nonce.length)
    (most : nonce.length ≤ maxIdLen) :
    sealVerdict crypto verdict (.obj request) sk = .ok env ↔ ∃ data,
      canonical (.obj (signedEntries verdict (bindingOf crypto sk hash nonce))) = .ok data ∧
      WellFormed verdict ∧ env = .obj (envelopeEntries verdict (bindingOf crypto sk hash nonce)
        (toHex (sk.sign crypto data))) := by
  obtain ⟨context, rfl⟩ := contextHash_hash hashed
  have body := @signedBody_ok verdict (bindingOf crypto sk (H_hex crypto context) nonce)
    (signedEntries verdict (bindingOf crypto sk (H_hex crypto context) nonce) ++ noteField verdict)
    (fun entry member => by rw [Dict.get?_append, get?_signedEntries member]; rfl)
  have unfolded : sealVerdict crypto verdict (.obj request) sk =
      (signedBody (.obj (signedEntries verdict (bindingOf crypto sk (H_hex crypto context) nonce) ++
        noteField verdict))).bind (fun signed => (canonical signed).bind (fun data =>
          rethrown (verdictEnvelope.validate (.obj (sealedBody verdict (bindingOf crypto sk
            (H_hex crypto context) nonce) (toHex (sk.sign crypto data)))) "VerdictEnvelope"))) := by
    simp only [sealVerdict, hashed, subscript_obj.mpr read, bind, Except.bind]
    rfl
  rw [unfolded, body, Py.bind_ok]
  simp only [Except.ok.injEq, exists_eq_left', Py.bind_ok]
  refine exists_congr (fun data => and_congr_right (fun _ => ?_))
  have bound := @bound_of_signed crypto sk nonce sized context data least most
  have carries := carries_body verdict (bindingOf crypto sk (H_hex crypto context) nonce)
    (toHex (sk.sign crypto data))
  have collected (out : Dict Str Json) := @collect_envelope verdict _ _ _ carries (sig_body ..) bound
    (if Str.ofString "VerdictEnvelope" ≠ [] then Str.ofString "VerdictEnvelope" else verdictEnvelope.name)
    out
  constructor
  · intro made
    cases validated : verdictEnvelope.validate (.obj (sealedBody verdict (bindingOf crypto sk
        (H_hex crypto context) nonce) (toHex (sk.sign crypto data)))) "VerdictEnvelope" with
    | error e =>
      rw [validated] at made
      cases made
    | ok envelope =>
      rw [validated] at made
      obtain rfl := Except.ok.inj made
      obtain ⟨_, out, ⟨⟩, rfl, _, made⟩ := (Schema.validate_ok rfl).mp validated
      obtain ⟨formed, rfl⟩ := (collected out).mp made
      exact ⟨formed, rfl⟩
  · rintro ⟨formed, rfl⟩
    rw [(Schema.validate_ok rfl).mpr ⟨_, _, rfl, rfl, carries.known, (collected _).mpr ⟨formed, rfl⟩⟩]
    rfl

theorem checkBound_ok {env : Json} {fields : List Str}
    (present : ∀ field ∈ fields, ∃ value, dotGet env field = .ok value ∧ truthy value = true) :
    checkBound env fields = .ok () := by
  induction fields with
  | nil => rfl
  | cons field rest ih =>
    obtain ⟨value, read, held⟩ := present field List.mem_cons_self
    simp only [checkBound, read, held, bind, Except.bind, Bool.not_true, Bool.false_eq_true, if_false]
    exact ih (fun later member => present later (List.mem_cons_of_mem _ member))

theorem openVerdict_sealed (lawful : crypto.Lawful) (sized : crypto.Sized)
    (hashed : scoringContextHash crypto (.obj raw) = .ok hash)
    (read : Dict.get? raw "nonce" = some (.str nonce)) (least : 8 ≤ nonce.length)
    (most : nonce.length ≤ maxIdLen) (formed : WellFormed verdict) {data : Bytes}
    (signed : canonical (.obj (signedEntries verdict (bindingOf crypto sk hash nonce))) = .ok data)
    {seen : NonceRegistry}
    (unused : (.str (canonicalNodeId crypto (sk.publicKey crypto)), .str nonce) ∉ seen) :
    openVerdict crypto (.obj (envelopeEntries verdict (bindingOf crypto sk hash nonce)
      (toHex (sk.sign crypto data)))) (.obj raw) (.str (toHex (sk.publicKey crypto))) (some seen) =
      .ok (.obj (envelopeEntries verdict (bindingOf crypto sk hash nonce) (toHex (sk.sign crypto data))),
        some (seen ++ [(.str (canonicalNodeId crypto (sk.publicKey crypto)), .str nonce)])) := by
  obtain ⟨context, rfl⟩ := contextHash_hash hashed
  have bound := @bound_of_signed crypto sk nonce sized context data least most
  have carries := carries_envelope verdict (bindingOf crypto sk (H_hex crypto context) nonce)
    (toHex (sk.sign crypto data))
  have sig := sig_envelope verdict (bindingOf crypto sk (H_hex crypto context) nonce)
    (toHex (sk.sign crypto data))
  have collected := (@collect_envelope verdict _ _ _ carries sig bound
    (if Str.ofString "VerdictEnvelope" ≠ [] then Str.ofString "VerdictEnvelope" else verdictEnvelope.name)
    _).mpr ⟨formed, rfl⟩
  have validated : verdictEnvelope.validate (.obj (envelopeEntries verdict (bindingOf crypto sk
      (H_hex crypto context) nonce) (toHex (sk.sign crypto data)))) "VerdictEnvelope" = .ok (.obj
      (envelopeEntries verdict (bindingOf crypto sk (H_hex crypto context) nonce)
        (toHex (sk.sign crypto data)))) :=
    (Schema.validate_ok rfl).mpr ⟨_, _, rfl, rfl, carries.known, collected⟩
  have found := carries.signed
  simp only [signedEntries, List.forall_mem_cons, List.not_mem_nil, false_implies, implies_true,
    and_true] at found
  obtain ⟨_, _, _, _, _, node, contextHash, nonceHeld⟩ := found
  have body := signedBody_ok carries.signed
  have size := bound.length
  generalize envelopeEntries verdict (bindingOf crypto sk (H_hex crypto context) nonce)
    (toHex (sk.sign crypto data)) = envelope at *
  have held (key : Str) (value : Str) (some_left : value ≠ [])
      (found : Dict.get? envelope key = some (.str value)) :
      ∃ read, dotGet (.obj envelope) key = .ok read ∧ truthy read = true := by
    refine ⟨.str value, by rw [dotGet_obj, found]; rfl, by simpa [truthy] using some_left⟩
  have present : checkBound (.obj envelope) boundFields = .ok () := by
    refine checkBound_ok (fun field member => ?_)
    simp only [boundFields, List.mem_cons, List.not_mem_nil, or_false] at member
    rcases member with rfl | rfl | rfl | rfl
    · have present : Str.ofString "node:" ≠ [] := by decide
      exact held _ _ (by simp [bindingOf, canonicalNodeId, present]) node
    · refine held _ _ ?_ contextHash
      intro empty
      have length := crypto.length_H context
      have hex := length_toHex (crypto.H context)
      rw [show toHex (crypto.H context) = [] from empty] at hex
      rw [length] at hex
      cases hex
    · refine held _ _ ?_ nonceHeld
      intro empty
      rw [show nonce = [] from empty] at least
      cases least
    · refine held _ _ ?_ sig
      intro empty
      rw [empty] at size
      cases size
  have verified : crypto.verify (sk.publicKey crypto) data (sk.sign crypto data) = true := lawful _ _
  replace node : Dict.get? envelope "verifier_node_id" =
    some (.str (canonicalNodeId crypto (sk.publicKey crypto))) := node
  replace contextHash : Dict.get? envelope "context_hash" = some (.str (H_hex crypto context)) := contextHash
  replace nonceHeld : Dict.get? envelope "nonce" = some (.str nonce) := nonceHeld
  simp only [openVerdict, validated, present, bytesFromHex_toHex, subscript_obj.mpr node,
    subscript_obj.mpr contextHash, subscript_obj.mpr nonceHeld, subscript_obj.mpr sig, body, signed,
    verified, hashed, dotGet_obj, read, NonceRegistry.use, unused, bind, Except.bind]
  simp [pure, Except.pure]

end RoundTrip

/-- Sealing over the validated request succeeds, and opening against the raw one gives
the verdict back. -/
def SealsAndOpens (crypto : Crypto) (raw validated : Json) (verdict : Verdict) (sk : SigningKey) : Prop :=
  ∃ envelope opened seen, sealVerdict crypto verdict validated sk = .ok envelope ∧
    openVerdict crypto envelope raw (.str (toHex (sk.publicKey crypto))) (some []) = .ok (opened, seen) ∧
    subscript opened "ok" = .ok (.bool verdict.ok) ∧
    subscript opened "reachable" = .ok (.arr (verdict.reachable.map Json.bool)) ∧
    subscript opened "min_margin" = .ok (.float verdict.minMargin)

/-- A margin between 0 and 1, and no lone surrogate or NaN in what is hashed and signed. -/
structure Sealable (raw : Json) (verdict : Verdict) : Prop where
  context : Expressible raw
  named : encodable verdict.verifierFp
  low : verdict.minMargin.less (.finite (.ofDigits false 0 0)) = false
  high : PyFloat.less (.finite (.ofDigits false 1 0)) verdict.minMargin = false

section Claim

variable {raw validated : Dict Str Json} {sk : SigningKey}

theorem Accepted.nonce (accepted : Accepted raw validated) : ∃ nonce : Str,
    Dict.get? raw "nonce" = some (.str nonce) ∧ Dict.get? validated "nonce" = some (.str nonce) ∧
      8 ≤ nonce.length ∧ nonce.length ≤ maxIdLen := by
  have member : (Str.ofString "nonce", ({ type := .str, minLen := some 8, maxLen := some maxIdLen } :
      Field)) ∈ inferenceRequest.fields := by
    simp [inferenceRequest]
  rcases accepted.get member with
    ⟨_, optional, _⟩ | ⟨value, checked, found, valid, became⟩
  · cases optional
  · obtain ⟨nonce, rfl, rfl, _, passed⟩ := (Field.validate_str rfl rfl).mp valid
    obtain ⟨least, most, _⟩ := Field.checkText_ok.mp passed
    exact ⟨nonce, found, became, least _ rfl, most _ rfl⟩

theorem Accepted.tokens (accepted : Accepted raw validated) {tokens : List Json}
    (scored : Dict.get? raw "tokens" = some (.arr tokens)) : tokens.length ≤ maxList := by
  have member : (Str.ofString "tokens", ({
      type := .list, required := false, maxLen := some maxList,
      item := some (Field.validate { type := .str, maxLen := some 256 }) } : Field)) ∈
        inferenceRequest.fields := by
    simp [inferenceRequest]
  rcases accepted.get member with
    ⟨absent, _, _⟩ | ⟨value, checked, found, valid, _⟩
  · rw [absent] at scored
    cases scored
  · obtain rfl := Option.some.inj (scored.symm.trans found)
    rw [Field.validate_free rfl (by simp) rfl rfl] at valid
    simp only [Field.checkValue, bind, validated_bind] at valid
    obtain ⟨_, passed, _⟩ := valid
    exact (Field.checkSize_ok.mp passed).2 _ rfl

theorem writable_signed {verdict : Verdict} {binding : Binding} {margin : Decimal}
    (finite : verdict.minMargin = .finite margin) (level : verdict.determinism ∈ determinismLevels)
    (nodeId : encodable binding.nodeId) (hash : encodable binding.contextHash)
    (nonce : encodable binding.nonce) :
    writable (.obj (signedEntries verdict binding)) ↔ encodable verdict.verifierFp := by
  have bools : writable (.arr (verdict.reachable.map Json.bool)) := by
    rw [writable_arr, List.forall_mem_map]
    exact fun _ _ => rfl
  have levels : encodable verdict.determinism := by
    have all : ∀ s ∈ determinismLevels, encodable s := by decide
    exact all _ level
  have keys : ∀ key ∈ signedFields, encodable key := by decide
  rw [writable_obj]
  constructor
  · intro all
    exact (all ("verifier_fp", .str verdict.verifierFp) (by simp [signedEntries])).2
  · intro named entry member
    refine ⟨keys _ (List.mem_map_of_mem member), ?_⟩
    simp only [signedEntries, List.mem_cons, List.not_mem_nil, or_false] at member
    rcases member with rfl | rfl | rfl | rfl | rfl | rfl | rfl | rfl
    · rfl
    · exact bools
    · rw [finite]; rfl
    · exact named
    · exact levels
    · exact nodeId
    · exact hash
    · exact nonce

end Claim

/-- Sealing and opening give the verdict back exactly for a margin between 0 and 1 and
texts and numbers that have canonical bytes. -/
theorem seals_and_opens_iff (lawful : crypto.Lawful) (sized : crypto.Sized) (sk : SigningKey)
    {raw validated : Json} (sound : raw.valid)
    (accepted : inferenceRequest.validate raw "InferenceRequest" = .ok validated) {tokens : List Json}
    (scored : subscript raw "tokens" = .ok (.arr tokens)) {verdict : Verdict}
    (each : verdict.reachable.length = tokens.length) {margin : Decimal}
    (finite : verdict.minMargin = .finite margin) (some_name : verdict.verifierFp ≠ [])
    (short : verdict.verifierFp.length ≤ maxIdLen) (level : verdict.determinism ∈ determinismLevels) :
    SealsAndOpens crypto raw validated verdict sk ↔ Sealable raw verdict := by
  obtain ⟨raw, validated, rfl, rfl, kept⟩ := accepted_of_validate sound accepted
  obtain ⟨nonce, read, became, least, most⟩ := kept.nonce
  have tokensFit := kept.tokens (subscript_obj.mp scored)
  have named : 1 ≤ verdict.verifierFp.length := List.length_pos_iff.mpr some_name
  constructor
  · rintro ⟨envelope, opened, seen, sealed, _⟩
    have context : ∃ hash, scoringContextHash crypto (.obj validated) = .ok hash := by
      simp only [sealVerdict, bind, Py.bind_ok] at sealed
      obtain ⟨hash, hashed, _⟩ := sealed
      exact ⟨hash, hashed⟩
    obtain ⟨hash, hashed⟩ := context
    obtain ⟨data, signed, formed, rfl⟩ := (sealVerdict_ok sized hashed became least most).mp sealed
    have expressible : Expressible (.obj raw) :=
      contextHash_ok.mp ⟨hash, (contextHash_validated kept).symm.trans hashed⟩
    obtain ⟨text, rfl⟩ := contextHash_hash hashed
    have written : writable (.obj (signedEntries verdict (bindingOf crypto sk (H_hex crypto text) nonce))) :=
      (canonical_isOk _).mp (by rw [signed]; rfl)
    have plain : encodable nonce := by
      have written := expressible "nonce" (by decide) _ (subscript_obj.mpr read)
      rwa [writable] at written
    exact ⟨expressible, (writable_signed finite level (encodable_nodeId _ _) (encodable_toHex _) plain).mp
      written, formed.low, formed.high⟩
  · rintro ⟨expressible, fp, low, high⟩
    obtain ⟨hash, hashed⟩ := (@contextHash_ok crypto raw).mpr expressible
    obtain ⟨text, rfl⟩ := contextHash_hash hashed
    have plain : encodable nonce := by
      have written := expressible "nonce" (by decide) _ (subscript_obj.mpr read)
      rwa [writable] at written
    have written : writable (.obj (signedEntries verdict (bindingOf crypto sk (H_hex crypto text) nonce))) :=
      (writable_signed finite level (encodable_nodeId _ _) (encodable_toHex _) plain).mpr fp
    obtain ⟨data, signed⟩ := Py.exists_of_isOk ((canonical_isOk _).mpr written)
    have formed : WellFormed verdict :=
      ⟨by rw [each]; exact tokensFit, low, high, named, short, level⟩
    have values := carries_envelope verdict (bindingOf crypto sk (H_hex crypto text) nonce)
      (toHex (sk.sign crypto data))
    have member (entry : Str × Json) (inside : entry ∈ signedEntries verdict
        (bindingOf crypto sk (H_hex crypto text) nonce)) := subscript_obj.mpr (values.signed entry inside)
    refine ⟨_, _, _, (sealVerdict_ok sized ((contextHash_validated kept).trans hashed) became least
      most).mpr ⟨data, signed, formed, rfl⟩, openVerdict_sealed lawful sized hashed read least most formed
      signed List.not_mem_nil, ?_, ?_, ?_⟩
    · exact member ("ok", .bool verdict.ok) (by simp [signedEntries])
    · exact member ("reachable", .arr (verdict.reachable.map Json.bool)) (by simp [signedEntries])
    · exact member ("min_margin", .float verdict.minMargin) (by simp [signedEntries])

theorem Crypto.sample_sized : Crypto.sample.Sized := by
  intro seed msg size
  simp only [Crypto.sample, List.length_append, size]
  exact congrArg (32 + ·) ((List.length_map _).trans List.length_range)

/-- A scoring request of one token, with an `int` temperature. -/
def scoreRequest : Json :=
  .obj [("substrate_id", .str "sha256:base-A"), ("adapter_ids", .arr []),
    ("messages", .arr [.obj [("role", .str "user"), ("content", .str "hello")]]),
    ("sampling", .obj [("seed", .int 1), ("temperature", .int 0), ("top_p", .int 1),
      ("max_tokens", .int 64)]),
    ("request_id", .str "uuidv7:req-1"), ("nonce", .str "hex:aaaa1111"), ("tokens", .arr [.str "t3"])]

def validatedRequest : Json :=
  ((inferenceRequest.validate scoreRequest "InferenceRequest").toOption).getD .null

def sampleVerdict (negative : Bool) : Verdict where
  ok := !negative
  reachable := [!negative]
  minMargin := .finite ⟨negative, 625, -4, by decide⟩
  verifierFp := "fp-1"
  determinism := "attested"

theorem scoreRequest_accepted :
    inferenceRequest.validate scoreRequest "InferenceRequest" = .ok validatedRequest := by
  decide +kernel

theorem scoreRequest_tokens : subscript scoreRequest "tokens" = .ok (.arr [.str "t3"]) := rfl

theorem seals_and_opens_iff_sample :
    SealsAndOpens Crypto.sample scoreRequest validatedRequest (sampleVerdict false) (.sample 1) ↔
      Sealable scoreRequest (sampleVerdict false) :=
  seals_and_opens_iff Crypto.sample_lawful Crypto.sample_sized (.sample 1) (by decide)
    scoreRequest_accepted scoreRequest_tokens rfl rfl (by decide) (by decide) (by decide)

/-- A token outside the nucleus has a margin below 0, and its verdict is not sealed. -/
theorem negative_margin_not_sealed :
    inferenceRequest.validate scoreRequest "InferenceRequest" = .ok validatedRequest ∧
      ¬SealsAndOpens Crypto.sample scoreRequest validatedRequest (sampleVerdict true) (.sample 1) := by
  refine ⟨scoreRequest_accepted, ?_⟩
  rintro ⟨envelope, opened, seen, sealed, _⟩
  have refused : (sealVerdict Crypto.sample (sampleVerdict true) validatedRequest (.sample 1)).isOk =
      false := by
    decide +kernel
  rw [sealed] at refused
  cases refused

end JJDai
