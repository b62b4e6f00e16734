import JJDai.Kernel.Isolation
import JJDai.Kernel.WasmExact

/-! Which tools of a signed manifest the profile can report on, whatever stands in the directory. -/

namespace JJDai.Isolation

open PyText Canonical Toolset Release WasmPure Provenance

def Caught (e : PyErr) : Prop := e.isValueError = true ∨ e.kind = .typeError

theorem caught_toolset (code text : Str) : Caught ⟨.toolsetError code, text⟩ := .inl rfl

theorem caught_boundary (code text : Str) : Caught ⟨.pureBoundaryError code, text⟩ := .inl rfl

theorem encode_raises (s : Str) : Raises Caught (encode s) := by
  unfold encode
  split
  · exact .ok _
  · exact .error (.inl rfl)

theorem serialize_raises (j : Json) : Raises Caught (serialize j) := by
  induction j with
  | null => exact .ok _
  | bool value => cases value <;> exact .ok _
  | int n => exact .ok _
  | str s => exact .ok _
  | float x =>
    cases x with
    | finite d =>
      obtain ⟨text, made, _⟩ := es6Number_finite d
      rw [serialize, made]
      exact .ok text
    | infinity negative => exact .error (.inl rfl)
    | nan => exact .error (.inl rfl)
  | arr items ih =>
    rw [serialize, serializeItems_eq]
    refine (Raises.mapM ?_).bind fun texts _ => .ok _
    exact List.forall_mem_map.mpr ih
  | obj fields ih =>
    rw [serialize, keyed_eq]
    split
    · exact .error (.inl rfl)
    · refine (Raises.ok _).bind fun keyed same => (Raises.mapM ?_).bind fun texts _ => .ok _
      obtain rfl := Except.ok.inj same
      rw [serializeFields_eq, List.map_map]
      simp only [List.mem_insertionSort, List.forall_mem_map]
      exact fun entry member => (ih entry member).bind fun text _ => .ok _

theorem canonical_raises (j : Json) : Raises Caught (canonical j) :=
  (serialize_raises j).bind fun text _ => encode_raises text

theorem bytesFromHex_raises (value : Json) : Raises Caught (bytesFromHex value) := by
  unfold bytesFromHex
  split
  · split
    · exact .ok _
    · exact .error (.inl rfl)
  · exact .error (.inr rfl)

theorem pyInt_raises {value : Json} (sound : writable value) : Raises Caught (pyInt value) := by
  unfold pyInt
  split
  · exact .ok _
  · exact .ok _
  · exact .error (.inl rfl)
  · cases sound
  · split <;> exact .ok _
  · split
    · exact .ok _
    · exact .error (.inl rfl)
  · exact .error (.inr rfl)

theorem writable_get {fields : Dict Str Json} (sound : writable (.obj fields)) (key : Str) :
    writable ((Dict.get? fields key).getD .null) := by
  cases found : Dict.get? fields key with
  | none => rfl
  | some value => exact (writable_obj.mp sound _ (Dict.mem_of_get? found)).2

theorem checkLimitsDeclared_raises {limits : Json} (sound : writable limits) : Raises Caught (checkLimitsDeclared limits) := by
  have positive : ∀ fields field, Raises Caught (positiveLimit fields field) := by
    intro fields field
    unfold positiveLimit
    split
    · split
      · exact .ok _
      · exact .error (caught_boundary _ _)
    · exact .error (caught_boundary _ _)
  unfold checkLimitsDeclared
  split
  · rename_i fields
    refine Raises.bind ?_ fun derived _ => ?_
    · unfold deriveHost
      split
      · rename_i guest absent found
        refine (pyInt_raises ?_).bind fun bound _ => .ok _
        exact (writable_obj.mp sound _ (Dict.mem_of_get? found)).2
      · exact .ok _
    · refine (positive _ _).bind fun fuel _ => (positive _ _).bind fun guest _ => (positive _ _).bind fun hostBytes _ => ?_
      refine (positive _ _).bind fun output _ => Raises.check (fun _ => caught_boundary _ _) fun _ => ?_
      exact Raises.check (fun _ => caught_boundary _ _) fun _ => .ok _
  · exact .error (caught_boundary _ _)

theorem checkEffectClass_raises (value : Json) : Raises Caught (checkEffectClass value) := by
  unfold checkEffectClass
  split
  · exact .ok _
  · split
    · exact .error (.inl rfl)
    · split <;> exact .error (.inl rfl)

variable {tool : Str} {fields : Dict Str Json}

theorem checkToolFields_ok {names : List Str} (checked : checkToolFields tool (.obj fields) names = .ok ()) :
    ∀ field ∈ names, ∃ value, Dict.get? fields field = some value ∧ truthy value = true := by
  induction names with
  | nil => exact fun field member => absurd member List.not_mem_nil
  | cons name rest ih =>
    simp only [checkToolFields, dotGet, bind, ok_bind] at checked
    split at checked
    · split at checked
      · cases checked
      · split at checked <;> cases checked
    · rename_i present
      refine List.forall_mem_cons.mpr ⟨?_, ih checked⟩
      cases found : Dict.get? fields name with
      | none =>
        rw [found] at present
        exact absurd rfl present
      | some value =>
        rw [found] at present
        exact ⟨value, rfl, by simpa using present⟩

theorem checkToolFields_raises (names : List Str) : Raises Caught (checkToolFields tool (.obj fields) names) := by
  induction names with
  | nil => exact .ok _
  | cons name rest ih =>
    unfold checkToolFields
    refine (Raises.ok _).bind fun value _ => ?_
    split
    · refine Raises.check (fun _ => caught_toolset _ _) fun _ => Raises.check (fun _ => caught_toolset _ _) fun _ => ?_
      exact (Raises.error (caught_toolset _ _)).bind fun _ _ => ih
    · exact ih

theorem checkTool_raises {entry : Json} (sound : writable entry) : Raises Caught (checkTool tool entry) := by
  unfold checkTool
  refine Raises.check (fun _ => caught_toolset _ _) fun mapping => ?_
  cases entry with
  | obj fields =>
    refine (checkToolFields_raises _).bind fun _ checked => ?_
    have present := checkToolFields_ok checked
    obtain ⟨effect, found, _⟩ := present "effect_class" (by decide)
    obtain ⟨limits, declared, _⟩ := present "limits" (by decide)
    simp only [subscript, found, declared]
    refine (Raises.ok _).bind fun _ _ => (checkEffectClass_raises _).bind fun _ _ => ?_
    refine (Raises.ok limits).bind fun value same => ?_
    obtain rfl := Except.ok.inj same
    exact (checkLimitsDeclared_raises (writable_obj.mp sound _ (Dict.mem_of_get? declared)).2).bind fun _ _ => .ok _
  | _ => exact absurd rfl mapping

theorem checkTools_raises {tools : Dict Str Json} (sound : ∀ entry ∈ tools, writable entry.2) :
    Raises Caught (checkTools tools) := by
  induction tools with
  | nil => exact .ok _
  | cons entry rest ih =>
    refine (checkTool_raises (sound entry List.mem_cons_self)).bind fun _ _ => ?_
    exact ih fun other member => sound other (List.mem_cons_of_mem _ member)

theorem checkTools_ok {tools : Dict Str Json} (checked : checkTools tools = .ok ()) :
    ∀ entry ∈ tools, checkTool entry.1 entry.2 = .ok () := by
  induction tools with
  | nil => exact fun entry member => absurd member List.not_mem_nil
  | cons entry rest ih =>
    simp only [checkTools, bind, Py.bind_ok] at checked
    obtain ⟨_, first, others⟩ := checked
    exact List.forall_mem_cons.mpr ⟨first, ih others⟩

/-- What the node judges a manifest by: a registry whose positions are integers, and a holder of the
chain that answers with an index or refuses. -/
structure Answers (resolver : Json → Py Json) (authorization : Option (Str → Py Json)) : Prop where
  positions : ∀ keyId fields, resolver keyId = .ok (.obj fields) →
    ∀ field ∈ [("activated_at_witness_seq" : Str), "revoked_at_witness_seq"],
      writable ((Dict.get? fields field).getD .null)
  index : ∀ ask ∈ authorization, ∀ address,
    (∃ n, ask address = .ok (.int n)) ∨ ∃ e, ask address = .error e ∧ e.isValueError = true

/-- A manifest signed by the key that the registry has under the id it names. -/
def Warranted (crypto : Crypto) (resolver : Json → Py Json) (doc : Json) : Prop :=
  ∃ signer keyId key, dotGet doc "signer" = .ok signer ∧ subscript signer "key_id" = .ok keyId ∧
    resolver keyId = .ok key ∧ Signed crypto doc key

variable {crypto : Crypto} {doc key signer : Json} {resolver : Json → Py Json} {authorization : Option (Str → Py Json)}

theorem signed_writable (signed : Signed crypto doc key) {value : Json} {field : Str} (other : field ≠ "signature")
    (read : dotGet doc field = .ok value) : writable value := by
  obtain ⟨_, _, _, _, data, _, _, _, _, written, _⟩ := signed
  cases doc with
  | obj fields =>
    simp only [signingBytes, pyItems, bind, Py.bind_ok] at written
    obtain ⟨_, items, _, _, text, made, _⟩ := written
    obtain rfl := Except.ok.inj items
    have sound := (canonical_isOk _).mp (by rw [made]; rfl)
    obtain rfl := Except.ok.inj read
    cases found : Dict.get? fields field with
    | none => rfl
    | some inner =>
      refine (writable_obj.mp sound _ (List.mem_filter.mpr ⟨Dict.mem_of_get? found, ?_⟩)).2
      simpa using other
  | _ => cases read

theorem checkForm_raises {gauntletAvailable : Bool} : Raises Caught (checkForm (.obj fields) gauntletAvailable) := by
  unfold checkForm
  refine (Raises.ok _).bind fun form _ => Raises.check (fun _ => caught_toolset _ _) fun _ => ?_
  refine (Raises.ok _).bind fun sunset _ => Raises.check (fun _ => caught_toolset _ _) fun _ => ?_
  exact Raises.last fun _ => caught_toolset _ _

theorem signerOf_raises : Raises Caught (signerOf (.obj fields)) := by
  unfold signerOf
  refine (Raises.ok _).bind fun value _ => ?_
  split
  · split
    · exact .ok _
    · exact .error (caught_toolset _ _)
  · exact .error (caught_toolset _ _)

theorem signatureOf_raises : Raises Caught (Toolset.signatureOf (.obj fields)) := by
  unfold Toolset.signatureOf
  refine (Raises.ok _).bind fun value _ => ?_
  split
  · exact .ok _
  · exact .error (caught_toolset _ _)

theorem checkSignerDomain_raises : Raises Caught (checkSignerDomain (.obj fields)) := by
  unfold checkSignerDomain
  refine (Raises.ok _).bind fun domain _ => Raises.check (fun _ => caught_toolset _ _) fun _ => ?_
  refine Raises.bind ?_ fun _ _ => (Raises.ok _).bind fun keyDomain _ => ?_
  · unfold signingDomain
    refine Raises.check (fun _ => .inl rfl) fun _ => Raises.check (fun _ => .inl rfl) fun _ => ?_
    exact (encode_raises _).bind fun _ _ => .ok _
  · unfold checkDomainServes
    refine Raises.check (fun _ => .inl rfl) fun _ => Raises.bind ?_ fun wanted _ => ?_
    · unfold keyDomainFor
      split
      · exact .ok _
      · exact .error (.inl rfl)
    · exact Raises.last fun _ => .inl rfl

theorem authorizedAt_raises {raw : Bytes} (answers : Answers resolver authorization) {inner : Dict Str Json}
    (sound : writable (.obj inner)) : Raises Caught (authorizedAt crypto doc (.obj inner) (some raw) authorization) := by
  unfold authorizedAt
  split
  · exact .ok _
  · rename_i ask
    dsimp only
    split
    · exact .error (caught_toolset _ _)
    · refine (canonical_raises _).bind fun read _ => (canonical_raises _).bind fun given _ => ?_
      refine Raises.check (fun _ => caught_toolset _ _) fun _ => Raises.bind ?_ fun answer asked => ?_
      · rcases answers.index ask rfl (manifestAddress crypto raw) with ⟨n, made⟩ | ⟨e, failed, known⟩
        · rw [made]
          exact .ok _
        · rw [failed]
          exact .error (.inl known)
      · refine Raises.bind ?_ fun position _ => Raises.bind ?_ fun _ _ => .ok _
        · rcases answers.index ask rfl (manifestAddress crypto raw) with ⟨n, made⟩ | ⟨e, failed, _⟩
          · obtain rfl := Except.ok.inj (made.symm.trans asked)
            exact .ok n
          · cases failed.symm.trans asked
        · unfold checkDeclared
          refine (Raises.ok _).bind fun declared same => ?_
          obtain rfl := Except.ok.inj same
          split
          · refine (pyInt_raises (writable_get sound _)).bind fun n _ => ?_
            exact Raises.last fun _ => caught_toolset _ _
          · exact .ok _

theorem checkKeyValid_raises {keyId : Json} {authorized : Option Int} {entry : Dict Str Json}
    (positions : ∀ field ∈ [("activated_at_witness_seq" : Str), "revoked_at_witness_seq"],
      writable ((Dict.get? entry field).getD .null)) : Raises Caught (checkKeyValid keyId (.obj entry) authorized) := by
  have first := positions _ List.mem_cons_self
  have last := positions _ (List.mem_cons_of_mem _ List.mem_cons_self)
  unfold checkKeyValid
  refine (Raises.ok _).bind fun activated same => (Raises.ok _).bind fun revoked same' => ?_
  obtain rfl := Except.ok.inj same
  obtain rfl := Except.ok.inj same'
  split
  · split
    · exact .error (caught_toolset _ _)
    · refine Raises.bind ?_ fun _ _ => ?_
      · unfold checkActivated
        split
        · exact .ok _
        · refine (pyInt_raises first).bind fun n _ => ?_
          split
          · exact .error (caught_toolset _ _)
          · exact .ok _
      · unfold checkUnrevoked
        split
        · exact .ok _
        · refine (pyInt_raises last).bind fun n _ => ?_
          split
          · exact .error (caught_toolset _ _)
          · exact .ok _
  · refine (Raises.ok _).bind fun plain _ => ?_
    split
    · exact .error (caught_toolset _ _)
    · exact .ok _

theorem checkSigned_raises {sig : Str} (signed : Signed crypto doc key) : Raises Caught (checkSigned crypto doc key sig) := by
  obtain ⟨_, publicHex, _, _, data, _, published, _, _, written, _⟩ := signed
  unfold checkSigned
  refine Raises.bind ?_ fun pair _ => ?_
  · have inner : Raises Caught (decodePair sig key) := by
      unfold decodePair
      refine (bytesFromHex_raises _).bind fun raw _ => ?_
      rw [published]
      exact (Raises.ok _).bind fun value _ => (bytesFromHex_raises value).bind fun pub _ => .ok _
    unfold signatureBytes
    split
    · exact .ok _
    · rename_i e failed
      split
      · exact .error (caught_toolset _ _)
      · exact .error (inner e failed)
  · have text : toolsetSigningBytes doc = .ok data := written
    rw [text]
    exact (Raises.ok data).bind fun _ _ => Raises.last fun _ => caught_toolset _ _

theorem toolsOf_raises : Raises Caught (toolsOf (.obj fields)) := by
  unfold toolsOf
  refine (Raises.ok _).bind fun value _ => ?_
  split
  · exact .ok _
  · exact .error (caught_toolset _ _)

theorem checkSchema_obj (checked : checkSchema doc = .ok ()) : ∃ fields, doc = .obj fields := by
  unfold checkSchema at checked
  split at checked
  · exact ⟨_, rfl⟩
  · cases checked

theorem checkSchema_raises : Raises Caught (checkSchema doc) := by
  unfold checkSchema
  split
  · split
    · exact .ok _
    · exact .error (caught_toolset _ _)
  · exact .error (caught_toolset _ _)

theorem signerOf_obj (read : signerOf doc = .ok signer) : ∃ inner, signer = .obj inner := by
  simp only [signerOf, bind, Py.bind_ok] at read
  obtain ⟨value, _, read⟩ := read
  split at read
  · split at read
    · exact ⟨_, (Except.ok.inj read).symm⟩
    · cases read
  · cases read

theorem toolsOf_mem {tools : Dict Str Json} (read : toolsOf doc = .ok tools) :
    ∃ declared, dotGet doc "tools" = .ok (.obj declared) ∧ tools = Json.sortEntries declared := by
  simp only [toolsOf, bind, Py.bind_ok] at read
  obtain ⟨value, found, read⟩ := read
  split at read
  · exact ⟨_, found, (Except.ok.inj read).symm⟩
  · cases read

theorem validateManifest_raises {gauntletAvailable : Bool} {raw : Bytes} (answers : Answers resolver authorization)
    (warranted : Warranted crypto resolver doc) :
    Raises Caught (validateManifest crypto doc (some resolver) gauntletAvailable authorization (some raw)) := by
  obtain ⟨signer, keyId, key, carried, named, resolved, signed⟩ := warranted
  unfold validateManifest
  refine checkSchema_raises.bind fun _ schema => ?_
  obtain ⟨fields, rfl⟩ := checkSchema_obj schema
  refine checkForm_raises.bind fun _ _ => signerOf_raises.bind fun signer' read => ?_
  obtain rfl := Except.ok.inj ((signerOf_ok read).symm.trans carried)
  obtain ⟨inner, rfl⟩ := signerOf_obj read
  refine signatureOf_raises.bind fun sig _ => checkSignerDomain_raises.bind fun _ _ => ?_
  rw [named]
  refine (Raises.ok keyId).bind fun keyId' same => ?_
  obtain rfl := Except.ok.inj same
  have sound := signed_writable signed (by decide) carried
  have registered : ∃ entry, key = .obj entry := by
    obtain ⟨_, publicHex, _, _, _, _, published, _⟩ := signed
    cases key with
    | obj entry => exact ⟨entry, rfl⟩
    | _ => cases published
  obtain ⟨entry, rfl⟩ := registered
  refine Raises.bind ?_ fun key found => ?_
  · unfold resolveKey
    rw [resolved]
    exact (Raises.ok _).bind fun value _ => Raises.check (fun _ => caught_toolset _ _) fun _ => .ok _
  · obtain rfl := Except.ok.inj ((resolveKey_ok found).symm.trans resolved)
    refine (authorizedAt_raises answers sound).bind fun authorized _ => ?_
    refine (checkKeyValid_raises (answers.positions keyId entry resolved)).bind fun _ _ => ?_
    refine Raises.bind ?_ fun _ _ => (checkSigned_raises signed).bind fun _ _ => toolsOf_raises.bind fun tools listed => ?_
    · unfold checkRegisteredFor
      exact (Raises.ok _).bind fun domain _ => Raises.last fun _ => caught_toolset _ _
    · refine Raises.bind ?_ fun _ _ => .ok _
      obtain ⟨declared, held, rfl⟩ := toolsOf_mem listed
      have all := signed_writable signed (by decide) held
      exact checkTools_raises fun entry member => (writable_obj.mp all _ (Json.mem_sortEntries.mp member)).2

theorem validateManifest_tools {gauntletAvailable : Bool} {raw : Option Bytes} {later : Json}
    (accepted : validateManifest crypto doc (some resolver) gauntletAvailable authorization raw = .ok later) :
    later = doc ∧ ∃ declared, dotGet doc "tools" = .ok (.obj declared) ∧
      ∀ entry ∈ declared, checkTool entry.1 entry.2 = .ok () := by
  simp only [validateManifest, bind, Py.bind_ok] at accepted
  obtain ⟨_, _, _, _, _, _, _, _, _, _, _, _, _, _, _, _, _, _, _, _, _, _, tools, listed, _, checked, made⟩ := accepted
  obtain ⟨declared, held, rfl⟩ := toolsOf_mem listed
  refine ⟨(Except.ok.inj made).symm, declared, held, fun entry member => ?_⟩
  exact checkTools_ok checked entry (Json.mem_sortEntries.mpr member)

variable {profile : Profile} {host : Host} {raw : Bytes}

/-- The manifest of a host: it is signed, and the node can judge it. -/
structure Manifested (crypto : Crypto) (profile : Profile) (host : Host) (resolver : Json → Py Json) (raw : Bytes)
    (doc : Json) : Prop where
  file : host.manifest = .ok raw
  parsed : (decodeUtf8 raw).bind Json.loads = some doc
  registry : profile.resolver = some resolver
  answers : Answers resolver profile.authorization
  warranted : Warranted crypto resolver doc

/-- Tools that have passed the checks of the manifest. -/
def Checked (tools : Dict Str Json) : Prop :=
  ∀ tool entry, Dict.get? tools tool = some entry → checkTool tool entry = .ok ()

theorem loadToolset_returns (manifested : Manifested crypto profile host resolver raw doc) :
    ∃ error tools, loadToolset crypto profile host = .ok (error, tools) ∧ Checked tools := by
  obtain ⟨file, parsed, registry, answers, warranted⟩ := manifested
  have nothing : Checked [] := fun tool entry found => nomatch found
  unfold loadToolset
  simp only [loadVerifiedManifest, file, parsed, registry]
  cases judged : validateManifest crypto doc (some resolver) profile.gauntletAvailable profile.authorization (some raw) with
  | ok later =>
    obtain ⟨rfl, declared, held, each⟩ := validateManifest_tools judged
    cases later with
    | obj fields =>
      have found : Dict.get? fields "tools" = some (.obj declared) := by
        have read := Except.ok.inj held
        cases looked : Dict.get? fields "tools" with
        | none =>
          rw [looked] at read
          cases read
        | some value =>
          rw [looked] at read
          exact congrArg some read
      refine ⟨[], declared, ?_, fun tool entry among => each _ (Dict.mem_of_get? among)⟩
      simp only [subscript, found, bind, ok_bind]
      rfl
    | _ => cases held
  | error e =>
    have known : e.isValueError = true ∨ e.kind = .typeError := validateManifest_raises answers warranted e judged
    dsimp only
    split
    · exact ⟨_, [], rfl, nothing⟩
    · rw [if_pos known]
      exact ⟨_, [], rfl, nothing⟩

theorem toolset_of_load {error : Str} {tools : Dict Str Json} (loaded : loadToolset crypto profile host = .ok (error, tools)) :
    toolset crypto profile host = .ok tools := by
  simp only [toolset, loaded, bind, ok_bind]
  rfl

/-- A tool whose module and pin the profile can look at: the module is a path, and where it stands in
the toolset directory the pin is a string and the module can be read. -/
def Fits (profile : Profile) (host : Host) (entry : Json) : Prop :=
  ∃ fields path module_, entry = .obj fields ∧ Dict.get? fields "module" = some (.str path) ∧
    host.resolve (joinPath profile.toolsDir path) = .ok module_ ∧
    ((profile.toolsDir ++ "/").isPrefixOf module_ = true → host.present module_ = true →
      (∃ pin, Dict.get? fields "sha256" = some (.str pin)) ∧ ∃ data, host.read module_ = .ok data)

theorem checkTool_ok {entry : Json} (checked : checkTool tool entry = .ok ()) :
    ∃ fields, entry = .obj fields ∧
      (∀ field ∈ toolFields, ∃ value, Dict.get? fields field = some value ∧ truthy value = true) ∧
      Dict.get? fields "effect_class" = some (.str "pure") ∧
      ∃ declared limits, Dict.get? fields "limits" = some declared ∧ checkLimitsDeclared declared = .ok limits := by
  obtain ⟨mapping, checked⟩ := Py.unless_ok.mp checked
  cases entry with
  | obj fields =>
    simp only [bind, Py.bind_ok] at checked
    obtain ⟨_, listed, effect, read, _, pure_, declared, stated, limits, bounded, _⟩ := checked
    have present := checkToolFields_ok listed
    refine ⟨fields, rfl, present, ?_, ?_⟩
    · obtain ⟨value, found, _⟩ := present "effect_class" (by decide)
      simp only [subscript, found] at read
      obtain rfl := Except.ok.inj read
      rw [found]
      unfold checkEffectClass at pure_
      split at pure_
      · rename_i admitted
        rw [List.mem_map] at admitted
        obtain ⟨name, listed, rfl⟩ := admitted
        rw [List.mem_singleton.mp listed]
      · split at pure_
        · cases pure_
        · split at pure_ <;> cases pure_
    · obtain ⟨value, found, _⟩ := present "limits" (by decide)
      simp only [subscript, found] at stated
      obtain rfl := Except.ok.inj stated
      exact ⟨value, limits, found, bounded⟩
  | _ => exact absurd rfl mapping

theorem textOf_str {field : Str} {method : Str → Str} {s : Str} (found : Dict.get? fields field = some (.str s))
    (some_text : truthy (.str s) = true) : textOf fields field method = .ok (method s) := by
  unfold textOf
  rw [found]
  cases s with
  | nil => cases some_text
  | cons c rest => rfl

theorem textOf_is_str {field text : Str} {method : Str → Str} {value : Json} (found : Dict.get? fields field = some value)
    (some_value : truthy value = true) (read : textOf fields field method = .ok text) : ∃ s, value = .str s := by
  unfold textOf at read
  rw [found] at read
  cases value with
  | str s => exact ⟨s, rfl⟩
  | _ =>
    dsimp only [Option.getD_some] at read
    rw [if_pos some_value] at read
    cases read

theorem modulePath_is_str {path : Str} {value : Json} (found : Dict.get? fields "module" = some value)
    (joined : modulePath profile fields = .ok path) :
    ∃ name, value = .str name ∧ path = joinPath profile.toolsDir name := by
  unfold modulePath at joined
  rw [found] at joined
  cases value with
  | str name => exact ⟨name, rfl, (Except.ok.inj joined).symm⟩
  | _ => cases joined

theorem boundary_returns (data : Bytes) : ∃ answer, boundary tool data = .ok answer := by
  unfold boundary
  cases checked : checkPureImports data with
  | ok imports => exact ⟨_, rfl⟩
  | error e =>
    obtain ⟨code, text, rfl⟩ := checkPureImports_refuses e checked
    exact ⟨_, rfl⟩

theorem checkEffects_returns {module_ : Str} {data : Bytes} (effect : Dict.get? fields "effect_class" = some (.str "pure"))
    (read : host.read module_ = .ok data) : ∃ answer, checkEffects host tool fields module_ = .ok answer := by
  have declared : textOf fields "effect_class" Karma.strip = .ok "pure" := textOf_str effect (by decide)
  obtain ⟨answer, judged⟩ := @boundary_returns tool data
  have admitted : checkEffectClass (.str "pure") = .ok () := by decide
  unfold checkEffects
  simp only [declared, bind, ok_bind]
  rw [if_neg (by decide)]
  simp only [admitted, ok_bind, if_true, read, judged]
  cases answer <;> exact ⟨_, rfl⟩

theorem moduleOf_returns_iff (checked : checkTool tool (.obj fields) = .ok ()) :
    (∃ answer, moduleOf crypto profile host tool fields = .ok answer) ↔ Fits profile host (.obj fields) := by
  obtain ⟨_, shape, present, effect, _⟩ := checkTool_ok checked
  obtain rfl := Json.obj.inj shape
  obtain ⟨pathValue, held, _⟩ := present "module" (by decide)
  obtain ⟨pinValue, pinned, some_pin⟩ := present "sha256" (by decide)
  constructor
  · rintro ⟨answer, judged⟩
    simp only [moduleOf, bind, Py.bind_ok] at judged
    obtain ⟨path, joined, module_, resolved, judged⟩ := judged
    obtain ⟨name, rfl, rfl⟩ := modulePath_is_str held joined
    refine ⟨_, name, module_, rfl, held, resolved, fun inside there => ?_⟩
    rw [if_neg (not_not.mpr inside), if_neg (by simp [there])] at judged
    simp only [Py.bind_ok] at judged
    obtain ⟨want, lowered, data, read, _⟩ := judged
    obtain ⟨pin, rfl⟩ := textOf_is_str pinned some_pin lowered
    exact ⟨⟨pin, pinned⟩, data, read⟩
  · rintro ⟨_, path, module_, same, here, resolved, readable⟩
    obtain rfl := Json.obj.inj same
    have joined : modulePath profile fields = .ok (joinPath profile.toolsDir path) := by
      unfold modulePath
      rw [here]
      rfl
    simp only [moduleOf, joined, resolved, bind, ok_bind]
    by_cases inside : (profile.toolsDir ++ "/").isPrefixOf module_ = true
    · rw [if_neg (not_not.mpr inside)]
      by_cases there : host.present module_ = true
      · obtain ⟨⟨pin, named⟩, data, read⟩ := readable inside there
        obtain rfl := Option.some.inj (pinned.symm.trans named)
        rw [if_neg (by simp [there]), textOf_str pinned some_pin]
        simp only [ok_bind, read]
        split
        · exact ⟨_, rfl⟩
        · split
          · exact ⟨_, rfl⟩
          · exact checkEffects_returns effect read
      · rw [if_pos (by simp [there])]
        exact ⟨_, rfl⟩
    · rw [if_pos inside]
      exact ⟨_, rfl⟩

/-- What a tool is that the profile reports as executable. -/
def Executable (crypto : Crypto) (profile : Profile) (host : Host) (entry : Json) : Prop :=
  ∃ fields path module_ data pin imports declared limits, entry = .obj fields ∧
    Dict.get? fields "module" = some (.str path) ∧ host.resolve (joinPath profile.toolsDir path) = .ok module_ ∧
    host.read module_ = .ok data ∧ Dict.get? fields "sha256" = some (.str pin) ∧
    H_hex crypto data = host.lower pin ∧ checkPureImports data = .ok imports ∧
    Dict.get? fields "limits" = some declared ∧ checkLimitsDeclared declared = .ok limits

theorem moduleOf_executable {answer : Str} (checked : checkTool tool (.obj fields) = .ok ())
    (judged : moduleOf crypto profile host tool fields = .ok (.ok answer)) :
    Executable crypto profile host (.obj fields) := by
  have returned : ∃ answer, moduleOf crypto profile host tool fields = .ok answer := ⟨_, judged⟩
  obtain ⟨_, shape, present, effect, declared, limits, stated, bounded⟩ := checkTool_ok checked
  obtain rfl := Json.obj.inj shape
  obtain ⟨_, path, module_, same, held, resolved, readable⟩ := (moduleOf_returns_iff checked).mp returned
  obtain rfl := Json.obj.inj same
  obtain ⟨pinValue, pinned, some_pin⟩ := present "sha256" (by decide)
  have joined : modulePath profile fields = .ok (joinPath profile.toolsDir path) := by
    unfold modulePath
    rw [held]
    rfl
  simp only [moduleOf, joined, resolved, bind, ok_bind] at judged
  split at judged
  · cases judged
  · rename_i inside
    split at judged
    · cases judged
    · rename_i there
      obtain ⟨⟨pin, named⟩, data, read⟩ := readable (not_not.mp inside) (by simpa using there)
      obtain rfl := Option.some.inj (pinned.symm.trans named)
      rw [textOf_str pinned some_pin] at judged
      simp only [ok_bind, read] at judged
      split at judged
      · cases judged
      · split at judged
        · cases judged
        · rename_i matching
          refine ⟨fields, path, module_, data, pin, ?_⟩
          have declared_effect : textOf fields "effect_class" Karma.strip = .ok "pure" := textOf_str effect (by decide)
          have admitted : checkEffectClass (.str "pure") = .ok () := by decide
          simp only [checkEffects, declared_effect, bind, ok_bind] at judged
          rw [if_neg (by decide)] at judged
          simp only [admitted, ok_bind, if_true, read, boundary] at judged
          cases linked : checkPureImports data with
          | ok imports =>
            exact ⟨imports, declared, limits, rfl, held, resolved, read, pinned, not_not.mp matching, rfl, stated, bounded⟩
          | error e =>
            obtain ⟨code, text, rfl⟩ := checkPureImports_refuses e linked
            rw [linked] at judged
            cases judged

theorem get?_of_mapM {f : Str → Py (Str × β)} (keyed : ∀ name entry, f name = .ok entry → entry.1 = name)
    {names : List Str} {made : Dict Str β} (looped : names.mapM f = .ok made) (name : Str) :
    (name ∈ names ∧ ∃ value, Dict.get? made name = some value ∧ f name = .ok (name, value)) ∨
      name ∉ names ∧ Dict.get? made name = none := by
  have pairs := Py.mapM_ok.mp looped
  clear looped
  induction pairs with
  | nil => exact .inr ⟨List.not_mem_nil, rfl⟩
  | @cons first entry names made one _ ih =>
    obtain ⟨key, value⟩ := entry
    obtain rfl : key = first := keyed first _ one
    rw [Dict.get?_cons]
    by_cases here : key = name
    · subst here
      exact .inl ⟨List.mem_cons_self, value, if_pos rfl, one⟩
    · rw [if_neg here]
      rcases ih with ⟨among, found⟩ | ⟨apart, absent⟩
      · exact .inl ⟨List.mem_cons_of_mem _ among, found⟩
      · refine .inr ⟨fun among => ?_, absent⟩
        rcases List.mem_cons.mp among with same | later
        · exact here same.symm
        · exact apart later

variable {tools : Dict Str Json}

theorem mem_sortedTools : tool ∈ sortedTools tools ↔ ∃ entry, Dict.get? tools tool = some entry := by
  rw [sortedTools, List.mem_insertionSort, Dict.mem_keys, Option.isSome_iff_exists]

theorem moduleFor_of (loaded : toolset crypto profile host = .ok tools)
    (found : Dict.get? tools tool = some (.obj fields)) :
    moduleFor crypto profile host tool = moduleOf crypto profile host tool fields := by
  simp only [moduleFor, loaded, bind, ok_bind, found]

theorem moduleFor_returns_iff (loaded : toolset crypto profile host = .ok tools) (checked : Checked tools) :
    (∀ tool ∈ sortedTools tools, ∃ answer, moduleFor crypto profile host tool = .ok answer) ↔
      ∀ tool entry, Dict.get? tools tool = some entry → Fits profile host entry := by
  have one : ∀ tool entry, Dict.get? tools tool = some entry →
      ((∃ answer, moduleFor crypto profile host tool = .ok answer) ↔ Fits profile host entry) := by
    intro tool entry found
    have sound := checked tool entry found
    obtain ⟨fields, rfl, _⟩ := checkTool_ok sound
    rw [moduleFor_of loaded found]
    exact moduleOf_returns_iff sound
  constructor
  · intro all tool entry found
    exact (one tool entry found).mp (all tool (mem_sortedTools.mpr ⟨entry, found⟩))
  · intro all tool member
    obtain ⟨entry, found⟩ := mem_sortedTools.mp member
    exact (one tool entry found).mpr (all tool entry found)

theorem toolsetStatus_of (loaded : toolset crypto profile host = .ok tools) :
    toolsetStatus crypto profile host = (sortedTools tools).mapM (statusOf crypto profile host) := by
  simp only [toolsetStatus, loaded, bind, ok_bind]

theorem toolsetReport_of (loaded : toolset crypto profile host = .ok tools) :
    toolsetReport crypto profile host = (sortedTools tools).mapM (reportOf crypto profile host) := by
  simp only [toolsetReport, loaded, bind, ok_bind]

theorem statusOf_returns {answer : Except Refusal Str} (found : moduleFor crypto profile host tool = .ok answer) :
    ∃ entry, statusOf crypto profile host tool = .ok entry := by
  simp only [statusOf, found, bind, ok_bind]
  cases answer <;> exact ⟨_, rfl⟩

theorem reportOf_of {answer : Except Refusal Str} (found : moduleFor crypto profile host tool = .ok answer) :
    reportOf crypto profile host tool = .ok (tool, match answer with
      | .ok _ => ⟨true, toolOk, []⟩
      | .error refusal => ⟨false, refusal.code, refusal.text⟩) := by
  simp only [reportOf, found, bind, ok_bind]
  cases answer <;> rfl

theorem reportOf_keyed {entry : Str × Report} (made : reportOf crypto profile host tool = .ok entry) : entry.1 = tool := by
  simp only [reportOf, bind, Py.bind_ok] at made
  obtain ⟨answer, _, made⟩ := made
  cases answer <;> exact congrArg Prod.fst (Except.ok.inj made).symm

theorem reportOf_answer {r : Report} (made : reportOf crypto profile host tool = .ok (tool, r)) :
    ∃ answer, moduleFor crypto profile host tool = .ok answer ∧ (r.ok = true → ∃ module_, answer = .ok module_) := by
  simp only [reportOf, bind, Py.bind_ok] at made
  obtain ⟨answer, found, made⟩ := made
  refine ⟨answer, found, fun fine => ?_⟩
  cases answer with
  | ok module_ => exact ⟨module_, rfl⟩
  | error refusal =>
    obtain rfl := (Prod.mk.inj (Except.ok.inj made)).2
    cases fine

/-- The readiness of a toolset stands: every question about it is answered, a tool is called executable
only if it is, and what is said of one tool is not a matter of the others. -/
structure Stands (crypto : Crypto) (profile : Profile) (host : Host) : Prop where
  toolset : ∃ tools, toolset crypto profile host = .ok tools
  status : ∃ status, toolsetStatus crypto profile host = .ok status
  report : ∃ report, toolsetReport crypto profile host = .ok report
  available : ∃ answer, available crypto profile host = .ok answer
  sound : ∀ tools report tool r, Isolation.toolset crypto profile host = .ok tools →
    toolsetReport crypto profile host = .ok report → Dict.get? report tool = some r → r.ok = true →
      ∃ entry, Dict.get? tools tool = some entry ∧ Executable crypto profile host entry
  apart : ∀ manifest tools tools' report report' tool, Isolation.toolset crypto profile host = .ok tools →
    Isolation.toolset crypto profile { host with manifest } = .ok tools' →
    toolsetReport crypto profile host = .ok report → toolsetReport crypto profile { host with manifest } = .ok report' →
    Dict.get? tools tool = Dict.get? tools' tool → Dict.get? report tool = Dict.get? report' tool

theorem reportOf_apart {manifest : Py Bytes} {tools tools' : Dict Str Json}
    (loaded : Isolation.toolset crypto profile host = .ok tools)
    (loaded' : Isolation.toolset crypto profile { host with manifest } = .ok tools')
    (same : Dict.get? tools tool = Dict.get? tools' tool) :
    reportOf crypto profile host tool = reportOf crypto profile { host with manifest } tool := by
  have one : moduleFor crypto profile host tool = moduleFor crypto profile { host with manifest } tool := by
    simp only [moduleFor, loaded, loaded', same, bind, ok_bind]
    rfl
  simp only [reportOf, one]

theorem report_apart {manifest : Py Bytes} {tools tools' : Dict Str Json} {report report' : Dict Str Report}
    (loaded : Isolation.toolset crypto profile host = .ok tools)
    (loaded' : Isolation.toolset crypto profile { host with manifest } = .ok tools')
    (told : toolsetReport crypto profile host = .ok report)
    (told' : toolsetReport crypto profile { host with manifest } = .ok report')
    (same : Dict.get? tools tool = Dict.get? tools' tool) : Dict.get? report tool = Dict.get? report' tool := by
  rw [toolsetReport_of loaded] at told
  rw [toolsetReport_of loaded'] at told'
  have names : tool ∈ sortedTools tools ↔ tool ∈ sortedTools tools' := by
    rw [mem_sortedTools, mem_sortedTools, same]
  rcases get?_of_mapM (fun _ _ => reportOf_keyed) told tool with ⟨among, r, found, made⟩ | ⟨apart, absent⟩
  · rcases get?_of_mapM (fun _ _ => reportOf_keyed) told' tool with ⟨_, r', found', made'⟩ | ⟨apart', _⟩
    · rw [reportOf_apart loaded loaded' same] at made
      obtain rfl := (Prod.mk.inj (Except.ok.inj (made.symm.trans made'))).2
      rw [found, found']
    · exact absurd (names.mp among) apart'
  · rcases get?_of_mapM (fun _ _ => reportOf_keyed) told' tool with ⟨among', _⟩ | ⟨_, absent'⟩
    · exact absurd (names.mpr among') apart
    · rw [absent, absent']

theorem report_sound {report : Dict Str Report} {r : Report} (loaded : Isolation.toolset crypto profile host = .ok tools)
    (checked : Checked tools) (told : toolsetReport crypto profile host = .ok report) (found : Dict.get? report tool = some r)
    (fine : r.ok = true) : ∃ entry, Dict.get? tools tool = some entry ∧ Executable crypto profile host entry := by
  rw [toolsetReport_of loaded] at told
  rcases get?_of_mapM (fun _ _ => reportOf_keyed) told tool with ⟨among, r', found', made⟩ | ⟨_, absent⟩
  · obtain rfl := Option.some.inj (found.symm.trans found')
    obtain ⟨answer, judged, executable⟩ := reportOf_answer made
    obtain ⟨module_, rfl⟩ := executable fine
    obtain ⟨entry, declared⟩ := mem_sortedTools.mp among
    have sound := checked tool entry declared
    obtain ⟨fields, rfl, _⟩ := checkTool_ok sound
    rw [moduleFor_of loaded declared] at judged
    exact ⟨_, declared, moduleOf_executable sound judged⟩
  · cases absent.symm.trans found

theorem available_returns {error : Str} (loaded : loadToolset crypto profile host = .ok (error, tools))
    {status : Dict Str (Bool × Str)} (asked : toolsetStatus crypto profile host = .ok status) :
    ∃ answer, available crypto profile host = .ok answer := by
  have ready : ∃ answer, runtimeReady crypto profile host = .ok answer ∧ (answer.1 = true → tools ≠ []) := by
    unfold runtimeReady
    split
    · exact ⟨_, rfl, fun wrong => nomatch wrong⟩
    · split
      · exact ⟨_, rfl, fun wrong => nomatch wrong⟩
      · split
        · exact ⟨_, rfl, fun wrong => nomatch wrong⟩
        · simp only [loaded, bind, ok_bind]
          split
          · exact ⟨_, rfl, fun wrong => nomatch wrong⟩
          · rename_i some_tool
            exact ⟨_, rfl, fun _ => some_tool⟩
  obtain ⟨⟨ok, reason⟩, judged, nonempty⟩ := ready
  simp only [available, judged, bind, ok_bind]
  cases ok with
  | false => exact ⟨_, rfl⟩
  | true =>
    simp only [if_true, asked, ok_bind]
    split
    · exact ⟨_, rfl⟩
    · cases status with
      | cons first rest => exact ⟨_, rfl⟩
      | nil =>
        -- A toolset with a tool has a status with an entry.
        rw [toolsetStatus_of (toolset_of_load loaded)] at asked
        have pairs := Py.mapM_ok.mp asked
        have none_left : sortedTools tools = [] := List.forall₂_nil_right_iff.mp pairs
        have empty := congrArg List.length none_left
        rw [sortedTools, List.length_insertionSort, Dict.keys, List.length_map] at empty
        exact absurd (List.length_eq_zero_iff.mp empty) (nonempty rfl)

def sampleTool (module_ : Json) : Json :=
  .obj [("effect_class", .str "pure"), ("limits", .obj [("fuel", .int 1), ("guest_memory_bytes", .int 1),
    ("host_memory_bytes", .int 2), ("output_bytes", .int 8)]), ("module", module_), ("recipe_hash", .str "r"),
    ("sha256", .str (H_hex Crypto.sample header))]

/-- A manifest of one tool, with its signature. -/
def sampleToolManifest (module_ : Json) (tag : Str) : Json :=
  .obj [("authorization_form", .str authorizationFormInterim), ("schema", .str schemaToolsetManifest),
    ("signature", .str (sampleHex ++ tag)), ("signer", .obj [("domain", .str domainToolsetManifest),
      ("key_domain", .str keyDomainToolsetAuthorization), ("key_id", .str "kt")]),
    ("sunset_condition", .str sunsetConditionGauntlet), ("tools", .obj [("t", sampleTool module_)])]

def sampleToolKey : Json := .obj [("public", .str sampleHex), ("key_domain", .str keyDomainToolsetAuthorization)]

def sampleToolResolver : Json → Py Json := fun _ => return sampleToolKey

def sampleProfile : Profile where
  toolsDir := "/t"
  resolver := some sampleToolResolver
  authorization := none

/-- A host with the runtime, the manifest, and an empty module under every name. -/
def sampleHost (manifest : Json) : Host where
  realpath path := path
  present _ := true
  manifest := .ok ((encodeUtf8 manifest.dumps).getD [])
  read _ := .ok header
  which _ := some "/w"
  probe := .ok "fuel max-memory-size"
  lower s := s

def SampleLoads (module_ : Json) (tag : Str) : Prop :=
  ((sampleToolManifest module_ tag).valid ∧ encodable (sampleToolManifest module_ tag).dumps ∧
    (sampleToolManifest module_ tag).sortKeys = sampleToolManifest module_ tag) ∧
  (checkSchema (sampleToolManifest module_ tag) = .ok () ∧ checkForm (sampleToolManifest module_ tag) false = .ok () ∧
    signerOf (sampleToolManifest module_ tag) = .ok sampleSigner ∧ checkSignerDomain sampleSigner = .ok () ∧
    subscript sampleSigner "key_id" = .ok (.str "kt") ∧ resolveKey sampleToolResolver (.str "kt") = .ok sampleToolKey ∧
    checkKeyValid (.str "kt") sampleToolKey none = .ok () ∧ checkRegisteredFor (.str "kt") sampleToolKey = .ok () ∧
    toolsOf (sampleToolManifest module_ tag) = .ok [("t", sampleTool module_)] ∧
    checkTools [("t", sampleTool module_)] = .ok ()) ∧
  Toolset.signatureOf (sampleToolManifest module_ tag) = .ok (sampleHex ++ tag) ∧
    checkSigned Crypto.sample (sampleToolManifest module_ tag) sampleToolKey (sampleHex ++ tag) = .ok ()

instance (module_ : Json) (tag : Str) : Decidable (SampleLoads module_ tag) := by
  unfold SampleLoads
  infer_instance

variable {module_ : Json} {tag : Str}

theorem sample_parses (loads : SampleLoads module_ tag) :
    (decodeUtf8 ((encodeUtf8 (sampleToolManifest module_ tag).dumps).getD [])).bind Json.loads =
      some (sampleToolManifest module_ tag) := by
  obtain ⟨⟨valid, plain, sorted⟩, _⟩ := loads
  rw [← encodeUtf8_isSome] at plain
  obtain ⟨raw, made⟩ := Option.isSome_iff_exists.mp plain
  rw [made, Option.getD_some, decodeUtf8_encodeUtf8 made, Option.bind_some, loads_dumps valid, sorted]

theorem sample_validates (loads : SampleLoads module_ tag) (raw : Bytes) :
    validateManifest Crypto.sample (sampleToolManifest module_ tag) (some sampleToolResolver) false none (some raw) =
      .ok (sampleToolManifest module_ tag) := by
  obtain ⟨_, ⟨schema, form, signer, domain, keyId, resolved, valid, registered, tools, checked⟩, signature, signed⟩ := loads
  exact validateManifest_of schema form signer signature domain keyId resolved rfl valid registered signed tools checked

theorem sample_toolset (loads : SampleLoads module_ tag) :
    loadToolset Crypto.sample sampleProfile (sampleHost (sampleToolManifest module_ tag)) =
      .ok ([], [("t", sampleTool module_)]) := by
  have taken := @loadVerifiedManifest_of Crypto.sample _ (manifestPath sampleProfile (sampleHost (sampleToolManifest module_ tag)))
    _ (some sampleToolResolver) false none (sample_parses loads) (sample_validates loads _)
  unfold loadToolset
  simp only [sampleHost, sampleProfile] at taken ⊢
  rw [taken]
  rfl

theorem sample_manifested (loads : SampleLoads module_ tag) :
    Manifested Crypto.sample sampleProfile (sampleHost (sampleToolManifest module_ tag)) sampleToolResolver
      ((encodeUtf8 (sampleToolManifest module_ tag).dumps).getD []) (sampleToolManifest module_ tag) := by
  have signed := checkSigned_ok loads.2.2.1 loads.2.2.2
  refine ⟨rfl, sample_parses loads, rfl, ⟨?_, ?_⟩, sampleSigner, .str "kt", sampleToolKey, ?_, rfl, rfl, signed⟩
  · intro keyId fields found
    obtain rfl := Json.obj.inj (Except.ok.inj found)
    decide
  · intro ask known
    cases known
  · exact signerOf_ok loads.2.1.2.2.1

def sampleGood : Json :=
  sampleToolManifest (.str "m.wasm") "12dc9cf558092e1551e00be80e7668feff2763c7328e096d165f168e228227cc"

def sampleBad : Json :=
  sampleToolManifest (.int 5) "a930e8d55c8c286b803f783cacede50a3882a1bda93f35ad78e83c1fcd68f118"

set_option maxRecDepth 8000 in
theorem sample_loads :
    SampleLoads (.str "m.wasm") "12dc9cf558092e1551e00be80e7668feff2763c7328e096d165f168e228227cc" ∧
      SampleLoads (.int 5) "a930e8d55c8c286b803f783cacede50a3882a1bda93f35ad78e83c1fcd68f118" := by
  decide +kernel

theorem bad_toolset :
    toolset Crypto.sample sampleProfile (sampleHost sampleBad) = .ok [("t", sampleTool (.int 5))] :=
  toolset_of_load (sample_toolset sample_loads.2)

theorem bad_module : moduleOf Crypto.sample sampleProfile (sampleHost sampleBad) "t"
    [("effect_class", .str "pure"), ("limits", .obj [("fuel", .int 1), ("guest_memory_bytes", .int 1),
      ("host_memory_bytes", .int 2), ("output_bytes", .int 8)]), ("module", .int 5), ("recipe_hash", .str "r"),
      ("sha256", .str (H_hex Crypto.sample header))] =
    raise .typeError "join() argument must be str, bytes, or os.PathLike object" := rfl

theorem bad_status : statusOf Crypto.sample sampleProfile (sampleHost sampleBad) "t" =
    raise .typeError "join() argument must be str, bytes, or os.PathLike object" := by
  rw [statusOf, moduleFor_of bad_toolset rfl, bad_module]
  rfl

end JJDai.Isolation
