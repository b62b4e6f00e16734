import JJDai.Provenance.ArtifactBinding
import JJDai.Provenance.ManifestRegistry

/-! A composed provenance beside the attestations that were signed. -/

namespace JJDai.Manifests

open PyText Canonical Durable Replication Provenance ManifestRegistry

/-- The data families that a manifest lists; a set can hold them. -/
def Families (holder : Json) (listed : List Json) : Prop :=
  (∃ value, subscript holder "training_data_families" = .ok value ∧ pyList value = .ok listed) ∧
    ∀ value ∈ listed, hashable value = true

/-- Every adapter is unknown or bound elsewhere, which is refused, or lists families; `fits` is about the
families that are listed when nothing was refused. -/
def Composes (registry : ManifestRegistry) (substrateId : Str) (fits : List Json → Prop) :
    List Json → List Str → Prop
  | listed, [] => fits listed
  | listed, aid :: rest =>
    registry.adapter aid = .null ∨
      ∃ ab tag, subscript (registry.adapter aid) "body" = .ok ab ∧ subscript ab "base_compat_tag" = .ok tag ∧
        (tag ≠ .str substrateId ∨
          ∃ more, Families ab more ∧ Composes registry substrateId fits (listed ++ more) rest)

/-- A deployment's summary of an attestation says what the attestation in its bundle says. -/
def Summarizes (deployment : Json) (substrateId : Str) (ref : Json) : Prop :=
  ∃ hash binding bundle att ab measured declared,
    subscript ref "artifact_hash" = .ok hash ∧ subscript ref "binding" = .ok binding ∧
    dotGet deployment "attestations" = .ok bundle ∧ dotGet (orDict bundle) substrateId = .ok att ∧
    subscript att "body" = .ok ab ∧ subscript ab "artifact_hash" = .ok measured ∧
    subscript ab "binding" = .ok declared ∧ Json.pyEq hash measured ∧ Json.pyEq binding declared

/-- A field of a deployment, and the substrate's own where the deployment's is empty. -/
def Placed (sb db : Json) (key : Str) : Prop :=
  ∃ value, subscript db key = .ok value ∧ (truthy value = true ∨ ∃ own, subscript sb key = .ok own)

/-- The fields that a provenance is rendered from are there, and the deployment's summary is the
attestation's. -/
structure Renders (sb deployment : Json) (substrateId : Str) (listed : List Json) : Prop where
  base : ∃ lineage family, subscript sb "lineage" = .ok lineage ∧ subscript lineage "base_family" = .ok family
  architecture : ∃ family, subscript sb "architecture_family" = .ok family
  sortable : Sortable listed
  places : ∃ db, subscript deployment "body" = .ok db ∧ Placed sb db "operator_domain" ∧ Placed sb db "jurisdiction"
  summary : ∀ db substrates ref, subscript deployment "body" = .ok db → dotGet db "substrates" = .ok substrates →
    dotGet (orDict substrates) substrateId = .ok ref → ref ≠ .null → Summarizes deployment substrateId ref

/-- A provenance that can be composed, or is refused with a reason. -/
def Composable (registry : ManifestRegistry) (substrateId : Str) (adapterIds : List Str) (deployment : Json) : Prop :=
  registry.substrate substrateId = .null ∨
    ∃ sb lineage listed, subscript (registry.substrate substrateId) "body" = .ok sb ∧
      subscript sb "lineage" = .ok lineage ∧ Families lineage listed ∧
      Composes registry substrateId (Renders sb deployment substrateId) listed adapterIds

/-- A stated artifact and binding are those of an attestation in the deployment's bundle, which the
deployment's node signed for the substrate under the deployment's engine. -/
structure Vouched (crypto : Crypto) (deployment : Json) (substrateId : Str) (stated : Json) where
  signed : SignedDeployment crypto deployment
  bundle : Json
  bundled : dotGet deployment "attestations" = .ok bundle
  att : Json
  found : dotGet (orDict bundle) substrateId = .ok att
  measurement : SignedMeasurement crypto att
  about : dotGet measurement.body "manifest_id" = .ok (.str substrateId)
  node : canonicalNodeId crypto measurement.pub = canonicalNodeId crypto signed.pub
  engine : ∃ engine declared, dotGet measurement.body "engine_fingerprint" = .ok engine ∧
    dotGet signed.body "engine_fingerprint" = .ok declared ∧ Json.pyEq engine declared
  hash : ∃ hash measured, dotGet stated "artifact_hash" = .ok hash ∧
    subscript measurement.body "artifact_hash" = .ok measured ∧ Json.pyEq hash measured
  binding : ∃ binding declared, dotGet stated "binding" = .ok binding ∧
    subscript measurement.body "binding" = .ok declared ∧ Json.pyEq binding declared

/-- What a provenance manifest says of the substrate's weights, if anything, was signed. -/
def StatesSigned (crypto : Crypto) (deployment : Json) (substrateId : Str) (manifest : Json) : Prop :=
  ∀ stated, dotGet manifest "weight_attestation" = .ok stated → stated ≠ .null →
    Nonempty (Vouched crypto deployment substrateId stated)

def Refusal (e : PyErr) : Prop := e.kind = .manifestError

theorem subscript_foreign (j : Json) (key : Str) : Raises (fun e => ¬Refusal e) (subscript j key) := by
  refine (subscript_raises j key).mono ?_
  rintro e (missing | scalar) own
  · cases missing.symm.trans own
  · cases scalar.symm.trans own

theorem foreign_of_type {x : Py α} (raises : Raises (·.kind = .typeError) x) :
    Raises (fun e => ¬Refusal e) x := by
  refine raises.mono fun e type own => ?_
  cases type.symm.trans own

theorem familiesOf_ok {holder : Json} {families : List Json} :
    familiesOf holder = .ok families ↔ ∃ listed, Families holder listed ∧ listed.foldl withValue [] = families := by
  simp only [familiesOf, pySet, bind, Py.bind_ok, addAll_ok, Families]
  constructor
  · rintro ⟨value, read, listed, items, hashed, made⟩
    exact ⟨listed, ⟨⟨value, read, items⟩, hashed⟩, made⟩
  · rintro ⟨listed, ⟨⟨value, read, items⟩, hashed⟩, made⟩
    exact ⟨value, read, listed, items, hashed, made⟩

theorem familiesOf_foreign (holder : Json) : Raises (fun e => ¬Refusal e) (familiesOf holder) := by
  refine (subscript_foreign holder _).bind fun value _ => ?_
  exact (foreign_of_type (pyList_raises value)).bind fun listed _ => foreign_of_type (addAll_raises [] listed)

theorem refused_iff {α β : Type} {good : β → Prop} {p : Prop} [Decidable p] {text : Str} {f : α → Py β} {rest : Py β} :
    Answers Refusal good (if p then (raise .manifestError text : Py α).bind f else rest) ↔
      p ∨ Answers Refusal good rest := Answers.check_iff rfl

section
variable {registry : ManifestRegistry} {substrateId : Str}

/-- The loop over the adapters, for anything that is asked of the families it collects. -/
theorem composeAdapters_answers {good fits : List Json → Prop}
    (agree : ∀ listed, (∀ value ∈ listed, hashable value = true) → (good (listed.foldl withValue []) ↔ fits listed))
    {listed : List Json} (hashed : ∀ value ∈ listed, hashable value = true) (adapterIds : List Str) :
    Answers Refusal good (registry.composeAdapters substrateId (listed.foldl withValue []) adapterIds) ↔
      Composes registry substrateId fits listed adapterIds := by
  induction adapterIds generalizing listed with
  | nil => exact Answers.ok_iff.trans (agree listed hashed)
  | cons aid rest ih =>
    unfold composeAdapters Composes
    refine refused_iff.trans (or_congr Iff.rfl ?_)
    refine (Answers.read_iff (subscript_foreign _ _)).trans (exists_congr fun ab => ?_)
    rw [exists_and_left]
    refine and_congr_right fun _ => ?_
    refine (Answers.read_iff (subscript_foreign _ _)).trans (exists_congr fun tag => ?_)
    refine and_congr_right fun _ => refused_iff.trans (or_congr Iff.rfl ?_)
    refine (Answers.read_iff (familiesOf_foreign ab)).trans ?_
    have union (more : List Json) (listedMore : Families ab more) :
        (more.foldl withValue []).foldlM setAdd (listed.foldl withValue []) =
          .ok ((listed ++ more).foldl withValue []) := by
      refine addAll_ok.mpr ⟨?_, by rw [addAll_set, List.foldl_append]⟩
      exact fun value held => listedMore.2 value ((mem_addAll held).resolve_left List.not_mem_nil)
    have hashedMore (more : List Json) (listedMore : Families ab more) : ∀ value ∈ listed ++ more, hashable value = true :=
      List.forall_mem_append.mpr ⟨hashed, listedMore.2⟩
    constructor
    · rintro ⟨families, read, answers⟩
      obtain ⟨more, listedMore, rfl⟩ := familiesOf_ok.mp read
      simp only [bind, union more listedMore, ok_bind] at answers
      exact ⟨more, listedMore, (ih (hashedMore more listedMore)).mp answers⟩
    · rintro ⟨more, listedMore, composes⟩
      refine ⟨_, familiesOf_ok.mpr ⟨more, listedMore, rfl⟩, ?_⟩
      simp only [bind, union more listedMore, ok_bind]
      exact (ih (hashedMore more listedMore)).mpr composes

theorem orSubscript_total {value holder : Json} {key : Str} :
    (∃ found, orSubscript value holder key = .ok found) ↔ truthy value = true ∨ ∃ own, subscript holder key = .ok own := by
  unfold orSubscript
  by_cases filled : truthy value = true
  · rw [if_pos filled]
    exact iff_of_true ⟨value, rfl⟩ (.inl filled)
  · rw [if_neg filled, or_iff_right filled]

theorem orSubscript_foreign (value holder : Json) (key : Str) :
    Raises (fun e => ¬Refusal e) (orSubscript value holder key) := by
  unfold orSubscript
  split
  · exact Raises.ok value
  · exact subscript_foreign holder key

variable {crypto : Crypto} {deployment sb : Json}

theorem composed_answers {modelId : Str} {adapterIds : List Str} {listed : List Json} {running : Running}
    (hashed : ∀ value ∈ listed, hashable value = true) :
    Answers Refusal (StatesSigned crypto deployment substrateId)
        (composed sb modelId substrateId adapterIds (listed.foldl withValue []) running) ↔
      (∃ lineage family, subscript sb "lineage" = .ok lineage ∧ subscript lineage "base_family" = .ok family) ∧
      (∃ family, subscript sb "architecture_family" = .ok family) ∧ Sortable listed ∧
      (truthy running.operatorDomain = true ∨ ∃ own, subscript sb "operator_domain" = .ok own) ∧
      (truthy running.jurisdiction = true ∨ ∃ own, subscript sb "jurisdiction" = .ok own) ∧
      (running.attestation ≠ .null → Nonempty (Vouched crypto deployment substrateId running.attestation)) := by
  have hashedSet : ∀ item ∈ (listed.foldl withValue []).map (fun family => (family, family)),
      hashable item.1 = true := by
    refine List.forall_mem_map.mpr fun value held => ?_
    exact hashed value ((mem_addAll held).resolve_left List.not_mem_nil)
  have states {fields : Dict Str Json}
      (last : Dict.get? fields "weight_attestation" = some running.attestation) :
      StatesSigned crypto deployment substrateId (.obj fields) ↔
        (running.attestation ≠ .null → Nonempty (Vouched crypto deployment substrateId running.attestation)) := by
    unfold StatesSigned
    simp only [dotGet_obj, last, Option.getD_some, Except.ok.injEq, forall_eq']
  unfold composed
  simp only [bind, Answers.read_iff (subscript_foreign _ _), Answers.read_iff (orSubscript_foreign _ _ _),
    Answers.read_iff (foreign_of_type (pySort_raises hashedSet)), pure, Except.pure, Answers.ok_iff]
  rw [← sorted_set_total hashed, ← orSubscript_total, ← orSubscript_total]
  constructor
  · rintro ⟨lineage, read, base, baseRead, architecture, named, sorted, made, domain, domainRead, place, placeRead, good⟩
    exact ⟨⟨lineage, base, read, baseRead⟩, ⟨architecture, named⟩, ⟨sorted, made⟩, ⟨domain, domainRead⟩,
      ⟨place, placeRead⟩, (states rfl).mp good⟩
  · rintro ⟨⟨lineage, base, read, baseRead⟩, ⟨architecture, named⟩, ⟨sorted, made⟩, ⟨domain, domainRead⟩,
      ⟨place, placeRead⟩, good⟩
    exact ⟨lineage, read, base, baseRead, architecture, named, sorted, made, domain, domainRead, place, placeRead,
      (states rfl).mpr good⟩

/-- What an accepted deployment lists for a substrate is bound to an attestation in its bundle. -/
theorem carried_of_listed {why : Str} (accepted : verifyDeploymentManifest crypto deployment none = .ok (true, why))
    {db substrates ref : Json} (body : subscript deployment "body" = .ok db)
    (listed : dotGet db "substrates" = .ok substrates) (found : dotGet (orDict substrates) substrateId = .ok ref)
    (present : ref ≠ .null) :
    ∃ signed : SignedDeployment crypto deployment, ∃ bundle att, signed.body = db ∧
      dotGet deployment "attestations" = .ok bundle ∧ ∃ carried : Carried crypto db (orDict bundle) substrateId ref att,
        dotGet carried.measurement.body "manifest_id" = .ok (.str substrateId) ∧
        ∃ engine declared, dotGet carried.measurement.body "engine_fingerprint" = .ok engine ∧
          dotGet db "engine_fingerprint" = .ok declared ∧ Json.pyEq engine declared := by
  obtain ⟨signed, listed', bundle, listedRead, bundled, entries, held, passes⟩ := deployment_of_verifies accepted
  obtain rfl := Except.ok.inj (body.symm.trans (subscript_of_readEnvelope signed.read))
  obtain rfl := Except.ok.inj (listed.symm.trans listedRead)
  have entry : (substrateId, ref) ∈ entries := by
    rw [held, dotGet_obj] at found
    cases kept : Dict.get? entries substrateId with
    | none =>
      rw [kept] at found
      exact absurd (Except.ok.inj found).symm present
    | some value =>
      rw [kept] at found
      obtain rfl : value = ref := Except.ok.inj found
      exact Dict.mem_of_get? kept
  obtain ⟨reason, passed⟩ := passes _ entry
  obtain ⟨att, carried, about, engine⟩ := carried_of_passes passed
  exact ⟨signed, bundle, att, rfl, bundled, carried, about, engine⟩

theorem attestationOf_listed {why : Str}
    (accepted : verifyDeploymentManifest crypto deployment none = .ok (true, why)) {db substrates ref summary : Json}
    (body : subscript deployment "body" = .ok db) (listed : dotGet db "substrates" = .ok substrates)
    (found : dotGet (orDict substrates) substrateId = .ok ref) (present : ref ≠ .null) :
    attestationOf ref = .ok summary ↔ ∃ hash binding, subscript ref "artifact_hash" = .ok hash ∧
      subscript ref "binding" = .ok binding ∧ summary = .obj [("artifact_hash", hash), ("binding", binding)] := by
  obtain ⟨signed, bundle, att, _, _, carried, _⟩ := carried_of_listed accepted body listed found present
  obtain ⟨fields, rfl⟩ := obj_of_dotGet carried.committed
  have filled : truthy (.obj fields) = true := by
    cases fields with
    | nil => exact absurd carried.committed (by simp)
    | cons first rest => rfl
  simp only [attestationOf, filled, Bool.not_true, Bool.false_eq_true, if_false, bind, Py.bind_ok, pure, Except.pure,
    Except.ok.injEq]
  constructor
  · rintro ⟨hash, hashed, binding, bound, rfl⟩
    exact ⟨hash, binding, hashed, bound, rfl⟩
  · rintro ⟨hash, binding, hashed, bound, rfl⟩
    exact ⟨hash, hashed, binding, bound, rfl⟩

theorem vouched_iff {why : Str} (accepted : verifyDeploymentManifest crypto deployment none = .ok (true, why))
    {db substrates ref hash binding : Json} (body : subscript deployment "body" = .ok db)
    (listed : dotGet db "substrates" = .ok substrates) (found : dotGet (orDict substrates) substrateId = .ok ref)
    (present : ref ≠ .null) (hashed : subscript ref "artifact_hash" = .ok hash)
    (bound : subscript ref "binding" = .ok binding) :
    Nonempty (Vouched crypto deployment substrateId
        (.obj [("artifact_hash", hash), ("binding", binding)])) ↔ Summarizes deployment substrateId ref := by
  constructor
  · rintro ⟨vouched⟩
    obtain ⟨hash', measured, stated, measuredRead, sameHash⟩ := vouched.hash
    obtain ⟨binding', declared, statedBinding, declaredRead, sameBinding⟩ := vouched.binding
    obtain rfl := Except.ok.inj stated
    obtain rfl := Except.ok.inj statedBinding
    exact ⟨_, _, vouched.bundle, vouched.att, vouched.measurement.body, measured, declared, hashed, bound,
      vouched.bundled, vouched.found, subscript_of_readEnvelope vouched.measurement.read, measuredRead, declaredRead,
      sameHash, sameBinding⟩
  · rintro ⟨hash', binding', bundle', att', ab, measured, declared, hashRead, bindingRead, bundled', foundAtt, abRead,
      measuredRead, declaredRead, sameHash, sameBinding⟩
    obtain ⟨signed, bundle, att, rfl, bundled, carried, about, engine⟩ :=
      carried_of_listed accepted body listed found present
    obtain rfl := Except.ok.inj (hashed.symm.trans hashRead)
    obtain rfl := Except.ok.inj (bound.symm.trans bindingRead)
    obtain rfl := Except.ok.inj (bundled.symm.trans bundled')
    obtain rfl := Except.ok.inj (carried.found.symm.trans foundAtt)
    obtain rfl := Except.ok.inj (abRead.symm.trans (subscript_of_readEnvelope carried.measurement.read))
    refine ⟨{
      signed, bundle, bundled, att, about, engine
      found := foundAtt
      measurement := carried.measurement
      node := ?_
      hash := ⟨_, measured, rfl, measuredRead, sameHash⟩
      binding := ⟨_, declared, rfl, declaredRead, sameBinding⟩ }⟩
    have attested := carried.attested
    rw [← Except.ok.inj (signed.node.symm.trans carried.nodeRead)] at attested
    simpa [Json.pyEq, Json.comparisonKey] using attested

theorem attestationOf_foreign (ref : Json) : Raises (fun e => ¬Refusal e) (attestationOf ref) := by
  unfold attestationOf
  split
  · exact Raises.ok _
  · refine (subscript_foreign ref _).bind fun hash _ => ?_
    exact (subscript_foreign ref _).bind fun binding _ => Raises.ok _

theorem running_answers {why : Str} (accepted : verifyDeploymentManifest crypto deployment none = .ok (true, why))
    {good : Running → Prop} (operatorDomain jurisdiction : Json) :
    Answers Refusal good (running crypto substrateId operatorDomain jurisdiction deployment) ↔
      ∃ db domain place substrates ref summary, subscript deployment "body" = .ok db ∧
        subscript db "operator_domain" = .ok domain ∧ subscript db "jurisdiction" = .ok place ∧
        dotGet db "substrates" = .ok substrates ∧ dotGet (orDict substrates) substrateId = .ok ref ∧
        attestationOf ref = .ok summary ∧ good ⟨domain, place, "signed-deployment", summary⟩ := by
  obtain ⟨signed, listed, bundle, listedRead, bundled, entries, held, passes⟩ := deployment_of_verifies accepted
  have body := subscript_of_readEnvelope signed.read
  have present : deployment ≠ .null := by
    rintro rfl
    cases body
  have found : dotGet (.obj entries) substrateId = .ok ((Dict.get? entries substrateId).getD .null) := rfl
  unfold running
  rw [if_neg present]
  simp only [bind, accepted, ok_bind, Bool.not_true, Bool.false_eq_true, if_false, body, listedRead, held, found, pure,
    Except.pure, Answers.read_iff (subscript_foreign _ _), Answers.read_iff (attestationOf_foreign _), Answers.ok_iff]
  constructor
  · rintro ⟨domain, domainRead, place, placeRead, summary, made, kept⟩
    exact ⟨_, domain, place, listed, _, summary, rfl, domainRead, placeRead, listedRead, by rw [held]; exact found, made,
      kept⟩
  · rintro ⟨db, domain, place, substrates, ref, summary, same, domainRead, placeRead, substratesRead, refRead, made,
      kept⟩
    obtain rfl := Except.ok.inj same
    obtain rfl := Except.ok.inj (listedRead.symm.trans substratesRead)
    rw [held] at refRead
    obtain rfl := Except.ok.inj (found.symm.trans refRead)
    exact ⟨domain, domainRead, place, placeRead, summary, made, kept⟩

theorem rendered_answers {why : Str} (accepted : verifyDeploymentManifest crypto deployment none = .ok (true, why))
    {modelId : Str} {adapterIds : List Str} {operatorDomain jurisdiction : Json} {listed : List Json}
    (hashed : ∀ value ∈ listed, hashable value = true) :
    Answers Refusal (StatesSigned crypto deployment substrateId)
        ((running crypto substrateId operatorDomain jurisdiction deployment).bind fun running =>
          composed sb modelId substrateId adapterIds (listed.foldl withValue []) running) ↔
      Renders sb deployment substrateId listed := by
  rw [Answers.bind_iff, running_answers accepted]
  simp only [composed_answers hashed]
  constructor
  · rintro ⟨db, domain, place, substrates, ref, summary, body, domainRead, placeRead, listedRead, found, made, base,
      architecture, sortable, domainKnown, placeKnown, states⟩
    refine ⟨base, architecture, sortable, ⟨db, body, ⟨domain, domainRead, domainKnown⟩, place, placeRead, placeKnown⟩, ?_⟩
    intro db' substrates' ref' body' listed' found' present
    obtain rfl := Except.ok.inj (body.symm.trans body')
    obtain rfl := Except.ok.inj (listedRead.symm.trans listed')
    obtain rfl := Except.ok.inj (found.symm.trans found')
    obtain ⟨hash, binding, hashRead, bound, rfl⟩ := (attestationOf_listed accepted body listedRead found present).mp made
    exact (vouched_iff accepted body listedRead found present hashRead bound).mp (states (by simp))
  · rintro ⟨base, architecture, sortable, ⟨db, body, ⟨domain, domainRead, domainKnown⟩, place, placeRead, placeKnown⟩,
      summary⟩
    obtain ⟨signed, substrates, bundle, listedRead, bundled, entries, held, passes⟩ := deployment_of_verifies accepted
    obtain rfl := Except.ok.inj (body.symm.trans (subscript_of_readEnvelope signed.read))
    have found : dotGet (orDict substrates) substrateId = .ok ((Dict.get? entries substrateId).getD .null) := by
      rw [held]
      rfl
    generalize (Dict.get? entries substrateId).getD .null = ref at found
    by_cases absent : ref = .null
    · subst absent
      exact ⟨_, domain, place, substrates, .null, .null, body, domainRead, placeRead, listedRead, found, rfl, base,
        architecture, sortable, domainKnown, placeKnown, fun given => absurd rfl given⟩
    · have summarizes := summary _ substrates ref body listedRead found absent
      obtain ⟨hash, binding, _, _, _, _, _, hashRead, bound, _⟩ := id summarizes
      exact ⟨_, domain, place, substrates, ref, _, body, domainRead, placeRead, listedRead, found,
        (attestationOf_listed accepted body listedRead found absent).mpr ⟨hash, binding, hashRead, bound, rfl⟩, base,
        architecture, sortable, domainKnown, placeKnown, fun _ =>
          (vouched_iff accepted body listedRead found absent hashRead bound).mpr summarizes⟩

/-- A provenance of a model that runs in an accepted deployment states what was signed, and is refused with
a reason or not at all, exactly when its fields are legible and the deployment's summary is faithful. -/
theorem provenance_states_signed {why : Str}
    (accepted : verifyDeploymentManifest crypto deployment none = .ok (true, why)) (registry : ManifestRegistry)
    (modelId substrateId : Str) (adapterIds : List Str) (operatorDomain jurisdiction : Json) :
    Answers Refusal (StatesSigned crypto deployment substrateId)
        (registry.provenance crypto modelId substrateId adapterIds operatorDomain jurisdiction deployment) ↔
      Composable registry substrateId adapterIds deployment := by
  unfold provenance Composable
  refine refused_iff.trans (or_congr Iff.rfl ?_)
  refine (Answers.read_iff (subscript_foreign _ _)).trans (exists_congr fun sb => ?_)
  simp only [exists_and_left]
  refine and_congr_right fun _ => ?_
  refine (Answers.read_iff (subscript_foreign _ _)).trans (exists_congr fun lineage => ?_)
  refine and_congr_right fun _ => ?_
  refine (Answers.read_iff (familiesOf_foreign lineage)).trans ?_
  have composes {listed : List Json} (hashed : ∀ value ∈ listed, hashable value = true) :
      Answers Refusal (fun families => Answers Refusal (StatesSigned crypto deployment substrateId)
          ((running crypto substrateId operatorDomain jurisdiction deployment).bind fun running =>
            composed sb modelId substrateId adapterIds families running))
        (registry.composeAdapters substrateId (listed.foldl withValue []) adapterIds) ↔
      Composes registry substrateId (Renders sb deployment substrateId) listed adapterIds :=
    composeAdapters_answers (fun listed hashed => rendered_answers accepted hashed) hashed adapterIds
  constructor
  · rintro ⟨families, read, answers⟩
    obtain ⟨listed, families, rfl⟩ := familiesOf_ok.mp read
    exact ⟨listed, families, (composes families.2).mp (Answers.bind_iff.mp answers)⟩
  · rintro ⟨listed, families, fits⟩
    exact ⟨_, familiesOf_ok.mpr ⟨listed, families, rfl⟩, Answers.bind_iff.mpr ((composes families.2).mpr fits)⟩

end

def sampleSubstrateBody : Json :=
  .obj [("kind", .str "SUBSTRATE_MANIFEST"), ("substrate_id", .str "base"), ("frozen", .bool true),
    ("lineage", .obj [("base_family", .str "f"), ("training_data_families", .arr [.str "web", .str "code"])]),
    ("architecture_family", .str "a"), ("profile", .str "B"), ("operator_domain", .str "d"),
    ("jurisdiction", .str "j"),
    ("publisher_node", .str (canonicalNodeId Crypto.sample (SigningKey.publicKey Crypto.sample (.sample 2))))]

def sampleSubstrate : Json :=
  (sealEnvelope Crypto.sample (.sample 2) substrateDomain sampleSubstrateBody).toOption.getD .null

def sampleRegistry : ManifestRegistry :=
  (((create []).register Crypto.sample sampleSubstrate).toOption.map Prod.fst).getD (create [])

/-- The summary of the sample measurement, with a binding of its own. -/
def sampleRef (binding : Str) : Json :=
  .obj [("attestation_hash", .str (H_hex Crypto.sample ((canonical sampleMeasurement).toOption.getD []))),
    ("artifact_hash", .str sampleCheckpoint), ("binding", .str binding)]

def deploymentBody (binding : Str) : Json :=
  .obj [("kind", .str "DEPLOYMENT_MANIFEST"), ("node_id", sampleNode), ("operator_domain", .str "d"),
    ("jurisdiction", .str "j"), ("engine_fingerprint", .str "fp"),
    ("substrates", .obj [("base", sampleRef binding)])]

/-- A deployment of node 1 whose bundle is the sample measurement, which is of a declared binding. -/
def deploymentStating (binding : Str) : Json :=
  .obj [("body", deploymentBody binding), ("pub", .str (toHex (SigningKey.publicKey Crypto.sample (.sample 1)))),
    ("sig", .str (toHex (SigningKey.sign Crypto.sample (.sample 1)
      (deployDomain ++ (canonical (deploymentBody binding)).toOption.getD [])))),
    ("attestations", .obj [("base", sampleMeasurement)])]

private theorem sample_verifies :
    verifyDeploymentManifest Crypto.sample (deploymentStating "declared") none = .ok (true, "ok") ∧
      verifyDeploymentManifest Crypto.sample (deploymentStating "content") none = .ok (true, "ok") ∧
      subscript (sampleRegistry.substrate "base") "body" = .ok sampleSubstrateBody := by
  decide +kernel

private theorem sample_measured :
    ∃ ab, subscript sampleMeasurement "body" = .ok ab ∧ subscript ab "artifact_hash" = .ok (.str sampleCheckpoint) ∧
      subscript ab "binding" = .ok (.str "declared") :=
  ⟨(subscript sampleMeasurement "body").toOption.getD .null, by decide +kernel⟩

private theorem read_base (value : Json) : dotGet (orDict (.obj [("base", value)])) "base" = .ok value := by
  rw [orDict, if_pos (by simp [truthy])]
  rfl

theorem sample_summarizes (binding : Str) :
    Summarizes (deploymentStating binding) "base" (sampleRef binding) ↔ binding = "declared" := by
  obtain ⟨body, bodied, hashed, declared⟩ := sample_measured
  constructor
  · rintro ⟨hash, stated, bundle, att, ab, measured, said, _, bound, bundled, found, abRead, _, saidRead, _, same⟩
    obtain rfl := Except.ok.inj bundled
    obtain rfl := Except.ok.inj ((read_base sampleMeasurement).symm.trans found)
    obtain rfl := Except.ok.inj (bodied.symm.trans abRead)
    obtain rfl := Except.ok.inj (declared.symm.trans saidRead)
    obtain rfl : Json.str binding = stated := Except.ok.inj bound
    exact Json.str.inj same
  · rintro rfl
    exact ⟨_, _, _, sampleMeasurement, body, _, _, rfl, rfl, rfl, read_base _, bodied, hashed, declared, rfl, rfl⟩

theorem sample_renders (binding : Str) (listed : List Json) :
    Renders sampleSubstrateBody (deploymentStating binding) "base" listed ↔ Sortable listed ∧ binding = "declared" := by
  constructor
  · intro renders
    exact ⟨renders.sortable, (sample_summarizes binding).mp (renders.summary _ _ _ rfl rfl (read_base _) (by simp [sampleRef]))⟩
  · rintro ⟨sortable, faithful⟩
    refine ⟨⟨_, _, rfl, rfl⟩, ⟨_, rfl⟩, sortable, ⟨_, rfl, ⟨_, rfl, .inl rfl⟩, ⟨_, rfl, .inl rfl⟩⟩, ?_⟩
    intro db substrates ref body listed found _
    obtain rfl := Except.ok.inj body
    obtain rfl := Except.ok.inj listed
    obtain rfl := Except.ok.inj ((read_base (sampleRef binding)).symm.trans found)
    exact (sample_summarizes binding).mpr faithful

theorem sample_composable (binding : Str) :
    Composable sampleRegistry "base" [] (deploymentStating binding) ↔ binding = "declared" := by
  obtain ⟨_, _, body⟩ := sample_verifies
  constructor
  · rintro (unknown | ⟨sb, lineage, listed, bodied, _, _, renders⟩)
    · rw [unknown] at body
      cases body
    · obtain rfl := Except.ok.inj (body.symm.trans bodied)
      exact ((sample_renders binding listed).mp renders).2
  · intro declared
    refine .inr ⟨_, _, [.str "web", .str "code"], body, rfl, ⟨⟨_, rfl, rfl⟩, by simp [hashable]⟩, ?_⟩
    refine (sample_renders binding _).mpr ⟨?_, declared⟩
    simp [Sortable, Comparable, isText]

theorem provenance_states_signed_sample :
    Answers Refusal (StatesSigned Crypto.sample (deploymentStating "declared") "base")
      (sampleRegistry.provenance Crypto.sample "m" "base" [] .null .null (deploymentStating "declared")) :=
  (provenance_states_signed sample_verifies.1 sampleRegistry "m" "base" [] .null .null).mpr
    ((sample_composable "declared").mpr rfl)

private theorem sample_registered : ((create []).register Crypto.sample sampleSubstrate).isOk = true := by
  decide +kernel

/-- A registered substrate and an accepted deployment whose provenance says that the binding is a content
binding, where the node signed that it was only declared. -/
theorem provenance_overstates :
    ((create []).register Crypto.sample sampleSubstrate).map Prod.fst = .ok sampleRegistry ∧
      verifyDeploymentManifest Crypto.sample (deploymentStating "content") none = .ok (true, "ok") ∧
      ((sampleRegistry.provenance Crypto.sample "m" "base" [] .null .null (deploymentStating "content")).bind
        (dotGet · "weight_attestation")) =
          .ok (.obj [("artifact_hash", .str sampleCheckpoint), ("binding", .str "content")]) ∧
      ((subscript sampleMeasurement "body").bind (subscript · "binding")) = .ok (.str "declared") ∧
      ¬Answers Refusal (StatesSigned Crypto.sample (deploymentStating "content") "base")
        (sampleRegistry.provenance Crypto.sample "m" "base" [] .null .null (deploymentStating "content")) := by
  have accepted := sample_verifies.2.1
  have made : ((sampleRegistry.provenance Crypto.sample "m" "base" [] .null .null (deploymentStating "content")).bind
      (dotGet · "weight_attestation")) =
        .ok (.obj [("artifact_hash", .str sampleCheckpoint), ("binding", .str "content")]) := by decide +kernel
  refine ⟨?_, accepted, made, by decide +kernel, ?_⟩
  · obtain ⟨result, registered⟩ := Py.exists_of_isOk sample_registered
    rw [sampleRegistry, registered]
    rfl
  · intro answers
    obtain ⟨manifest, returned, stated⟩ := Py.bind_ok.mp made
    have vouched := answers.2 manifest returned _ stated (by simp)
    have summarizes := (vouched_iff accepted rfl rfl (read_base _) (by simp [sampleRef]) rfl rfl).mp vouched
    exact absurd ((sample_summarizes "content").mp summarizes) (by decide)

end JJDai.Manifests
