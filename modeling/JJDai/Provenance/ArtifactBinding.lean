import JJDai.Provenance.ModelManifest

/-! `core.artifact_binding`: which measured weights stand behind an engine. -/

namespace JJDai.Provenance

open PyText Canonical Durable Replication

/-- What the loaded engine says of itself, `null` where it has no attribute. -/
structure Engine where
  backend : Json := .null
  fingerprint : Json := .null
  determinismLevel : Json := .null

structure ArtifactRefs where
  verified : Bool
  reason : Str
  manifestVerified : Bool
  engineFingerprint : Str
  determinismLevel : Json
  modelArtifactManifestHash : Json
  deploymentManifestHash : Json
  checkpointHash : Json
  quantization : Json
  attested : Bool

def unknown : Str := "unknown"

def identity (value : Json) (message : Str) : Py Str :=
  match value with
  | .str name => if hasText name then return name else raise (.artifactBindingError true) message
  | _ => raise (.artifactBindingError true) message

def quantizationOf (body : Json) : Py Json := do
  let q ← dotGet body "quantization"
  match q with
  | .obj fields =>
    let scheme := (Dict.get? fields "scheme").getD .null
    let precision := (Dict.get? fields "precision").getD .null
    return if truthy scheme then scheme else if truthy precision then precision else .str unknown
  | .str name => return if name ≠ [] then .str name else .str unknown
  | _ => return .str unknown

variable (crypto : Crypto)

def deploymentHash (deployment : Json) : Py Json := do
  if !truthy deployment then return .null
  let data ← canonical (← subscript deployment "body")
  return .str (H_hex crypto data)

/-- The deployment's body, once it verifies and names the loaded engine. -/
def bindDeployment (deployment : Json) (fp : Str) : Py Json := do
  if !isMapping deployment then
    raise (.artifactBindingError true) ("no deployment manifest supplied: a signed description of weights is not " ++
      "evidence that this node holds them, and the deployment is the only signed statement that says " ++
      "which measured artifacts this node actually serves")
  let (ok, why) ← verifyDeploymentManifest crypto deployment none
  if !ok then raise (.artifactBindingError true) ("deployment manifest does not verify: " ++ why)
  let depBody ← subscript deployment "body"
  let depFp ← dotGet depBody "engine_fingerprint"
  if !nonblank depFp then
    raise (.artifactBindingError true) "the deployment manifest names no engine fingerprint"
  if depFp ≠ .str fp then
    raise (.artifactBindingError true) ("deployment manifest attests engine " ++ reprJson depFp ++
      " while the loaded driver reports " ++ pyRepr fp)
  return depBody

/-- The substrates of a deployment that measure the checkpoint. -/
def namedSubstrates (checkpoint : Json) (substrates : Dict Str Json) : Py (List Str) := do
  let kept ← filterPy (fun entry => do
    let measured ← dotGet entry.2 "artifact_hash"
    return decide (Json.pyEq measured checkpoint)) substrates
  return kept.map Prod.fst

/-- The first loop over the named substrates: each has an attestation in the bundle. -/
def checkEmbedded (embedded : Json) : List Str → Py Unit
  | [] => return ()
  | sid :: rest => do
    if !(← pyContains sid embedded) then
      raise (.artifactBindingError true) ("the deployment names substrate " ++ pyRepr sid ++
        " but its bundle carries no attestation for it")
    checkEmbedded embedded rest

/-- The second loop: each attestation is about the loaded engine and the deployment's node. -/
def checkAttested (embedded depBody : Json) (fp : Str) : List Str → Py Unit
  | [] => return ()
  | sid :: rest => do
    let ab ← subscript (← subscript embedded sid) "body"
    let attFp ← dotGet ab "engine_fingerprint"
    if !nonblank attFp then
      raise (.artifactBindingError true) ("the weight attestation for " ++ pyRepr sid ++ " names no engine: a " ++
        "measurement nobody can attribute to an engine is not provenance")
    if attFp ≠ .str fp then
      raise (.artifactBindingError true) ("the weight attestation for " ++ pyRepr sid ++
        " was taken under engine " ++ reprJson attFp ++ " and this node runs " ++ pyRepr fp ++
        ": measured bytes and the engine that measured them are one statement, not two")
    let attester ← dotGet ab "attester_node"
    let node ← dotGet depBody "node_id"
    if ¬Json.pyEq attester node then
      raise (.artifactBindingError true) ("the attestation for " ++ pyRepr sid ++ " was signed by " ++
        reprJson attester ++ " while the deployment describes " ++ reprJson node)
    checkAttested embedded depBody fp rest

/-- The loop over the attestations supplied beside the deployment. -/
def checkSupplied (embedded : Json) : Dict Str Json → Py Unit
  | [] => return ()
  | (sid, env) :: rest => do
    if !(← pyContains sid embedded) then
      raise (.artifactBindingError true) ("weight attestation for " ++ pyRepr sid ++
        " was supplied outside the signed deployment, which does not carry it")
    let given ← canonical env
    let signed ← canonical (← subscript embedded sid)
    if given ≠ signed then
      raise (.artifactBindingError true) ("the supplied attestation for " ++ pyRepr sid ++
        " differs byte for byte from the one the deployment signed")
    checkSupplied embedded rest

/-- The part of `bind_artifact` that ties the manifest's checkpoint to the deployment's
attestations; its answer is the checkpoint. -/
def bindCheckpoint (body depBody deployment weightAttestations : Json) (fp : Str) : Py Json := do
  let checkpoint ← dotGet body "checkpoint_hash"
  let substrates ← pyItems (orDict (← dotGet depBody "substrates"))
  let named ← namedSubstrates checkpoint substrates
  if named = [] then
    raise (.artifactBindingError true) ("the deployment manifest signs for " ++
      WitnessChain.reprList ((Dict.keys substrates).insertionSort (· ≤ ·)) ++
      " and none of them measures the checkpoint this manifest names (" ++ pyStr checkpoint ++
      "); a deployment that does not carry these weights cannot vouch for them")
  let embedded := orDict (← dotGet deployment "attestations")
  checkEmbedded embedded named
  checkAttested embedded depBody fp named
  checkSupplied embedded (← pyItems (orDict weightAttestations))
  return checkpoint

def bindArtifact (manifestEnvelope : Json) (engine : Engine) (weightAttestations deployment : Json) :
    Py ArtifactRefs := do
  if !isMapping manifestEnvelope then
    raise (.artifactBindingError false) ("no model artifact manifest supplied: a decision that cannot name the " ++
      "weights that produced it is unprovable, whatever the trace says")
  let body ← verifyManifest crypto manifestEnvelope
  let backend ← identity engine.backend ("the loaded engine states no backend: a driver that cannot say what it " ++
    "is cannot be matched against a manifest that names one")
  let fp ← identity engine.fingerprint ("the loaded engine states no fingerprint: without one, nothing " ++
    "distinguishes these weights from any others")
  let described ← subscript body "backend"
  if described ≠ .str backend then
    raise (.artifactBindingError true) ("manifest describes backend " ++ reprJson described ++
      " but this node runs " ++ pyRepr backend ++ " — the manifest belongs to another deployment")
  let depBody ← bindDeployment crypto deployment fp
  let depHash ← deploymentHash crypto deployment
  let checkpoint ← bindCheckpoint body depBody deployment weightAttestations fp
  let quant ← quantizationOf body
  if quant = .str unknown then
    raise (.artifactBindingError true) ("the verified manifest states no quantization; a binding that cannot say " ++
      "how the weights are represented is incomplete, and guessing is what recut4 did")
  let manifestHash ← dotGet manifestEnvelope "manifest_hash"
  return {
    verified := true, reason := "ok", manifestVerified := true
    engineFingerprint := fp
    determinismLevel := engine.determinismLevel
    modelArtifactManifestHash := manifestHash
    deploymentManifestHash := depHash
    checkpointHash := checkpoint
    quantization := quant
    attested := true }

def Collide (a b : Bytes) : Prop := a ≠ b ∧ crypto.H a = crypto.H b

/-- A verified measurement of the manifest's checkpoint, taken under the loaded engine by
the key that signed the deployment, whose hash the deployment's body commits to. -/
structure Measured (body : Json) (engine : Engine) (deployment : Json) where
  signed : SignedDeployment crypto deployment
  sid : Str
  ref : Json
  att : Json
  substrates : Dict Str Json
  listed : dotGet signed.body "substrates" = .ok (.obj substrates)
  entry : (sid, ref) ∈ substrates
  data : Bytes
  text : canonical att = .ok data
  committed : dotGet ref "attestation_hash" = .ok (.str (H_hex crypto data))
  measurement : SignedMeasurement crypto att
  sameKey : measurement.pub = signed.pub ∨ Collide crypto measurement.pub signed.pub
  fingerprint : Str
  runs : engine.fingerprint = .str fingerprint
  named : dotGet measurement.body "engine_fingerprint" = .ok (.str fingerprint)
  checkpoint : Json
  described : dotGet body "checkpoint_hash" = .ok checkpoint
  measured : Json
  measuredRead : dotGet measurement.body "artifact_hash" = .ok measured
  same : Json.pyEq measured checkpoint

variable {crypto} {body depBody deployment embedded : Json} {engine : Engine} {fp : Str}

theorem identity_ok {value : Json} {message name : Str} (named : identity value message = .ok name) :
    value = .str name := by
  cases value with
  | str text =>
    simp only [identity] at named
    split at named
    · obtain rfl := Except.ok.inj named
      rfl
    · cases named
  | _ => cases named

theorem bindDeployment_ok (bound : bindDeployment crypto deployment fp = .ok depBody) :
    (∃ why, verifyDeploymentManifest crypto deployment none = .ok (true, why)) ∧
      subscript deployment "body" = .ok depBody := by
  simp only [bindDeployment, bind, Py.bind_ok, Py.unless_ok] at bound
  obtain ⟨_, ⟨ok, why⟩, verified, passed, found, read, _, _, _, _, same⟩ := bound
  obtain rfl : ok = true := by simpa using passed
  obtain rfl := Except.ok.inj same
  exact ⟨⟨why, verified⟩, read⟩

theorem namedSubstrates_ok {checkpoint : Json} {substrates : Dict Str Json} {named : List Str}
    (made : namedSubstrates checkpoint substrates = .ok named) {sid : Str} (member : sid ∈ named) :
    ∃ ref, (sid, ref) ∈ substrates ∧ ∃ measured, dotGet ref "artifact_hash" = .ok measured ∧
      Json.pyEq measured checkpoint := by
  simp only [namedSubstrates, bind, Py.bind_ok] at made
  obtain ⟨kept, filtered, same⟩ := made
  obtain rfl := Except.ok.inj same
  obtain ⟨entry, inside, rfl⟩ := List.mem_map.mp member
  obtain ⟨listed, tested⟩ := filterPy_ok filtered entry inside
  obtain ⟨measured, read, same⟩ := Py.bind_ok.mp tested
  exact ⟨entry.2, listed, measured, read, of_decide_eq_true (Except.ok.inj same)⟩

theorem checkAttested_ok {named : List Str} (checked : checkAttested embedded depBody fp named = .ok ())
    {sid : Str} (member : sid ∈ named) :
    ∃ att ab, subscript embedded sid = .ok att ∧ subscript att "body" = .ok ab ∧
      dotGet ab "engine_fingerprint" = .ok (.str fp) := by
  induction named with
  | nil => cases member
  | cons first rest ih =>
    simp only [checkAttested, bind, Py.bind_ok, Py.unless_ok] at checked
    obtain ⟨att, found, ab, bodied, name, named, _, same, _, _, _, _, _, later⟩ := checked
    rcases List.mem_cons.mp member with rfl | inside
    · exact ⟨att, ab, found, bodied, named.trans (congrArg Except.ok (not_not.mp same))⟩
    · exact ih later inside

theorem same_of_nodeId {pub other : Bytes} (same : canonicalNodeId crypto pub = canonicalNodeId crypto other) :
    pub = other ∨ Collide crypto pub other := by
  by_cases equal : pub = other
  · exact .inl equal
  · have digests : H_hex crypto pub = H_hex crypto other := List.append_cancel_left same
    exact .inr ⟨equal, toHex_injective digests⟩

theorem SignedManifest.checkpoint_ne_null {manifestEnvelope checkpoint : Json}
    (manifest : SignedManifest crypto manifestEnvelope body)
    (read : dotGet body "checkpoint_hash" = .ok checkpoint) : checkpoint ≠ .null := by
  rintro rfl
  have valid := manifest.schema
  obtain ⟨fields, rfl⟩ := obj_of_dotGet read
  simp only [validateManifestBody, bind, Py.bind_ok, Py.unless_ok] at valid
  obtain ⟨_, _, value, found, address, _⟩ := valid
  obtain rfl := Except.ok.inj ((dotGet_of_subscript found).symm.trans read)
  exact address (by decide)

theorem obj_of_orDict {value : Json} {fields : Dict Str Json} (full : orDict value = .obj fields)
    (filled : fields ≠ []) : value = .obj fields := by
  unfold orDict at full
  split at full
  · exact full
  · exact absurd (Json.obj.inj full).symm filled

/-- The checkpoint that `bind_artifact` binds is one that the deployment's signer measured. -/
theorem bindCheckpoint_measured {weightAttestations checkpoint : Json} (runs : engine.fingerprint = .str fp)
    (deployed : bindDeployment crypto deployment fp = .ok depBody)
    (bound : bindCheckpoint body depBody deployment weightAttestations fp = .ok checkpoint)
    (present : ∀ checkpoint, dotGet body "checkpoint_hash" = .ok checkpoint → checkpoint ≠ .null) :
    Nonempty (Measured crypto body engine deployment) := by
  obtain ⟨⟨why, verified⟩, bodied⟩ := bindDeployment_ok deployed
  obtain ⟨signed, listed, bundle, listedRead, bundled, substrates, held, passes⟩ := deployment_of_verifies verified
  obtain rfl := Except.ok.inj (bodied.symm.trans (subscript_of_readEnvelope signed.read))
  simp only [bindCheckpoint, bind, Py.bind_ok, Py.unless_ok] at bound
  obtain ⟨described, read, listed', listedRead', substrates', itemized, named, made, some_name, bundle', bundled',
    _, _, _, attested, _⟩ := bound
  obtain rfl := Except.ok.inj (listedRead.symm.trans listedRead')
  obtain rfl := Except.ok.inj (bundled.symm.trans bundled')
  obtain ⟨sid, rest, rfl⟩ := List.exists_cons_of_ne_nil some_name
  obtain ⟨ref, entry, expected, expectedRead, same⟩ := namedSubstrates_ok made List.mem_cons_self
  obtain rfl := Json.obj.inj (held.symm.trans (pyItems_ok itemized))
  obtain ⟨reason, passed⟩ := passes (sid, ref) entry
  obtain ⟨att, carried, _⟩ := carried_of_passes passed
  obtain ⟨att', ab, found, abRead, engineNamed⟩ := checkAttested_ok attested List.mem_cons_self
  obtain rfl := Except.ok.inj (carried.found.symm.trans (dotGet_of_subscript found))
  obtain rfl := Except.ok.inj (abRead.symm.trans (subscript_of_readEnvelope carried.measurement.read))
  obtain rfl := Except.ok.inj (expectedRead.symm.trans carried.expectedRead)
  have given : carried.expected ≠ .null := by
    intro absent
    rw [absent, Json.pyEq_null] at same
    exact present _ read same
  have key : canonicalNodeId crypto carried.measurement.pub = canonicalNodeId crypto signed.pub := by
    have attester := carried.attested
    rw [← Except.ok.inj (signed.node.symm.trans carried.nodeRead)] at attester
    simpa [Json.pyEq, Json.comparisonKey] using attester
  exact ⟨{
    signed, sid, ref, att, substrates, entry, data := carried.data, text := carried.text
    listed := by rw [listedRead, obj_of_orDict held (List.ne_nil_of_mem entry)]
    committed := carried.committed
    measurement := carried.measurement
    sameKey := same_of_nodeId key
    fingerprint := fp
    runs
    named := engineNamed
    checkpoint := described
    described := read
    measured := carried.measured
    measuredRead := carried.measuredRead
    same := (carried.matching given).trans same }⟩

/-- What `bind_artifact` accepts is a manifest whose schema, hash and signature hold, and a
deployment signed for its node with a measurement of the manifest's checkpoint. -/
theorem bound_is_measured {manifestEnvelope weightAttestations : Json} {refs : ArtifactRefs}
    (bound : bindArtifact crypto manifestEnvelope engine weightAttestations deployment = .ok refs) :
    ∃ body, Nonempty (SignedManifest crypto manifestEnvelope body) ∧
      Nonempty (Measured crypto body engine deployment) := by
  simp only [bindArtifact, bind, Py.bind_ok, Py.unless_ok] at bound
  obtain ⟨_, body, verified, _, _, fp, fingerprint, _, _, _, depBody, deployed, _, _, checkpoint, carries, _⟩ := bound
  obtain ⟨manifest⟩ := manifest_of_verifies verified
  refine ⟨body, ⟨manifest⟩, ?_⟩
  exact bindCheckpoint_measured (identity_ok fingerprint) deployed carries
    (fun _ read => manifest.checkpoint_ne_null read)

def sampleCheckpoint : Str := "sha256:" ++ List.replicate 64 (ch '0')

def sampleBody : Json :=
  .obj [("schema", .str "jjdai.model-artifact/v1"), ("family", .str "f"),
    ("profile_hash", .str (List.replicate 64 (ch '1'))), ("profile_schema", .str "s"), ("architecture", .str "a"),
    ("tokenizer", .str "t"), ("chat_template", .str "c"), ("checkpoint_hash", .str sampleCheckpoint),
    ("quantization", .str "int8"), ("conversion_toolchain", .obj []), ("backend", .str "b"),
    ("backend_version", .str "1"), ("runtime_version", .str ""), ("protocol_version", .str "1"),
    ("weight_adapters", .arr []), ("source", .str ""), ("licenses", .arr []), ("golden", .obj [])]

def signManifest (crypto : Crypto) (body : Json) (sk : SigningKey) : Py Json := do
  let digest ← manifestHash crypto body
  let data ← canonical body
  return .obj [("body", body), ("manifest_hash", .str digest), ("sig", .str (toHex (sk.sign crypto data))),
    ("pubkey", .str (toHex (sk.publicKey crypto)))]

def sampleManifest : Json := (signManifest Crypto.sample sampleBody (.sample 3)).toOption.getD .null

def sampleNode : Json := .str (canonicalNodeId Crypto.sample (SigningKey.publicKey Crypto.sample (.sample 1)))

def sampleMeasurement : Json :=
  (sealEnvelope Crypto.sample (.sample 1) weightsDomain (.obj [("kind", .str "WEIGHT_ATTESTATION"),
    ("manifest_id", .str "base"), ("artifact_hash", .str sampleCheckpoint), ("size_bytes", .int 1),
    ("binding", .str "declared"), ("engine_fingerprint", .str "fp"), ("attester_node", sampleNode),
    ("measured_at", .int 0)])).toOption.getD .null

/-- A deployment of node 1 whose bundle is the sample measurement. -/
def sampleDeployment : Json :=
  ((do
    let data ← canonical sampleMeasurement
    let env ← sealEnvelope Crypto.sample (.sample 1) deployDomain (.obj [("kind", .str "DEPLOYMENT_MANIFEST"),
      ("node_id", sampleNode), ("operator_domain", .str "d"), ("jurisdiction", .str "j"),
      ("engine_fingerprint", .str "fp"), ("substrates", .obj [("base", .obj
        [("attestation_hash", .str (H_hex Crypto.sample data)), ("artifact_hash", .str sampleCheckpoint),
          ("binding", .str "declared")])]),
      ("adapter_ids", .arr []), ("base_url", .null), ("created_at", .int 0)])
    match env with
    | .obj fields => return .obj (fields ++ ([("attestations", .obj [("base", sampleMeasurement)])] : Dict Str Json))
    | other => return other : Py Json)).toOption.getD .null

def sampleEngine : Engine where
  backend := .str "b"
  fingerprint := .str "fp"

private theorem sample_binds :
    (bindArtifact Crypto.sample sampleManifest sampleEngine .null sampleDeployment).isOk = true := by
  decide +kernel

theorem bound_is_measured_sample :
    ∃ body, Nonempty (SignedManifest Crypto.sample sampleManifest body) ∧
      Nonempty (Measured Crypto.sample body sampleEngine sampleDeployment) := by
  obtain ⟨refs, bound⟩ := Py.exists_of_isOk sample_binds
  exact bound_is_measured bound

end JJDai.Provenance
