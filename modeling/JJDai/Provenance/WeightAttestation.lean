import JJDai.Replication.Session
import JJDai.Primitive.Collections

/-! `core.attestation`: signed measurements of weights, and the signed description of a
deployment that carries them. -/

namespace JJDai.Provenance

open PyText Canonical Durable Replication

def weightsDomain : Bytes := ascii "jjdai/attest/weights/v1:"

def deployDomain : Bytes := ascii "jjdai/attest/deployment/v1:"

def isContentAddress : Json → Bool
  | .str s => List.isPrefixOf (Str.ofString "sha256:") s && (s.drop 7).length == 64 && (s.drop 7).all isLowerHex
  | _ => false

def nonblank : Json → Bool
  | .str s => hasText s
  | _ => false

def pyItems : Json → Py (Dict Str Json)
  | .obj fields => return fields
  | _ => raise .attributeError

theorem pyItems_ok {value : Json} {fields : Dict Str Json} (listed : pyItems value = .ok fields) :
    value = .obj fields := by
  cases value with
  | obj inner => exact congrArg Json.obj (Except.ok.inj listed)
  | _ => cases listed

def isMapping : Json → Bool
  | .obj _ => true
  | _ => false

variable (crypto : Crypto)

/-- A content-addressed id carries a content binding to itself. -/
def contentBound (body : Json) : Py Bool := do
  if !isContentAddress (← getDefault body "manifest_id" (.str [])) then return true
  if (← subscript body "binding") ≠ .str "content" then return false
  let measured ← dotGet body "artifact_hash"
  return decide (Json.pyEq measured (← subscript body "manifest_id"))

def verifyWeightAttestation (env : Json) (manifestId : Option Str) (expectedHash : Json) : Py (Bool × Str) :=
  match readEnvelope env with
  | .error e =>
    if e.kind = .keyError ∨ e.kind = .typeError ∨ e.isValueError then return (false, "malformed envelope")
    else .error e
  | .ok (body, pub, sig) => do
    if (← dotGet body "kind") ≠ .str "WEIGHT_ATTESTATION" then return (false, "wrong kind")
    if (← dotGet body "attester_node") ≠ .str (canonicalNodeId crypto pub) then
      return (false, "attester_node does not match public key")
    let data ← canonical body
    if !crypto.verify pub (weightsDomain ++ data) sig then return (false, "bad signature")
    let binding ← dotGet body "binding"
    if binding ≠ .str "content" ∧ binding ≠ .str "declared" then return (false, "unknown binding class")
    if !(← contentBound body) then
      return (false, "content-addressed manifest id must carry a matching content binding")
    let named ← dotGet body "manifest_id"
    if manifestId.any (fun sid => named ≠ .str sid) then return (false, "attests a different manifest")
    let measured ← dotGet body "artifact_hash"
    if expectedHash ≠ .null ∧ ¬Json.pyEq measured expectedHash then
      return (false, "attests a different artifact")
    return (true, "ok")

/-- One turn of the loop of `verify_deployment_manifest`. -/
def checkSubstrate (body atts : Json) (sid : Str) (ref : Json) : Py (Bool × Str) := do
  let att ← dotGet atts sid
  if att = .null then return (false, "attestation for " ++ pyRepr sid ++ " missing from the bundle")
  let data ← canonical att
  if (← dotGet ref "attestation_hash") ≠ .str (H_hex crypto data) then
    return (false, "attestation for " ++ pyRepr sid ++ " does not match the signed hash")
  let expected ← dotGet ref "artifact_hash"
  let (ok, why) ← verifyWeightAttestation crypto att (some sid) expected
  if !ok then return (false, "attestation for " ++ pyRepr sid ++ " invalid: " ++ why)
  let ab ← subscript att "body"
  let attester ← dotGet ab "attester_node"
  if ¬Json.pyEq attester (← dotGet body "node_id") then
    return (false, "attestation for " ++ pyRepr sid ++ " was signed by " ++ reprJson attester ++
      ", not by the node this deployment describes")
  let engine ← dotGet ab "engine_fingerprint"
  let declared ← dotGet body "engine_fingerprint"
  if ¬Json.pyEq engine declared then
    return (false, "attestation for " ++ pyRepr sid ++ " was taken under engine " ++ reprJson engine ++
      " while the deployment declares " ++ reprJson declared)
  return (true, "ok")

def checkSubstrates (body atts : Json) : Dict Str Json → Py (Bool × Str)
  | [] => return (true, "ok")
  | (sid, ref) :: rest => do
    let (ok, why) ← checkSubstrate crypto body atts sid ref
    if !ok then return (false, why)
    checkSubstrates body atts rest

def verifyDeploymentManifest (env : Json) (nodeId : Option Str) : Py (Bool × Str) :=
  match readEnvelope env with
  | .error e =>
    if e.kind = .keyError ∨ e.kind = .typeError ∨ e.isValueError then return (false, "malformed envelope")
    else .error e
  | .ok (body, pub, sig) => do
    if (← dotGet body "kind") ≠ .str "DEPLOYMENT_MANIFEST" then return (false, "wrong kind")
    if !nonblank (← dotGet body "engine_fingerprint") then return (false, "names no engine fingerprint")
    let node ← dotGet body "node_id"
    if !nonblank node then return (false, "names no node")
    if node ≠ .str (canonicalNodeId crypto pub) then return (false, "node_id does not match public key")
    if nodeId.any (fun other => node ≠ .str other) then return (false, "describes a different node")
    let data ← canonical body
    if !crypto.verify pub (deployDomain ++ data) sig then return (false, "bad signature")
    let atts ← dotGet env "attestations"
    let substrates ← pyItems (orDict (← dotGet body "substrates"))
    checkSubstrates crypto body (orDict atts) substrates

/-- A measurement that verifies under its own key. -/
structure SignedMeasurement (att : Json) where
  body : Json
  pub : Bytes
  sig : Bytes
  data : Bytes
  read : readEnvelope att = .ok (body, pub, sig)
  attester : dotGet body "attester_node" = .ok (.str (canonicalNodeId crypto pub))
  text : canonical body = .ok data
  verified : crypto.verify pub (weightsDomain ++ data) sig = true

/-- A deployment body that verifies under the key its node id is derived from. -/
structure SignedDeployment (env : Json) where
  body : Json
  pub : Bytes
  sig : Bytes
  data : Bytes
  read : readEnvelope env = .ok (body, pub, sig)
  node : dotGet body "node_id" = .ok (.str (canonicalNodeId crypto pub))
  text : canonical body = .ok data
  verified : crypto.verify pub (deployDomain ++ data) sig = true

variable {crypto} {env att body atts ref : Json} {sid why : Str}

theorem measurement_of_verifies {manifestId : Option Str} {expected : Json}
    (accepted : verifyWeightAttestation crypto att manifestId expected = .ok (true, why)) :
    ∃ measurement : SignedMeasurement crypto att, ∃ measured,
      dotGet measurement.body "artifact_hash" = .ok measured ∧
      (expected ≠ .null → Json.pyEq measured expected) ∧
      ∀ sid, manifestId = some sid → dotGet measurement.body "manifest_id" = .ok (.str sid) := by
  unfold verifyWeightAttestation at accepted
  cases read : readEnvelope att with
  | error e =>
    simp only [read] at accepted
    split at accepted <;> cases accepted
  | ok parts =>
    obtain ⟨body, pub, sig⟩ := parts
    simp only [read, bind, Py.bind_ok, guard_ok] at accepted
    obtain ⟨_, _, _, attester, attesterRead, same, data, text, verified, _, _, _, _, _, _, named, namedRead, about,
      measured, measuredRead, expects, _⟩ := accepted
    refine ⟨{
      body, pub, sig, data, read, text
      attester := attesterRead.trans (congrArg Except.ok (not_not.mp same))
      verified := by simpa using verified }, measured, measuredRead, ?_, ?_⟩
    · intro given
      by_contra different
      exact expects ⟨given, different⟩
    · rintro sid rfl
      exact namedRead.trans (congrArg Except.ok (by simpa using about))

/-- What a substrate that passes is bound to. -/
structure Carried (crypto : Crypto) (body atts : Json) (sid : Str) (ref att : Json) where
  found : dotGet atts sid = .ok att
  data : Bytes
  text : canonical att = .ok data
  committed : dotGet ref "attestation_hash" = .ok (.str (H_hex crypto data))
  measurement : SignedMeasurement crypto att
  measured : Json
  measuredRead : dotGet measurement.body "artifact_hash" = .ok measured
  expected : Json
  expectedRead : dotGet ref "artifact_hash" = .ok expected
  matching : expected ≠ .null → Json.pyEq measured expected
  node : Json
  nodeRead : dotGet body "node_id" = .ok node
  attested : Json.pyEq (.str (canonicalNodeId crypto measurement.pub)) node

theorem carried_of_passes (passes : checkSubstrate crypto body atts sid ref = .ok (true, why)) :
    ∃ att, ∃ carried : Carried crypto body atts sid ref att,
      dotGet carried.measurement.body "manifest_id" = .ok (.str sid) ∧
      ∃ engine declared, dotGet carried.measurement.body "engine_fingerprint" = .ok engine ∧
        dotGet body "engine_fingerprint" = .ok declared ∧ Json.pyEq engine declared := by
  simp only [checkSubstrate, bind, Py.bind_ok, guard_ok] at passes
  obtain ⟨att, found, _, data, text, committed, committedRead, same, expected, expectedRead, ⟨ok, reason⟩,
    verified, passed, ab, abRead, attester, attesterRead, node, nodeRead, attested, engine, engineRead, declared,
    declaredRead, running, _⟩ := passes
  obtain rfl : ok = true := by simpa using passed
  obtain ⟨measurement, measured, measuredRead, matching, named⟩ := measurement_of_verifies verified
  have bodies := subscript_of_readEnvelope measurement.read
  obtain rfl := Except.ok.inj (abRead.symm.trans bodies)
  obtain rfl := Except.ok.inj (attesterRead.symm.trans measurement.attester)
  exact ⟨att, {
    found, data, text, measurement, measured, measuredRead, expected, expectedRead, matching, node, nodeRead
    committed := committedRead.trans (congrArg Except.ok (not_not.mp same))
    attested := not_not.mp attested },
    named sid rfl, engine, declared, engineRead, declaredRead, not_not.mp running⟩

theorem checkSubstrates_ok {substrates : Dict Str Json}
    (passes : checkSubstrates crypto body atts substrates = .ok (true, why)) :
    ∀ entry ∈ substrates, ∃ reason, checkSubstrate crypto body atts entry.1 entry.2 = .ok (true, reason) := by
  induction substrates with
  | nil => simp
  | cons entry rest ih =>
    obtain ⟨sid, ref⟩ := entry
    simp only [checkSubstrates, bind, Py.bind_ok] at passes
    obtain ⟨⟨ok, reason⟩, first, passes⟩ := passes
    rw [guard_ok] at passes
    obtain ⟨passed, later⟩ := passes
    obtain rfl : ok = true := by simpa using passed
    intro other member
    rcases List.mem_cons.mp member with rfl | inside
    · exact ⟨reason, first⟩
    · exact ih later other inside

theorem deployment_of_verifies {nodeId : Option Str}
    (accepted : verifyDeploymentManifest crypto env nodeId = .ok (true, why)) :
    ∃ deployment : SignedDeployment crypto env, ∃ listed bundle,
      dotGet deployment.body "substrates" = .ok listed ∧ dotGet env "attestations" = .ok bundle ∧
      ∃ entries, orDict listed = .obj entries ∧ ∀ entry ∈ entries, ∃ reason,
        checkSubstrate crypto deployment.body (orDict bundle) entry.1 entry.2 = .ok (true, reason) := by
  unfold verifyDeploymentManifest at accepted
  cases read : readEnvelope env with
  | error e =>
    simp only [read] at accepted
    split at accepted <;> cases accepted
  | ok parts =>
    obtain ⟨body, pub, sig⟩ := parts
    simp only [read, bind, Py.bind_ok, guard_ok] at accepted
    obtain ⟨_, _, _, _, _, _, node, nodeRead, _, same, _, data, text, verified, bundle, bundled, listed,
      listedRead, entries, itemized, passes⟩ := accepted
    refine ⟨{
      body, pub, sig, data, read, text
      node := nodeRead.trans (congrArg Except.ok (not_not.mp same))
      verified := by simpa using verified }, listed, bundle, listedRead, bundled, entries, pyItems_ok itemized,
      checkSubstrates_ok passes⟩

end JJDai.Provenance

/-! `core.attestation.AttestationStore`: the journal of weight attestations and deployment manifests. -/

namespace JJDai.Provenance

open PyText Canonical Durable Replication

inductive RecordKind where
  | weight | deployment
  deriving DecidableEq

def RecordKind.text : RecordKind → Str
  | .weight => "WEIGHT_ATTESTATION_REC"
  | .deployment => "DEPLOYMENT_MANIFEST_REC"

def persisted (kind : RecordKind) (env : Json) : Json := .obj [("kind", .str kind.text), ("env", env)]

/-- The envelopes by manifest id and by node id. -/
structure AttestationStore where
  weights : List (Json × Json) := []
  deployments : List (Json × Json) := []

namespace AttestationStore

def idIn (env : Json) (key : Str) : Py Json := do
  let body ← subscript env "body"
  subscript body key

variable (crypto : Crypto)

def loadEntry (store : AttestationStore) (e : Json) : Py AttestationStore := do
  let kind ← dotGet e "kind"
  if kind = .str RecordKind.weight.text then
    let env ← subscript e "env"
    let (ok, why) ← verifyWeightAttestation crypto env none .null
    if !ok then raise .attestationError ("attestation journal integrity failure: " ++ why)
    let weights ← pyStore store.weights (← idIn env "manifest_id") env
    return { store with weights }
  else if kind = .str RecordKind.deployment.text then
    let env ← subscript e "env"
    let (ok, why) ← verifyDeploymentManifest crypto env none
    if !ok then raise .attestationError ("deployment journal integrity failure: " ++ why)
    let deployments ← pyStore store.deployments (← idIn env "node_id") env
    return { store with deployments }
  else return store

/-- `AttestationStore(path)` over the entries of the journal. -/
def load (entries : List Json) : Py AttestationStore := entries.foldlM (loadEntry crypto) {}

/-- The store after the call, its answer, and the record for the journal. -/
def holdWeight (store : AttestationStore) (env : Json) : Py (AttestationStore × Json × Option Json) := do
  let (ok, why) ← verifyWeightAttestation crypto env none .null
  if !ok then raise .attestationError ("attestation rejected: " ++ why)
  let mid ← idIn env "manifest_id"
  match ← pyLookup store.weights mid with
  | some held =>
    let before ← idIn held "artifact_hash"
    let offered ← idIn env "artifact_hash"
    if ¬Json.pyEq before offered then
      raise .attestationError (reprJson mid ++ " already attested with hash " ++ pyStr before ++
        " — a differing re-attestation is a governance event, not an update")
    return (store, mid, none)
  | none =>
    let weights ← pyStore store.weights mid env
    return ({ store with weights }, mid, some (persisted .weight env))

def holdDeployment (store : AttestationStore) (env : Json) : Py (AttestationStore × Json × Option Json) := do
  let (ok, why) ← verifyDeploymentManifest crypto env none
  if !ok then raise .attestationError ("deployment manifest rejected: " ++ why)
  let nid ← idIn env "node_id"
  let deployments ← pyStore store.deployments nid env
  return ({ store with deployments }, nid, some (persisted .deployment env))

/-- The call that writes a record of the kind. -/
def hold (store : AttestationStore) (kind : RecordKind) (env : Json) : Py (AttestationStore × Json × Option Json) :=
  match kind with
  | .weight => store.holdWeight crypto env
  | .deployment => store.holdDeployment crypto env

def weight (store : AttestationStore) (manifestId : Json) : Py (Option Json) := pyLookup store.weights manifestId

def deployment (store : AttestationStore) (nodeId : Json) : Py (Option Json) := pyLookup store.deployments nodeId

end AttestationStore

end JJDai.Provenance
