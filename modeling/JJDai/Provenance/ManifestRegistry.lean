import JJDai.Provenance.WeightAttestation

/-! `core.manifests`: signed substrate and adapter manifests, the registry that holds them, and the
provenance of a running model. -/

namespace JJDai.Manifests

open PyText Canonical Durable Replication Provenance

def substrateDomain : Bytes := ascii "jjdai/manifest/substrate/v1:"

def adapterDomain : Bytes := ascii "jjdai/manifest/adapter/v1:"

def profiles : List Str := ["A", "B"]

section
variable (crypto : Crypto)

/-- The end of `verify_manifest`, with the domain of the manifest's kind. -/
def checkPublisher (domain : Bytes) (body : Json) (pub sig : Bytes) : Py (Bool × Str) := do
  if (← dotGet body "publisher_node") ≠ .str (canonicalNodeId crypto pub) then
    return (false, "publisher_node does not match public key")
  let data ← canonical body
  if !crypto.verify pub (domain ++ data) sig then return (false, "bad signature")
  return (true, "ok")

def verifyManifest (env : Json) : Py (Bool × Str) :=
  match readEnvelope env with
  | .error e =>
    if e.kind = .keyError ∨ e.kind = .typeError ∨ e.isValueError then return (false, "malformed envelope")
    else .error e
  | .ok (body, pub, sig) => do
    let kind ← dotGet body "kind"
    if kind = .str "SUBSTRATE_MANIFEST" then
      if (← dotGet body "frozen") ≠ .bool true then
        return (false, "substrate manifests must declare frozen=true")
      if (← dotGet body "profile") ∉ profiles.map Json.str then return (false, "unknown profile")
      checkPublisher crypto substrateDomain body pub sig
    else if kind = .str "ADAPTER_MANIFEST" then checkPublisher crypto adapterDomain body pub sig
    else return (false, "unknown kind")

def manifestDigest (env : Json) : Py Str := do
  let data ← canonical (← subscript env "body")
  return H_hex crypto data

end

inductive Table where
  | subs | adps
  deriving DecidableEq

/-- The manifests by their ids, and the publishers that are admitted when they are limited. -/
structure ManifestRegistry where
  allowed : Option (List Str)
  subs : List (Json × Json) := []
  adps : List (Json × Json) := []

namespace ManifestRegistry

/-- A registry without a journal; no publishers and an empty list of them are one. -/
def create (allowedPublishers : List Str) : ManifestRegistry :=
  { allowed := if allowedPublishers = [] then none else some allowedPublishers }

def table (registry : ManifestRegistry) : Table → List (Json × Json)
  | .subs => registry.subs
  | .adps => registry.adps

def withTable (registry : ManifestRegistry) (which : Table) (entries : List (Json × Json)) : ManifestRegistry :=
  match which with
  | .subs => { registry with subs := entries }
  | .adps => { registry with adps := entries }

/-- The manifest of an id, `null` when there is none. -/
def substrate (registry : ManifestRegistry) (substrateId : Str) : Json :=
  (Grouping.lookup Json.comparisonKey (.str substrateId) registry.subs).getD .null

def adapter (registry : ManifestRegistry) (adapterId : Str) : Json :=
  (Grouping.lookup Json.comparisonKey (.str adapterId) registry.adps).getD .null

/-- The table of a manifest's kind, and the manifest's id. -/
def placeOf (b : Json) : Py (Table × Json) := do
  if (← subscript b "kind") = .str "SUBSTRATE_MANIFEST" then return (.subs, ← subscript b "substrate_id")
  else return (.adps, ← subscript b "adapter_id")

/-- `self.allowed is None or publisher in self.allowed`. -/
def admits (registry : ManifestRegistry) (publisher : Json) : Bool :=
  registry.allowed.all (fun names => decide (publisher ∈ names.map Json.str))

variable (crypto : Crypto)

/-- The check of the publisher list on reload; the publisher is read only when there is a list. -/
def checkReloaded (registry : ManifestRegistry) (b : Json) : Py Unit :=
  if registry.allowed.isNone then return ()
  else do
    let publisher ← subscript b "publisher_node"
    if !registry.admits publisher then
      raise .manifestError "manifest journal integrity failure on reload: publisher not in admission list"
    return ()

def loadEntry (registry : ManifestRegistry) (e : Json) : Py ManifestRegistry := do
  let env ← subscript e "env"
  let (ok, reason) ← verifyManifest crypto env
  if !ok then raise .manifestError ("manifest journal integrity failure on reload: " ++ reason)
  let b ← subscript env "body"
  registry.checkReloaded b
  let (which, key) ← placeOf b
  let entries ← pyStore (registry.table which) key env
  return registry.withTable which entries

/-- `ManifestRegistry(path, allowed_publishers)` over the entries of the journal. -/
def load (allowedPublishers : List Str) (entries : List Json) : Py ManifestRegistry :=
  entries.foldlM (loadEntry crypto) (create allowedPublishers)

/-- The registry after the call, its answer, and the record for the journal. -/
def register (registry : ManifestRegistry) (env : Json) : Py (ManifestRegistry × Json × Option Json) := do
  let (ok, reason) ← verifyManifest crypto env
  if !ok then raise .manifestError ("manifest rejected: " ++ reason)
  let b ← subscript env "body"
  let publisher ← subscript b "publisher_node"
  if !registry.admits publisher then
    raise .manifestError ("publisher " ++ pyStr (← pyTake publisher 16) ++ "… not in the admission list " ++
      "(registry fails closed)")
  let (which, key) ← placeOf b
  match ← pyLookup (registry.table which) key with
  | some held =>
    if (← manifestDigest crypto held) = (← manifestDigest crypto env) then return (registry, key, none)
    raise .manifestError (pyStr key ++ " already registered with different content — manifests are immutable; " ++
      "publish a NEW id to supersede")
  | none =>
    let entries ← pyStore (registry.table which) key env
    return (registry.withTable which entries, key, some (.obj [("kind", .str "MANIFEST"), ("env", env)]))

/-- `set(holder["training_data_families"])`. -/
def familiesOf (holder : Json) : Py (List Json) := do
  let listed ← pyList (← subscript holder "training_data_families")
  pySet listed

/-- The loop over the adapters, which collects their data families. -/
def composeAdapters (registry : ManifestRegistry) (substrateId : Str) : List Json → List Str → Py (List Json)
  | families, [] => return families
  | families, aid :: rest => do
    let a := registry.adapter aid
    if a = .null then raise .manifestError ("unknown adapter " ++ pyRepr aid)
    let ab ← subscript a "body"
    let tag ← subscript ab "base_compat_tag"
    if tag ≠ .str substrateId then
      raise .manifestError ("adapter " ++ pyRepr aid ++ " is bound to " ++ reprJson tag ++ ", not " ++
        pyRepr substrateId)
    let more ← familiesOf ab
    let families ← more.foldlM setAdd families
    composeAdapters registry substrateId families rest

/-- Where a model runs, and how that is known. -/
structure Running where
  operatorDomain : Json
  jurisdiction : Json
  deploymentSource : Str
  attestation : Json

/-- The summary of an attestation, if there is any. -/
def attestationOf (ref : Json) : Py Json := do
  if !truthy ref then return .null
  let artifactHash ← subscript ref "artifact_hash"
  let binding ← subscript ref "binding"
  return .obj [("artifact_hash", artifactHash), ("binding", binding)]

/-- Without a deployment, what the caller says; with one, what its signed body says. -/
def running (substrateId : Str) (operatorDomain jurisdiction deployment : Json) : Py Running :=
  if deployment = .null then
    let asserted := operatorDomain ≠ .null ∨ jurisdiction ≠ .null
    return ⟨operatorDomain, jurisdiction, if asserted then "asserted" else "substrate-default", .null⟩
  else do
    let (ok, why) ← verifyDeploymentManifest crypto deployment none
    if !ok then raise .manifestError ("deployment manifest invalid: " ++ why)
    let db ← subscript deployment "body"
    let operatorDomain ← subscript db "operator_domain"
    let jurisdiction ← subscript db "jurisdiction"
    let ref ← dotGet (orDict (← dotGet db "substrates")) substrateId
    let attestation ← attestationOf ref
    return ⟨operatorDomain, jurisdiction, "signed-deployment", attestation⟩

def orSubscript (value holder : Json) (key : Str) : Py Json :=
  if truthy value then return value else subscript holder key

/-- The provenance manifest, once everything it is made of is known. -/
def composed (sb : Json) (modelId substrateId : Str) (adapterIds : List Str) (families : List Json)
    (running : Running) : Py Json := do
  let baseFamily ← subscript (← subscript sb "lineage") "base_family"
  let architectureFamily ← subscript sb "architecture_family"
  let sorted ← pySort (families.map (fun family => (family, family)))
  let operatorDomain ← orSubscript running.operatorDomain sb "operator_domain"
  let jurisdiction ← orSubscript running.jurisdiction sb "jurisdiction"
  return .obj [("kind", .str "PROVENANCE_MANIFEST"), ("model_id", .str modelId), ("substrate_id", .str substrateId),
    ("adapter_ids", .arr ((adapterIds.insertionSort (· ≤ ·)).map Json.str)), ("base_family", baseFamily),
    ("architecture_family", architectureFamily), ("training_data_families", .arr sorted),
    ("operator_domain", operatorDomain), ("jurisdiction", jurisdiction),
    ("deployment_source", .str running.deploymentSource), ("weight_attestation", running.attestation)]

def provenance (registry : ManifestRegistry) (modelId substrateId : Str) (adapterIds : List Str)
    (operatorDomain jurisdiction deployment : Json) : Py Json := do
  let sub := registry.substrate substrateId
  if sub = .null then raise .manifestError ("unknown substrate " ++ pyRepr substrateId)
  let sb ← subscript sub "body"
  let families ← familiesOf (← subscript sb "lineage")
  let families ← registry.composeAdapters substrateId families adapterIds
  let running ← running crypto substrateId operatorDomain jurisdiction deployment
  composed sb modelId substrateId adapterIds families running

end ManifestRegistry

end JJDai.Manifests
