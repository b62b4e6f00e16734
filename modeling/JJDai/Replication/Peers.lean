import JJDai.Replication.Store

/-! `core.peers`: the registry of admitted nodes. -/

namespace JJDai.Replication

open PyText Canonical

variable (crypto : Crypto)

def peerDomain : Bytes := ascii "jjdai/peers/record/v1:"

def admitDomain : Bytes := ascii "jjdai/peers/admission/v1:"

def statuses : List Str := ["active", "suspended"]

def getOrDict (j : Json) (key : Str) : Py Json :=
  match j with
  | .obj fields => return (Dict.get? fields key).getD (.obj [])
  | _ => raise .attributeError

def readBundle (rec adm : Json) : Py ((Json × Bytes × Bytes) × (Json × Bytes × Bytes)) := do
  let record ← readEnvelope rec
  let admission ← readEnvelope adm
  return (record, admission)

def verifyAdmittedRecord (bundle : Json) (admissionKeys : List Str) : Py (Bool × Str) := do
  let rec_ ← getOrDict bundle "record"
  let adm ← getOrDict bundle "admission"
  match readBundle rec_ adm with
  | .error e =>
    if e.kind = .keyError ∨ e.kind = .typeError ∨ e.isValueError then
      return (false, "malformed bundle")
    else .error e
  | .ok ((rb, rpub, rsig), (ab, apub, asig)) =>
    if (← dotGet rb "kind") ≠ .str "PEER_RECORD" then return (false, "wrong kind")
    if (← dotGet ab "kind") ≠ .str "PEER_ADMISSION" then return (false, "wrong kind")
    let nid := canonicalNodeId crypto rpub
    if (← dotGet rb "node_id") ≠ .str nid then
      return (false, "peer node_id does not match its key")
    let recordText ← canonical rb
    if !crypto.verify rpub (peerDomain ++ recordText) rsig then
      return (false, "bad peer signature")
    let authority := canonicalNodeId crypto apub
    if (← dotGet ab "admitted_by") ≠ .str authority then
      return (false, "admitted_by does not match admission key")
    if authority ∉ admissionKeys then
      return (false, "admission authority not recognized (fail closed)")
    if (← dotGet ab "peer_node") ≠ .str nid then
      return (false, "admission names a different peer")
    if (← dotGet ab "record_digest") ≠ .str (H_hex crypto recordText) then
      return (false, "admission does not cover this exact record")
    let admissionText ← canonical ab
    if !crypto.verify apub (admitDomain ++ admissionText) asig then
      return (false, "bad admission signature")
    return (true, "ok")

structure PeerRegistry where
  peers : Dict Str Json := []
  status : Dict Str Json := []

structure PeerOutcome where
  registry : PeerRegistry
  line : Option Json

def admittedLine (bundle : Json) : Json := .obj [("kind", .str "PEER_ADMITTED"), ("bundle", bundle)]

def statusLine (nid status : Str) : Json :=
  .obj [("kind", .str "PEER_STATUS"), ("node_id", .str nid), ("status", .str status)]

def bundleNode (bundle : Json) : Py Str := do
  originKey (← subscript (← subscript (← subscript bundle "record") "body") "node_id")

namespace PeerRegistry

def register (registry : PeerRegistry) (admissionKeys : List Str) (bundle : Json) :
    Py PeerOutcome := do
  let (ok, reason) ← verifyAdmittedRecord crypto bundle admissionKeys
  if !ok then raise .peerError ("peer refused: " ++ reason)
  let nid ← bundleNode bundle
  let already := (Dict.get? registry.peers nid).isSome
  let registry := { registry with peers := Dict.set registry.peers nid bundle }
  if already then return ⟨registry, none⟩
  return ⟨{ registry with status := Dict.set registry.status nid (.str "active") },
    some (admittedLine bundle)⟩

def setStatus (registry : PeerRegistry) (nid status : Str) : Py PeerOutcome := do
  if status ∉ statuses then raise .peerError ("unknown status " ++ pyRepr status)
  if (Dict.get? registry.peers nid).isNone then raise .peerError ("unknown peer " ++ pyRepr nid)
  return ⟨{ registry with status := Dict.set registry.status nid (.str status) },
    some (statusLine nid status)⟩

/-- `is_friend` of any JSON value; an unhashable one raises. -/
def isFriend (registry : PeerRegistry) : Json → Py Bool
  | .str nid => return Dict.get? registry.status nid = some (.str "active")
  | .arr _ => raise .typeError
  | .obj _ => raise .typeError
  | _ => return false

/-- One round of the loop in `__init__`: a persisted bundle is verified again. -/
def loadEntry (admissionKeys : List Str) (registry : PeerRegistry) (e : Json) : Py PeerRegistry := do
  let kind ← dotGet e "kind"
  if kind = .str "PEER_ADMITTED" then
    let bundle ← subscript e "bundle"
    let (ok, reason) ← verifyAdmittedRecord crypto bundle admissionKeys
    if !ok then raise .peerError ("peer journal integrity failure on reload: " ++ reason)
    let nid ← bundleNode bundle
    return ⟨Dict.set registry.peers nid bundle, Dict.set registry.status nid (.str "active")⟩
  else if kind = .str "PEER_STATUS" then
    let nid ← originKey (← subscript e "node_id")
    if (Dict.get? registry.peers nid).isSome then
      let status ← subscript e "status"
      return { registry with status := Dict.set registry.status nid status }
    else return registry
  else return registry

/-- `PeerRegistry(path, admission_keys)` over the entries of the journal. -/
def load (admissionKeys : List Str) (entries : List Json) : Py PeerRegistry :=
  entries.foldlM (loadEntry crypto admissionKeys) {}

end PeerRegistry

end JJDai.Replication
