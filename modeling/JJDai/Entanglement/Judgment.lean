import JJDai.Primitive.Builtins
import JJDai.Replication.Store

/-! `core.entanglement`: salts that a node issues and witnesses, and the beacons made of them. -/

namespace JJDai.Entanglement

open PyText Canonical Replication

def saltDomain : Bytes := ascii "jjdai/entangle/salt/v1:"

variable (crypto : Crypto)

/-- The fields of a cross-link, in the salt's body and in its digest. -/
structure CrossLink where
  count : Json
  root : Json
  head : Json

def crossLink (recipientNode : Str) (recipientRoot : Json) : Py (Option CrossLink) := do
  if recipientRoot = .null then return none
  let (ok, why) ← verifySignedRoot crypto recipientRoot
  if !ok then
    raise .entanglementError ("refusing to cross-link an invalid recipient root: " ++ why)
  let rb ← subscript recipientRoot "body"
  if (← subscript rb "node_id") ≠ .str recipientNode then
    raise .entanglementError
      "recipient root is signed by a different node than the salt recipient — refusing the cross-link"
  let count ← subscript rb "count"
  let root ← subscript rb "root"
  let head ← subscript rb "head_hash"
  return some ⟨count, root, head⟩

/-- The body of a salt; `index` and `head` are the issuer's chain before the issuance. -/
def saltBody (issuer recipientNode : Str) (salt : Bytes) (index : Nat) (head : Json) (issuedAt : PyFloat)
    (link : Option CrossLink) : Dict Str Json :=
  ([("kind", .str "SALT_ISSUE"), ("issuer_node", .str issuer), ("recipient_node", .str recipientNode),
    ("salt", .str (toHex salt)), ("salt_hash", .str (H_hex crypto salt)), ("issuer_index", .int index),
    ("issuer_head", head), ("issued_at", .float issuedAt)] : Dict Str Json) ++
  match link with
  | none => []
  | some link =>
    ([("recipient_count", link.count), ("recipient_root", link.root), ("recipient_head", link.head)] :
      Dict Str Json)

def saltDigest (recipientNode : Str) (salt : Bytes) (index : Nat) (head : Json)
    (link : Option CrossLink) : Dict Str Json :=
  ([("recipient_node", .str recipientNode), ("salt_hash", .str (H_hex crypto salt)),
    ("issuer_index", .int index), ("issuer_head", head)] : Dict Str Json) ++
  match link with
  | none => []
  | some link => ([("recipient_count", link.count), ("recipient_root", link.root)] : Dict Str Json)

/-- `SaltBeacon.issue`: the chain with the issuance, and the envelope; `salt` and `issuedAt` stand for
`os.urandom` and the clock. -/
def issue (chain : WitnessChain) (recipientNode : Str) (recipientRoot : Json) (salt : Bytes)
    (issuedAt : PyFloat) : Py (WitnessChain × Json) := do
  let head ← chain.headHash
  let link ← crossLink crypto recipientNode recipientRoot
  let env ← sealEnvelope crypto chain.sk saltDomain
    (.obj (saltBody crypto (chain.nodeId crypto) recipientNode salt chain.nextIndex head issuedAt link))
  let appended ← chain.append crypto {
    kind := "SALT_ISSUE"
    semanticDigest := .obj (saltDigest crypto recipientNode salt chain.nextIndex head link) }
  return (appended.chain, env)

def verifySaltEnvelope (env : Json) : Py (Bool × Str) :=
  match readEnvelope env with
  | .error e =>
    if e.kind = .keyError ∨ e.kind = .typeError ∨ e.isValueError then return (false, "malformed envelope")
    else .error e
  | .ok (body, pub, sig) => do
    if (← dotGet body "kind") ≠ .str "SALT_ISSUE" then return (false, "wrong kind")
    if (← dotGet body "issuer_node") ≠ .str (canonicalNodeId crypto pub) then
      return (false, "issuer_node does not match public key")
    let salt ← bytesFromHex (← getDefault body "salt" (.str []))
    if (← dotGet body "salt_hash") ≠ .str (H_hex crypto salt) then return (false, "salt hash mismatch")
    let data ← canonical body
    if !crypto.verify pub (saltDomain ++ data) sig then return (false, "bad signature")
    return (true, "ok")

def beaconEntry (b env : Json) : Py Json := do
  let issuer ← subscript b "issuer_node"
  let index ← subscript b "issuer_index"
  let head ← subscript b "issuer_head"
  let saltHash ← subscript b "salt_hash"
  let issuedAt ← subscript b "issued_at"
  let entry : Dict Str Json :=
    [("issuer_node", issuer), ("issuer_index", index), ("issuer_head", head), ("salt_hash", saltHash),
      ("issued_at", issuedAt), ("envelope", env)]
  if ← pyContains "recipient_count" b then
    let count ← subscript b "recipient_count"
    let root ← subscript b "recipient_root"
    return .obj (entry ++ ([("recipient_count", count), ("recipient_root", root)] : Dict Str Json))
  return .obj entry

/-- One turn of the loop of `beacon_from`: the entry, and when its salt was issued. -/
def beaconSalt (recipientNode : Option Str) (env : Json) : Py (Json × Json) := do
  let (ok, why) ← verifySaltEnvelope crypto env
  if !ok then raise .entanglementError ("refusing bad salt envelope: " ++ why)
  let b ← subscript env "body"
  if let some node := recipientNode then
    let recipient ← subscript b "recipient_node"
    if recipient ≠ .str node then
      raise .entanglementError ("salt was issued to " ++ (pyStr recipient).take 16 ++
        "…, not to this node — refusing a salt bound to another recipient")
  let entry ← beaconEntry b env
  let issuedAt ← subscript b "issued_at"
  return (entry, issuedAt)

/-- The issuer an entry names; `verifySaltEnvelope` has made it a string. -/
def entryIssuer (entry : Json) : Str :=
  match subscript entry "issuer_node" with
  | .ok (.str issuer) => issuer
  | _ => []

/-- `beacon_from`; `takenAt` stands for the clock. -/
def beaconFrom (envs : List Json) (recipientNode : Option Str) (takenAt : PyFloat) : Py Json := do
  let salts ← envs.mapM (beaconSalt crypto recipientNode)
  match salts with
  | [] => raise .entanglementError "beacon requires at least one salt"
  | first :: rest =>
    let minIssued ← pyMin first.2 (rest.map Prod.snd)
    let entries := salts.map Prod.fst
    return .obj [("kind", .str "ENTANGLEMENT_BEACON"),
      ("salts", .arr (entries.insertionSort (fun a b => entryIssuer a ≤ entryIssuer b))),
      ("distinct_issuers", .int (entries.map entryIssuer).dedup.length), ("min_issued_at", minIssued),
      ("taken_at", .float takenAt)]

end JJDai.Entanglement

/-! `core.entanglement`: which of two histories of one origin embeds salts that are too young. -/

namespace JJDai.Entanglement

open PyText Canonical Replication

variable (crypto : Crypto)

/-- The claimed head against the record before the issuance. -/
def headMatches (recs s idx : Json) : Py Bool := do
  if !(← natLess 0 idx) then return true
  match asInt? idx with
  | none => raise .typeError
  | some i =>
    let prevHead ← subscript (← pyIndex recs (.int (i - 1))) "this_hash"
    return decide (Json.pyEq (← subscript s "issuer_head") prevHead)

/-- `verify_beacon_against_issuer` once the envelope is verified. -/
def checkIssuance (recs s : Json) : Py (Bool × Str) := do
  let idx ← subscript s "issuer_index"
  let length ← pyLen recs
  if ← atLeastNat idx length then
    return (false, "issuer chain has " ++ natText length ++ " record(s); issuance claims index " ++
      pyStr idx ++ " — salt not witnessed (yet?)")
  let rec ← pyIndex recs idx
  let kind ← dotGet rec "kind"
  if kind ≠ .str "SALT_ISSUE" then
    return (false, "issuer record " ++ pyStr idx ++ " is " ++ reprJson kind ++ ", not SALT_ISSUE")
  let dig ← dotGet rec "semantic_digest"
  let saltHash ← dotGet (orDict dig) "salt_hash"
  if ¬Json.pyEq saltHash (← subscript s "salt_hash") then
    return (false, "issuer record does not witness this salt")
  if !(← headMatches recs s idx) then
    return (false, "claimed issuer head does not match issuer chain")
  return (true, "ok")

def verifyBeaconAgainstIssuer (beacon issuerExport : Json) : Py (Bool × Str) := do
  let issuerId ← dotGet issuerExport "node_id"
  let recs ← getDefault issuerExport "records" (.arr [])
  let salts ← pyList (← getDefault beacon "salts" (.arr []))
  let matching ← salts.filterM (fun s => do
    let node ← subscript s "issuer_node"
    return decide (Json.pyEq node issuerId))
  match matching with
  | [] => return (false, "beacon carries no salt from this issuer")
  | s :: _ =>
    let env ← subscript s "envelope"
    let (ok, why) ← verifySaltEnvelope crypto env
    if !ok then return (false, "salt envelope invalid: " ++ why)
    checkIssuance recs s

/-- The two kinds of records that witness a root. -/
inductive Via where
  | peerRoot | saltIssue
  deriving DecidableEq

namespace Via

def kind : Via → Str
  | peerRoot => "PEER_ROOT"
  | saltIssue => "SALT_ISSUE"

def node : Via → Str
  | peerRoot => "origin"
  | saltIssue => "recipient_node"

def count : Via → Str
  | peerRoot => "count"
  | saltIssue => "recipient_count"

def root : Via → Str
  | peerRoot => "root"
  | saltIssue => "recipient_root"

/-- The count at which a record witnesses the origin's chain, from `minCount` on. -/
def witnessed (via : Via) (rec dig origin : Json) (minCount : Int) (wanted : Json) :
    Py (Option Json) := do
  if (← dotGet rec "kind") ≠ .str via.kind then return none
  if ¬Json.pyEq (← dotGet dig via.node) origin then return none
  let count ← dotGet dig via.count
  match asInt? count with
  | none => return none
  | some n =>
    if n < minCount then return none
    if wanted = .null then return some count
    if ¬Json.pyEq (← dotGet dig via.root) wanted then return none
    return some count

end Via

structure Checkpoint where
  index : Nat
  record : Json
  via : Via
  witnessedCount : Json

/-- The loop of `find_issuer_checkpoint` from record `i` on. -/
def findFrom (origin : Json) (minCount : Int) (root : Json) : Nat → List Json → Py (Option Checkpoint)
  | _, [] => return none
  | i, rec :: rest => do
    let dig := orDict (← dotGet rec "semantic_digest")
    match ← Via.peerRoot.witnessed rec dig origin minCount root with
    | some count => return some ⟨i, rec, .peerRoot, count⟩
    | none =>
      match ← Via.saltIssue.witnessed rec dig origin minCount root with
      | some count => return some ⟨i, rec, .saltIssue, count⟩
      | none => findFrom origin minCount root (i + 1) rest

def findIssuerCheckpoint (issuerExport origin : Json) (minCount : Int) (root : Json) :
    Py (Option Checkpoint) := do
  let records ← pyList (← getDefault issuerExport "records" (.arr []))
  findFrom origin minCount root 0 records

structure ProvenRewrite where
  recordIndex : Json
  recordHash : Json
  saltHash : Json
  saltIssuerIndex : Json
  checkpoint : Checkpoint

inductive Side where
  | a | b
  deriving DecidableEq

abbrev Verdict := Option Side

inductive Confidence where
  | cryptographic (proof : List ProvenRewrite) (checkpoint : Checkpoint) (agreedRootEnv : Json)
  | evidential

structure Judgment where
  anachronistic : Verdict
  confidence : Confidence
  maxIssuerIndex : Option Json × Option Json
  agreedCount : Int
  issuerNode : Json

def Judgment.isCryptographic (judgment : Judgment) : Bool :=
  match judgment.confidence with
  | .cryptographic _ _ _ => true
  | .evidential => false

/-- The checkpoint of the agreed root, when that is a valid root at the agreed count. -/
def agreedCheckpoint (issuerExport : Json) (agreedCount : Int) (agreedRootEnv : Json) :
    Py (Option Checkpoint) := do
  if agreedRootEnv = .null then return none
  let (ok, _) ← verifySignedRoot crypto agreedRootEnv
  let rb ← getDefault agreedRootEnv "body" (.obj [])
  if !ok then return none
  let count ← dotGet rb "count"
  if ¬Json.pyEq count (.int agreedCount) then return none
  let origin ← subscript rb "node_id"
  let root ← dotGet rb "root"
  findIssuerCheckpoint issuerExport origin agreedCount root

structure Scan where
  best : Option Json := none
  proven : List ProvenRewrite := []

/-- The larger of the best index and a further one. -/
def raiseBest (best : Option Json) (index : Json) : Py (Option Json) := do
  match best with
  | none => return some index
  | some old => if ← pyLess old index then return some index else return some old

def provenRewrite (rec s index : Json) (checkpoint : Checkpoint) : Py ProvenRewrite := do
  let recordIndex ← dotGet rec "index"
  let recordHash ← dotGet rec "this_hash"
  let saltHash ← subscript s "salt_hash"
  return ⟨recordIndex, recordHash, saltHash, index, checkpoint⟩

def scanSalt (issuerExport issuerId : Json) (checkpoint : Option Checkpoint) (rec : Json) (scan : Scan)
    (s : Json) : Py Scan := do
  let node ← subscript s "issuer_node"
  if ¬Json.pyEq node issuerId then return scan
  let (ok, _) ← verifyBeaconAgainstIssuer crypto (.obj [("salts", .arr [s])]) issuerExport
  if !ok then return scan
  let index ← subscript s "issuer_index"
  let best ← raiseBest scan.best index
  match checkpoint with
  | none => return { scan with best }
  | some checkpoint =>
    if ← natLess checkpoint.index index then
      let proof ← provenRewrite rec s index checkpoint
      return ⟨best, scan.proven ++ [proof]⟩
    else return { scan with best }

def beaconSalts (rec : Json) : Py (List Json) := do
  let beacon ← dotGet rec "entanglement"
  if !truthy beacon then return []
  pyList (← getDefault beacon "salts" (.arr []))

def scanRecord (issuerExport issuerId : Json) (checkpoint : Option Checkpoint) (scan : Scan) (rec : Json) :
    Py Scan := do
  let salts ← beaconSalts rec
  salts.foldlM (scanSalt crypto issuerExport issuerId checkpoint rec) scan

/-- `chain.get("records", [])[:agreed_count]`. -/
def agreedRecords (chain : Json) (agreedCount : Int) : Py (List Json) := do
  pyList (← pyTake (← getDefault chain "records" (.arr [])) agreedCount)

def scanChain (issuerExport issuerId : Json) (checkpoint : Option Checkpoint) (agreedCount : Int)
    (chain : Json) : Py Scan := do
  let records ← agreedRecords chain agreedCount
  records.foldlM (scanRecord crypto issuerExport issuerId checkpoint) {}

/-- The fallback: the side with the larger index. -/
def younger : Option Json → Option Json → Py Verdict
  | some a, some b => do
    if Json.pyEq a b then return none
    if ← pyLess b a then return some .a else return some .b
  | _, _ => return none

def judgeDivergence (chainA chainB issuerExport : Json) (agreedCount : Int) (agreedRootEnv : Json) :
    Py Judgment := do
  let issuerId ← dotGet issuerExport "node_id"
  let checkpoint ← agreedCheckpoint crypto issuerExport agreedCount agreedRootEnv
  let a ← scanChain crypto issuerExport issuerId checkpoint agreedCount chainA
  let b ← scanChain crypto issuerExport issuerId checkpoint agreedCount chainB
  let judged (anachronistic : Verdict) (confidence : Confidence) : Judgment :=
    { anachronistic, confidence, maxIssuerIndex := (a.best, b.best), agreedCount, issuerNode := issuerId }
  match checkpoint, a.proven, b.proven with
  | some checkpoint, proof :: more, [] =>
    return judged (some .a) (.cryptographic (proof :: more) checkpoint agreedRootEnv)
  | some checkpoint, [], proof :: more =>
    return judged (some .b) (.cryptographic (proof :: more) checkpoint agreedRootEnv)
  | _, _, _ =>
    let verdict ← younger a.best b.best
    return judged verdict .evidential

end JJDai.Entanglement
