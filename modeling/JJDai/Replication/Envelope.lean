import JJDai.Primitive.Consistency
import JJDai.Primitive.Witness

/-! `core.replication`, the signed envelopes: roots, consistency claims and
acknowledgements, made and verified offline. -/

namespace JJDai.Replication

open PyText Canonical Merkle

variable (crypto : Crypto)

def rootDomain : Bytes := ascii "jjdai/replication/root/v1:"

def ackDomain : Bytes := ascii "jjdai/replication/ack/v1:"

def consDomain : Bytes := ascii "jjdai/replication/consistency/v1:"

def chainLeaves (chain : WitnessChain) : Py (List Bytes) :=
  chain.records.mapM (fun record => do
    match ← subscript record "this_hash" with
    | .str hash => encode hash
    | _ => raise .attributeError)

def chainRoot (chain : WitnessChain) : Py Json := do
  let leaves ← chainLeaves chain
  mthRoot crypto leaves

/-- The envelope of a body: its canonical text is signed under a domain. -/
def sealEnvelope (sk : SigningKey) (domain : Bytes) (body : Json) : Py Json := do
  let data ← canonical body
  return .obj [("body", body), ("pub", .str (toHex (sk.publicKey crypto))),
    ("sig", .str (toHex (sk.sign crypto (domain ++ data))))]

/-- `make_signed_root` after its three reads of the chain. -/
def rootBody (nodeId : Str) (count : Nat) (headHash root : Json) (ts : PyFloat) : Json :=
  .obj [("kind", .str "WITNESS_ROOT"), ("node_id", .str nodeId), ("count", .int count),
    ("head_hash", headHash), ("root", root), ("root_alg", .str "rfc6962"), ("ts", .float ts)]

def makeSignedRoot (chain : WitnessChain) (sk : SigningKey) (ts : PyFloat) : Py Json := do
  let headHash ← chain.headHash
  let root ← chainRoot crypto chain
  sealEnvelope crypto sk rootDomain
    (rootBody (chain.nodeId crypto) chain.records.length headHash root ts)

def consistencyBody (nodeId : Str) (oldCount : Int) (oldRoot : Json) (newCount : Nat)
    (newRoot : Json) (proof : List Json) (ts : PyFloat) : Json :=
  .obj [("kind", .str "WITNESS_CONSISTENCY"), ("node_id", .str nodeId),
    ("old_count", .int oldCount), ("old_root", oldRoot), ("new_count", .int newCount),
    ("new_root", newRoot), ("proof", .arr proof), ("ts", .float ts)]

def makeConsistency (chain : WitnessChain) (sk : SigningKey) (oldCount : Int) (ts : PyFloat) :
    Py Json := do
  let leaves ← chainLeaves chain
  if ¬(0 < oldCount ∧ oldCount ≤ leaves.length) then
    raise .replicationError ("consistency: old_count " ++ intText oldCount ++ " outside (0, " ++
      natText leaves.length ++ "]")
  let oldRoot ← mthRoot crypto (leaves.take oldCount.toNat)
  let newRoot ← mthRoot crypto leaves
  let proof ← consistencyProof crypto leaves oldCount
  sealEnvelope crypto sk consDomain
    (consistencyBody (chain.nodeId crypto) oldCount oldRoot leaves.length newRoot proof ts)

def makeAck (rootEnv : Json) (sk : SigningKey) (ts : PyFloat) : Py Json := do
  let b ← subscript rootEnv "body"
  let origin ← subscript b "node_id"
  let count ← subscript b "count"
  let root ← subscript b "root"
  let headHash ← subscript b "head_hash"
  sealEnvelope crypto sk ackDomain (.obj [("kind", .str "ROOT_ACK"), ("origin_node", origin),
    ("count", count), ("root", root), ("head_hash", headHash),
    ("receiver_node", .str (canonicalNodeId crypto (sk.publicKey crypto))), ("ts", .float ts)])

def readEnvelope (env : Json) : Py (Json × Bytes × Bytes) := do
  let body ← subscript env "body"
  let pub ← bytesFromHex (← subscript env "pub")
  let sig ← bytesFromHex (← subscript env "sig")
  return (body, pub, sig)

def verifySignedRoot (env : Json) : Py (Bool × Str) :=
  match readEnvelope env with
  | .error e =>
    if e.kind = .keyError ∨ e.isValueError then return (false, "malformed envelope") else .error e
  | .ok (body, pub, sig) => do
    if (← dotGet body "kind") ≠ .str "WITNESS_ROOT" then return (false, "wrong kind")
    if (← dotGet body "node_id") ≠ .str (canonicalNodeId crypto pub) then
      return (false, "node_id does not match public key")
    match asInt? (← dotGet body "count") with
    | none => return (false, "bad count")
    | some count =>
      if count < 0 then return (false, "bad count")
      let data ← canonical body
      if !crypto.verify pub (rootDomain ++ data) sig then return (false, "bad signature")
      return (true, "ok")

inductive ConsistencyStatus where
  | consistent | inconsistent | rejected
  deriving DecidableEq

/-- One round of the pinning loop; `none` goes on. -/
def checkPin (which : Str) (body : Json) : Option Json → Py (Option (ConsistencyStatus × Str))
  | none => return none
  | some pin => do
    let pb ← subscript pin "body"
    if ¬Json.pyEq (← dotGet pb "node_id") (← subscript body "node_id") then
      return some (.rejected, which ++ " root envelope is for another origin")
    if (← dotGet pb "root_alg") ≠ .str "rfc6962" then
      return some (.rejected, which ++ " root is legacy v1 (no consistency power)")
    let contradiction : Str := "claimed " ++ which ++ " root/count contradicts the pinned " ++
      "signed root at count " ++ pyStr (← dotGet pb "count")
    if ¬Json.pyEq (← dotGet pb "count") (← subscript body (which ++ "_count")) then
      return some (.inconsistent, contradiction)
    if ¬Json.pyEq (← dotGet pb "root") (← subscript body (which ++ "_root")) then
      return some (.inconsistent, contradiction)
    return none

def orList (value : Json) : Json := if truthy value then value else .arr []

/-- `verify_consistency_envelope` once signature and counts are checked. -/
def claimVerdict (body : Json) (m n : Int) (oldEnv newEnv : Option Json) :
    Py (ConsistencyStatus × Str) := do
  match ← checkPin "old" body oldEnv with
  | some answer => return answer
  | none =>
    match ← checkPin "new" body newEnv with
    | some answer => return answer
    | none =>
      let oldRoot ← subscript body "old_root"
      let newRoot ← subscript body "new_root"
      let proof ← dotGet body "proof"
      if ← verifyConsistency crypto m n oldRoot newRoot (orList proof) then
        return (.consistent, "ok")
      else return (.inconsistent, "signed consistency proof FAILS verification")

def verifyConsistencyEnvelope (env : Json) (oldEnv newEnv : Option Json) :
    Py (ConsistencyStatus × Str) :=
  match readEnvelope env with
  | .error e =>
    if e.kind = .keyError ∨ e.kind = .typeError ∨ e.isValueError then
      return (.rejected, "malformed envelope")
    else .error e
  | .ok (body, pub, sig) => do
    if (← dotGet body "kind") ≠ .str "WITNESS_CONSISTENCY" then return (.rejected, "wrong kind")
    if (← dotGet body "node_id") ≠ .str (canonicalNodeId crypto pub) then
      return (.rejected, "node_id does not match public key")
    let data ← canonical body
    if !crypto.verify pub (consDomain ++ data) sig then return (.rejected, "bad signature")
    match asInt? (← dotGet body "old_count"), asInt? (← dotGet body "new_count") with
    | some m, some n =>
      if ¬(0 < m ∧ m ≤ n) then return (.rejected, "bad counts")
      claimVerdict crypto body m n oldEnv newEnv
    | _, _ => return (.rejected, "bad counts")

end JJDai.Replication
