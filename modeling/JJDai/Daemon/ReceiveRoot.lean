import JJDai.Replication.Peers
import JJDai.Replication.Segments
import JJDai.Replication.Session

/-! `Node.receive_root`: a peer's root is stored, witnessed on the receiver's own
chain and acknowledged, in this order, with a failure possible at every write. -/

namespace JJDai.Daemon

open PyText Replication

structure Node where
  sk : SigningKey
  chain : WitnessChain
  replicaStore : ReplicaStore := {}
  segmentStore : SegmentStore := {}
  peerRegistry : PeerRegistry := {}
  requireAdmission : Bool := false

/-- One call: the envelope, the clock, and which of the two writes complete. -/
structure Attempt where
  env : Json
  now : PyFloat
  timestamp : Str
  journalWritten : Bool
  chainWritten : Bool

structure Response where
  code : Nat
  body : Json
  ack : Option Json

/-- What a call leaves behind: the node, the journal line written, the answer. -/
structure Received where
  node : Node
  line : Option Json
  answer : Py Response

def Received.ack (received : Received) : Option Json :=
  match received.answer with
  | .ok response => response.ack
  | .error _ => none

def peerRootCall (timestamp : Str) (origin count root rootAlg : Json) : AppendCall where
  kind := "PEER_ROOT"
  semanticDigest := .obj [("origin", origin), ("count", count), ("root", root),
    ("root_alg", rootAlg)]
  timestamp := .str timestamp

def wantedJson (pair : Int × Int) : Json := .obj [("old", .int pair.1), ("new", .int pair.2)]

def gapJson (gap : Int × Int) : Json := .obj [("start", .int gap.1), ("end", .int gap.2)]

namespace Node

variable (crypto : Crypto)

/-- The admission gate: `none` when the call goes on. -/
def refuse (node : Node) (env : Json) : Py (Option Response) := do
  match env with
  | .obj _ =>
    if !node.requireAdmission then return none
    let origin ← dotGet (orDict (← dotGet env "body")) "node_id"
    if ← node.peerRegistry.isFriend origin then return none
    return some ⟨403, .obj [("error", .str "403 FOE"),
      ("detail", .str "origin is not an admitted active peer")], none⟩
  | _ => return some ⟨400, .obj [("error", .str "400 BAD_ENVELOPE")], none⟩

/-- The `PEER_ROOT` record of a stored root. -/
def witnessRoot (node : Node) (attempt : Attempt) : Py Node := do
  let b ← subscript attempt.env "body"
  let origin ← subscript b "node_id"
  let count ← subscript b "count"
  let root ← subscript b "root"
  let rootAlg ← dotGet b "root_alg"
  let appended ← node.chain.append crypto
    (peerRootCall attempt.timestamp origin count root rootAlg)
  if !attempt.chainWritten then raise .osError
  return { node with chain := appended.chain }

/-- The rest of an answer that carries an acknowledgement. -/
def acknowledge (node : Node) (env ack : Json) (status : Str) : Py Response := do
  let b ← subscript env "body"
  let origin ← originKey (← subscript b "node_id")
  let count ← subscript b "count"
  let wanted ← node.replicaStore.consistencyWanted origin
  let gap := node.segmentStore.nextGap origin (countKey count)
  return ⟨200, .obj (([("status", .str status), ("ack", ack)] : Dict Str Json) ++
    (wanted.map (fun pair => (Str.ofString "consistency_wanted", wantedJson pair))).toList ++
    (gap.map (fun gap => (Str.ofString "segments_wanted", gapJson gap))).toList), some ack⟩

def lastEvidence (node : Node) (env : Json) : Py Json := do
  let origin ← originKey (← subscript (← subscript env "body") "node_id")
  match (node.replicaStore.divergence origin).getLast? with
  | some evidence => return evidence
  | none => raise .indexError

def statusText : RootStatus → Str
  | .stored => "stored"
  | .duplicate => "duplicate"
  | .stale => "stale"
  | .divergence => "divergence"
  | .rejected => "rejected"

/-- The answer once the store has answered, with the node after it. -/
def answerRoot (node : Node) (attempt : Attempt) (status : RootStatus) (reason : Str) :
    Node × Py Response :=
  match status with
  | .stored =>
    match makeAck crypto attempt.env node.sk attempt.now with
    | .error e => (node, .error e)
    | .ok ack =>
      match node.witnessRoot crypto attempt with
      | .error e => (node, .error e)
      | .ok node => (node, node.acknowledge attempt.env ack (statusText status))
  | .duplicate => (node, do
      let ack ← makeAck crypto attempt.env node.sk attempt.now
      node.acknowledge attempt.env ack (statusText status))
  | .divergence => (node, do
      let evidence ← node.lastEvidence attempt.env
      return ⟨409, .obj [("status", .str (statusText status)), ("detail", .str reason),
        ("evidence", evidence)], none⟩)
  | .stale => (node, return ⟨200, .obj [("status", .str (statusText status)),
      ("detail", .str reason)], none⟩)
  | .rejected => (node, return ⟨400, .obj [("status", .str (statusText status)),
      ("detail", .str reason)], none⟩)

def receiveRoot (node : Node) (attempt : Attempt) : Received :=
  match node.refuse attempt.env with
  | .error e => ⟨node, none, .error e⟩
  | .ok (some response) => ⟨node, none, .ok response⟩
  | .ok none =>
    match node.replicaStore.accept crypto attempt.env attempt.now with
    | .error e => ⟨node, none, .error e⟩
    | .ok outcome =>
      -- The store has changed in memory before its line is written.
      let node := { node with replicaStore := outcome.store }
      if outcome.line.isSome && !attempt.journalWritten then ⟨node, none, raise .osError⟩
      else
        let (node, answer) := node.answerRoot crypto attempt outcome.status outcome.reason
        ⟨node, outcome.line, answer⟩

end Node

/-- A node with its history: the journal lines written, the acknowledgements
returned, and the envelopes whose call stored them and returned one. -/
structure NodeSession where
  node : Node
  lines : List Json
  acks : List Json
  completed : List Json

namespace NodeSession

variable (crypto : Crypto)

def fresh (sk : SigningKey) (requireAdmission : Bool) (peerRegistry : PeerRegistry)
    (segmentStore : SegmentStore) (chain : WitnessChain) : NodeSession where
  node := { sk, chain, segmentStore, peerRegistry, requireAdmission }
  lines := []
  acks := []
  completed := []

def receive (session : NodeSession) (attempt : Attempt) : NodeSession :=
  let received := session.node.receiveRoot crypto attempt
  { node := received.node
    lines := session.lines ++ received.line.toList
    acks := session.acks ++ received.ack.toList
    completed :=
      if received.line.isSome && received.ack.isSome then session.completed ++ [attempt.env]
      else session.completed }

end NodeSession

end JJDai.Daemon
