import JJDai.Knowledge.RagStore
import JJDai.Lib.Run
import JJDai.Primitive.SaltedAppend

/-! `core.plane_h`: signed proposals, who may write, and the writes that reach the
store and the witness together or not at all. -/

namespace JJDai.Knowledge

open PyText Canonical Transaction Transaction.Statements

variable (crypto : Crypto) (sqlite : Sqlite)

def proposalDomain : Bytes := ascii "jjdai/plane-h/proposal/v1:"

def authorDomain : Bytes := ascii "jjdai/plane-h/author/v1:"

def ops : List Str := ["add", "supersede", "redact"]

def accessLevels : List Str := ["public", "internal", "restricted"]

/-- `value in (…)` for a tuple of strings. -/
def oneOf (names : List Str) (value : Json) : Bool := names.any (fun name => value = .str name)

/-- `isinstance(conf, (int, float)) and 0.0 <= conf <= 1.0`. -/
def inUnit : Json → Bool
  | .bool _ => true
  | .int n => 0 ≤ n && n ≤ 1
  | .float .nan => false
  | .float x => !x.less .zero && !PyFloat.less (.finite (.ofDigits false 1 0)) x
  | _ => false

def canonicalBeingId (pub : Bytes) : Str := "being:" ++ H_hex crypto pub

/-- `env["body"]`, with the key and the signature; every way to fail is caught. -/
def envelopeParts (env : Json) : Py (Json × Bytes × Bytes) := do
  let body ← subscript env "body"
  let pub ← bytesFromHex (← subscript env "pub")
  let sig ← bytesFromHex (← subscript env "sig")
  return (body, pub, sig)

def beingParts (env : Json) : Py (Bytes × Bytes) := do
  let pub ← bytesFromHex (← subscript env "being_pub")
  let sig ← bytesFromHex (← subscript env "being_sig")
  return (pub, sig)

/-- The author's statement, when the body names an author. -/
def verifyAuthor (env body : Json) : Py (Bool × Str) := do
  let authorBeing ← dotGet body "author_being"
  if authorBeing ≠ .null then
    match beingParts env with
    | .error _ => return (false, "author_being named without a being signature")
    | .ok (pub, sig) =>
      if Json.str (canonicalBeingId crypto pub) ≠ authorBeing then
        return (false, "author_being does not match the being public key")
      if !crypto.verify pub (authorDomain ++ (← canonical body)) sig then
        return (false, "bad being signature")
      return (true, "ok")
  else if ← pyContains "being_sig" env then
    return (false, "being signature without an author_being in the body")
  else return (true, "ok")

/-- The text of an operation that brings one. -/
def verifyText (body : Json) (text : Option Str) : Py (Bool × Str) := do
  if oneOf ["add", "supersede"] (← subscript body "op") then
    match text with
    | none => return (false, "text required for this op")
    | some text =>
      if .str (← sha256Text crypto (some text)) ≠ (← dotGet body "content_hash") then
        return (false, "content hash mismatch")
      return (true, "ok")
  else return (true, "ok")

def verifyWriteProposal (env : Json) (text : Option Str) : Py (Bool × Str) := do
  match envelopeParts env with
  | .error _ => return (false, "malformed envelope")
  | .ok (body, pub, sig) =>
    if (← dotGet body "kind") ≠ .str "RAG_WRITE_PROPOSAL" then return (false, "wrong kind")
    if !oneOf ops (← dotGet body "op") then return (false, "unknown op")
    if .str (canonicalNodeId crypto pub) ≠ (← dotGet body "author_node") then
      return (false, "author_node does not match public key")
    if !oneOf accessLevels (← dotGet body "access_policy") then return (false, "unknown access policy")
    if !inUnit (← dotGet body "confidence") then return (false, "confidence out of range")
    let (ok, reason) ← verifyText crypto body text
    if !ok then return (false, reason)
    if !crypto.verify pub (proposalDomain ++ (← canonical body)) sig then return (false, "bad signature")
    verifyAuthor crypto env body

def namespaceHits (reserved : List Str) : Json → Bool
  | .str ns =>
    let probe := if ns.getLast? = some (ch '/') then ns else ns ++ [ch '/']
    reserved.any (fun name => name.isPrefixOf probe)
  | _ => false

def cognitivePhaseNote (what : Str) : Str :=
  what ++ " is RESERVED by cross-cutting track V (ADR-018 rev 2, Accepted). The name enters the " ++
    "canonical vocabulary before genesis so it can never be added to a hash-chained store afterwards; " ++
    "the meaning arrives with the specification in Ф2 and the runtime in Ф3. Nothing may use it until then."

def custodyPhaseNote (what : Str) : Str :=
  what ++ " is RESERVED by ADR-019 rev 3.1 (Accepted). The name enters the canonical vocabulary before " ++
    "genesis so it can never be added to a hash-chained store afterwards; Accepted status authorises " ++
    "the RESERVE and nothing in the runtime — the specification lands in Ф2 and network corroboration " ++
    "in Ф3. A lone production node still refuses with no_independent_panel."

def checkNamespaceFree (ns : Json) (op : Str) : Py Unit :=
  let what : Str := "namespace " ++ reprJson ns ++ " (" ++ op ++ ")"
  if namespaceHits cognitiveNamespaces ns then
    raise .reservedValueError (cognitivePhaseNote what ++
      " A draft reflection may help explore a hypothesis but must not masquerade as memory of a fact.")
  else if namespaceHits custodyNamespaces ns then
    raise .reservedValueError (custodyPhaseNote what ++
      " Temporary memory is memory the being reaches in full; what it lacks is a settled evidentiary " ++
      "status, and neither exists yet.")
  else return ()

/-- Namespace, operation, and who may do it. -/
structure WritePolicy where
  grants : Dict Str (Dict Str (List Json)) := []

namespace WritePolicy

/-- `d.get(key, default)` for a key of any type. -/
def look (d : Dict Str α) (key : Json) (default : α) : Py α :=
  match key with
  | .str key => return (Dict.get? d key).getD default
  | other => if hashable other then return default else raise .typeError

def permits (policy : WritePolicy) (ns op author : Json) : Py Bool := do
  let granted ← look policy.grants ns []
  let authors ← look granted op []
  setContains authors author

/-- The loop of `grant`; operations before an unknown one stay granted. -/
def grantOps (policy : WritePolicy) (ns : Str) (author : Json) : List Str → WritePolicy × Py Unit
  | [] => (policy, .ok ())
  | op :: rest =>
    if !ops.contains op then (policy, raise .planeHError ("unknown op " ++ pyRepr op))
    else
      let granted := (Dict.get? policy.grants ns).getD []
      match setAdd ((Dict.get? granted op).getD []) author with
      | .error e => (policy, .error e)
      | .ok authors =>
        grantOps { grants := Dict.set policy.grants ns (Dict.set granted op authors) } ns author rest

def grant (policy : WritePolicy) (ns : Str) (author : Json) (granted : List Str) : WritePolicy × Py Unit :=
  match checkNamespaceFree (.str ns) "grant" with
  | .error e => (policy, .error e)
  | .ok () => policy.grantOps ns author granted

def revoke (policy : WritePolicy) (ns : Str) (author : Json) (revoked : List Str) : WritePolicy :=
  match Dict.get? policy.grants ns with
  | none => policy
  | some granted =>
    { grants := Dict.set policy.grants ns (granted.map (fun entry =>
        if entry.1 ∈ revoked then (entry.1, entry.2.filter (fun member => member ≠ author)) else entry)) }

end WritePolicy

structure Applied where
  op : Str
  chunkId : Json
  hash : Str
  version : Int
  supersedes : Json := .null
  proof : Option InclusionProof
  nsRoot : Str := []

def refuse (kind : PyClass) (text : Str) : Db α := attempt (raise kind text)

def field (body : Json) (key : Str) : Db Json := attempt (subscript body key)

/-- `INSERT INTO chunk_meta`; the author and the time must be there, the row new. -/
def insertMeta (chunkId version : Int) (supersedes authorNode env createdAt : Json) (tables : Tables) :
    Py (Unit × Tables) := do
  let supersedes ← bindValue supersedes
  let author ← bindValue authorNode
  let created ← bindValue createdAt
  if author = .null ∨ created = .null then raise .sqliteError
  else if tables.chunkMeta.any (fun row => row.chunkId = chunkId) then raise .sqliteError
  else
    let row : Meta := {
      chunkId, version
      supersedes := supersedes.asInteger sqlite
      authorNode := author.asText sqlite
      envelope := env
      createdAt := created }
    return ((), { tables with chunkMeta := tables.chunkMeta ++ [row] })

def selectMeta (chunkId : Json) (tables : Tables) : Py (Option Meta) := do
  let key ← bindValue chunkId
  return tables.chunkMeta.find? (fun row => key.asInteger? sqlite = some row.chunkId)

/-- `UPDATE chunk_meta … WHERE chunk_id=?`. -/
def updateMeta (change : Meta → Meta) (chunkId : Json) (tables : Tables) : Py (Unit × Tables) := do
  let key ← bindValue chunkId
  return ((), { tables with
    chunkMeta := tables.chunkMeta.map (fun row =>
      if key.asInteger? sqlite = some row.chunkId then change row else row) })

/-- `UPDATE chunks SET text=NULL WHERE id=?`. -/
def clearText (chunkId : Json) (tables : Tables) : Py (Unit × Tables) := do
  let key ← bindValue chunkId
  return ((), { tables with
    chunks := tables.chunks.map (fun row =>
      if key.asInteger? sqlite = some row.id then { row with text := none } else row) })

def applyAdd (env body : Json) (text : Option Str) : Db Applied := do
  let ns ← field body "ns"
  let docId ← field body "doc_id"
  let (chunkId, hash) ← add crypto sqlite ns docId text false
  let author ← field body "author_node"
  let created ← field body "created_at"
  execute (insertMeta sqlite chunkId 1 .null author env created)
  let proof ← prove crypto sqlite ns (.int chunkId)
  return { op := "add", chunkId := .int chunkId, hash, version := 1, proof }

/-- The chunk a proposal names, with its card; `op` is for the message. -/
def findTarget (op : Str) (target : Json) : Db (Chunk × Meta) := do
  let told ← get sqlite target
  let card ← query (selectMeta sqlite target)
  match told, card with
  | some told, some card => return (told, card)
  | _, _ => refuse .planeHError (op ++ " target " ++ pyStr target ++ " not found")

/-- What `_apply_supersede` asks of its target. -/
def checkSuperseded (body target : Json) (told : Chunk) (card : Meta) : Py Unit := do
  if ¬Json.pyEq told.ns.toJson (← subscript body "ns") then
    raise .planeHError "supersede must stay within ns/doc_id"
  if ¬Json.pyEq told.docId.toJson (← subscript body "doc_id") then
    raise .planeHError "supersede must stay within ns/doc_id"
  match card.supersededBy with
  | some next => raise .planeHError ("target " ++ pyStr target ++ " already superseded by " ++ intText next)
  | none => if card.redacted then raise .planeHError "cannot supersede a redacted chunk" else return ()

def applySupersede (env body : Json) (text : Option Str) : Db Applied := do
  let target ← field body "target_chunk"
  let (told, card) ← findTarget sqlite "supersede" target
  attempt (checkSuperseded body target told card)
  let ns ← field body "ns"
  let docId ← field body "doc_id"
  let (chunkId, hash) ← add crypto sqlite ns docId text false
  let author ← field body "author_node"
  let created ← field body "created_at"
  execute (insertMeta sqlite chunkId (card.version + 1) target author env created)
  execute (updateMeta sqlite (fun row => { row with supersededBy := some chunkId }) target)
  let proof ← prove crypto sqlite ns (.int chunkId)
  return { op := "supersede", chunkId := .int chunkId, hash, version := card.version + 1, supersedes := target, proof }

/-- What `_apply_redact` asks of its target. -/
def checkRedacted (body target : Json) (told : Chunk) (card : Meta) : Py Unit := do
  if ¬Json.pyEq told.ns.toJson (← subscript body "ns") then
    raise .planeHError "redact must name the chunk's namespace"
  if card.redacted then raise .planeHError ("chunk " ++ pyStr target ++ " already redacted")

def applyRedact (env body : Json) : Db Applied := do
  let target ← field body "target_chunk"
  let (told, card) ← findTarget sqlite "redact" target
  attempt (checkRedacted body target told card)
  execute (clearText sqlite target)
  execute (updateMeta sqlite (fun row => { row with redacted := true, redactionEnvelope := some env }) target)
  let ns ← field body "ns"
  let proof ← prove crypto sqlite ns target
  return { op := "redact", chunkId := target, hash := told.hash, version := card.version, proof }

/-- A witness: an append adds its record or raises and adds none. -/
structure Witness (W : Type) where
  append : W → Str → Json → Json → Py Unit × W
  records : W → List Json
  adds : ∀ {w kind response digest later}, append w kind response digest = (.ok (), later) →
    ∃ record, records later = records w ++ [record] ∧ subscript record "kind" = .ok (.str kind) ∧
      subscript record "semantic_digest" = .ok digest
  keeps : ∀ {w kind response digest e later}, append w kind response digest = (.error e, later) →
    records later = records w

/-- What an append on a chain reads around it: the clock, the randomness of the
commitment, and whether the write completes. -/
structure Moment where
  timestamp : Json
  salt : Bytes
  written : Bool

/-- A chain that meets one moment after the other; without one it is not reached. -/
def chainAppend (w : SaltedChain × List Moment) (kind : Str) (response digest : Json) :
    Py Unit × (SaltedChain × List Moment) :=
  match w.2 with
  | [] => (raise .osError, w)
  | moment :: rest =>
    let (log, receipt) := w.1.append crypto {
      kind, response
      semanticDigest := digest
      timestamp := moment.timestamp
      responseSalt := moment.salt } moment.written
    (receipt.map (fun _ => ()), log, rest)

variable {crypto} in
theorem chainAppend_cons (log : SaltedChain) (moment : Moment) (rest : List Moment) (kind : Str)
    (response digest : Json) : ∃ call : AppendCall, call.kind = kind ∧ call.semanticDigest = digest ∧
      chainAppend crypto (log, moment :: rest) kind response digest =
        ((log.append crypto call moment.written).2.map (fun _ => ()),
          (log.append crypto call moment.written).1, rest) :=
  ⟨_, rfl, rfl, rfl⟩

def chainWitness : Witness (SaltedChain × List Moment) where
  append := chainAppend crypto
  records w := w.1.chain.records
  adds := by
    intro w kind response digest later made
    obtain ⟨log, moments⟩ := w
    cases moments with
    | nil => cases made
    | cons moment rest =>
      obtain ⟨call, rfl, rfl, appended⟩ := @chainAppend_cons crypto log moment rest kind response digest
      rw [appended] at made
      obtain ⟨answered, rfl⟩ := Prod.mk.inj made
      cases log.outcome crypto call moment.written with
      | never record stops built leaves =>
        rw [leaves]
        exact ⟨record, rfl, WitnessChain.buildRecord_fields built⟩
      | beforeSalts e stops leaves => rw [leaves] at answered; cases answered
      | atResponse e stops leaves => rw [leaves] at answered; cases answered
      | atRecord e stops leaves => rw [leaves] at answered; cases answered
      | atWrite stops leaves => rw [leaves] at answered; cases answered
  keeps := by
    intro w kind response digest e later made
    obtain ⟨log, moments⟩ := w
    cases moments with
    | nil =>
      obtain ⟨_, rfl⟩ := Prod.mk.inj made
      rfl
    | cons moment rest =>
      obtain ⟨call, rfl, rfl, appended⟩ := @chainAppend_cons crypto log moment rest kind response digest
      rw [appended] at made
      obtain ⟨answered, rfl⟩ := Prod.mk.inj made
      cases log.outcome crypto call moment.written with
      | never record stops built leaves =>
        obtain ⟨receipt, given⟩ := SaltedChain.receiptOf_ok built
        rw [leaves, given] at answered
        cases answered
      | beforeSalts e stops leaves => rw [leaves]
      | atResponse e stops leaves => rw [leaves]
      | atRecord e stops leaves => rw [leaves]
      | atWrite stops leaves => rw [leaves]

structure PlaneH (W : Type) where
  db : Connection Tables PyErr
  policy : WritePolicy
  witness : Option W
  governorNode : Json

/-- A proposal that passed every check made before the store is touched. -/
structure Admitted where
  body : Json
  ns : Json
  op : Json
  author : Json

def admitWrite (policy : WritePolicy) (env : Json) (text : Option Str) : Py Admitted := do
  let (ok, reason) ← verifyWriteProposal crypto env text
  if !ok then raise .planeHError ("proposal rejected: " ++ reason)
  let body ← subscript env "body"
  let ns ← subscript body "ns"
  let op ← subscript body "op"
  let author ← subscript body "author_node"
  checkNamespaceFree ns (pyStr op)
  if !(← policy.permits ns op author) then
    raise .authorizationError ("author " ++ pyStr (← pyTake author 16) ++ "… not authorized for " ++
      reprJson op ++ " in " ++ reprJson ns)
  return { body, ns, op, author }

def write (admitted : Admitted) (env : Json) (text : Option Str) : Db Applied :=
  if admitted.op = .str "add" then applyAdd crypto sqlite env admitted.body text
  else if admitted.op = .str "supersede" then applySupersede crypto sqlite env admitted.body text
  else applyRedact crypto sqlite env admitted.body

def operate (admitted : Admitted) (env : Json) (text : Option Str) : Db Applied := do
  let applied ← write crypto sqlite admitted env text
  let root ← merkleRoot crypto sqlite admitted.ns
  return { applied with nsRoot := root }

def semanticDigest (admitted : Admitted) (governorNode : Json) (applied : Applied) : Py Json := do
  let docId ← subscript admitted.body "doc_id"
  let contentHash ← subscript admitted.body "content_hash"
  return .obj [("plane", .str "H"), ("op", admitted.op), ("ns", admitted.ns), ("doc_id", docId),
    ("chunk_id", applied.chunkId), ("content_hash", contentHash), ("author_node", admitted.author),
    ("authorized_by", governorNode), ("ns_root", .str applied.nsRoot)]

variable {W : Type} (chain : Witness W)

def attest (admitted : Admitted) (env governorNode : Json) (applied : Applied) : Option W → Py Unit × Option W
  | none => (.ok (), none)
  | some w =>
    match semanticDigest admitted governorNode applied with
    | .error e => (.error e, some w)
    | .ok digest =>
      let (answer, later) := chain.append w "MEMORY" env digest
      (answer, some later)

namespace PlaneH

/-- `apply`; `faults` tells which of its statements fail. -/
def apply (plane : PlaneH W) (env : Json) (text : Option Str) (faults : List (Option PyErr)) :
    Py Applied × PlaneH W :=
  match admitWrite crypto plane.policy env text with
  | .error e => (.error e, plane)
  | .ok admitted =>
    let (answer, db, witness) := confirmed (operate crypto sqlite admitted env text)
      (attest chain admitted env plane.governorNode) { plane.db with faults } plane.witness
    (answer, { plane with db, witness })

/-- A new store under a policy that grants nothing. -/
def opened (witness : W) (governorNode : Json) : PlaneH W where
  db := { committed := {}, current := {} }
  policy := {}
  witness := some witness
  governorNode := governorNode

end PlaneH

inductive Move where
  | grant (ns : Str) (author : Json) (granted : List Str)
  | revoke (ns : Str) (author : Json) (revoked : List Str)
  | apply (env : Json) (text : Option Str) (faults : List (Option PyErr))

def PlaneH.move (plane : PlaneH W) : Move → PlaneH W
  | .grant ns author granted => { plane with policy := (plane.policy.grant ns author granted).1 }
  | .revoke ns author revoked => { plane with policy := plane.policy.revoke ns author revoked }
  | .apply env text faults => (plane.apply crypto sqlite chain env text faults).2

end JJDai.Knowledge
