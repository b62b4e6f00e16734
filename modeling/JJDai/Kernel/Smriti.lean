import JJDai.Lib.Run
import JJDai.Primitive.Builtins
import JJDai.Primitive.SaltedAppend

/-! `kernel.smriti`: memory as a log of operations, each of them witnessed, with
its export, its import and its audit. -/

namespace JJDai.Smriti

open PyText Canonical

structure CoreBlock where
  label : Str
  value : Json := .str []
  charLimit : Json := .int 2000

def CoreBlock.asDict (block : CoreBlock) : Json :=
  .obj [("label", .str block.label), ("value", block.value), ("char_limit", block.charLimit)]

structure Episode where
  ts : Json
  role : Json
  text : Json

def Episode.asDict (episode : Episode) : Json :=
  .obj [("ts", episode.ts), ("role", episode.role), ("text", episode.text)]

structure AgentIdentity where
  beingId : Str
  createdAt : Json
  kind : Json := .str "jjdai-agent-state"
  version : Json := .str "1"

def AgentIdentity.asDict (identity : AgentIdentity) : Json :=
  .obj [("being_id", .str identity.beingId), ("created_at", identity.createdAt), ("kind", identity.kind),
    ("version", identity.version)]

/-- What operations change of a `SmritiContinuity`. -/
structure Memory where
  core : Dict Str CoreBlock := []
  episodes : List Episode := []
  events : List Json := []

/-- The label of an operation, which names a block. -/
def asLabel : Json → Py Str
  | .str label => return label
  | _ => raise .typeError

def concat : Json → Json → Py Json
  | .str front, .str back => return .str (front ++ back)
  | _, _ => raise .typeError

/-- The value of a block after an addition. -/
def appendedValue (value op : Json) : Py Json := do
  if truthy value then concat (← concat value (.str "\n")) (← subscript op "addition")
  else subscript op "addition"

namespace Memory

def apply (memory : Memory) (op : Json) : Py Memory := do
  let memory := { memory with events := memory.events ++ [op] }
  let k ← subscript op "op"
  if k = .str "core_set" then
    let label ← subscript op "label"
    let value ← subscript op "value"
    let charLimit ← subscript op "char_limit"
    let label ← asLabel label
    return { memory with core := Dict.set memory.core label ⟨label, value, charLimit⟩ }
  else if k = .str "core_append" then
    let label ← asLabel (← subscript op "label")
    let block := (Dict.get? memory.core label).getD { label }
    let value ← appendedValue block.value op
    return { memory with core := Dict.set memory.core label { block with value } }
  else if k = .str "recall_add" then
    let ts ← subscript op "t"
    let role ← subscript op "role"
    let text ← subscript op "text"
    return { memory with episodes := memory.episodes ++ [⟨ts, role, text⟩] }
  else raise .valueError ("unknown memory op " ++ reprJson k)

/-- What an operation that raises leaves: it is in the log all the same. -/
def refused (memory : Memory) (op : Json) : Memory := { memory with events := memory.events ++ [op] }

end Memory

variable (crypto : Crypto)

def opHash (op : Json) : Py Str := do return H_hex crypto (← canonical op)

def recallHead (episodes : List Episode) : Py Str :=
  episodes.foldlM (fun head episode => do
    return H_hex crypto (← canonical (.obj [("prev", .str head), ("ep", episode.asDict)]))) genesis

/-- `{l: b.as_dict() for l, b in sorted(self._core.items())}`. -/
def coreDict (core : Dict Str CoreBlock) : Dict Str Json :=
  Json.sortEntries (core.map (fun entry => (entry.1, entry.2.asDict)))

/-- The merkle root of an archival tier, if there is one. -/
def rootField (root : Option Str) : Json := root.elim .null .str

def stateHash (beingId : Str) (root : Option Str) (memory : Memory) : Py Str := do
  let head ← recallHead crypto memory.episodes
  return H_hex crypto (← canonical (.obj [("being_id", .str beingId), ("core", .obj (coreDict memory.core)),
    ("recall_head", .str head), ("archival_root", rootField root)]))

inductive Call where
  | coreSet (label value : Str) (charLimit : Int)
  | coreAppend (label addition : Str)
  | recallAdd (role text : Str)

/-- What `core_append` would make of a block. -/
def newValue (block : Option CoreBlock) (addition : Str) : Py Str := do
  match block with
  | none => return addition
  | some block =>
    if truthy block.value then
      match ← concat block.value (.str "\n") with
      | .str base => return base ++ addition
      | _ => raise .typeError
    else return addition

/-- The operation a call emits, unless a block would get too long. -/
def Memory.request (memory : Memory) (t : PyFloat) : Call → Py Json
  | .coreSet label value charLimit => do
    if charLimit < value.length then
      raise .coreBlockFull ("core block " ++ pyRepr label ++ ": " ++ natText value.length ++ " > " ++ intText charLimit ++
        " chars")
    return .obj [("op", .str "core_set"), ("t", .float t), ("label", .str label), ("value", .str value),
      ("char_limit", .int charLimit)]
  | .coreAppend label addition => do
    let block := Dict.get? memory.core label
    let limit := (block.map CoreBlock.charLimit).getD (.int 2000)
    let value ← newValue block addition
    if ← pyLess limit (.int value.length) then
      raise .coreBlockFull ("core block " ++ pyRepr label ++ " would reach " ++ natText value.length ++ " > " ++
        pyStr limit ++ " chars — summarize")
    return .obj [("op", .str "core_append"), ("t", .float t), ("label", .str label), ("addition", .str addition)]
  | .recallAdd role text =>
    return .obj [("op", .str "recall_add"), ("t", .float t), ("role", .str role), ("text", .str text)]

/-- An organ: whose memory it keeps, and `time.strftime` of `time.gmtime`. -/
structure Organ where
  identity : AgentIdentity
  stamp : Json → Py Str

/-- The organ's memory, its journal and its witness chain. -/
structure Host where
  memory : Memory := {}
  journal : Option Bytes := none
  log : Option SaltedChain := none

/-- What an operation reads around it: the clock, the root of the archival tier
and the randomness of its commitment. -/
structure Moment where
  t : PyFloat
  root : Option Str := none
  salt : Bytes := []

/-- `f"mem:{being_id}:{op_hash}:{state_hash}"`. -/
def memDigest (beingId opHash stateHash : Str) : Str := "mem:" ++ beingId ++ ":" ++ opHash ++ ":" ++ stateHash

variable (organ : Organ)

/-- The arguments of `append` for an operation that was applied. -/
def memoryCall (memory : Memory) (op : Json) (moment : Moment) : Py AppendCall := do
  let hash ← opHash crypto op
  let state ← stateHash crypto organ.identity.beingId moment.root memory
  let timestamp ← organ.stamp (.float moment.t)
  return {
    kind := "MEMORY"
    request := .obj [("mem_op", op)]
    provenance := .obj [("organ", .str "smriti"), ("being_id", .str organ.identity.beingId)]
    semanticDigest := .str (memDigest organ.identity.beingId hash state)
    timestamp := .str timestamp
    requestSalt := moment.salt }

structure Emitted where
  op : Json
  witnessReceipt : Json
  stateHash : Str

namespace Host

def write (host : Host) (op : Json) : Py (Option Bytes) :=
  match host.journal with
  | none => return none
  | some file => do return some (← Durable.durableAppend file op)

/-- The witness record of an operation that was applied. -/
def witness (host : Host) (op : Json) (moment : Moment) : Host × Py Json :=
  match host.log with
  | none => (host, .ok .null)
  | some log =>
    match memoryCall crypto organ host.memory op moment with
    | .error e => (host, .error e)
    | .ok call =>
      let (log, receipt) := log.append crypto call true
      ({ host with log := some log }, receipt)

/-- `_emit`: applied, journaled, witnessed. -/
def emit (host : Host) (op : Json) (moment : Moment) : Host × Py Emitted :=
  match host.memory.apply op with
  | .error e => ({ host with memory := host.memory.refused op }, .error e)
  | .ok memory =>
    let host := { host with memory }
    match host.write op with
    | .error e => (host, .error e)
    | .ok journal =>
      let (host, receipt) := { host with journal }.witness crypto organ op moment
      (host, do
        let witnessReceipt ← receipt
        let stateHash ← stateHash crypto organ.identity.beingId moment.root host.memory
        return { op, witnessReceipt, stateHash })

/-- `core_set`, `core_append`, `recall_add`. -/
def call (host : Host) (call : Call) (moment : Moment) : Host × Py Emitted :=
  match host.memory.request moment.t call with
  | .error e => (host, .error e)
  | .ok op => host.emit crypto organ op moment

/-- A record that something else writes on the same chain. -/
def chained (host : Host) (call : AppendCall) : Host :=
  { host with log := host.log.map (fun log => (log.append crypto call true).1) }

end Host

inductive Move where
  | call (call : Call) (moment : Moment)
  | chained (call : AppendCall)

def Host.move (host : Host) : Move → Host
  | .call call moment => (host.call crypto organ call moment).1
  | .chained call => host.chained crypto call

def isMemory (record : Json) : Py Bool := do return decide ((← dotGet record "kind") = .str "MEMORY")

/-- A memory record whose digest starts with the being's name. -/
def isOwn (beingId : Str) (record : Json) : Py Bool := do
  if ← isMemory record then
    let digest ← getDefault record "semantic_digest" (.str [])
    return ("mem:" ++ beingId ++ ":" : Str).isPrefixOf (pyStr digest)
  else return false

/-- The records that prove the memory, with the writer's key. -/
def witnessPart (log : Option SaltedChain) : Py Json :=
  match log with
  | none => return .obj [("node_id", .null), ("pubkey", .null), ("records", .arr [])]
  | some log => do
    let records ← filterPy (isOwn organ.identity.beingId) log.chain.records
    return .obj [("node_id", .str (log.chain.nodeId crypto)),
      ("pubkey", .str (toHex (log.chain.sk.publicKey crypto))), ("records", .arr records)]

def exportPortable (host : Host) (root : Option Str) : Py Json := do
  let witness ← witnessPart crypto organ host.log
  let hash ← stateHash crypto organ.identity.beingId root host.memory
  return .obj [("identity", organ.identity.asDict), ("core", .obj (coreDict host.memory.core)),
    ("recall", .arr (host.memory.episodes.map Episode.asDict)), ("archival_root", rootField root),
    ("state_hash", .str hash), ("journal", .arr host.memory.events), ("witness", witness)]

def identityKeys : List Str := ["being_id", "created_at", "kind", "version"]

def readIdentity : Json → Py AgentIdentity
  | .obj fields => do
    if !(Dict.keys fields).all (identityKeys.contains ·) then raise .typeError
    match Dict.get? fields "being_id", Dict.get? fields "created_at" with
    | some (.str beingId), some createdAt =>
      return {
        beingId, createdAt
        kind := (Dict.get? fields "kind").getD (.str "jjdai-agent-state")
        version := (Dict.get? fields "version").getD (.str "1") }
    | _, _ => raise .typeError
  | _ => raise .typeError

/-- The record's own hash and, with a key, its signature. -/
def checkRecord (pub : Option Bytes) (i : Nat) (record : Json) : Py Unit := do
  match record with
  | .obj fields =>
    let hash := H_hex crypto (← canonical (.obj (unsignedRecord fields)))
    if (Dict.get? fields "this_hash").getD .null ≠ .str hash then
      raise .portabilityError ("record " ++ natText i ++ ": hash mismatch")
    match pub with
    | none => return ()
    | some pub =>
      let signed ← encode hash
      let sig ← bytesFromHex (← subscript record "sig")
      if !crypto.verify pub signed sig then
        raise .portabilityError ("record " ++ natText i ++ ": bad signature")
  | _ => raise .attributeError

/-- One round of the import's check: the record, then what it binds. -/
def checkOp (pub : Option Bytes) (beingId : Str) (root : Option Str) (i : Nat) (probe : Memory) (op record : Json) :
    Py Memory := do
  checkRecord crypto pub i record
  let probe ← probe.apply op
  let expected := memDigest beingId (← opHash crypto op) (← stateHash crypto beingId root probe)
  if (← dotGet record "semantic_digest") ≠ .str expected then
    raise .portabilityError ("record " ++ natText i ++
      ": being/op/state binding broken (tamper, misattribution, or forgery)")
  return probe

/-- `for i, (op, rec) in enumerate(zip(…))`, with the memory it replays. -/
def eachOp (check : Nat → Memory → Json → Json → Py Memory) : Nat → Memory → List (Json × Json) → Py Memory
  | _, probe, [] => return probe
  | i, probe, (op, record) :: rest => do
    let probe ← check i probe op record
    eachOp check (i + 1) probe rest

def pubHexOf (pubkeyHex : Option Str) (witness : Json) : Py Json :=
  match pubkeyHex with
  | some (c :: rest) => return .str (c :: rest)
  | _ => dotGet witness "pubkey"

def decodePub (pubHex : Json) : Py (Option Bytes) := do
  if truthy pubHex then return some (← bytesFromHex pubHex) else return none

/-- The part of `import_portable` under `verify=True`. -/
def verifyBundle (bundle : Json) (identity : AgentIdentity) (journal : List Json) (pubkeyHex root : Option Str) :
    Py Unit := do
  let witness ← dotGet bundle "witness"
  let witness := if truthy witness then witness else .obj []
  let records ← getDefault witness "records" (.arr [])
  let pubHex ← pubHexOf pubkeyHex witness
  let records ← pyList records
  if records.length ≠ journal.length then
    raise .portabilityError ("journal/record count mismatch: " ++ natText journal.length ++ " vs " ++
      natText records.length)
  let probe ← eachOp (checkOp crypto (← decodePub pubHex) identity.beingId root) 0 {} (journal.zip records)
  if .str (← stateHash crypto identity.beingId root probe) ≠ (← dotGet bundle "state_hash") then
    raise .portabilityError "final state_hash mismatch"

structure Imported where
  identity : AgentIdentity
  memory : Memory

/-- `import_portable` on a host whose archival tier has the given root. -/
def importPortable (bundle : Json) (verify : Bool) (pubkeyHex root : Option Str) : Py Imported := do
  let identity ← readIdentity (← subscript bundle "identity")
  let journal ← pyList (← getDefault bundle "journal" (.arr []))
  if verify then verifyBundle crypto bundle identity journal pubkeyHex root
  let memory ← journal.foldlM Memory.apply {}
  if .str (← stateHash crypto identity.beingId root memory) ≠ (← dotGet bundle "state_hash") then
    raise .portabilityError "reconstructed state_hash mismatch"
  return ⟨identity, memory⟩

def beforeLastColon (s : Str) : Str :=
  match s.reverse.dropWhile (· ≠ ch ':') with
  | [] => s
  | _ :: rest => rest.reverse

def parseBeing (digest : Str) : Str := beforeLastColon (beforeLastColon (digest.drop 4))

def beingOf : List Json → Py Str
  | [] => return "being:unknown"
  | record :: _ => do return parseBeing (pyStr (← getDefault record "semantic_digest" (.str "mem:being:unknown::")))

def auditOp (being : Str) (i : Nat) (probe : Memory) (op record : Json) : Py Memory := do
  let probe ← probe.apply op
  let expected := memDigest being (← opHash crypto op) (← stateHash crypto being none probe)
  if (← dotGet record "semantic_digest") ≠ .str expected then
    raise .portabilityError ("binding broken at op " ++ natText i)
  return probe

def verifyMemoryAgainstChain (events chainRecords : List Json) : Py Nat := do
  let records ← filterPy isMemory chainRecords
  if records.length ≠ events.length then
    raise .portabilityError ("count mismatch: " ++ natText events.length ++ " ops vs " ++ natText records.length ++
      " records")
  let being ← beingOf records
  let _ ← eachOp (auditOp crypto being) 0 {} (events.zip records)
  return events.length

end JJDai.Smriti
