import JJDai.Primitive.Canonical
import JJDai.Primitive.Crypto
import JJDai.Primitive.Plane

/-! `jjdai.witness`: the hash-chained, signed, append-only log of one node. -/

namespace JJDai

open PyText Canonical

def genesis : Str := List.replicate 64 (ch '0')

def releaseAttested : Str := "RELEASE_ATTESTED"

def provenanceKinds : List Str :=
  [releaseAttested, "KEY_ACTIVATED", "KEY_REVOKED", "RELEASE_REVOKED"]

def releaseAttestedFields : List Str :=
  ["attestation_hash", "statement_hash", "version", "tree_digest"]

def reservedTrackIVKinds : List Str :=
  ["SESSION_OPEN", "SESSION_CLOSE", "LEDGER_ANCHOR", "SNAPSHOT"]

def witnessKinds : List Str :=
  (["INFER", "SANDBOX", "GROUNDING", "REGISTRY", "CONTAINMENT", "MEMORY", "DELIBERATION",
    "IDENTITY", "ROUTE", "ANCHOR_QUORUM", "SALT_ISSUE", "PEER_ROOT", "ATTESTATION",
    "ANCHOR_EXTERNAL", "TASK", "CHALLENGE", "RATE_LIMIT"] : List Str) ++
    reservedTrackIVKinds ++ cognitiveKinds ++ custodyKinds ++ provenanceKinds

def reservedKinds : List Str := reservedTrackIVKinds ++ cognitiveKinds ++ custodyKinds

def isHex64 : Json → Bool
  | .str s => s.length == 64 && s.all isLowerHex
  | _ => false

structure WitnessChain where
  sk : SigningKey
  records : List Json

/-- The arguments of `append`; the two salts stand for `os.urandom`. -/
structure AppendCall where
  kind : Str
  request : Json := .null
  response : Json := .null
  provenance : Json := .null
  semanticDigest : Json := .null
  timestamp : Json := .str "1970-01-01T00:00:00Z"
  entanglement : Json := .null
  sessionId : Json := .null
  irSchemaVersion : Json := .null
  requestSalt : Bytes := []
  responseSalt : Bytes := []

/-- A record without its hash and signature. -/
def unsignedRecord (record : Dict Str Json) : Dict Str Json :=
  record.filter (fun entry => entry.1 ≠ Str.ofString "this_hash" ∧ entry.1 ≠ Str.ofString "sig")

/-- What a successful `append` leaves: the chain with the record, and the answer. -/
structure Appended where
  chain : WitnessChain
  record : Json
  receipt : Json

namespace WitnessChain

variable (crypto : Crypto)

def nodeId (chain : WitnessChain) : Str := canonicalNodeId crypto (chain.sk.publicKey crypto)

def headHash (chain : WitnessChain) : Py Json :=
  match chain.records.getLast? with
  | some record => subscript record "this_hash"
  | none => return .str genesis

def nextIndex (chain : WitnessChain) : Nat := chain.records.length

/-- The missing or falsy fields of a release attestation. -/
def missingFields (provenance : Json) : List Str :=
  releaseAttestedFields.filter (fun field =>
    match provenance with
    | .obj fields => !truthy ((Dict.get? fields field).getD .null)
    | _ => true)

def cognitiveNote (kind : Str) : Str :=
  "record kind " ++ pyRepr kind ++ " is RESERVED by cross-cutting track V (ADR-018 rev 2, Accepted). " ++
    "The name enters the canonical vocabulary before genesis so it can never be added to a " ++
    "hash-chained store afterwards; the meaning arrives with the specification in Ф2 and the " ++
    "runtime in Ф3. Nothing may use it until then."

def custodyNote (kind : Str) : Str :=
  "record kind " ++ pyRepr kind ++ " is RESERVED by ADR-019 rev 3.1 (Accepted). The name enters the " ++
    "canonical vocabulary before genesis so it can never be added to a hash-chained store " ++
    "afterwards; Accepted status authorises the RESERVE and nothing in the runtime — the " ++
    "specification lands in Ф2 and network corroboration in Ф3. A lone production node still " ++
    "refuses with no_independent_panel."

def reprList (items : List Str) : Str :=
  ch '[' :: (joinWith ", " (items.map pyRepr) ++ [ch ']'])

/-- Everything `append` refuses before it takes the lock. -/
def checkAppend (call : AppendCall) : Py Unit := do
  if !witnessKinds.contains call.kind then
    raise .valueError ("unknown record kind " ++ pyRepr call.kind)
  if cognitiveKinds.contains call.kind then raise .reservedValueError (cognitiveNote call.kind)
  if custodyKinds.contains call.kind then raise .reservedValueError (custodyNote call.kind)
  if reservedKinds.contains call.kind then
    raise .valueError ("record kind " ++ pyRepr call.kind ++ " is RESERVED in v0.6.5: the name is " ++
      "declared so it can enter the canonical enum before genesis, but nothing may emit it until " ++
      "its semantics land in Ф2–Ф3 (ADR-015). Emitting a record whose meaning is undefined is worse " ++
      "than not having the name.")
  if provenanceKinds.contains call.kind && call.kind != releaseAttested &&
      !isHex64 call.semanticDigest then
    raise .valueError (call.kind ++ " requires a 64-hex semantic_digest binding what it witnesses " ++
      "(ADR-022 rev 2.4); a bare " ++ call.kind ++ " record is a position with nothing at it")
  if call.kind = releaseAttested ∧ missingFields call.provenance ≠ [] then
    raise .valueError (call.kind ++ " omits " ++ reprList (missingFields call.provenance) ++
      ": ADR-022 D5.5 writes this record only after every mandatory approval is in and every 5.4 " ++
      "check has passed, and the record is what binds that attestation to a version and a tree. An " ++
      "empty one would be an unfinished release reaching the chain, which D5.5 forbids outright.")
  let _ ← checkPlaneValue "semantic_digest" call.semanticDigest 0 0
  let _ ← checkNoReservedValues "semantic_digest" call.semanticDigest 0
  let _ ← checkNoReservedValues "provenance" call.provenance 0
  let _ ← checkNoReservedValues "entanglement" call.entanglement 0
  for entry in ([("session_id", call.sessionId), ("ir_schema_version", call.irSchemaVersion)] :
      List (Str × Json)) do
    if entry.2 ≠ .null then
      raise .valueError ("field " ++ pyRepr entry.1 ++ " is RESERVED in v0.6.5: the name enters the " ++
        "canonical record shape before genesis, but nothing may populate it until its grammar lands " ++
        "in Ф2–Ф3 (ADR-015). A reserved field that accepts anything is a dead-drop with a schedule.")

def commitment (salt : Bytes) : Json → Py Json
  | .null => return .null
  | value => do
    let data ← canonical value
    return .str (H_hex crypto (salt ++ data))

def provenanceHash : Json → Py Json
  | .null => return .null
  | value => do
    let data ← canonical value
    return .str (H_hex crypto data)

/-- A field that is left out when it is absent. -/
def optionalField (key : Str) : Json → Dict Str Json
  | .null => []
  | value => [(key, value)]

/-- `_append_locked` up to the write: the record that would enter the chain. -/
def buildRecord (chain : WitnessChain) (call : AppendCall) : Py Json := do
  let prevHash ← chain.headHash
  let requestCommitment ← commitment crypto call.requestSalt call.request
  let responseCommitment ← commitment crypto call.responseSalt call.response
  let provenance ← provenanceHash crypto call.provenance
  let body :=
    ([("index", .int chain.nextIndex), ("prev_hash", prevHash), ("timestamp", call.timestamp),
      ("node_id", .str (chain.nodeId crypto)), ("kind", .str call.kind),
      ("request_commitment", requestCommitment), ("response_commitment", responseCommitment),
      ("provenance_hash", provenance), ("semantic_digest", call.semanticDigest)] :
        Dict Str Json) ++
    optionalField "session_id" call.sessionId ++
    optionalField "ir_schema_version" call.irSchemaVersion ++
    optionalField "entanglement" call.entanglement
  let data ← canonical (.obj body)
  let thisHash := H_hex crypto data
  let signed ← encode thisHash
  return .obj (body ++ ([("this_hash", .str thisHash),
    ("sig", .str (toHex (chain.sk.sign crypto signed)))] : Dict Str Json))

/-- `append` when the write succeeds; a write that fails leaves the chain as it is. -/
def append (chain : WitnessChain) (call : AppendCall) : Py Appended := do
  checkAppend call
  let record ← chain.buildRecord crypto call
  let thisHash ← subscript record "this_hash"
  return {
    chain := { chain with records := chain.records ++ [record] }
    record := record
    receipt := .obj [("index", .int chain.nextIndex), ("this_hash", thisHash),
      ("kind", .str call.kind), ("anchored", .bool false), ("anchor_eta", .str "batch@root")] }

/-- The loop of `verify_chain` from record `i` on. -/
def verifyLoop (pub : Bytes) : Nat → Json → List Json → Py Bool
  | _, _, [] => return true
  | i, prev, rec :: rest => do
    if ¬Json.pyEq (← subscript rec "index") (.int i) then return false
    if ¬Json.pyEq (← subscript rec "prev_hash") prev then return false
    match rec with
    | .obj fields =>
      let thisHash ← subscript rec "this_hash"
      let data ← canonical (.obj (unsignedRecord fields))
      let hash := H_hex crypto data
      if thisHash ≠ .str hash then return false
      let signed ← encode hash
      let sig ← bytesFromHex (← subscript rec "sig")
      if !crypto.verify pub signed sig then return false
      verifyLoop pub (i + 1) (.str hash) rest
    | _ => raise .attributeError

/-- `verify_chain` under a key of one's own, or under the chain's. -/
def verifyChain (chain : WitnessChain) (given : Bytes := []) : Py Bool :=
  let pub := if given = [] then chain.sk.publicKey crypto else given
  verifyLoop crypto pub 0 (.str genesis) chain.records

variable {crypto} {chain : WitnessChain} {call : AppendCall}

/-- A call that `append` lets through to the lock. -/
structure Admitted (call : AppendCall) : Prop where
  known : witnessKinds.contains call.kind
  cognitive : ¬cognitiveKinds.contains call.kind
  custody : ¬custodyKinds.contains call.kind
  reserved : ¬reservedKinds.contains call.kind
  bound : provenanceKinds.contains call.kind → call.kind ≠ releaseAttested → isHex64 call.semanticDigest
  complete : call.kind = releaseAttested → missingFields call.provenance = []
  plane : ∃ seen, checkPlaneValue "semantic_digest" call.semanticDigest 0 0 = .ok seen
  digest : ∃ seen, checkNoReservedValues "semantic_digest" call.semanticDigest 0 = .ok seen
  provenance : ∃ seen, checkNoReservedValues "provenance" call.provenance 0 = .ok seen
  entanglement : ∃ seen, checkNoReservedValues "entanglement" call.entanglement 0 = .ok seen
  session : call.sessionId = .null
  schema : call.irSchemaVersion = .null

theorem checkAppend_ok : checkAppend call = .ok () ↔ Admitted call := by
  simp only [checkAppend, bind, Py.unless_ok, Py.bind_ok, List.forIn_cons, List.forIn_nil, pure,
    Except.pure, Except.ok.injEq, and_true]
  constructor
  · rintro ⟨known, cognitive, custody, reserved, bound, complete, _, plane, _, digest, _, provenance,
      _, entanglement, _, _, ⟨session, rfl⟩, loop⟩
    simp only [Py.bind_ok, Py.unless_ok] at loop
    obtain ⟨_, ⟨schema, _⟩, _⟩ := loop
    simp only [Bool.and_eq_true, Bool.not_eq_true', bne_iff_ne, not_and, Bool.not_eq_false] at bound
    exact {
      known := by simpa using known
      cognitive, custody, reserved
      bound := fun bare other => bound ⟨bare, other⟩
      complete := fun attested => not_not.mp (fun missing => complete ⟨attested, missing⟩)
      plane := ⟨_, plane⟩, digest := ⟨_, digest⟩, provenance := ⟨_, provenance⟩
      entanglement := ⟨_, entanglement⟩
      session := not_not.mp session, schema := not_not.mp schema }
  · rintro ⟨known, cognitive, custody, reserved, bound, complete, ⟨_, plane⟩, ⟨_, digest⟩,
      ⟨_, provenance⟩, ⟨_, entanglement⟩, session, schema⟩
    refine ⟨by simpa using known, cognitive, custody, reserved, ?_, ?_, _, plane, _, digest, _,
      provenance, _, entanglement, (), _, ⟨not_not.mpr session, rfl⟩, ?_⟩
    · simpa only [Bool.and_eq_true, Bool.not_eq_true', bne_iff_ne, not_and, and_imp,
        Bool.not_eq_false] using bound
    · exact fun both => both.2 (complete both.1)
    · simp only [schema, ne_eq, not_true_eq_false, if_false]
      rfl

theorem buildRecord_fields {record : Json} (built : chain.buildRecord crypto call = .ok record) :
    subscript record "kind" = .ok (.str call.kind) ∧
      subscript record "semantic_digest" = .ok call.semanticDigest := by
  simp only [buildRecord, bind, Py.bind_ok] at built
  obtain ⟨_, _, _, _, _, _, _, _, _, _, _, _, made⟩ := built
  obtain rfl := Except.ok.inj made
  constructor <;> rfl

theorem get?_optionalField {key other : Str} (different : key ≠ other) (value : Json) :
    Dict.get? (optionalField key value) other = none := by
  cases value with
  | null => rfl
  | _ => simp [optionalField, different]

theorem buildRecord_hash {record : Json} (built : chain.buildRecord crypto call = .ok record) :
    ∃ hash, subscript record "this_hash" = .ok (.str hash) := by
  simp only [buildRecord, bind, Py.bind_ok] at built
  obtain ⟨_, _, _, _, _, _, _, _, data, _, _, _, made⟩ := built
  obtain rfl := Except.ok.inj made
  refine ⟨H_hex crypto data, subscript_obj.mpr ?_⟩
  simp only [Dict.get?_append]
  rw [get?_optionalField (by decide), get?_optionalField (by decide), get?_optionalField (by decide)]
  rfl

theorem append_adds {appended : Appended} (made : chain.append crypto call = .ok appended) :
    appended.chain = { chain with records := chain.records ++ [appended.record] } ∧
      subscript appended.record "kind" = .ok (.str call.kind) ∧
      subscript appended.record "semantic_digest" = .ok call.semanticDigest := by
  simp only [append, bind, Py.bind_ok] at made
  obtain ⟨_, _, record, built, _, _, made⟩ := made
  obtain rfl := Except.ok.inj made
  exact ⟨rfl, buildRecord_fields built⟩

end WitnessChain

end JJDai
