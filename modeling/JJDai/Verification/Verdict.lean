import JJDai.Primitive.Builtins
import JJDai.Verification.Schema

/-! `core.verdict`: verdicts sealed by the verifier and opened by the consumer. -/

namespace JJDai

open PyText Canonical

structure Verdict where
  ok : Bool
  reachable : List Bool
  minMargin : PyFloat
  verifierFp : Str
  determinism : Str
  note : Str := []

def signedFields : List Str :=
  ["ok", "reachable", "min_margin", "verifier_fp", "determinism", "verifier_node_id", "context_hash",
    "nonce"]

/-- Everything that could change a verdict, with what an absent field stands for. -/
def contextFields : List (Str × Json) :=
  [("substrate_id", .null), ("adapter_ids", .arr []), ("messages", .arr []), ("sampling", .obj []),
    ("tokens", .arr []), ("request_id", .null), ("nonce", .null)]

def scoringContext (request : Json) : Py Json := do
  let entries ← contextFields.mapM (fun entry => do
    let value ← getDefault request entry.1 entry.2
    return (entry.1, value))
  return .obj entries

variable (crypto : Crypto)

def scoringContextHash (request : Json) : Py Str := do
  let context ← scoringContext request
  let data ← canonical context
  return H_hex crypto data

def signedBody (body : Json) : Py Json := do
  let entries ← signedFields.mapM (fun field => do
    let value ← subscript body field
    return (field, value))
  return .obj entries

def noteField (verdict : Verdict) : Dict Str Json :=
  if verdict.note ≠ [] then [("note", .str (verdict.note.take 512))] else []

def sealVerdict (verdict : Verdict) (request : Json) (sk : SigningKey) : Py Json := do
  let contextHash ← scoringContextHash crypto request
  let nonce ← subscript request "nonce"
  let body : Dict Str Json :=
    ([("ok", .bool verdict.ok), ("reachable", .arr (verdict.reachable.map Json.bool)),
      ("min_margin", .float verdict.minMargin), ("verifier_fp", .str verdict.verifierFp),
      ("determinism", .str verdict.determinism),
      ("verifier_node_id", .str (canonicalNodeId crypto (sk.publicKey crypto))),
      ("context_hash", .str contextHash), ("nonce", nonce)] : Dict Str Json) ++ noteField verdict
  let signed ← signedBody (.obj body)
  let data ← canonical signed
  let body := body ++ ([("sig", .str (toHex (sk.sign crypto data)))] : Dict Str Json)
  match verdictEnvelope.validate (.obj body) "VerdictEnvelope" with
  | .ok envelope => return envelope
  | .error e => .error e.err

abbrev NonceRegistry := List (Json × Json)

def NonceRegistry.use (seen : NonceRegistry) (nodeId nonce : Json) : Py NonceRegistry := do
  if (nodeId, nonce) ∈ seen then
    raise .verdictError ("replay: verdict nonce " ++ reprJson nonce ++ " from " ++ pyStr nodeId ++
      " already counted")
  return seen ++ [(nodeId, nonce)]

def boundFields : List Str := ["verifier_node_id", "context_hash", "nonce", "sig"]

/-- The loop of `open_verdict` over the fields that bind. -/
def checkBound (env : Json) : List Str → Py Unit
  | [] => return ()
  | field :: rest => do
    if !truthy (← dotGet env field) then
      raise .verdictError ("unbound verdict: missing " ++ field ++ " (v0.3.1.2 requires full binding)")
    checkBound env rest

/-- `open_verdict`: the trusted envelope, and the registry after it. -/
def openVerdict (envelope request verifierPubkeyHex : Json) (nonces : Option NonceRegistry) :
    Py (Json × Option NonceRegistry) := do
  let env ←
    match verdictEnvelope.validate envelope "VerdictEnvelope" with
    | .ok env => .ok env
    | .error (.raised e) => .error e
    | .error e => raise .verdictError ("malformed verdict: " ++ e.err.text)
  checkBound env boundFields
  let pub ← bytesFromHex verifierPubkeyHex
  let nodeId ← subscript env "verifier_node_id"
  if nodeId ≠ .str (canonicalNodeId crypto pub) then
    raise .verdictError "verifier_node_id does not match presented pubkey"
  let signed ← signedBody env
  let data ← canonical signed
  let sig ← bytesFromHex (← subscript env "sig")
  if !crypto.verify pub data sig then
    raise .verdictError "bad verifier signature (forged ok/min_margin or wrong key)"
  let contextHash ← subscript env "context_hash"
  if contextHash ≠ .str (← scoringContextHash crypto request) then
    raise .verdictError "context_hash mismatch — verdict lifted onto a different request"
  let nonce ← subscript env "nonce"
  if nonce ≠ (← dotGet request "nonce") then
    raise .verdictError "nonce mismatch between verdict and request"
  match nonces with
  | none => return (env, none)
  | some seen =>
    let seen ← seen.use nodeId nonce
    return (env, some seen)

end JJDai
