import JJDai.Provenance.WeightAttestation

/-! `jjdai.adapters.manifest`: the signed description of a model artifact. -/

namespace JJDai.Provenance

open PyText Canonical Durable Replication

def manifestRequired : List Str :=
  ["schema", "family", "profile_hash", "profile_schema", "architecture", "tokenizer", "chat_template",
    "checkpoint_hash", "quantization", "conversion_toolchain", "backend", "backend_version",
    "runtime_version", "protocol_version", "weight_adapters", "source", "licenses", "golden"]

/-- A pattern that ends with `$`: one newline may follow the match. -/
def matchesToEnd (whole : Str → Bool) (s : Str) : Bool :=
  whole s || (s.getLast? == some newline && whole s.dropLast)

/-- `^(sha256|sha512|blake3):[0-9a-f]{32,128}$`. -/
def matchesContentAddress (s : Str) : Bool :=
  matchesToEnd (fun s =>
    (["sha256:", "sha512:", "blake3:"] : List Str).any (fun algo => List.isPrefixOf algo s) &&
      32 ≤ (s.drop 7).length && (s.drop 7).length ≤ 128 && (s.drop 7).all isLowerHex) s

def matchesDigest (s : Str) : Bool := matchesToEnd (fun s => s.length == 64 && s.all isLowerHex) s

/-- The loop over `weight_adapters` from number `i` on. -/
def checkAdapters : Nat → List Json → Py Unit
  | _, [] => return ()
  | i, wa :: rest => do
    if !matchesContentAddress (pyStr wa) then
      raise .manifestError ("weight_adapters[" ++ natText i ++ "] " ++ reprJson wa ++ " is not a content address" ++
        " — a weight adapter changes what the model does and must be nameable by digest")
    checkAdapters (i + 1) rest

/-- The loop over the fields that name something. -/
def checkNamed (body : Json) : List Str → Py Unit
  | [] => return ()
  | key :: rest => do
    if !nonblank (← subscript body key) then raise .manifestError (key ++ " must be a non-empty string")
    checkNamed body rest

def checkManifestKeys (body : Dict Str Json) : Py Unit := do
  let schema := (Dict.get? body "schema").getD .null
  if schema ≠ .str "jjdai.model-artifact/v1" then
    raise .manifestError ("unknown manifest schema " ++ reprJson schema ++
      "; this build reads jjdai.model-artifact/v1")
  let missing := manifestRequired.filter (fun key => (Dict.get? body key).isNone)
  if missing ≠ [] then
    raise .manifestError ("manifest is missing required key(s): " ++ WitnessChain.reprList missing)
  let unknown := (Dict.keys body).filter (fun key => !manifestRequired.contains key)
  if unknown ≠ [] then
    raise .manifestError ("manifest carries unknown key(s) " ++ WitnessChain.reprList unknown ++
      ": an unread field in a signed provenance object is a claim nobody checks")

def validateManifestBody (body : Json) : Py Json :=
  match body with
  | .obj fields => do
    checkManifestKeys fields
    let ck := pyStr (← subscript body "checkpoint_hash")
    if !matchesContentAddress ck then
      raise .manifestError ("checkpoint_hash " ++ pyRepr ck ++ " is not a content address: expected " ++
        "<algo>:<hex>, e.g. sha256:<64 hex>. A manifest whose artifact reference cannot be resolved " ++
        "proves nothing about the artifact")
    let profile ← subscript body "profile_hash"
    if !matchesDigest (pyStr profile) then
      raise .manifestError ("profile_hash " ++ reprJson profile ++ " is not a 64-hex digest")
    let protocol ← subscript body "protocol_version"
    if protocol ≠ .str "1" then
      raise .manifestError ("EngineBackend protocol version " ++ reprJson protocol ++
        " is not supported by this build (supported: ['1'])")
    checkAdapters 0 (← pyList (← subscript body "weight_adapters"))
    checkNamed body ["family", "architecture", "tokenizer", "chat_template", "backend", "backend_version"]
    return body
  | _ => raise .manifestError "manifest body must be a mapping"

variable (crypto : Crypto)

def manifestHash (body : Json) : Py Str := do
  let data ← canonical body
  return H_hex crypto data

/-- The signature of an envelope over its body. -/
def manifestSigned (envelope body : Json) : Py Bool := do
  let pub ← bytesFromHex (← subscript envelope "pubkey")
  let data ← canonical body
  let sig ← bytesFromHex (← subscript envelope "sig")
  return crypto.verify pub data sig

def verifyManifest (envelope : Json) : Py Json := do
  let body ← dotGet envelope "body"
  if !isMapping body then raise .manifestError "envelope carries no body"
  let _ ← validateManifestBody body
  let digest ← manifestHash crypto body
  let declared ← dotGet envelope "manifest_hash"
  if declared ≠ .str digest then
    raise .manifestError ("manifest_hash does not match the body it claims to describe (declared " ++
      reprJson declared ++ ", computed " ++ pyRepr digest ++ ")")
  match manifestSigned crypto envelope body with
  | .error e =>
    if e.kind = .keyError ∨ e.isValueError then
      raise .manifestError ("malformed signature envelope: " ++ e.text)
    else .error e
  | .ok ok =>
    if !ok then raise .manifestError "manifest signature does not verify"
    return body

/-- A body whose schema, declared hash and signature hold. -/
structure SignedManifest (envelope body : Json) where
  carried : dotGet envelope "body" = .ok body
  schema : validateManifestBody body = .ok body
  data : Bytes
  text : canonical body = .ok data
  declared : dotGet envelope "manifest_hash" = .ok (.str (H_hex crypto data))
  pub : Bytes
  sig : Bytes
  key : ∃ hex, subscript envelope "pubkey" = .ok hex ∧ bytesFromHex hex = .ok pub
  signature : ∃ hex, subscript envelope "sig" = .ok hex ∧ bytesFromHex hex = .ok sig
  verified : crypto.verify pub data sig = true

variable {crypto} {envelope body : Json}

theorem validateManifestBody_same {other : Json} (valid : validateManifestBody body = .ok other) :
    other = body := by
  cases body with
  | obj fields =>
    simp only [validateManifestBody, bind, Py.bind_ok, Py.unless_ok] at valid
    obtain ⟨_, _, _, _, _, _, _, _, _, _, _, _, _, _, _, _, _, _, _, same⟩ := valid
    exact (Except.ok.inj same).symm
  | _ => cases valid

theorem manifest_of_verifies (accepted : verifyManifest crypto envelope = .ok body) :
    Nonempty (SignedManifest crypto envelope body) := by
  simp only [verifyManifest, bind, Py.bind_ok, Py.unless_ok] at accepted
  obtain ⟨found, carried, _, checked, schema, digest, hashed, declared, declaredRead, same, accepted⟩ := accepted
  obtain rfl := validateManifestBody_same schema
  simp only [manifestHash, bind, Py.bind_ok] at hashed
  obtain ⟨data, text, named⟩ := hashed
  obtain rfl := Except.ok.inj named
  cases signed : manifestSigned crypto envelope checked with
  | error e =>
    simp only [signed] at accepted
    split at accepted <;> cases accepted
  | ok ok =>
    simp only [signed, Py.unless_ok] at accepted
    obtain ⟨passed, accepted⟩ := accepted
    obtain rfl : ok = true := by simpa using passed
    obtain rfl := Except.ok.inj accepted
    simp only [manifestSigned, bind, Py.bind_ok] at signed
    obtain ⟨pubHex, pubRead, pub, key, data', text', sigHex, sigRead, sig, signature, verified⟩ := signed
    obtain rfl := Except.ok.inj (text.symm.trans text')
    exact ⟨{
      carried, schema, data, text, pub, sig
      declared := declaredRead.trans (congrArg Except.ok (not_not.mp same))
      key := ⟨pubHex, pubRead, key⟩
      signature := ⟨sigHex, sigRead, signature⟩
      verified := Except.ok.inj verified }⟩

end JJDai.Provenance
