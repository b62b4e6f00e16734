import JJDai.Release.Authorizer

/-! `kernel.toolset`: the manifest of a toolset, from the bytes of its file to a document that may
be used. -/

namespace JJDai.Toolset

open PyText Canonical Provenance Release

def effectClasses : List Str :=
  ["pure", "local_transactional", "local_nontransactional", "external", "unknown"]

def admissibleEffectClasses : List Str := ["pure"]

def deferredEffectClasses : List Str := ["local_transactional", "local_nontransactional", "external"]

def effectClassUnknown : Str := "unknown"

def checkEffectClass (value : Json) : Py Unit :=
  if value ∈ admissibleEffectClasses.map Json.str then return ()
  else if value = .str effectClassUnknown then
    raise .reservedValueError ("tool effect class " ++ reprJson value ++ " is FAIL-CLOSED (ADR-022 D9, ADR-019 D4): a " ++
      "tool that does not declare its maximum effect is refused, never treated as harmless. This refusal outlives the " ++
      "phase gate on the classes below it — `unknown` is not a class waiting for its runtime, it is the absence of one.")
  else if value ∈ deferredEffectClasses.map Json.str then
    raise .reservedValueError ("tool effect class " ++ reprJson value ++ " is RESERVED until Ф2: the write-set, pre-state " ++
      "root and undo plan that make an effect above `pure` reversible are ADR-019 D4 machinery and are not in this " ++
      "tree (ADR-022 D9). Admitting the name before the mechanism would let a manifest declare a limit nothing " ++
      "enforces. The starter toolset is entirely `pure`.")
  else
    raise .reservedValueError ("tool effect class " ++ reprJson value ++ " is not one of " ++
      WitnessChain.reprList effectClasses ++ " (ADR-019 D4 / ADR-022 D9). An unrecognised class is not a new class: it " ++
      "is a tool declaring no enforceable limit, which is what `unknown` means, and it is refused for the same reason. " ++
      "Matching is exact — `PURE` is not `pure`, because a serialized value with two spellings is two values.")

def pureMalformed : Str := "MALFORMED_MODULE"

def guestHostHeadroom : Int := 256 * 1024 * 1024

def maxDeclaredOutput : Int := 8 * 1024 * 1024

structure Limits where
  fuel : Int
  guestMemoryBytes : Int
  hostMemoryBytes : Int
  outputBytes : Int
  deriving DecidableEq

def limitMalformed (field : Str) : PyErr :=
  ⟨.pureBoundaryError pureMalformed, "limit " ++ pyRepr field ++ " must be a positive integer; a missing limit is not " ++
    "'unlimited by default' (ADR-022 D9)"⟩

def positiveLimit (limits : Dict Str Json) (field : Str) : Py Int :=
  match Dict.get? limits field with
  | some (.int value) => if 0 < value then return value else .error (limitMalformed field)
  | _ => .error (limitMalformed field)

/-- The limits, with the bound of the host derived where it is not declared. -/
def deriveHost (limits : Dict Str Json) : Py (Dict Str Json) :=
  match Dict.get? limits "host_memory_bytes", Dict.get? limits "guest_memory_bytes" with
  | none, some guest => do
    let bound ← pyInt guest
    return limits ++ ([("host_memory_bytes", .int (bound + guestHostHeadroom))] : Dict Str Json)
  | _, _ => return limits

def checkLimitsDeclared (limits : Json) : Py Limits :=
  match limits with
  | .obj fields => do
    let fields ← deriveHost fields
    let fuel ← positiveLimit fields "fuel"
    let guestMemoryBytes ← positiveLimit fields "guest_memory_bytes"
    let hostMemoryBytes ← positiveLimit fields "host_memory_bytes"
    let outputBytes ← positiveLimit fields "output_bytes"
    if maxDeclaredOutput < outputBytes then
      raise (.pureBoundaryError pureMalformed) ("output_bytes " ++ intText outputBytes ++ " exceeds the ceiling " ++
        intText maxDeclaredOutput ++ ": the parent buffers up to the declared limit, so an unbounded one moves the " ++
        "flood from the guest to the governor")
    if hostMemoryBytes ≤ guestMemoryBytes then
      raise (.pureBoundaryError pureMalformed) ("host_memory_bytes (" ++ intText hostMemoryBytes ++ ") must exceed " ++
        "guest_memory_bytes (" ++ intText guestMemoryBytes ++ "): the runtime needs room above whatever the guest may " ++
        "grow to, and one number for both kills the runtime and calls it a guest limit")
    return { fuel, guestMemoryBytes, hostMemoryBytes, outputBytes }
  | _ => raise (.pureBoundaryError pureMalformed) "limits must be declared as a mapping"

def toolFields : List Str := ["module", "sha256", "effect_class", "recipe_hash", "limits"]

def checkToolFields (tool : Str) (entry : Json) : List Str → Py Unit
  | [] => return ()
  | field :: rest => do
    if !truthy (← dotGet entry field) then
      if field = "effect_class" then
        raise (.toolsetError "MANIFEST_NO_EFFECT_CLASS") ("tool " ++ pyRepr tool ++ " declares no effect_class. Without " ++
          "one the restriction of the hand in custody is unenforceable, because 'locally reversible' has nothing to be " ++
          "told apart from (ADR-022 D9).")
      if field = "recipe_hash" then
        raise (.toolsetError "MANIFEST_NO_RECIPE") ("tool " ++ pyRepr tool ++ " pins no recipe_hash: a module whose " ++
          "recipe is unnamed is a binary of unknown origin wearing a hash (ADR-022 D7).")
      raise (.toolsetError "MANIFEST_BAD_SCHEMA") ("tool " ++ pyRepr tool ++ " omits " ++ pyRepr field)
    checkToolFields tool entry rest

def checkTool (tool : Str) (entry : Json) : Py Unit := do
  if !isMapping entry then
    raise (.toolsetError "MANIFEST_BAD_SCHEMA") ("tool " ++ pyRepr tool ++ " is not an object")
  checkToolFields tool entry toolFields
  checkEffectClass (← subscript entry "effect_class")
  let _ ← checkLimitsDeclared (← subscript entry "limits")

def checkTools : Dict Str Json → Py Unit
  | [] => return ()
  | (tool, entry) :: rest => do
    checkTool tool entry
    checkTools rest

def schemaToolsetManifest : Str := "jjdai.toolset-manifest/v2"

def authorizationFormInterim : Str := "operator_signature_interim"

def authorizationForms : List Str := [authorizationFormInterim]

def sunsetConditionGauntlet : Str := "profile_gauntlet_available"

def checkForm (doc : Json) (gauntletAvailable : Bool) : Py Unit := do
  let form ← dotGet doc "authorization_form"
  if form ∉ authorizationForms.map Json.str then
    raise (.toolsetError "MANIFEST_UNSIGNED") ("unknown authorization_form " ++ reprJson form ++ "; ADR-022 D10 declares " ++
      WitnessChain.reprList authorizationForms)
  if (← dotGet doc "sunset_condition") ≠ .str sunsetConditionGauntlet then
    raise (.toolsetError "MANIFEST_UNSIGNED") ("an interim authorization must name the condition that ends it: " ++
      pyRepr sunsetConditionGauntlet)
  if form = .str authorizationFormInterim ∧ gauntletAvailable then
    raise (.toolsetError "MANIFEST_SUNSET_REACHED") ("the Profile Gauntlet capability is registered, so a manifest still " ++
      "carrying " ++ reprJson form ++ " refuses to load (ADR-022 D10). Adding an executable tool is an L2 mutation; the " ++
      "interim operator signature stood in for a Gauntlet that did not exist, and it does not outlive its own " ++
      "justification.")

def noSigner : PyErr :=
  ⟨.toolsetError "MANIFEST_UNSIGNED", "toolset manifest carries no `signer` block. The signer's identity must sit INSIDE " ++
    "the signed bytes: with it beside them, one public key registered under two ids verifies as either."⟩

/-- The block inside the signed bytes that says who signed. -/
def signerOf (doc : Json) : Py Json := do
  match ← dotGet doc "signer" with
  | .obj fields => if truthy ((Dict.get? fields "key_id").getD .null) then return .obj fields else .error noSigner
  | _ => .error noSigner

def signatureOf (doc : Json) : Py Str := do
  match ← dotGet doc "signature" with
  | .str (c :: rest) => return c :: rest
  | _ => raise (.toolsetError "MANIFEST_UNSIGNED") ("toolset manifest carries no signature; the manifest is what " ++
      "sanctions an L2 mutation, and an unsigned sanction is none")

/-- The domain must be that of a toolset, and the kind of key one that may serve it. -/
def checkSignerDomain (signer : Json) : Py Unit := do
  let domain ← dotGet signer "domain"
  if domain ≠ .str domainToolsetManifest then
    raise (.toolsetError "MANIFEST_UNSIGNED") ("toolset manifest signed under " ++ reprJson domain ++ "; it must be " ++
      pyRepr domainToolsetManifest ++ " (ADR-022 D10). Release provenance and the right to change a being's hand are " ++
      "separate powers and do not share a domain.")
  let _ ← signingDomain domainToolsetManifest
  checkDomainServes (← dotGet signer "key_domain") purposeToolsetL2Mutation

variable (crypto : Crypto)

/-- `manifest_address`: the bytes that shipped. -/
def manifestAddress (raw : Bytes) : Str := H_hex crypto raw

def toolsetSigningBytes (doc : Json) : Py Bytes := signingBytes domainToolsetManifest doc

/-- What the manifest says of its own position has to be what was answered. -/
def checkDeclared (signer : Json) (position : Int) : Py Unit := do
  let declared ← dotGet signer "authorized_at_witness_seq"
  if declared ≠ .null then
    if (← pyInt declared) ≠ position then
      raise (.toolsetError "MANIFEST_AUTHZ_UNRESOLVED") ("the manifest declares authorized_at_witness_seq=" ++
        reprJson declared ++ "; the release carrying this manifest was attested at " ++ intText position ++
        ". A manifest does not name its own position — that is the whole of the backdating defect, arriving through " ++
        "a field instead of an argument")

/-- The position that the holder of the chain answers with; the manifest does not name its own. -/
def authorizedAt (doc signer : Json) (raw : Option Bytes) : Option (Str → Py Json) → Py (Option Int)
  | none => return none
  | some authorization =>
    match raw with
    | none => raise (.toolsetError "MANIFEST_AUTHZ_UNRESOLVED") ("authorization was supplied without the manifest's raw " ++
        "bytes. The release names this manifest by the sha256 of the FILE; recomputing an address from the parsed " ++
        "document would ask the authorizer about an object the release never named")
    | some raw =>
      match (decodeUtf8 raw).bind Json.loads with
      | none => raise (.toolsetError "MANIFEST_BAD_SCHEMA") "raw manifest bytes are not a JSON document"
      | some parsed => do
        let read ← canonical parsed
        let given ← canonical doc
        if read ≠ given then
          raise (.toolsetError "MANIFEST_AUTHZ_UNRESOLVED") ("the raw bytes and the document passed beside them are two " ++
            "different manifests. The signature would be checked over one and the authorization resolved for the other")
        let position ← pyInt (← authorization (manifestAddress crypto raw))
        checkDeclared signer position
        return some position

/-- The key does not act before its activation. -/
def checkActivated (keyId activated : Json) (position : Int) : Py Unit :=
  if activated = .null then return ()
  else do
    let first ← pyInt activated
    if position < first then
      raise (.toolsetError "MANIFEST_KEY_REVOKED") ("key " ++ reprJson keyId ++ " activates at " ++ pyStr activated ++
        " and this manifest claims " ++ intText position ++ ": a key acts from its declared position, never retroactively")

/-- The key does not act from its revocation on. -/
def checkUnrevoked (keyId revoked : Json) (position : Int) : Py Unit :=
  if revoked = .null then return ()
  else do
    let last ← pyInt revoked
    if last ≤ position then
      raise (.toolsetError "MANIFEST_KEY_REVOKED") ("key " ++ reprJson keyId ++ " was revoked at " ++ pyStr revoked ++
        " and this manifest was authorized at " ++ intText position)

/-- Historical validity where the registry records positions, current validity where it does not. -/
def checkKeyValid (keyId key : Json) (authorized : Option Int) : Py Unit := do
  let activated ← dotGet key "activated_at_witness_seq"
  let revoked ← dotGet key "revoked_at_witness_seq"
  if activated ≠ .null ∨ revoked ≠ .null then
    match authorized with
    | none => raise (.toolsetError "MANIFEST_AUTHZ_UNRESOLVED") ("the registry records a key lifecycle and no RESOLVED " ++
        "authorization position was supplied. Without one there is nothing to judge historical validity AT, and the " ++
        "position may not be taken from the manifest that is being judged: pass `authorization=` from a party holding " ++
        "the chain")
    | some position => do
      checkActivated keyId activated position
      checkUnrevoked keyId revoked position
  else if truthy (← dotGet key "revoked") then
    raise (.toolsetError "MANIFEST_KEY_REVOKED") ("signing key " ++ reprJson keyId ++ " is revoked and the registry " ++
      "records no positions, so historical validity cannot be judged; the weaker current-only answer applies")

def decodePair (sig : Str) (key : Json) : Py (Bytes × Bytes) := do
  let raw ← bytesFromHex (.str sig)
  let pub ← bytesFromHex (← subscript key "public")
  return (raw, pub)

/-- The same, with the refusal of what is not hex. -/
def signatureBytes (sig : Str) (key : Json) : Py (Bytes × Bytes) :=
  match decodePair sig key with
  | .ok pair => return pair
  | .error e =>
    if e.isValueError ∨ e.kind = .typeError ∨ e.kind = .keyError then
      raise (.toolsetError "MANIFEST_BAD_SIGNATURE") "signature or public key is not hex"
    else .error e

def checkSigned (doc key : Json) (sig : Str) : Py Unit := do
  let (raw, pub) ← signatureBytes sig key
  let data ← toolsetSigningBytes doc
  if !crypto.verify pub data raw then
    raise (.toolsetError "MANIFEST_BAD_SIGNATURE") ("toolset manifest signature does not verify over the canonical body " ++
      "under " ++ domainToolsetManifest)

/-- The key that the resolver knows under an id. -/
def resolveKey (resolver : Json → Py Json) (keyId : Json) : Py Json := do
  let key ← resolver keyId
  if !truthy key then
    raise (.toolsetError "MANIFEST_UNKNOWN_KEY") ("signing key " ++ reprJson keyId ++ " is not in the registry")
  return key

def checkRegisteredFor (keyId key : Json) : Py Unit := do
  let domain ← dotGet key "key_domain"
  if domain ≠ .str keyDomainToolsetAuthorization then
    raise (.toolsetError "MANIFEST_UNKNOWN_KEY") ("key " ++ reprJson keyId ++ " is registered for " ++ reprJson domain ++
      ", not " ++ pyRepr keyDomainToolsetAuthorization ++ ". The manifest may claim any domain it likes; what counts is " ++
      "the domain the REGISTRY records for the key that actually signed.")

def toolsOf (doc : Json) : Py (Dict Str Json) := do
  match ← dotGet doc "tools" with
  | .obj tools => return Json.sortEntries tools
  | _ => raise (.toolsetError "MANIFEST_BAD_SCHEMA") "manifest declares no tools mapping"

def badSchema : PyErr :=
  ⟨.toolsetError "MANIFEST_BAD_SCHEMA", "toolset manifest must declare schema " ++ pyRepr schemaToolsetManifest ++
    "; v1 is not loaded, because v1 has no effect class and the hand cannot be limited in custody without one " ++
    "(ADR-022 D9)"⟩

def checkSchema : Json → Py Unit
  | .obj fields => if Dict.get? fields "schema" = some (.str schemaToolsetManifest) then return () else .error badSchema
  | _ => .error badSchema

def noResolver : PyErr :=
  ⟨.toolsetError "MANIFEST_NO_RESOLVER", "no release-key resolver: the toolset manifest sanctions an L2 mutation and " ++
    "cannot be accepted unverified. Until a key registry exists on this node the wasm profile is unavailable, which is " ++
    "the honest state — an object that looks signed is not a signature (ADR-022 D8, D10)."⟩

def validateManifest (doc : Json) (resolver : Option (Json → Py Json)) (gauntletAvailable : Bool)
    (authorization : Option (Str → Py Json)) (raw : Option Bytes) : Py Json :=
  match resolver with
  | none => .error noResolver
  | some resolver => do
    checkSchema doc
    checkForm doc gauntletAvailable
    let signer ← signerOf doc
    let sig ← signatureOf doc
    checkSignerDomain signer
    let keyId ← subscript signer "key_id"
    let key ← resolveKey resolver keyId
    let authorized ← authorizedAt crypto doc signer raw authorization
    checkKeyValid keyId key authorized
    checkRegisteredFor keyId key
    checkSigned crypto doc key sig
    let tools ← toolsOf doc
    checkTools tools
    return doc

/-- `load_verified_manifest`: `file` is what opening and reading the path gives. -/
def loadVerifiedManifest (path : Str) (file : Py Bytes) (resolver : Option (Json → Py Json)) (gauntletAvailable : Bool)
    (authorization : Option (Str → Py Json)) : Py Json :=
  match file with
  | .error e =>
    if e.kind = .osError then
      raise (.toolsetError "MANIFEST_BAD_SCHEMA") ("toolset manifest at " ++ pyRepr path ++ " unreadable: " ++ e.text)
    else .error e
  | .ok raw =>
    match (decodeUtf8 raw).bind Json.loads with
    | none => raise (.toolsetError "MANIFEST_BAD_SCHEMA") ("toolset manifest at " ++ pyRepr path ++ " unreadable: ")
    | some doc => validateManifest crypto doc resolver gauntletAvailable authorization (some raw)

variable {crypto}

/-- A key that acts at a position, as the registry of the node records it. -/
structure KeyActive (key : Json) (position : Int) : Prop where
  activated : ∃ value, dotGet key "activated_at_witness_seq" = .ok value ∧
    (value = .null ∨ ∃ first, pyInt value = .ok first ∧ first ≤ position)
  revoked : ∃ value, dotGet key "revoked_at_witness_seq" = .ok value ∧
    (value = .null ∨ ∃ last, pyInt value = .ok last ∧ position < last)

/-- A document signed under a key, over the domain of a toolset. -/
def Signed (crypto : Crypto) (doc key : Json) : Prop :=
  ∃ hex publicHex sig pub data, dotGet doc "signature" = .ok (.str hex) ∧ subscript key "public" = .ok publicHex ∧
    bytesFromHex (.str hex) = .ok sig ∧ bytesFromHex publicHex = .ok pub ∧
    signingBytes domainToolsetManifest doc = .ok data ∧ crypto.verify pub data sig = true

theorem checkActivated_ok {keyId activated : Json} {position : Int} (passed : checkActivated keyId activated position = .ok ()) :
    activated = .null ∨ ∃ first, pyInt activated = .ok first ∧ first ≤ position := by
  unfold checkActivated at passed
  by_cases absent : activated = .null
  · exact .inl absent
  · simp only [absent, if_false, bind, Py.bind_ok] at passed
    obtain ⟨first, read, passed⟩ := passed
    refine .inr ⟨first, read, ?_⟩
    by_contra early
    simp [not_le.mp early, raise] at passed

theorem checkUnrevoked_ok {keyId revoked : Json} {position : Int} (passed : checkUnrevoked keyId revoked position = .ok ()) :
    revoked = .null ∨ ∃ last, pyInt revoked = .ok last ∧ position < last := by
  unfold checkUnrevoked at passed
  by_cases absent : revoked = .null
  · exact .inl absent
  · simp only [absent, if_false, bind, Py.bind_ok] at passed
    obtain ⟨last, read, passed⟩ := passed
    refine .inr ⟨last, read, ?_⟩
    by_contra late
    simp [not_lt.mp late, raise] at passed

theorem checkKeyValid_ok {keyId key : Json} {position : Int} (passed : checkKeyValid keyId key (some position) = .ok ()) :
    KeyActive key position := by
  simp only [checkKeyValid, bind, Py.bind_ok] at passed
  obtain ⟨activated, activatedRead, revoked, revokedRead, passed⟩ := passed
  by_cases recorded : activated ≠ .null ∨ revoked ≠ .null
  · simp only [recorded, if_true, Py.bind_ok] at passed
    obtain ⟨_, opened, unrevoked⟩ := passed
    exact ⟨⟨activated, activatedRead, checkActivated_ok opened⟩, revoked, revokedRead, checkUnrevoked_ok unrevoked⟩
  · obtain ⟨none, none'⟩ := not_or.mp recorded
    exact ⟨⟨activated, activatedRead, .inl (not_not.mp none)⟩, revoked, revokedRead, .inl (not_not.mp none')⟩

theorem signatureBytes_ok {sig : Str} {key : Json} {raw pub : Bytes} (decoded : signatureBytes sig key = .ok (raw, pub)) :
    ∃ publicHex, subscript key "public" = .ok publicHex ∧ bytesFromHex (.str sig) = .ok raw ∧
      bytesFromHex publicHex = .ok pub := by
  unfold signatureBytes at decoded
  split at decoded
  · rename_i pair read
    obtain rfl := Except.ok.inj decoded
    simp only [decodePair, bind, Py.bind_ok] at read
    obtain ⟨raw', rawRead, publicHex, found, pub', pubRead, same⟩ := read
    obtain ⟨rfl, rfl⟩ := Prod.mk.inj (Except.ok.inj same)
    exact ⟨publicHex, found, rawRead, pubRead⟩
  · split at decoded <;> cases decoded

theorem signatureOf_ok {doc : Json} {sig : Str} (read : signatureOf doc = .ok sig) : dotGet doc "signature" = .ok (.str sig) := by
  simp only [signatureOf, bind, Py.bind_ok] at read
  obtain ⟨value, found, read⟩ := read
  split at read
  · obtain rfl := Except.ok.inj read
    exact found
  · cases read

theorem checkSigned_ok {doc key : Json} {sig : Str} (read : signatureOf doc = .ok sig)
    (passed : checkSigned crypto doc key sig = .ok ()) : Signed crypto doc key := by
  simp only [checkSigned, bind, Py.bind_ok] at passed
  obtain ⟨⟨raw, pub⟩, decoded, data, text, passed⟩ := passed
  obtain ⟨publicHex, found, rawRead, pubRead⟩ := signatureBytes_ok decoded
  refine ⟨sig, publicHex, raw, pub, data, signatureOf_ok read, found, rawRead, pubRead, text, ?_⟩
  cases verified : crypto.verify pub data raw with
  | true => rfl
  | false =>
    rw [verified] at passed
    cases passed

theorem authorizedAt_ok {doc signer : Json} {raw : Bytes} {authorization : Str → Py Json} {authorized : Option Int}
    (found : authorizedAt crypto doc signer (some raw) (some authorization) = .ok authorized) :
    ∃ answer position, authorization (manifestAddress crypto raw) = .ok answer ∧ pyInt answer = .ok position ∧
      authorized = some position := by
  simp only [authorizedAt] at found
  split at found
  · cases found
  · simp only [bind, Py.bind_ok, Py.unless_ok] at found
    obtain ⟨_, _, _, _, _, answer, answered, position, counted, _, _, made⟩ := found
    exact ⟨answer, position, answered, counted, (Except.ok.inj made).symm⟩

/-- What a validated manifest says of its signer, and what was asked about it. -/
structure Validated (crypto : Crypto) (doc : Json) (resolver : Json → Py Json) (authorization : Option (Str → Py Json))
    (raw : Option Bytes) (signer keyId key : Json) (authorized : Option Int) : Prop where
  carried : dotGet doc "signer" = .ok signer
  named : subscript signer "key_id" = .ok keyId
  resolved : resolver keyId = .ok key
  answered : authorizedAt crypto doc signer raw authorization = .ok authorized
  valid : checkKeyValid keyId key authorized = .ok ()
  registered : dotGet key "key_domain" = .ok (.str keyDomainToolsetAuthorization)
  signed : Signed crypto doc key

theorem signerOf_ok {doc signer : Json} (read : signerOf doc = .ok signer) : dotGet doc "signer" = .ok signer := by
  simp only [signerOf, bind, Py.bind_ok] at read
  obtain ⟨value, found, read⟩ := read
  split at read
  · split at read
    · obtain rfl := Except.ok.inj read
      exact found
    · cases read
  · cases read

theorem resolveKey_ok {resolver : Json → Py Json} {keyId key : Json} (found : resolveKey resolver keyId = .ok key) :
    resolver keyId = .ok key := by
  simp only [resolveKey, bind, Py.bind_ok, Py.unless_ok] at found
  obtain ⟨other, resolved, _, made⟩ := found
  obtain rfl := Except.ok.inj made
  exact resolved

theorem checkRegisteredFor_ok {keyId key : Json} (passed : checkRegisteredFor keyId key = .ok ()) :
    dotGet key "key_domain" = .ok (.str keyDomainToolsetAuthorization) := by
  simp only [checkRegisteredFor, bind, Py.bind_ok] at passed
  obtain ⟨domain, read, passed⟩ := passed
  by_cases same : domain = .str keyDomainToolsetAuthorization
  · exact same ▸ read
  · simp [same, raise] at passed

theorem validateManifest_ok {doc later : Json} {resolver : Json → Py Json} {gauntletAvailable : Bool}
    {authorization : Option (Str → Py Json)} {raw : Option Bytes}
    (accepted : validateManifest crypto doc (some resolver) gauntletAvailable authorization raw = .ok later) :
    later = doc ∧ ∃ signer keyId key authorized,
      Validated crypto doc resolver authorization raw signer keyId key authorized := by
  simp only [validateManifest, bind, Py.bind_ok] at accepted
  obtain ⟨_, _, _, _, signer, signerRead, sig, sigRead, _, _, keyId, named, key, resolved, authorized, answered, _, valid, _,
    registered, _, signed, _, _, _, _, made⟩ := accepted
  exact ⟨(Except.ok.inj made).symm, signer, keyId, key, authorized, {
    carried := signerOf_ok signerRead
    named
    resolved := resolveKey_ok resolved
    answered
    valid
    registered := checkRegisteredFor_ok registered
    signed := checkSigned_ok sigRead signed }⟩

/-- A manifest that loads with the callback of a publication was authorized by a release that
stands, at its place in the chain, by a key that acted there. -/
theorem loaded_manifest_is_authorized {publication doc : Json} {before held : Held} {authorizer : Authorizer} {path : Str}
    {raw : Bytes} {resolver : Json → Py Json} {gauntletAvailable : Bool}
    (made : toolsetAuthorizer crypto publication before = .ok authorizer)
    (loaded : loadVerifiedManifest crypto path (.ok raw) (some resolver) gauntletAvailable
      (some (fun address => do return .int (← authorizer.authorize crypto held address))) = .ok doc) :
    ∃ (position : Nat) (signer keyId key : Json),
      Authorizes crypto publication held (manifestAddress crypto raw) position ∧
      (decodeUtf8 raw).bind Json.loads = some doc ∧ dotGet doc "signer" = .ok signer ∧
      subscript signer "key_id" = .ok keyId ∧ resolver keyId = .ok key ∧
      dotGet key "key_domain" = .ok (.str keyDomainToolsetAuthorization) ∧ KeyActive key position ∧
      Signed crypto doc key := by
  simp only [loadVerifiedManifest] at loaded
  split at loaded
  · cases loaded
  · rename_i parsed read
    obtain ⟨rfl, signer, keyId, key, authorized, validated⟩ := validateManifest_ok loaded
    obtain ⟨answer, position, answered, counted, rfl⟩ := authorizedAt_ok validated.answered
    simp only [bind, Py.bind_ok] at answered
    obtain ⟨index, resolvedAt, same⟩ := answered
    obtain rfl := Except.ok.inj same
    obtain rfl := Except.ok.inj counted
    obtain ⟨place, rfl, authorizes⟩ := authorize_ok made resolvedAt
    exact ⟨place, signer, keyId, key, authorizes, read, validated.carried, validated.named, validated.resolved,
      validated.registered, checkKeyValid_ok validated.valid, validated.signed⟩

theorem toolsetAuthorizer_of {publication attestation statement ref : Json} {manifest : Str} {position : Int} {held : Held}
    {control : Control} (complete : held.context.requireComplete "resolving toolset authorization" = .ok ())
    (debt : checkDebt held.context blocksPublication "consuming a publication for toolset authorization" = .ok ())
    (verified : held.verify crypto publication = .ok control) (read : subscript publication "attestation" = .ok attestation)
    (stated : subscript attestation "statement" = .ok statement)
    (named : subscript statement "toolset_manifest_hash" = .ok (.str manifest))
    (referred : subscript publication "witness_ref" = .ok ref) (numbered : subscript ref "index" = .ok (.int position)) :
    toolsetAuthorizer crypto publication held = .ok ⟨publication, manifest, position⟩ := by
  simp only [toolsetAuthorizer, complete, debt, verified, read, stated, named, referred, numbered, pyInt, pyStr, bind,
    Except.bind]
  rfl

theorem authorize_of {publication : Json} {manifest : Str} {position : Int} {held : Held} {control : Control}
    (verified : held.verify crypto publication = .ok control) :
    (⟨publication, manifest, position⟩ : Authorizer).authorize crypto held manifest = .ok position := by
  simp only [Authorizer.authorize, verified, bind, Except.bind, ne_eq, not_true_eq_false, if_false]
  rfl

theorem authorizedAt_of {doc signer : Json} {raw data : Bytes} {authorization : Str → Py Json} {position : Int}
    (read : (decodeUtf8 raw).bind Json.loads = some doc) (text : canonical doc = .ok data)
    (answered : authorization (manifestAddress crypto raw) = .ok (.int position))
    (declared : checkDeclared signer position = .ok ()) :
    authorizedAt crypto doc signer (some raw) (some authorization) = .ok (some position) := by
  simp only [authorizedAt, read, text, answered, pyInt, bind, Except.bind, ne_eq, not_true_eq_false, if_false, pure,
    Except.pure, declared]

theorem validateManifest_of {doc signer keyId key : Json} {sig : Str} {tools : Dict Str Json} {resolver : Json → Py Json}
    {gauntletAvailable : Bool} {authorization : Option (Str → Py Json)} {raw : Option Bytes} {authorized : Option Int}
    (schema : checkSchema doc = .ok ()) (form : checkForm doc gauntletAvailable = .ok ()) (carried : signerOf doc = .ok signer)
    (signature : signatureOf doc = .ok sig) (domain : checkSignerDomain signer = .ok ())
    (named : subscript signer "key_id" = .ok keyId) (resolved : resolveKey resolver keyId = .ok key)
    (answered : authorizedAt crypto doc signer raw authorization = .ok authorized)
    (valid : checkKeyValid keyId key authorized = .ok ()) (registered : checkRegisteredFor keyId key = .ok ())
    (signed : checkSigned crypto doc key sig = .ok ()) (listed : toolsOf doc = .ok tools) (each : checkTools tools = .ok ()) :
    validateManifest crypto doc (some resolver) gauntletAvailable authorization raw = .ok doc := by
  simp only [validateManifest, schema, form, carried, signature, domain, named, resolved, answered, valid, registered, signed,
    listed, each, bind, Except.bind]
  rfl

theorem loadVerifiedManifest_of {doc : Json} {path : Str} {raw : Bytes} {resolver : Option (Json → Py Json)}
    {gauntletAvailable : Bool} {authorization : Option (Str → Py Json)}
    (read : (decodeUtf8 raw).bind Json.loads = some doc)
    (accepted : validateManifest crypto doc resolver gauntletAvailable authorization (some raw) = .ok doc) :
    loadVerifiedManifest crypto path (.ok raw) resolver gauntletAvailable authorization = .ok doc := by
  simp only [loadVerifiedManifest, read]
  exact accepted

theorem answerOf_ok {authorizer : Authorizer} {held : Held} {address : Str} {position : Int}
    (answered : authorizer.authorize crypto held address = .ok position) :
    (do return .int (← authorizer.authorize crypto held address) : Py Json) = .ok (.int position) := by
  rw [answered]
  rfl

def sampleToolsetKey : Json :=
  .obj [("public", .str sampleHex), ("key_domain", .str keyDomainToolsetAuthorization), ("activated_at_witness_seq", .int 1)]

def sampleSigner : Json :=
  .obj [("domain", .str domainToolsetManifest), ("key_domain", .str keyDomainToolsetAuthorization), ("key_id", .str "kt")]

def sampleResolver : Json → Py Json := fun _ => return sampleToolsetKey

set_option maxRecDepth 4000 in
private theorem sample_manifest :
    (Release.sampleManifest.valid ∧ encodable Release.sampleManifest.dumps ∧ writable Release.sampleManifest.sortKeys ∧
      H_hex Crypto.sample sampleManifestRaw = sampleManifestHash) ∧
    (sampleContext.requireComplete "resolving toolset authorization" = .ok () ∧
      checkDebt sampleContext blocksPublication "consuming a publication for toolset authorization" = .ok ()) ∧
    (subscript sampleAttestation "statement" = .ok sampleStatement ∧
      subscript sampleStatement "toolset_manifest_hash" = .ok (.str sampleManifestHash)) ∧
    (checkSchema Release.sampleManifest.sortKeys = .ok () ∧ checkForm Release.sampleManifest.sortKeys false = .ok () ∧
      signerOf Release.sampleManifest.sortKeys = .ok sampleSigner ∧ checkSignerDomain sampleSigner = .ok () ∧
      subscript sampleSigner "key_id" = .ok (.str "kt") ∧ resolveKey sampleResolver (.str "kt") = .ok sampleToolsetKey ∧
      checkDeclared sampleSigner 2 = .ok () ∧ checkKeyValid (.str "kt") sampleToolsetKey (some 2) = .ok () ∧
      checkRegisteredFor (.str "kt") sampleToolsetKey = .ok () ∧ toolsOf Release.sampleManifest.sortKeys = .ok []) ∧
    ((do checkSigned Crypto.sample Release.sampleManifest.sortKeys sampleToolsetKey (← signatureOf Release.sampleManifest.sortKeys)) : Py Unit) =
      .ok () := by
  decide +kernel

private theorem sample_loads : (decodeUtf8 sampleManifestRaw).bind Json.loads = some Release.sampleManifest.sortKeys := by
  obtain ⟨⟨valid, plain, _⟩, _⟩ := sample_manifest
  have encoded : encodeUtf8 Release.sampleManifest.dumps = some sampleManifestRaw := by
    rw [← encodeUtf8_isSome] at plain
    obtain ⟨raw, made⟩ := Option.isSome_iff_exists.mp plain
    rw [sampleManifestRaw, made, Option.getD_some]
  rw [decodeUtf8_encodeUtf8 encoded, Option.bind_some, loads_dumps valid]

private theorem sample_loaded : ∃ (publication : Json) (held : Held) (authorizer : Authorizer),
    toolsetAuthorizer Crypto.sample publication held = .ok authorizer ∧
    loadVerifiedManifest Crypto.sample "m" (.ok sampleManifestRaw) (some sampleResolver) false
      (some (fun address => do return .int (← authorizer.authorize Crypto.sample held address))) =
      .ok Release.sampleManifest.sortKeys := by
  obtain ⟨⟨_, _, text, shipped⟩, ⟨complete, debt⟩, ⟨stated, named⟩, ⟨schema, form, signer, domain, keyId, resolved, declared,
    valid, registered, tools⟩, signed⟩ := sample_manifest
  obtain ⟨sig, signature, checked⟩ := Py.bind_ok.mp signed
  obtain ⟨data, written⟩ := WitnessChain.canonical_ok text
  obtain ⟨office, next, publication, registry, registry', place, published, clear⟩ := sample_office_publishes
  have publishing := publish_ok published
  obtain ⟨control, counted⟩ := publishing.verified
  rw [← registry] at publishing counted
  have extended : Extends office.registry next.registry := by
    rw [registry, registry']
    exact Extends.refl _
  have verified : (⟨next.chain, next.registry, sampleContext, []⟩ : Held).verify Crypto.sample publication = .ok control :=
    published_verifies Crypto.sample_lawful publishing extended .refl clear counted
  obtain ⟨attested, _, placed⟩ := publishing.placed
  obtain ⟨ref, shape, _, numbered, _⟩ := placed.resolves
  rw [place] at numbered
  have read : subscript publication "attestation" = .ok sampleAttestation := by
    rw [shape]
    rfl
  have referred : subscript publication "witness_ref" = .ok ref := by
    rw [shape]
    rfl
  have made := toolsetAuthorizer_of complete debt verified read stated named referred numbered
  have answered : (⟨publication, sampleManifestHash, ((2 : Nat) : Int)⟩ : Authorizer).authorize Crypto.sample
      ⟨next.chain, next.registry, sampleContext, []⟩ (manifestAddress Crypto.sample sampleManifestRaw) =
      .ok ((2 : Nat) : Int) := by
    rw [manifestAddress, shipped]
    exact authorize_of verified
  refine ⟨publication, _, _, made, ?_⟩
  exact loadVerifiedManifest_of sample_loads (validateManifest_of schema form signer signature domain keyId resolved
    (authorizedAt_of sample_loads written (answerOf_ok answered) declared) valid registered checked tools rfl)

/-- The manifest of the sample release is authorized by it. -/
theorem loaded_manifest_is_authorized_sample : ∃ (publication : Json) (held : Held) (position : Nat) (signer keyId key : Json),
    Authorizes Crypto.sample publication held (manifestAddress Crypto.sample sampleManifestRaw) position ∧
    (decodeUtf8 sampleManifestRaw).bind Json.loads = some Release.sampleManifest.sortKeys ∧
    dotGet Release.sampleManifest.sortKeys "signer" = .ok signer ∧ subscript signer "key_id" = .ok keyId ∧
    sampleResolver keyId = .ok key ∧ dotGet key "key_domain" = .ok (.str keyDomainToolsetAuthorization) ∧
    KeyActive key position ∧ Signed Crypto.sample Release.sampleManifest.sortKeys key := by
  obtain ⟨publication, held, authorizer, made, loaded⟩ := sample_loaded
  exact ⟨publication, held, loaded_manifest_is_authorized made loaded⟩

end JJDai.Toolset
