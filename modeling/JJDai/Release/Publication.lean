import JJDai.Release.Attestation
import JJDai.Release.Lifecycle

/-! `jjdai.release`: publishing a release, revoking one by name, and verifying a publication
against the chain. -/

namespace JJDai.Release

open PyText Canonical Provenance Replication

def schemaReleasePublication : Str := "jjdai.release-publication/v1"

def schemaReleaseRevocation : Str := "jjdai.release-revocation/v1"

variable (crypto : Crypto)

/-- `{e["id"]: e.get("blocks") for e in events}`. -/
def blocksOf : List (Json × Json) → List Json → Py (List (Json × Json))
  | blocks, [] => return blocks
  | blocks, event :: rest => do
    let position ← subscript event "id"
    let boundary ← dotGet event "blocks"
    let blocks ← pyStore blocks position boundary
    blocksOf blocks rest

/-- The projected states, and what each position blocks. -/
def readDebt (status : Json) : Py (List (Json × Str) × List (Json × Json)) := do
  let states ← loadDebtLedger status
  let events ← pyList (← subscript (← subscript status "release_debt") "events")
  let blocks ← blocksOf [] events
  return (states, blocks)

def joinNames : List Json → Py (List Str)
  | [] => return []
  | .str name :: rest => do
    let later ← joinNames rest
    return name :: later
  | _ :: _ => raise .typeError

def checkDebt (context : ReleaseContext) (boundary what : Str) : Py Unit :=
  match context.debtReader with
  | none => raise (.releaseError "REL_DEBT_OPEN") (what ++ " requires the debt ledger; without it the gate passes " ++
      "silently, which is how the ledger became a table")
  | some read =>
    match read.bind readDebt with
    | .error e => raise (.releaseError "REL_DEBT_OPEN") ("the debt ledger could not be projected: " ++ e.text)
    | .ok (states, blocks) => do
      let here ← filterPy (fun entry => do
        let blocked ← pyLookup blocks entry.1
        return entry.2 = debtOpen ∧ blocked = some (.str boundary)) states
      if here ≠ [] then
        let sorted ← pySort (here.map (fun entry => (entry.1, entry.1)))
        raise (.releaseError "REL_DEBT_OPEN") (what ++ " is refused: " ++ natText here.length ++
          " debt position(s) open under " ++ pyRepr boundary ++ " — " ++ joinWith ", " (← joinNames sorted) ++
          ". A position is closed by an event with an evidence_ref, never by cutting anyway (ADR-022 D13, D14)")

def revocationDigest (statementHash : Json) : Py Str :=
  prefixedHash crypto prefixReleaseRevoked (.obj [("statement_hash", statementHash)])

def revocationFields : List Str := ["schema", "statement_hash", "key_id", "reason", "signature"]

def revocationSigningBytes (revocation : Json) : Py Bytes := signingBytes domainReleaseRevoke revocation

/-- `verify(bytes.fromhex(key.public), …, bytes.fromhex(body["signature"]))`, false when a value cannot be
read as bytes. -/
def revocationVerifies (key : RegisteredKey) (body : Json) : Py Bool :=
  let verified : Py Bool := do
    let pub ← bytesFromHex key.publicHex
    let data ← revocationSigningBytes body
    let sig ← bytesFromHex (← subscript body "signature")
    return crypto.verify pub data sig
  match verified with
  | .ok ok => return ok
  | .error e => if e.kind = .typeError ∨ e.isValueError then return false else .error e

def readRevocation (context : ReleaseContext) (record : Json) : Py Json := do
  let index ← dotGet record "index"
  match context.revocationReader with
  | none => raise (.releaseError "REL_REVOKED_UNRESOLVED") ("witness record " ++ pyStr index ++ " revokes this " ++
      "release and the context has no revocation reader; a revocation that cannot be read is not thereby lifted")
  | some read => do
    let bound ← dotGet record "provenance_hash"
    let loaded : Py (Option Json) := do
      let raw ← read bound
      return (decodeUtf8 raw).bind Json.loads
    match loaded with
    | .ok (some body) => return body
    | .ok none => raise (.releaseError "REL_REVOKED_UNRESOLVED") ("the revocation at " ++ pyStr index ++
        " could not be read: ")
    | .error e => raise (.releaseError "REL_REVOKED_UNRESOLVED") ("the revocation at " ++ pyStr index ++
        " could not be read: " ++ e.text)

/-- The body is the one the record binds, and has every field. -/
def bindsRevocation (record body : Json) : Py Bool := do
  let data ← canonical body
  let bound ← dotGet record "provenance_hash"
  if bound ≠ .str (H_hex crypto data) then return false
  if (← dotGet body "schema") ≠ .str schemaReleaseRevocation then return false
  let missing ← filterPy (fun field => do return !truthy (← dotGet body field)) revocationFields
  return decide (missing = [])

def namesRelease (body : Json) (target want : Str) : Py Bool := do
  let named ← subscript body "statement_hash"
  if named ≠ .str target then return false
  let digest ← revocationDigest crypto named
  return decide (digest = want)

def checkTarget (record body : Json) (target want : Str) : Py Unit := do
  if !(← namesRelease crypto body target want) then
    raise (.releaseError "REL_REVOKED_UNRESOLVED") ("the revocation at " ++ pyStr (← dotGet record "index") ++
      " is bound to this release by its record and names " ++
      pyStr (← pyTake (← subscript body "statement_hash") 12) ++ "… in its signed body. A signature over one " ++
      "release is not a revocation of another, and a record that says otherwise is unresolved, not honoured")

/-- The registered key behind a revocation that verifies. -/
def revokingKey (registry : Registry) (record body : Json) : Py RegisteredKey := do
  let index ← dotGet record "index"
  let keyId ← subscript body "key_id"
  match ← registry.findAny keyId with
  | none => raise (.releaseError "REL_REVOKED_UNRESOLVED") ("the revocation at " ++ pyStr index ++ " names key " ++
      reprJson keyId ++ ", which is not registered")
  | some key =>
    if !(← revocationVerifies crypto key body) then
      raise (.releaseError "REL_REVOKED_UNRESOLVED") ("the revocation at " ++ pyStr index ++
        " does not verify under " ++ reprJson keyId)
    return key

/-- What happens on a record that revokes the release: always a refusal. -/
def refuseRevoked (context : ReleaseContext) (registry : Registry) (target want : Str) (record : Json) : Py Unit := do
  let body ← readRevocation context record
  let index ← dotGet record "index"
  if !(← bindsRevocation crypto record body) then
    raise (.releaseError "REL_REVOKED_UNRESOLVED") ("the revocation body at " ++ pyStr index ++ " is not the one " ++
      "the record binds, or is not a release revocation")
  checkTarget crypto record body target want
  let key ← revokingKey crypto registry record body
  keyValidAt key (← pyInt index)
  raise (.releaseError "REL_REVOKED") ("this release was revoked by name at witness position " ++ pyStr index ++
    " by " ++ reprJson (← subscript body "key_id") ++ ": " ++ pyStr (← subscript body "reason") ++
    ". The attestation is intact and the record is where it was; what changed is a later, signed fact about it")

def scanRevocations (context : ReleaseContext) (registry : Registry) (target want : Str) : List Json → Py Unit
  | [] => return ()
  | record :: rest => do
    let kind ← dotGet record "kind"
    let digest ← dotGet record "semantic_digest"
    if kind = .str kindReleaseRevoked ∧ digest = .str want then
      refuseRevoked crypto context registry target want record
    scanRevocations context registry target want rest

def checkNotRevoked (statement : Json) (records : List Json) (registry : Registry) (context : ReleaseContext) :
    Py Unit := do
  let target ← statementHash crypto statement
  let want ← revocationDigest crypto (.str target)
  scanRevocations crypto context registry target want records

def chainIsSoundOrRefuse (chain : WitnessChain) : Py Unit := do
  if !(← chain.verifyChain crypto) then
    raise (.releaseError "REL_WITNESS_UNRESOLVED") ("the witness chain does not verify — hashes, links or node " ++
      "signatures are broken — and nothing is written into it. A record appended to a chain that cannot be " ++
      "trusted would be the one true record in a history nobody can read")

def releaseProvenance (attestation : Json) : Py Json := do
  let statement ← subscript attestation "statement"
  let digest ← attestationHash crypto attestation
  let named ← subscript attestation "statement_hash"
  let version ← subscript statement "version"
  let tree ← subscript statement "tree_digest"
  return .obj [("attestation_hash", .str digest), ("statement_hash", named), ("version", version), ("tree_digest", tree)]

/-- `publish`: the publication, and the chain with its record; `timestamp` is the clock of the append. -/
def publish (attestation : Json) (chain : WitnessChain) (registry : Registry) (context : ReleaseContext)
    (timestamp : Json) : Py (Json × WitnessChain) := do
  context.requireComplete "publishing a release"
  checkDebt context blocksPublication "publishing a release"
  chainIsSoundOrRefuse crypto chain
  checkLifecycleWitnessed crypto chain.records registry
  checkNotRevoked crypto (← subscript attestation "statement") chain.records registry context
  let _ ← verifyAttestation crypto attestation registry chain.nextIndex context
  let digest ← attestationHash crypto attestation
  let provenance ← releaseProvenance crypto attestation
  let written ← chain.append crypto {
    kind := releaseAttested, semanticDigest := .str digest, provenance, timestamp }
  let index ← subscript written.receipt "index"
  let hash ← subscript written.receipt "this_hash"
  return (.obj [("schema", .str schemaReleasePublication), ("attestation", attestation),
    ("witness_ref", .obj [("index", index), ("this_hash", hash), ("provenance", provenance)])], written.chain)

def revocationBody (statementHash keyId reason : Json) (sk : SigningKey) : Py Json := do
  let body : Dict Str Json := [("schema", .str schemaReleaseRevocation), ("statement_hash", statementHash),
    ("key_id", keyId), ("reason", reason)]
  let data ← revocationSigningBytes (.obj body)
  return .obj (body ++ ([("signature", .str (toHex (sk.sign crypto data)))] : Dict Str Json))

/-- `revoke_release`: the signed body, and the chain with its record. -/
def revokeRelease (statementHash keyId reason : Json) (sk : SigningKey) (chain : WitnessChain) (registry : Registry)
    (timestamp : Json) : Py (Json × WitnessChain) := do
  match reason with
  | .str (_ :: _) =>
    match ← registry.find keyId with
    | none => raise (.releaseError "REL_UNKNOWN_KEY") ("revoking key " ++ reprJson keyId ++ " is not registered")
    | some key => do
      let body ← revocationBody crypto statementHash keyId reason sk
      if !(← revocationVerifies crypto key body) then
        raise (.releaseError "REL_BAD_SIGNATURE") ("the revocation does not verify under the registered public key " ++
          "of " ++ reprJson keyId ++ ". Nothing is written: the chain is append-only, and a revocation nobody was " ++
          "entitled to make would stand in it forever")
      chainIsSoundOrRefuse crypto chain
      checkLifecycleWitnessed crypto chain.records [(keyId, key)]
      keyValidAt key chain.nextIndex
      let digest ← revocationDigest crypto statementHash
      let written ← chain.append crypto {
        kind := kindReleaseRevoked, provenance := body, semanticDigest := .str digest, timestamp }
      return (body, written.chain)
  | _ => raise (.releaseError "REL_BAD_SCHEMA") "a revocation names its reason"

/-- The record that a reference resolves to. -/
def resolveRecord (records : List Json) (ref : Json) : Py Json := do
  let index ← dotGet ref "index"
  match recordAt records index with
  | .ok record => return record
  | .error e =>
    if lookupFails e then raise (.releaseError "REL_WITNESS_UNRESOLVED") "witness_ref does not resolve in this chain"
    else .error e

/-- The record commits to the pre-image in the reference, and that describes the attestation. -/
def checkRecord (attestation ref record : Json) : Py Unit := do
  let kind ← dotGet record "kind"
  if kind ≠ .str releaseAttested then
    raise (.releaseError "REL_WITNESS_UNRESOLVED") ("witness_ref names a " ++ reprJson kind ++ " record")
  let held ← dotGet record "this_hash"
  if ¬Json.pyEq held (← dotGet ref "this_hash") then
    raise (.releaseError "REL_WITNESS_UNRESOLVED") "witness_ref names a record whose hash has changed"
  let claimed ← dotGet ref "provenance"
  if !isMapping claimed then
    raise (.releaseError "REL_WITNESS_UNRESOLVED") ("witness_ref carries no provenance pre-image; the record commits " ++
      "to a hash and the fields must come with it")
  let data ← canonical claimed
  if (← dotGet record "provenance_hash") ≠ .str (H_hex crypto data) then
    raise (.releaseError "REL_WITNESS_UNRESOLVED") ("the provenance pre-image does not hash to what the record " ++
      "committed to")
  let described ← releaseProvenance crypto attestation
  if ¬Json.pyEq claimed described then
    raise (.releaseError "REL_WITNESS_UNRESOLVED") ("the record commits to a different attestation. Because " ++
      "witness_ref is outside the hashed object, a swapped reference is caught here and only here.")

def verifyPublication (publication : Json) (chain : WitnessChain) (registry : Registry) (context : ReleaseContext)
    (nodePublic : Bytes := []) : Py Control := do
  if (← dotGet publication "schema") ≠ .str schemaReleasePublication then
    raise (.releaseError "REL_BAD_SCHEMA") ("publication must declare " ++ pyRepr schemaReleasePublication)
  checkLifecycleWitnessed crypto chain.records registry
  let attestation ← subscript publication "attestation"
  checkNotRevoked crypto (← subscript attestation "statement") chain.records registry context
  let ref := orDict (← dotGet publication "witness_ref")
  if !(← chain.verifyChain crypto nodePublic) then
    raise (.releaseError "REL_WITNESS_UNRESOLVED") ("the witness chain does not verify: hashes, links or node " ++
      "signatures are broken. A reference into a chain that has been edited resolves to nothing trustworthy, " ++
      "whatever it points at.")
  let record ← resolveRecord chain.records ref
  checkRecord crypto attestation ref record
  let position ← pyInt (← subscript ref "index")
  verifyAttestation crypto attestation registry position context

variable {crypto} {context : ReleaseContext}

/-- A publication that was returned, with what was checked of it. -/
structure Publishing (crypto : Crypto) (context : ReleaseContext) (attestation : Json) (chain : WitnessChain)
    (registry : Registry) (publication : Json) (later : WitnessChain) : Prop where
  sound : chain.verifyChain crypto = .ok true
  witnessed : checkLifecycleWitnessed crypto chain.records registry = .ok ()
  standing : ∃ statement, subscript attestation "statement" = .ok statement ∧
    checkNotRevoked crypto statement chain.records registry context = .ok ()
  verified : ∃ control, verifyAttestation crypto attestation registry chain.nextIndex context = .ok control
  written : ∃ call written provenance hash, chain.append crypto call = .ok written ∧ later = written.chain ∧
    call.kind = releaseAttested ∧ call.provenance = provenance ∧ releaseProvenance crypto attestation = .ok provenance ∧
    subscript written.record "this_hash" = .ok hash ∧
    publication = .obj [("schema", .str schemaReleasePublication), ("attestation", attestation),
      ("witness_ref", .obj [("index", .int chain.nextIndex), ("this_hash", hash), ("provenance", provenance)])]

theorem chainIsSoundOrRefuse_ok {chain : WitnessChain} :
    chainIsSoundOrRefuse crypto chain = .ok () ↔ chain.verifyChain crypto = .ok true := by
  simp only [chainIsSoundOrRefuse, bind, Py.bind_ok]
  constructor
  · rintro ⟨sound, verified, passed⟩
    cases sound with
    | true => exact verified
    | false => cases passed
  · intro verified
    exact ⟨true, verified, rfl⟩

theorem publish_ok {attestation timestamp publication : Json} {chain later : WitnessChain} {registry : Registry}
    (published : publish crypto attestation chain registry context timestamp = .ok (publication, later)) :
    Publishing crypto context attestation chain registry publication later := by
  simp only [publish, bind, Py.bind_ok] at published
  obtain ⟨_, _, _, _, _, sound, _, witnessed, statement, stated, _, standing, control, verified, digest, _, provenance, described, written,
    made, index, indexRead, hash, hashRead, same⟩ := published
  obtain ⟨rfl, rfl⟩ := Prod.mk.inj (Except.ok.inj same)
  obtain ⟨_, _, place, named⟩ := WitnessChain.append_parts made
  obtain rfl := Except.ok.inj (place.symm.trans indexRead)
  exact {
    sound := chainIsSoundOrRefuse_ok.mp sound
    witnessed, standing := ⟨statement, stated, standing⟩, verified := ⟨control, verified⟩
    written := ⟨_, written, provenance, hash, made, rfl, rfl, rfl, described, named.symm.trans hashRead, rfl⟩ }

theorem releaseProvenance_ok {attestation provenance : Json} :
    releaseProvenance crypto attestation = .ok provenance ↔ ∃ statement digest named version tree,
      subscript attestation "statement" = .ok statement ∧ attestationHash crypto attestation = .ok digest ∧
      subscript attestation "statement_hash" = .ok named ∧ subscript statement "version" = .ok version ∧
      subscript statement "tree_digest" = .ok tree ∧
      provenance = .obj [("attestation_hash", .str digest), ("statement_hash", named), ("version", version),
        ("tree_digest", tree)] := by
  simp only [releaseProvenance, bind, Py.bind_ok]
  constructor
  · rintro ⟨statement, stated, digest, hashed, named, namedRead, version, versionRead, tree, treeRead, made⟩
    exact ⟨statement, digest, named, version, tree, stated, hashed, namedRead, versionRead, treeRead,
      (Except.ok.inj made).symm⟩
  · rintro ⟨statement, digest, named, version, tree, stated, hashed, namedRead, versionRead, treeRead, rfl⟩
    exact ⟨statement, stated, digest, hashed, named, namedRead, version, versionRead, tree, treeRead, rfl⟩

theorem publish_parts {attestation timestamp statement provenance : Json} {chain : WitnessChain} {registry : Registry}
    {control : Control} {digest : Str} {written : Appended} (complete : context.requireComplete "publishing a release" = .ok ())
    (debt : checkDebt context blocksPublication "publishing a release" = .ok ())
    (sound : chain.verifyChain crypto = .ok true)
    (witnessed : checkLifecycleWitnessed crypto chain.records registry = .ok ())
    (stated : subscript attestation "statement" = .ok statement)
    (standing : checkNotRevoked crypto statement chain.records registry context = .ok ())
    (verified : verifyAttestation crypto attestation registry chain.nextIndex context = .ok control)
    (hashed : attestationHash crypto attestation = .ok digest)
    (described : releaseProvenance crypto attestation = .ok provenance)
    (made : chain.append crypto { kind := releaseAttested, semanticDigest := .str digest, provenance, timestamp } =
      .ok written) :
    ∃ publication, publish crypto attestation chain registry context timestamp = .ok (publication, written.chain) := by
  obtain ⟨built, _, place, named⟩ := WitnessChain.append_parts made
  obtain ⟨hash, held⟩ := WitnessChain.buildRecord_hash built
  have passed := chainIsSoundOrRefuse_ok.mpr sound
  rw [held] at named
  simp only [publish, complete, debt, passed, witnessed, stated, standing, verified, hashed, described, made, place, named,
    bind, Except.bind]
  exact ⟨_, rfl⟩

theorem statementHash_of_verifies {attestation statement : Json} {registry : Registry} {position : Int} {control : Control}
    (stated : subscript attestation "statement" = .ok statement)
    (verified : verifyAttestation crypto attestation registry position context = .ok control) :
    ∃ target, statementHash crypto statement = .ok target ∧ dotGet attestation "statement_hash" = .ok (.str target) := by
  obtain ⟨statement', want, _, _, _, _, attested, _⟩ := verifyAttestation_ok.mp verified
  unfold attestedStatement at attested
  split at attested
  · simp only [bind, Py.bind_ok, Py.unless_ok] at attested
    obtain ⟨_, _, _, found, read, _, valid, target, hashed, recorded, named, same⟩ := attested
    obtain rfl := Except.ok.inj ((dotGet_of_subscript stated).symm.trans read)
    obtain ⟨rfl, _⟩ := validateStatement_ok valid
    refine ⟨target, hashed, ?_⟩
    by_cases differ : recorded = .str target
    · exact differ ▸ named
    · simp [differ] at same
  · cases attested

theorem revokeRelease_ok {statementHash keyId reason timestamp body : Json} {sk : SigningKey} {chain later : WitnessChain}
    {registry : Registry}
    (revoked : revokeRelease crypto statementHash keyId reason sk chain registry timestamp = .ok (body, later)) :
    ∃ call written, chain.append crypto call = .ok written ∧ later = written.chain := by
  unfold revokeRelease at revoked
  split at revoked
  · simp only [bind, Py.bind_ok] at revoked
    obtain ⟨found, _, revoked⟩ := revoked
    cases found with
    | none => cases revoked
    | some key =>
      simp only [Py.bind_ok, Py.unless_ok] at revoked
      obtain ⟨_, _, _, _, _, _, _, _, _, _, _, _, _, written, made, same⟩ := revoked
      obtain ⟨_, rfl⟩ := Prod.mk.inj (Except.ok.inj same)
      exact ⟨_, written, made, rfl⟩
  · cases revoked

theorem refuseRevoked_raises {registry : Registry} {target want : Str} {record : Json} :
    refuseRevoked crypto context registry target want record ≠ .ok () := by
  intro passed
  simp only [refuseRevoked, bind, Py.bind_ok, Py.unless_ok] at passed
  obtain ⟨_, _, _, _, _, _, _, _, _, _, _, _, _, _, _, _, _, _, _, passed⟩ := passed
  cases passed

/-- A record that revokes the release with this revocation digest. -/
def Revokes (want : Str) (record : Json) : Prop :=
  dotGet record "kind" = .ok (.str kindReleaseRevoked) ∧ dotGet record "semantic_digest" = .ok (.str want)

theorem scanRevocations_ok {registry : Registry} {target want : Str} {records : List Json}
    (objects : ∀ record ∈ records, ∃ fields, record = .obj fields) :
    scanRevocations crypto context registry target want records = .ok () ↔ ∀ record ∈ records, ¬Revokes want record := by
  induction records with
  | nil => simp [scanRevocations, pure, Except.pure]
  | cons record rest ih =>
    obtain ⟨fields, rfl⟩ := objects record List.mem_cons_self
    obtain ⟨kind, named⟩ : ∃ kind, dotGet (.obj fields) "kind" = .ok kind := ⟨_, rfl⟩
    obtain ⟨digest, bound⟩ : ∃ digest, dotGet (.obj fields) "semantic_digest" = .ok digest := ⟨_, rfl⟩
    have later := ih (fun record member => objects record (List.mem_cons_of_mem _ member))
    rw [List.forall_mem_cons, ← later]
    simp only [scanRevocations, named, bound, bind, Except.bind, Revokes, Except.ok.injEq]
    by_cases revokes : kind = .str kindReleaseRevoked ∧ digest = .str want
    · simp only [revokes, and_self, if_true, not_true_eq_false, false_and, iff_false]
      intro passed
      obtain ⟨_, refused, _⟩ := Py.bind_ok.mp passed
      exact refuseRevoked_raises refused
    · simp only [revokes, if_false, not_false_eq_true, true_and]


/-- The record is of a release, is the one referred to, and commits to the attestation. -/
structure Commits (crypto : Crypto) (attestation ref record : Json) : Prop where
  kind : dotGet record "kind" = .ok (.str releaseAttested)
  hash : ∃ held named, dotGet record "this_hash" = .ok held ∧ dotGet ref "this_hash" = .ok named ∧ Json.pyEq held named
  provenance : ∃ claimed data described, dotGet ref "provenance" = .ok claimed ∧ isMapping claimed ∧
    canonical claimed = .ok data ∧ dotGet record "provenance_hash" = .ok (.str (H_hex crypto data)) ∧
    releaseProvenance crypto attestation = .ok described ∧ Json.pyEq claimed described

theorem checkRecord_ok {attestation ref record : Json} :
    checkRecord crypto attestation ref record = .ok () ↔ Commits crypto attestation ref record := by
  simp only [checkRecord, bind, Py.bind_ok, Py.unless_ok, not_not]
  constructor
  · rintro ⟨_, named, rfl, held, heldRead, hash, hashRead, same, claimed, claimedRead, mapping, data, text, bound, boundRead,
      rfl, described, made, equal⟩
    exact ⟨named, ⟨held, hash, heldRead, hashRead, same⟩, claimed, data, described, claimedRead, by simpa using mapping,
      text, boundRead, made, by
        by_contra differ
        simp [differ, raise] at equal⟩
  · rintro ⟨named, ⟨held, hash, heldRead, hashRead, same⟩, claimed, data, described, claimedRead, mapping, text, boundRead,
      made, equal⟩
    refine ⟨_, named, rfl, held, heldRead, hash, hashRead, same, claimed, claimedRead, by simpa using mapping, data, text, _,
      boundRead, rfl, described, made, ?_⟩
    rw [if_neg (not_not.mpr equal)]
    rfl

theorem resolveRecord_ok {records : List Json} {ref record : Json} :
    resolveRecord records ref = .ok record ↔
      ∃ index, dotGet ref "index" = .ok index ∧ recordAt records index = .ok record := by
  simp only [resolveRecord, bind, Py.bind_ok]
  constructor
  · rintro ⟨index, read, found⟩
    split at found
    · rename_i here
      exact ⟨index, read, here.trans found⟩
    · split at found <;> cases found
  · rintro ⟨index, read, found⟩
    exact ⟨index, read, by rw [found]; rfl⟩

/-- What a publication that verifies went through. -/
structure Verifies (crypto : Crypto) (publication : Json) (chain : WitnessChain) (registry : Registry)
    (context : ReleaseContext) (nodePublic : Bytes) (control : Control) (attestation ref record : Json) (position : Int) :
    Prop where
  schema : dotGet publication "schema" = .ok (.str schemaReleasePublication)
  witnessed : checkLifecycleWitnessed crypto chain.records registry = .ok ()
  carried : subscript publication "attestation" = .ok attestation
  standing : ∃ statement, subscript attestation "statement" = .ok statement ∧
    checkNotRevoked crypto statement chain.records registry context = .ok ()
  reference : ∃ value, dotGet publication "witness_ref" = .ok value ∧ ref = orDict value
  sound : chain.verifyChain crypto nodePublic = .ok true
  resolved : resolveRecord chain.records ref = .ok record
  commits : Commits crypto attestation ref record
  counted : ∃ index, subscript ref "index" = .ok index ∧ pyInt index = .ok position
  verified : verifyAttestation crypto attestation registry position context = .ok control

theorem verifyPublication_ok {publication : Json} {chain : WitnessChain} {registry : Registry} {nodePublic : Bytes}
    {control : Control} :
    verifyPublication crypto publication chain registry context nodePublic = .ok control ↔
      ∃ attestation ref record position,
        Verifies crypto publication chain registry context nodePublic control attestation ref record position := by
  simp only [verifyPublication, bind, Py.bind_ok, Py.unless_ok, not_not]
  constructor
  · rintro ⟨_, schema, rfl, _, witnessed, attestation, read, statement, stated, _, standing, value, referred, sound,
      verifies, isSound, record, resolved, _, commits, index, indexRead, position, counted, verified⟩
    refine ⟨attestation, orDict value, record, position, {
      schema, witnessed, carried := read, standing := ⟨statement, stated, standing⟩, reference := ⟨value, referred, rfl⟩
      sound := ?_, resolved, commits := checkRecord_ok.mp commits, counted := ⟨index, indexRead, counted⟩, verified }⟩
    cases sound with
    | true => exact verifies
    | false => exact absurd rfl isSound
  · rintro ⟨attestation, ref, record, position, v⟩
    obtain ⟨statement, stated, standing⟩ := v.standing
    obtain ⟨value, referred, rfl⟩ := v.reference
    obtain ⟨index, indexRead, counted⟩ := v.counted
    exact ⟨_, v.schema, rfl, (), v.witnessed, attestation, v.carried, statement, stated, (), standing, value, referred,
      true, v.sound, by simp, record, v.resolved, (), checkRecord_ok.mpr v.commits, index, indexRead, position, counted,
      v.verified⟩

end JJDai.Release
