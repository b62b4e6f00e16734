import JJDai.Release.Statement

/-! `jjdai.release`: the half of a verification that compares a statement with the world. -/

namespace JJDai.Release

open PyText Canonical Provenance Replication

/-- `ReleaseContext`: facts from outside the statement; an absent one is `null` or `none`. -/
structure ReleaseContext where
  expectedTag : Json := .null
  treeDigest : Json := .null
  acceptance : Json := .null
  buildEnvironment : Json := .null
  artefactReader : Option (Json → Py Bytes) := none
  bundleReader : Option (Py Bytes) := none
  recipeReader : Option (Py Bytes) := none
  sbomReader : Option (Py Bytes) := none
  toolsetManifestReader : Option (Py Bytes) := none
  evidenceReader : Option (Json → Py Bytes) := none
  debtReader : Option (Py Json) := none
  revocationReader : Option (Json → Py Bytes) := none

/-- `missing()`: the absent facts, in the order of their names. -/
def ReleaseContext.missing (context : ReleaseContext) : List Str :=
  (([("acceptance", context.acceptance = .null), ("artefact_reader", context.artefactReader.isNone),
    ("build_environment", context.buildEnvironment = .null), ("bundle_reader", context.bundleReader.isNone),
    ("debt_reader", context.debtReader.isNone), ("evidence_reader", context.evidenceReader.isNone),
    ("expected_tag", context.expectedTag = .null), ("recipe_reader", context.recipeReader.isNone),
    ("revocation_reader", context.revocationReader.isNone), ("sbom_reader", context.sbomReader.isNone),
    ("toolset_manifest_reader", context.toolsetManifestReader.isNone),
    ("tree_digest", context.treeDigest = .null)] : List (Str × Bool)).filter Prod.snd).map Prod.fst

def ReleaseContext.requireComplete (context : ReleaseContext) (what : Str) : Py Unit := do
  if context.missing ≠ [] then
    raise (.releaseError "REL_CONTEXT_INCOMPLETE") (what ++ " requires a COMPLETE verification context; these facts " ++
      "are absent: " ++ WitnessChain.reprList context.missing ++ ". Each absent reader is a gate that silently " ++
      "passes, and `internal_only()` turns every one of them off at once — it exists for an archival reader, " ++
      "never for making a release.")

variable (crypto : Crypto)

def acceptanceSchema : Str := "jjdai.acceptance_result/v4"

def acceptanceSuite : Str := "hermetic"

/-- The hash addresses the run, as a document or by its raw bytes. -/
def addressesRun (acceptance declared : Json) : Py Bool := do
  let data ← canonical acceptance
  if declared = .str (H_hex crypto data) then return true
  let raw ← dotGet acceptance "_raw_hash"
  return decide (Json.pyEq raw declared)

def checkAcceptance (statement acceptance : Json) : Py Unit := do
  if acceptance = .null then
    raise (.releaseError "REL_ACCEPTANCE_INVALID") ("no recorded run supplied; a release is cut on a green run and " ++
      "'no run' is not a green one")
  if !(← addressesRun crypto acceptance (← subscript statement "acceptance_hash")) then
    raise (.releaseError "REL_ACCEPTANCE_INVALID") ("acceptance_hash does not address the recorded run supplied as " ++
      "evidence")
  let schema ← dotGet acceptance "schema"
  if schema ≠ .str acceptanceSchema then
    raise (.releaseError "REL_ACCEPTANCE_INVALID") ("the recorded run declares schema " ++ reprJson schema ++
      ", not " ++ pyRepr acceptanceSchema)
  let suite ← dotGet acceptance "suite"
  if suite ≠ .str acceptanceSuite then
    raise (.releaseError "REL_ACCEPTANCE_INVALID") ("the run is of suite " ++ reprJson suite ++ ". A release stands " ++
      "on the HERMETIC suite: the live groups are evidence about a host, and a host is not the tree")
  let importErrors ← dotGet acceptance "import_errors"
  if truthy importErrors then
    raise (.releaseError "REL_ACCEPTANCE_INVALID") (pyStr importErrors ++ " import error(s) in the recorded run. A " ++
      "module that never imported ran no checks, so the passed/total pair is a count of what happened to load")
  let passed ← dotGet acceptance "passed"
  let total ← dotGet acceptance "total"
  if ¬(asInt? total).any (fun n => 0 < n) ∨ ¬Json.pyEq passed total then
    raise (.releaseError "REL_ACCEPTANCE_INVALID") ("the recorded run is " ++ pyStr passed ++ "/" ++ pyStr total ++
      " — a hash pointing at a red or empty run is a hash of a red or empty run")
  let digest ← dotGet acceptance "tree_digest"
  if ¬Json.pyEq digest (← subscript statement "tree_digest") then
    raise (.releaseError "REL_ACCEPTANCE_INVALID") ("the recorded run does not name THIS tree. An absent digest is " ++
      "not a match: it is a run that cannot say what it ran against")
  if (← dotGet acceptance "tree_digest_algo") ≠ .str treeDigestAlgo then
    raise (.releaseError "REL_ACCEPTANCE_INVALID") ("the recorded run states a digest without naming the algorithm " ++
      "that made it")

def envFields : List Str :=
  ["python", "locale", "timezone", "umask", "network", "network_enforcement", "source_date_epoch"]

/-- `environment_matches`: the fields in which the two differ, in the order of their names. -/
def environmentMatches (recorded actual : Json) : Py (List Str) := do
  let drift ← filterPy (fun field => do
    let mine ← dotGet recorded field
    let theirs ← dotGet actual field
    return decide (pyStr mine ≠ pyStr theirs)) envFields
  return drift.insertionSort (· ≤ ·)

def checkEnvironment (statement actual : Json) : Py Unit := do
  let recorded ← subscript statement "build_environment"
  let absent ← filterPy (fun field => do return !truthy (← dotGet recorded field)) envFields
  if absent ≠ [] then
    raise (.releaseError "REL_ENVIRONMENT_MISMATCH") ("build_environment omits " ++ WitnessChain.reprList absent ++
      ". D3 fixes the whole table, and a table with holes pins nothing there — `source_date_epoch` could be " ++
      "deleted and the statement still validated")
  if actual = .null then
    raise (.releaseError "REL_ENVIRONMENT_MISMATCH") ("no measured build environment supplied to compare the " ++
      "recorded table against")
  let drift ← environmentMatches recorded actual
  if drift ≠ [] then
    raise (.releaseError "REL_ENVIRONMENT_MISMATCH") ("the recorded build environment differs from the measured " ++
      "one in " ++ WitnessChain.reprList drift ++ ". A build that ran under another locale or another clock " ++
      "cannot present itself as the same build")

/-- `_check_bytes`; without a reader nothing is compared. -/
def checkBytes (reader : Option (Py Bytes)) (want : Json) (what : Str) (length : Json := .null) : Py Unit :=
  match reader with
  | none => return ()
  | some (.error e) => raise (.releaseError "REL_ARTEFACT_MISMATCH") (what ++ " could not be read: " ++ e.text)
  | some (.ok data) => do
    let got := H_hex crypto data
    if want ≠ .str got then
      raise (.releaseError "REL_ARTEFACT_MISMATCH") (what ++ " hashes " ++ got ++ ", the statement records " ++
        pyStr want)
    if length ≠ .null ∧ ¬Json.pyEq (.int data.length) length then
      raise (.releaseError "REL_ARTEFACT_MISMATCH") (what ++ " is " ++ natText data.length ++
        " bytes, the statement records " ++ pyStr length)

def checkArtefactBytes (context : ReleaseContext) (art : Json) : Py Unit := do
  let name ← subscript art "name"
  let want ← subscript art "sha256"
  let length ← subscript art "length"
  checkBytes crypto (context.artefactReader.map (fun read => read name)) want ("artefact " ++ reprJson name) length

def schemaRebuildEvidence : Str := "jjdai.rebuild-evidence/v1"

def rebuildReproduces : List Str := ["tree_digest", "tree_digest_algo", "artefacts", "bundle_hash", "recipe_hash"]

def evidenceFields : List Str :=
  ["schema", "statement_hash", "build_run_id", "key_id", "device_id", "principal_id", "host_class",
    "build_environment", "tree_digest", "tree_digest_algo", "artefacts", "bundle_hash", "recipe_hash", "signature"]

def evidenceSigningBytes (evidence : Json) : Py Bytes := signingBytes domainRebuildEvidence evidence

def orText (value : Json) : Json := if truthy value then value else .str []

def signatureOf (doc : Json) (key : RegisteredKey) : Py (Bytes × Bytes) := do
  let sig ← bytesFromHex (orText (← dotGet doc "signature"))
  let pub ← bytesFromHex key.publicHex
  return (sig, pub)

/-- The loop over the fields that name whose act a rebuild was. -/
def checkWhose (evidence approval : Json) : List Str → Py Unit
  | [] => return ()
  | field :: rest => do
    let recorded ← subscript evidence field
    let named ← subscript approval field
    if ¬Json.pyEq recorded named then
      raise (.releaseError "REL_EVIDENCE_NOT_INDEPENDENT") ("the rebuild evidence records " ++ field ++ "=" ++
        reprJson recorded ++ " and the approval naming it records " ++ reprJson named ++
        ". The evidence is the act of the verifier who signs for it")
    checkWhose evidence approval rest

/-- The loop over the approvals of the builder. -/
def checkOtherRun (run : Json) : List Json → Py Unit
  | [] => return ()
  | other :: rest => do
    let role ← dotGet other "role"
    let theirs ← dotGet other "build_run_id"
    if role = .str "builder" ∧ Json.pyEq theirs run then
      raise (.releaseError "REL_EVIDENCE_NOT_INDEPENDENT") ("the rebuild evidence carries build_run_id " ++
        reprJson run ++ ", the same run the builder approved. One run repeated is the machine repeated")
    checkOtherRun run rest

/-- The loop over what a rebuild reproduces. -/
def checkReproduced (statement evidence keyId : Json) : List Str → Py Unit
  | [] => return ()
  | field :: rest => do
    let theirs ← canonical (← subscript evidence field)
    let ours ← canonical (← subscript statement field)
    if theirs ≠ ours then
      raise (.releaseError "REL_EVIDENCE_DIVERGENT") ("the independent rebuild by " ++ reprJson keyId ++
        " produced a different " ++ field ++ ". Two runs of one recipe over one tree that disagree are the " ++
        "finding, not a detail")
    checkReproduced statement evidence keyId rest

/-- The evidence is a rebuild of this release, and it has every field. -/
def checkEvidenceNames (statement evidence : Json) : Py Unit := do
  let schema ← dotGet evidence "schema"
  if schema ≠ .str schemaRebuildEvidence then
    raise (.releaseError "REL_EVIDENCE_NOT_INDEPENDENT") ("the evidence declares schema " ++ reprJson schema ++
      "; a rebuild is witnessed by a " ++ schemaRebuildEvidence ++ ", and the release statement is not evidence " ++
      "about itself")
  let missing ← filterPy (fun field => do return !truthy (← dotGet evidence field)) evidenceFields
  if missing ≠ [] then
    raise (.releaseError "REL_BAD_SCHEMA") ("rebuild evidence omits " ++ WitnessChain.reprList missing)
  let want ← statementHash crypto statement
  let named ← subscript evidence "statement_hash"
  if named ≠ .str want then
    raise (.releaseError "REL_STATEMENT_MISMATCH") ("the rebuild evidence names statement " ++ reprJson named ++
      " and this release hashes " ++ want)

/-- The evidence is signed by the key it names. -/
def checkEvidenceSignature (evidence : Json) (registry : Registry) : Py Unit := do
  let keyId ← subscript evidence "key_id"
  match ← registry.findAny keyId with
  | none => raise (.releaseError "REL_UNKNOWN_KEY") ("rebuild evidence signed by " ++ reprJson keyId ++
      ", which is not in the registry")
  | some key =>
    match signatureOf evidence key with
    | .error _ => raise (.releaseError "REL_BAD_SIGNATURE") "rebuild evidence signature or key is not hex"
    | .ok (sig, pub) => do
      let data ← evidenceSigningBytes evidence
      if !crypto.verify pub data sig then
        raise (.releaseError "REL_BAD_SIGNATURE") ("the rebuild evidence of " ++ reprJson key.keyId ++
          " does not verify under " ++ domainRebuildEvidence)

/-- The evidence describes the run of the approval that names it. -/
def checkSameRun (evidence approval : Json) : Py Unit := do
  let run ← subscript evidence "build_run_id"
  let hostClass ← subscript evidence "host_class"
  if ¬Json.pyEq run (← subscript approval "build_run_id") ∨ ¬Json.pyEq hostClass (← subscript approval "host_class") then
    raise (.releaseError "REL_EVIDENCE_NOT_INDEPENDENT") ("the rebuild evidence and the approval that names it " ++
      "describe different runs or different host classes; the approval is the signature OF this act, not a " ++
      "signature beside it")

def checkOneEvidence (statement evidence approval : Json) (approvals : List Json) (registry : Registry) : Py Unit := do
  checkEvidenceNames crypto statement evidence
  checkWhose evidence approval ["key_id", "device_id", "principal_id"]
  checkEvidenceSignature crypto evidence registry
  checkOtherRun (← subscript evidence "build_run_id") approvals
  checkSameRun evidence approval
  checkReproduced statement evidence (← subscript approval "key_id") rebuildReproduces
  checkEnvironment statement (← subscript evidence "build_environment")

/-- The document an approval names, read and checked against its hash. -/
def readEvidence (context : ReleaseContext) (keyId digest : Json) : Py Json :=
  match context.evidenceReader with
  | none => raise (.releaseError "REL_EVIDENCE_UNRESOLVED") ("the approval of " ++ reprJson keyId ++
      " names rebuild evidence and the context has no evidence reader. An absent reader is a gate that " ++
      "silently passes")
  | some read =>
    let head := (pyStr digest).take 12
    match read digest with
    | .error e => raise (.releaseError "REL_EVIDENCE_UNRESOLVED") ("the rebuild evidence named by " ++
        reprJson keyId ++ " (" ++ head ++ "…) could not be read: " ++ e.text ++ ". A verifier's approval " ++
        "is the signature of an ACT; evidence that does not resolve leaves the signature over nothing")
    | .ok raw => do
      if raw = [] then
        raise (.releaseError "REL_EVIDENCE_UNRESOLVED") ("the rebuild evidence named by " ++ reprJson keyId ++
          " (" ++ head ++ "…) resolves to no bytes")
      let got := H_hex crypto raw
      if digest ≠ .str got then
        raise (.releaseError "REL_EVIDENCE_UNRESOLVED") ("the evidence supplied for " ++ reprJson keyId ++
          " hashes " ++ got ++ ", the approval names " ++ pyStr digest)
      match (decodeUtf8 raw).bind Json.loads with
      | some evidence => return evidence
      | none => raise (.releaseError "REL_EVIDENCE_DIVERGENT") ("the rebuild evidence of " ++ reprJson keyId ++
          " is not a readable document; it must be a " ++ schemaRebuildEvidence)

def checkRebuildEvidence (statement : Json) (context : ReleaseContext) (approvals : List Json) (registry : Registry) :
    List Json → Py Unit
  | [] => return ()
  | approval :: rest => do
    let digest ← dotGet approval "verification_evidence_hash"
    if truthy digest then
      let keyId ← subscript approval "key_id"
      let evidence ← readEvidence crypto context keyId digest
      checkOneEvidence crypto statement evidence approval approvals registry
    checkRebuildEvidence statement context approvals registry rest

def lastOfRole (role : Str) : List Json → Py Json
  | [] => return .null
  | approval :: rest => do
    let named ← dotGet approval "role"
    let later ← lastOfRole role rest
    return if later = .null ∧ named = .str role then approval else later

def checkScope (statement : Json) (approvals : List Json) : Py Unit := do
  let builder ← lastOfRole "builder" approvals
  let verifier ← lastOfRole "verifier" approvals
  if !truthy builder || !truthy verifier then return ()
  let derived ← deriveScope builder verifier
  let recorded ← subscript statement "reproducibility_scope"
  if recorded ≠ .str derived then
    raise (.releaseError "REL_SCOPE_MISMATCH") ("the statement records reproducibility_scope " ++ reprJson recorded ++
      " and the two approvals describe " ++ pyRepr derived ++ " (builder " ++
      reprJson (← subscript builder "host_class") ++ " run " ++ reprJson (← subscript builder "build_run_id") ++
      ", verifier " ++ reprJson (← subscript verifier "host_class") ++ " run " ++
      reprJson (← subscript verifier "build_run_id") ++ "). A scope that cannot go down is not a measurement")

/-- Tag and tree are the ones the context expects. -/
def checkNames (statement : Json) (context : ReleaseContext) : Py Unit := do
  let version ← subscript statement "version"
  if context.expectedTag ≠ .null ∧ ¬Json.pyEq context.expectedTag version then
    raise (.releaseError "REL_TAG_MISMATCH") ("the tag is " ++ reprJson context.expectedTag ++
      " and the statement says " ++ reprJson version ++ ". A release whose tag and version disagree is two " ++
      "releases to anyone resolving either one.")
  let digest ← subscript statement "tree_digest"
  if context.treeDigest ≠ .null ∧ ¬Json.pyEq context.treeDigest digest then
    raise (.releaseError "REL_TREE_MISMATCH") ("the built tree hashes " ++ pyStr context.treeDigest ++
      ", the statement records " ++ pyStr digest ++ ". This is the first link of the chain; broken here, " ++
      "nothing downstream means anything.")

def checkExternal (statement : Json) (context : ReleaseContext) (approvals : List Json) (registry : Registry) :
    Py Unit := do
  checkNames statement context
  checkAcceptance crypto statement context.acceptance
  checkEnvironment statement context.buildEnvironment
  (← pyList (← subscript statement "artefacts")).forM (checkArtefactBytes crypto context)
  checkBytes crypto context.bundleReader (← subscript statement "bundle_hash") "release bundle"
  checkBytes crypto context.recipeReader (← subscript statement "recipe_hash") "build recipe"
  checkBytes crypto context.sbomReader (← subscript statement "sbom_hash") "SBOM"
  checkBytes crypto context.toolsetManifestReader (← subscript statement "toolset_manifest_hash") "toolset manifest"
  checkRebuildEvidence crypto statement context approvals registry approvals
  checkScope statement approvals

variable {crypto}

theorem checkBytes_ok {data : Bytes} {digest what : Str} (hashed : H_hex crypto data = digest) :
    checkBytes crypto (some (.ok data)) (.str digest) what = .ok () := by
  subst hashed
  simp [checkBytes, pure, Except.pure]

variable {statement approval evidence keyId digest : Json} {context : ReleaseContext} {approvals rest : List Json}
  {registry : Registry}

theorem checkRebuildEvidence_silent (named : dotGet approval "verification_evidence_hash" = .ok digest)
    (absent : truthy digest = false) :
    checkRebuildEvidence crypto statement context approvals registry (approval :: rest) =
      checkRebuildEvidence crypto statement context approvals registry rest := by
  simp [checkRebuildEvidence, named, absent, bind, Except.bind]

theorem checkRebuildEvidence_named (named : dotGet approval "verification_evidence_hash" = .ok digest)
    (present : truthy digest = true) (key : subscript approval "key_id" = .ok keyId)
    (read : readEvidence crypto context keyId digest = .ok evidence)
    (checked : checkOneEvidence crypto statement evidence approval approvals registry = .ok ()) :
    checkRebuildEvidence crypto statement context approvals registry (approval :: rest) =
      checkRebuildEvidence crypto statement context approvals registry rest := by
  simp [checkRebuildEvidence, named, present, key, read, checked, bind, Except.bind]

theorem checkExternal_ok :
    checkExternal crypto statement context approvals registry = .ok () ↔
      checkNames statement context = .ok () ∧ checkAcceptance crypto statement context.acceptance = .ok () ∧
      checkEnvironment statement context.buildEnvironment = .ok () ∧
      (∃ value artefacts, subscript statement "artefacts" = .ok value ∧ pyList value = .ok artefacts ∧
        artefacts.forM (checkArtefactBytes crypto context) = .ok ()) ∧
      (∃ want, subscript statement "bundle_hash" = .ok want ∧
        checkBytes crypto context.bundleReader want "release bundle" = .ok ()) ∧
      (∃ want, subscript statement "recipe_hash" = .ok want ∧
        checkBytes crypto context.recipeReader want "build recipe" = .ok ()) ∧
      (∃ want, subscript statement "sbom_hash" = .ok want ∧ checkBytes crypto context.sbomReader want "SBOM" = .ok ()) ∧
      (∃ want, subscript statement "toolset_manifest_hash" = .ok want ∧
        checkBytes crypto context.toolsetManifestReader want "toolset manifest" = .ok ()) ∧
      checkRebuildEvidence crypto statement context approvals registry approvals = .ok () ∧
      checkScope statement approvals = .ok () := by
  simp only [checkExternal, bind, Py.bind_ok]
  constructor
  · rintro ⟨_, names, _, run, _, environment, value, read, artefacts, listed, _, each, bundle, bundleRead, _, bundled,
      recipe, recipeRead, _, cooked, sbom, sbomRead, _, itemised, manifest, manifestRead, _, named, _, rebuilt, scope⟩
    exact ⟨names, run, environment, ⟨value, artefacts, read, listed, each⟩, ⟨bundle, bundleRead, bundled⟩,
      ⟨recipe, recipeRead, cooked⟩, ⟨sbom, sbomRead, itemised⟩, ⟨manifest, manifestRead, named⟩, rebuilt, scope⟩
  · rintro ⟨names, run, environment, ⟨value, artefacts, read, listed, each⟩, ⟨bundle, bundleRead, bundled⟩,
      ⟨recipe, recipeRead, cooked⟩, ⟨sbom, sbomRead, itemised⟩, ⟨manifest, manifestRead, named⟩, rebuilt, scope⟩
    exact ⟨(), names, (), run, (), environment, value, read, artefacts, listed, (), each, bundle, bundleRead, (), bundled,
      recipe, recipeRead, (), cooked, sbom, sbomRead, (), itemised, manifest, manifestRead, (), named, (), rebuilt, scope⟩

end JJDai.Release
