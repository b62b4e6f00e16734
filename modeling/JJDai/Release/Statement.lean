import JJDai.Provenance.WeightAttestation
import JJDai.Release.Registry

/-! `jjdai.release`: the shape of statements and approvals, and the bytes they are hashed and
signed over. -/

namespace JJDai.Release

open PyText Canonical Provenance Replication

def schemaReleaseStatement : Str := "jjdai.release-statement/v1"

def schemaReleaseApproval : Str := "jjdai.release-approval/v1"

def treeDigestAlgo : Str := "jjdai.source-tree/v2"

def statementHexFields : List Str :=
  ["tree_digest", "bundle_hash", "toolset_manifest_hash", "sbom_hash", "acceptance_hash", "recipe_hash"]

def artefactFields : List Str := ["name", "sha256", "length"]

def buildEnvFields : List Str := ["python", "locale", "timezone", "umask", "network"]

def statementFields : List Str :=
  ["schema", "version", "tree_digest", "tree_digest_algo", "artefacts", "bundle_hash", "toolset_manifest_hash",
    "sbom_hash", "acceptance_hash", "recipe_hash", "build_environment", "reproducibility_scope", "control"]

def approvalFields : List Str :=
  ["schema", "statement_hash", "key_id", "principal_id", "build_run_id", "host_class", "device_id", "role"]

def isUpperHex (c : CodePoint) : Bool := 65 ≤ c.val && c.val ≤ 70

def lowerHexDigit (c : CodePoint) : CodePoint := if isUpperHex c then codePoint (c.val + 32) else c

def hex64 (value : Json) (what : Str) : Py Str :=
  match value with
  | .str s =>
    if s.length = 64 ∧ s.all (fun c => isLowerHex c || isUpperHex c) then return s.map lowerHexDigit
    else raise (.releaseError "REL_BAD_SCHEMA") (what ++ " is not a sha256: a hash has a fixed width, and a short " ++
      "string in its place is a digest-shaped hole")
  | _ => raise (.releaseError "REL_BAD_SCHEMA") (what ++ " is not a sha256: a hash has a fixed width, and a short " ++
      "string in its place is a digest-shaped hole")

variable (crypto : Crypto)

def statementHash (statement : Json) : Py Str := do
  let data ← canonical statement
  return H_hex crypto data

/-- The bytes a document is signed over: all of it but the signature, behind a domain. -/
def signingBytes (domain : Str) (doc : Json) : Py Bytes := do
  let fields ← pyItems doc
  let front ← signingDomain domain
  let data ← canonical (.obj (fields.filter (fun entry => entry.1 ≠ "signature")))
  return front ++ data

def approvalSigningBytes (approval : Json) : Py Bytes := signingBytes domainReleaseApproval approval

def prefixedHash (separator : Str) (value : Json) : Py Str := do
  let front ← hashPrefix separator
  let data ← canonical value
  return H_hex crypto (front ++ data)

def attestationHash (attestation : Json) : Py Str := prefixedHash crypto prefixReleaseAttestation attestation

/-- The loop over the fields a statement must have. -/
def checkStatementFields (statement : Json) : List Str → Py Unit
  | [] => return ()
  | field :: rest => do
    if (← dotGet statement field) ∈ ([.null, .str [], .arr [], .obj []] : List Json) then
      raise (.releaseError "REL_BAD_SCHEMA") ("statement omits " ++ pyRepr field)
    checkStatementFields statement rest

/-- The loop over the fields that hold a digest. -/
def checkHexFields (statement : Json) : List Str → Py Unit
  | [] => return ()
  | field :: rest => do
    let _ ← hex64 (← subscript statement field) ("statement field " ++ pyRepr field)
    checkHexFields statement rest

def checkArtefactFields (art : Json) : List Str → Py Unit
  | [] => return ()
  | field :: rest => do
    if (← dotGet art field) ∈ ([.null, .str []] : List Json) then
      raise (.releaseError "REL_BAD_SCHEMA") ("artefact omits " ++ pyRepr field)
    checkArtefactFields art rest

/-- One turn of the loop over the artefacts. -/
def checkArtefact (art : Json) : Py Unit := do
  if !isMapping art then
    raise (.releaseError "REL_BAD_SCHEMA") ("artefact " ++ reprJson art ++ " is not an object; a list of strings " ++
      "names files and says nothing about them")
  checkArtefactFields art artefactFields
  let name ← subscript art "name"
  let _ ← hex64 (← subscript art "sha256") ("artefact " ++ reprJson name ++ " sha256")
  let length ← subscript art "length"
  if ¬(asInt? length).any (fun n => 0 < n) then
    raise (.releaseError "REL_BAD_SCHEMA") ("artefact " ++ reprJson name ++ " length must be a positive integer")

def checkArtefacts : Json → Py Unit
  | .arr (art :: rest) => (art :: rest).forM checkArtefact
  | _ => raise (.releaseError "REL_BAD_SCHEMA") "artefacts must be a non-empty list"

def checkEnvironmentFields (env : Json) : List Str → Py Unit
  | [] => return ()
  | field :: rest => do
    if !truthy (← dotGet env field) then
      raise (.releaseError "REL_BAD_SCHEMA") ("build_environment omits " ++ pyRepr field ++ "; the D3 table is the " ++
        "statement of what was pinned, and a table with holes pins nothing there")
    checkEnvironmentFields env rest

def checkBuildEnvironment (env : Json) : Py Unit := do
  if !isMapping env then raise (.releaseError "REL_BAD_SCHEMA") "build_environment must be an object"
  checkEnvironmentFields env buildEnvFields

def checkControlFields (control : Json) : List Str → Py Unit
  | [] => return ()
  | field :: rest => do
    if !(← pyContains field control) then
      raise (.releaseError "REL_BAD_SCHEMA") ("control block omits " ++ pyRepr field)
    checkControlFields control rest

/-- A positive whole number that is not a `bool`. -/
def isCounter : Json → Bool
  | .int n => 1 ≤ n
  | _ => false

def counterFields : List Str := ["signature_threshold", "distinct_keys", "distinct_devices", "distinct_principals"]

def checkCounters (control : Json) : List Str → Py Unit
  | [] => return ()
  | field :: rest => do
    let value ← subscript control field
    if !isCounter value then
      raise (.releaseError "REL_BAD_SCHEMA") ("control." ++ field ++ " must be a positive integer, not " ++
        reprJson value)
    checkCounters control rest

def validateStatement (statement : Json) : Py Json :=
  match statement with
  | .obj fields => do
    if (← dotGet statement "schema") ≠ .str schemaReleaseStatement then
      raise (.releaseError "REL_BAD_SCHEMA") ("statement must declare " ++ pyRepr schemaReleaseStatement)
    checkStatementFields statement statementFields
    if (Dict.get? fields "witness_seq").isSome ∨ (Dict.get? fields "witness_ref").isSome then
      raise (.releaseError "REL_BAD_SCHEMA") ("a ReleaseStatement carries NO position in the witness sequence " ++
        "(ADR-022 D5.2). A self-declared position could be pointed back into the validity window of a " ++
        "revoked key; the actual position of the RELEASE_ATTESTED record is what counts.")
    if (← subscript statement "tree_digest_algo") ≠ .str treeDigestAlgo then
      raise (.releaseError "REL_BAD_SCHEMA") ("tree_digest_algo must be " ++ pyRepr treeDigestAlgo ++
        "; a digest without the name of the algorithm that made it compares to nothing")
    checkHexFields statement statementHexFields
    checkArtefacts (← subscript statement "artefacts")
    checkBuildEnvironment (← subscript statement "build_environment")
    checkScopeAllowsRelease (← subscript statement "reproducibility_scope")
    let control ← subscript statement "control"
    checkControlFields control controlFields
    checkCounters control counterFields
    checkDeviceBinding (← subscript control "device_binding")
    return statement
  | _ => raise (.releaseError "REL_BAD_SCHEMA") ("statement must declare " ++ pyRepr schemaReleaseStatement)

def checkApprovalFields (approval : Json) : List Str → Py Unit
  | [] => return ()
  | field :: rest => do
    if !truthy (← dotGet approval field) then
      raise (.releaseError "REL_BAD_SCHEMA") ("approval omits " ++ pyRepr field)
    checkApprovalFields approval rest

/-- One shape of `verification_evidence_hash` for each role: needed, or not there. -/
def checkEvidenceShape (approval : Json) (needs has : Bool) : Py Unit := do
  let evidence ← dotGet approval "verification_evidence_hash"
  if needs then
    if !truthy evidence then
      raise (.releaseError "REL_EVIDENCE_SHAPE") ("role 'verifier' requires verification_evidence_hash: an " ++
        "approval that claims an independent rebuild without naming its evidence is the claim without the " ++
        "rebuild")
    let _ ← hex64 evidence "verification_evidence_hash"
  else if has then
    raise (.releaseError "REL_EVIDENCE_SHAPE") ("role 'builder' must NOT carry verification_evidence_hash; the " ++
      "field present on a builder is how a builder becomes a verifier without rebuilding anything")

def validateApproval (approval : Json) : Py Json :=
  match approval with
  | .obj fields => do
    if (← dotGet approval "schema") ≠ .str schemaReleaseApproval then
      raise (.releaseError "REL_BAD_SCHEMA") ("approval must declare " ++ pyRepr schemaReleaseApproval)
    checkApprovalFields approval approvalFields
    let role ← subscript approval "role"
    if role ∉ approvalRoles.map Json.str then
      raise (.releaseError "REL_ROLE_NOT_PERMITTED") ("unknown approval role " ++ reprJson role)
    checkEvidenceShape approval (decide (role = .str "verifier")) (Dict.get? fields "verification_evidence_hash").isSome
    return approval
  | _ => raise (.releaseError "REL_BAD_SCHEMA") ("approval must declare " ++ pyRepr schemaReleaseApproval)

variable {crypto}

theorem hex64_str {value : Json} {what lower : Str} (checked : hex64 value what = .ok lower) :
    ∃ text, value = .str text := by
  cases value with
  | str text => exact ⟨text, rfl⟩
  | _ => cases checked

theorem checkHexFields_str {statement : Json} {names : List Str} (checked : checkHexFields statement names = .ok ())
    {field : Str} (listed : field ∈ names) : ∃ text, subscript statement field = .ok (.str text) := by
  induction names with
  | nil => cases listed
  | cons name rest ih =>
    simp only [checkHexFields, bind, Py.bind_ok] at checked
    obtain ⟨value, read, _, hex, checked⟩ := checked
    rcases List.mem_cons.mp listed with rfl | later
    · obtain ⟨text, rfl⟩ := hex64_str hex
      exact ⟨text, read⟩
    · exact ih checked later

theorem validateStatement_ok {statement valid : Json} (passed : validateStatement statement = .ok valid) :
    valid = statement ∧ ∀ field ∈ statementHexFields, ∃ text, subscript statement field = .ok (.str text) := by
  cases statement with
  | obj fields =>
    simp only [validateStatement, bind, Py.bind_ok, Py.unless_ok] at passed
    obtain ⟨_, _, _, _, _, _, _, _, _, _, digests, _, _, _, _, _, _, _, _, _, _, _, _, _, _, _, _, _, _, _, _, _, _,
      same⟩ := passed
    exact ⟨(Except.ok.inj same).symm, fun field listed => checkHexFields_str digests listed⟩
  | _ => cases passed

theorem validateApproval_ok {approval valid : Json} (passed : validateApproval approval = .ok valid) :
    valid = approval ∧ ∃ role ∈ approvalRoles, subscript approval "role" = .ok (.str role) := by
  cases approval with
  | obj fields =>
    simp only [validateApproval, bind, Py.bind_ok, Py.unless_ok, not_not] at passed
    obtain ⟨_, _, _, _, _, role, read, known, _, _, same⟩ := passed
    obtain ⟨name, listed, rfl⟩ := List.mem_map.mp known
    exact ⟨(Except.ok.inj same).symm, name, listed, read⟩
  | _ => cases passed

end JJDai.Release
