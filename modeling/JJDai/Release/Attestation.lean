import JJDai.Release.External

/-! `jjdai.release.verify_attestation`: the approvals of a release, counted through the
registry. -/

namespace JJDai.Release

open PyText Canonical Provenance Replication

def schemaReleaseAttestation : Str := "jjdai.release-attestation/v1"

/-- The sets that the loop over the approvals fills. -/
structure Seen where
  keys : List Json := []
  devices : List Json := []
  principals : List Json := []
  roles : List Json := []
  deriving DecidableEq

structure Control where
  signatureThreshold : Nat
  distinctKeys : Nat
  distinctDevices : Nat
  distinctPrincipals : Nat
  deviceBinding : Json
  deriving DecidableEq

variable (crypto : Crypto)

def registeredKey (registry : Registry) (approval : Json) : Py RegisteredKey := do
  let keyId ← subscript approval "key_id"
  match ← registry.find keyId with
  | none => raise (.releaseError "REL_UNKNOWN_KEY") ("key " ++ reprJson keyId ++ " is not in the registry")
  | some key => return key

def checkRole (approval : Json) (key : RegisteredKey) : Py Unit := do
  let role ← subscript approval "role"
  if !key.roles.any (fun permitted => decide (Json.pyEq permitted role)) then
    raise (.releaseError "REL_ROLE_NOT_PERMITTED") ("key " ++ reprJson key.keyId ++ " is registered for " ++
      reprJson (.arr key.roles) ++ " and this approval claims " ++ reprJson role)

/-- Device and principal are those of the registry. -/
def checkOwner (approval : Json) (key : RegisteredKey) : Py Unit := do
  let device ← subscript approval "device_id"
  let principal ← subscript approval "principal_id"
  if ¬Json.pyEq device key.deviceId ∨ ¬Json.pyEq principal key.principalId then
    raise (.releaseError "REL_CONTROL_MISMATCH") ("approval by " ++ reprJson key.keyId ++ " claims device " ++
      reprJson device ++ " / principal " ++ reprJson principal ++ "; the registry records " ++
      reprJson key.deviceId ++ " / " ++ reprJson key.principalId ++ ". Ownership is declared in ONE place, " ++
      "under history, not repeated per record where it can drift.")

def checkApprovalSignature (signed : Json) (key : RegisteredKey) : Py Unit :=
  match signatureOf signed key with
  | .error _ => raise (.releaseError "REL_BAD_SIGNATURE") ("approval by " ++ reprJson key.keyId ++
      ": signature or key is not hex")
  | .ok (sig, pub) => do
    let data ← approvalSigningBytes signed
    if !crypto.verify pub data sig then
      raise (.releaseError "REL_BAD_SIGNATURE") ("approval by " ++ reprJson key.keyId ++ " does not verify under " ++
        domainReleaseApproval)

/-- What the loop checks of one approval before it counts it. -/
def checkApproval (registry : Registry) (witnessSeq : Int) (want : Str) (signed : Json) : Py RegisteredKey := do
  let approval ← validateApproval signed
  if (← subscript approval "statement_hash") ≠ .str want then
    raise (.releaseError "REL_STATEMENT_MISMATCH") ("approval by " ++ reprJson (← subscript approval "key_id") ++
      " names another release; the statement_hash inside an approval is what stops it being carried to a " ++
      "different one")
  let key ← registeredKey registry approval
  keyValidAt key witnessSeq
  checkRole approval key
  checkOwner approval key
  checkApprovalSignature crypto signed key
  return key

def Seen.add (seen : Seen) (key : RegisteredKey) (role : Json) : Py Seen := do
  if ← setContains seen.keys key.keyId then
    raise (.releaseError "REL_KEY_REUSED") ("key " ++ reprJson key.keyId ++ " approved twice; two signatures by one " ++
      "key are one signature counted twice")
  if ← setContains seen.devices key.deviceId then
    raise (.releaseError "REL_DEVICE_REUSED") ("device " ++ reprJson key.deviceId ++ " carries two approvals. Two " ++
      "keys on one machine close nothing that one key on it does not: a compromised workstation holds both.")
  let keys ← setAdd seen.keys key.keyId
  let devices ← setAdd seen.devices key.deviceId
  let principals ← setAdd seen.principals key.principalId
  let roles ← setAdd seen.roles role
  return { keys, devices, principals, roles }

def countApprovals (registry : Registry) (witnessSeq : Int) (want : Str) : Seen → List Json → Py Seen
  | seen, [] => return seen
  | seen, signed :: rest => do
    let key ← checkApproval crypto registry witnessSeq want signed
    let seen ← seen.add key (← subscript signed "role")
    countApprovals registry witnessSeq want seen rest

/-- The loop over the roles that have to be there. -/
def checkRolesPresent (roles : List Json) : List Str → Py Unit
  | [] => return ()
  | role :: rest => do
    if !(← setContains roles (.str role)) then
      raise (.releaseError "REL_ROLE_MISSING") ("no approval of role " ++ pyRepr role ++ ". One of the two " ++
        "signatures must be the signature of the ACT OF VERIFICATION, or the control is two signatures over one " ++
        "person's word (ADR-022 D2).")
    checkRolesPresent roles rest

/-- The loop that compares the recorded numbers with the counted ones. -/
def checkCounted (recorded : Json) : List (Str × Nat) → Py Unit
  | [] => return ()
  | (field, counted) :: rest => do
    let value ← subscript recorded field
    if (← pyInt value) ≠ counted then
      raise (.releaseError "REL_CONTROL_MISMATCH") ("control records " ++ field ++ "=" ++ pyStr value ++
        " and the approvals count " ++ natText counted ++ ". The numbers are DERIVED from valid approvals " ++
        "through the registry; a recorded number that disagrees is an independence nobody had.")
    checkCounted recorded rest

def checkControl (recorded : Json) (control : Control) : Py Unit := do
  checkCounted recorded [("signature_threshold", control.signatureThreshold), ("distinct_keys", control.distinctKeys),
    ("distinct_devices", control.distinctDevices), ("distinct_principals", control.distinctPrincipals)]
  if control.distinctKeys < 2 ∨ control.distinctDevices < 2 then
    raise (.releaseError "REL_CONTROL_MISMATCH") ("two signatures by two distinct keys on two distinct devices is " ++
      "the floor and is never lowered to one (ADR-022 D2, D6)")

/-- The statement of an attestation and its hash, which the attestation records. -/
def attestedStatement (attestation : Json) : Py (Json × Str) :=
  match attestation with
  | .obj _ => do
    if (← dotGet attestation "schema") ≠ .str schemaReleaseAttestation then
      raise (.releaseError "REL_BAD_SCHEMA") ("attestation must declare " ++ pyRepr schemaReleaseAttestation)
    let statement ← validateStatement (← dotGet attestation "statement")
    let want ← statementHash crypto statement
    let recorded ← dotGet attestation "statement_hash"
    if recorded ≠ .str want then
      raise (.releaseError "REL_STATEMENT_MISMATCH") ("attestation records statement_hash " ++ reprJson recorded ++
        ", the statement hashes " ++ want)
    return (statement, want)
  | _ => raise (.releaseError "REL_BAD_SCHEMA") ("attestation must declare " ++ pyRepr schemaReleaseAttestation)

def approvalsOf (attestation : Json) : Py (List Json) := do
  pyList (orList (← dotGet attestation "approvals"))

def verifyAttestation (attestation : Json) (registry : Registry) (witnessSeq : Int) (context : ReleaseContext) :
    Py Control := do
  let (statement, want) ← attestedStatement crypto attestation
  let approvals ← approvalsOf attestation
  let seen ← countApprovals crypto registry witnessSeq want {} approvals
  checkRolesPresent seen.roles approvalRoles
  let recorded ← subscript statement "control"
  let control : Control := {
    signatureThreshold := approvals.length
    distinctKeys := seen.keys.length
    distinctDevices := seen.devices.length
    distinctPrincipals := seen.principals.length
    deviceBinding := ← subscript recorded "device_binding" }
  checkControl recorded control
  checkExternal crypto statement context approvals registry
  return control

/-- An approval of a statement by a registered key, signed under that key's bytes. -/
structure Approves (registry : Registry) (witnessSeq : Int) (want role : Str) (signed : Json) (key : RegisteredKey)
    (pub : Bytes) : Prop where
  acts : subscript signed "role" = .ok (.str role)
  known : role ∈ approvalRoles
  statement : subscript signed "statement_hash" = .ok (.str want)
  registered : registeredKey registry signed = .ok key
  active : ActiveAt key witnessSeq
  permitted : ∃ named ∈ key.roles, Json.pyEq named (.str role)
  decoded : bytesFromHex key.publicHex = .ok pub
  signature : ∃ hex data sig, dotGet signed "signature" = .ok hex ∧ bytesFromHex (orText hex) = .ok sig ∧
    approvalSigningBytes signed = .ok data ∧ crypto.verify pub data sig = true

variable {crypto} {registry : Registry} {witnessSeq : Int} {want : Str}

theorem verifyAttestation_ok {attestation : Json} {context : ReleaseContext} {control : Control} :
    verifyAttestation crypto attestation registry witnessSeq context = .ok control ↔
      ∃ statement want approvals seen recorded binding, attestedStatement crypto attestation = .ok (statement, want) ∧
        approvalsOf attestation = .ok approvals ∧
        countApprovals crypto registry witnessSeq want {} approvals = .ok seen ∧
        checkRolesPresent seen.roles approvalRoles = .ok () ∧ subscript statement "control" = .ok recorded ∧
        subscript recorded "device_binding" = .ok binding ∧
        control = ⟨approvals.length, seen.keys.length, seen.devices.length, seen.principals.length, binding⟩ ∧
        checkControl recorded control = .ok () ∧
        checkExternal crypto statement context approvals registry = .ok () := by
  simp only [verifyAttestation, bind, Py.bind_ok]
  constructor
  · rintro ⟨⟨statement, want⟩, attested, approvals, listed, seen, counted, _, roles, recorded, read, binding, bound, _,
      checked, _, external, made⟩
    obtain rfl := Except.ok.inj made
    exact ⟨statement, want, approvals, seen, recorded, binding, attested, listed, counted, roles, read, bound, rfl,
      checked, external⟩
  · rintro ⟨statement, want, approvals, seen, recorded, binding, attested, listed, counted, roles, read, bound, rfl,
      checked, external⟩
    exact ⟨(statement, want), attested, approvals, listed, seen, counted, (), roles, recorded, read, binding, bound, (),
      checked, (), external, rfl⟩

theorem checkApprovalSignature_ok {signed : Json} {key : RegisteredKey}
    (passed : checkApprovalSignature crypto signed key = .ok ()) :
    ∃ hex data sig pub, dotGet signed "signature" = .ok hex ∧ bytesFromHex (orText hex) = .ok sig ∧
      bytesFromHex key.publicHex = .ok pub ∧ approvalSigningBytes signed = .ok data ∧
      crypto.verify pub data sig = true := by
  unfold checkApprovalSignature at passed
  cases decoded : signatureOf signed key with
  | error e =>
    simp only [decoded] at passed
    cases passed
  | ok pair =>
    obtain ⟨sig, pub⟩ := pair
    simp only [decoded, bind, Py.bind_ok] at passed
    obtain ⟨data, text, passed⟩ := passed
    simp only [signatureOf, bind, Py.bind_ok] at decoded
    obtain ⟨hex, hexRead, sig', sigRead, pub', pubRead, same⟩ := decoded
    obtain ⟨rfl, rfl⟩ := Prod.mk.inj (Except.ok.inj same)
    refine ⟨hex, data, sig', pub', hexRead, sigRead, pubRead, text, ?_⟩
    cases verified : crypto.verify pub' data sig' with
    | true => rfl
    | false =>
      rw [verified] at passed
      cases passed

theorem checkRole_ok {approval : Json} {role : Str} {key : RegisteredKey}
    (acts : subscript approval "role" = .ok (.str role)) (passed : checkRole approval key = .ok ()) :
    ∃ named ∈ key.roles, Json.pyEq named (.str role) := by
  simp only [checkRole, acts, bind, Except.bind] at passed
  cases permitted : key.roles.any (fun named => decide (Json.pyEq named (.str role))) with
  | true =>
    obtain ⟨named, member, same⟩ := List.any_eq_true.mp permitted
    exact ⟨named, member, of_decide_eq_true same⟩
  | false =>
    rw [permitted] at passed
    cases passed

theorem checkApproval_parts {signed : Json} {key : RegisteredKey} :
    checkApproval crypto registry witnessSeq want signed = .ok key ↔
      ∃ approval, validateApproval signed = .ok approval ∧ subscript approval "statement_hash" = .ok (.str want) ∧
        registeredKey registry approval = .ok key ∧ keyValidAt key witnessSeq = .ok () ∧
        checkRole approval key = .ok () ∧ checkOwner approval key = .ok () ∧
        checkApprovalSignature crypto signed key = .ok () := by
  simp only [checkApproval, bind, Py.bind_ok]
  constructor
  · rintro ⟨approval, valid, named, statement, passed⟩
    split at passed
    · simp only [Py.bind_ok, raise] at passed
      obtain ⟨_, _, _, ⟨⟩, _⟩ := passed
    · rename_i same
      obtain rfl := not_not.mp same
      simp only [Py.bind_ok] at passed
      obtain ⟨found, registered, _, active, _, permitted, _, owned, _, signature, made⟩ := passed
      obtain rfl := Except.ok.inj made
      exact ⟨approval, valid, statement, registered, active, permitted, owned, signature⟩
  · rintro ⟨approval, valid, statement, registered, active, permitted, owned, signature⟩
    refine ⟨approval, valid, _, statement, ?_⟩
    rw [if_neg (not_not.mpr rfl)]
    simp only [registered, active, permitted, owned, signature, Except.bind]
    rfl

theorem checkApproval_ok {signed : Json} {key : RegisteredKey}
    (passed : checkApproval crypto registry witnessSeq want signed = .ok key) :
    ∃ role pub, Approves crypto registry witnessSeq want role signed key pub := by
  obtain ⟨approval, valid, statement, registered, active, permitted, _, signature⟩ := checkApproval_parts.mp passed
  obtain ⟨rfl, role, known, acts⟩ := validateApproval_ok valid
  obtain ⟨hex, data, sig, pub, hexRead, sigRead, decoded, text, verified⟩ := checkApprovalSignature_ok signature
  exact ⟨role, pub, {
    acts, known, statement, registered, decoded
    active := keyValidAt_ok.mp active
    permitted := checkRole_ok acts permitted
    signature := ⟨hex, data, sig, hexRead, sigRead, text, verified⟩ }⟩

end JJDai.Release
