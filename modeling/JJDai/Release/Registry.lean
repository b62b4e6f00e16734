import JJDai.Primitive.Collections
import JJDai.Replication.Store

/-! `jjdai.provenance`: the separators, scopes, bindings and key domains of a release, and
the projection of its debt ledger. -/

namespace JJDai.Release

open PyText Canonical

def domainReleaseApproval : Str := "JJDAI:RELEASE:APPROVAL:v1"

def domainRebuildEvidence : Str := "JJDAI:REBUILD:EVIDENCE:v1"

def domainReleaseRevoke : Str := "JJDAI:RELEASE:REVOKE:v1"

def domainToolsetManifest : Str := "JJDAI:TOOLSET:MANIFEST:v1"

def prefixReleaseAttestation : Str := "JJDAI:RELEASE:ATTESTATION:v1"

def prefixKeyLifecycle : Str := "JJDAI:RELEASE:KEYLIFECYCLE:v1"

def prefixReleaseRevoked : Str := "JJDAI:RELEASE:REVOKED:v1"

def signingDomains : List Str :=
  [domainReleaseApproval, domainToolsetManifest, domainRebuildEvidence, domainReleaseRevoke]

def hashPrefixes : List Str := [prefixReleaseAttestation, prefixKeyLifecycle, prefixReleaseRevoked]

def signingDomain (separator : Str) : Py Bytes := do
  if separator ∈ hashPrefixes then
    raise .provenanceValueError (pyRepr separator ++ " is a HASH pre-image prefix, not a signing domain " ++
      "(ADR-022 D5.1). Nothing signs under it: the attestation is addressed by its hash and covered by " ++
      "the approvals inside it. Signing under a hash prefix would re-introduce the redundant statement " ++
      "signature rev 2.2 removed.")
  if separator ∉ signingDomains then
    raise .provenanceValueError ("unknown signing domain " ++ pyRepr separator ++ "; ADR-022 declares exactly " ++
      WitnessChain.reprList signingDomains ++ ". Minting a separator on demand is how one domain silently " ++
      "becomes two.")
  let data ← encode separator
  return data ++ [0]

def hashPrefix (separator : Str) : Py Bytes := do
  if separator ∈ signingDomains then
    raise .provenanceValueError (pyRepr separator ++ " is a SIGNING domain, not a hash pre-image prefix " ++
      "(ADR-022 D5.1). Hashing under a signature domain makes a digest that looks like it was signed and " ++
      "was not.")
  if separator ∉ hashPrefixes then
    raise .provenanceValueError ("unknown hash pre-image prefix " ++ pyRepr separator ++
      "; ADR-022 declares exactly " ++ WitnessChain.reprList hashPrefixes ++ ".")
  let data ← encode separator
  return data ++ [0]

def approvalRoles : List Str := ["builder", "verifier"]

def reproducibilityScopes : List Str := ["same-host", "same-host-class", "cross-host-class"]

def releaseMinScope : Str := "same-host-class"

def scopeRank (scope : Json) : Py Nat :=
  match (reproducibilityScopes.map Json.str).idxOf? scope with
  | some rank => return rank
  | none => raise .provenanceValueError ("unknown reproducibility scope " ++ reprJson scope ++
      "; ADR-022 D3 declares exactly " ++ WitnessChain.reprList reproducibilityScopes)

def deriveScope (builder verifier : Json) : Py Str := do
  let run ← dotGet builder "build_run_id"
  let other ← dotGet verifier "build_run_id"
  if truthy run ∧ Json.pyEq run other then return "same-host"
  let hostClass ← dotGet builder "host_class"
  let otherClass ← dotGet verifier "host_class"
  if Json.pyEq hostClass otherClass then return "same-host-class"
  return "cross-host-class"

def checkScopeAllowsRelease (scope : Json) : Py Unit := do
  let rank ← scopeRank scope
  let least ← scopeRank (.str releaseMinScope)
  if rank < least then
    raise .provenanceValueError ("reproducibility scope " ++ reprJson scope ++ " is below " ++
      pyRepr releaseMinScope ++ " and does not carry a release tag (ADR-022 D3, D13). A rebuild on the " ++
      "same machine repeats the machine; it is preflight and diagnosis, not independence.")

def controlFields : List Str :=
  ["signature_threshold", "distinct_keys", "distinct_devices", "distinct_principals", "device_binding"]

def checkDeviceBinding (value : Json) : Py Unit := do
  if value = .str "attested" then
    raise .provenanceValueError ("device_binding " ++ reprJson value ++ " is RESERVED until hardware " ++
      "attestation profiles land in Ф3 (ADR-022 §16). Until then the separateness of two devices is an " ++
      "operator's assertion, and the artefact says so with 'asserted'.")
  if value ≠ .str "asserted" then
    raise .provenanceValueError ("unknown device_binding " ++ reprJson value ++
      "; ADR-022 D2 declares exactly ['asserted', 'attested']")

def keyDomainToolsetAuthorization : Str := "toolset_authorization"

def keyDomains : List Str := ["release_signing", keyDomainToolsetAuthorization]

def purposeToolsetL2Mutation : Str := "toolset_l2_mutation"

def domainForPurpose : Dict Str Str :=
  [("release_provenance", "release_signing"), (purposeToolsetL2Mutation, keyDomainToolsetAuthorization)]

def keyDomainFor (purpose : Str) : Py Str :=
  match Dict.get? domainForPurpose purpose with
  | some domain => return domain
  | none => raise .provenanceValueError ("unknown purpose " ++ pyRepr purpose ++ "; ADR-022 D10 names exactly " ++
      WitnessChain.reprList (Dict.keys domainForPurpose))

def checkDomainServes (domain : Json) (purpose : Str) : Py Unit := do
  if domain ∉ keyDomains.map Json.str then
    raise .provenanceValueError ("unknown key domain " ++ reprJson domain ++ "; ADR-022 declares exactly " ++
      WitnessChain.reprList keyDomains)
  let wanted ← keyDomainFor purpose
  if domain ≠ .str wanted then
    raise .provenanceValueError ("key domain " ++ reprJson domain ++ " may not serve " ++ pyRepr purpose ++
      ": that is " ++ pyRepr wanted ++ "'s function (ADR-022 D10). Release provenance and the right to " ++
      "change a being's hand are separate powers, and one key holding both collapses them.")

def debtOpened : Str := "DEBT_OPENED"

def debtEvents : List Str := [debtOpened, "DEBT_CLOSED", "DEBT_CANCELLED"]

def debtOpen : Str := "open"

def blocksPublication : Str := "publication"

def debtBoundaries : List Str :=
  [blocksPublication, "meaning-of-a-release-tag", "byte-exactness-of-the-tree", "phase-0-gate",
    "acceptance-of-outside-contribution"]

def debtKind (ev : Json) : Py Str :=
  match ev with
  | .obj fields =>
    match (Dict.get? fields "event").getD .null with
    | .str kind =>
      if kind ∈ debtEvents then return kind
      else raise .provenanceValueError ("unknown debt event " ++ pyRepr kind ++ "; ADR-022 D14 declares exactly " ++
        WitnessChain.reprList debtEvents)
    | kind => raise .provenanceValueError ("unknown debt event " ++ reprJson kind ++
        "; ADR-022 D14 declares exactly " ++ WitnessChain.reprList debtEvents)
  | _ => raise .provenanceValueError ("debt event " ++ reprJson ev ++ " is not an object; every event carries at " ++
      "least its own kind, and the terminal ones carry the reference that makes them distinguishable from a " ++
      "deletion (ADR-022 D14)")

/-- The loop of `project_debt` behind the first event. -/
def projectLater (state : Str) : List Json → Py Str
  | [] => return state
  | ev :: rest => do
    let kind ← debtKind ev
    if state ≠ debtOpen then
      raise .provenanceValueError ("event " ++ pyRepr kind ++ " follows a terminal event; the history inside a " ++
        "position is immutable, so a later event cannot overwrite the one that settled it")
    if kind = debtOpened then
      raise .provenanceValueError ("a position is opened once; re-opening would make the projection depend on " ++
        "which OPENED a reader stopped at")
    let field : Str := if kind = "DEBT_CLOSED" then "evidence_ref" else "decision_ref"
    if !truthy (← dotGet ev field) then
      raise .provenanceValueError (kind ++ " requires " ++ pyRepr field ++ ": a cancelled position leaves the " ++
        "decision that removed it and a closed one leaves the check that discharged it. Without the " ++
        "reference a terminal event is a deletion with better manners")
    projectLater (if kind = "DEBT_CLOSED" then "closed" else "cancelled") rest

def projectDebt : List Json → Py Str
  | [] => raise .provenanceValueError ("a debt position with no events does not exist; D14 removes a position " ++
      "never, so an empty history is a lookup error rather than a state")
  | first :: rest => do
    let kind ← debtKind first
    if kind ≠ debtOpened then
      raise .provenanceValueError ("a debt history begins with DEBT_OPENED, not " ++ pyRepr kind ++ ": a position " ++
        "that was closed before it was opened is a rendering of events that never happened")
    projectLater debtOpen rest

/-- The events of each position, in the order of the ledger. -/
def eventsByPosition : List (Json × List Json) → List Json → Py (List (Json × List Json))
  | positions, [] => return positions
  | positions, event :: rest => do
    let kind ← dotGet event "event"
    let blocks ← dotGet event "blocks"
    if kind = .str debtOpened ∧ blocks ∉ debtBoundaries.map Json.str then
      raise .provenanceValueError ("debt position " ++ reprJson (← dotGet event "id") ++ " opens against boundary " ++
        reprJson blocks ++ ", which is not one of " ++ WitnessChain.reprList debtBoundaries ++
        ". An unknown boundary blocks nothing and reads as though it blocks something")
    let position ← subscript event "id"
    let before ← pyLookup positions position
    let positions ← pyStore positions position (before.getD [] ++ [event])
    eventsByPosition positions rest

def loadDebtLedger (statusDoc : Json) : Py (List (Json × Str)) := do
  let ledger ← subscript statusDoc "release_debt"
  if (← dotGet ledger "schema") ≠ .str "jjdai.debt-ledger/v1" then
    raise .provenanceValueError "release_debt: unexpected schema"
  let events ← pyList (← subscript ledger "events")
  let positions ← eventsByPosition [] events
  positions.mapM (fun entry => do
    let keyed ← entry.2.mapM (fun event => do
      let seq ← subscript event "seq"
      return (seq, event))
    let sorted ← pySort keyed
    let state ← projectDebt sorted
    return (entry.1, state))

end JJDai.Release

/-! `jjdai.release`: the registry of release keys. -/

namespace JJDai.Release

open PyText Canonical Replication

def registrySchema : Str := "jjdai.release-keys/v1"

def keyFields : List Str :=
  ["key_id", "public", "device_id", "principal_id", "roles", "activated_at_witness_seq"]

/-- `RegisteredKey`: an entry of the registry. -/
structure RegisteredKey where
  keyId : Json
  publicHex : Json
  deviceId : Json
  principalId : Json
  roles : List Json
  activated : Int
  revoked : Json
  reason : Json
  deriving DecidableEq

abbrev Registry := List (Json × RegisteredKey)

def isAbsent (value : Json) : Bool := value ∈ [.null, .str [], .arr []]

def checkKeyFields (entry : Json) : List Str → Py Unit
  | [] => return ()
  | field :: rest => do
    if isAbsent (← dotGet entry field) then
      raise (.releaseError "REL_REGISTRY_INVALID") ("registry entry omits " ++ pyRepr field ++
        ": an incomplete key cannot be counted, and the control block is counted from this file")
    checkKeyFields entry rest

/-- What the loop of `load_registry` carries: keys, hosts and public keys. -/
structure Loading where
  keys : Registry := []
  hosts : List (Json × Json) := []
  publics : List (Json × Json) := []

/-- The hosts with the one an entry declares. -/
def claimHost (hosts : List (Json × Json)) (host device : Json) : Py (List (Json × Json)) := do
  if !truthy host then return hosts
  let other := (← pyLookup hosts host).getD .null
  if truthy other ∧ ¬Json.pyEq other device then
    raise (.releaseError "REL_DEVICE_SHARED_HOST") ("device_id " ++ reprJson device ++ " and " ++ reprJson other ++
      " both declare physical host " ++ reprJson host ++ ". Two virtual machines on one box are ONE device " ++
      "(ADR-022 D6); registering them separately would make distinct_devices read as two while being one.")
  pyStore hosts host device

/-- One turn of the loop of `load_registry`. -/
def loadEntry (loading : Loading) (entry : Json) : Py Loading := do
  checkKeyFields entry keyFields
  let kid ← subscript entry "key_id"
  if (← pyLookup loading.keys kid).isSome then
    raise (.releaseError "REL_REGISTRY_INVALID") ("key_id " ++ reprJson kid ++ " registered twice; the registry is " ++
      "append-only and a key is registered once, then revoked forward")
  let host ← dotGet entry "physical_host"
  let assertion ← dotGet entry "physical_host_assertion"
  if !truthy (← dotGet entry "hardware_binding") && !(truthy host && truthy assertion) then
    raise (.releaseError "REL_REGISTRY_INVALID") ("key " ++ reprJson kid ++ " declares neither a hardware binding " ++
      "nor a physical_host with a physical_host_assertion. distinct_devices is a count of PHYSICAL machines; " ++
      "without one of the two it counts whatever the file lists, which is what the operator wanted it to " ++
      "say (ADR-022 D6).")
  let device ← subscript entry "device_id"
  let hosts ← claimHost loading.hosts host device
  let roles ← pyList (← subscript entry "roles")
  let bad := roles.filter (fun role => role ∉ approvalRoles.map Json.str)
  if bad ≠ [] then
    raise (.releaseError "REL_REGISTRY_INVALID") ("key " ++ reprJson kid ++ " declares unknown role(s) " ++
      reprJson (.arr bad))
  let publicHex ← subscript entry "public"
  if let some other ← pyLookup loading.publics publicHex then
    raise (.releaseError "REL_REGISTRY_INVALID") ("key " ++ reprJson kid ++ " shares a public key with " ++
      reprJson other ++ ". Two ids over one key are one key wearing two names, and distinct_keys would count " ++
      "it twice.")
  let publics ← pyStore loading.publics publicHex kid
  let principalId ← subscript entry "principal_id"
  let activated ← pyInt (← subscript entry "activated_at_witness_seq")
  let revoked ← dotGet entry "revoked_at_witness_seq"
  let reason ← dotGet entry "revocation_reason"
  let keys ← pyStore loading.keys kid ⟨kid, publicHex, device, principalId, roles, activated, revoked, reason⟩
  return { keys, hosts, publics }

def loadRegistry (doc : Json) : Py Registry :=
  match doc with
  | .obj _ => do
    if (← dotGet doc "schema") ≠ .str registrySchema then
      raise (.releaseError "REL_REGISTRY_INVALID") ("release key registry must declare schema " ++
        pyRepr registrySchema)
    let binding ← dotGet doc "lifecycle_binding"
    if binding ≠ .str "witnessed" then
      raise (.releaseError "REL_LIFECYCLE_BINDING") ("the registry declares lifecycle_binding=" ++
        reprJson binding ++ "; since ADR-022 rev 2.4 every position must resolve to a KEY_ACTIVATED / " ++
        "KEY_REVOKED record naming the key and the transition, and the registry must say 'witnessed'. An " ++
        "asserted position where a witnessed one is possible is a number in a file asking to be trusted")
    let entries ← pyList (orList (← dotGet doc "keys"))
    let loaded ← entries.foldlM loadEntry {}
    return loaded.keys
  | _ => raise (.releaseError "REL_REGISTRY_INVALID") ("release key registry must declare schema " ++
      pyRepr registrySchema)

/-- What the loop of `load_registry` keeps: every key is under its id with roles there are, and no two have one
`public` string. -/
structure Loading.Sound (loading : Loading) : Prop where
  named : ∀ entry ∈ loading.keys, entry.1 = entry.2.keyId
  acting : ∀ entry ∈ loading.keys, ∀ role ∈ entry.2.roles, role ∈ approvalRoles.map Json.str
  listed : ∀ entry ∈ loading.keys, ∃ known ∈ loading.publics, known.1 = entry.2.publicHex
  apart : loading.keys.Pairwise (fun first second => ¬Json.pyEq first.2.publicHex second.2.publicHex)

theorem loadEntry_sound {loading next : Loading} {entry : Json} (sound : loading.Sound)
    (loaded : loadEntry loading entry = .ok next) : next.Sound := by
  simp only [loadEntry, bind, Py.bind_ok, Py.unless_ok] at loaded
  obtain ⟨_, _, kid, _, taken, looked, fresh, _, _, _, _, _, _, _, _, _, hosts, _, _, _, roles, _, usual, publicHex,
    _, shared, asked, loaded⟩ := loaded
  obtain rfl : taken = none := by simpa using fresh
  cases shared with
  | some other => cases loaded
  | none =>
    simp only [Py.bind_ok, pyStore, bind, Py.unless_ok] at loaded
    obtain ⟨publics, ⟨_, publicsMade⟩, principalId, _, _, _, activated, _, revoked, _, reason, _, keys, ⟨_, keysMade⟩,
      made⟩ := loaded
    obtain rfl := Except.ok.inj made
    obtain rfl := Except.ok.inj publicsMade
    obtain rfl := Except.ok.inj keysMade
    have unused := pyLookup_none asked
    rw [storeEntry_absent _ (pyLookup_none looked), storeEntry_absent _ unused]
    constructor
    · intro old member
      rcases List.mem_append.mp member with before | new
      · exact sound.named old before
      · rw [List.mem_singleton.mp new]
    · intro old member role among
      rcases List.mem_append.mp member with before | new
      · exact sound.acting old before role among
      · rw [List.mem_singleton.mp new] at among
        by_contra unknown
        exact usual (List.ne_nil_of_mem (List.mem_filter.mpr ⟨among, decide_eq_true unknown⟩))
    · intro old member
      rcases List.mem_append.mp member with before | new
      · obtain ⟨known, held, same⟩ := sound.listed old before
        exact ⟨known, List.mem_append_left _ held, same⟩
      · exact ⟨_, List.mem_append_right _ (List.mem_singleton_self _), by rw [List.mem_singleton.mp new]⟩
    · refine List.pairwise_append.mpr ⟨sound.apart, List.pairwise_singleton _ _, ?_⟩
      intro old before new inside same
      rw [List.mem_singleton.mp inside] at same
      obtain ⟨known, held, spelled⟩ := sound.listed old before
      exact unused known held (spelled ▸ same)

theorem loadEntries_sound {entries : List Json} {loading final : Loading} (sound : loading.Sound)
    (folded : entries.foldlM loadEntry loading = .ok final) : final.Sound := by
  induction entries generalizing loading with
  | nil =>
    obtain rfl := Except.ok.inj folded
    exact sound
  | cons entry rest ih =>
    simp only [List.foldlM_cons, bind, Py.bind_ok] at folded
    obtain ⟨next, stepped, folded⟩ := folded
    exact ih (loadEntry_sound sound stepped) folded

/-- A loaded registry holds every key under its id and with roles there are, and every `public` string once. -/
theorem loadRegistry_sound {doc : Json} {registry : Registry} (loaded : loadRegistry doc = .ok registry) :
    (∀ entry ∈ registry, entry.1 = entry.2.keyId ∧ ∀ role ∈ entry.2.roles, role ∈ approvalRoles.map Json.str) ∧
      registry.Pairwise (fun first second => ¬Json.pyEq first.2.publicHex second.2.publicHex) := by
  cases doc with
  | obj fields =>
    simp only [loadRegistry, bind, Py.bind_ok, Py.unless_ok] at loaded
    obtain ⟨_, _, _, _, _, _, _, _, entries, _, final, folded, made⟩ := loaded
    obtain rfl := Except.ok.inj made
    have start : Loading.Sound {} :=
      ⟨fun _ member => absurd member List.not_mem_nil, fun _ member => absurd member List.not_mem_nil,
        fun _ member => absurd member List.not_mem_nil, List.Pairwise.nil⟩
    have sound := loadEntries_sound start folded
    exact ⟨fun entry member => ⟨sound.named entry member, sound.acting entry member⟩, sound.apart⟩
  | _ => cases loaded

def Registry.find (registry : Registry) (keyId : Json) : Py (Option RegisteredKey) := pyLookup registry keyId

/-- `registry.get(key_id) if registry else None`. -/
def Registry.findAny (registry : Registry) (keyId : Json) : Py (Option RegisteredKey) :=
  if registry = [] then return none else registry.find keyId

def keyValidAt (key : RegisteredKey) (witnessSeq : Int) : Py Unit := do
  if witnessSeq < key.activated then
    raise (.releaseError "REL_KEY_NOT_ACTIVE") ("key " ++ reprJson key.keyId ++ " activates at witness position " ++
      intText key.activated ++ " and this release records at " ++ intText witnessSeq ++
      ": a key acts from its declared position, never retroactively")
  if key.revoked ≠ .null then
    let position ← pyInt key.revoked
    if position ≤ witnessSeq then
      raise (.releaseError "REL_KEY_REVOKED") ("key " ++ reprJson key.keyId ++ " was revoked at witness position " ++
        pyStr key.revoked ++ " (" ++ (if truthy key.reason then pyStr key.reason else "no reason recorded") ++
        ") and this release records at " ++ intText witnessSeq)

/-- A key that acts at a position: from its activation on, and before its revocation. -/
structure ActiveAt (key : RegisteredKey) (witnessSeq : Int) : Prop where
  activated : key.activated ≤ witnessSeq
  revoked : key.revoked = .null ∨ ∃ position, pyInt key.revoked = .ok position ∧ witnessSeq < position

theorem keyValidAt_ok {key : RegisteredKey} {witnessSeq : Int} :
    keyValidAt key witnessSeq = .ok () ↔ ActiveAt key witnessSeq := by
  simp only [keyValidAt, bind, Py.unless_ok, not_lt]
  constructor
  · rintro ⟨activated, later⟩
    refine ⟨activated, ?_⟩
    by_cases absent : key.revoked = .null
    · exact .inl absent
    · simp only [absent, ne_eq, not_false_eq_true, if_true, Py.bind_ok] at later
      obtain ⟨position, read, before⟩ := later
      refine .inr ⟨position, read, ?_⟩
      by_contra reached
      simp [not_lt.mp reached, raise] at before
  · rintro ⟨activated, absent | ⟨position, read, before⟩⟩
    · refine ⟨activated, ?_⟩
      simp [absent, pure, Except.pure]
    · refine ⟨activated, ?_⟩
      split
      · simp [read, Except.bind, not_le.mpr before, pure, Except.pure]
      · rfl

end JJDai.Release
