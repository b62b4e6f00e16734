import JJDai.Primitive.CanonicalText
import JJDai.Release.Attestation

/-! What the loop over the approvals establishes, and when the two signatures of a release are
made with two keys. -/

namespace JJDai.Release

open PyText Canonical Provenance Replication

theorem setContains_false {members : List Json} {value : Json} (absent : setContains members value = .ok false) :
    ∀ member ∈ members, ¬Json.pyEq member value := by
  simp only [setContains, bind, Py.unless_ok] at absent
  have none := Except.ok.inj absent.2
  intro member held same
  have found := List.any_eq_false.mp none member held
  simp [same] at found

theorem setContains_true {members : List Json} {value : Json} (found : setContains members value = .ok true) :
    ∃ member ∈ members, Json.pyEq member value := by
  simp only [setContains, bind, Py.unless_ok] at found
  obtain ⟨member, held, same⟩ := List.any_eq_true.mp (Except.ok.inj found.2)
  exact ⟨member, held, of_decide_eq_true same⟩

theorem setAdd_absent {members after : List Json} {value : Json} (absent : setContains members value = .ok false)
    (added : setAdd members value = .ok after) : after = members ++ [value] := by
  simp only [setAdd, absent, bind, Except.bind] at added
  exact (Except.ok.inj added).symm

theorem mem_setAdd {members after : List Json} {value : Json} (added : setAdd members value = .ok after)
    {member : Json} (held : member ∈ after) : member ∈ members ∨ member = value := by
  simp only [setAdd, bind, Py.bind_ok] at added
  obtain ⟨present, _, made⟩ := added
  cases present with
  | true =>
    obtain rfl := Except.ok.inj made
    exact .inl held
  | false =>
    obtain rfl := Except.ok.inj made
    simpa using held

/-- What adding an approval to the sets shows and leaves. -/
structure Added (seen next : Seen) (key : RegisteredKey) (role : Json) : Prop where
  freshKey : ∀ id ∈ seen.keys, ¬Json.pyEq id key.keyId
  freshDevice : ∀ device ∈ seen.devices, ¬Json.pyEq device key.deviceId
  keys : next.keys = seen.keys ++ [key.keyId]
  devices : next.devices = seen.devices ++ [key.deviceId]
  roles : ∀ member ∈ next.roles, member ∈ seen.roles ∨ member = role

theorem Seen.add_ok {seen next : Seen} {key : RegisteredKey} {role : Json} (added : seen.add key role = .ok next) :
    Added seen next key role := by
  simp only [Seen.add, bind, Py.bind_ok, Py.unless_ok] at added
  obtain ⟨reused, keyAsked, fresh, shared, deviceAsked, apart, keys, keysMade, devices, devicesMade, principals, _,
    roles, rolesMade, made⟩ := added
  obtain rfl := Except.ok.inj made
  obtain rfl : reused = false := by simpa using fresh
  obtain rfl : shared = false := by simpa using apart
  exact {
    freshKey := setContains_false keyAsked
    freshDevice := setContains_false deviceAsked
    keys := setAdd_absent keyAsked keysMade
    devices := setAdd_absent deviceAsked devicesMade
    roles := fun member held => mem_setAdd rolesMade held }

variable {crypto : Crypto} {registry : Registry} {witnessSeq : Int} {want : Str}

/-- Approvals by keys that differ in id and in device. -/
def KeysApart (registry : Registry) (first second : Json) : Prop :=
  ∀ key other, registeredKey registry first = .ok key → registeredKey registry second = .ok other →
    ¬Json.pyEq key.keyId other.keyId ∧ ¬Json.pyEq key.deviceId other.deviceId

theorem KeysApart.symm {first second : Json} (apart : KeysApart registry first second) :
    KeysApart registry second first := by
  intro key other named named'
  obtain ⟨ids, devices⟩ := apart other key named' named
  exact ⟨fun same => ids same.symm, fun same => devices same.symm⟩

/-- What the loop leaves of approvals that all pass. -/
structure Counted (crypto : Crypto) (registry : Registry) (witnessSeq : Int) (want : Str) (seen final : Seen)
    (approvals : List Json) : Prop where
  approves : ∀ signed ∈ approvals, ∃ role key pub, Approves crypto registry witnessSeq want role signed key pub
  fresh : ∀ signed ∈ approvals, ∀ key, registeredKey registry signed = .ok key →
    (∀ id ∈ seen.keys, ¬Json.pyEq id key.keyId) ∧ ∀ device ∈ seen.devices, ¬Json.pyEq device key.deviceId
  apart : approvals.Pairwise (KeysApart registry)
  roles : ∀ role ∈ final.roles, role ∈ seen.roles ∨ ∃ signed ∈ approvals, subscript signed "role" = .ok role

theorem countApprovals_ok {seen final : Seen} {approvals : List Json}
    (counted : countApprovals crypto registry witnessSeq want seen approvals = .ok final) :
    Counted crypto registry witnessSeq want seen final approvals := by
  induction approvals generalizing seen with
  | nil =>
    obtain rfl := Except.ok.inj counted
    exact {
      approves := fun _ member => absurd member List.not_mem_nil
      fresh := fun _ member => absurd member List.not_mem_nil
      apart := List.Pairwise.nil
      roles := fun _ held => .inl held }
  | cons signed rest ih =>
    simp only [countApprovals, bind, Py.bind_ok] at counted
    obtain ⟨key, checked, role, roleRead, next, added, counted⟩ := counted
    have later := ih counted
    have step := Seen.add_ok added
    obtain ⟨name, pub, approves⟩ := checkApproval_ok checked
    constructor
    · intro other member
      rcases List.mem_cons.mp member with rfl | inside
      · exact ⟨name, key, pub, approves⟩
      · exact later.approves other inside
    · intro other member found named
      rcases List.mem_cons.mp member with rfl | inside
      · obtain rfl := Except.ok.inj (named.symm.trans approves.registered)
        exact ⟨step.freshKey, step.freshDevice⟩
      · obtain ⟨ids, devices⟩ := later.fresh other inside found named
        rw [step.keys] at ids
        rw [step.devices] at devices
        exact ⟨fun id held => ids id (List.mem_append_left _ held),
          fun device held => devices device (List.mem_append_left _ held)⟩
    · refine List.pairwise_cons.mpr ⟨?_, later.apart⟩
      intro other inside found found' named named'
      obtain rfl := Except.ok.inj (named.symm.trans approves.registered)
      obtain ⟨ids, devices⟩ := later.fresh other inside found' named'
      refine ⟨ids _ ?_, devices _ ?_⟩
      · simp [step.keys]
      · simp [step.devices]
    · intro member held
      rcases later.roles member held with before | ⟨other, inside, acts⟩
      · rcases step.roles member before with old | rfl
        · exact .inl old
        · exact .inr ⟨signed, List.mem_cons_self, roleRead⟩
      · exact .inr ⟨other, List.mem_cons_of_mem _ inside, acts⟩

theorem checkRolesPresent_ok {roles : List Json} {names : List Str} (passed : checkRolesPresent roles names = .ok ())
    {name : Str} (listed : name ∈ names) : .str name ∈ roles := by
  induction names with
  | nil => cases listed
  | cons first rest ih =>
    simp only [checkRolesPresent, bind, Py.bind_ok, Py.unless_ok] at passed
    obtain ⟨present, asked, found, passed⟩ := passed
    rcases List.mem_cons.mp listed with rfl | later
    · obtain rfl : present = true := by simpa using found
      obtain ⟨member, held, same⟩ := setContains_true asked
      rwa [Json.pyEq_str.mp same] at held
    · exact ih passed later

/-- The approvals of an attestation that was accepted at a position. -/
structure Accepted (crypto : Crypto) (attestation : Json) (registry : Registry) (witnessSeq : Int) where
  statement : Json
  want : Str
  approvals : List Json
  attested : attestedStatement crypto attestation = .ok (statement, want)
  listed : approvalsOf attestation = .ok approvals
  approves : ∀ signed ∈ approvals, ∃ role key pub, Approves crypto registry witnessSeq want role signed key pub
  apart : approvals.Pairwise (KeysApart registry)
  present : ∀ role ∈ approvalRoles, ∃ signed ∈ approvals, subscript signed "role" = .ok (.str role)

variable {attestation : Json} {context : ReleaseContext} {control : Control}

theorem accepted_of_verifies (verified : verifyAttestation crypto attestation registry witnessSeq context = .ok control) :
    Nonempty (Accepted crypto attestation registry witnessSeq) := by
  simp only [verifyAttestation, bind, Py.bind_ok] at verified
  obtain ⟨⟨statement, want⟩, attested, approvals, listed, final, counted, _, roles, _⟩ := verified
  have all := countApprovals_ok counted
  refine ⟨{
    statement, want, approvals, attested, listed
    approves := all.approves
    apart := all.apart
    present := ?_ }⟩
  intro role known
  rcases all.roles _ (checkRolesPresent_ok roles known) with old | found
  · cases old
  · exact found

/-- A builder and a verifier of one statement, with different keys and devices. -/
def TwoKeys (crypto : Crypto) (attestation : Json) (registry : Registry) (witnessSeq : Int) : Prop :=
  ∃ statement want approvals, attestedStatement crypto attestation = .ok (statement, want) ∧
    approvalsOf attestation = .ok approvals ∧
    ∃ builder ∈ approvals, ∃ verifier ∈ approvals, ∃ key pub other pub',
      Approves crypto registry witnessSeq want "builder" builder key pub ∧
      Approves crypto registry witnessSeq want "verifier" verifier other pub' ∧
      pub ≠ pub' ∧ ¬Json.pyEq key.deviceId other.deviceId

/-- All approvals name registered spellings of one key. -/
def OneKey (attestation : Json) (registry : Registry) : Prop :=
  ∃ pub approvals, approvalsOf attestation = .ok approvals ∧
    ∀ signed ∈ approvals, ∃ key, registeredKey registry signed = .ok key ∧ bytesFromHex key.publicHex = .ok pub

theorem not_twoKeys_of_oneKey (one : OneKey attestation registry) :
    ¬TwoKeys crypto attestation registry witnessSeq := by
  obtain ⟨pub, approvals, listed, spelled⟩ := one
  rintro ⟨_, _, others, _, listed', builder, inside, verifier, inside', _, _, _, _, builds, verifies, apart, _⟩
  obtain rfl := Except.ok.inj (listed.symm.trans listed')
  have decodes {signed : Json} {role want : Str} {key : RegisteredKey} {bytes : Bytes} (member : signed ∈ approvals)
      (approves : Approves crypto registry witnessSeq want role signed key bytes) : bytes = pub := by
    obtain ⟨found, named, decoded⟩ := spelled signed member
    obtain rfl := Except.ok.inj (named.symm.trans approves.registered)
    exact Except.ok.inj (approves.decoded.symm.trans decoded)
  exact apart ((decodes inside builds).trans (decodes inside' verifies).symm)

/-- Approvals in two roles are approvals by two keys on two devices, if their bytes differ. -/
theorem Accepted.twoKeys (accepted : Accepted crypto attestation registry witnessSeq) {builder verifier : Json}
    {key other : RegisteredKey} {pub pub' : Bytes} (inside : builder ∈ accepted.approvals)
    (inside' : verifier ∈ accepted.approvals)
    (builds : Approves crypto registry witnessSeq accepted.want "builder" builder key pub)
    (verifies : Approves crypto registry witnessSeq accepted.want "verifier" verifier other pub')
    (differ : pub ≠ pub') : TwoKeys crypto attestation registry witnessSeq := by
  have distinct : builder ≠ verifier := by
    rintro rfl
    have same := builds.acts.symm.trans verifies.acts
    exact absurd (Json.str.inj (Except.ok.inj same)) (by decide)
  have symmetric : Std.Symm (KeysApart registry) := ⟨fun _ _ apart => apart.symm⟩
  have apart := accepted.apart.forall inside inside' distinct
  exact ⟨accepted.statement, accepted.want, accepted.approvals, accepted.attested, accepted.listed, builder, inside,
    verifier, inside', key, pub, other, pub', builds, verifies, differ,
    (apart key other builds.registered verifies.registered).2⟩

theorem Accepted.twoKeys_of_not_oneKey (accepted : Accepted crypto attestation registry witnessSeq)
    (several : ¬OneKey attestation registry) : TwoKeys crypto attestation registry witnessSeq := by
  have acts (role : Str) (known : role ∈ approvalRoles) : ∃ signed ∈ accepted.approvals, ∃ key pub,
      Approves crypto registry witnessSeq accepted.want role signed key pub := by
    obtain ⟨signed, inside, read⟩ := accepted.present role known
    obtain ⟨name, key, pub, approves⟩ := accepted.approves signed inside
    obtain rfl := Json.str.inj (Except.ok.inj (read.symm.trans approves.acts))
    exact ⟨signed, inside, key, pub, approves⟩
  obtain ⟨builder, inside, key, pub, builds⟩ := acts "builder" (by decide)
  obtain ⟨verifier, inside', other, pub', verifies⟩ := acts "verifier" (by decide)
  by_cases same : pub = pub'
  · subst same
    have another : ∃ signed ∈ accepted.approvals, ∃ role third bytes,
        Approves crypto registry witnessSeq accepted.want role signed third bytes ∧ bytes ≠ pub := by
      by_contra none
      refine several ⟨pub, accepted.approvals, accepted.listed, fun signed member => ?_⟩
      obtain ⟨role, third, bytes, approves⟩ := accepted.approves signed member
      have equal : bytes = pub := by
        by_contra differ
        exact none ⟨signed, member, role, third, bytes, approves, differ⟩
      exact ⟨third, approves.registered, equal ▸ approves.decoded⟩
    obtain ⟨signed, member, role, third, bytes, approves, differ⟩ := another
    have known : role = "builder" ∨ role = "verifier" := by
      simpa [approvalRoles] using approves.known
    rcases known with rfl | rfl
    · exact accepted.twoKeys member inside' approves verifies differ
    · exact accepted.twoKeys inside member builds approves differ.symm
  · exact accepted.twoKeys inside inside' builds verifies same

/-- The two signatures of a release that verifies are made with two keys, unless all its keys
are spellings of one. -/
theorem two_keys_unless_one_is_spelled_twice
    (verified : verifyAttestation crypto attestation registry witnessSeq context = .ok control) :
    TwoKeys crypto attestation registry witnessSeq ↔ ¬OneKey attestation registry := by
  obtain ⟨accepted⟩ := accepted_of_verifies verified
  constructor
  · intro two one
    exact not_twoKeys_of_oneKey one two
  · exact accepted.twoKeys_of_not_oneKey

/-- The digest of the bytes `jj`, with which the readers of the sample answer. -/
def sampleDigest : Str := "d66b000000000000000000000000000000000000000000000000000000000000"

def sampleStatementHash : Str := "e24850214cce598d2b416fd277bb70b78fa9962f0ffef7ff0e693537910a9a6d"

def sampleEvidenceHash : Str := "1d693175f64143f6af9521170af357a47ca6e335ac2cdd5672eaef521776c9be"

/-- The one key of the sample, in small letters and in capitals. -/
def sampleHex : Str := "abababababababababababababababababababababababababababababababab"

def sampleCapitals : Str := "ABABABABABABABABABABABABABABABABABABABABABABABABABABABABABABABAB"

def sampleManifestHash : Str := "6195fd5328307137e7d634d513b4d588f46c2b7f1e8f302b2d1a0b7041c1c8b9"

/-- The toolset that the release carries: no tool, signed by a key of its own. -/
def sampleManifest : Json :=
  .obj [("authorization_form", .str "operator_signature_interim"), ("schema", .str "jjdai.toolset-manifest/v2"),
    ("signature", .str (sampleHex ++ "b82e9529e527dd213b2fdcf70ca6e050b3bf139f98fdab57ea8725df2c620bc4")),
    ("signer", .obj [("domain", .str domainToolsetManifest), ("key_domain", .str keyDomainToolsetAuthorization),
      ("key_id", .str "kt")]), ("sunset_condition", .str "profile_gauntlet_available"), ("tools", .obj [])]

def sampleManifestRaw : Bytes := (encodeUtf8 sampleManifest.dumps).getD []

def sampleEnvironment : Json :=
  .obj [("python", .str "3"), ("locale", .str "C"), ("timezone", .str "UTC"), ("umask", .str "022"),
    ("network", .str "off"), ("network_enforcement", .str "asserted"), ("source_date_epoch", .str "1")]

def sampleRun : Json :=
  .obj [("schema", .str acceptanceSchema), ("suite", .str acceptanceSuite), ("passed", .int 1), ("total", .int 1),
    ("tree_digest", .str sampleDigest), ("tree_digest_algo", .str treeDigestAlgo)]

def sampleOutputs : Dict Str Json :=
  [("tree_digest", .str sampleDigest), ("tree_digest_algo", .str treeDigestAlgo),
    ("artefacts", .arr [.obj [("name", .str "jj"), ("sha256", .str sampleDigest), ("length", .int 2)]]),
    ("bundle_hash", .str sampleDigest), ("recipe_hash", .str sampleDigest)]

def sampleControl : Json :=
  .obj [("signature_threshold", .int 2), ("distinct_keys", .int 2), ("distinct_devices", .int 2),
    ("distinct_principals", .int 1), ("device_binding", .str "asserted")]

def sampleStatement : Json :=
  .obj (([("schema", .str schemaReleaseStatement), ("version", .str "1"),
    ("toolset_manifest_hash", .str sampleManifestHash), ("sbom_hash", .str sampleDigest),
    ("acceptance_hash", .str "a985a618b0938170dbbe62d94a07c2c4d502483b10627adb089b603fc02414f2"),
    ("build_environment", sampleEnvironment), ("reproducibility_scope", .str "same-host-class"),
    ("control", sampleControl)] : Dict Str Json) ++ sampleOutputs)

/-- Whose act a document is: run, key and device, and the signature under the key. -/
def sampleActor (keyId run device tag : Str) : Dict Str Json :=
  [("statement_hash", .str sampleStatementHash), ("key_id", .str keyId), ("principal_id", .str "p"),
    ("build_run_id", .str run), ("host_class", .str "h"), ("device_id", .str device),
    ("signature", .str (sampleHex ++ tag))]

def sampleEvidence : Json :=
  .obj (([("schema", .str schemaRebuildEvidence), ("build_environment", sampleEnvironment)] : Dict Str Json) ++
    sampleActor "kv" "r2" "d2" "bfc2a0310770ee87c0cbc18264c9d4ac6256fb287111947dd310140a24816dcb" ++ sampleOutputs)

def sampleEvidenceRaw : Bytes := (encodeUtf8 sampleEvidence.dumps).getD []

def sampleBuilds : Json :=
  .obj (([("schema", .str schemaReleaseApproval), ("role", .str "builder")] : Dict Str Json) ++
    sampleActor "kb" "r1" "d1" "558942783dc82ead2a486825b860c5ed10b2304e5431b71f5b2428276f74c9d1")

def sampleVerifies : Json :=
  .obj (([("schema", .str schemaReleaseApproval), ("role", .str "verifier"),
    ("verification_evidence_hash", .str sampleEvidenceHash)] : Dict Str Json) ++
    sampleActor "kv" "r2" "d2" "3064da09010a7d68ff1775f0dbb5b5b168360c58ccfcbf904705c59ed5cfa34c")

def sampleApprovals : List Json := [sampleBuilds, sampleVerifies]

def sampleAttestation : Json :=
  .obj [("schema", .str schemaReleaseAttestation), ("statement", sampleStatement),
    ("statement_hash", .str sampleStatementHash), ("approvals", .arr sampleApprovals)]

def sampleEntry (id device publicHex role : Str) (activated : Int) : Json :=
  .obj [("key_id", .str id), ("public", .str publicHex), ("device_id", .str device), ("principal_id", .str "p"),
    ("roles", .arr [.str role]), ("activated_at_witness_seq", .int activated), ("hardware_binding", .str "tpm")]

def sampleRegistryDoc : Json :=
  .obj [("schema", .str registrySchema), ("lifecycle_binding", .str "witnessed"),
    ("keys", .arr [sampleEntry "kb" "d1" sampleHex "builder" 0, sampleEntry "kv" "d2" sampleCapitals "verifier" 1])]

def sampleBuilder : RegisteredKey := ⟨.str "kb", .str sampleHex, .str "d1", .str "p", [.str "builder"], 0, .null, .null⟩

def sampleVerifier : RegisteredKey :=
  ⟨.str "kv", .str sampleCapitals, .str "d2", .str "p", [.str "verifier"], 1, .null, .null⟩

def sampleRegistry : Registry := [(.str "kb", sampleBuilder), (.str "kv", sampleVerifier)]

def sampleContext : ReleaseContext where
  expectedTag := .str "1"
  treeDigest := .str sampleDigest
  acceptance := sampleRun
  buildEnvironment := sampleEnvironment
  artefactReader := some (fun _ => return ascii "jj")
  bundleReader := some (return ascii "jj")
  recipeReader := some (return ascii "jj")
  sbomReader := some (return ascii "jj")
  toolsetManifestReader := some (return sampleManifestRaw)
  evidenceReader := some (fun _ => return sampleEvidenceRaw)
  debtReader := some (return .obj [("release_debt",
    .obj [("schema", .str "jjdai.debt-ledger/v1"), ("events", .arr [])])])
  revocationReader := some (fun _ => raise .keyError)

def sampleSeen : Seen where
  keys := [.str "kb", .str "kv"]
  devices := [.str "d1", .str "d2"]
  principals := [.str "p"]
  roles := [.str "builder", .str "verifier"]

def sampleCounted : Control := ⟨2, 2, 2, 1, .str "asserted"⟩

def sampleArtefact : Json := .obj [("name", .str "jj"), ("sha256", .str sampleDigest), ("length", .int 2)]

set_option maxRecDepth 4000 in
private theorem sample_parts :
    (loadRegistry sampleRegistryDoc = .ok sampleRegistry ∧
      attestedStatement Crypto.sample sampleAttestation = .ok (sampleStatement, sampleStatementHash) ∧
      approvalsOf sampleAttestation = .ok sampleApprovals ∧
      countApprovals Crypto.sample sampleRegistry 2 sampleStatementHash {} sampleApprovals = .ok sampleSeen) ∧
    (checkRolesPresent sampleSeen.roles approvalRoles = .ok () ∧ checkControl sampleControl sampleCounted = .ok ()) ∧
    (checkNames sampleStatement sampleContext = .ok () ∧ checkAcceptance Crypto.sample sampleStatement sampleRun = .ok () ∧
      checkEnvironment sampleStatement sampleEnvironment = .ok ()) ∧
    (checkArtefactBytes Crypto.sample sampleContext sampleArtefact = .ok () ∧
      H_hex Crypto.sample (ascii "jj") = sampleDigest ∧ H_hex Crypto.sample sampleManifestRaw = sampleManifestHash) ∧
    (sampleEvidence.valid ∧ encodable sampleEvidence.dumps ∧ sampleEvidenceRaw ≠ [] ∧
      H_hex Crypto.sample sampleEvidenceRaw = sampleEvidenceHash) ∧
    (dotGet sampleBuilds "verification_evidence_hash" = .ok .null ∧
      dotGet sampleVerifies "verification_evidence_hash" = .ok (.str sampleEvidenceHash) ∧
      subscript sampleVerifies "key_id" = .ok (.str "kv")) ∧
    (registeredKey sampleRegistry sampleBuilds = .ok sampleBuilder ∧
      registeredKey sampleRegistry sampleVerifies = .ok sampleVerifier ∧
      bytesFromHex sampleBuilder.publicHex = .ok (List.replicate 32 0xAB) ∧
      bytesFromHex sampleVerifier.publicHex = .ok (List.replicate 32 0xAB)) ∧
    checkOneEvidence Crypto.sample sampleStatement sampleEvidence.sortKeys sampleVerifies sampleApprovals sampleRegistry =
      .ok () ∧
    checkScope sampleStatement sampleApprovals = .ok () := by
  decide +kernel

theorem loadRegistry_sound_sample :
    (∀ entry ∈ sampleRegistry, entry.1 = entry.2.keyId ∧ ∀ role ∈ entry.2.roles, role ∈ approvalRoles.map Json.str) ∧
      sampleRegistry.Pairwise (fun first second => ¬Json.pyEq first.2.publicHex second.2.publicHex) :=
  loadRegistry_sound sample_parts.1.1

private theorem sample_fields :
    (subscript sampleStatement "artefacts" = .ok (.arr [sampleArtefact]) ∧
      subscript sampleStatement "control" = .ok sampleControl ∧
      subscript sampleControl "device_binding" = .ok (.str "asserted")) ∧
    subscript sampleStatement "bundle_hash" = .ok (.str sampleDigest) ∧
    subscript sampleStatement "recipe_hash" = .ok (.str sampleDigest) ∧
    subscript sampleStatement "sbom_hash" = .ok (.str sampleDigest) ∧
    subscript sampleStatement "toolset_manifest_hash" = .ok (.str sampleManifestHash) := by
  decide +kernel

theorem readEvidence_dumps {crypto : Crypto} {context : ReleaseContext} {evidence : Json} {raw : Bytes} {digest : Str}
    (reader : context.evidenceReader = some (fun _ => .ok raw)) (valid : evidence.valid) (plain : encodable evidence.dumps)
    (written : raw = (encodeUtf8 evidence.dumps).getD []) (present : raw ≠ []) (hashed : H_hex crypto raw = digest)
    (keyId : Json) : readEvidence crypto context keyId (.str digest) = .ok evidence.sortKeys := by
  rw [← encodeUtf8_isSome] at plain
  obtain ⟨bytes, made⟩ := Option.isSome_iff_exists.mp plain
  obtain rfl : raw = bytes := by rw [written, made, Option.getD_some]
  have read : (decodeUtf8 raw).bind Json.loads = some evidence.sortKeys := by
    rw [decodeUtf8_encodeUtf8 made, Option.bind_some, loads_dumps valid]
  rw [readEvidence, reader]
  simp only [hashed, read, bind, pure, Except.pure]
  rw [if_neg present]
  simp only [ne_eq, not_true_eq_false, if_false]

private theorem sample_evidence (keyId : Json) :
    readEvidence Crypto.sample sampleContext keyId (.str sampleEvidenceHash) = .ok sampleEvidence.sortKeys := by
  obtain ⟨_, _, _, _, ⟨valid, plain, present, hashed⟩, _⟩ := sample_parts
  exact readEvidence_dumps rfl valid plain rfl present hashed keyId

private theorem sample_rebuilt : checkRebuildEvidence Crypto.sample sampleStatement sampleContext sampleApprovals
    sampleRegistry sampleApprovals = .ok () := by
  obtain ⟨_, _, _, _, _, ⟨silent, named, keyId⟩, _, evidence, _⟩ := sample_parts
  have present : truthy (.str sampleEvidenceHash) = true := by decide +kernel
  have listed : sampleApprovals = [sampleBuilds, sampleVerifies] := rfl
  generalize sampleApprovals = all at evidence listed ⊢
  nth_rewrite 2 [listed]
  rw [checkRebuildEvidence_silent silent rfl, checkRebuildEvidence_named named present keyId (sample_evidence _) evidence]
  rfl

theorem sample_verifies :
    verifyAttestation Crypto.sample sampleAttestation sampleRegistry 2 sampleContext = .ok sampleCounted := by
  obtain ⟨⟨_, attested, listed, counted⟩, ⟨roles, control⟩, ⟨names, run, environment⟩, ⟨artefact, digest, shipped⟩, _, _, _, _,
    scope⟩ := sample_parts
  obtain ⟨⟨artefacts, controlRead, binding⟩, bundle, recipe, sbom, manifest⟩ := sample_fields
  have bytes (what : Str) : checkBytes Crypto.sample (some (.ok (ascii "jj"))) (.str sampleDigest) what = .ok () :=
    checkBytes_ok digest
  refine verifyAttestation_ok.mpr ⟨_, _, _, _, _, _, attested, listed, counted, roles, controlRead, binding, rfl, control, ?_⟩
  have each : [sampleArtefact].forM (checkArtefactBytes Crypto.sample sampleContext) = .ok () := by
    rw [List.forM_eq_forM, List.forM_cons, artefact]
    rfl
  exact checkExternal_ok.mpr ⟨names, run, environment, ⟨_, _, artefacts, rfl, each⟩, ⟨_, bundle, bytes _⟩,
    ⟨_, recipe, bytes _⟩, ⟨_, sbom, bytes _⟩, ⟨_, manifest, checkBytes_ok shipped⟩, sample_rebuilt, scope⟩

private theorem sample_oneKey : OneKey sampleAttestation sampleRegistry := by
  obtain ⟨⟨_, _, listed, _⟩, _, _, _, _, _, ⟨builder, verifier, first, second⟩, _⟩ := sample_parts
  refine ⟨List.replicate 32 0xAB, sampleApprovals, listed, ?_⟩
  intro signed member
  rcases List.mem_cons.mp member with rfl | member
  · exact ⟨_, builder, first⟩
  · rw [List.mem_singleton.mp member]
    exact ⟨_, verifier, second⟩

/-- A registry that loads, and a release that verifies under it, with one key in both roles. -/
theorem one_key_in_two_spellings : loadRegistry sampleRegistryDoc = .ok sampleRegistry ∧
    verifyAttestation Crypto.sample sampleAttestation sampleRegistry 2 sampleContext = .ok sampleCounted ∧
    ¬TwoKeys Crypto.sample sampleAttestation sampleRegistry 2 :=
  ⟨sample_parts.1.1, sample_verifies, not_twoKeys_of_oneKey sample_oneKey⟩

theorem two_keys_unless_one_is_spelled_twice_sample :
    TwoKeys Crypto.sample sampleAttestation sampleRegistry 2 ↔ ¬OneKey sampleAttestation sampleRegistry :=
  two_keys_unless_one_is_spelled_twice sample_verifies

end JJDai.Release
