import JJDai.Primitive.CanonicalUnique
import JJDai.Primitive.Inclusion
import JJDai.Entanglement.Issuance
import JJDai.Replication.CatchUp

/-! `core.entanglement`: a bundle that shows one issuance under the issuer's signed root. -/

namespace JJDai.Entanglement

open PyText Canonical Merkle Replication

variable (crypto : Crypto)

/-- The test of `issuance_inclusion` on one record. -/
def isIssuance (saltHash : Str) (rec : Json) : Py Bool := do
  if (← dotGet rec "kind") ≠ .str "SALT_ISSUE" then return false
  let dig ← dotGet rec "semantic_digest"
  let found ← dotGet (orDict dig) "salt_hash"
  return decide (found = .str saltHash)

/-- The first issuance of the salt from record `i` on. -/
def findIssuance (saltHash : Str) : Nat → List Json → Py (Option (Nat × Json))
  | _, [] => return none
  | i, rec :: rest => do
    if ← isIssuance saltHash rec then return some (i, rec)
    findIssuance saltHash (i + 1) rest

/-- The bundle of a record and its audit path. -/
def inclusionBundle (node rec : Json) (index : Json) (size : Json) (proof : List Json) (rootEnv : Json) : Json :=
  .obj [("kind", .str "ISSUANCE_INCLUSION"), ("issuer_node", node), ("record", rec), ("index", index),
    ("tree_size", size), ("proof", .arr proof), ("root_env", rootEnv)]

def issuanceInclusion (issuerExport : Json) (saltHash : Str) (issuerRootEnv : Json) : Py Json := do
  let (ok, why) ← verifySignedRoot crypto issuerRootEnv
  if !ok then raise .entanglementError ("issuer root invalid: " ++ why)
  let rb ← subscript issuerRootEnv "body"
  if (← dotGet rb "root_alg") ≠ .str "rfc6962" then
    raise .entanglementError "issuer root is legacy v1; inclusion proofs require an rfc6962 root"
  let size ← subscript rb "count"
  match asInt? size with
  | none => raise .typeError
  | some count =>
    let recs ← agreedRecords issuerExport count
    match ← findIssuance saltHash 0 recs with
    | none => raise .entanglementError "no SALT_ISSUE record for this salt under the given root"
    | some (idx, rec) =>
      let leaves ← recs.mapM recordLeaf
      let node ← dotGet issuerExport "node_id"
      let proof ← mthInclusion crypto leaves idx
      return inclusionBundle node rec (.int idx) size proof issuerRootEnv

/-- The five parts `verify_issuance_inclusion` reads first. -/
structure BundleParts where
  env : Json
  record : Json
  idx : Json
  n : Json
  proof : Json

def readBundle (bundle : Json) : Py BundleParts := do
  let env ← subscript bundle "root_env"
  let record ← subscript bundle "record"
  let idx ← subscript bundle "index"
  let n ← subscript bundle "tree_size"
  let proof ← subscript bundle "proof"
  return { env, record, idx, n, proof }

/-- `salt_hash is not None and` the record witnesses another. -/
def witnessesOther (rec : Json) : Option Str → Py Bool
  | none => return false
  | some saltHash => do
    let dig ← dotGet rec "semantic_digest"
    let found ← dotGet (orDict dig) "salt_hash"
    return decide (found ≠ .str saltHash)

/-- The checks on the record alone; `none` passes. -/
def checkRecord (rec rb pub : Json) (saltHash : Option Str) : Py (Option Str) := do
  if (← dotGet rec "kind") ≠ .str "SALT_ISSUE" then return some "record is not a SALT_ISSUE"
  if ← witnessesOther rec saltHash then return some "record witnesses a different salt"
  match rec with
  | .obj fields =>
    let data ← canonical (.obj (unsignedRecord fields))
    if (← dotGet rec "this_hash") ≠ .str (H_hex crypto data) then return some "tampered record body"
    if ¬Json.pyEq (← dotGet rec "node_id") (← subscript rb "node_id") then
      return some "record signed as a different node"
    let key ← bytesFromHex pub
    let signed ← encode (H_hex crypto data)
    let sig ← bytesFromHex ((Dict.get? fields "sig").getD (.str []))
    if !crypto.verify key signed sig then return some "bad record signature"
    return none
  | _ => raise .attributeError

def BundleParts.verify (parts : BundleParts) (saltHash : Option Str) : Py (Bool × Str) := do
  let (ok, why) ← verifySignedRoot crypto parts.env
  if !ok then return (false, "issuer root invalid: " ++ why)
  let rb ← subscript parts.env "body"
  if (← dotGet rb "root_alg") ≠ .str "rfc6962" ∨ ¬Json.pyEq (← dotGet rb "count") parts.n then
    return (false, "root/tree_size mismatch or legacy root")
  let pub ← subscript parts.env "pub"
  match ← checkRecord crypto parts.record rb pub saltHash with
  | some reason => return (false, reason)
  | none =>
    let leaf ← recordLeaf parts.record
    let root ← subscript rb "root"
    if !(← mthVerifyInclusionOf crypto leaf parts.idx parts.n parts.proof root) then
      return (false, "inclusion proof fails against the signed root")
    return (true, "ok")

def verifyIssuanceInclusion (bundle : Json) (saltHash : Option Str) : Py (Bool × Str) :=
  match readBundle bundle with
  | .error e =>
    if e.kind = .keyError ∨ e.kind = .typeError then return (false, "malformed bundle") else .error e
  | .ok parts => parts.verify crypto saltHash

/-- A chain as an issuer writes it: salts are issued by `SaltBeacon.issue`, whatever it has read of the
chain before, and every other record is of another kind. -/
inductive IssuerChain : WitnessChain → Prop
  | empty (sk : SigningKey) : IssuerChain { sk := sk, records := [] }
  | issue {chain after : WitnessChain} {request : SaltRequest} {index : Nat} {head env : Json}
      (before : IssuerChain chain) (made : issueAfterReads crypto chain request index head = .ok (after, env)) :
      IssuerChain after
  | append {chain : WitnessChain} {call : AppendCall} {written : Appended} (before : IssuerChain chain)
      (other : call.kind ≠ "SALT_ISSUE") (made : chain.append crypto call = .ok written) : IssuerChain written.chain

/-- The record at this place issues the salt. -/
def IssuedAt (chain : WitnessChain) (saltHash : Str) (place : Nat) : Prop :=
  ∃ record digest, chain.records[place]? = some record ∧ subscript record "kind" = .ok (.str "SALT_ISSUE") ∧
    subscript record "semantic_digest" = .ok digest ∧ subscript digest "salt_hash" = .ok (.str saltHash)

variable {crypto} {chain : WitnessChain} {saltHash : Str}

theorem isIssuance_true {rec : Json} : isIssuance saltHash rec = .ok true ↔
    dotGet rec "kind" = .ok (.str "SALT_ISSUE") ∧ ∃ dig, dotGet rec "semantic_digest" = .ok dig ∧
      dotGet (orDict dig) "salt_hash" = .ok (.str saltHash) := by
  constructor
  · intro tested
    rw [isIssuance] at tested
    obtain ⟨kind, kindRead, tested⟩ := Py.bind_ok.mp tested
    by_cases salt : kind = .str "SALT_ISSUE"
    · simp only [salt, ne_eq, not_true_eq_false, if_false] at tested
      obtain ⟨dig, digRead, tested⟩ := Py.bind_ok.mp tested
      obtain ⟨found, foundRead, tested⟩ := Py.bind_ok.mp tested
      rw [of_decide_eq_true (Except.ok.inj tested)] at foundRead
      exact ⟨salt ▸ kindRead, dig, digRead, foundRead⟩
    · simp [salt, pure, Except.pure] at tested
  · intro tested
    obtain ⟨kind, dig, digRead, found⟩ := tested
    simp [isIssuance, kind, digRead, found, bind, Except.bind, pure, Except.pure]

theorem append_of_issue {request : SaltRequest} {index : Nat} {head env : Json} {after : WitnessChain}
    (made : issueAfterReads crypto chain request index head = .ok (after, env)) :
    ∃ link written, chain.append crypto {
        kind := "SALT_ISSUE"
        semanticDigest := .obj (saltDigest crypto request.recipientNode request.salt index head link) } = .ok written ∧
      after = written.chain := by
  simp only [issueAfterReads, bind, Py.bind_ok] at made
  obtain ⟨link, _, _, _, written, appended, made⟩ := made
  exact ⟨link, written, appended, (Prod.mk.inj (Except.ok.inj made)).1.symm⟩

theorem IssuerChain.own (issuer : IssuerChain crypto chain) : OwnChain crypto chain := by
  induction issuer with
  | empty sk => exact .empty sk
  | issue before made ih =>
    obtain ⟨link, written, appended, rfl⟩ := append_of_issue made
    exact .append ih appended
  | append before other made ih => exact .append ih made

theorem IssuerChain.searchable (issuer : IssuerChain crypto chain) (saltHash : Str) :
    ∀ rec ∈ chain.records, (isIssuance saltHash rec).isOk := by
  have last {before : WitnessChain} {call : AppendCall} {written : Appended}
      (made : before.append crypto call = .ok written)
      (searched : ∀ rec ∈ before.records, (isIssuance saltHash rec).isOk)
      (fits : call.kind ≠ "SALT_ISSUE" ∨ ∃ fields, call.semanticDigest = .obj fields) :
      ∀ rec ∈ written.chain.records, (isIssuance saltHash rec).isOk := by
    obtain ⟨built, grown, _⟩ := WitnessChain.append_parts made
    have read := recordFields built
    rw [grown]
    intro rec member
    rcases List.mem_append.mp member with old | new
    · exact searched rec old
    · rw [List.mem_singleton.mp new]
      by_cases salt : call.kind = "SALT_ISSUE"
      · obtain ⟨fields, digest⟩ := fits.resolve_left (not_not.mpr salt)
        have search : (dotGet (orDict call.semanticDigest) "salt_hash").isOk := by
          rw [digest, orDict]
          split <;> rfl
        obtain ⟨found, foundRead⟩ := Py.exists_of_isOk search
        simp only [isIssuance, read.kind, salt, read.digest, foundRead, bind, Except.bind, ne_eq, not_true_eq_false,
          if_false]
        rfl
      · have other : Json.str call.kind ≠ .str "SALT_ISSUE" := fun same => salt (Json.str.inj same)
        simp only [isIssuance, read.kind, other, bind, Except.bind, ne_eq, not_false_eq_true, if_true]
        rfl
  induction issuer with
  | empty sk => simp
  | issue before made ih =>
    obtain ⟨link, written, appended, rfl⟩ := append_of_issue made
    exact last appended ih (.inr ⟨_, rfl⟩)
  | append before other made ih => exact last made ih (.inl other)

theorem findIssuance_found {recs : List Json} (searched : ∀ rec ∈ recs, (isIssuance saltHash rec).isOk)
    (present : ∃ rec ∈ recs, isIssuance saltHash rec = .ok true) (i : Nat) :
    ∃ k rec, recs[k]? = some rec ∧ isIssuance saltHash rec = .ok true ∧
      findIssuance saltHash i recs = .ok (some (i + k, rec)) := by
  induction recs generalizing i with
  | nil => simp at present
  | cons rec rest ih =>
    obtain ⟨found, tested⟩ := Py.exists_of_isOk (searched rec List.mem_cons_self)
    cases found with
    | true => exact ⟨0, rec, rfl, tested, by simp [findIssuance, tested, bind, Except.bind, pure, Except.pure]⟩
    | false =>
      obtain ⟨other, member, holds⟩ := present
      have later : other ∈ rest := by
        rcases List.mem_cons.mp member with rfl | tail
        · rw [tested] at holds
          cases holds
        · exact tail
      obtain ⟨k, record, place, issues, search⟩ :=
        ih (fun other inside => searched other (List.mem_cons_of_mem _ inside)) ⟨other, later, holds⟩ (i + 1)
      refine ⟨k + 1, record, by simpa using place, issues, ?_⟩
      simp only [findIssuance, tested, bind, Except.bind, Bool.false_eq_true, if_false, search]
      rw [show i + 1 + k = i + (k + 1) by omega]

variable (crypto) in
/-- The parts of a bundle that passes for a salt. -/
structure VerifiedIssuance (parts : BundleParts) (saltHash : Str) where
  root : SignedRoot crypto parts.env
  fields : Dict Str Json
  data : Bytes
  leaf : Bytes
  sig : Bytes
  tree : Json
  shape : parts.record = .obj fields
  alg : Dict.get? root.body "root_alg" = some (.str "rfc6962")
  counted : Json.pyEq ((Dict.get? root.body "count").getD .null) parts.n
  issuance : isIssuance saltHash parts.record = .ok true
  text : canonical (.obj (unsignedRecord fields)) = .ok data
  named : Dict.get? fields "this_hash" = some (.str (H_hex crypto data))
  node : Json.pyEq ((Dict.get? fields "node_id").getD .null) (.str root.origin)
  encoded : encode (H_hex crypto data) = .ok leaf
  sigRead : bytesFromHex ((Dict.get? fields "sig").getD (.str [])) = .ok sig
  signed : crypto.verify root.pub leaf sig = true
  rooted : Dict.get? root.body "root" = some tree
  included : mthVerifyInclusionOf crypto leaf parts.idx parts.n parts.proof tree = .ok true

theorem pub_of_readEnvelope {env body : Json} {pub sig : Bytes} (read : readEnvelope env = .ok (body, pub, sig)) :
    ∃ text, subscript env "pub" = .ok text ∧ bytesFromHex text = .ok pub := by
  simp only [readEnvelope, bind, Py.bind_ok] at read
  obtain ⟨_, _, text, found, key, decoded, _, _, _, _, made⟩ := read
  obtain ⟨_, rfl, _⟩ : _ ∧ key = pub ∧ _ := by simpa only [Prod.mk.injEq] using Except.ok.inj made
  exact ⟨text, found, decoded⟩

theorem recordLeaf_named {fields : Dict Str Json} {hash : Str} {leaf : Bytes}
    (named : Dict.get? fields "this_hash" = some (.str hash)) (encoded : encode hash = .ok leaf) :
    recordLeaf (.obj fields) = .ok leaf := by
  simp only [recordLeaf, subscript_obj.mpr named, bind, Except.bind]
  exact encoded

variable {parts : BundleParts}

theorem VerifiedIssuance.verifies (issued : VerifiedIssuance crypto parts saltHash) :
    parts.verify crypto (some saltHash) = .ok (true, "ok") := by
  obtain ⟨root, fields, data, leaf, sig, tree, shape, alg, counted, issuance, text, named, node, encoded, sigRead,
    signed, rooted, included⟩ := issued
  obtain ⟨pubText, pubRead, pubBytes⟩ := pub_of_readEnvelope root.read
  have body := subscript_of_readEnvelope root.read
  obtain ⟨kind, dig, digRead, found⟩ := isIssuance_true.mp issuance
  have owner := subscript_obj.mpr root.node
  have rootRead := subscript_obj.mpr rooted
  have leafRead := recordLeaf_named named encoded
  rw [SignedRoot.origin] at node
  rw [shape] at kind digRead
  simp [BundleParts.verify, checkRecord, witnessesOther, root.verifies, body, alg, counted, pubRead, shape, kind, digRead,
    found, text, named, owner, node, pubBytes, encoded, sigRead, signed, leafRead, rootRead, included, bind, Except.bind,
    pure, Except.pure]

theorem checkRecord_none {rec rb pub : Json} (passes : checkRecord crypto rec rb pub (some saltHash) = .ok none) :
    ∃ fields data node key signed sig, rec = .obj fields ∧ isIssuance saltHash rec = .ok true ∧
      canonical (.obj (unsignedRecord fields)) = .ok data ∧
      Dict.get? fields "this_hash" = some (.str (H_hex crypto data)) ∧ subscript rb "node_id" = .ok node ∧
      Json.pyEq ((Dict.get? fields "node_id").getD .null) node ∧ bytesFromHex pub = .ok key ∧
      encode (H_hex crypto data) = .ok signed ∧
      bytesFromHex ((Dict.get? fields "sig").getD (.str [])) = .ok sig ∧ crypto.verify key signed sig = true := by
  unfold checkRecord at passes
  obtain ⟨kind, kindRead, passes⟩ := Py.bind_ok.mp passes
  by_cases salt : kind = .str "SALT_ISSUE"
  · simp only [salt, ne_eq, not_true_eq_false, if_false] at passes
    obtain ⟨other, witnessed, passes⟩ := Py.bind_ok.mp passes
    cases other with
    | true => cases passes
    | false =>
      obtain ⟨dig, digRead, witnessed⟩ := Py.bind_ok.mp witnessed
      obtain ⟨found, foundRead, witnessed⟩ := Py.bind_ok.mp witnessed
      have same := of_decide_eq_false (Except.ok.inj witnessed)
      rw [not_not.mp same] at foundRead
      have issuance := isIssuance_true.mpr ⟨salt ▸ kindRead, dig, digRead, foundRead⟩
      obtain ⟨fields, rfl⟩ := obj_of_dotGet kindRead
      simp only [Bool.false_eq_true, if_false] at passes
      obtain ⟨data, text, passes⟩ := Py.bind_ok.mp passes
      obtain ⟨hash, hashRead, passes⟩ := Py.bind_ok.mp passes
      cases hashRead
      by_cases named : (Dict.get? fields "this_hash").getD .null = .str (H_hex crypto data)
      · simp only [named, not_true_eq_false, if_false] at passes
        obtain ⟨own, ownRead, passes⟩ := Py.bind_ok.mp passes
        cases ownRead
        obtain ⟨node, nodeRead, passes⟩ := Py.bind_ok.mp passes
        by_cases owner : Json.pyEq ((Dict.get? fields "node_id").getD .null) node
        · simp only [owner, not_true_eq_false, if_false] at passes
          obtain ⟨key, keyRead, passes⟩ := Py.bind_ok.mp passes
          obtain ⟨signed, encoded, passes⟩ := Py.bind_ok.mp passes
          obtain ⟨sig, sigRead, passes⟩ := Py.bind_ok.mp passes
          by_cases verified : crypto.verify key signed sig = true
          · exact ⟨fields, data, node, key, signed, sig, rfl, issuance, text, some_of_getD named (by simp), nodeRead,
              owner, keyRead, encoded, sigRead, verified⟩
          · simp [verified, pure, Except.pure] at passes
        · simp [owner, pure, Except.pure] at passes
      · simp [named, pure, Except.pure] at passes
  · simp [salt, pure, Except.pure] at passes

theorem verified_of_verify {reason : Str} (accepted : parts.verify crypto (some saltHash) = .ok (true, reason)) :
    Nonempty (VerifiedIssuance crypto parts saltHash) := by
  rw [BundleParts.verify] at accepted
  obtain ⟨⟨ok, why⟩, rootVerified, accepted⟩ := Py.bind_ok.mp accepted
  cases ok with
  | false => cases accepted
  | true =>
    obtain ⟨root⟩ := signedRoot_of_verifies rootVerified
    obtain ⟨pubText, pubRead, pubBytes⟩ := pub_of_readEnvelope root.read
    have body := subscript_of_readEnvelope root.read
    simp only [body, pubRead, Bool.not_true, Bool.false_eq_true, if_false, dotGet_obj, bind, Except.bind] at accepted
    split at accepted
    · cases accepted
    rename_i passes
    simp only [not_or, not_not] at passes
    obtain ⟨alg, counted⟩ := passes
    obtain ⟨answer, checked, accepted⟩ := Py.bind_ok.mp accepted
    cases answer with
    | some other => cases accepted
    | none =>
      obtain ⟨fields, data, node, key, signed, sig, shape, issuance, text, named, nodeRead, owner, keyRead, encoded,
        sigRead, verified⟩ := checkRecord_none checked
      have found := subscript_obj.mp nodeRead
      rw [root.node] at found
      obtain rfl := Option.some.inj found
      rw [pubBytes] at keyRead
      obtain rfl := Except.ok.inj keyRead
      have leafRead := recordLeaf_named named encoded
      rw [← shape] at leafRead
      simp only [leafRead] at accepted
      obtain ⟨tree, rooted, accepted⟩ := Py.bind_ok.mp accepted
      obtain ⟨included, shown, accepted⟩ := Py.bind_ok.mp accepted
      cases included with
      | false => cases accepted
      | true =>
        exact ⟨{
          root, fields, data, sig, tree, shape, counted, issuance, text, named, encoded, sigRead
          leaf := signed
          alg := some_of_getD alg (by simp)
          node := owner
          signed := verified
          rooted := subscript_obj.mp rooted
          included := shown }⟩

theorem recordLeaf_at {count : Nat} {leaves : List Bytes} (hashed : chainLeaves (upTo chain count) = .ok leaves)
    {k : Nat} {rec : Json} (place : chain.records[k]? = some rec) (inside : k < count) :
    ∃ leaf, leaves[k]? = some leaf ∧ recordLeaf rec = .ok leaf := by
  have each := Py.mapM_ok.mp hashed
  have here : (upTo chain count).records[k]? = some rec := by
    rw [upTo, List.getElem?_take, if_pos inside]
    exact place
  obtain ⟨below, found⟩ := List.getElem?_eq_some_iff.mp here
  have same := List.forall₂_iff_get.mp each
  have read := same.2 k below (by rw [← same.1]; exact below)
  refine ⟨_, List.getElem?_eq_getElem (by rw [← same.1]; exact below), ?_⟩
  rw [← found]
  exact read

/-- A record and a root of one's own pass, with an index and a path that the tree accepts. -/
theorem own_parts_verify (lawful : crypto.Lawful) (own : OwnChain crypto chain) {count : Nat} {ts : PyFloat}
    {rootEnv : Json} {leaves : List Bytes} (made : makeSignedRoot crypto (upTo chain count) chain.sk ts = .ok rootEnv)
    (hashed : chainLeaves (upTo chain count) = .ok leaves) {k : Nat} {rec : Json}
    (place : chain.records[k]? = some rec) (inside : k < count) (issuance : isIssuance saltHash rec = .ok true)
    {idx proof : Json} (shown : ∀ leaf, leaves[k]? = some leaf →
      mthVerifyInclusionOf crypto leaf idx (.int leaves.length) proof (hexJson (treeHead crypto leaves)) = .ok true) :
    BundleParts.verify crypto { env := rootEnv, record := rec, idx, n := .int leaves.length, proof } (some saltHash) =
      .ok (true, "ok") := by
  obtain ⟨_, _, _, _, verifies, _⟩ := signedRoot_of_made lawful made
  obtain ⟨root⟩ := signedRoot_of_verifies verifies
  obtain ⟨leaves', head, hashed', sealed⟩ := makeSignedRoot_ok made
  obtain rfl := Except.ok.inj (hashed.symm.trans hashed')
  obtain ⟨_, _, read⟩ := readEnvelope_seal sealed
  obtain ⟨body, pub, _⟩ : _ ∧ root.pub = chain.sk.publicKey crypto ∧ _ := by
    simpa only [Prod.mk.injEq] using Except.ok.inj (root.read.symm.trans read)
  have fields := Json.obj.inj body
  have carried := own.carried rec (List.mem_of_getElem? place)
  obtain ⟨recFields, hash, before, rfl, signed⟩ := WitnessChain.signed_at (own.verifies lawful) place
  obtain ⟨data, text, rfl⟩ := signed.hashed
  obtain ⟨leaf, sig, encoded, sigRead, verified⟩ := signed.signed
  obtain ⟨own, there, leafRead⟩ := recordLeaf_at hashed place inside
  rw [recordLeaf_named signed.named encoded] at leafRead
  obtain rfl := Except.ok.inj leafRead
  have node : Json.pyEq ((Dict.get? recFields "node_id").getD .null) (.str root.origin) := by
    have named := carried.node
    rw [dotGet_obj] at named
    rw [Except.ok.inj named, SignedRoot.origin, pub]
    rfl
  have issued : VerifiedIssuance crypto
      { env := rootEnv, record := .obj recFields, idx, n := .int leaves.length, proof } saltHash := {
    root, leaf, data, sig, text, issuance, encoded, sigRead, node
    fields := recFields
    tree := hexJson (treeHead crypto leaves)
    shape := rfl
    alg := by rw [fields]; rfl
    counted := by rw [fields]; rfl
    named := signed.named
    signed := by rw [pub]; exact verified
    rooted := by rw [fields]; rfl
    included := shown leaf there }
  exact issued.verifies

theorem issuanceInclusion_ok (lawful : crypto.Lawful) (issuer : IssuerChain crypto chain) {place count : Nat}
    (issued : IssuedAt chain saltHash place) (inside : place < count) {ts : PyFloat} {rootEnv exported : Json}
    (made : makeSignedRoot crypto (upTo chain count) chain.sk ts = .ok rootEnv)
    (taken : chainExport crypto chain = .ok exported) :
    ∃ (k : Nat) (rec : Json) (leaves : List Bytes) (proof : List Json), k < count ∧ chain.records[k]? = some rec ∧
      isIssuance saltHash rec = .ok true ∧ chainLeaves (upTo chain count) = .ok leaves ∧
      mthInclusion crypto leaves k = .ok proof ∧
      issuanceInclusion crypto exported saltHash rootEnv = .ok
        (inclusionBundle (.str (chain.nodeId crypto)) rec (.int k) (.int leaves.length) proof rootEnv) := by
  obtain ⟨head, leaves, headRead, hashed, verifies, bodyRead⟩ := signedRoot_of_made lawful made
  obtain ⟨named, records⟩ := chainExport_ok taken
  have size := length_chainLeaves hashed
  rw [size] at bodyRead
  have agreed : agreedRecords exported leaves.length = .ok (upTo chain count).records := by
    have front : chain.records.take leaves.length = chain.records.take count := by
      rw [← size, upTo, List.length_take, List.take_eq_take_iff]
      simp
    have nonneg : ¬(leaves.length : Int) < 0 := by omega
    simp only [agreedRecords, records, pyTake, pyList, nonneg, if_false, Int.toNat_natCast, front, upTo, bind,
      Except.bind, pure, Except.pure]
  have searched : ∀ rec ∈ (upTo chain count).records, (isIssuance saltHash rec).isOk :=
    fun rec member => issuer.searchable saltHash rec (List.mem_of_mem_take member)
  obtain ⟨record, digest, here, kind, digestRead, salt⟩ := issued
  have present : ∃ rec ∈ (upTo chain count).records, isIssuance saltHash rec = .ok true := by
    refine ⟨record, ?_, isIssuance_true.mpr ⟨dotGet_of_subscript kind, digest, dotGet_of_subscript digestRead, ?_⟩⟩
    · refine List.mem_iff_getElem?.mpr ⟨place, ?_⟩
      rw [upTo, List.getElem?_take, if_pos inside]
      exact here
    · obtain ⟨fields, rfl⟩ := obj_of_subscript salt
      have full : orDict (.obj fields) = .obj fields := by
        cases fields with
        | nil => cases salt
        | cons => rfl
      rw [full]
      exact dotGet_of_subscript salt
  obtain ⟨k, rec, found, issuance, search⟩ := findIssuance_found searched present 0
  rw [Nat.zero_add] at search
  have below : k < leaves.length := by
    rw [← size]
    exact (List.getElem?_eq_some_iff.mp found).1
  rw [upTo, List.getElem?_take] at found
  split at found
  · rename_i early
    obtain ⟨proof, proved, _⟩ := mthVerifyInclusion_complete crypto below
    have leavesRead : (upTo chain count).records.mapM recordLeaf = .ok leaves := hashed
    refine ⟨k, rec, leaves, proof, early, found, issuance, hashed, proved, ?_⟩
    generalize bodyMade : rootBody ((upTo chain count).nodeId crypto) leaves.length head (hexJson (treeHead crypto leaves)) ts =
      body at bodyRead
    have alg : dotGet body "root_alg" = .ok (.str "rfc6962") := by subst bodyMade; rfl
    have counted : subscript body "count" = .ok (.int leaves.length) := by subst bodyMade; rfl
    simp only [issuanceInclusion, verifies, bodyRead, alg, counted, asInt?, agreed, search, leavesRead, named, proved,
      Bool.not_true, Bool.false_eq_true, if_false, ne_eq, not_true_eq_false, bind, Except.bind, pure, Except.pure]
  · cases found

theorem issuance_accepted (lawful : crypto.Lawful) (issuer : IssuerChain crypto chain) {place count : Nat}
    (issued : IssuedAt chain saltHash place) (inside : place < count) {ts : PyFloat} {rootEnv exported : Json}
    (made : makeSignedRoot crypto (upTo chain count) chain.sk ts = .ok rootEnv)
    (taken : chainExport crypto chain = .ok exported) :
    ∃ bundle, issuanceInclusion crypto exported saltHash rootEnv = .ok bundle ∧
      verifyIssuanceInclusion crypto bundle (some saltHash) = .ok (true, "ok") := by
  obtain ⟨k, rec, leaves, proof, early, found, issuance, hashed, proved, bundled⟩ :=
    issuanceInclusion_ok lawful issuer issued inside made taken
  refine ⟨_, bundled, ?_⟩
  have read : readBundle (inclusionBundle (.str (chain.nodeId crypto)) rec (.int k) (.int leaves.length) proof rootEnv) =
      .ok { env := rootEnv, record := rec, idx := .int k, n := .int leaves.length, proof := .arr proof } := rfl
  simp only [verifyIssuanceInclusion, read]
  apply own_parts_verify lawful issuer.own made hashed found early issuance
  intro leaf there
  obtain ⟨below, rfl⟩ := List.getElem?_eq_some_iff.mp there
  obtain ⟨path, again, accepted⟩ := mthVerifyInclusion_complete crypto below
  obtain rfl := Except.ok.inj (proved.symm.trans again)
  have lower : atLeastNat (.int k) 0 = .ok true := by
    by_cases first : k = 0
    · subst first
      rfl
    · simp [atLeastNat, natLess, Nat.pos_of_ne_zero first, bind, Except.bind, pure, Except.pure]
  have upper : pyLess (.int k) (.int leaves.length) = .ok true := by
    simp [pyLess, asInt?, below, pure, Except.pure]
  simpa only [mthVerifyInclusionOf, lower, upper, asInt?, Bool.not_true, Bool.false_eq_true, if_false, bind,
    Except.bind] using accepted

def part (bundle : Json) (key : Str) : Json := (subscript bundle key).toOption.getD .null

/-- The leaves of the chain at the count that the bundle's root names. -/
def signedLeaves (chain : WitnessChain) (bundle : Json) : List Bytes :=
  (chain.records.take ((asInt? (fieldOf (part bundle "root_env") "count")).getD 0).toNat).map leafOf

def positionOf (bundle : Json) : Nat := ((pyInt (part bundle "index")).toOption.getD 0).toNat

def pathOf (bundle : Json) : List Json := (pyList (part bundle "proof")).toOption.getD []

variable (crypto chain) in
/-- The bundle's root is under the issuer's key, and nobody forges a root of the issuer: what verifies
is the text of a root it made of a prefix of its chain. -/
structure FromIssuer (bundle : Json) : Prop where
  valid : bundle.valid
  key : ∀ body pub sig, readEnvelope (part bundle "root_env") = .ok (body, pub, sig) → pub = chain.sk.publicKey crypto
  unforged : ∀ body pub sig data, readEnvelope (part bundle "root_env") = .ok (body, pub, sig) →
    canonical body = .ok data → crypto.verify pub (rootDomain ++ data) sig = true →
    ∃ count ts original text, makeSignedRoot crypto (upTo chain count) chain.sk ts = .ok original ∧
      subscript original "body" = .ok text ∧ canonical text = .ok data

variable (crypto chain) in
/-- The bundle's record issues the salt, and is the leaf at the bundle's index in the tree that was signed. -/
structure Included (bundle : Json) (saltHash : Str) : Prop where
  issuance : isIssuance saltHash (part bundle "record") = .ok true
  root : fieldOf (part bundle "root_env") "root" = hexJson (treeHead crypto (signedLeaves chain bundle))
  index : Json.pyEq (part bundle "index") (.int (positionOf bundle))
  leaf : (signedLeaves chain bundle)[positionOf bundle]? = some (leafOf (part bundle "record"))
  body : chain.records[positionOf bundle]?.bind bodyText = bodyText (part bundle "record")

variable (crypto chain) in
/-- What is hashed for the tree and the path, and for the two bodies. -/
def hashedLists (bundle : Json) : List (List Bytes) :=
  [inclusionInputs crypto (signedLeaves chain bundle) (leafOf (part bundle "record")) (positionOf bundle) (pathOf bundle),
    (chain.records[positionOf bundle]?.bind bodyText).toList ++ (bodyText (part bundle "record")).toList]

variable (crypto chain) in
/-- Two different byte strings of one of these lists have one hash. -/
def Collision (bundle : Json) : Prop :=
  ∃ inputs ∈ hashedLists crypto chain bundle, ∃ a ∈ inputs, ∃ b ∈ inputs, a ≠ b ∧ H_hex crypto a = H_hex crypto b

theorem readBundle_ok {bundle : Json} (read : readBundle bundle = .ok parts) :
    subscript bundle "root_env" = .ok parts.env ∧ part bundle "root_env" = parts.env ∧
      part bundle "record" = parts.record ∧ part bundle "index" = parts.idx ∧ part bundle "proof" = parts.proof := by
  simp only [readBundle, bind, Py.bind_ok] at read
  obtain ⟨env, envRead, record, recordRead, idx, idxRead, n, nRead, proof, proofRead, made⟩ := read
  obtain rfl := Except.ok.inj made
  simp only [part, envRead, recordRead, idxRead, proofRead]
  exact ⟨trivial, rfl, rfl, rfl, rfl⟩

theorem parts_of_accepted {bundle : Json} {answer : Option Str} {reason : Str}
    (accepted : verifyIssuanceInclusion crypto bundle answer = .ok (true, reason)) :
    ∃ parts, readBundle bundle = .ok parts ∧ parts.verify crypto answer = .ok (true, reason) := by
  unfold verifyIssuanceInclusion at accepted
  cases read : readBundle bundle with
  | error e =>
    simp only [read] at accepted
    split at accepted <;> cases accepted
  | ok parts =>
    simp only [read] at accepted
    exact ⟨parts, rfl, accepted⟩

theorem count_of_serialize {value : Json} {count : Int} {size : Nat} (number : asInt? value = some count)
    (nonneg : 0 ≤ count) (same : serialize value = serialize (.int size)) : value = .int size := by
  have written : serialize (.int size) = .ok (intText size) := rfl
  have shapes := @same_shape value (.int size) _ _ [] [] (same.trans written) written rfl
  cases value with
  | int n =>
    obtain rfl := Option.some.inj number
    obtain ⟨n, rfl⟩ := Int.eq_ofNat_of_zero_le nonneg
    have texts : natText n = natText size := by
      have both : intText (n : Int) = intText (size : Int) := Except.ok.inj same
      simpa [intText, Int.natCast_nonneg, not_lt.mpr] using both
    have values := congrArg digitsValue texts
    rw [digitsValue_natText, digitsValue_natText] at values
    rw [values]
  | bool value => cases value <;> cases shapes
  | _ => cases number

theorem leaves_eq_map {leaves : List Bytes} (hashed : chainLeaves chain = .ok leaves) :
    leaves = chain.records.map leafOf := by
  have each := Py.mapM_ok.mp hashed
  clear hashed
  generalize chain.records = records at each ⊢
  induction each with
  | nil => rfl
  | cons first _ ih =>
    have leaf : recordLeaf _ = .ok _ := first
    rw [List.map_cons, ← ih, leafOf, leaf]
    rfl

/-- The signed root of an accepted bundle is the head of a prefix of the issuer's chain. -/
theorem FromIssuer.root {bundle : Json} (sent : FromIssuer crypto chain bundle) (read : readBundle bundle = .ok parts)
    (root : SignedRoot crypto parts.env) :
    ∃ (count : Nat) (leaves : List Bytes), chainLeaves (upTo chain count) = .ok leaves ∧
      Dict.get? root.body "count" = some (.int leaves.length) ∧
      Dict.get? root.body "root" = some (hexJson (treeHead crypto leaves)) := by
  obtain ⟨envRead, env, _⟩ := readBundle_ok read
  have unforged := sent.unforged
  rw [env] at unforged
  obtain ⟨count, ts, original, text, made, bodyRead, written⟩ := unforged _ _ _ _ root.read root.text root.verified
  obtain ⟨leaves, head, hashed, sealed⟩ := makeSignedRoot_ok made
  obtain ⟨_, _, readBack⟩ := readEnvelope_seal sealed
  obtain rfl := Except.ok.inj (bodyRead.symm.trans (subscript_of_readEnvelope readBack))
  obtain ⟨_, first, second⟩ := serialize_of_canonical root.text written
  have valid := valid_of_subscript (valid_of_subscript sent.valid envRead) (subscript_of_readEnvelope root.read)
  have fields := fields_unique (Json.valid_obj.mp valid).1
    (by simp only [Dict.keys, List.map_cons, List.map_nil]; decide) first second
  refine ⟨count, leaves, hashed, ?_, ?_⟩
  · have counted := fields "count"
    cases found : Dict.get? root.body (Str.ofString "count") with
    | none =>
      rw [found] at counted
      cases counted
    | some value =>
      have number := root.counted
      rw [found] at number counted
      rw [count_of_serialize number root.nonneg (Option.some.inj counted)]
  · have rooted := fields "root"
    cases found : Dict.get? root.body (Str.ofString "root") with
    | none =>
      rw [found] at rooted
      cases rooted
    | some value =>
      rw [found] at rooted
      rw [str_of_serialize (Option.some.inj rooted)]
      rfl

theorem collision_of_not_injOn {bundle : Json} {inputs : List Bytes} (member : inputs ∈ hashedLists crypto chain bundle)
    (collides : ¬Set.InjOn crypto.H {b | b ∈ inputs}) : Collision crypto chain bundle := by
  simp only [Set.InjOn, Set.mem_ofPred_eq, not_forall] at collides
  obtain ⟨a, ha, b, hb, same, different⟩ := collides
  exact ⟨inputs, member, a, ha, b, hb, different, congrArg toHex same⟩

/-- What an accepted bundle shows, unless two byte strings hashed for it share a digest. -/
theorem included_of_accepted (lawful : crypto.Lawful) (issuer : IssuerChain crypto chain) {bundle : Json}
    (sent : FromIssuer crypto chain bundle) (whole : ¬Fraction (part bundle "index")) {reason : Str}
    (accepted : verifyIssuanceInclusion crypto bundle (some saltHash) = .ok (true, reason)) :
    Included crypto chain bundle saltHash ∨ Collision crypto chain bundle := by
  obtain ⟨parts, read, verified⟩ := parts_of_accepted accepted
  obtain ⟨issued⟩ := verified_of_verify verified
  obtain ⟨_, env, record, idx, proof⟩ := readBundle_ok read
  obtain ⟨count, leaves, hashed, counted, rooted⟩ := sent.root read issued.root
  have field := fieldOf_of_subscript (subscript_of_readEnvelope issued.root.read)
  have size : Json.pyEq (.int leaves.length) parts.n := by
    have same := issued.counted
    rwa [counted] at same
  have included := issued.included
  rw [Option.some.inj (issued.rooted.symm.trans rooted)] at included
  rw [idx] at whole
  obtain ⟨place, items, position, inside, listed, shown⟩ := mthVerifyInclusionOf_true crypto whole size included
  -- The bundle's own numbers are those of the chain.
  have signed : signedLeaves chain bundle = leaves := by
    have front : chain.records.take leaves.length = (upTo chain count).records := by
      rw [← length_chainLeaves hashed, upTo, List.length_take, List.take_eq_take_iff]
      simp
    rw [signedLeaves, env, field, counted]
    simp only [Option.getD_some, asInt?, Int.toNat_natCast, front]
    exact (leaves_eq_map hashed).symm
  have at_place : positionOf bundle = place := by
    rw [positionOf, idx, pyInt_of_pyEq position]
    rfl
  have path : pathOf bundle = items := by
    rw [pathOf, proof, listed]
    rfl
  have leaf : leafOf (part bundle "record") = issued.leaf := by
    rw [record, issued.shape, leafOf, recordLeaf_named issued.named issued.encoded]
    rfl
  by_cases tree : Set.InjOn crypto.H {b | b ∈ inclusionInputs crypto (signedLeaves chain bundle)
      (leafOf (part bundle "record")) (positionOf bundle) (pathOf bundle)}
  · rw [signed, leaf, at_place, path] at tree
    have found := mthVerifyInclusion_leaf crypto inside tree shown
    have below : place < chain.records.length := by
      have length := length_chainLeaves hashed
      rw [upTo, List.length_take] at length
      omega
    by_cases bodies : Set.InjOn crypto.H {b | b ∈
        (chain.records[positionOf bundle]?.bind bodyText).toList ++ (bodyText (part bundle "record")).toList}
    · left
      have here : chain.records[place]? = some chain.records[place] := List.getElem?_eq_getElem below
      obtain ⟨fields, hash, before, shape, own⟩ := WitnessChain.signed_at (issuer.own.verifies lawful) here
      obtain ⟨data, text, rfl⟩ := own.hashed
      have ownLeaf : leafOf chain.records[place] = leaves[place] := by
        have same := congrArg (fun list => list[place]?) (leaves_eq_map hashed)
        have early : place < count := by
          have length := length_chainLeaves hashed
          rw [upTo, List.length_take] at length
          omega
        simp only [upTo, List.getElem?_map, List.getElem?_take, if_pos early, here, Option.map_some,
          List.getElem?_eq_getElem inside, Option.some.injEq] at same
        exact same.symm
      have equal : bodyText chain.records[place] = bodyText (part bundle "record") := by
        apply bodyText_unique bodies ⟨fields, data, shape, text, own.named⟩
          ⟨issued.fields, issued.data, record.trans issued.shape, issued.text, issued.named⟩
        · intro bytes known
          rw [at_place, here, Option.bind_some, known]
          exact List.mem_append_left _ List.mem_cons_self
        · intro bytes known
          rw [known]
          exact List.mem_append_right _ List.mem_cons_self
        · rw [ownLeaf, leaf, found]
      refine ⟨record ▸ issued.issuance, ?_, ?_, ?_, ?_⟩
      · rw [env, field, rooted, signed]
        rfl
      · rw [idx, at_place]
        exact position
      · rw [signed, at_place, leaf, found]
        exact List.getElem?_eq_getElem inside
      · rw [at_place, here]
        exact equal
    · exact .inr (collision_of_not_injOn (List.mem_cons_of_mem _ List.mem_cons_self) bodies)
  · exact .inr (collision_of_not_injOn List.mem_cons_self tree)

/-- The bundle of the only record of a chain passes at a fraction, and shows no position. -/
theorem fraction_passes (lawful : crypto.Lawful) (issuer : IssuerChain crypto chain) {record : Json}
    (lone : chain.records = [record]) (issuance : isIssuance saltHash record = .ok true) {ts : PyFloat} {env : Json}
    (made : makeSignedRoot crypto (upTo chain 1) chain.sk ts = .ok env) (recordValid : record.valid)
    (envValid : env.valid) {index : Json} (fraction : Fraction index) {bundle : Json}
    (bundled : bundle = inclusionBundle (.str (chain.nodeId crypto)) record index (.int 1) [] env) :
    FromIssuer crypto chain bundle ∧ part bundle "index" = index ∧
      verifyIssuanceInclusion crypto bundle (some saltHash) = .ok (true, "ok") ∧
      ¬Included crypto chain bundle saltHash ∧ ¬Collision crypto chain bundle := by
  obtain ⟨leaves, head, hashed, sealed⟩ := makeSignedRoot_ok made
  obtain ⟨data, text, read⟩ := readEnvelope_seal sealed
  have rootPart : part bundle "root_env" = env := by rw [bundled]; rfl
  have recordPart : part bundle "record" = record := by rw [bundled]; rfl
  have indexPart : part bundle "index" = index := by rw [bundled]; rfl
  have pathPart : pathOf bundle = [] := by rw [bundled]; rfl
  have front : (upTo chain 1).records = [record] := by rw [upTo, lone]; rfl
  have single : leaves = [leafOf record] := by rw [leaves_eq_map hashed, front]; rfl
  have signed : signedLeaves chain bundle = [leafOf record] := by
    have counted := fieldOf_of_subscript (subscript_of_readEnvelope read) "count"
    rw [signedLeaves, rootPart, counted, single, lone]
    rfl
  refine ⟨⟨?_, ?_, ?_⟩, indexPart, ?_, ?_, ?_⟩
  · obtain ⟨x, rfl⟩ := fraction.float
    rw [bundled, inclusionBundle, Json.valid_obj]
    simp only [List.mem_cons, List.not_mem_nil, or_false, forall_eq_or_imp, forall_eq, recordValid, envValid,
      Json.valid_arr]
    refine ⟨?_, rfl, rfl, trivial, rfl, rfl, by simp, trivial⟩
    simp only [Dict.keys, List.map_cons, List.map_nil]
    decide
  · intro body pub sig found
    rw [rootPart, read] at found
    exact ((Prod.mk.inj (Prod.mk.inj (Except.ok.inj found)).2).1).symm
  · intro body pub sig bytes found written _
    rw [rootPart, read] at found
    obtain rfl := (Prod.mk.inj (Except.ok.inj found)).1
    exact ⟨1, ts, env, _, made, subscript_of_readEnvelope read, written⟩
  · have parts : readBundle bundle = .ok { env, record, idx := index, n := .int leaves.length, proof := .arr [] } := by
      rw [bundled, single]
      rfl
    have place : chain.records[0]? = some record := by rw [lone]; rfl
    simp only [verifyIssuanceInclusion, parts]
    apply own_parts_verify lawful issuer.own made hashed place Nat.one_pos issuance
    intro leaf there
    rw [single] at there ⊢
    obtain rfl := Option.some.inj there
    exact mthVerifyInclusionOf_fraction crypto fraction _
  · intro included
    have position := included.index
    rw [indexPart] at position
    exact fraction.not_whole _ position
  · intro collision
    obtain ⟨inputs, member, a, ha, b, hb, different, _⟩ := collision
    apply different
    have all : ∃ only, ∀ x ∈ inputs, x = only := by
      simp only [hashedLists, signed, recordPart, pathPart, List.mem_cons, List.not_mem_nil, or_false] at member
      rcases member with rfl | rfl
      · refine ⟨HashTree.leafInput (leafOf record), ?_⟩
        intro x inside
        simpa [inclusionInputs, HashTree.inputs, leafTrees, HashTree.join, HashTree.ascendInputs] using inside
      · refine ⟨(bodyText record).getD [], ?_⟩
        intro x inside
        have known : bodyText record = some x := by
          rcases List.mem_append.mp inside with chained | own
          · obtain ⟨other, place, found⟩ := Option.bind_eq_some_iff.mp (Option.mem_toList.mp chained)
            rw [lone] at place
            rwa [List.mem_singleton.mp (List.mem_of_getElem? place)] at found
          · exact Option.mem_toList.mp own
        rw [known]
        rfl
    obtain ⟨only, same⟩ := all
    rw [same a ha, same b hb]

def loneCall : AppendCall where
  kind := "SALT_ISSUE"
  semanticDigest := .obj (saltDigest Crypto.sample sampleRequest.recipientNode sampleRequest.salt 0 (.str genesis) none)

def loneRecord : Json :=
  (WitnessChain.buildRecord Crypto.sample { sk := .sample 1, records := [] } loneCall).toOption.getD .null

/-- An issuer that has issued one salt, and nothing else. -/
def loneIssuer : WitnessChain where
  sk := .sample 1
  records := [loneRecord]

def loneRoot : Json := (makeSignedRoot Crypto.sample loneIssuer loneIssuer.sk .zero).toOption.getD .null

theorem lone_facts : (WitnessChain.buildRecord Crypto.sample { sk := .sample 1, records := [] } loneCall).isOk ∧
    WitnessChain.checkAppend loneCall = .ok () ∧
    (sealEnvelope Crypto.sample (.sample 1) saltDomain (.obj (saltBody Crypto.sample
      (loneIssuer.nodeId Crypto.sample) sampleRequest.recipientNode sampleRequest.salt 0 (.str genesis)
      sampleRequest.issuedAt none))).isOk ∧
    (makeSignedRoot Crypto.sample loneIssuer loneIssuer.sk .zero).isOk ∧ loneRecord.valid ∧ loneRoot.valid := by
  decide +kernel

theorem loneIssuer_issued : IssuerChain Crypto.sample loneIssuer ∧
    isIssuance (H_hex Crypto.sample [7]) loneRecord = .ok true := by
  obtain ⟨builds, checked, seals, _⟩ := lone_facts
  obtain ⟨record, built⟩ := Py.exists_of_isOk builds
  obtain ⟨env, sealed⟩ := Py.exists_of_isOk seals
  have lone : loneRecord = record := by rw [loneRecord, built]; rfl
  obtain ⟨hash, named⟩ := WitnessChain.buildRecord_hash built
  have appended : (WitnessChain.mk (.sample 1) []).append Crypto.sample loneCall =
      .ok ⟨loneIssuer, record, .obj [("index", .int 0), ("this_hash", .str hash), ("kind", .str "SALT_ISSUE"),
        ("anchored", .bool false), ("anchor_eta", .str "batch@root")]⟩ := by
    simp only [WitnessChain.append, checked, built, named, bind, Except.bind, loneIssuer, lone]
    rfl
  have issued : issueAfterReads Crypto.sample { sk := .sample 1, records := [] } sampleRequest 0 (.str genesis) =
      .ok (loneIssuer, env) := by
    have unlinked : crossLink Crypto.sample sampleRequest.recipientNode sampleRequest.recipientRoot = .ok none := rfl
    simp only [issueAfterReads, unlinked, bind, Except.bind]
    rw [show (WitnessChain.mk (.sample 1) []).nodeId Crypto.sample = loneIssuer.nodeId Crypto.sample from rfl, sealed]
    unfold loneCall at appended
    rw [appended]
    rfl
  have read := recordFields built
  rw [lone]
  exact ⟨.issue (.empty _) issued, isIssuance_true.mpr ⟨read.kind, _, read.digest, rfl⟩⟩

theorem exists_passing {index : Json} (fraction : Fraction index) :
    ∃ bundle, FromIssuer Crypto.sample loneIssuer bundle ∧ part bundle "index" = index ∧
      verifyIssuanceInclusion Crypto.sample bundle (some (H_hex Crypto.sample [7])) = .ok (true, "ok") ∧
      ¬Included Crypto.sample loneIssuer bundle (H_hex Crypto.sample [7]) ∧
      ¬Collision Crypto.sample loneIssuer bundle := by
  obtain ⟨_, _, _, makes, recordValid, rootValid⟩ := lone_facts
  obtain ⟨issuer, issuance⟩ := loneIssuer_issued
  obtain ⟨env, made⟩ := Py.exists_of_isOk makes
  rw [loneRoot, made] at rootValid
  exact ⟨_, fraction_passes Crypto.sample_lawful issuer rfl issuance made recordValid rootValid fraction rfl⟩

/-- What an issuer makes for a salt of its own is accepted, at every root over the issuance. What is accepted of a
bundle that nobody forged shows an issuance of the salt at the bundle's index in the signed tree, whatever else the
bundle holds, exactly when the index is not strictly between zero and one. -/
theorem issuance_inclusion_iff (index : Json) :
    (∀ (crypto : Crypto) (chain : WitnessChain) (saltHash : Str) (place count : Nat) (ts : PyFloat)
      (rootEnv exported : Json), crypto.Lawful → IssuerChain crypto chain → IssuedAt chain saltHash place →
      place < count → makeSignedRoot crypto (upTo chain count) chain.sk ts = .ok rootEnv →
      chainExport crypto chain = .ok exported →
      ∃ bundle, issuanceInclusion crypto exported saltHash rootEnv = .ok bundle ∧
        verifyIssuanceInclusion crypto bundle (some saltHash) = .ok (true, "ok")) ∧
    ((∀ (crypto : Crypto) (chain : WitnessChain) (saltHash reason : Str) (bundle : Json), crypto.Lawful →
        IssuerChain crypto chain → FromIssuer crypto chain bundle → part bundle "index" = index →
        verifyIssuanceInclusion crypto bundle (some saltHash) = .ok (true, reason) →
        Included crypto chain bundle saltHash ∨ Collision crypto chain bundle) ↔ ¬Fraction index) := by
  constructor
  · intro crypto chain saltHash place count ts rootEnv exported lawful issuer issued inside made taken
    exact issuance_accepted lawful issuer issued inside made taken
  · constructor
    · intro sound fraction
      obtain ⟨bundle, sent, named, accepted, excluded, apart⟩ := exists_passing fraction
      rcases sound Crypto.sample loneIssuer _ _ _ Crypto.sample_lawful loneIssuer_issued.1 sent named accepted with
        included | collision
      · exact excluded included
      · exact apart collision
    · intro whole crypto chain saltHash reason bundle lawful issuer sent named accepted
      rw [← named] at whole
      exact included_of_accepted lawful issuer sent whole accepted

/-- The bundle of a chain of one record is accepted with the index one half. -/
theorem issuance_inclusion_half : ¬ ∀ (crypto : Crypto) (chain : WitnessChain) (saltHash reason : Str) (bundle : Json),
    crypto.Lawful → IssuerChain crypto chain → FromIssuer crypto chain bundle →
    verifyIssuanceInclusion crypto bundle (some saltHash) = .ok (true, reason) →
    Included crypto chain bundle saltHash ∨ Collision crypto chain bundle := by
  intro sound
  have half : Fraction (.float (.finite (.ofDigits false 5 (-1)))) := ⟨by decide, by decide⟩
  obtain ⟨bundle, sent, _, accepted, excluded, apart⟩ := exists_passing half
  rcases sound Crypto.sample loneIssuer _ _ _ Crypto.sample_lawful loneIssuer_issued.1 sent accepted with
    included | collision
  · exact excluded included
  · exact apart collision

end JJDai.Entanglement
