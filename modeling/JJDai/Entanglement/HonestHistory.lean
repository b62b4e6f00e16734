import JJDai.Entanglement.Blame
import JJDai.Replication.HonestOrigin

/-! An origin that embeds salts as they arrive is never judged a proven rewrite. -/

namespace JJDai.Entanglement

open PyText Canonical Replication Daemon

variable (crypto : Crypto)

/-- The origin's chain, the issuer's node, and what they have released so far. -/
structure Exchange where
  origin : WitnessChain
  issuer : Node
  roots : List Json := []
  salts : List Json := []

inductive Move where
  /-- The origin appends a record. -/
  | append (call : AppendCall)
  /-- The origin signs its root. -/
  | sign (ts : PyFloat)
  /-- A root arrives at the issuer. -/
  | receive (attempt : Attempt)
  /-- The issuer is asked for a salt. -/
  | issue (recipientNode : Str) (recipientRoot : Json) (salt : Bytes) (issuedAt : PyFloat)
  /-- The issuer appends another record. -/
  | work (call : AppendCall)
  /-- Whatever else changes the issuer's stores. -/
  | stores (replicaStore : ReplicaStore) (segmentStore : SegmentStore) (peerRegistry : PeerRegistry)
      (requireAdmission : Bool)

namespace Exchange

def step (exchange : Exchange) : Move → Exchange
  | .append call =>
    match exchange.origin.append crypto call with
    | .ok appended => { exchange with origin := appended.chain }
    | .error _ => exchange
  | .sign ts =>
    match makeSignedRoot crypto exchange.origin exchange.origin.sk ts with
    | .ok env => { exchange with roots := exchange.roots ++ [env] }
    | .error _ => exchange
  | .receive attempt => { exchange with issuer := (exchange.issuer.receiveRoot crypto attempt).node }
  | .issue recipientNode recipientRoot salt issuedAt =>
    match issue crypto exchange.issuer.chain recipientNode recipientRoot salt issuedAt with
    | .ok (chain, env) =>
      { exchange with
        issuer := { exchange.issuer with chain }
        salts := exchange.salts ++ [env] }
    | .error _ => exchange
  | .work call =>
    match exchange.issuer.chain.append crypto call with
    | .ok appended => { exchange with issuer := { exchange.issuer with chain := appended.chain } }
    | .error _ => exchange
  | .stores replicaStore segmentStore peerRegistry requireAdmission =>
    { exchange with
      issuer := { exchange.issuer with replicaStore, segmentStore, peerRegistry, requireAdmission } }

/-- Two nodes before their first record; the issuer's stores may hold anything. -/
def fresh (originKey issuerKey : SigningKey) (node : Node) : Exchange where
  origin := ⟨originKey, []⟩
  issuer := { node with chain := ⟨issuerKey, []⟩ }

end Exchange

/-- What verifies under a key repeats a field of an envelope its owner has released. -/
def Repeats (domain pub : Bytes) (key : Str) (released : List Json) (env : Json) : Prop :=
  ∀ body sig data, readEnvelope env = .ok (body, pub, sig) → canonical body = .ok data →
    crypto.verify pub (domain ++ data) sig = true →
    ∃ original ∈ released, fieldOf env key = fieldOf original key

/-- An envelope that can arrive as a root: nobody forges the origin's. -/
def RootArrives (exchange : Exchange) (env : Json) : Prop :=
  Repeats crypto rootDomain (exchange.origin.sk.publicKey crypto) "count" exchange.roots env ∧
    Apart crypto (exchange.origin.sk.publicKey crypto) env

/-- An envelope that can arrive as a salt: nobody forges the issuer's. -/
def SaltArrives (exchange : Exchange) (env : Json) : Prop :=
  Repeats crypto saltDomain (exchange.issuer.chain.sk.publicKey crypto) "issuer_index" exchange.salts env ∧
    Apart crypto (exchange.issuer.chain.sk.publicKey crypto) env

/-- Both nodes are honest: the origin embeds beacons made of salts that arrived, and the
issuer witnesses roots and salts by these two operations only. -/
def Allowed (exchange : Exchange) : Move → Prop
  | .append call => call.entanglement = .null ∨ ∃ envs recipientNode takenAt,
      beaconFrom crypto envs recipientNode takenAt = .ok call.entanglement ∧
      ∀ env ∈ envs, SaltArrives crypto exchange env
  | .receive attempt => RootArrives crypto exchange attempt.env
  | .issue _ recipientRoot _ _ => recipientRoot = .null ∨ RootArrives crypto exchange recipientRoot
  | .work call => call.kind ≠ "PEER_ROOT" ∧ call.kind ≠ "SALT_ISSUE"
  | _ => True

def chainExport (chain : WitnessChain) : Py Json := do
  let head ← chain.headHash
  return .obj [("node_id", .str (chain.nodeId crypto)),
    ("pubkey", .str (toHex (chain.sk.publicKey crypto))), ("head", head), ("records", .arr chain.records)]

/-- The salts of one issuer in a record were issued below an index. -/
def SaltsBelow (issuerId : Json) (bound : Int) (record : Json) : Prop :=
  ∀ salts, beaconSalts record = .ok salts → ∀ s ∈ salts, ∀ issuer,
    subscript s "issuer_node" = .ok issuer → Json.pyEq issuer issuerId →
      ∃ index : Int, subscript s "issuer_index" = .ok (.int index) ∧ index < bound

/-- A record that witnesses a chain at a count. -/
def WitnessesAt (originId record : Json) (count : Int) : Prop :=
  ∃ via digest node value, dotGet record "kind" = .ok (.str (Via.kind via)) ∧
    dotGet record "semantic_digest" = .ok digest ∧ dotGet (orDict digest) (Via.node via) = .ok node ∧
    Json.pyEq node originId ∧ dotGet (orDict digest) (Via.count via) = .ok value ∧
    asInt? value = some count

/-- A node id, as the chains' records carry it. -/
def idOf (sk : SigningKey) : Json := .str (canonicalNodeId crypto (sk.publicKey crypto))

/-- A record of the issuer that witnesses the origin at a count stands after every salt
that the origin's records below that count embed. -/
structure Ordered (originKey issuerKey : SigningKey) (exchange : Exchange) : Prop where
  originSigns : exchange.origin.sk = originKey
  issuerSigns : exchange.issuer.chain.sk = issuerKey
  roots : ∀ env ∈ exchange.roots, fieldOf env "node_id" = idOf crypto originKey ∧
    ∃ count : Nat, fieldOf env "count" = .int count ∧ count ≤ exchange.origin.records.length
  salts : ∀ env ∈ exchange.salts, ∃ index : Int, fieldOf env "issuer_index" = .int index ∧
    index < exchange.issuer.chain.records.length
  entries : ∀ record ∈ exchange.origin.records,
    SaltsBelow (idOf crypto issuerKey) exchange.issuer.chain.records.length record
  checkpoints : ∀ (i : Nat) record count, exchange.issuer.chain.records[i]? = some record →
    WitnessesAt (idOf crypto originKey) record count →
    count ≤ exchange.origin.records.length ∧
      ∀ (k : Nat) (embedding : Json), (k : Int) < count → exchange.origin.records[k]? = some embedding →
        SaltsBelow (idOf crypto issuerKey) i embedding

variable {crypto} {originKey issuerKey : SigningKey} {exchange : Exchange}

theorem SaltsBelow.mono {issuerId record : Json} {bound more : Int}
    (below : SaltsBelow issuerId bound record) (le : bound ≤ more) : SaltsBelow issuerId more record := by
  intro salts read s member issuer node same
  obtain ⟨index, indexRead, less⟩ := below salts read s member issuer node same
  exact ⟨index, indexRead, lt_of_lt_of_le less le⟩

/-- The issuer's chain grows by a record that witnesses no more of the origin than there is. -/
theorem Ordered.issuer_grows (good : Ordered crypto originKey issuerKey exchange) {record : Json}
    {issuer : Node} {salts : List Json}
    (grown : issuer.chain = { exchange.issuer.chain with records := exchange.issuer.chain.records ++ [record] })
    (witnessed : ∀ count, WitnessesAt (idOf crypto originKey) record count →
      count ≤ exchange.origin.records.length)
    (released : ∀ env ∈ salts, env ∈ exchange.salts ∨
      fieldOf env "issuer_index" = .int exchange.issuer.chain.records.length) :
    Ordered crypto originKey issuerKey { exchange with issuer, salts } := by
  have longer : (issuer.chain.records.length : Int) = exchange.issuer.chain.records.length + 1 := by
    rw [grown, List.length_append]
    rfl
  refine ⟨good.originSigns, by rw [grown]; exact good.issuerSigns, good.roots, ?_, ?_, ?_⟩
  · intro env member
    simp only [longer]
    rcases released env member with old | new
    · obtain ⟨index, read, less⟩ := good.salts env old
      exact ⟨index, read, by omega⟩
    · exact ⟨_, new, by omega⟩
  · intro embedding member
    simp only [longer]
    exact (good.entries embedding member).mono (by omega)
  · intro i other count found witnesses
    rw [grown] at found
    by_cases old : i < exchange.issuer.chain.records.length
    · rw [List.getElem?_append_left old] at found
      exact good.checkpoints i other count found witnesses
    · rw [List.getElem?_append_right (not_lt.mp old)] at found
      obtain ⟨last, rfl⟩ := List.getElem?_eq_some_iff.mp found
      rw [List.getElem_singleton] at witnesses
      refine ⟨witnessed count witnesses, ?_⟩
      intro k embedding _ place
      exact (good.entries embedding (List.mem_of_getElem? place)).mono (by omega)

theorem Ordered.origin_grows (good : Ordered crypto originKey issuerKey exchange) {record : Json}
    (issued : SaltsBelow (idOf crypto issuerKey) exchange.issuer.chain.records.length record) :
    Ordered crypto originKey issuerKey { exchange with
      origin := { exchange.origin with records := exchange.origin.records ++ [record] } } := by
  have longer : (exchange.origin.records ++ [record]).length = exchange.origin.records.length + 1 :=
    List.length_append
  refine ⟨good.originSigns, good.issuerSigns, ?_, good.salts, ?_, ?_⟩
  · intro env member
    obtain ⟨named, count, counted, le⟩ := good.roots env member
    exact ⟨named, count, counted, by simp only [longer]; omega⟩
  · intro embedding member
    rcases List.mem_append.mp member with old | new
    · exact good.entries embedding old
    · rw [List.mem_singleton.mp new]
      exact issued
  · intro i other count found witnesses
    obtain ⟨le, below⟩ := good.checkpoints i other count found witnesses
    refine ⟨by simp only [longer]; omega, ?_⟩
    intro k embedding less place
    -- Below the witnessed count the origin's records are the old ones.
    rw [List.getElem?_append_left (by omega)] at place
    exact below k embedding less place

theorem WitnessesAt.kind {originId record : Json} {count : Int} {text : Str}
    (witnesses : WitnessesAt originId record count) (kind : subscript record "kind" = .ok (.str text)) :
    ∃ via : Via, text = via.kind := by
  obtain ⟨via, _, _, _, kindRead, _⟩ := witnesses
  rw [dotGet_of_subscript kind] at kindRead
  exact ⟨via, Json.str.inj (Except.ok.inj kindRead)⟩

theorem WitnessesAt.fields {originId record : Json} {count : Int} {via : Via} {fields : Dict Str Json}
    (witnesses : WitnessesAt originId record count)
    (kind : subscript record "kind" = .ok (.str via.kind))
    (digest : subscript record "semantic_digest" = .ok (.obj fields)) (some_field : fields ≠ []) :
    Json.pyEq ((Dict.get? fields via.node).getD .null) originId ∧
      asInt? ((Dict.get? fields via.count).getD .null) = some count := by
  obtain ⟨other, digest', node, value, kindRead, digestRead, nodeRead, same, valueRead, number⟩ := witnesses
  rw [dotGet_of_subscript kind] at kindRead
  have equal : via = other := by
    have kinds := Json.str.inj (Except.ok.inj kindRead)
    cases via <;> cases other <;> first | rfl | exact absurd kinds (by decide)
  subst equal
  rw [dotGet_of_subscript digest] at digestRead
  obtain rfl := Except.ok.inj digestRead
  have full : orDict (.obj fields) = .obj fields := by
    simp [orDict, truthy, some_field]
  rw [full, dotGet_obj] at nodeRead valueRead
  obtain rfl := Except.ok.inj nodeRead
  obtain rfl := Except.ok.inj valueRead
  exact ⟨same, number⟩

theorem arrives_count (good : Ordered crypto originKey issuerKey exchange) {env : Json}
    (arrives : RootArrives crypto exchange env) (root : SignedRoot crypto env)
    (named : Json.pyEq (.str root.origin) (idOf crypto originKey)) {count : Int}
    (number : asInt? (fieldOf env "count") = some count) : count ≤ exchange.origin.records.length := by
  obtain ⟨repeats, apart⟩ := arrives
  rw [good.originSigns] at repeats apart
  have node : canonicalNodeId crypto root.pub = canonicalNodeId crypto (originKey.publicKey crypto) := by
    simpa [Json.pyEq, Json.comparisonKey, idOf, SignedRoot.origin] using named
  have pub := apart _ _ _ root.read node
  obtain ⟨original, member, same⟩ := repeats _ _ _ (pub ▸ root.read) root.text (pub ▸ root.verified)
  obtain ⟨_, n, counted, le⟩ := good.roots original member
  rw [same, counted] at number
  obtain rfl := Option.some.inj number
  exact_mod_cast le

/-- A chain that has grown by a record of this kind and digest. -/
def Grown (before after : WitnessChain) (kind : Str) (digest : Json) : Prop :=
  ∃ record, after = { before with records := before.records ++ [record] } ∧
    subscript record "kind" = .ok (.str kind) ∧ subscript record "semantic_digest" = .ok digest

theorem grown_of_append {chain : WitnessChain} {call : AppendCall} {appended : Appended}
    (made : chain.append crypto call = .ok appended) :
    Grown chain appended.chain call.kind call.semanticDigest :=
  ⟨appended.record, WitnessChain.append_adds made⟩

def rootDigest (env rooted alg : Json) : Json :=
  .obj [("origin", fieldOf env "node_id"), ("count", fieldOf env "count"), ("root", rooted),
    ("root_alg", alg)]

theorem answerRoot_chain (node : Node) (attempt : Attempt) (status : RootStatus) (reason : Str) :
    (node.answerRoot crypto attempt status reason).1.chain = node.chain ∨
      status = .stored ∧ ∃ rooted alg, Grown node.chain
        (node.answerRoot crypto attempt status reason).1.chain Via.peerRoot.kind
        (rootDigest attempt.env rooted alg) := by
  cases status with
  | stored =>
    unfold Node.answerRoot
    cases acked : makeAck crypto attempt.env node.sk attempt.now with
    | error e => exact .inl rfl
    | ok ack =>
      cases witnessed : node.witnessRoot crypto attempt with
      | error e => exact .inl rfl
      | ok after =>
        simp only [Node.witnessRoot, bind, Py.bind_ok] at witnessed
        obtain ⟨b, read, origin, originRead, count, countRead, rooted, _, alg, _, appended, added,
          made⟩ := witnessed
        obtain ⟨b, rfl⟩ := obj_of_subscript originRead
        split at made
        · cases made
        · obtain rfl := Except.ok.inj made
          refine .inr ⟨rfl, rooted, alg, ?_⟩
          have grown := grown_of_append added
          have field := fieldOf_of_subscript read
          rwa [rootDigest, field, field, subscript_obj.mp originRead, subscript_obj.mp countRead]
  | _ => exact .inl rfl

variable (crypto) in
theorem receiveRoot_chain (node : Node) (attempt : Attempt) :
    (node.receiveRoot crypto attempt).node.chain = node.chain ∨
      Nonempty (SignedRoot crypto attempt.env) ∧ ∃ rooted alg, Grown node.chain
        (node.receiveRoot crypto attempt).node.chain Via.peerRoot.kind
        (rootDigest attempt.env rooted alg) := by
  unfold Node.receiveRoot
  cases node.refuse attempt.env with
  | error e => exact .inl rfl
  | ok refusal =>
    cases refusal with
    | some response => exact .inl rfl
    | none =>
      cases accepted : node.replicaStore.accept crypto attempt.env attempt.now with
      | error e => exact .inl rfl
      | ok outcome =>
        by_cases lost : (outcome.line.isSome && !attempt.journalWritten) = true
        · left
          simp only [if_pos lost]
        · simp only [if_neg lost]
          rcases answerRoot_chain { node with replicaStore := outcome.store } attempt outcome.status
            outcome.reason with same | ⟨stored, grown⟩
          · exact .inl same
          · refine .inr ⟨?_, grown⟩
            cases accept_cases accepted with
            | upgrade root => exact ⟨root⟩
            | fresh root => exact ⟨root⟩
            | _ => cases stored

theorem crossLink_ok {recipientNode : Str} {recipientRoot : Json} {link : CrossLink}
    (linked : crossLink crypto recipientNode recipientRoot = .ok (some link)) :
    recipientRoot ≠ .null ∧ ∃ root : SignedRoot crypto recipientRoot, root.origin = recipientNode ∧
      link.count = fieldOf recipientRoot "count" := by
  unfold crossLink at linked
  split at linked
  · cases linked
  · rename_i given
    simp only [bind, Py.bind_ok] at linked
    obtain ⟨⟨ok, why⟩, verified, linked⟩ := linked
    rw [Py.unless_ok] at linked
    obtain ⟨passed, linked⟩ := linked
    obtain rfl : ok = true := by simpa using passed
    obtain ⟨root⟩ := signedRoot_of_verifies verified
    have body := subscript_of_readEnvelope root.read
    simp only [body, Py.bind_ok, Except.ok.injEq, exists_eq_left', subscript_obj, root.node,
      Option.some.injEq] at linked
    rw [Py.unless_ok] at linked
    obtain ⟨same, linked⟩ := linked
    simp only [Py.bind_ok, subscript_obj] at linked
    obtain ⟨count, counted, rooted, _, head, _, made⟩ := linked
    obtain rfl := Option.some.inj (Except.ok.inj made)
    refine ⟨given, root, Json.str.inj (not_not.mp same), ?_⟩
    rw [root.field, counted]
    rfl

theorem issue_ok {chain after : WitnessChain} {recipientNode : Str} {recipientRoot env : Json}
    {salt : Bytes} {issuedAt : PyFloat}
    (issued : issue crypto chain recipientNode recipientRoot salt issuedAt = .ok (after, env)) :
    ∃ head link, crossLink crypto recipientNode recipientRoot = .ok link ∧
      fieldOf env "issuer_index" = .int chain.records.length ∧
      Grown chain after Via.saltIssue.kind
        (.obj (saltDigest crypto recipientNode salt chain.nextIndex head link)) := by
  simp only [issue, bind, Py.bind_ok] at issued
  obtain ⟨head, _, link, linked, sealed, made, appended, added, same⟩ := issued
  obtain ⟨rfl, rfl⟩ := Prod.mk.inj (Except.ok.inj same)
  obtain ⟨data, _, read⟩ := readEnvelope_seal made
  refine ⟨head, link, linked, ?_, grown_of_append added⟩
  rw [fieldOf_of_subscript (subscript_of_readEnvelope read)]
  rfl

theorem beaconSalt_ok {recipientNode : Option Str} {env entry issuedAt : Json}
    (made : beaconSalt crypto recipientNode env = .ok (entry, issuedAt)) :
    ∃ salt : SignedSalt crypto env,
      subscript entry "issuer_node" = .ok (.str (canonicalNodeId crypto salt.pub)) ∧
      subscript entry "issuer_index" = .ok (fieldOf env "issuer_index") := by
  simp only [beaconSalt, bind, Py.bind_ok] at made
  obtain ⟨⟨ok, why⟩, verified, made⟩ := made
  rw [Py.unless_ok] at made
  obtain ⟨passed, made⟩ := made
  obtain rfl : ok = true := by simpa using passed
  obtain ⟨⟨salt⟩, _⟩ := signedSalt_of_verifies verified
  have body := subscript_of_readEnvelope salt.read
  simp only [body, Py.bind_ok, Except.ok.injEq, exists_eq_left'] at made
  have entered : ∃ value, beaconEntry (.obj salt.body) env = .ok value ∧ value = entry := by
    cases recipientNode with
    | none =>
      simp only [Py.bind_ok] at made
      obtain ⟨value, entered, _, _, same⟩ := made
      exact ⟨value, entered, (Prod.mk.inj (Except.ok.inj same)).1⟩
    | some node =>
      simp only [Py.bind_ok] at made
      obtain ⟨recipient, _, made⟩ := made
      rw [Py.unless_ok] at made
      obtain ⟨_, made⟩ := made
      simp only [Py.bind_ok] at made
      obtain ⟨value, entered, _, _, same⟩ := made
      exact ⟨value, entered, (Prod.mk.inj (Except.ok.inj same)).1⟩
  obtain ⟨_, entered, rfl⟩ := entered
  simp only [beaconEntry, bind, Py.bind_ok, subscript_obj, salt.issuer, Option.some.injEq,
    exists_eq_left'] at entered
  obtain ⟨index, indexed, head, _, saltHash, _, issued, _, linked, _, entered⟩ := entered
  have field : fieldOf env "issuer_index" = index := by
    rw [fieldOf_of_subscript body, indexed]
    rfl
  rw [field]
  refine ⟨salt, ?_⟩
  split at entered
  · simp only [Py.bind_ok] at entered
    obtain ⟨count, _, rooted, _, made⟩ := entered
    obtain rfl := Except.ok.inj made
    exact ⟨rfl, rfl⟩
  · obtain rfl := Except.ok.inj entered
    exact ⟨rfl, rfl⟩

theorem beaconFrom_ok {envs : List Json} {recipientNode : Option Str} {takenAt : PyFloat}
    {beacon : Json} (made : beaconFrom crypto envs recipientNode takenAt = .ok beacon) :
    ∃ fields entries, beacon = .obj fields ∧ Dict.get? fields "salts" = some (.arr entries) ∧
      ∀ s ∈ entries, ∃ env ∈ envs, ∃ issuedAt, beaconSalt crypto recipientNode env = .ok (s, issuedAt) := by
  simp only [beaconFrom, bind, Py.bind_ok] at made
  obtain ⟨salts, collected, made⟩ := made
  cases salts with
  | nil => cases made
  | cons first rest =>
    simp only [Py.bind_ok] at made
    obtain ⟨_, _, made⟩ := made
    obtain rfl := Except.ok.inj made
    refine ⟨_, _, rfl, rfl, ?_⟩
    intro s member
    rw [List.mem_insertionSort] at member
    obtain ⟨pair, inside, rfl⟩ := List.mem_map.mp member
    obtain ⟨env, given, collects⟩ := (rows_of_mapM collected).2 _ inside
    exact ⟨env, given, pair.2, collects⟩

theorem append_entanglement {chain : WitnessChain} {call : AppendCall} {appended : Appended}
    (made : chain.append crypto call = .ok appended) :
    dotGet appended.record "entanglement" = .ok call.entanglement := by
  simp only [WitnessChain.append, bind, Py.bind_ok] at made
  obtain ⟨_, _, record, built, _, _, made⟩ := made
  obtain rfl := Except.ok.inj made
  simp only [WitnessChain.buildRecord, bind, Py.bind_ok] at built
  obtain ⟨_, _, _, _, _, _, _, _, _, _, _, _, made⟩ := built
  obtain rfl := Except.ok.inj made
  simp only [dotGet_obj, Dict.get?_append]
  rw [WitnessChain.get?_optionalField (by decide), WitnessChain.get?_optionalField (by decide)]
  cases call.entanglement <;> rfl

theorem saltsBelow_embedded (good : Ordered crypto originKey issuerKey exchange) {record beacon : Json}
    {envs : List Json} {recipientNode : Option Str} {takenAt : PyFloat}
    (made : beaconFrom crypto envs recipientNode takenAt = .ok beacon)
    (arrived : ∀ env ∈ envs, SaltArrives crypto exchange env)
    (embedded : dotGet record "entanglement" = .ok beacon) :
    SaltsBelow (idOf crypto issuerKey) exchange.issuer.chain.records.length record := by
  obtain ⟨fields, entries, rfl, listed, each⟩ := beaconFrom_ok made
  intro salts read s member issuer node same
  have nonempty : truthy (.obj fields) = true := by
    cases fields with
    | nil => cases listed
    | cons => rfl
  simp only [beaconSalts, embedded, nonempty, getDefault, listed, bind, Except.bind, pure, Except.pure,
    pyList, Bool.not_true, Bool.false_eq_true, if_false, Option.getD_some, Except.ok.injEq] at read
  subst read
  obtain ⟨env, given, _, collects⟩ := each s member
  obtain ⟨salt, nodeRead, indexRead⟩ := beaconSalt_ok collects
  obtain rfl := Except.ok.inj (node.symm.trans nodeRead)
  obtain ⟨repeats, apart⟩ := arrived env given
  rw [good.issuerSigns] at repeats apart
  have equal : canonicalNodeId crypto salt.pub = canonicalNodeId crypto (issuerKey.publicKey crypto) := by
    simpa [Json.pyEq, Json.comparisonKey, idOf] using same
  have pub := apart _ _ _ salt.read equal
  obtain ⟨original, released, field⟩ := repeats _ _ _ (pub ▸ salt.read) salt.text (pub ▸ salt.verified)
  obtain ⟨index, indexed, less⟩ := good.salts original released
  exact ⟨index, by rw [indexRead, field, indexed], less⟩

theorem saltsBelow_plain {issuerId record : Json} {bound : Int}
    (plain : dotGet record "entanglement" = .ok .null) : SaltsBelow issuerId bound record := by
  intro salts read s member
  simp only [beaconSalts, plain, truthy, bind, Except.bind, pure, Except.pure, Bool.not_false, if_true,
    Except.ok.injEq] at read
  subst read
  cases member

theorem ordered_append (good : Ordered crypto originKey issuerKey exchange) {call : AppendCall}
    {appended : Appended} (allowed : Allowed crypto exchange (.append call))
    (made : exchange.origin.append crypto call = .ok appended) :
    Ordered crypto originKey issuerKey { exchange with origin := appended.chain } := by
  have embedded := append_entanglement made
  rw [(WitnessChain.append_adds made).1]
  apply good.origin_grows
  rcases allowed with plain | ⟨envs, recipientNode, takenAt, built, arrived⟩
  · exact saltsBelow_plain (plain ▸ embedded)
  · exact saltsBelow_embedded good built arrived embedded

theorem ordered_sign (good : Ordered crypto originKey issuerKey exchange) {ts : PyFloat} {env : Json}
    (made : makeSignedRoot crypto exchange.origin exchange.origin.sk ts = .ok env) :
    Ordered crypto originKey issuerKey { exchange with roots := exchange.roots ++ [env] } := by
  refine { good with roots := ?_ }
  intro other member
  rcases List.mem_append.mp member with old | new
  · exact good.roots other old
  · rw [List.mem_singleton.mp new]
    obtain ⟨leaves, head, leavesMade, sealed⟩ := makeSignedRoot_ok made
    obtain ⟨data, _, read⟩ := readEnvelope_seal sealed
    have field := fieldOf_of_subscript (subscript_of_readEnvelope read)
    refine ⟨?_, leaves.length, by rw [field]; rfl, by rw [length_chainLeaves leavesMade]⟩
    rw [field, ← good.originSigns]
    rfl

theorem ordered_receive (good : Ordered crypto originKey issuerKey exchange) {attempt : Attempt}
    (allowed : RootArrives crypto exchange attempt.env) :
    Ordered crypto originKey issuerKey
      { exchange with issuer := (exchange.issuer.receiveRoot crypto attempt).node } := by
  rcases receiveRoot_chain crypto exchange.issuer attempt with same | ⟨⟨root⟩, rooted, alg, grown⟩
  · exact ⟨good.originSigns, by rw [same]; exact good.issuerSigns, good.roots, by rw [same]; exact good.salts,
      by rw [same]; exact good.entries, by rw [same]; exact good.checkpoints⟩
  · obtain ⟨record, longer, kind, digest⟩ := grown
    refine good.issuer_grows longer ?_ (fun env => .inl)
    intro count witnesses
    obtain ⟨named, number⟩ := witnesses.fields kind digest (by simp)
    have origin : fieldOf attempt.env "node_id" = .str root.origin := by
      rw [root.field, root.node]
      rfl
    exact arrives_count good allowed root (origin ▸ named) number

theorem ordered_issue (good : Ordered crypto originKey issuerKey exchange) {recipientNode : Str}
    {recipientRoot env : Json} {salt : Bytes} {issuedAt : PyFloat} {after : WitnessChain}
    (allowed : recipientRoot = .null ∨ RootArrives crypto exchange recipientRoot)
    (made : issue crypto exchange.issuer.chain recipientNode recipientRoot salt issuedAt =
      .ok (after, env)) :
    Ordered crypto originKey issuerKey { exchange with
      issuer := { exchange.issuer with chain := after }
      salts := exchange.salts ++ [env] } := by
  obtain ⟨head, link, linked, indexed, record, longer, kind, digest⟩ := issue_ok made
  refine good.issuer_grows longer ?_ ?_
  · intro count witnesses
    obtain ⟨named, number⟩ := witnesses.fields kind digest (by simp [saltDigest])
    cases link with
    | none => cases number
    | some link =>
      obtain ⟨given, root, origin, counted⟩ := crossLink_ok linked
      subst origin
      refine arrives_count good (allowed.resolve_left given) root named ?_
      rw [← counted]
      exact number
  · intro other member
    rcases List.mem_append.mp member with old | new
    · exact .inl old
    · rw [List.mem_singleton.mp new]
      exact .inr indexed

theorem ordered_work (good : Ordered crypto originKey issuerKey exchange) {call : AppendCall}
    {appended : Appended} (allowed : Allowed crypto exchange (.work call))
    (made : exchange.issuer.chain.append crypto call = .ok appended) :
    Ordered crypto originKey issuerKey
      { exchange with issuer := { exchange.issuer with chain := appended.chain } } := by
  obtain ⟨record, longer, kind, _⟩ := grown_of_append made
  refine good.issuer_grows longer ?_ (fun env => .inl)
  intro count witnesses
  obtain ⟨via, same⟩ := witnesses.kind kind
  cases via with
  | peerRoot => exact absurd same allowed.1
  | saltIssue => exact absurd same allowed.2

theorem ordered_step (exchange : Exchange) (move : Move) (good : Ordered crypto originKey issuerKey exchange)
    (allowed : Allowed crypto exchange move) :
    Ordered crypto originKey issuerKey (exchange.step crypto move) := by
  cases move with
  | append call =>
    cases made : exchange.origin.append crypto call with
    | error e => simpa [Exchange.step, made] using good
    | ok appended => simpa only [Exchange.step, made] using ordered_append good allowed made
  | sign ts =>
    cases made : makeSignedRoot crypto exchange.origin exchange.origin.sk ts with
    | error e => simpa [Exchange.step, made] using good
    | ok env => simpa only [Exchange.step, made] using ordered_sign good made
  | receive attempt => exact ordered_receive good allowed
  | issue recipientNode recipientRoot salt issuedAt =>
    cases made : issue crypto exchange.issuer.chain recipientNode recipientRoot salt issuedAt with
    | error e => simpa [Exchange.step, made] using good
    | ok released => simpa only [Exchange.step, made] using ordered_issue good allowed made
  | work call =>
    cases made : exchange.issuer.chain.append crypto call with
    | error e => simpa [Exchange.step, made] using good
    | ok appended => simpa only [Exchange.step, made] using ordered_work good allowed made
  | stores => exact ⟨good.originSigns, good.issuerSigns, good.roots, good.salts, good.entries, good.checkpoints⟩

theorem witnessed_ok {via : Via} {record digest origin wanted value : Json} {minCount : Int}
    (read : dotGet record "semantic_digest" = .ok digest)
    (found : via.witnessed record (orDict digest) origin minCount wanted = .ok (some value)) :
    ∃ count, WitnessesAt origin record count ∧ minCount ≤ count := by
  simp only [Via.witnessed, bind, Py.bind_ok] at found
  obtain ⟨kind, kindRead, found⟩ := found
  split at found
  · cases found
  · rename_i kindSame
    obtain rfl := not_not.mp kindSame
    simp only [Py.bind_ok] at found
    obtain ⟨node, nodeRead, found⟩ := found
    split at found
    · cases found
    · rename_i nodeSame
      simp only [Py.bind_ok] at found
      obtain ⟨count, countRead, found⟩ := found
      cases number : asInt? count with
      | none => simp [number, pure, Except.pure] at found
      | some n =>
        simp only [number] at found
        split at found
        · cases found
        · rename_i enough
          exact ⟨n, ⟨via, digest, node, count, kindRead, read, nodeRead, not_not.mp nodeSame, countRead,
            number⟩, not_lt.mp enough⟩

theorem findFrom_ok {origin root : Json} {minCount : Int} {found : Checkpoint} {records : List Json}
    {start : Nat} (search : findFrom origin minCount root start records = .ok (some found)) :
    ∃ k record count, found.index = start + k ∧ records[k]? = some record ∧
      WitnessesAt origin record count ∧ minCount ≤ count := by
  induction records generalizing start with
  | nil => cases search
  | cons rec rest ih =>
    simp only [findFrom, bind, Py.bind_ok] at search
    obtain ⟨digest, read, first, byRoot, search⟩ := search
    cases first with
    | some value =>
      obtain rfl := Option.some.inj (Except.ok.inj search)
      obtain ⟨count, witnesses, enough⟩ := witnessed_ok read byRoot
      exact ⟨0, rec, count, rfl, rfl, witnesses, enough⟩
    | none =>
      simp only [Py.bind_ok] at search
      obtain ⟨second, bySalt, search⟩ := search
      cases second with
      | some value =>
        obtain rfl := Option.some.inj (Except.ok.inj search)
        obtain ⟨count, witnesses, enough⟩ := witnessed_ok read bySalt
        exact ⟨0, rec, count, rfl, rfl, witnesses, enough⟩
      | none =>
        obtain ⟨k, record, count, place, here, rest⟩ := ih search
        exact ⟨k + 1, record, count, by omega, here, rest⟩

theorem chainExport_ok {chain : WitnessChain} {exported : Json}
    (made : chainExport crypto chain = .ok exported) :
    dotGet exported "node_id" = .ok (.str (chain.nodeId crypto)) ∧
      getDefault exported "records" (.arr []) = .ok (.arr chain.records) := by
  simp only [chainExport, bind, Py.bind_ok] at made
  obtain ⟨head, _, made⟩ := made
  obtain rfl := Except.ok.inj made
  exact ⟨rfl, rfl⟩

theorem agreedRecords_export {chain : WitnessChain} {exported record : Json} {state : Nat}
    {count : Int} {records : List Json} (nonneg : 0 ≤ count)
    (made : chainExport crypto (upTo chain state) = .ok exported)
    (read : agreedRecords exported count = .ok records) (member : record ∈ records) :
    ∃ k : Nat, (k : Int) < count ∧ chain.records[k]? = some record := by
  have exportedRecords := (chainExport_ok made).2
  simp only [agreedRecords, exportedRecords, pyTake, pyList, bind, Except.bind, pure, Except.pure,
    Except.ok.injEq, if_neg (not_lt.mpr nonneg)] at read
  subst read
  obtain ⟨k, inside, here⟩ := List.mem_take_iff_getElem.mp member
  refine ⟨k, by omega, ?_⟩
  have place : (upTo chain state).records[k]? = some record := List.getElem?_eq_some_iff.mpr ⟨_, here⟩
  rw [upTo, List.getElem?_take] at place
  split at place
  · exact place
  · cases place

/-- In every run of an honest origin and an honest issuer, no export of the origin is judged
a proven rewrite against any other history, whenever the two exports are made. -/
theorem honest_history_never_proven (originKey issuerKey : SigningKey) (node : Node) (moves : List Move)
    (along : Run.Along (Exchange.step crypto) (Allowed crypto) (.fresh originKey issuerKey node) moves)
    (earlier later : Nat) (chainA chainB issuerExport agreedRootEnv : Json) (agreedCount : Int)
    (originExported : chainExport crypto (upTo (Run.run (Exchange.step crypto)
      (.fresh originKey issuerKey node) moves).origin earlier) = .ok chainA)
    (issuerExported : chainExport crypto (upTo (Run.run (Exchange.step crypto)
      (.fresh originKey issuerKey node) moves).issuer.chain later) = .ok issuerExport)
    (signed : agreedRootEnv ∈ (Run.run (Exchange.step crypto) (.fresh originKey issuerKey node) moves).roots)
    (judgment : Judgment)
    (judged : judgeDivergence crypto chainA chainB issuerExport agreedCount agreedRootEnv = .ok judgment) :
    ¬(judgment.anachronistic = some .a ∧ judgment.isCryptographic = true) := by
  have start : Ordered crypto originKey issuerKey (.fresh originKey issuerKey node) :=
    ⟨rfl, rfl, by simp [Exchange.fresh], by simp [Exchange.fresh], by simp [Exchange.fresh],
      by simp [Exchange.fresh]⟩
  have good := Run.invariant ordered_step start along
  generalize Run.run (Exchange.step crypto) (.fresh originKey issuerKey node) moves = exchange at *
  rintro ⟨against, cryptographic⟩
  obtain ⟨found, records, named, agreed, read, record, member, salts, saltsRead, s, inside, flagged⟩ :=
    judge_cryptographic judged cryptographic against
  obtain ⟨root, counted, search⟩ := agreedCheckpoint_root agreed
  obtain ⟨exportedId, exportedRecords⟩ := chainExport_ok issuerExported
  -- The checkpoint is in the issuer's chain, and the origin's record is below its count.
  simp only [findIssuerCheckpoint, exportedRecords, pyList, bind, Except.bind] at search
  obtain ⟨i, witness, count, place, here, witnesses, enough⟩ := findFrom_ok search
  rw [upTo, List.getElem?_take] at here
  split at here
  · obtain ⟨k, below, embedding⟩ := agreedRecords_export (counted ▸ root.nonneg) originExported read member
    have originId : .str root.origin = idOf crypto originKey := by
      rw [← (good.roots agreedRootEnv signed).1, root.field, root.node]
      rfl
    have issuerId : judgment.issuerNode = idOf crypto issuerKey := by
      rw [← Except.ok.inj (exportedId.symm.trans named), ← good.issuerSigns]
      rfl
    rw [originId] at witnesses
    obtain ⟨_, bounded⟩ := good.checkpoints i witness count here witnesses
    obtain ⟨⟨issuer, nodeRead, same⟩, _, index, indexRead, compared⟩ := flagged
    obtain ⟨n, indexed, less⟩ := bounded k record (by omega) embedding salts saltsRead s inside issuer
      nodeRead (issuerId ▸ same)
    obtain rfl := Except.ok.inj (indexRead.symm.trans indexed)
    rw [natLess_of_asInt rfl] at compared
    have above := of_decide_eq_true (Except.ok.inj compared)
    omega
  · cases here

theorem arrives_of_released {domain pub sig : Bytes} {key : Str} {released : List Json} {env body : Json}
    (member : env ∈ released) (read : readEnvelope env = .ok (body, pub, sig)) :
    Repeats crypto domain pub key released env ∧ Apart crypto pub env := by
  refine ⟨fun _ _ _ _ _ _ => ⟨env, member, rfl⟩, ?_⟩
  intro _ other _ again _
  exact (Prod.mk.inj (Prod.mk.inj (Except.ok.inj (again.symm.trans read))).2).1

def sampleAttempt : Attempt where
  env := sampleRoot
  now := .zero
  timestamp := "now"
  journalWritten := true
  chainWritten := true

theorem sampleAttempt_env : sampleAttempt.env = sampleRoot := by
  rw [sampleAttempt]

def sampleStart : Exchange :=
  .fresh (.sample 1) (.sample 2) { sk := .sample 2, chain := ⟨.sample 2, []⟩ }

def sampleWork : Move := .append { kind := "INFER" }

def sampleWorked : Exchange := sampleStart.step Crypto.sample sampleWork

def sampleSigned : Exchange := sampleWorked.step Crypto.sample (.sign .zero)

def sampleStored : Exchange := sampleSigned.step Crypto.sample (.receive sampleAttempt)

/-- A salt that is linked to the stored root. -/
def sampleIssue : Move := .issue (sampleOrigin.nodeId Crypto.sample) sampleRoot [7] .zero

def sampleIssued : Exchange := sampleStored.step Crypto.sample sampleIssue

/-- The origin's next record, with a beacon made of that salt. -/
def sampleEmbedding : Move := .append {
  kind := "INFER"
  entanglement := (beaconFrom Crypto.sample sampleIssued.salts none .zero).toOption.getD .null }

def sampleLast : Exchange := sampleIssued.step Crypto.sample sampleEmbedding

def sampleHistory : Json := (chainExport Crypto.sample (upTo sampleLast.origin 2)).toOption.getD .null

def sampleIssuance : Json := (chainExport Crypto.sample (upTo sampleLast.issuer.chain 2)).toOption.getD .null

private theorem ordered_start : Ordered Crypto.sample (.sample 1) (.sample 2) sampleStart :=
  ⟨rfl, rfl, by simp [sampleStart, Exchange.fresh], by simp [sampleStart, Exchange.fresh],
    by simp [sampleStart, Exchange.fresh], by simp [sampleStart, Exchange.fresh]⟩

private theorem evaluated_sample :
    ((sampleRoot ∈ sampleSigned.roots ∧ sampleRoot ∈ sampleStored.roots) ∧
      (readEnvelope sampleRoot).toOption.map (fun parts => parts.2.1) =
        some (SigningKey.publicKey Crypto.sample (.sample 1))) ∧
    (sampleIssued.salts.map (fun salt => (readEnvelope salt).toOption.map (fun parts => parts.2.1)) =
      [some (SigningKey.publicKey Crypto.sample (.sample 2))] ∧
      (beaconFrom Crypto.sample sampleIssued.salts none .zero).isOk = true) ∧
    (chainExport Crypto.sample (upTo sampleLast.origin 2)).isOk = true ∧
    (chainExport Crypto.sample (upTo sampleLast.issuer.chain 2)).isOk = true ∧
    sampleRoot ∈ sampleLast.roots ∧
    (judgeDivergence Crypto.sample sampleHistory (.obj []) sampleIssuance 1 sampleRoot).isOk = true := by
  decide +kernel

private theorem released_salt :
    (∃ salt, sampleIssued.salts = [salt] ∧ (readEnvelope salt).toOption.map (fun parts => parts.2.1) =
      some (SigningKey.publicKey Crypto.sample (.sample 2))) ∧
    (beaconFrom Crypto.sample sampleIssued.salts none .zero).isOk = true := by
  have checked := evaluated_sample.2.1
  generalize sampleIssued.salts = salts at checked
  obtain ⟨keys, ok⟩ := checked
  cases salts with
  | nil => cases keys
  | cons salt rest =>
    obtain ⟨key, none_left⟩ := List.cons.inj keys
    exact ⟨⟨salt, by rw [List.map_eq_nil_iff.mp none_left], key⟩, ok⟩

private theorem along_sample : Run.Along (Exchange.step Crypto.sample) (Allowed Crypto.sample) sampleStart
    [sampleWork, .sign .zero, .receive sampleAttempt, sampleIssue, sampleEmbedding] := by
  obtain ⟨⟨signed, stored⟩, key⟩ := evaluated_sample.1
  obtain ⟨⟨salt, salts, saltKey⟩, made⟩ := released_salt
  have keyOf {env : Json} {pub : Bytes}
      (keyed : (readEnvelope env).toOption.map (fun parts => parts.2.1) = some pub) :
      ∃ body sig, readEnvelope env = .ok (body, pub, sig) := by
    cases read : readEnvelope env with
    | error e =>
      rw [read] at keyed
      cases keyed
    | ok parts =>
      rw [read] at keyed
      obtain ⟨body, other, sig⟩ := parts
      obtain rfl := Option.some.inj keyed
      exact ⟨body, sig, rfl⟩
  obtain ⟨_, _, read⟩ := keyOf key
  obtain ⟨_, _, saltRead⟩ := keyOf saltKey
  have arrives (exchange : Exchange) (good : Ordered Crypto.sample (.sample 1) (.sample 2) exchange)
      (member : sampleRoot ∈ exchange.roots) : RootArrives Crypto.sample exchange sampleRoot := by
    rw [RootArrives, good.originSigns]
    exact arrives_of_released member read
  have worked : Ordered Crypto.sample (.sample 1) (.sample 2) sampleWorked :=
    ordered_step sampleStart sampleWork ordered_start (.inl rfl)
  have signs : Ordered Crypto.sample (.sample 1) (.sample 2) sampleSigned :=
    ordered_step sampleWorked (.sign .zero) worked trivial
  have receives : RootArrives Crypto.sample sampleSigned sampleAttempt.env := by
    rw [sampleAttempt_env]
    exact arrives sampleSigned signs signed
  have stores : Ordered Crypto.sample (.sample 1) (.sample 2) sampleStored :=
    ordered_step sampleSigned (.receive sampleAttempt) signs receives
  have issues : RootArrives Crypto.sample sampleStored sampleRoot := arrives sampleStored stores stored
  have good : Ordered Crypto.sample (.sample 1) (.sample 2) sampleIssued :=
    ordered_step sampleStored sampleIssue stores (.inr issues)
  refine .cons rfl (.inl rfl) (.cons rfl trivial (.cons rfl receives (.cons rfl (.inr issues) ⟨?_, trivial⟩)))
  obtain ⟨beacon, built⟩ := Py.exists_of_isOk made
  refine .inr ⟨sampleIssued.salts, none, .zero, ?_, ?_⟩
  · rw [built]
    rfl
  · intro env member
    obtain rfl := List.mem_singleton.mp (salts ▸ member)
    change SaltArrives Crypto.sample sampleIssued env
    rw [SaltArrives, good.issuerSigns]
    exact arrives_of_released member saltRead

private theorem run_sample : Run.run (Exchange.step Crypto.sample) sampleStart
    [sampleWork, .sign .zero, .receive sampleAttempt, sampleIssue, sampleEmbedding] = sampleLast := by
  rw [Run.run_cons, Run.run_cons, Run.run_cons, Run.run_cons, Run.run_cons, Run.run_nil]
  rfl

theorem honest_history_never_proven_sample :
    ∃ judgment, judgeDivergence Crypto.sample sampleHistory (.obj []) sampleIssuance 1 sampleRoot =
      .ok judgment ∧ ¬(judgment.anachronistic = some .a ∧ judgment.isCryptographic = true) := by
  obtain ⟨historyOk, issuanceOk, released, judgedOk⟩ := evaluated_sample.2.2
  obtain ⟨history, exported⟩ := Py.exists_of_isOk historyOk
  obtain ⟨issuance, issued⟩ := Py.exists_of_isOk issuanceOk
  obtain ⟨judgment, judged⟩ := Py.exists_of_isOk judgedOk
  have historyIs : sampleHistory = history := by
    rw [sampleHistory, exported]
    rfl
  have issuanceIs : sampleIssuance = issuance := by
    rw [sampleIssuance, issued]
    rfl
  have never := @honest_history_never_proven Crypto.sample (.sample 1) (.sample 2) _ _ along_sample
  rw [← sampleStart.eq_def, run_sample] at never
  refine ⟨judgment, judged, ?_⟩
  rw [historyIs, issuanceIs] at judged
  exact never 2 2 history (.obj []) issuance sampleRoot 1 exported issued released judgment judged

end JJDai.Entanglement
