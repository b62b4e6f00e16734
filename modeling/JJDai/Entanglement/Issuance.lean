import JJDai.Entanglement.HonestHistory

/-! `SaltBeacon.issue` step by step: the chain is read under the node's lock, and other
components append to it under the chain's. -/

namespace JJDai.Entanglement

open PyText Canonical Replication

variable (crypto : Crypto)

/-- What a salt is issued for; `salt` and `issuedAt` stand for `os.urandom` and the clock. -/
structure SaltRequest where
  recipientNode : Str
  recipientRoot : Json := .null
  salt : Bytes
  issuedAt : PyFloat

/-- `SaltBeacon.issue` after its two reads of the chain. -/
def issueAfterReads (chain : WitnessChain) (request : SaltRequest) (index : Nat) (head : Json) :
    Py (WitnessChain × Json) := do
  let link ← crossLink crypto request.recipientNode request.recipientRoot
  let env ← sealEnvelope crypto chain.sk saltDomain (.obj (saltBody crypto (chain.nodeId crypto)
    request.recipientNode request.salt index head request.issuedAt link))
  let appended ← chain.append crypto {
    kind := "SALT_ISSUE"
    semanticDigest := .obj (saltDigest crypto request.recipientNode request.salt index head link) }
  return (appended.chain, env)

/-- What the thread that holds the node's lock has read. -/
inductive Reading where
  | idle
  | counted (request : SaltRequest) (index : Nat)
  | read (request : SaltRequest) (index : Nat) (head : Json)

/-- The issuer's chain, the issuance in progress, and the envelopes returned. -/
structure Issuer where
  chain : WitnessChain
  reading : Reading := .idle
  salts : List Json := []

inductive Event where
  /-- The lock is taken and the records are counted. -/
  | count (request : SaltRequest)
  /-- The head is read. -/
  | head
  /-- The salt is signed and witnessed, and the lock is left. -/
  | witness
  /-- Another component appends. -/
  | append (call : AppendCall)

namespace Issuer

def step (issuer : Issuer) : Event → Issuer
  | .count request =>
    match issuer.reading with
    | .idle => { issuer with reading := .counted request issuer.chain.nextIndex }
    | _ => issuer
  | .head =>
    match issuer.reading with
    | .counted request index =>
      match issuer.chain.headHash with
      | .ok head => { issuer with reading := .read request index head }
      | .error _ => { issuer with reading := .idle }
    | _ => issuer
  | .witness =>
    match issuer.reading with
    | .read request index head =>
      match issueAfterReads crypto issuer.chain request index head with
      | .ok (chain, env) => { chain, salts := issuer.salts ++ [env] }
      | .error _ => { issuer with reading := .idle }
    | _ => issuer
  | .append call =>
    match issuer.chain.append crypto call with
    | .ok appended => { issuer with chain := appended.chain }
    | .error _ => issuer

/-- Nobody appends while an issuance is in progress. -/
def Undisturbed (issuer : Issuer) : Event → Prop
  | .append _ => issuer.reading = .idle
  | _ => True

end Issuer

/-- The record at the envelope's index is the issuance it names. -/
def Witnessed (chain : WitnessChain) (env : Json) : Prop :=
  ∃ (index : Nat) (record digest : Json), fieldOf env "issuer_index" = .int index ∧
    chain.records[index]? = some record ∧ subscript record "kind" = .ok (.str "SALT_ISSUE") ∧
    subscript record "semantic_digest" = .ok digest ∧
    ∀ key ∈ (["recipient_node", "salt_hash", "issuer_index", "issuer_head"] : List Str),
      subscript digest key = .ok (fieldOf env key)

/-- A beacon made of the envelope passes against every export of the chain. -/
def ChecksOut (chain : WitnessChain) (env : Json) : Prop :=
  ∀ takenAt exported, chainExport crypto chain = .ok exported →
    ∃ beacon, beaconFrom crypto [env] none takenAt = .ok beacon ∧
      verifyBeaconAgainstIssuer crypto beacon exported = .ok (true, "ok")

/-- An envelope of this chain's node, whose issuance stands where it says. -/
structure Issued (chain : WitnessChain) (env : Json) where
  request : SaltRequest
  index : Nat
  head : Json
  link : Option CrossLink
  record : Json
  signed : sealEnvelope crypto chain.sk saltDomain (.obj (saltBody crypto (chain.nodeId crypto)
    request.recipientNode request.salt index head request.issuedAt link)) = .ok env
  place : chain.records[index]? = some record
  kind : subscript record "kind" = .ok (.str "SALT_ISSUE")
  digest : subscript record "semantic_digest" =
    .ok (.obj (saltDigest crypto request.recipientNode request.salt index head link))
  previous : 0 < index → ∃ before, chain.records[index - 1]? = some before ∧
    subscript before "this_hash" = .ok head

variable {crypto} {chain : WitnessChain} {env : Json}

theorem Issued.witnessed (issued : Issued crypto chain env) : Witnessed chain env := by
  obtain ⟨data, _, read⟩ := readEnvelope_seal issued.signed
  have field (key : Str) := fieldOf_of_subscript (subscript_of_readEnvelope read) key
  refine ⟨issued.index, issued.record, _, ?_, issued.place, issued.kind, issued.digest, ?_⟩
  · rw [field]
    rfl
  · intro key member
    rw [field, subscript_obj]
    simp only [List.mem_cons, List.not_mem_nil, or_false] at member
    obtain rfl | rfl | rfl | rfl := member <;> rfl

theorem Issued.envelope_verifies (lawful : crypto.Lawful) (issued : Issued crypto chain env) :
    verifySaltEnvelope crypto env = .ok (true, "ok") := by
  obtain ⟨data, text, read⟩ := readEnvelope_seal issued.signed
  have kind : dotGet (.obj (saltBody crypto (chain.nodeId crypto) issued.request.recipientNode
    issued.request.salt issued.index issued.head issued.request.issuedAt issued.link)) "kind" =
      .ok (.str "SALT_ISSUE") := rfl
  have node : dotGet (.obj (saltBody crypto (chain.nodeId crypto) issued.request.recipientNode
    issued.request.salt issued.index issued.head issued.request.issuedAt issued.link)) "issuer_node" =
      .ok (.str (canonicalNodeId crypto (chain.sk.publicKey crypto))) := rfl
  have salt : getDefault (.obj (saltBody crypto (chain.nodeId crypto) issued.request.recipientNode
    issued.request.salt issued.index issued.head issued.request.issuedAt issued.link)) "salt" (.str []) =
      .ok (.str (toHex issued.request.salt)) := rfl
  have hash : dotGet (.obj (saltBody crypto (chain.nodeId crypto) issued.request.recipientNode
    issued.request.salt issued.index issued.head issued.request.issuedAt issued.link)) "salt_hash" =
      .ok (.str (H_hex crypto issued.request.salt)) := rfl
  have signed : crypto.verify (chain.sk.publicKey crypto) (saltDomain ++ data)
      (chain.sk.sign crypto (saltDomain ++ data)) = true := lawful _ _
  simp [verifySaltEnvelope, read, kind, node, salt, hash, bytesFromHex_toHex, text, signed, bind, Except.bind,
    pure, Except.pure]

/-- The entry that a beacon makes of the envelope. -/
def Issued.entry (issued : Issued crypto chain env) : Json :=
  .obj (([("issuer_node", .str (chain.nodeId crypto)), ("issuer_index", .int issued.index),
    ("issuer_head", issued.head), ("salt_hash", .str (H_hex crypto issued.request.salt)),
    ("issued_at", .float issued.request.issuedAt), ("envelope", env)] : Dict Str Json) ++
  match issued.link with
  | none => []
  | some link => ([("recipient_count", link.count), ("recipient_root", link.root)] : Dict Str Json))

theorem Issued.beacon_entry (lawful : crypto.Lawful) (issued : Issued crypto chain env) :
    beaconSalt crypto none env = .ok (issued.entry, .float issued.request.issuedAt) := by
  obtain ⟨data, text, read⟩ := readEnvelope_seal issued.signed
  have body := subscript_of_readEnvelope read
  have verified := issued.envelope_verifies lawful
  cases linked : issued.link with
  | none =>
    rw [linked] at body
    simp only [beaconSalt, verified, body, Issued.entry, linked]
    rfl
  | some link =>
    rw [linked] at body
    simp only [beaconSalt, verified, body, Issued.entry, linked]
    rfl

theorem Issued.beacon (lawful : crypto.Lawful) (issued : Issued crypto chain env) (takenAt : PyFloat) :
    ∃ beacon, beaconFrom crypto [env] none takenAt = .ok beacon ∧
      getDefault beacon "salts" (.arr []) = .ok (.arr [issued.entry]) := by
  have entries : [env].mapM (beaconSalt crypto none) = .ok [(issued.entry, .float issued.request.issuedAt)] := by
    rw [List.mapM_cons, issued.beacon_entry lawful]
    rfl
  rw [beaconFrom, entries]
  exact ⟨_, rfl, rfl⟩

theorem Issued.issuance_passes (issued : Issued crypto chain env) :
    checkIssuance (.arr chain.records) issued.entry = .ok (true, "ok") := by
  have index : subscript issued.entry "issuer_index" = .ok (.int issued.index) := rfl
  have head : subscript issued.entry "issuer_head" = .ok issued.head := rfl
  have hash : subscript issued.entry "salt_hash" = .ok (.str (H_hex crypto issued.request.salt)) := rfl
  have below : issued.index < chain.records.length := (List.getElem?_eq_some_iff.mp issued.place).1
  have inside : atLeastNat (.int issued.index) chain.records.length = .ok false := by
    have small : ¬(chain.records.length : Int) < issued.index := by omega
    have other : (issued.index : Int) ≠ chain.records.length := by omega
    simp [atLeastNat, natLess, small, Json.pyEq, Json.comparisonKey, other, bind, Except.bind, pure, Except.pure]
  have found : pyIndex (.arr chain.records) (.int issued.index) = .ok issued.record :=
    (atIndex_nonneg (Int.natCast_nonneg _)).mpr issued.place
  have digest : dotGet (orDict (.obj (saltDigest crypto issued.request.recipientNode issued.request.salt
      issued.index issued.head issued.link))) "salt_hash" = .ok (.str (H_hex crypto issued.request.salt)) := rfl
  have matching : headMatches (.arr chain.records) issued.entry (.int issued.index) = .ok true := by
    by_cases first : issued.index = 0
    · simp [headMatches, natLess, first, bind, Except.bind, pure, Except.pure]
    · have positive : 0 < issued.index := Nat.pos_of_ne_zero first
      obtain ⟨before, place, hashed⟩ := issued.previous positive
      have left : pyIndex (.arr chain.records) (.int ((issued.index : Int) - 1)) = .ok before := by
        refine (atIndex_nonneg (by omega)).mpr ?_
        rwa [show ((issued.index : Int) - 1).toNat = issued.index - 1 by omega]
      simp [headMatches, natLess, positive, asInt?, left, hashed, head, bind, Except.bind, pure, Except.pure]
  simp [checkIssuance, index, hash, pyLen, inside, found, dotGet_of_subscript issued.kind,
    dotGet_of_subscript issued.digest, digest, matching, bind, Except.bind, pure, Except.pure]

theorem Issued.checks_out (lawful : crypto.Lawful) (issued : Issued crypto chain env) :
    ChecksOut crypto chain env := by
  intro takenAt exported made
  obtain ⟨beacon, taken, salts⟩ := issued.beacon lawful takenAt
  obtain ⟨named, records⟩ := chainExport_ok made
  refine ⟨beacon, taken, ?_⟩
  have node : subscript issued.entry "issuer_node" = .ok (.str (chain.nodeId crypto)) := rfl
  have envelope : subscript issued.entry "envelope" = .ok env := rfl
  simp [verifyBeaconAgainstIssuer, named, records, salts, pyList, List.filterM, List.filterAuxM, node, envelope,
    issued.envelope_verifies lawful, issued.issuance_passes, bind, Except.bind, pure, Except.pure]

/-- A chain that has grown keeps its issuances. -/
def Issued.later (issued : Issued crypto chain env) (record : Json) :
    Issued crypto { chain with records := chain.records ++ [record] } env :=
  have inside : issued.index < chain.records.length := (List.getElem?_eq_some_iff.mp issued.place).1
  { issued with
    place := by rw [List.getElem?_append_left inside]; exact issued.place
    previous := by
      intro positive
      obtain ⟨before, place, hashed⟩ := issued.previous positive
      exact ⟨before, by rw [List.getElem?_append_left (by omega)]; exact place, hashed⟩ }

def Reading.current (reading : Reading) (chain : WitnessChain) : Prop :=
  match reading with
  | .idle => True
  | .counted _ index => index = chain.nextIndex
  | .read _ index head => index = chain.nextIndex ∧ chain.headHash = .ok head

variable (crypto) in
structure Issuer.Sound (issuer : Issuer) : Prop where
  current : issuer.reading.current issuer.chain
  salts : ∀ env ∈ issuer.salts, Nonempty (Issued crypto issuer.chain env)

theorem issueAfterReads_issued {after : WitnessChain} {request : SaltRequest} {head : Json}
    (read : chain.headHash = .ok head)
    (made : issueAfterReads crypto chain request chain.nextIndex head = .ok (after, env)) :
    (∃ record, after = { chain with records := chain.records ++ [record] }) ∧ Nonempty (Issued crypto after env) := by
  simp only [issueAfterReads, bind, Py.bind_ok] at made
  obtain ⟨link, linked, signed, sealed, appended, added, same⟩ := made
  obtain ⟨rfl, rfl⟩ := Prod.mk.inj (Except.ok.inj same)
  obtain ⟨grown, kind, digest⟩ := WitnessChain.append_adds added
  rw [grown]
  refine ⟨⟨_, rfl⟩, ⟨{
    request := request, index := chain.nextIndex, head := head, link := link, record := appended.record
    signed := sealed
    place := by simp [WitnessChain.nextIndex]
    kind := kind
    digest := digest
    previous := ?_ }⟩⟩
  intro positive
  have last : chain.records.getLast? = chain.records[chain.nextIndex - 1]? := List.getLast?_eq_getElem?
  have inside : chain.nextIndex - 1 < chain.records.length := Nat.sub_lt positive one_pos
  refine ⟨chain.records[chain.nextIndex - 1], ?_, ?_⟩
  · rw [List.getElem?_append_left inside]
    exact List.getElem?_eq_getElem inside
  · rw [WitnessChain.headHash, last, List.getElem?_eq_getElem inside] at read
    exact read

theorem Issuer.sound_step (issuer : Issuer) (event : Event) (good : issuer.Sound crypto)
    (undisturbed : issuer.Undisturbed event) : (issuer.step crypto event).Sound crypto := by
  cases event with
  | count request =>
    unfold step
    cases reading : issuer.reading with
    | idle => exact ⟨rfl, good.salts⟩
    | _ => exact good
  | head =>
    unfold step
    cases reading : issuer.reading with
    | counted request index =>
      have current := good.current
      rw [reading] at current
      cases read : issuer.chain.headHash with
      | ok head => exact ⟨⟨current, read⟩, good.salts⟩
      | error e => exact ⟨trivial, good.salts⟩
    | _ => exact good
  | witness =>
    cases reading : issuer.reading with
    | read request index head =>
      have current := good.current
      rw [reading] at current
      obtain ⟨rfl, read⟩ := current
      cases made : issueAfterReads crypto issuer.chain request issuer.chain.nextIndex head with
      | error e =>
        simp only [step, reading, made]
        exact ⟨trivial, good.salts⟩
      | ok result =>
        obtain ⟨after, env⟩ := result
        simp only [step, reading, made]
        obtain ⟨⟨record, rfl⟩, issued⟩ := issueAfterReads_issued read made
        refine ⟨trivial, ?_⟩
        intro other member
        rcases List.mem_append.mp member with old | new
        · obtain ⟨before⟩ := good.salts other old
          exact ⟨before.later record⟩
        · obtain rfl := List.mem_singleton.mp new
          exact issued
    | _ =>
      simp only [step, reading]
      exact good
  | append call =>
    cases made : issuer.chain.append crypto call with
    | error e =>
      simp only [step, made]
      exact good
    | ok appended =>
      have idle : issuer.reading = .idle := undisturbed
      simp only [step, made, (WitnessChain.append_adds made).1, idle]
      refine ⟨trivial, ?_⟩
      intro env member
      obtain ⟨issued⟩ := good.salts env member
      exact ⟨issued.later appended.record⟩

/-- In every run in which nobody appends while an issuance is in progress, every envelope
returned names its own issuance and checks out against every later export. -/
theorem issued_checks_out (lawful : crypto.Lawful) (chain : WitnessChain) (events : List Event)
    (along : Run.Along (Issuer.step crypto) Issuer.Undisturbed { chain := chain } events) :
    ∀ env ∈ (Run.run (Issuer.step crypto) { chain := chain } events).salts,
      Witnessed (Run.run (Issuer.step crypto) { chain := chain } events).chain env ∧
        ChecksOut crypto (Run.run (Issuer.step crypto) { chain := chain } events).chain env := by
  have start : Issuer.Sound crypto { chain := chain } := ⟨trivial, by simp⟩
  have good := Run.invariant Issuer.sound_step start along
  intro env member
  obtain ⟨issued⟩ := good.salts env member
  exact ⟨issued.witnessed, issued.checks_out lawful⟩

def sampleRequest : SaltRequest where
  recipientNode := "anonymous"
  salt := [7]
  issuedAt := .zero

theorem issued_checks_out_sample :
    ∃ env ∈ (Run.run (Issuer.step Crypto.sample) { chain := ⟨.sample 2, []⟩ }
        [.append { kind := "INFER" }, .count sampleRequest, .head, .witness]).salts,
      Witnessed (Run.run (Issuer.step Crypto.sample) { chain := ⟨.sample 2, []⟩ }
        [.append { kind := "INFER" }, .count sampleRequest, .head, .witness]).chain env ∧
      ChecksOut Crypto.sample (Run.run (Issuer.step Crypto.sample) { chain := ⟨.sample 2, []⟩ }
        [.append { kind := "INFER" }, .count sampleRequest, .head, .witness]).chain env := by
  have made : (Run.run (Issuer.step Crypto.sample) { chain := ⟨.sample 2, []⟩ }
      [.append { kind := "INFER" }, .count sampleRequest, .head, .witness]).salts ≠ [] := by
    decide +kernel
  obtain ⟨env, member⟩ := List.exists_mem_of_ne_nil _ made
  exact ⟨env, member, issued_checks_out Crypto.sample_lawful ⟨.sample 2, []⟩
    [.append { kind := "INFER" }, .count sampleRequest, .head, .witness]
    ⟨rfl, trivial, trivial, trivial, trivial⟩ env member⟩

/-- The chain and the envelopes after an append between the two reads and the issuance. -/
def disturbed : Issuer :=
  Run.run (Issuer.step Crypto.sample) { chain := ⟨.sample 2, []⟩ }
    [.count sampleRequest, .head, .append { kind := "INFER" }, .witness]

/-- The honest issuer has signed an index at which its chain holds another record. -/
theorem disturbed_index_false :
    disturbed.salts.length = 1 ∧
      ((beaconFrom Crypto.sample disturbed.salts none .zero).bind (fun beacon =>
        (chainExport Crypto.sample disturbed.chain).bind (fun exported =>
          verifyBeaconAgainstIssuer Crypto.sample beacon exported))) =
        .ok (false, "issuer record 0 is 'INFER', not SALT_ISSUE") := by
  decide +kernel

end JJDai.Entanglement
