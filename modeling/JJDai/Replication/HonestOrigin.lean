import JJDai.Replication.Session

/-! An origin that signs only prefixes of one append-only chain is never framed. -/

namespace JJDai.Replication

open PyText Canonical Merkle

/-- The chain as it was when it had at most `count` records. -/
def upTo (chain : WitnessChain) (count : Nat) : WitnessChain :=
  { chain with records := chain.records.take count }

variable (crypto : Crypto) (chain : WitnessChain)

/-- The envelopes the owner of a chain makes, each of one state of it. -/
inductive Honest (env : Json) : Prop
  | root (count : Nat) (ts : PyFloat)
      (made : makeSignedRoot crypto (upTo chain count) chain.sk ts = .ok env)
  | consistency (count : Nat) (oldCount : Int) (ts : PyFloat)
      (made : makeConsistency crypto (upTo chain count) chain.sk oldCount ts = .ok env)

/-- No signature of this key is on the envelope. -/
def Foreign (pub : Bytes) (env : Json) : Prop :=
  ∀ body sig data, readEnvelope env = .ok (body, pub, sig) → canonical body = .ok data →
    crypto.verify pub (rootDomain ++ data) sig = false ∧
      crypto.verify pub (consDomain ++ data) sig = false

/-- The node id of this key is no other key's on the envelope. -/
def Apart (pub : Bytes) (env : Json) : Prop :=
  ∀ body other sig, readEnvelope env = .ok (body, other, sig) →
    canonicalNodeId crypto other = canonicalNodeId crypto pub → other = pub

variable {crypto chain} {env : Json}

private theorem leaf_unique :
    Relator.RightUnique (fun (record : Json) (leaf : Bytes) => (do
      match ← subscript record "this_hash" with
      | .str hash => encode hash
      | _ => raise .attributeError) = Except.ok leaf) := by
  intro record a b first second
  exact Except.ok.inj (first.symm.trans second)

private theorem chainLeaves_front {early late : Nat} {old new : List Bytes} (le : early ≤ late)
    (oldMade : chainLeaves (upTo chain early) = .ok old)
    (newMade : chainLeaves (upTo chain late) = .ok new) : old <+: new := by
  have front := List.forall₂_take early (Py.mapM_ok.mp newMade)
  rw [upTo, List.take_take, min_eq_left le] at front
  have same := List.right_unique_forall₂' leaf_unique (Py.mapM_ok.mp oldMade) front
  rw [same]
  exact List.take_prefix early new

theorem chainLeaves_take {a b : Nat} {old new : List Bytes}
    (oldMade : chainLeaves (upTo chain a) = .ok old)
    (newMade : chainLeaves (upTo chain b) = .ok new) (le : old.length ≤ new.length) :
    new.take old.length = old := by
  rcases Nat.le_total a b with early | late
  · exact (List.prefix_iff_eq_take.mp (chainLeaves_front early oldMade newMade)).symm
  · have reverse := chainLeaves_front late newMade oldMade
    rw [reverse.eq_of_length_le le, List.take_length]

theorem length_chainLeaves {leaves : List Bytes} (made : chainLeaves chain = .ok leaves) :
    chain.records.length = leaves.length :=
  (Py.mapM_ok.mp made).length_eq

variable (crypto chain) in
/-- A value that is the tree head of a state with this many records. -/
def HeadAt (count : Int) (root : Json) : Prop :=
  ∃ state leaves, chainLeaves (upTo chain state) = .ok leaves ∧ count = leaves.length ∧
    root = hexJson (treeHead crypto leaves)

theorem HeadAt.of_leaves {count : Int} {root : Json} (head : HeadAt crypto chain count root)
    {state : Nat} {leaves : List Bytes} (made : chainLeaves (upTo chain state) = .ok leaves)
    (le : count ≤ leaves.length) :
    root = hexJson (treeHead crypto (leaves.take count.toNat)) := by
  obtain ⟨other, front, frontMade, rfl, rfl⟩ := head
  rw [Int.toNat_natCast, chainLeaves_take frontMade made (by omega)]

theorem HeadAt.unique {count : Int} {a b : Json} (first : HeadAt crypto chain count a)
    (second : HeadAt crypto chain count b) : a = b := by
  obtain ⟨state, leaves, made, rfl, rfl⟩ := second
  rw [first.of_leaves made le_rfl, Int.toNat_natCast, List.take_length]

theorem makeSignedRoot_ok {sk : SigningKey} {ts : PyFloat}
    (made : makeSignedRoot crypto chain sk ts = .ok env) :
    ∃ leaves headHash, chainLeaves chain = .ok leaves ∧
      sealEnvelope crypto sk rootDomain (rootBody (chain.nodeId crypto) leaves.length headHash
        (hexJson (treeHead crypto leaves)) ts) = .ok env := by
  simp only [makeSignedRoot, chainRoot, bind, Py.bind_ok] at made
  obtain ⟨headHash, _, root, ⟨leaves, leavesMade, head⟩, sealed⟩ := made
  rw [mthRoot_eq] at head
  obtain rfl := Except.ok.inj head
  rw [length_chainLeaves leavesMade] at sealed
  exact ⟨leaves, headHash, leavesMade, sealed⟩

theorem makeConsistency_ok {sk : SigningKey} {oldCount : Int} {ts : PyFloat}
    (made : makeConsistency crypto chain sk oldCount ts = .ok env) :
    ∃ leaves proof, chainLeaves chain = .ok leaves ∧ 0 < oldCount ∧ oldCount ≤ leaves.length ∧
      consistencyProof crypto leaves oldCount = .ok proof ∧
      sealEnvelope crypto sk consDomain (consistencyBody (chain.nodeId crypto) oldCount
        (hexJson (treeHead crypto (leaves.take oldCount.toNat))) leaves.length
        (hexJson (treeHead crypto leaves)) proof ts) = .ok env := by
  simp only [makeConsistency, bind, Py.bind_ok, mthRoot_eq] at made
  obtain ⟨leaves, leavesMade, made⟩ := made
  split at made
  · obtain ⟨_, failed, _⟩ := Py.bind_ok.mp made
    cases failed
  · rename_i inside
    obtain ⟨positive, le⟩ := not_not.mp inside
    simp only [Except.bind] at made
    cases proofMade : consistencyProof crypto leaves oldCount with
    | error e => simp [proofMade] at made
    | ok proof =>
      simp only [proofMade] at made
      exact ⟨leaves, proof, leavesMade, positive, le, proofMade, made⟩

variable (crypto chain) in
/-- What a root envelope of this origin says. -/
structure HonestRoot (env : Json) (count : Int) : Prop where
  body : ∃ fields, subscript env "body" = .ok (.obj fields)
  node : fieldOf env "node_id" = .str (chain.nodeId crypto)
  counted : fieldOf env "count" = .int count
  alg : fieldOf env "root_alg" = .str "rfc6962"
  head : HeadAt crypto chain count (fieldOf env "root")

theorem honestRoot_of_made {state : Nat} {ts : PyFloat}
    (made : makeSignedRoot crypto (upTo chain state) chain.sk ts = .ok env)
    (root : SignedRoot crypto env) :
    root.origin = chain.nodeId crypto ∧ HonestRoot crypto chain env root.count := by
  obtain ⟨leaves, headHash, leavesMade, sealed⟩ := makeSignedRoot_ok made
  obtain ⟨data, _, read⟩ := readEnvelope_seal sealed
  have same := Except.ok.inj (root.read.symm.trans read)
  obtain ⟨body, pub, _⟩ : _ ∧ root.pub = chain.sk.publicKey crypto ∧ _ := by
    simpa only [Prod.mk.injEq] using same
  have found := subscript_of_readEnvelope read
  have field (key : Str) := fieldOf_of_subscript found key
  have count : root.count = leaves.length := by
    have counted := root.counted
    rw [Json.obj.inj body] at counted
    simpa [asInt?] using counted.symm
  refine ⟨by rw [SignedRoot.origin, pub]; rfl, ⟨_, found⟩, ?_, ?_, ?_, ?_⟩
  · rw [field]; rfl
  · rw [field, count]; rfl
  · rw [field]; rfl
  · rw [field, count]
    exact ⟨state, leaves, leavesMade, rfl, rfl⟩

private theorem subscript_of_get? {fields : Dict Str Json} {key : Str} {value : Json}
    (found : Dict.get? fields key = some value) : subscript (.obj fields) key = .ok value :=
  subscript_obj.mpr found

theorem checkPin_honest {which : Str} {body : Dict Str Json} {pin : Json} {count : Int}
    (honest : HonestRoot crypto chain pin count)
    (node : Dict.get? body "node_id" = some (.str (chain.nodeId crypto)))
    (counted : Dict.get? body (which ++ "_count") = some (.int count))
    (rooted : Dict.get? body (which ++ "_root") = some (fieldOf pin "root")) :
    checkPin which (.obj body) (some pin) = .ok none := by
  obtain ⟨fields, found⟩ := honest.body
  have field (key : Str) := fieldOf_of_subscript found key
  have nodeField := (field "node_id").symm.trans honest.node
  have countField := (field "count").symm.trans honest.counted
  have algField := (field "root_alg").symm.trans honest.alg
  simp [checkPin, found, nodeField, countField, algField, ← field "root", subscript_of_get? node,
    subscript_of_get? counted, subscript_of_get? rooted, bind, Except.bind, pure, Except.pure]

theorem honestClaim_consistent {state : Nat} {oldCount : Int} {ts : PyFloat}
    (made : makeConsistency crypto (upTo chain state) chain.sk oldCount ts = .ok env)
    (claim : SignedClaim crypto env) {oldPin newPin : Option Json}
    (oldHonest : ∀ pin ∈ oldPin, HonestRoot crypto chain pin claim.old)
    (newHonest : ∀ pin ∈ newPin, HonestRoot crypto chain pin claim.new) :
    claimVerdict crypto (.obj claim.body) claim.old claim.new oldPin newPin =
      .ok (.consistent, "ok") := by
  obtain ⟨leaves, proof, leavesMade, positive, le, proofMade, sealed⟩ := makeConsistency_ok made
  obtain ⟨data, _, read⟩ := readEnvelope_seal sealed
  have same := Except.ok.inj (claim.read.symm.trans read)
  obtain ⟨body, _, _⟩ := by simpa only [Prod.mk.injEq] using same
  have body := Json.obj.inj body
  have old : claim.old = oldCount := by
    have counted := claim.oldCounted
    rw [body] at counted
    simpa [asInt?] using counted.symm
  have new : claim.new = leaves.length := by
    have counted := claim.newCounted
    rw [body] at counted
    simpa [asInt?] using counted.symm
  have node : Dict.get? claim.body "node_id" = some (.str (chain.nodeId crypto)) := by
    rw [body]; rfl
  have oldCounted : Dict.get? claim.body ("old" ++ "_count") = some (.int claim.old) := by
    rw [body, old]; rfl
  have newCounted : Dict.get? claim.body ("new" ++ "_count") = some (.int claim.new) := by
    rw [body, new]; rfl
  have oldRoot : Dict.get? claim.body "old_root" =
      some (hexJson (treeHead crypto (leaves.take oldCount.toNat))) := by rw [body]; rfl
  have newRoot : Dict.get? claim.body "new_root" = some (hexJson (treeHead crypto leaves)) := by
    rw [body]; rfl
  have proofField : dotGet (.obj claim.body) "proof" = .ok (.arr proof) := by rw [body]; rfl
  have oldPasses : checkPin "old" (.obj claim.body) oldPin = .ok none := by
    cases oldPin with
    | none => rfl
    | some pin =>
      have honest := oldHonest pin rfl
      refine checkPin_honest honest node oldCounted ?_
      rw [honest.head.of_leaves leavesMade (by omega), old]
      exact oldRoot
  have newPasses : checkPin "new" (.obj claim.body) newPin = .ok none := by
    cases newPin with
    | none => rfl
    | some pin =>
      have honest := newHonest pin rfl
      refine checkPin_honest honest node newCounted ?_
      rw [honest.head.of_leaves leavesMade (by omega), new, Int.toNat_natCast, List.take_length]
      exact newRoot
  have linked : verifyConsistency crypto claim.old claim.new
      (hexJson (treeHead crypto (leaves.take oldCount.toNat))) (hexJson (treeHead crypto leaves))
      (orList (.arr proof)) = .ok true := by
    have natural : ((oldCount.toNat : Nat) : Int) = oldCount := Int.toNat_of_nonneg (by omega)
    obtain ⟨texts, texted, verified⟩ := @verifyConsistency_complete crypto leaves oldCount.toNat
      (by omega) (by omega)
    rw [natural] at texted verified
    obtain rfl := Except.ok.inj (proofMade.symm.trans texted)
    have list : orList (.arr (texts.map Json.str)) = .arr (texts.map Json.str) := by
      cases texts <;> rfl
    rw [list, old, new]
    exact verified
  simp [claimVerdict, oldPasses, newPasses, subscript_of_get? oldRoot, subscript_of_get? newRoot,
    proofField, linked, bind, Except.bind, pure, Except.pure]

theorem Honest.signedRoot (honest : Honest crypto chain env) (root : SignedRoot crypto env) :
    root.origin = chain.nodeId crypto ∧ HonestRoot crypto chain env root.count := by
  cases honest with
  | root state ts made => exact honestRoot_of_made made root
  | consistency state oldCount ts made =>
    obtain ⟨leaves, proof, _, _, _, _, sealed⟩ := makeConsistency_ok made
    obtain ⟨data, _, read⟩ := readEnvelope_seal sealed
    have kind := root.kind
    have same := Except.ok.inj (root.read.symm.trans read)
    rw [Json.obj.inj (Prod.mk.inj same).1] at kind
    cases kind

theorem Honest.signedClaim (honest : Honest crypto chain env) (claim : SignedClaim crypto env) :
    claim.origin = chain.nodeId crypto ∧ ∃ state oldCount ts,
      makeConsistency crypto (upTo chain state) chain.sk oldCount ts = .ok env := by
  cases honest with
  | root state ts made =>
    obtain ⟨leaves, headHash, _, sealed⟩ := makeSignedRoot_ok made
    obtain ⟨data, _, read⟩ := readEnvelope_seal sealed
    have kind := claim.kind
    have same := Except.ok.inj (claim.read.symm.trans read)
    rw [Json.obj.inj (Prod.mk.inj same).1] at kind
    cases kind
  | consistency state oldCount ts made =>
    refine ⟨?_, state, oldCount, ts, made⟩
    obtain ⟨leaves, proof, _, _, _, _, sealed⟩ := makeConsistency_ok made
    obtain ⟨data, _, read⟩ := readEnvelope_seal sealed
    have same := Except.ok.inj (claim.read.symm.trans read)
    obtain ⟨_, pub, _⟩ := by simpa only [Prod.mk.injEq] using same
    rw [SignedClaim.origin, pub]
    rfl

variable (crypto chain) in
/-- What is delivered: the owner's envelopes, and others without its signature. -/
def Admissible (delivery : Delivery) : Prop :=
  (Honest crypto chain delivery.message.envelope ∨
    Foreign crypto (chain.sk.publicKey crypto) delivery.message.envelope) ∧
  Apart crypto (chain.sk.publicKey crypto) delivery.message.envelope

variable (crypto chain) in
/-- Everything held of the origin is honest, and nothing was said against it. -/
structure Unframed (session : Session) : Prop where
  held : ∀ count env, Dict.get? (session.store.held (chain.nodeId crypto)) count = some env →
    HonestRoot crypto chain env count
  clear : session.store.divergence (chain.nodeId crypto) = []
  roots : ∀ env, .root env .divergence ∈ session.answers → ¬Honest crypto chain env
  claims : ∀ env, .consistency env .inconsistent ∈ session.answers → ¬Honest crypto chain env

private theorem origin_of_root (sent : Honest crypto chain env ∨
      Foreign crypto (chain.sk.publicKey crypto) env)
    (apart : Apart crypto (chain.sk.publicKey crypto) env) (root : SignedRoot crypto env) :
    root.origin = chain.nodeId crypto ∧ HonestRoot crypto chain env root.count ∨
      root.origin ≠ chain.nodeId crypto := by
  by_cases same : root.origin = chain.nodeId crypto
  · left
    rcases sent with honest | foreign
    · exact honest.signedRoot root
    · have pub := apart _ _ _ root.read same
      have unsigned := (foreign _ _ _ (pub ▸ root.read) root.text).1
      rw [← pub, root.verified] at unsigned
      cases unsigned
  · exact .inr same

private theorem origin_of_claim (sent : Honest crypto chain env ∨
      Foreign crypto (chain.sk.publicKey crypto) env)
    (apart : Apart crypto (chain.sk.publicKey crypto) env) (claim : SignedClaim crypto env) :
    Honest crypto chain env ∨ claim.origin ≠ chain.nodeId crypto := by
  by_cases same : claim.origin = chain.nodeId crypto
  · left
    rcases sent with honest | foreign
    · exact honest
    · have pub := apart _ _ _ claim.read same
      have unsigned := (foreign _ _ _ (pub ▸ claim.read) claim.text).2
      rw [← pub, claim.verified] at unsigned
      cases unsigned
  · exact .inr same

private theorem other_origin {session : Session} (good : Unframed crypto chain session)
    (root : SignedRoot crypto env) {current : Json}
    (filed : root.origin = chain.nodeId crypto ∧ HonestRoot crypto chain env root.count ∨
      root.origin ≠ chain.nodeId crypto)
    (held : Dict.get? (session.store.held root.origin) root.count = some current)
    (other : ¬Json.pyEq (fieldOf current "root") (fieldOf env "root")) :
    root.origin ≠ chain.nodeId crypto := by
  rcases filed with ⟨same, honest⟩ | different
  · rw [same] at held
    have head := (good.held _ _ held).head.unique honest.head
    exact absurd (head ▸ Json.pyEq.refl _) other
  · exact different

private theorem held_after_hold {session : Session} (good : Unframed crypto chain session)
    (root : SignedRoot crypto env)
    (filed : root.origin = chain.nodeId crypto ∧ HonestRoot crypto chain env root.count ∨
      root.origin ≠ chain.nodeId crypto) (count : Int) (current : Json)
    (held : Dict.get? ((session.store.hold root.origin root.count env).held
      (chain.nodeId crypto)) count = some current) : HonestRoot crypto chain current count := by
  rw [ReplicaStore.held_hold] at held
  rcases filed with ⟨same, honest⟩ | different
  · rw [if_pos same, Dict.get?_set] at held
    split at held
    · rename_i counts
      obtain rfl := Option.some.inj held
      exact counts ▸ honest
    · exact good.held _ _ (same ▸ held)
  · rw [if_neg different] at held
    exact good.held _ _ held

theorem unframed_accept {session : Session} {now : PyFloat} {outcome : Outcome RootStatus}
    (good : Unframed crypto chain session)
    (sent : Honest crypto chain env ∨ Foreign crypto (chain.sk.publicKey crypto) env)
    (apart : Apart crypto (chain.sk.publicKey crypto) env)
    (answered : Accepts crypto session.store env now outcome) (weighed : List Json) (written : Bool) :
    Unframed crypto chain (session.finish outcome (.root env outcome.status) weighed written) := by
  have claims : ∀ other, .consistency other .inconsistent ∈
      (session.finish outcome (.root env outcome.status) weighed written).answers →
        ¬Honest crypto chain other := by
    intro other member
    rcases Session.mem_finish member with old | new
    · exact good.claims other old
    · cases new
  have roots (calm : outcome.status = .divergence → ¬Honest crypto chain env) :
      ∀ other, .root other .divergence ∈
        (session.finish outcome (.root env outcome.status) weighed written).answers →
          ¬Honest crypto chain other := by
    intro other member
    rcases Session.mem_finish member with old | new
    · exact good.roots other old
    · obtain ⟨rfl, status⟩ := Answer.root.inj new
      exact calm status.symm
  cases answered with
  | rejected reason => exact ⟨good.held, good.clear, roots (by simp), claims⟩
  | duplicate root rooted current held same =>
    exact ⟨good.held, good.clear, roots (by simp), claims⟩
  | stale root rooted absent late reason => exact ⟨good.held, good.clear, roots (by simp), claims⟩
  | upgrade root rooted current held other alg =>
    have filed := origin_of_root sent apart root
    exact ⟨held_after_hold good root filed, good.clear, roots (by simp), claims⟩
  | divergence root rooted current held other alg =>
    have elsewhere := other_origin good root (origin_of_root sent apart root) held other
    refine ⟨good.held, ?_, roots (fun _ honest => elsewhere (honest.signedRoot root).1), claims⟩
    rw [Session.finish, ReplicaStore.divergence_addEvidence, if_neg elsewhere]
    exact good.clear
  | fresh root rooted absent newest =>
    have filed := origin_of_root sent apart root
    exact ⟨held_after_hold good root filed, good.clear, roots (by simp), claims⟩

theorem unframed_record {session : Session} {now : PyFloat} {outcome : Outcome ConsistencyStatus}
    (good : Unframed crypto chain session)
    (sent : Honest crypto chain env ∨ Foreign crypto (chain.sk.publicKey crypto) env)
    (apart : Apart crypto (chain.sk.publicKey crypto) env)
    (answered : Records crypto session.store env now outcome) (weighed : List Json) (written : Bool) :
    Unframed crypto chain
      (session.finish outcome (.consistency env outcome.status) weighed written) := by
  have roots : ∀ other, .root other .divergence ∈
      (session.finish outcome (.consistency env outcome.status) weighed written).answers →
        ¬Honest crypto chain other := by
    intro other member
    rcases Session.mem_finish member with old | new
    · exact good.roots other old
    · cases new
  have claims (calm : outcome.status = .inconsistent → ¬Honest crypto chain env) :
      ∀ other, .consistency other .inconsistent ∈
        (session.finish outcome (.consistency env outcome.status) weighed written).answers →
          ¬Honest crypto chain other := by
    intro other member
    rcases Session.mem_finish member with old | new
    · exact good.claims other old
    · obtain ⟨rfl, status⟩ := Answer.consistency.inj new
      exact calm status.symm
  cases answered with
  | rejected reason => exact ⟨good.held, good.clear, roots, claims (by simp)⟩
  | consistent claim reason passed => exact ⟨good.held, good.clear, roots, claims (by simp)⟩
  | inconsistent claim reason failed evidence detail =>
    have dishonest : ¬Honest crypto chain env := by
      intro honest
      obtain ⟨same, state, oldCount, ts, made⟩ := honest.signedClaim claim
      rw [same, honestClaim_consistent made claim (fun _ held => good.held _ _ held)
        (fun _ held => good.held _ _ held)] at failed
      cases failed
    have elsewhere := (origin_of_claim sent apart claim).resolve_left dishonest
    refine ⟨good.held, ?_, roots, claims (fun _ => dishonest)⟩
    rw [Session.finish, ReplicaStore.divergence_addEvidence, if_neg elsewhere]
    exact good.clear

theorem unframed_receive (session : Session) (delivery : Delivery)
    (good : Unframed crypto chain session) (sent : Admissible crypto chain delivery) :
    Unframed crypto chain (session.receive crypto delivery) := by
  obtain ⟨message, now, written⟩ := delivery
  obtain ⟨sender, apart⟩ := sent
  cases message with
  | root env =>
    cases answered : session.store.accept crypto env now with
    | error e => simpa [Session.receive, answered] using good
    | ok outcome =>
      simp only [Session.receive, answered]
      exact unframed_accept good sender apart (accept_cases answered) _ _
  | consistency env =>
    cases answered : session.store.recordConsistency crypto env now with
    | error e => simpa [Session.receive, answered] using good
    | ok outcome =>
      simp only [Session.receive, answered]
      exact unframed_record good sender apart (record_cases answered) _ _

/-- An honest origin is never framed, whatever is delivered in whatever order. -/
theorem honest_never_framed (deliveries : List Delivery)
    (sent : ∀ delivery ∈ deliveries, Admissible crypto chain delivery) :
    (Session.after crypto deliveries).store.divergence (chain.nodeId crypto) = [] ∧
      ∀ env, Honest crypto chain env →
        .root env .divergence ∉ (Session.after crypto deliveries).answers ∧
        .consistency env .inconsistent ∉ (Session.after crypto deliveries).answers := by
  have start : Unframed crypto chain Session.fresh :=
    ⟨by simp [Session.fresh], rfl, by simp [Session.fresh], by simp [Session.fresh]⟩
  have good := Run.invariant_of_forall unframed_receive start sent
  exact ⟨good.clear, fun env honest =>
    ⟨fun member => good.roots env member honest, fun member => good.claims env member honest⟩⟩

/-- One record, under one of the sample keys. -/
def sampleChain (n : UInt8) : WitnessChain where
  sk := .sample n
  records := [.obj [("this_hash", .str "aa")]]

/-- The owner's root, and one that another key made. -/
theorem honest_never_framed_sample :
    ∃ deliveries : List Delivery, deliveries.length = 2 ∧
      (Session.after Crypto.sample deliveries).store.divergence
        ((sampleChain 1).nodeId Crypto.sample) = [] ∧
      ∀ env, Honest Crypto.sample (sampleChain 1) env →
        .root env .divergence ∉ (Session.after Crypto.sample deliveries).answers ∧
        .consistency env .inconsistent ∉ (Session.after Crypto.sample deliveries).answers := by
  have ownOk : (makeSignedRoot Crypto.sample (upTo (sampleChain 1) 1) (.sample 1)
    .zero).isOk = true := by decide +kernel
  have otherOk : (makeSignedRoot Crypto.sample (upTo (sampleChain 2) 1) (.sample 2)
    .zero).isOk = true := by decide +kernel
  obtain ⟨own, ownMade⟩ := Py.exists_of_isOk ownOk
  obtain ⟨other, otherMade⟩ := Py.exists_of_isOk otherOk
  obtain ⟨_, _, _, ownSealed⟩ := makeSignedRoot_ok ownMade
  obtain ⟨_, _, _, otherSealed⟩ := makeSignedRoot_ok otherMade
  obtain ⟨_, _, ownRead⟩ := readEnvelope_seal ownSealed
  obtain ⟨_, _, otherRead⟩ := readEnvelope_seal otherSealed
  refine ⟨[⟨.root own, .zero, true⟩, ⟨.root other, .zero, true⟩], rfl,
    honest_never_framed _ ?_⟩
  simp only [List.mem_cons, List.not_mem_nil, or_false, forall_eq_or_imp, forall_eq]
  constructor
  · refine ⟨.inl (.root 1 .zero ownMade), ?_⟩
    intro body pub sig read _
    exact (Prod.mk.inj (Prod.mk.inj (Except.ok.inj (read.symm.trans ownRead))).2).1
  · constructor
    · right
      intro body sig data read _
      have pub := (Prod.mk.inj (Prod.mk.inj (Except.ok.inj (read.symm.trans otherRead))).2).1
      exact absurd pub (by decide)
    · intro body pub sig read same
      have key := (Prod.mk.inj (Prod.mk.inj (Except.ok.inj (read.symm.trans otherRead))).2).1
      rw [key] at same
      exact absurd same (by decide +kernel)

end JJDai.Replication
