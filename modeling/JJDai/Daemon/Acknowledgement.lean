import JJDai.Daemon.ReceiveRoot

/-! When an acknowledgement means stored and witnessed. A retry is answered from
memory, which a call changes before its two writes. -/

namespace JJDai.Daemon

open PyText Replication

/-- The fields of an acknowledgement beside those of the root it is about. -/
def ackFields : List (Str × Str) :=
  [("origin_node", "node_id"), ("count", "count"), ("root", "root"), ("head_hash", "head_hash")]

/-- The acknowledgement is over exactly what the envelope carries. -/
def Names (ack env : Json) : Prop :=
  ∃ a b, subscript ack "body" = .ok (.obj a) ∧ subscript env "body" = .ok (.obj b) ∧
    ∀ pair ∈ ackFields, ∃ value, Dict.get? a pair.1 = some value ∧ Dict.get? b pair.2 = some value

/-- The chain has a `PEER_ROOT` record of the envelope's origin, count and root. -/
def Witnessed (chain : WitnessChain) (env : Json) : Prop :=
  ∃ record ∈ chain.records, ∃ digest, subscript record "kind" = .ok (.str "PEER_ROOT") ∧
    subscript record "semantic_digest" = .ok digest ∧
    subscript digest "origin" = .ok (fieldOf env "node_id") ∧
    subscript digest "count" = .ok (fieldOf env "count") ∧
    subscript digest "root" = .ok (fieldOf env "root")

def Backed (session : NodeSession) (ack : Json) : Prop :=
  ∃ env, rootLine env ∈ session.lines ∧ Names ack env ∧ Witnessed session.node.chain env

variable (crypto : Crypto)

/-- The arriving root is not held yet, or the call that stored it returned and the
held envelope has the same count, root and head hash. -/
def RetriesCompleted (session : NodeSession) (attempt : Attempt) : Prop :=
  ∀ origin count current, FiledAt crypto origin count attempt.env →
    Dict.get? (session.node.replicaStore.held origin) count = some current →
    Json.pyEq (fieldOf current "root") (fieldOf attempt.env "root") →
    current ∈ session.completed ∧
      ∀ key ∈ (["count", "root", "head_hash"] : List Str), fieldOf current key = fieldOf attempt.env key

variable {crypto} {env ack other : Json}

theorem Names.transfer (named : Names ack env) {ack' : Json} (known : Names ack' other)
    (same : ∀ pair ∈ ackFields, fieldOf other pair.2 = fieldOf env pair.2) : Names ack other := by
  obtain ⟨a, b, readA, readB, fields⟩ := named
  obtain ⟨_, c, _, readC, present⟩ := known
  refine ⟨a, c, readA, readC, fun pair member => ?_⟩
  obtain ⟨value, foundA, foundB⟩ := fields pair member
  obtain ⟨held, _, foundC⟩ := present pair member
  have equal := same pair member
  rw [fieldOf_of_subscript readC, fieldOf_of_subscript readB, foundC, foundB] at equal
  exact ⟨value, foundA, foundC.trans (congrArg some equal)⟩

theorem makeAck_names {sk : SigningKey} {ts : PyFloat}
    (made : makeAck crypto env sk ts = .ok ack) : Names ack env := by
  simp only [makeAck, bind, Py.bind_ok] at made
  obtain ⟨b, read, origin, originRead, count, countRead, root, rootRead, head, headRead, made⟩ := made
  obtain ⟨b, rfl⟩ := obj_of_subscript originRead
  obtain ⟨data, _, signed⟩ := readEnvelope_seal made
  refine ⟨_, b, subscript_of_readEnvelope signed, read, ?_⟩
  intro pair member
  simp only [ackFields, List.mem_cons, List.not_mem_nil, or_false] at member
  rcases member with rfl | rfl | rfl | rfl
  · exact ⟨origin, rfl, subscript_obj.mp originRead⟩
  · exact ⟨count, rfl, subscript_obj.mp countRead⟩
  · exact ⟨root, rfl, subscript_obj.mp rootRead⟩
  · exact ⟨head, rfl, subscript_obj.mp headRead⟩

theorem Witnessed.mono {chain later : WitnessChain} (seen : Witnessed chain env)
    (grown : chain.records ⊆ later.records) : Witnessed later env := by
  obtain ⟨record, member, rest⟩ := seen
  exact ⟨record, grown member, rest⟩

theorem witnessRoot_adds {node after : Node} {attempt : Attempt}
    (made : node.witnessRoot crypto attempt = .ok after) :
    Witnessed after.chain attempt.env ∧ node.chain.records ⊆ after.chain.records ∧
      after.replicaStore = node.replicaStore := by
  simp only [Node.witnessRoot, bind, Py.bind_ok] at made
  obtain ⟨b, read, origin, originRead, count, countRead, root, rootRead, alg, _, appended, added,
    made⟩ := made
  obtain ⟨b, rfl⟩ := obj_of_subscript originRead
  split at made
  · cases made
  · obtain rfl := Except.ok.inj made
    obtain ⟨grown, kind, digest⟩ := WitnessChain.append_adds added
    have field := fieldOf_of_subscript read
    refine ⟨⟨appended.record, by simp [grown], _, kind, digest, ?_, ?_, ?_⟩, by simp [grown], rfl⟩
    · rw [field, subscript_obj.mp originRead]; rfl
    · rw [field, subscript_obj.mp countRead]; rfl
    · rw [field, subscript_obj.mp rootRead]; rfl

variable (crypto) in
/-- The ways a call ends: with no acknowledgement, with one for a root that it
stored and witnessed, or with one for a root already held. -/
inductive Receives (node : Node) (attempt : Attempt) : Received → Prop
  | silent (received : Received) (grown : node.chain.records ⊆ received.node.chain.records)
      (held : ∀ origin count current,
        Dict.get? (received.node.replicaStore.held origin) count = some current →
        Dict.get? (node.replicaStore.held origin) count = some current ∨
          FiledAt crypto origin count attempt.env ∧ current = attempt.env)
      (quiet : received.ack = none) :
      Receives node attempt received
  | stored (root : SignedRoot crypto attempt.env) (after : Node) (response : Response) (ack : Json)
      (grown : node.chain.records ⊆ after.chain.records)
      (held : after.replicaStore = node.replicaStore.hold root.origin root.count attempt.env)
      (named : Names ack attempt.env) (witnessed : Witnessed after.chain attempt.env)
      (given : response.ack = some ack) :
      Receives node attempt ⟨after, some (rootLine attempt.env), .ok response⟩
  | duplicate (root : SignedRoot crypto attempt.env) (response : Response) (ack current : Json)
      (held : Dict.get? (node.replicaStore.held root.origin) root.count = some current)
      (same : Json.pyEq (fieldOf current "root") (fieldOf attempt.env "root"))
      (named : Names ack attempt.env) (given : response.ack = some ack) :
      Receives node attempt ⟨node, none, .ok response⟩

theorem Receives.held {node : Node} {attempt : Attempt} {received : Received}
    (ends : Receives crypto node attempt received) {origin : Str} {count : Int} {current : Json}
    (found : Dict.get? (received.node.replicaStore.held origin) count = some current) :
    Dict.get? (node.replicaStore.held origin) count = some current ∨
      FiledAt crypto origin count attempt.env ∧ current = attempt.env := by
  cases ends with
  | silent _ _ held _ => exact held origin count current found
  | stored root after _ _ _ held _ _ _ =>
    rw [held] at found
    rcases ReplicaStore.held_hold_cases found with old | ⟨rfl, rfl, rfl⟩
    · exact .inl old
    · exact .inr ⟨root.filed, rfl⟩
  | duplicate => exact .inl found

theorem acknowledge_ack {node : Node} {status : Str} {response : Response}
    (made : node.acknowledge env ack status = .ok response) : response.ack = some ack := by
  simp only [Node.acknowledge, bind, Py.bind_ok] at made
  obtain ⟨_, _, _, _, _, _, _, _, _, _, made⟩ := made
  obtain rfl := Except.ok.inj made
  rfl

theorem refuse_ack {node : Node} {response : Response}
    (refused : node.refuse env = .ok (some response)) : response.ack = none := by
  cases env with
  | obj fields =>
    simp only [Node.refuse] at refused
    split at refused
    · cases refused
    · simp only [bind, Py.bind_ok] at refused
      obtain ⟨_, _, _, _, friend, _, refused⟩ := refused
      split at refused
      · cases refused
      · obtain rfl := Option.some.inj (Except.ok.inj refused)
        rfl
  | _ =>
    obtain rfl := Option.some.inj (Except.ok.inj refused)
    rfl

variable (crypto) in
theorem divergence_ack (node after : Node) (line : Option Json) (attempt : Attempt) (reason : Str) :
    Received.ack ⟨node, line, (after.answerRoot crypto attempt .divergence reason).2⟩ = none := by
  simp only [Received.ack, Node.answerRoot]
  cases after.lastEvidence attempt.env with
  | error e => rfl
  | ok evidence => rfl

theorem stored_cases (node after : Node) {attempt : Attempt} (root : SignedRoot crypto attempt.env)
    (chain : after.chain = node.chain)
    (store : after.replicaStore = node.replicaStore.hold root.origin root.count attempt.env)
    (reason : Str) :
    Receives crypto node attempt
      (if !attempt.journalWritten then ⟨after, none, raise .osError⟩
      else ⟨(after.answerRoot crypto attempt .stored reason).1, some (rootLine attempt.env),
        (after.answerRoot crypto attempt .stored reason).2⟩) := by
  have raised : ∀ later line e, node.chain.records ⊆ later.chain.records →
      later.replicaStore = after.replicaStore →
      Receives crypto node attempt ⟨later, line, .error e⟩ := by
    intro later line e grown same
    refine .silent _ grown ?_ rfl
    intro origin count current found
    rw [same, store] at found
    rcases ReplicaStore.held_hold_cases found with old | ⟨rfl, rfl, rfl⟩
    · exact .inl old
    · exact .inr ⟨root.filed, rfl⟩
  have kept : node.chain.records ⊆ after.chain.records := by rw [chain]; exact List.Subset.refl _
  split
  · exact raised after none _ kept rfl
  · unfold Node.answerRoot
    cases acked : makeAck crypto attempt.env after.sk attempt.now with
    | error e => exact raised after _ e kept rfl
    | ok ack =>
      cases witnessed : after.witnessRoot crypto attempt with
      | error e => exact raised after _ e kept rfl
      | ok later =>
        obtain ⟨record, grown, same⟩ := witnessRoot_adds witnessed
        have later_grown := List.Subset.trans kept grown
        cases answered : later.acknowledge attempt.env ack (Node.statusText .stored) with
        | error e => simpa [answered] using raised later _ e later_grown same
        | ok response =>
          simp only [answered]
          exact .stored root later response ack later_grown (same.trans store) (makeAck_names acked)
            record (acknowledge_ack answered)

theorem receiveRoot_cases (node : Node) (attempt : Attempt) :
    Receives crypto node attempt (node.receiveRoot crypto attempt) := by
  unfold Node.receiveRoot
  cases refused : node.refuse attempt.env with
  | error e => exact .silent _ (List.Subset.refl _) (fun _ _ _ => .inl) rfl
  | ok refusal =>
    cases refusal with
    | some response =>
      exact .silent _ (List.Subset.refl _) (fun _ _ _ => .inl) (refuse_ack refused)
    | none =>
      cases accepted : node.replicaStore.accept crypto attempt.env attempt.now with
      | error e => exact .silent _ (List.Subset.refl _) (fun _ _ _ => .inl) rfl
      | ok outcome =>
        have silent : ∀ line answer, (∀ origin, outcome.store.held origin =
            node.replicaStore.held origin) → Received.ack ⟨node, line, answer⟩ = none →
              Receives crypto node attempt
                ⟨{ node with replicaStore := outcome.store }, line, answer⟩ := by
          intro line answer same quiet
          refine .silent _ (List.Subset.refl _) ?_ quiet
          intro origin count current found
          exact .inl (same origin ▸ found)
        cases accept_cases accepted with
        | rejected reason => exact silent _ _ (fun _ => rfl) rfl
        | duplicate root rooted current held same =>
          simp only [Option.isSome_none, Bool.false_and, Bool.false_eq_true, if_false,
            Node.answerRoot, bind]
          cases acked : makeAck crypto attempt.env node.sk attempt.now with
          | error e => exact silent _ _ (fun _ => rfl) rfl
          | ok ack =>
            simp only [Except.bind]
            cases answered : node.acknowledge attempt.env ack (Node.statusText .duplicate) with
            | error e => exact silent _ _ (fun _ => rfl) rfl
            | ok response =>
              exact .duplicate root response ack current held same (makeAck_names acked)
                (acknowledge_ack answered)
        | upgrade root rooted current held other alg =>
          exact stored_cases node { node with
            replicaStore := node.replicaStore.hold root.origin root.count attempt.env } root rfl rfl
            "alg upgrade at same count (not divergence)"
        | divergence root rooted current held other alg =>
          simp only [Option.isSome_some, Bool.true_and, Node.answerRoot]
          cases attempt.journalWritten with
          | false => exact silent none (raise .osError) (fun _ => rfl) rfl
          | true =>
            exact silent _ _ (fun _ => rfl) (divergence_ack crypto _ _ _ attempt _)
        | stale root rooted absent late reason =>
          exact silent _ _ (fun _ => rfl) rfl
        | fresh root rooted absent newest =>
          exact stored_cases node { node with
            replicaStore := node.replicaStore.hold root.origin root.count attempt.env } root rfl rfl
            "ok"

variable (crypto) in
/-- Every held root is a verified one, and every call that stored one and returned
has left both of its traces. -/
structure Settled (session : NodeSession) : Prop where
  held : ∀ origin count current,
    Dict.get? (session.node.replicaStore.held origin) count = some current →
    FiledAt crypto origin count current
  completed : ∀ env ∈ session.completed, rootLine env ∈ session.lines ∧
    Witnessed session.node.chain env ∧ ∃ ack, Names ack env
  backed : ∀ ack ∈ session.acks, Backed session ack

theorem settled_fresh (sk : SigningKey) (requireAdmission : Bool) (peerRegistry : PeerRegistry)
    (segmentStore : SegmentStore) (chain : WitnessChain) :
    Settled crypto (.fresh sk requireAdmission peerRegistry segmentStore chain) where
  held := by simp [NodeSession.fresh]
  completed := by simp [NodeSession.fresh]
  backed := by simp [NodeSession.fresh]

theorem Backed.mono {session later : NodeSession} (backed : Backed session ack)
    (lines : session.lines ⊆ later.lines)
    (records : session.node.chain.records ⊆ later.node.chain.records) : Backed later ack := by
  obtain ⟨env, line, named, seen⟩ := backed
  exact ⟨env, lines line, named, seen.mono records⟩

theorem settled_receive (session : NodeSession) (attempt : Attempt) (good : Settled crypto session)
    (retries : RetriesCompleted crypto session attempt) :
    Settled crypto (session.receive crypto attempt) := by
  have ends := @receiveRoot_cases crypto session.node attempt
  have filed : ∀ origin count current, Dict.get? ((session.receive crypto
      attempt).node.replicaStore.held origin) count = some current →
      FiledAt crypto origin count current := by
    intro origin count current found
    rcases ends.held found with old | ⟨filed, rfl⟩
    · exact good.held origin count current old
    · exact filed
  unfold NodeSession.receive at filed ⊢
  generalize session.node.receiveRoot crypto attempt = received at ends filed ⊢
  cases ends with
  | silent _ grown held quiet =>
    simp only [quiet, Option.isSome_none, Bool.and_false, Bool.false_eq_true, if_false,
      Option.toList_none, List.append_nil]
    refine ⟨filed, ?_, ?_⟩
    · intro env member
      obtain ⟨line, seen, named⟩ := good.completed env member
      exact ⟨List.mem_append_left _ line, seen.mono grown, named⟩
    · intro ack member
      exact (good.backed ack member).mono (List.subset_append_left _ _) grown
  | stored root after response ack grown held named witnessed given =>
    simp only [Received.ack, given, Option.isSome_some, Bool.and_true, if_true, Option.toList_some]
    have line : rootLine attempt.env ∈ session.lines ++ [rootLine attempt.env] := by simp
    refine ⟨filed, ?_, ?_⟩
    · intro env member
      rcases List.mem_append.mp member with old | new
      · obtain ⟨line, seen, named⟩ := good.completed env old
        exact ⟨List.mem_append_left _ line, seen.mono grown, named⟩
      · obtain rfl := List.mem_singleton.mp new
        exact ⟨line, witnessed, ack, named⟩
    · intro given member
      rcases List.mem_append.mp member with old | new
      · exact (good.backed given old).mono (List.subset_append_left _ _) grown
      · obtain rfl := List.mem_singleton.mp new
        exact ⟨attempt.env, line, named, witnessed⟩
  | duplicate root response ack current held same named given =>
    simp only [Received.ack, given, Option.isSome_none, Bool.false_and, Bool.false_eq_true, if_false,
      Option.toList_none, Option.toList_some, List.append_nil]
    -- The held envelope left both traces, and carries what is acknowledged.
    obtain ⟨completed, fields⟩ := retries _ _ current root.filed held same
    obtain ⟨line, seen, known, knownNamed⟩ := good.completed current completed
    obtain ⟨filed, origin, _⟩ := good.held _ _ current held
    have node : fieldOf current "node_id" = fieldOf attempt.env "node_id" := by
      rw [filed.field, root.field, filed.node, root.node]
      exact congrArg Json.str origin
    have carried : ∀ pair ∈ ackFields, fieldOf current pair.2 = fieldOf attempt.env pair.2 := by
      intro pair member
      simp only [ackFields, List.mem_cons, List.not_mem_nil, or_false] at member
      rcases member with rfl | rfl | rfl | rfl
      · exact node
      · exact fields _ (by simp)
      · exact fields _ (by simp)
      · exact fields _ (by simp)
    refine ⟨good.held, good.completed, ?_⟩
    intro given member
    rcases List.mem_append.mp member with old | new
    · exact (good.backed given old).mono (List.Subset.refl _) (List.Subset.refl _)
    · obtain rfl := List.mem_singleton.mp new
      exact ⟨current, line, named.transfer knownNamed carried, seen⟩

variable (crypto) in
/-- Every acknowledgement of a run means stored and witnessed. -/
theorem acks_backed {sk : SigningKey} {requireAdmission : Bool} {peerRegistry : PeerRegistry}
    {segmentStore : SegmentStore} {chain : WitnessChain} {attempts : List Attempt}
    (retries : Run.Along (NodeSession.receive crypto) (RetriesCompleted crypto)
      (.fresh sk requireAdmission peerRegistry segmentStore chain) attempts) :
    ∀ ack ∈ (Run.run (NodeSession.receive crypto)
      (.fresh sk requireAdmission peerRegistry segmentStore chain) attempts).acks,
      Backed (Run.run (NodeSession.receive crypto)
        (.fresh sk requireAdmission peerRegistry segmentStore chain) attempts) ack :=
  (Run.invariant settled_receive (settled_fresh sk requireAdmission peerRegistry segmentStore chain)
    retries).backed

theorem RetriesCompleted.again {session : NodeSession} {attempt : Attempt}
    (allowed : RetriesCompleted crypto session attempt)
    (acked : (session.node.receiveRoot crypto attempt).ack.isSome) :
    RetriesCompleted crypto (session.receive crypto attempt) attempt := by
  have ends := @receiveRoot_cases crypto session.node attempt
  simp only [NodeSession.receive]
  generalize session.node.receiveRoot crypto attempt = received at ends acked ⊢
  intro origin count current filed found same
  cases ends with
  | silent _ _ _ quiet => simp [quiet] at acked
  | stored root after response ack grown held named witnessed given =>
    simp only [acked, Option.isSome_some, Bool.and_self, if_true]
    rw [held] at found
    rcases ReplicaStore.held_hold_cases found with old | ⟨rfl, _, _⟩
    · obtain ⟨member, fields⟩ := allowed origin count current filed old same
      exact ⟨List.mem_append_left _ member, fields⟩
    · exact ⟨List.mem_append_right _ (List.mem_singleton_self _), fun _ _ => rfl⟩
  | duplicate => exact allowed origin count current filed found same

/-- A call that carries a root of the sample origin. -/
def sampleAttempt (root : String) (journalWritten : Bool) : Attempt where
  env := sampleRoot "rfc6962" root
  now := .zero
  timestamp := "2026-01-01T00:00:00Z"
  journalWritten := journalWritten
  chainWritten := true

/-- A node with an empty chain and no admission gate. -/
def sampleSession : NodeSession :=
  .fresh (.sample 2) false {} {} { sk := .sample 2, records := [] }

/-- The journal write of the root raises, and the peer tries again. -/
def failedWrite : List Attempt := [sampleAttempt "aa" false, sampleAttempt "aa" true]

private theorem attempts_told :
    ((sampleSession.node.receiveRoot Crypto.sample (sampleAttempt "aa" true)).ack.isSome ∧
      (Run.run (NodeSession.receive Crypto.sample) sampleSession
        [sampleAttempt "aa" true, sampleAttempt "aa" true]).acks.length = 2) ∧
    ((Run.run (NodeSession.receive Crypto.sample) sampleSession failedWrite).acks.length = 1 ∧
      (Run.run (NodeSession.receive Crypto.sample) sampleSession failedWrite).lines = []) := by
  decide +kernel

/-- A root, and its retry. -/
theorem acks_backed_sample : ∃ ack ∈ (Run.run (NodeSession.receive Crypto.sample) sampleSession
    [sampleAttempt "aa" true, sampleAttempt "aa" true]).acks,
    Backed (Run.run (NodeSession.receive Crypto.sample) sampleSession
      [sampleAttempt "aa" true, sampleAttempt "aa" true]) ack := by
  have first : RetriesCompleted Crypto.sample sampleSession (sampleAttempt "aa" true) := by
    intro origin count current _ held
    cases held
  obtain ⟨⟨acked, count⟩, _⟩ := attempts_told
  obtain ⟨ack, member⟩ := List.exists_mem_of_length_pos (count ▸ Nat.two_pos)
  have backed : ∀ ack ∈ (Run.run (NodeSession.receive Crypto.sample) sampleSession
      [sampleAttempt "aa" true, sampleAttempt "aa" true]).acks, Backed (Run.run (NodeSession.receive Crypto.sample)
        sampleSession [sampleAttempt "aa" true, sampleAttempt "aa" true]) ack :=
    acks_backed Crypto.sample ⟨first, first.again acked, trivial⟩
  exact ⟨ack, member, backed ack member⟩

theorem not_acks_backed_failedWrite : ¬∀ ack ∈ (Run.run (NodeSession.receive Crypto.sample)
    sampleSession failedWrite).acks,
    Backed (Run.run (NodeSession.receive Crypto.sample) sampleSession failedWrite) ack := by
  intro backed
  obtain ⟨_, answered, lines⟩ := attempts_told
  obtain ⟨ack, only⟩ := List.length_eq_one_iff.mp answered
  obtain ⟨env, line, _⟩ := backed ack (by rw [only]; exact List.mem_cons_self)
  rw [lines] at line
  cases line

end JJDai.Daemon
