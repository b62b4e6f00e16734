import JJDai.Primitive.VerifiedRecord
import JJDai.Primitive.WritableRecord
import JJDai.Replication.HonestOrigin
import JJDai.Replication.Links

/-! What a store asks its origin for, and what the origin can answer: the pair wanted is fixed when
a root is stored, the proof is made against the chain of a later moment. -/

namespace JJDai.Replication

open PyText Canonical Merkle

def serveConsistency (crypto : Crypto) (chain : WitnessChain) (oldCount : Int) (ts : PyFloat) : Py (Nat × Json) :=
  match makeConsistency crypto chain chain.sk oldCount ts with
  | .ok env => return (200, env)
  | .error e =>
    if e.kind = .replicationError then
      return (400, .obj [("error", .str "400 BAD_RANGE"), ("detail", .str e.text)])
    else .error e

/-- The origin answers the request for this pair, the store records the answer as consistent, and
asks for something else from then on. -/
def Supplied (crypto : Crypto) (store : ReplicaStore) (chain : WitnessChain) (old new : Int) (ts now : PyFloat) : Prop :=
  ∃ env outcome, serveConsistency crypto chain old ts = .ok (200, env) ∧
    store.recordConsistency crypto env now = .ok outcome ∧ outcome.status = .consistent ∧
    outcome.store.consistencyWanted (chain.nodeId crypto) ≠ .ok (some (old, new))

variable {crypto : Crypto} {chain : WitnessChain}

theorem serveConsistency_ok {oldCount : Int} {ts : PyFloat} {env : Json} :
    serveConsistency crypto chain oldCount ts = .ok (200, env) ↔
      makeConsistency crypto chain chain.sk oldCount ts = .ok env := by
  unfold serveConsistency
  cases made : makeConsistency crypto chain chain.sk oldCount ts with
  | ok other => simp [pure, Except.pure]
  | error e =>
    by_cases refused : e.kind = .replicationError
    · simp [refused, pure, Except.pure]
    · simp [refused]

section Wanted

variable {store : ReplicaStore} {origin : Str} {old new : Int}

theorem consistencyWanted_some : store.consistencyWanted origin = .ok (some (old, new)) ↔
    ∃ v2 older, ReplicaStore.rfcCounts (store.held origin) = .ok v2 ∧
      (v2.insertionSort (· ≤ ·)).reverse = new :: old :: older ∧ (old, new) ∉ store.pairs origin := by
  unfold ReplicaStore.consistencyWanted
  cases counts : ReplicaStore.rfcCounts (store.held origin) with
  | error e => simp [bind, Except.bind]
  | ok v2 =>
    simp only [bind, Except.bind, Except.ok.injEq, exists_and_left, exists_eq_left']
    match (v2.insertionSort (· ≤ ·)).reverse with
    | [] => simp [pure, Except.pure]
    | [_] => simp [pure, Except.pure]
    | newest :: before :: older =>
      by_cases known : (before, newest) ∈ store.pairs origin
      · simp only [known, if_true, pure, Except.pure, Except.ok.injEq, reduceCtorEq, List.cons.injEq, false_iff]
        rintro ⟨_, ⟨rfl, rfl, _⟩, absent⟩
        exact absent known
      · simp only [known, if_false, pure, Except.pure, Except.ok.injEq, Option.some.injEq, Prod.mk.injEq,
          List.cons.injEq]
        constructor
        · rintro ⟨rfl, rfl⟩
          exact ⟨older, ⟨rfl, rfl, rfl⟩, known⟩
        · rintro ⟨_, ⟨rfl, rfl, _⟩, _⟩
          exact ⟨rfl, rfl⟩

theorem wanted_le (wanted : store.consistencyWanted origin = .ok (some (old, new))) : old ≤ new := by
  obtain ⟨v2, older, _, sorted, _⟩ := consistencyWanted_some.mp wanted
  have order : (v2.insertionSort (· ≤ ·)).reverse.Pairwise (fun a b => b ≤ a) :=
    List.pairwise_reverse.mpr (List.pairwise_insertionSort (· ≤ ·) v2)
  rw [sorted] at order
  exact (List.pairwise_cons.mp order).1 old List.mem_cons_self

theorem wanted_addPair (wanted : store.consistencyWanted origin = .ok (some (old, new))) (a b : Int) :
    (store.addPair origin a b).consistencyWanted origin = .ok (some (old, new)) ↔ (a, b) ≠ (old, new) := by
  obtain ⟨v2, older, counts, sorted, absent⟩ := consistencyWanted_some.mp wanted
  rw [consistencyWanted_some, ReplicaStore.held_addPair, ReplicaStore.pairs_addPair, if_pos rfl, List.mem_insert_iff]
  constructor
  · rintro ⟨_, _, _, _, fresh⟩ same
    exact fresh (.inl same.symm)
  · intro different
    refine ⟨v2, older, counts, sorted, ?_⟩
    rintro (same | known)
    · exact different same.symm
    · exact absent known

end Wanted

theorem consistencyProof_hex {leaves : List Bytes} {m : Int} (positive : 0 < m) (le : m ≤ leaves.length) :
    ∃ digests : List Bytes, consistencyProof crypto leaves m = .ok (digests.map hexJson) := by
  by_cases all : m = leaves.length
  · exact ⟨[], by rw [consistencyProof, if_pos ⟨positive, le⟩, if_pos all]; rfl⟩
  · refine ⟨(HashTree.subproof m.toNat (leafTrees leaves) true).map (HashTree.digest crypto.H), ?_⟩
    rw [consistencyProof, if_pos ⟨positive, le⟩, if_neg all, subproof_eq crypto true (by omega) (by omega), List.map_map]
    rfl

theorem makeConsistency_inside {leaves : List Bytes} (hashed : chainLeaves chain = .ok leaves) {oldCount : Int}
    (positive : 0 < oldCount) (le : oldCount ≤ leaves.length) (clock : Decimal) :
    ∃ env, makeConsistency crypto chain chain.sk oldCount (.finite clock) = .ok env := by
  obtain ⟨digests, proved⟩ := @consistencyProof_hex crypto leaves oldCount positive le
  have hex (bytes : Bytes) : writable (hexJson bytes) := encodable_toHex bytes
  have sound : writable (consistencyBody (chain.nodeId crypto) oldCount
      (hexJson (treeHead crypto (leaves.take oldCount.toNat))) leaves.length (hexJson (treeHead crypto leaves))
      (digests.map hexJson) (.finite clock)) := by
    have name : writable (.str (chain.nodeId crypto)) := encodable_nodeId crypto _
    have proof : writable (.arr (digests.map hexJson)) := by
      rw [writable_arr, List.forall_mem_map]
      exact fun digest _ => hex digest
    have number (n : Int) : writable (.int n) := rfl
    have time : writable (.float (.finite clock)) := rfl
    rw [consistencyBody, writable_obj]
    simp only [List.mem_cons, List.not_mem_nil, or_false, forall_eq_or_imp, forall_eq]
    simp only [name, proof, hex, number, time, and_true]
    decide
  obtain ⟨data, text⟩ := WitnessChain.canonical_ok sound
  have inside : ¬¬(0 < oldCount ∧ oldCount ≤ leaves.length) := not_not.mpr ⟨positive, le⟩
  simp only [makeConsistency, hashed, inside, if_false, mthRoot_eq, proved, sealEnvelope, text, bind, Except.bind]
  exact ⟨_, rfl⟩

theorem claim_of_made (lawful : crypto.Lawful) {oldCount : Int} {ts : PyFloat} {env : Json}
    (made : makeConsistency crypto chain chain.sk oldCount ts = .ok env) :
    ∃ claim : SignedClaim crypto env, claim.origin = chain.nodeId crypto ∧ claim.old = oldCount ∧
      claim.new = chain.records.length := by
  obtain ⟨leaves, proof, hashed, positive, le, _, sealed⟩ := makeConsistency_ok made
  obtain ⟨data, text, read⟩ := readEnvelope_seal sealed
  exact ⟨⟨_, _, _, _, _, _, read, rfl, rfl, text, lawful _ _, rfl, rfl, positive, le⟩, rfl, rfl,
    (congrArg Nat.cast (length_chainLeaves hashed)).symm⟩

/-- In every state that honest envelopes lead to, the pair wanted is supplied exactly when its older
root is not that of the empty chain and the chain has not grown past its newer one. -/
theorem consistency_supplied_iff {crypto : Crypto} {chain : WitnessChain} {leaves : List Bytes} {deliveries : List Delivery}
    {old new : Int} (lawful : crypto.Lawful) (hashed : chainLeaves chain = .ok leaves)
    (sent : ∀ delivery ∈ deliveries, Admissible crypto chain delivery)
    (wanted : (Session.after crypto deliveries).store.consistencyWanted (chain.nodeId crypto) = .ok (some (old, new)))
    (clock : Decimal) (now : PyFloat) :
    Supplied crypto (Session.after crypto deliveries).store chain old new (.finite clock) now ↔
      0 < old ∧ (chain.records.length : Int) = new := by
  have start : Unframed crypto chain Session.fresh :=
    ⟨by simp [Session.fresh], rfl, by simp [Session.fresh], by simp [Session.fresh]⟩
  have good := Run.invariant_of_forall unframed_receive start sent
  change Unframed crypto chain (Session.after crypto deliveries) at good
  constructor
  · rintro ⟨env, outcome, served, answered, status, satisfied⟩
    have made := serveConsistency_ok.mp served
    obtain ⟨_, _, _, positive, _⟩ := makeConsistency_ok made
    obtain ⟨claim, origin, oldSame, newSame⟩ := claim_of_made lawful made
    refine ⟨positive, ?_⟩
    by_contra grown
    have different : (claim.old, claim.new) ≠ (old, new) := by
      intro same
      exact grown (newSame.symm.trans (Prod.mk.inj same).2)
    cases record_cases answered with
    | rejected reason => cases status
    | inconsistent other reason failed evidence detail => cases status
    | consistent other reason passed =>
      obtain ⟨sameOrigin, sameOld, sameNew⟩ := other.unique claim
      rw [sameOrigin, sameOld, sameNew, origin] at satisfied
      exact satisfied ((wanted_addPair wanted _ _).mpr different)
  · rintro ⟨positive, length⟩
    have size := length_chainLeaves hashed
    have inside : old ≤ leaves.length := by
      have le := wanted_le wanted
      omega
    obtain ⟨env, made⟩ := @makeConsistency_inside crypto chain leaves hashed old positive inside clock
    obtain ⟨claim, origin, oldSame, newSame⟩ := claim_of_made lawful made
    have whole : upTo chain chain.records.length = chain := by
      rw [upTo, List.take_length]
    have passed := @honestClaim_consistent crypto chain env chain.records.length old (.finite clock)
      (by rw [whole]; exact made) claim
      (Dict.get? ((Session.after crypto deliveries).store.held claim.origin) claim.old)
      (Dict.get? ((Session.after crypto deliveries).store.held claim.origin) claim.new)
      (fun pin held => good.held _ _ (origin ▸ held)) (fun pin held => good.held _ _ (origin ▸ held))
    refine ⟨env, _, serveConsistency_ok.mpr made, record_consistent claim passed, rfl, ?_⟩
    rw [origin, oldSame, newSame, length]
    intro again
    exact (wanted_addPair wanted old new).mp again rfl

/-- The owner's roots of these sizes, in this order. -/
def honestRoots (counts : List Nat) : List Delivery :=
  counts.map (fun count => { message := .root (honestRoot count), now := .zero })

theorem upTo_honestChain {count size : Nat} (le : count ≤ size) : upTo (honestChain size) count = honestChain count := by
  simp [upTo, honestChain, ← List.map_take, List.take_range, min_eq_left le]

/-- The owner's chain and its roots are made, and what is wanted after two of them. -/
private theorem honest_told :
    ((chainLeaves (honestChain 2)).isOk = true ∧
      ∀ count < 3, (makeSignedRoot Crypto.sample (honestChain count) (.sample 1) .zero).isOk = true) ∧
    (Session.after Crypto.sample (honestRoots [1, 2])).store.consistencyWanted
      ((honestChain 2).nodeId Crypto.sample) = .ok (some (1, 2)) ∧
    (Session.after Crypto.sample (honestRoots [0, 2])).store.consistencyWanted
      ((honestChain 2).nodeId Crypto.sample) = .ok (some (0, 2)) := by
  decide +kernel

theorem honestRoots_sent {counts : List Nat} (small : ∀ count ∈ counts, count ≤ 2) :
    ∀ delivery ∈ honestRoots counts, Admissible Crypto.sample (honestChain 2) delivery := by
  rw [honestRoots, List.forall_mem_map]
  intro count member
  have le := small count member
  obtain ⟨env, made⟩ := Py.exists_of_isOk (honest_told.1.2 count (by omega))
  have named : honestRoot count = env := by
    rw [honestRoot, made]
    rfl
  obtain ⟨_, _, _, sealed⟩ := makeSignedRoot_ok made
  obtain ⟨_, _, read⟩ := readEnvelope_seal sealed
  simp only [named]
  refine ⟨.inl (.root count .zero (by rw [upTo_honestChain le]; exact made)), ?_⟩
  intro body pub sig other _
  exact (Prod.mk.inj (Prod.mk.inj (Except.ok.inj (other.symm.trans read))).2).1

theorem consistency_supplied_sample : Supplied Crypto.sample
    (Session.after Crypto.sample (honestRoots [1, 2])).store (honestChain 2) 1 2 (.finite ⟨false, 0, 0, by decide⟩) .zero := by
  obtain ⟨leaves, hashed⟩ := Py.exists_of_isOk honest_told.1.1
  exact (consistency_supplied_iff Crypto.sample_lawful hashed (honestRoots_sent (by decide)) honest_told.2.1
    ⟨false, 0, 0, by decide⟩ .zero).mpr ⟨by decide, rfl⟩

/-- After the root of the empty chain the next one leaves a pair wanted that the origin refuses. -/
theorem consistency_not_supplied : ¬ ∀ (chain : WitnessChain) (leaves : List Bytes) (deliveries : List Delivery)
    (old new : Int), chainLeaves chain = .ok leaves →
    (∀ delivery ∈ deliveries, Admissible Crypto.sample chain delivery) →
    (Session.after Crypto.sample deliveries).store.consistencyWanted (chain.nodeId Crypto.sample) =
      .ok (some (old, new)) → ∀ (clock : Decimal) (now : PyFloat),
    Supplied Crypto.sample (Session.after Crypto.sample deliveries).store chain old new (.finite clock) now := by
  intro always
  obtain ⟨leaves, hashed⟩ := Py.exists_of_isOk honest_told.1.1
  obtain ⟨env, outcome, served, _⟩ := always (honestChain 2) leaves (honestRoots [0, 2]) 0 2 hashed
    (honestRoots_sent (by decide)) honest_told.2.2 ⟨false, 0, 0, by decide⟩ .zero
  obtain ⟨_, _, _, positive, _⟩ := makeConsistency_ok (serveConsistency_ok.mp served)
  exact absurd positive (by decide)

end JJDai.Replication
