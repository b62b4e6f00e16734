import JJDai.Replication.Session

/-! When two conflicting roots of one origin leave evidence. A store compares an
envelope only with the one it holds, so an envelope of another root algorithm
between two conflicting ones can hide them. -/

namespace JJDai.Replication

open PyText

variable (crypto : Crypto)

/-- Evidence at a count: two envelopes of one algorithm with different roots. -/
def EvidenceAt (store : ReplicaStore) (origin : Str) (count : Json) : Prop :=
  ∃ entry ∈ store.divergence origin, ∃ envA envB named,
    dotGet entry "kind" = .ok (.str "DIVERGENCE_EVIDENCE") ∧
    dotGet entry "count" = .ok named ∧ Json.pyEq named count ∧
    dotGet entry "env_a" = .ok envA ∧ dotGet entry "env_b" = .ok envB ∧
    Json.pyEq (fieldOf envA "root_alg") (fieldOf envB "root_alg") ∧
    ¬Json.pyEq (fieldOf envA "root") (fieldOf envB "root")

/-- Conflicting roots: one origin, count and algorithm. -/
def Conflict (a b : Json) : Prop :=
  fieldOf a "node_id" = fieldOf b "node_id" ∧ Json.pyEq (fieldOf a "count") (fieldOf b "count") ∧
    Json.pyEq (fieldOf a "root_alg") (fieldOf b "root_alg") ∧
    ¬Json.pyEq (fieldOf a "root") (fieldOf b "root")

instance (a b : Json) : Decidable (Conflict a b) :=
  inferInstanceAs (Decidable (_ ∧ _ ∧ _ ∧ _))

/-- Answered "stored", "duplicate" or "divergence". -/
def Acknowledged (session : Session) (env : Json) : Prop :=
  ∃ status, .root env status ∈ session.answers ∧ status.weighs = true

/-- No two acknowledged roots conflict without evidence at their count. -/
def Captured (session : Session) : Prop :=
  ∀ a b origin, verifySignedRoot crypto a = .ok (true, "ok") →
    verifySignedRoot crypto b = .ok (true, "ok") → fieldOf a "node_id" = .str origin →
    Conflict a b → Acknowledged session a → Acknowledged session b →
    EvidenceAt session.store origin (fieldOf a "count")

/-- An envelope that meets one of another algorithm at its count has the root of
every earlier one of its own algorithm there. -/
def Unambiguous (session : Session) (delivery : Delivery) : Prop :=
  ∀ env origin count current, delivery.message = .root env → FiledAt crypto origin count env →
    Dict.get? (session.store.held origin) count = some current →
    ¬Json.pyEq (fieldOf current "root_alg") (fieldOf env "root_alg") →
    ∀ earlier ∈ session.weighed, FiledAt crypto origin count earlier →
      Json.pyEq (fieldOf earlier "root_alg") (fieldOf env "root_alg") →
      Json.pyEq (fieldOf earlier "root") (fieldOf env "root")

variable {crypto}

variable (crypto) in
/-- At each count there is evidence, or one root for each algorithm. -/
structure Settled (session : Session) : Prop where
  held : ∀ origin count current, Dict.get? (session.store.held origin) count = some current →
    FiledAt crypto origin count current ∧ current ∈ session.weighed
  present : ∀ env ∈ session.weighed, ∀ origin count, FiledAt crypto origin count env →
    (Dict.get? (session.store.held origin) count).isSome
  agree : ∀ origin count a b, a ∈ session.weighed → b ∈ session.weighed →
    FiledAt crypto origin count a → FiledAt crypto origin count b →
    Json.pyEq (fieldOf a "root_alg") (fieldOf b "root_alg") →
    Json.pyEq (fieldOf a "root") (fieldOf b "root") ∨
      EvidenceAt session.store origin (fieldOf a "count")
  answered : ∀ env status, .root env status ∈ session.answers → status.weighs = true →
    env ∈ session.weighed

theorem EvidenceAt.congr {store : ReplicaStore} {origin : Str} {a b : Json}
    (evidence : EvidenceAt store origin a) (same : Json.pyEq a b) : EvidenceAt store origin b := by
  obtain ⟨entry, member, envA, envB, named, kind, count, counts, rest⟩ := evidence
  exact ⟨entry, member, envA, envB, named, kind, count, counts.trans same, rest⟩

theorem Settled.captured {session : Session} (good : Settled crypto session) :
    Captured crypto session := by
  intro a b origin verifiedA verifiedB node conflict ackA ackB
  obtain ⟨sameNode, sameCount, sameAlg, otherRoot⟩ := conflict
  obtain ⟨statusA, memberA, weighsA⟩ := ackA
  obtain ⟨statusB, memberB, weighsB⟩ := ackB
  obtain ⟨ra⟩ := signedRoot_of_verifies verifiedA
  obtain ⟨rb⟩ := signedRoot_of_verifies verifiedB
  have filedA := ra.filed
  have filedB := rb.filed
  rw [filedA.origin_eq node] at filedA
  rw [filedB.origin_eq (sameNode ▸ node), ← (filedA.count_iff filedB).mp sameCount] at filedB
  have agree := good.agree _ _ a b (good.answered a statusA memberA weighsA)
    (good.answered b statusB memberB weighsB) filedA filedB sameAlg
  exact agree.resolve_left otherRoot

theorem Settled.weigh {session : Session} (good : Settled crypto session) {env : Json}
    (root : SignedRoot crypto env) {outcome : Outcome RootStatus} (written : Bool)
    (held : ∀ origin count current, Dict.get? (outcome.store.held origin) count = some current →
      Dict.get? (session.store.held origin) count = some current ∨
        current = env ∧ root.origin = origin ∧ root.count = count)
    (keeps : ∀ origin count, (Dict.get? (session.store.held origin) count).isSome →
      (Dict.get? (outcome.store.held origin) count).isSome)
    (fills : (Dict.get? (outcome.store.held root.origin) root.count).isSome)
    (evidence : ∀ origin count, EvidenceAt session.store origin count →
      EvidenceAt outcome.store origin count)
    (agree : ∀ a ∈ session.weighed, FiledAt crypto root.origin root.count a →
      Json.pyEq (fieldOf a "root_alg") (fieldOf env "root_alg") →
      Json.pyEq (fieldOf a "root") (fieldOf env "root") ∨
        EvidenceAt outcome.store root.origin (fieldOf env "count")) :
    Settled crypto (session.finish outcome (.root env outcome.status) (session.weighed ++ [env])
      written) where
  held := by
    intro origin count current found
    rcases held origin count current found with old | ⟨rfl, rfl, rfl⟩
    · obtain ⟨filed, member⟩ := good.held origin count current old
      exact ⟨filed, List.mem_append_left _ member⟩
    · exact ⟨root.filed, List.mem_append_right _ (List.mem_singleton_self _)⟩
  present := by
    intro other member origin count filed
    rcases List.mem_append.mp member with old | new
    · exact keeps origin count (good.present other old origin count filed)
    · obtain rfl := List.mem_singleton.mp new
      obtain ⟨rfl, rfl⟩ := filed.unique root.filed
      exact fills
  agree := by
    intro origin count a b memberA memberB filedA filedB alg
    rcases List.mem_append.mp memberA with oldA | newA <;>
      rcases List.mem_append.mp memberB with oldB | newB
    · exact (good.agree origin count a b oldA oldB filedA filedB alg).imp_right (evidence _ _)
    · obtain rfl := List.mem_singleton.mp newB
      obtain ⟨rfl, rfl⟩ := filedB.unique root.filed
      have counts := (filedB.count_iff filedA).mpr rfl
      exact (agree a oldA filedA alg).imp_right (fun found => found.congr counts)
    · obtain rfl := List.mem_singleton.mp newA
      obtain ⟨rfl, rfl⟩ := filedA.unique root.filed
      exact (agree b oldB filedB alg.symm).imp_left Json.pyEq.symm
    · obtain rfl := List.mem_singleton.mp newA
      obtain rfl := List.mem_singleton.mp newB
      exact .inl (.refl _)
  answered := by
    intro other status member weighs
    rcases Session.mem_finish member with old | new
    · exact List.mem_append_left _ (good.answered other status old weighs)
    · obtain ⟨rfl, _⟩ := Answer.root.inj new
      exact List.mem_append_right _ (List.mem_singleton_self _)

private theorem evidence_hold {store : ReplicaStore} {origin other : Str} {at_ : Int} {env : Json}
    {count : Json} (found : EvidenceAt store other count) :
    EvidenceAt (store.hold origin at_ env) other count := found

private theorem evidence_add {store : ReplicaStore} {origin other : Str} {entry count : Json}
    (found : EvidenceAt store other count) :
    EvidenceAt (store.addEvidence origin entry) other count := by
  obtain ⟨old, member, rest⟩ := found
  refine ⟨old, ?_, rest⟩
  rw [ReplicaStore.divergence_addEvidence]
  split
  · rename_i same
    exact List.mem_append_left _ (same ▸ member)
  · exact member

private theorem evidence_new (store : ReplicaStore) (origin : Str) {count current env : Json}
    {now : PyFloat} (alg : Json.pyEq (fieldOf current "root_alg") (fieldOf env "root_alg"))
    (other : ¬Json.pyEq (fieldOf current "root") (fieldOf env "root")) :
    EvidenceAt (store.addEvidence origin (divergenceEvidence origin count current env now)) origin
      count := by
  refine ⟨divergenceEvidence origin count current env now, ?_, current, env, count, rfl, rfl,
    .refl _, rfl, rfl, alg, other⟩
  rw [ReplicaStore.divergence_addEvidence, if_pos rfl]
  exact List.mem_append_right _ (List.mem_singleton_self _)

theorem settled_accept {session : Session} {env : Json} {now : PyFloat}
    {outcome : Outcome RootStatus} (good : Settled crypto session)
    (clear : ∀ origin count current, FiledAt crypto origin count env →
      Dict.get? (session.store.held origin) count = some current →
      ¬Json.pyEq (fieldOf current "root_alg") (fieldOf env "root_alg") →
      ∀ earlier ∈ session.weighed, FiledAt crypto origin count earlier →
        Json.pyEq (fieldOf earlier "root_alg") (fieldOf env "root_alg") →
        Json.pyEq (fieldOf earlier "root") (fieldOf env "root"))
    (answered : Accepts crypto session.store env now outcome) (written : Bool) :
    Settled crypto (session.finish outcome (.root env outcome.status)
      (if outcome.status.weighs then session.weighed ++ [env] else session.weighed) written) := by
  have unweighed (status : RootStatus) (light : status.weighs = false) (reason : Str) :
      Settled crypto (session.finish ⟨session.store, none, status, reason⟩ (.root env status)
        session.weighed written) := by
    refine ⟨good.held, good.present, good.agree, ?_⟩
    intro other given member weighs
    rcases Session.mem_finish member with old | new
    · exact good.answered other given old weighs
    · obtain ⟨_, rfl⟩ := Answer.root.inj new
      rw [light] at weighs
      cases weighs
  -- An envelope that passed the comparison with the held one agrees with the others.
  have agree (root : SignedRoot crypto env) (current : Json)
      (held : Dict.get? (session.store.held root.origin) root.count = some current)
      (passed : Json.pyEq (fieldOf current "root_alg") (fieldOf env "root_alg") →
        Json.pyEq (fieldOf current "root") (fieldOf env "root")) :
      ∀ a ∈ session.weighed, FiledAt crypto root.origin root.count a →
        Json.pyEq (fieldOf a "root_alg") (fieldOf env "root_alg") →
        Json.pyEq (fieldOf a "root") (fieldOf env "root") ∨
          EvidenceAt session.store root.origin (fieldOf env "count") := by
    intro a member filed alg
    by_cases same : Json.pyEq (fieldOf current "root_alg") (fieldOf env "root_alg")
    · obtain ⟨filedCurrent, memberCurrent⟩ := good.held _ _ _ held
      have counts := (filed.count_iff root.filed).mpr rfl
      rcases good.agree _ _ a current member memberCurrent filed filedCurrent
        (alg.trans same.symm) with roots | found
      · exact .inl (roots.trans (passed same))
      · exact .inr (found.congr counts)
    · exact .inl (clear _ _ _ root.filed held same a member filed alg)
  cases answered with
  | rejected reason => exact unweighed .rejected rfl reason
  | stale root rooted absent late reason => exact unweighed .stale rfl reason
  | duplicate root rooted current held same =>
    apply good.weigh root written
    · exact fun _ _ _ found => .inl found
    · exact fun _ _ found => found
    · exact Option.isSome_iff_exists.mpr ⟨current, held⟩
    · exact fun _ _ found => found
    · exact agree root current held (fun _ => same)
  | upgrade root rooted current held other alg =>
    apply good.weigh root written
    · exact fun _ _ _ found => ReplicaStore.held_hold_cases found
    · exact fun _ _ found => ReplicaStore.held_hold_keeps found
    · exact Option.isSome_iff_exists.mpr ⟨env, ReplicaStore.held_hold_self ..⟩
    · exact fun _ _ found => evidence_hold found
    · exact agree root current held (fun same => absurd same alg)
  | divergence root rooted current held other alg =>
    apply good.weigh root written
    · exact fun _ _ _ found => .inl found
    · exact fun _ _ found => found
    · exact Option.isSome_iff_exists.mpr ⟨current, held⟩
    · exact fun _ _ found => evidence_add found
    · exact fun _ _ _ _ => .inr (evidence_new session.store root.origin alg other)
  | fresh root rooted absent newest =>
    apply good.weigh root written
    · exact fun _ _ _ found => ReplicaStore.held_hold_cases found
    · exact fun _ _ found => ReplicaStore.held_hold_keeps found
    · exact Option.isSome_iff_exists.mpr ⟨env, ReplicaStore.held_hold_self ..⟩
    · exact fun _ _ found => evidence_hold found
    · intro a member filed _
      have present := good.present a member _ _ filed
      rw [absent] at present
      cases present

theorem settled_record {session : Session} {env : Json} {now : PyFloat}
    {outcome : Outcome ConsistencyStatus} (good : Settled crypto session)
    (answered : Records crypto session.store env now outcome) (written : Bool) :
    Settled crypto (session.finish outcome (.consistency env outcome.status) session.weighed
      written) := by
  have same : ∀ origin, outcome.store.held origin = session.store.held origin := by
    intro origin
    cases answered <;> rfl
  have evidence : ∀ origin count, EvidenceAt session.store origin count →
      EvidenceAt outcome.store origin count := by
    intro origin count found
    cases answered with
    | rejected reason => exact found
    | consistent claim reason passed => exact found
    | inconsistent claim reason failed entry detail => exact evidence_add found
  refine ⟨?_, ?_, ?_, ?_⟩
  · intro origin count current found
    exact good.held origin count current (same origin ▸ found)
  · intro other member origin count filed
    exact same origin ▸ good.present other member origin count filed
  · intro origin count a b memberA memberB filedA filedB alg
    exact (good.agree origin count a b memberA memberB filedA filedB alg).imp_right (evidence _ _)
  · intro other status member weighs
    rcases Session.mem_finish member with old | new
    · exact good.answered other status old weighs
    · cases new

theorem settled_receive (session : Session) (delivery : Delivery) (good : Settled crypto session)
    (clear : Unambiguous crypto session delivery) :
    Settled crypto (session.receive crypto delivery) := by
  obtain ⟨message, now, written⟩ := delivery
  cases message with
  | root env =>
    cases answered : session.store.accept crypto env now with
    | error e => simpa [Session.receive, answered] using good
    | ok outcome =>
      simp only [Session.receive, answered]
      exact settled_accept good (fun origin count current filed held =>
        clear env origin count current rfl filed held) (accept_cases answered) written
  | consistency env =>
    cases answered : session.store.recordConsistency crypto env now with
    | error e => simpa [Session.receive, answered] using good
    | ok outcome =>
      simp only [Session.receive, answered]
      exact settled_record good (record_cases answered) written

/-- Conflicting roots leave evidence in every run that never returns to a root
algorithm with another root. -/
theorem captured_of_unambiguous (deliveries : List Delivery)
    (clear : Run.Along (Session.receive crypto) (Unambiguous crypto) Session.fresh deliveries) :
    Captured crypto (Session.after crypto deliveries) := by
  have start : Settled crypto Session.fresh :=
    ⟨by simp [Session.fresh], by simp [Session.fresh], by simp [Session.fresh],
      by simp [Session.fresh]⟩
  exact (Run.invariant settled_receive start clear).captured

private theorem mem_weighed_receive {session : Session} {env current : Json} {now : PyFloat}
    {written : Bool}
    (member : current ∈ (session.receive crypto ⟨.root env, now, written⟩).weighed) :
    current ∈ session.weighed ∨ current = env := by
  simp only [Session.receive] at member
  split at member
  · exact .inl member
  · simp only [Session.finish] at member
    split at member
    · simpa using member
    · exact .inl member

/-- Two roots of one algorithm that conflict. -/
theorem captured_of_unambiguous_sample : Captured Crypto.sample (Session.after Crypto.sample
    [⟨.root (sampleRoot "rfc6962" "aa"), .zero, true⟩,
      ⟨.root (sampleRoot "rfc6962" "cc"), .zero, true⟩]) := by
  have first : Unambiguous Crypto.sample Session.fresh
      ⟨.root (sampleRoot "rfc6962" "aa"), .zero, true⟩ := by
    intro env origin count current _ _ held
    cases held
  refine captured_of_unambiguous _ ⟨first, ?_, trivial⟩
  have start : Settled Crypto.sample Session.fresh :=
    ⟨by simp [Session.fresh], by simp [Session.fresh], by simp [Session.fresh],
      by simp [Session.fresh]⟩
  intro env origin count current sent _ held other
  obtain rfl := Message.root.inj sent
  have member := ((settled_receive _ _ start first).held origin count current held).2
  have same : current = sampleRoot "rfc6962" "aa" :=
    (mem_weighed_receive member).resolve_left List.not_mem_nil
  have alg : Json.pyEq (fieldOf (sampleRoot "rfc6962" "aa") "root_alg")
      (fieldOf (sampleRoot "rfc6962" "cc") "root_alg") := by decide +kernel
  rw [same] at other
  exact absurd alg other

/-- An envelope of another algorithm between two conflicting ones hides them. -/
def returningRoots : List Delivery :=
  [⟨.root (sampleRoot "rfc6962" "aa"), .zero, true⟩, ⟨.root (sampleRoot "v1" "bb"), .zero, true⟩,
    ⟨.root (sampleRoot "rfc6962" "cc"), .zero, true⟩]

theorem not_captured_returningRoots :
    ¬Captured Crypto.sample (Session.after Crypto.sample returningRoots) := by
  intro captured
  have answers : (Session.after Crypto.sample returningRoots).answers =
      [.root (sampleRoot "rfc6962" "aa") .stored, .root (sampleRoot "v1" "bb") .stored,
        .root (sampleRoot "rfc6962" "cc") .stored] := by decide +kernel
  have clear : (Session.after Crypto.sample returningRoots).store.diverged = [] := by
    decide +kernel
  obtain ⟨entry, member, _⟩ := captured (sampleRoot "rfc6962" "aa") (sampleRoot "rfc6962" "cc")
    sampleOrigin (by decide +kernel) (by decide +kernel) (by decide +kernel) (by decide +kernel)
    ⟨.stored, by simp [answers], rfl⟩ ⟨.stored, by simp [answers], rfl⟩
  simp [ReplicaStore.divergence, clear] at member

end JJDai.Replication
