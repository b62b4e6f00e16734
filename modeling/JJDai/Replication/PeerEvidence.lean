import JJDai.Replication.Reload

/-! The three stores of peer evidence as journaled stores: what they write is a
journal entry, and loads again. -/

namespace JJDai.Replication

open PyText Canonical Durable

structure Wire where
  json : Json
  valid : json.valid

inductive ReplicaOp where
  | accept (env : Wire) (now : PyFloat)
  | recordConsistency (env : Wire) (now : PyFloat)

structure SegmentOp where
  env : Wire
  now : PyFloat

inductive PeerOp where
  | register (bundle : Wire)
  | setStatus (nid status : Str)

section Stores

variable (crypto : Crypto)

def replicaJournal : JournaledStore ReplicaStore ReplicaOp where
  empty := {}
  apply store
    | .accept env now => do
      let outcome ← store.accept crypto env.json now
      return (outcome.store, outcome.line)
    | .recordConsistency env now => do
      let outcome ← store.recordConsistency crypto env.json now
      return (outcome.store, outcome.line)
  loadEntry := ReplicaStore.loadEntry crypto

def segmentJournal : JournaledStore SegmentStore SegmentOp where
  empty := {}
  apply store op := do
    let outcome ← store.accept crypto op.env.json op.now
    return (outcome.store, outcome.line)
  loadEntry := SegmentStore.loadEntry crypto

def peerJournal (admissionKeys : List Str) : JournaledStore PeerRegistry PeerOp where
  empty := {}
  apply registry
    | .register bundle => do
      let outcome ← registry.register crypto admissionKeys bundle.json
      return (outcome.registry, outcome.line)
    | .setStatus nid status => do
      let outcome ← registry.setStatus nid status
      return (outcome.registry, outcome.line)
  loadEntry := PeerRegistry.loadEntry crypto admissionKeys

end Stores

/-- The proof of a recorded consistency envelope, when it is a dict, is in the
order it will be read back in. -/
def ProofSorted (line : Json) : Prop :=
  ∀ env, line = consistencyLine env → KeysSorted (fieldOf env "proof")

variable {crypto : Crypto}

theorem event_of_fields {fields : Dict Str Json} (unique : (Dict.keys fields).Nodup)
    (values : ∀ entry ∈ fields, entry.2.valid) : ∃ e : Event, e.json = .obj fields :=
  ⟨⟨fields, Json.valid_obj.mpr ⟨unique, values⟩⟩, rfl⟩

def ReplicaStore.Sound (store : ReplicaStore) : Prop :=
  ∀ origin count env, Dict.get? (store.held origin) count = some env → env.valid

theorem ReplicaStore.Sound.hold {store : ReplicaStore} (good : store.Sound) (origin : Str) (count : Int)
    {env : Json} (sound : env.valid) : (store.hold origin count env).Sound := by
  intro other key current found
  rcases ReplicaStore.held_hold_cases found with old | ⟨rfl, _, _⟩
  · exact good other key current old
  · exact sound

theorem valid_fieldOf {env : Json} (sound : env.valid) (key : Str) : (fieldOf env key).valid := by
  cases env with
  | obj fields =>
    unfold fieldOf
    simp only
    split
    · rename_i body found
      have inner := valid_of_get? sound found
      cases field : Dict.get? body key with
      | none => rfl
      | some value => exact valid_of_get? inner field
    · rfl
  | _ => rfl

theorem event_root {env : Json} (sound : env.valid) : ∃ e : Event, e.json = rootLine env :=
  event_of_fields (by simp [Dict.keys]) (by simp [Json.valid, sound])

theorem event_consistency {env : Json} (sound : env.valid) :
    ∃ e : Event, e.json = consistencyLine env :=
  event_of_fields (by simp [Dict.keys]) (by simp [Json.valid, sound])

theorem event_divergence (origin : Str) {count envA envB : Json} (now : PyFloat)
    (counted : count.valid) (first : envA.valid) (second : envB.valid) :
    ∃ e : Event, e.json = divergenceEvidence origin count envA envB now :=
  event_of_fields (by simp [Dict.keys]) (by simp [Json.valid, counted, first, second])

theorem event_inconsistency (origin : Str) {env : Json} (detail : Str) {old new : Option Json}
    (now : PyFloat) (sound : env.valid) (oldSound : ∀ pin, old = some pin → pin.valid)
    (newSound : ∀ pin, new = some pin → pin.valid) :
    ∃ e : Event, e.json = inconsistencyEvidence (.str origin) env detail old new now := by
  have oldValid : (old.getD .null).valid := by
    cases old with
    | none => rfl
    | some pin => exact oldSound pin rfl
  have newValid : (new.getD .null).valid := by
    cases new with
    | none => rfl
    | some pin => exact newSound pin rfl
  exact event_of_fields (by simp [Dict.keys]) (by simp [Json.valid, sound, oldValid, newValid])

theorem loadEntry_root (store : ReplicaStore) {e env : Json} (kind : dotGet e "kind" =
    .ok (.str "REPLICA_ROOT")) (read : subscript e "env" = .ok env) (root : SignedRoot crypto env) :
    store.loadEntry crypto e = .ok (store.hold root.origin root.count env) := by
  obtain ⟨count, present, key⟩ := countKey_of_bind root.counted
  simp only [ReplicaStore.loadEntry, kind, read, root.verifies, subscript_of_readEnvelope root.read,
    subscript_obj.mpr root.node, subscript_obj.mpr present, originKey, bind, Except.bind, pure,
    Except.pure, if_true, Bool.not_true, Bool.false_eq_true, if_false, key]
  rfl

theorem loadEntry_evidence (store : ReplicaStore) {e : Json} {kind origin : Str}
    (named : dotGet e "kind" = .ok (.str kind))
    (evidence : kind = "DIVERGENCE_EVIDENCE" ∨ kind = "INCONSISTENCY_EVIDENCE")
    (read : subscript e "origin" = .ok (.str origin)) :
    store.loadEntry crypto e = .ok (store.addEvidence origin e) := by
  rcases evidence with rfl | rfl <;>
    simp [ReplicaStore.loadEntry, ReplicaStore.addEvidence, named, read, hashKey, Json.comparisonKey, bind, Except.bind,
      pure, Except.pure]

theorem loadEntry_consistency (store : ReplicaStore) {e env : Json}
    (kind : dotGet e "kind" = .ok (.str "CONSISTENCY_VERIFIED"))
    (read : subscript e "env" = .ok env) (claim : SignedClaim crypto env) {reason : Str}
    (consistent : verifyConsistencyEnvelope crypto env none none = .ok (.consistent, reason)) :
    store.loadEntry crypto e = .ok (store.addPair claim.origin claim.old claim.new) := by
  obtain ⟨old, oldPresent, oldKey⟩ := countKey_of_bind claim.oldCounted
  obtain ⟨new, newPresent, newKey⟩ := countKey_of_bind claim.newCounted
  simp [ReplicaStore.loadEntry, kind, read, consistent, subscript_of_readEnvelope claim.read,
    subscript_obj.mpr claim.node, subscript_obj.mpr oldPresent, subscript_obj.mpr newPresent,
    originKey, oldKey, newKey, SignedClaim.origin, bind, Except.bind, pure, Except.pure]

/-- What a sound store writes: a journal entry that loads again. -/
def Writes (crypto : Crypto) (line : Json) : Prop :=
  (∃ e : Event, e.json = line) ∧ (ProofSorted line → ∀ loading : ReplicaStore,
    ∃ loaded, loading.loadEntry crypto line.sortKeys = .ok loaded)

theorem writes_root {env : Json} (sound : env.valid) (root : SignedRoot crypto env) :
    Writes crypto (rootLine env) := by
  obtain ⟨e, shape⟩ := event_root sound
  have valid : (rootLine env).valid := shape ▸ e.valid
  refine ⟨⟨e, shape⟩, fun _ loading => ⟨_, loadEntry_root loading ?_ ?_ (root.reloaded sound)⟩⟩
  · exact dotGet_sortKeys valid rfl
  · exact subscript_sortKeys valid rfl

theorem writes_evidence {e : Event} {kind origin : Str} (named : dotGet e.json "kind" = .ok (.str kind))
    (evidence : kind = "DIVERGENCE_EVIDENCE" ∨ kind = "INCONSISTENCY_EVIDENCE")
    (read : subscript e.json "origin" = .ok (.str origin)) : Writes crypto e.json :=
  ⟨⟨e, rfl⟩, fun _ loading => ⟨_, loadEntry_evidence loading (dotGet_sortKeys e.valid named) evidence
    (subscript_sortKeys e.valid read)⟩⟩

theorem writes_consistency {env : Json} (sound : env.valid) (claim : SignedClaim crypto env)
    {oldEnv newEnv : Option Json} {reason : Str}
    (passed : claimVerdict crypto (.obj claim.body) claim.old claim.new oldEnv newEnv =
      .ok (.consistent, reason)) : Writes crypto (consistencyLine env) := by
  obtain ⟨e, shape⟩ := event_consistency sound
  have valid : (consistencyLine env).valid := shape ▸ e.valid
  refine ⟨⟨e, shape⟩, fun sorted loading => ⟨_, loadEntry_consistency loading ?_ ?_
    (claim.reloaded sound) (claim.reloaded_consistent sound (sorted env rfl) passed)⟩⟩
  · exact dotGet_sortKeys valid rfl
  · exact subscript_sortKeys valid rfl

theorem accept_writes {store : ReplicaStore} (good : store.Sound) {env : Json} (sound : env.valid)
    {now : PyFloat} {outcome : Outcome RootStatus}
    (answered : store.accept crypto env now = .ok outcome) :
    outcome.store.Sound ∧ ∀ line, outcome.line = some line → Writes crypto line := by
  cases accept_cases answered with
  | rejected reason => exact ⟨good, by simp⟩
  | duplicate root rooted current held same => exact ⟨good, by simp⟩
  | upgrade root rooted current held other alg =>
    exact ⟨good.hold _ _ sound, by rintro line ⟨⟩; exact writes_root sound root⟩
  | divergence root rooted current held other alg =>
    refine ⟨good, ?_⟩
    rintro line ⟨⟩
    obtain ⟨e, shape⟩ := event_divergence root.origin now (valid_fieldOf sound "count")
      (good _ _ _ held) sound
    rw [← shape]
    exact writes_evidence (by rw [shape]; rfl) (.inl rfl) (by rw [shape]; rfl)
  | stale root rooted absent late reason => exact ⟨good, by simp⟩
  | fresh root rooted absent newest =>
    exact ⟨good.hold _ _ sound, by rintro line ⟨⟩; exact writes_root sound root⟩

theorem record_writes {store : ReplicaStore} (good : store.Sound) {env : Json} (sound : env.valid)
    {now : PyFloat} {outcome : Outcome ConsistencyStatus}
    (answered : store.recordConsistency crypto env now = .ok outcome) :
    outcome.store.Sound ∧ ∀ line, outcome.line = some line → Writes crypto line := by
  cases record_cases answered with
  | rejected reason => exact ⟨good, by simp⟩
  | consistent claim reason passed =>
    exact ⟨good, by rintro line ⟨⟩; exact writes_consistency sound claim passed⟩
  | inconsistent claim reason failed evidence detail =>
    refine ⟨good, ?_⟩
    rintro line ⟨⟩
    obtain ⟨e, shape⟩ := event_inconsistency claim.origin reason now sound
      (fun pin held => good _ _ _ held) (fun pin held => good _ _ _ held)
    rw [detail, ← shape]
    exact writes_evidence (by rw [shape]; rfl) (.inr rfl) (by rw [shape]; rfl)

theorem load_sound {loading loaded : ReplicaStore} (good : loading.Sound) {entry : Json}
    (sound : entry.valid) (read : loading.loadEntry crypto entry = .ok loaded) : loaded.Sound := by
  simp only [ReplicaStore.loadEntry, bind, Py.bind_ok] at read
  obtain ⟨kind, _, read⟩ := read
  split at read
  · simp only [Py.bind_ok] at read
    obtain ⟨env, envRead, ⟨ok, reason⟩, _, read⟩ := read
    split at read
    · cases read
    · simp only [Py.bind_ok] at read
      obtain ⟨_, _, _, _, origin, _, count, _, made⟩ := read
      obtain rfl := Except.ok.inj made
      exact good.hold _ _ (valid_of_subscript sound envRead)
  · split at read
    · simp only [Py.bind_ok] at read
      obtain ⟨_, _, origin, _, made⟩ := read
      obtain rfl := Except.ok.inj made
      exact good
    · split at read
      · simp only [Py.bind_ok] at read
        obtain ⟨env, envRead, ⟨status, why⟩, _, read⟩ := read
        cases status with
        | consistent =>
          simp only [Py.bind_ok] at read
          obtain ⟨_, _, _, _, origin, _, _, _, _, _, made⟩ := read
          obtain rfl := Except.ok.inj made
          exact good
        | inconsistent => cases read
        | rejected => cases read
      · obtain rfl := Except.ok.inj read
        exact good

theorem replica_lawful : (replicaJournal crypto).Lawful ReplicaStore.Sound ProofSorted := by
  have writes : ∀ live op after line, live.Sound →
      (replicaJournal crypto).apply live op = .ok (after, line) →
      after.Sound ∧ ∀ written, line = some written → Writes crypto written := by
    intro live op after line good applied
    cases op with
    | accept env now =>
      obtain ⟨outcome, answered, made⟩ := Py.bind_ok.mp applied
      obtain ⟨rfl, rfl⟩ := Prod.mk.inj (Except.ok.inj made)
      exact accept_writes good env.valid answered
    | recordConsistency env now =>
      obtain ⟨outcome, answered, made⟩ := Py.bind_ok.mp applied
      obtain ⟨rfl, rfl⟩ := Prod.mk.inj (Except.ok.inj made)
      exact record_writes good env.valid answered
  constructor
  · intro origin count env found
    cases found
  · exact fun live op after line good applied => (writes live op after line good applied).1
  · exact fun live op after line good applied =>
      ((writes live op after (some line) good applied).2 line rfl).1
  · exact fun live op after line good applied sorted =>
      ((writes live op after (some line) good applied).2 line rfl).2 sorted
  · exact fun loading entry loaded good sound read => load_sound good sound read

def Dict.Sound (held : Dict Int Json) : Prop :=
  ∀ index rec, Dict.get? held index = some rec → rec.valid

def SegmentStore.Sound (store : SegmentStore) : Prop := ∀ origin, Dict.Sound (store.held origin)

theorem event_segment {env : Json} (sound : env.valid) : ∃ e : Event, e.json = segmentLine env :=
  event_of_fields (by simp [Dict.keys]) (by simp [Json.valid, sound])

theorem event_conflict (origin : Str) {index recordA recordB env : Json} (now : PyFloat)
    (numbered : index.valid) (first : recordA.valid) (second : recordB.valid) (sound : env.valid) :
    ∃ e : Event, e.json = segmentEvidence origin index recordA recordB env now :=
  event_of_fields (by simp [Dict.keys]) (by simp [Json.valid, numbered, first, second, sound])

theorem holdRecords_sound {held after : Dict Int Json} {items : List Json} (good : Dict.Sound held)
    (sound : ∀ item ∈ items, item.valid) (made : holdRecords held items = .ok after) :
    Dict.Sound after := by
  induction items generalizing held with
  | nil =>
    obtain rfl := Except.ok.inj made
    exact good
  | cons rec rest ih =>
    simp only [holdRecords, bind, Py.bind_ok] at made
    obtain ⟨index, _, made⟩ := made
    refine ih ?_ (fun item member => sound item (List.mem_cons_of_mem _ member)) made
    intro key current found
    rw [Dict.get?_set] at found
    split at found
    · obtain rfl := Option.some.inj found
      exact sound rec List.mem_cons_self
    · exact good key current found

theorem holdRecords_ok (held : Dict Int Json) {items : List Json}
    (indexed : ∀ item ∈ items, ∃ index, subscript item "index" = .ok index) :
    ∃ after, holdRecords held items = .ok after := by
  induction items generalizing held with
  | nil => exact ⟨held, rfl⟩
  | cons rec rest ih =>
    obtain ⟨index, read⟩ := indexed rec List.mem_cons_self
    obtain ⟨after, made⟩ := ih (Dict.set held (indexKey index) rec)
      (fun item member => indexed item (List.mem_cons_of_mem _ member))
    exact ⟨after, by simp only [holdRecords, read, bind, Except.bind, made]⟩

theorem compareRecords_conflict {held : Dict Int Json} {fresh : Nat} {items : List Json}
    {index recordA recordB : Json}
    (found : compareRecords held fresh items = .ok (.inr (index, recordA, recordB))) :
    (∃ key, Dict.get? held key = some recordA) ∧ recordB ∈ items ∧
      subscript recordB "index" = .ok index := by
  induction items generalizing fresh with
  | nil => cases found
  | cons rec rest ih =>
    simp only [compareRecords, bind, Py.bind_ok] at found
    obtain ⟨number, read, found⟩ := found
    split at found
    · obtain ⟨held, member, numbered⟩ := ih found
      exact ⟨held, List.mem_cons_of_mem _ member, numbered⟩
    · rename_i current present
      simp only [Py.bind_ok] at found
      obtain ⟨_, _, _, _, found⟩ := found
      split at found
      · obtain ⟨rfl, rfl, rfl⟩ := by simpa [pure, Except.pure] using found
        exact ⟨⟨_, present⟩, List.mem_cons_self, read⟩
      · obtain ⟨held, member, numbered⟩ := ih found
        exact ⟨held, List.mem_cons_of_mem _ member, numbered⟩

theorem SegmentStore.held_set (store : SegmentStore) (origin other : Str) (held : Dict Int Json) :
    SegmentStore.held { store with records := Dict.set store.records origin held } other =
      if origin = other then held else store.held other := by
  simp only [SegmentStore.held, Dict.get?_set]
  split <;> rfl

theorem valid_of_pyList {j : Json} {items : List Json} (sound : j.valid) (read : pyList j = .ok items) :
    ∀ item ∈ items, item.valid := by
  intro item member
  cases j with
  | arr found =>
    obtain rfl := Except.ok.inj read
    exact Json.valid_arr.mp sound item member
  | str s =>
    obtain rfl := Except.ok.inj read
    obtain ⟨c, _, rfl⟩ := List.mem_map.mp member
    rfl
  | obj fields =>
    obtain rfl := Except.ok.inj read
    obtain ⟨entry, _, rfl⟩ := List.mem_map.mp member
    rfl
  | _ => cases read

theorem SegmentStore.Sound.hold {store after : SegmentStore} (good : store.Sound) {env : Json}
    (sound : env.valid) (made : store.hold env = .ok after) : after.Sound := by
  simp only [SegmentStore.hold, bind, Py.bind_ok] at made
  obtain ⟨body, _, node, _, origin, _, records, recordsRead, items, itemsRead, held, holding, made⟩ := made
  obtain rfl := Except.ok.inj made
  intro other
  rw [SegmentStore.held_set]
  split
  · exact holdRecords_sound (good origin)
      (valid_of_pyList (valid_of_subscript sound recordsRead) itemsRead) holding
  · exact good other

theorem loadEntry_segment (store : SegmentStore) {env : Json} (sound : env.valid)
    (segment : SignedSegment crypto env) {reason : Str}
    (verified : verifySegment crypto env.sortKeys = .ok (true, reason)) :
    ∃ loaded, store.loadEntry crypto (segmentLine env).sortKeys = .ok loaded := by
  obtain ⟨e, shape⟩ := event_segment sound
  have valid : (segmentLine env).valid := shape ▸ e.valid
  have kind : dotGet (segmentLine env).sortKeys "kind" = .ok (.str "REPLICA_SEGMENT") :=
    dotGet_sortKeys valid rfl
  have read : subscript (segmentLine env).sortKeys "env" = .ok env.sortKeys :=
    subscript_sortKeys valid rfl
  have bodySound := valid_of_subscript sound segment.bodyRead
  have recordsSound := valid_of_subscript sound segment.recordsRead
  have node := subscript_sortKeys bodySound (subscript_obj.mpr segment.node)
  have indexed : ∀ item ∈ segment.items.map Json.sortKeys, ∃ index,
      subscript item "index" = .ok index := by
    intro item member
    obtain ⟨source, present, rfl⟩ := List.mem_map.mp member
    obtain ⟨fields, value, rfl, found⟩ := segment.indexed source present
    exact ⟨_, subscript_sortKeys (Json.valid_arr.mp recordsSound _ present) (subscript_obj.mpr found)⟩
  obtain ⟨held, holding⟩ := holdRecords_ok (store.held segment.origin) indexed
  have records : pyList (Json.arr segment.items).sortKeys = .ok (segment.items.map Json.sortKeys) := by
    rw [Json.sortKeys_arr, pyList]
  refine ⟨{ store with records := Dict.set store.records segment.origin held }, ?_⟩
  simp only [SegmentStore.loadEntry, kind, read, verified, SegmentStore.hold,
    subscript_sortKeys sound segment.bodyRead, subscript_sortKeys sound segment.recordsRead, node,
    records, bind, Except.bind, if_true, Bool.not_true, Bool.false_eq_true, if_false]
  simp only [Json.sortKeys, originKey, pure, Except.pure, holding]

theorem loadEntry_conflict (store : SegmentStore) {e : Json} {origin : Str}
    (kind : dotGet e "kind" = .ok (.str "SEGMENT_DIVERGENCE"))
    (read : subscript e "origin" = .ok (.str origin)) :
    store.loadEntry crypto e = .ok (store.addEvidence origin e) := by
  simp [SegmentStore.loadEntry, SegmentStore.addEvidence, kind, read, hashKey, Json.comparisonKey, bind, Except.bind,
    pure, Except.pure]

theorem segment_accept {store : SegmentStore} (good : store.Sound) {env : Json} (sound : env.valid)
    {now : PyFloat} {outcome : SegmentOutcome}
    (answered : store.accept crypto env now = .ok outcome) :
    outcome.store.Sound ∧ ∀ line, outcome.line = some line → (∃ e : Event, e.json = line) ∧
      ∀ loading : SegmentStore, ∃ loaded, loading.loadEntry crypto line.sortKeys = .ok loaded := by
  simp only [SegmentStore.accept, bind, Py.bind_ok] at answered
  obtain ⟨⟨ok, reason⟩, verified, answered⟩ := answered
  cases ok with
  | false =>
    obtain rfl := Except.ok.inj answered
    exact ⟨good, by simp⟩
  | true =>
    obtain ⟨⟨segment⟩, again⟩ := verifySegment_sortKeys sound verified
    simp only [Bool.not_true, Bool.false_eq_true, if_false, Py.bind_ok] at answered
    obtain ⟨body, bodyRead, node, nodeRead, origin, originRead, records, recordsRead, items, itemsRead,
      compared, compare, answered⟩ := answered
    have itemsSound := valid_of_pyList (valid_of_subscript sound recordsRead) itemsRead
    cases compared with
    | inr conflict =>
      obtain ⟨index, recordA, recordB⟩ := conflict
      obtain rfl := Except.ok.inj answered
      obtain ⟨⟨key, held⟩, member, numbered⟩ := compareRecords_conflict compare
      refine ⟨good, ?_⟩
      rintro line ⟨⟩
      obtain ⟨e, shape⟩ := event_conflict origin now
        (valid_of_subscript (itemsSound _ member) numbered) (good origin key _ held)
        (itemsSound _ member) sound
      rw [← shape]
      have kind : dotGet e.json "kind" = .ok (.str "SEGMENT_DIVERGENCE") := by rw [shape]; rfl
      have filed : subscript e.json "origin" = .ok (.str origin) := by rw [shape]; rfl
      exact ⟨⟨e, rfl⟩, fun loading => ⟨_, loadEntry_conflict loading (dotGet_sortKeys e.valid kind)
        (subscript_sortKeys e.valid filed)⟩⟩
    | inl fresh =>
      dsimp only at answered
      split at answered
      · obtain rfl := Except.ok.inj answered
        exact ⟨good, by simp⟩
      · simp only [Py.bind_ok] at answered
        obtain ⟨after, holding, made⟩ := answered
        obtain rfl := Except.ok.inj made
        refine ⟨good.hold sound holding, ?_⟩
        rintro line ⟨⟩
        exact ⟨event_segment sound, fun loading => loadEntry_segment loading sound segment again⟩

theorem segment_load_sound {loading loaded : SegmentStore} (good : loading.Sound) {entry : Json}
    (sound : entry.valid) (read : loading.loadEntry crypto entry = .ok loaded) : loaded.Sound := by
  simp only [SegmentStore.loadEntry, bind, Py.bind_ok] at read
  obtain ⟨kind, _, read⟩ := read
  split at read
  · simp only [Py.bind_ok] at read
    obtain ⟨env, envRead, ⟨ok, reason⟩, _, read⟩ := read
    split at read
    · cases read
    · exact good.hold (valid_of_subscript sound envRead) read
  · split at read
    · simp only [Py.bind_ok] at read
      obtain ⟨_, _, origin, _, made⟩ := read
      obtain rfl := Except.ok.inj made
      exact good
    · obtain rfl := Except.ok.inj read
      exact good

theorem segment_lawful : (segmentJournal crypto).Lawful SegmentStore.Sound ProofSorted := by
  have writes : ∀ live op after line, SegmentStore.Sound live →
      (segmentJournal crypto).apply live op = .ok (after, line) →
      after.Sound ∧ ∀ written, line = some written → (∃ e : Event, e.json = written) ∧
        ∀ loading : SegmentStore, ∃ loaded, loading.loadEntry crypto written.sortKeys = .ok loaded := by
    intro live op after line good applied
    obtain ⟨outcome, answered, made⟩ := Py.bind_ok.mp applied
    obtain ⟨rfl, rfl⟩ := Prod.mk.inj (Except.ok.inj made)
    exact segment_accept good op.env.valid answered
  constructor
  · intro origin index rec found
    cases found
  · exact fun live op after line good applied => (writes live op after line good applied).1
  · exact fun live op after line good applied =>
      ((writes live op after (some line) good applied).2 line rfl).1
  · exact fun live op after line good applied _ =>
      ((writes live op after (some line) good applied).2 line rfl).2
  · exact fun loading entry loaded good sound read => segment_load_sound good sound read

theorem event_admitted {bundle : Json} (sound : bundle.valid) :
    ∃ e : Event, e.json = admittedLine bundle :=
  event_of_fields (by simp [Dict.keys]) (by simp [Json.valid, sound])

theorem event_status (nid status : Str) : ∃ e : Event, e.json = statusLine nid status :=
  event_of_fields (by simp [Dict.keys]) (by simp [Json.valid])

theorem bundleNode_sortKeys {bundle : Json} (sound : bundle.valid) {nid : Str}
    (read : bundleNode bundle = .ok nid) : bundleNode bundle.sortKeys = .ok nid := by
  simp only [bundleNode, bind, Py.bind_ok] at read ⊢
  obtain ⟨record, recordRead, body, bodyRead, node, nodeRead, named⟩ := read
  have recordSound := valid_of_subscript sound recordRead
  refine ⟨_, subscript_sortKeys sound recordRead, _, subscript_sortKeys recordSound bodyRead, _,
    subscript_sortKeys (valid_of_subscript recordSound bodyRead) nodeRead, ?_⟩
  cases node with
  | str nid => exact named
  | _ => cases named

theorem loadEntry_admitted (registry : PeerRegistry) {admissionKeys : List Str} {e bundle : Json}
    {reason nid : Str} (kind : dotGet e "kind" = .ok (.str "PEER_ADMITTED"))
    (read : subscript e "bundle" = .ok bundle)
    (verified : verifyAdmittedRecord crypto bundle admissionKeys = .ok (true, reason))
    (node : bundleNode bundle = .ok nid) :
    registry.loadEntry crypto admissionKeys e =
      .ok ⟨Dict.set registry.peers nid bundle, Dict.set registry.status nid (.str "active")⟩ := by
  simp [PeerRegistry.loadEntry, kind, read, verified, node, bind, Except.bind, pure, Except.pure]

theorem loadEntry_status (registry : PeerRegistry) {admissionKeys : List Str} {e status : Json}
    {nid : Str} (kind : dotGet e "kind" = .ok (.str "PEER_STATUS"))
    (node : subscript e "node_id" = .ok (.str nid)) (read : subscript e "status" = .ok status) :
    registry.loadEntry crypto admissionKeys e =
      .ok (if (Dict.get? registry.peers nid).isSome then
        { registry with status := Dict.set registry.status nid status } else registry) := by
  by_cases known : (Dict.get? registry.peers nid).isSome <;>
    simp [PeerRegistry.loadEntry, kind, node, read, originKey, known, bind, Except.bind, pure,
      Except.pure]

theorem register_line {admissionKeys : List Str} {registry : PeerRegistry} {bundle line : Json}
    (sound : bundle.valid) {outcome : PeerOutcome}
    (answered : registry.register crypto admissionKeys bundle = .ok outcome)
    (written : outcome.line = some line) : (∃ e : Event, e.json = line) ∧
      ∀ loading : PeerRegistry, ∃ loaded,
        loading.loadEntry crypto admissionKeys line.sortKeys = .ok loaded := by
  simp only [PeerRegistry.register, bind, Py.bind_ok] at answered
  obtain ⟨⟨ok, reason⟩, verified, answered⟩ := answered
  cases ok with
  | false => cases answered
  | true =>
    simp only [Bool.not_true, Bool.false_eq_true, if_false, Py.bind_ok] at answered
    obtain ⟨nid, node, answered⟩ := answered
    split at answered
    · obtain rfl := Except.ok.inj answered
      cases written
    · obtain rfl := Except.ok.inj answered
      obtain rfl := Option.some.inj written
      obtain ⟨e, shape⟩ := event_admitted sound
      have valid : (admittedLine bundle).valid := shape ▸ e.valid
      refine ⟨⟨e, shape⟩, fun loading => ⟨_, loadEntry_admitted loading
        (dotGet_sortKeys valid rfl) (subscript_sortKeys valid rfl)
        (verifyAdmittedRecord_sortKeys sound verified) (bundleNode_sortKeys sound node)⟩⟩

theorem setStatus_line {admissionKeys : List Str} {registry : PeerRegistry} {nid status : Str}
    {line : Json} {outcome : PeerOutcome} (answered : registry.setStatus nid status = .ok outcome)
    (written : outcome.line = some line) : (∃ e : Event, e.json = line) ∧
      ∀ loading : PeerRegistry, ∃ loaded,
        loading.loadEntry crypto admissionKeys line.sortKeys = .ok loaded := by
  simp only [PeerRegistry.setStatus] at answered
  split at answered
  · cases answered
  · split at answered
    · cases answered
    · obtain rfl := Except.ok.inj answered
      obtain rfl := Option.some.inj written
      obtain ⟨e, shape⟩ := event_status nid status
      have valid : (statusLine nid status).valid := shape ▸ e.valid
      have read : subscript (statusLine nid status) "node_id" = .ok (.str nid) := rfl
      have node : subscript (statusLine nid status).sortKeys "node_id" = .ok (.str nid) :=
        subscript_sortKeys valid read
      exact ⟨⟨e, shape⟩, fun loading => ⟨_, loadEntry_status loading (dotGet_sortKeys valid rfl) node
        (subscript_sortKeys valid rfl)⟩⟩

theorem peer_lawful (admissionKeys : List Str) :
    (peerJournal crypto admissionKeys).Lawful (fun _ => True) ProofSorted := by
  have writes : ∀ live op after line,
      (peerJournal crypto admissionKeys).apply live op = .ok (after, some line) →
      (∃ e : Event, e.json = line) ∧ ∀ loading : PeerRegistry, ∃ loaded,
        loading.loadEntry crypto admissionKeys line.sortKeys = .ok loaded := by
    intro live op after line applied
    cases op with
    | register bundle =>
      obtain ⟨outcome, answered, made⟩ := Py.bind_ok.mp applied
      exact register_line bundle.valid answered (Prod.mk.inj (Except.ok.inj made)).2
    | setStatus nid status =>
      obtain ⟨outcome, answered, made⟩ := Py.bind_ok.mp applied
      exact setStatus_line answered (Prod.mk.inj (Except.ok.inj made)).2
  constructor
  · trivial
  · exact fun _ _ _ _ _ _ => trivial
  · exact fun live op after line _ applied => (writes live op after line applied).1
  · exact fun live op after line _ applied _ => (writes live op after line applied).2
  · exact fun _ _ _ _ _ _ => trivial

inductive StoreKind where
  | replica
  | segment
  | peer (admissionKeys : List Str)

def StoreKind.Store : StoreKind → Type
  | .replica => ReplicaStore
  | .segment => SegmentStore
  | .peer _ => PeerRegistry

def StoreKind.Op : StoreKind → Type
  | .replica => ReplicaOp
  | .segment => SegmentOp
  | .peer _ => PeerOp

variable (crypto) in
def StoreKind.journaled : (kind : StoreKind) → JournaledStore kind.Store kind.Op
  | .replica => replicaJournal crypto
  | .segment => segmentJournal crypto
  | .peer admissionKeys => peerJournal crypto admissionKeys

theorem StoreKind.lawful (kind : StoreKind) :
    ∃ sound, (kind.journaled crypto).Lawful sound ProofSorted := by
  cases kind with
  | replica => exact ⟨_, replica_lawful⟩
  | segment => exact ⟨_, segment_lawful⟩
  | peer admissionKeys => exact ⟨_, peer_lawful admissionKeys⟩

variable (crypto) in
/-- Every reopening gives the store of the entries whose writes completed. -/
theorem evidence_survives (kind : StoreKind) (path : Str) {actions : List (Action kind.Op)}
    (careful : Run.Along ((kind.journaled crypto).step path)
      ((kind.journaled crypto).Careful ProofSorted) (kind.journaled crypto).start actions) :
    (kind.journaled crypto).Survives
      (Run.run ((kind.journaled crypto).step path) (kind.journaled crypto).start actions) := by
  obtain ⟨_, lawful⟩ := @StoreKind.lawful crypto kind
  exact JournaledStore.survives_run lawful careful

def sampleWire : Wire := ⟨sampleRoot "rfc6962" "aa", by decide +kernel⟩

theorem accept_empty {env : Wire} {now : PyFloat}
    (stored : ((({} : ReplicaStore).accept crypto env.json now).toOption.map
      (fun outcome => outcome.line.isSome)) = some true) :
    ∃ after, (replicaJournal crypto).apply {} (.accept env now) =
      .ok (after, some (rootLine env.json)) := by
  cases answered : ({} : ReplicaStore).accept crypto env.json now with
  | error e => simp [answered, Except.toOption] at stored
  | ok outcome =>
    simp only [answered, Except.toOption, Option.map_some, Option.some.injEq] at stored
    refine ⟨outcome.store, Py.bind_ok.mpr ⟨outcome, answered, ?_⟩⟩
    cases accept_cases answered with
    | rejected reason => cases stored
    | duplicate root rooted current held same => cases stored
    | upgrade root rooted current held other alg => rfl
    | divergence root rooted current held other alg => cases held
    | stale root rooted absent late reason => cases stored
    | fresh root rooted absent newest => rfl

private theorem sampleWire_applied : ∃ after, (replicaJournal Crypto.sample).apply {}
    (.accept sampleWire .zero) = .ok (after, some (rootLine sampleWire.json)) :=
  accept_empty (by decide +kernel)

/-- A stored root survives a stop. -/
theorem evidence_survives_sample : (StoreKind.replica.journaled Crypto.sample).Survives
    (Run.run ((StoreKind.replica.journaled Crypto.sample).step "j")
      (StoreKind.replica.journaled Crypto.sample).start
      [.perform (.accept sampleWire .zero), .stop, .reopen]) := by
  obtain ⟨after, applied⟩ := sampleWire_applied
  have first : (StoreKind.replica.journaled Crypto.sample).Careful ProofSorted
      (StoreKind.replica.journaled Crypto.sample).start (.perform (.accept sampleWire .zero)) := by
    intro live next line running made
    obtain rfl := Option.some.inj running
    have same := (Prod.mk.inj (Except.ok.inj (applied.symm.trans made))).2
    obtain rfl := Option.some.inj same
    refine ⟨fun raw decoded => ?_, fun env other => by cases other⟩
    obtain rfl := Option.some.inj decoded
    exact .inl rfl
  exact evidence_survives Crypto.sample .replica "j"
    ⟨first, fun _ _ _ _ => trivial, fun _ _ _ _ => trivial, trivial⟩

/-- A stop in the middle of a line, a reopening, the same root again, a reopening. -/
theorem not_evidence_survives : ¬(StoreKind.replica.journaled Crypto.sample).Survives
    (Run.run ((StoreKind.replica.journaled Crypto.sample).step "j")
      (StoreKind.replica.journaled Crypto.sample).start
      [.stopDuring (.accept sampleWire .zero) 1, .reopen, .perform (.accept sampleWire .zero),
        .reopen]) := by
  obtain ⟨after, applied⟩ := sampleWire_applied
  obtain ⟨e, shape⟩ := event_root sampleWire.valid
  have encodable : (encode (journalLine (rootLine sampleWire.json))).isOk = true := by decide +kernel
  obtain ⟨line, encoded⟩ := Py.exists_of_isOk encodable
  rw [← shape] at applied encoded
  exact JournaledStore.not_survives_glued "j" applied encoded

end JJDai.Replication
