import Mathlib.Data.Finset.Card
import JJDai.Primitive.VerifiedRecord
import JJDai.Primitive.WritableRecord
import JJDai.Replication.Coverage

/-! Segment catch-up: a store asks for the first gap, is given that segment of the chain, and has
the whole chain after finitely many rounds. -/

namespace JJDai.Replication

open PyText Canonical WitnessChain

/-- A chain as its node writes it: every record was appended to those before it. -/
inductive OwnChain (crypto : Crypto) : WitnessChain → Prop
  | empty (sk : SigningKey) : OwnChain crypto { sk := sk, records := [] }
  | append {chain : WitnessChain} {call : AppendCall} {written : Appended} (before : OwnChain crypto chain)
      (made : chain.append crypto call = .ok written) : OwnChain crypto written.chain

/-- What a record needs, beside its signature, to travel in a segment. -/
structure Carried (nodeId : Str) (rec : Json) : Prop where
  node : dotGet rec "node_id" = .ok (.str nodeId)
  previous : ∃ hash, subscript rec "prev_hash" = .ok hash
  text : writable rec

variable {crypto : Crypto} {chain : WitnessChain}

theorem carried_built {call : AppendCall} {rec : Json} (built : chain.buildRecord crypto call = .ok rec) :
    Carried (chain.nodeId crypto) rec := by
  simp only [buildRecord, bind, Py.bind_ok] at built
  obtain ⟨_, _, _, _, _, _, _, _, data, text, _, _, made⟩ := built
  obtain rfl := Except.ok.inj made
  refine ⟨rfl, ⟨_, rfl⟩, ?_⟩
  have body := (canonical_isOk _).mp (by rw [text]; rfl)
  rw [writable_obj] at body ⊢
  intro entry member
  rcases List.mem_append.mp member with inside | sealed
  · exact body entry inside
  · have keys : encodable "this_hash" ∧ encodable "sig" := by decide
    have hash : encodable (H_hex crypto data) := encodable_hash data
    simp only [List.mem_cons, List.not_mem_nil, or_false] at sealed
    rcases sealed with rfl | rfl
    · exact ⟨keys.1, hash⟩
    · exact ⟨keys.2, encodable_toHex _⟩

theorem OwnChain.carried (own : OwnChain crypto chain) : ∀ rec ∈ chain.records, Carried (chain.nodeId crypto) rec := by
  induction own with
  | empty sk => simp
  | append before made ih =>
    obtain ⟨built, grown, _⟩ := append_parts made
    rw [grown]
    intro rec member
    rcases List.mem_append.mp member with old | new
    · exact ih rec old
    · have last := carried_built built
      rw [List.mem_singleton.mp new]
      exact last

theorem OwnChain.verifies (lawful : crypto.Lawful) (own : OwnChain crypto chain) :
    verifyLoop crypto (chain.sk.publicKey crypto) 0 (.str genesis) chain.records = .ok true := by
  have verified : chain.verifyChain crypto = .ok true := by
    induction own with
    | empty sk => rfl
    | append before made ih => exact verifyChain_append lawful made ih
  exact verified

theorem verifyLoop_slice {pub : Bytes} {i : Nat} {prev : Json} {records : List Json}
    (verified : verifyLoop crypto pub i prev records = .ok true) (front count : Nat) :
    ∃ head, verifyLoop crypto pub (i + front) head ((records.drop front).take count) = .ok true ∧
      (front = 0 → head = prev) := by
  induction records generalizing i prev front count with
  | nil => exact ⟨prev, by simp [verifyLoop, pure, Except.pure], fun _ => rfl⟩
  | cons rec rest ih =>
    obtain ⟨fields, hash, shape, record, prevHere, sigHere, later⟩ := verifyLoop_cons.mp verified
    cases front with
    | succ front =>
      obtain ⟨head, inner, _⟩ := ih later front count
      refine ⟨head, ?_, by simp⟩
      rw [show i + (front + 1) = i + 1 + front by omega]
      exact inner
    | zero =>
      refine ⟨prev, ?_, fun _ => rfl⟩
      cases count with
      | zero => rfl
      | succ count =>
        obtain ⟨head, inner, same⟩ := ih later 0 count
        rw [same rfl] at inner
        exact verifyLoop_cons.mpr ⟨fields, hash, shape, record, prevHere, sigHere, inner⟩

theorem verifyRecords_of_loop {pub : Bytes} {origin : Str} {i : Nat} {prev : Json} {records : List Json}
    (verified : verifyLoop crypto pub i prev records = .ok true)
    (named : ∀ rec ∈ records, dotGet rec "node_id" = .ok (.str origin)) :
    verifyRecords crypto pub origin i prev records = .ok none := by
  induction records generalizing i prev with
  | nil => rfl
  | cons rec rest ih =>
    obtain ⟨fields, hash, rfl, record, _, _, later⟩ := verifyLoop_cons.mp verified
    have node := named _ List.mem_cons_self
    rw [dotGet_obj, Except.ok.injEq] at node
    have rest := ih later (fun other member => named other (List.mem_cons_of_mem _ member))
    exact verifyRecords_cons.mpr ⟨fields, hash, rfl, some_of_getD node (by simp), record, by simpa using rest⟩

/-- The facts of one request that the chain can serve. -/
structure Inside (chain : WitnessChain) (start stop : Int) : Prop where
  nonneg : 0 ≤ start
  some_in : start < stop
  below : stop ≤ chain.records.length
  small : stop - start ≤ maxSegmentRecords

theorem Inside.cons {start stop : Int} (inside : Inside chain start stop) :
    ∃ first rest, slice chain.records start stop = first :: rest := by
  have size : (slice chain.records start stop).length = stop.toNat - start.toNat := by
    obtain ⟨nonneg, some_in, below, _⟩ := inside
    rw [slice, List.length_drop, List.length_take]
    omega
  cases shape : slice chain.records start stop with
  | nil =>
    obtain ⟨nonneg, some_in, below, _⟩ := inside
    rw [shape, List.length_nil] at size
    omega
  | cons first rest => exact ⟨first, rest, rfl⟩

theorem length_slice {start stop : Int} (inside : Inside chain start stop) :
    ((slice chain.records start stop).length : Int) = stop - start := by
  obtain ⟨nonneg, some_in, below, _⟩ := inside
  rw [slice, List.length_drop, List.length_take]
  omega

theorem mem_slice {records : List Json} {start stop : Int} {rec : Json} (member : rec ∈ slice records start stop) :
    rec ∈ records :=
  List.mem_of_mem_take (List.mem_of_mem_drop member)

theorem slice_eq {records : List Json} {start stop : Int} :
    slice records start stop = (records.drop start.toNat).take (stop.toNat - start.toNat) := by
  rw [slice, List.drop_take]

theorem writable_segmentBody {nodeId hash : Str} {start stop : Int} {prevHash : Json} (name : encodable nodeId)
    (previous : writable prevHash) (digest : encodable hash) (clock : Decimal) :
    writable (segmentBody nodeId start stop prevHash (.str hash) (.finite clock)) := by
  have named : writable (.str nodeId) := name
  have hashed : writable (.str hash) := digest
  have number (n : Int) : writable (.int n) := rfl
  have time : writable (.float (.finite clock)) := rfl
  rw [segmentBody, writable_obj]
  simp only [List.mem_cons, List.not_mem_nil, or_false, forall_eq_or_imp, forall_eq]
  simp only [named, hashed, previous, number, time, and_true]
  decide +kernel

theorem makeSegment_inside (own : OwnChain crypto chain) {start stop : Int} (inside : Inside chain start stop)
    (clock : Decimal) : ∃ env, makeSegment crypto chain chain.sk start stop (.finite clock) = .ok env := by
  obtain ⟨first, rest, shape⟩ := inside.cons
  have carried : ∀ rec ∈ first :: rest, Carried (chain.nodeId crypto) rec := by
    intro rec member
    rw [← shape] at member
    exact own.carried rec (mem_slice member)
  have head := carried first List.mem_cons_self
  obtain ⟨prevHash, prevRead⟩ := head.previous
  obtain ⟨text, records⟩ := canonical_ok (writable_arr.mpr (fun rec member => (carried rec member).text))
  have prevText : writable prevHash := by
    have text := head.text
    obtain ⟨fields, rfl⟩ := obj_of_subscript prevRead
    exact (writable_obj.mp text _ (Dict.mem_of_get? (subscript_obj.mp prevRead))).2
  have sound : writable (segmentBody (chain.nodeId crypto) start stop prevHash (.str (H_hex crypto text))
      (.finite clock)) := writable_segmentBody (encodable_nodeId crypto _) prevText (encodable_hash text) clock
  obtain ⟨data, body⟩ := canonical_ok sound
  have bounds : ¬¬(0 ≤ start ∧ start < stop ∧ stop ≤ chain.records.length) :=
    not_not.mpr ⟨inside.nonneg, inside.some_in, inside.below⟩
  have small := not_lt.mpr inside.small
  simp only [makeSegment, bounds, small, if_false, shape, prevRead, records, body, bind, Except.bind]
  exact ⟨_, rfl⟩

theorem verifyLoop_head {pub : Bytes} {i : Nat} {head prevHash rec : Json} {rest : List Json}
    (verified : verifyLoop crypto pub i head (rec :: rest) = .ok true) (read : subscript rec "prev_hash" = .ok prevHash) :
    verifyLoop crypto pub i prevHash (rec :: rest) = .ok true ∧ Json.pyEq prevHash head := by
  obtain ⟨fields, hash, rfl, record, prevHere, sigHere, later⟩ := verifyLoop_cons.mp verified
  have found := subscript_obj.mp read
  have chained := record.prevHash
  rw [found, Option.getD_some] at chained
  refine ⟨verifyLoop_cons.mpr ⟨fields, hash, rfl, { record with prevHash := ?_ }, prevHere, sigHere, later⟩, chained⟩
  rw [found]
  exact Json.pyEq.refl prevHash

theorem inside_of_made {sk : SigningKey} {start stop : Int} {ts : PyFloat} {env : Json}
    (made : makeSegment crypto chain sk start stop ts = .ok env) : Inside chain start stop := by
  simp only [makeSegment, bind, Py.unless_ok, not_not, not_lt] at made
  obtain ⟨⟨nonneg, some_in, below⟩, small, _⟩ := made
  exact ⟨nonneg, some_in, below, small⟩

theorem verifySegment_made (lawful : crypto.Lawful) (own : OwnChain crypto chain) {start stop : Int} {ts : PyFloat}
    {env : Json} (made : makeSegment crypto chain chain.sk start stop ts = .ok env) :
    verifySegment crypto env = .ok (true, "ok") := by
  have inside := inside_of_made made
  obtain ⟨first, rest, shape⟩ := inside.cons
  have length := length_slice inside
  obtain ⟨nonneg, some_in, below, _⟩ := inside
  simp only [makeSegment, bind, Py.unless_ok, shape, Py.bind_ok] at made
  obtain ⟨_, _, prevHash, prevRead, text, records, data, body, made⟩ := made
  obtain rfl := Except.ok.inj made
  obtain ⟨head, sliced, atStart⟩ := verifyLoop_slice (own.verifies lawful) start.toNat (stop.toNat - start.toNat)
  rw [← slice_eq, shape] at sliced
  obtain ⟨verified, chained⟩ := verifyLoop_head sliced prevRead
  have named : ∀ rec ∈ first :: rest, dotGet rec "node_id" = .ok (.str (chain.nodeId crypto)) := by
    intro rec member
    rw [← shape] at member
    exact (own.carried rec (mem_slice member)).node
  have signed := verifyRecords_of_loop verified named
  have place : ((0 + start.toNat : Nat) : Int) = start := by omega
  rw [place] at signed
  have genesisFirst : ¬(start = 0 ∧ prevHash ≠ .str genesis) := by
    rintro ⟨rfl, different⟩
    rw [atStart rfl] at chained
    exact different (Json.pyEq_str.mp chained)
  generalize made : segmentBody (chain.nodeId crypto) start stop prevHash (.str (H_hex crypto text)) ts = bodyJson at body
  have kind : dotGet bodyJson "kind" = .ok (.str "WITNESS_SEGMENT") := by subst made; rfl
  have node : dotGet bodyJson "node_id" = .ok (.str (chain.nodeId crypto)) := by subst made; rfl
  have starts : dotGet bodyJson "start" = .ok (.int start) := by subst made; rfl
  have stops : dotGet bodyJson "end" = .ok (.int stop) := by subst made; rfl
  have hash : dotGet bodyJson "segment_hash" = .ok (.str (H_hex crypto text)) := by subst made; rfl
  have previous : dotGet bodyJson "prev_hash" = .ok prevHash := by subst made; rfl
  have owner : canonicalNodeId crypto (chain.sk.publicKey crypto) = chain.nodeId crypto := rfl
  have read : readSegment (.obj [("body", bodyJson), ("records", .arr (first :: rest)),
      ("pub", .str (toHex (chain.sk.publicKey crypto))),
      ("sig", .str (toHex (chain.sk.sign crypto (segmentDomain ++ data))))]) =
      .ok (bodyJson, .arr (first :: rest), chain.sk.publicKey crypto, chain.sk.sign crypto (segmentDomain ++ data)) := by
    simp [readSegment, subscript, bytesFromHex_toHex, bind, Except.bind, pure, Except.pure]
  have accepted : crypto.verify (chain.sk.publicKey crypto) (segmentDomain ++ data)
      (chain.sk.sign crypto (segmentDomain ++ data)) = true := lawful _ _
  have bounds : ¬¬(0 ≤ start ∧ start < stop) := not_not.mpr ⟨nonneg, some_in⟩
  rw [shape] at length
  simp only [verifySegment, read, kind, node, owner, body, accepted, starts, stops, asInt?, bounds, pyLen, length, records,
    hash, previous, genesisFirst, pyList, signed, bind, Except.bind, pure, Except.pure, ne_eq, not_true_eq_false, if_false,
    Bool.not_true, Bool.false_eq_true]

section Hold

variable {origin : Str} {i : Int} {prev : Json} {items : List Json} {held after : Dict Int Json}

/-- Records that agree with what is held are no conflict, and those not held are counted. -/
theorem compareRecords_own (signed : SignedFrom crypto origin i prev items)
    (agrees : ∀ n : Nat, ∀ rec, items[n]? = some rec → ∀ current, Dict.get? held (i + n) = some current → current = rec)
    (fresh : Nat) : ∃ more, compareRecords held fresh items = .ok (.inl (fresh + more)) ∧
      ((∃ n < items.length, Dict.get? held (i + (n : Nat)) = none) → 0 < more) := by
  induction items generalizing i prev fresh with
  | nil => exact ⟨0, rfl, by simp⟩
  | cons rec rest ih =>
    obtain ⟨pub, fields, hash, owner, rfl, node, record, later⟩ := signed
    obtain ⟨index, indexRead, number⟩ := record.index
    have next : ∀ n : Nat, i + 1 + (n : Int) = i + ((n + 1 : Nat) : Int) := by
      intro n
      push_cast
      ring
    have agreesLater : ∀ n : Nat, ∀ rec, rest[n]? = some rec → ∀ current,
        Dict.get? held (i + 1 + n) = some current → current = rec := by
      intro n rec found current present
      exact agrees (n + 1) rec (by simpa using found) current (by rw [← next]; exact present)
    have shifted (found : ∃ n < rest.length + 1, Dict.get? held (i + (n : Nat)) = none)
        (first : (Dict.get? held i).isSome) : ∃ n < rest.length, Dict.get? held (i + 1 + (n : Nat)) = none := by
      obtain ⟨n, inside, absent⟩ := found
      cases n with
      | zero =>
        rw [Nat.cast_zero, add_zero] at absent
        rw [absent] at first
        cases first
      | succ n => exact ⟨n, by omega, by rw [next]; exact absent⟩
    simp only [compareRecords, subscript_obj.mpr indexRead, indexKey_of_pyEq number, bind, Except.bind]
    cases present : Dict.get? held i with
    | none =>
      obtain ⟨more, compared, _⟩ := ih later agreesLater (fresh + 1)
      exact ⟨more + 1, by rw [compared, show fresh + 1 + more = fresh + (more + 1) by omega], fun _ => by omega⟩
    | some current =>
      obtain rfl := agrees 0 _ rfl current (by simpa using present)
      obtain ⟨more, compared, counted⟩ := ih later agreesLater fresh
      refine ⟨more, ?_, fun found => counted (shifted found (by rw [present]; rfl))⟩
      simp only [subscript_obj.mpr record.named, Json.pyEq.refl, not_true_eq_false, if_false, compared]

/-- Holding records loses none of those held, and has each of the new ones at its index. -/
theorem holdRecords_keeps (signed : SignedFrom crypto origin i prev items) (made : holdRecords held items = .ok after) :
    (∀ key, (Dict.get? held key).isSome → (Dict.get? after key).isSome) ∧
      ∀ n < items.length, (Dict.get? after (i + (n : Nat))).isSome := by
  induction items generalizing i prev held with
  | nil =>
    obtain rfl := Except.ok.inj made
    exact ⟨fun key present => present, by simp⟩
  | cons rec rest ih =>
    obtain ⟨pub, fields, hash, owner, rfl, node, record, later⟩ := signed
    obtain ⟨index, indexRead, number⟩ := record.index
    simp only [holdRecords, subscript_obj.mpr indexRead, indexKey_of_pyEq number, bind, Except.bind] at made
    obtain ⟨keeps, has⟩ := ih later made
    constructor
    · intro key present
      refine keeps key ?_
      rw [Dict.get?_set]
      split
      · rfl
      · exact present
    · intro n inside
      cases n with
      | zero => exact keeps _ (by simp)
      | succ n =>
        have there := has n (by simpa using inside)
        rwa [show i + 1 + (n : Int) = i + ((n + 1 : Nat) : Int) by push_cast; ring] at there

theorem holdRecords_unique (unique : (Dict.keys held).Nodup) (made : holdRecords held items = .ok after) :
    (Dict.keys after).Nodup := by
  induction items generalizing held with
  | nil =>
    obtain rfl := Except.ok.inj made
    exact unique
  | cons rec rest ih =>
    simp only [holdRecords, bind, Py.bind_ok] at made
    obtain ⟨index, _, made⟩ := made
    exact ih (Dict.nodup_set unique _ _) made

end Hold

variable (crypto chain) in
/-- A store that holds nothing of the node but the chain's own records, each once. -/
structure Ready (store : SegmentStore) : Prop where
  own : HeldFrom crypto chain store
  unique : (Dict.keys (store.held (chain.nodeId crypto))).Nodup

theorem unique_receive {store : SegmentStore} {origin : Str} (unique : (Dict.keys (store.held origin)).Nodup)
    (offer : Json × PyFloat) : (Dict.keys ((store.receive crypto offer).held origin)).Nodup := by
  rw [SegmentStore.receive]
  cases answered : store.accept crypto offer.1 offer.2 with
  | error e => exact unique
  | ok outcome =>
    dsimp only
    rcases held_of_accept answered with same | ⟨_, segment, after, holding, stored⟩
    · rw [same]
      exact unique
    · rw [stored, SegmentStore.held_set]
      split
      · rename_i here
        subst here
        exact holdRecords_unique unique holding
      · exact unique

variable (crypto chain) in
/-- A segment that the node made of its chain, at some state of it. -/
def Offered (offer : Json × PyFloat) : Prop :=
  ∃ state start stop ts, makeSegment crypto (upTo chain state) chain.sk start stop ts = .ok offer.1

theorem ready_receive {store : SegmentStore} (ready : Ready crypto chain store) {offer : Json × PyFloat}
    (honest : Offered crypto chain offer) : Ready crypto chain (store.receive crypto offer) := by
  obtain ⟨state, start, stop, ts, made⟩ := honest
  exact ⟨heldFrom_receive ready.own (fun _ _ _ _ => ⟨chain.sk, state, start, stop, ts, made⟩),
    unique_receive ready.unique offer⟩

theorem ready_after {offers : List (Json × PyFloat)} (honest : ∀ offer ∈ offers, Offered crypto chain offer) :
    Ready crypto chain (SegmentStore.after crypto offers) := by
  have start : Ready crypto chain {} := by
    refine ⟨?_, List.nodup_nil⟩
    intro key rec found
    cases found
  have kept : ∀ store offer, Ready crypto chain store → Offered crypto chain offer →
      Ready crypto chain (SegmentStore.receive crypto store offer) :=
    fun store offer ready honest => ready_receive ready honest
  exact Run.invariant_of_forall kept start honest

theorem Ready.complement {store : SegmentStore} (ready : Ready crypto chain store) (count : Int) :
    Complement (store.coverage (chain.nodeId crypto)) 0 count (store.missing (chain.nodeId crypto) count) := by
  refine missing_complement ready.unique ?_ count
  intro i present
  obtain ⟨rec, found⟩ := Option.isSome_iff_exists.mp present
  exact (ready.own i rec found).1

theorem nextGap_inside {store : SegmentStore} (ready : Ready crypto chain store) {start stop : Int}
    (wanted : store.nextGap (chain.nodeId crypto) chain.records.length = some (start, stop)) :
    Inside chain start stop ∧ Dict.get? (store.held (chain.nodeId crypto)) start = none := by
  have complement := ready.complement chain.records.length
  obtain ⟨_, covers⟩ := coverage_spec ready.unique
  rw [SegmentStore.nextGap] at wanted
  cases gaps : store.missing (chain.nodeId crypto) chain.records.length with
  | nil =>
    rw [gaps] at wanted
    cases wanted
  | cons gap rest =>
    rw [gaps] at wanted complement
    obtain ⟨first, last⟩ := gap
    obtain ⟨rfl, rfl⟩ := Prod.mk.inj (Option.some.inj wanted)
    have bounds := complement.inside _ List.mem_cons_self
    have some_in := complement.separated.some_in _ List.mem_cons_self
    dsimp only at bounds some_in
    have positive : 0 < maxSegmentRecords := by decide
    constructor
    · exact ⟨bounds.1, by omega, by omega, by omega⟩
    · have outside := (complement.covers first bounds.1 (by omega)).mp ⟨_, List.mem_cons_self, le_refl _, some_in⟩
      rw [covers] at outside
      simpa using outside

theorem accept_made (lawful : crypto.Lawful) (own : OwnChain crypto chain) {store : SegmentStore}
    (ready : Ready crypto chain store) {start stop : Int} {ts now : PyFloat} {env : Json}
    (made : makeSegment crypto chain chain.sk start stop ts = .ok env)
    (absent : Dict.get? (store.held (chain.nodeId crypto)) start = none) :
    ∃ outcome, store.accept crypto env now = .ok outcome ∧ outcome.status = .stored ∧
      (∀ key, (Dict.get? (store.held (chain.nodeId crypto)) key).isSome →
        (Dict.get? (outcome.store.held (chain.nodeId crypto)) key).isSome) ∧
      (Dict.get? (outcome.store.held (chain.nodeId crypto)) start).isSome := by
  have verified := verifySegment_made lawful own made
  have inside := inside_of_made made
  obtain ⟨nonneg, ⟨prevHash, segmentHash, bodyRead⟩, recordsRead⟩ := makeSegment_ok made
  obtain ⟨segment⟩ := segment_of_verified verified
  have body := Json.obj.inj (Except.ok.inj (segment.bodyRead.symm.trans bodyRead))
  have items := Json.arr.inj (Except.ok.inj (segment.recordsRead.symm.trans recordsRead))
  have origin : segment.origin = chain.nodeId crypto := by
    have node := segment.node
    rw [body] at node
    exact (Json.str.inj (Option.some.inj node)).symm
  have place : segment.start = start := by
    have started := segment.started
    rw [body] at started
    exact (Option.some.inj started).symm
  have signed := segment.signed
  have node := segment.node
  rw [origin] at node signed
  rw [place, items] at signed
  have some_in : 0 < (slice chain.records start stop).length := by
    have length := length_slice inside
    have bound := inside.some_in
    omega
  have agrees : ∀ n : Nat, ∀ rec, (slice chain.records start stop)[n]? = some rec → ∀ current,
      Dict.get? (store.held (chain.nodeId crypto)) (start + n) = some current → current = rec := by
    intro n rec found current present
    obtain ⟨_, there⟩ := ready.own _ _ present
    rw [show (start + n).toNat = start.toNat + n by omega, slice_at found] at there
    exact (Option.some.inj there).symm
  obtain ⟨more, compared, counted⟩ := compareRecords_own signed agrees 0
  have fresh : 0 + more ≠ 0 := by
    have positive := counted ⟨0, some_in, by simpa using absent⟩
    omega
  have indexed : ∀ item ∈ slice chain.records start stop, ∃ index, subscript item "index" = .ok index := by
    intro item member
    obtain ⟨n, found⟩ := List.mem_iff_getElem?.mp member
    obtain ⟨_, _, fields, _, _, rfl, _, record, _⟩ := signed.at found
    obtain ⟨index, read, _⟩ := record.index
    exact ⟨index, subscript_obj.mpr read⟩
  obtain ⟨after, holding⟩ := holdRecords_ok (store.held (chain.nodeId crypto)) indexed
  obtain ⟨keeps, has⟩ := holdRecords_keeps signed holding
  refine ⟨⟨{ store with records := Dict.set store.records (chain.nodeId crypto) after }, some (segmentLine env), .stored,
    natText (0 + more) ++ " new record(s)"⟩, ?_, rfl, ?_, ?_⟩
  · simp only [SegmentStore.accept, SegmentStore.hold, verified, segment.bodyRead, recordsRead, subscript_obj.mpr node,
      originKey, pyList, compared, fresh, holding, bind, Except.bind, pure, Except.pure, Bool.not_true,
      Bool.false_eq_true, if_false]
  · intro key present
    rw [SegmentStore.held_set, if_pos rfl]
    exact keeps key present
  · rw [SegmentStore.held_set, if_pos rfl]
    simpa using has 0 some_in

variable (crypto chain) in
/-- The places of the chain that are still to come. -/
def unheld (store : SegmentStore) : Finset Nat :=
  (Finset.range chain.records.length).filter
    (fun i => (Dict.get? (store.held (chain.nodeId crypto)) (i : Int)).isNone)

theorem round_stored (lawful : crypto.Lawful) (own : OwnChain crypto chain) {store : SegmentStore}
    (ready : Ready crypto chain store) {start stop : Int}
    (wanted : store.nextGap (chain.nodeId crypto) chain.records.length = some (start, stop)) (clock : Decimal)
    (now : PyFloat) : ∃ env outcome, makeSegment crypto chain chain.sk start stop (.finite clock) = .ok env ∧
      store.accept crypto env now = .ok outcome ∧ outcome.status = .stored ∧ Ready crypto chain outcome.store ∧
      (unheld crypto chain outcome.store).card < (unheld crypto chain store).card := by
  obtain ⟨inside, absent⟩ := nextGap_inside ready wanted
  obtain ⟨env, made⟩ := makeSegment_inside own inside clock
  obtain ⟨outcome, answered, status, keeps, has⟩ := @accept_made _ _ lawful own store ready _ _ _ now _ made absent
  have next : store.receive crypto (env, now) = outcome.store := by
    simp only [SegmentStore.receive, answered]
  have whole : upTo chain chain.records.length = chain := by
    rw [upTo, List.take_length]
  have ready' := ready_receive ready
    (show Offered crypto chain (env, now) from ⟨chain.records.length, start, stop, .finite clock, by rw [whole]; exact made⟩)
  rw [next] at ready'
  refine ⟨env, outcome, made, answered, status, ready', Finset.card_lt_card ?_⟩
  obtain ⟨nonneg, some_in, below, _⟩ := inside
  have number : ((start.toNat : Nat) : Int) = start := Int.toNat_of_nonneg nonneg
  rw [Finset.ssubset_iff_of_subset]
  · refine ⟨start.toNat, ?_, ?_⟩
    · rw [unheld, Finset.mem_filter, Finset.mem_range, number, absent]
      exact ⟨by omega, rfl⟩
    · rw [unheld, Finset.mem_filter, number]
      rintro ⟨_, gone⟩
      rw [Option.isNone_iff_eq_none.mp gone] at has
      cases has
  · intro i member
    rw [unheld, Finset.mem_filter] at member ⊢
    refine ⟨member.1, ?_⟩
    cases before : Dict.get? (store.held (chain.nodeId crypto)) (i : Int) with
    | none => rfl
    | some rec =>
      have kept := keeps i (by rw [before]; rfl)
      rw [Option.isNone_iff_eq_none.mp member.2] at kept
      cases kept

/-- Round after round while a gap is named; each round reads the two clocks once. -/
def catchUp (crypto : Crypto) (chain : WitnessChain) (store : SegmentStore) : List (Decimal × PyFloat) → Py SegmentStore
  | [] => return store
  | (clock, now) :: later =>
    match store.nextGap (chain.nodeId crypto) chain.records.length with
    | none => return store
    | some (start, stop) => do
      let env ← makeSegment crypto chain chain.sk start stop (.finite clock)
      let outcome ← store.accept crypto env now
      catchUp crypto chain outcome.store later

theorem catchUp_ends (lawful : crypto.Lawful) (own : OwnChain crypto chain) {store : SegmentStore}
    (ready : Ready crypto chain store) {times : List (Decimal × PyFloat)}
    (enough : (unheld crypto chain store).card ≤ times.length) :
    ∃ final, catchUp crypto chain store times = .ok final ∧
      final.nextGap (chain.nodeId crypto) chain.records.length = none := by
  induction times generalizing store with
  | nil =>
    refine ⟨store, rfl, ?_⟩
    cases wanted : store.nextGap (chain.nodeId crypto) chain.records.length with
    | none => rfl
    | some gap =>
      obtain ⟨_, _, _, _, _, _, fewer⟩ := round_stored lawful own ready wanted ⟨false, 0, 0, by decide⟩ .zero
      rw [List.length_nil] at enough
      omega
  | cons time later ih =>
    obtain ⟨clock, now⟩ := time
    rw [catchUp]
    cases wanted : store.nextGap (chain.nodeId crypto) chain.records.length with
    | none => exact ⟨store, rfl, wanted⟩
    | some gap =>
      obtain ⟨env, outcome, made, answered, _, ready', fewer⟩ := round_stored lawful own ready wanted clock now
      rw [List.length_cons] at enough
      obtain ⟨final, ended, none_left⟩ := ih ready' (by omega)
      exact ⟨final, by simp only [made, answered, bind, Except.bind]; exact ended, none_left⟩

/-- The gaps named below any count are the ordered maximal ranges that what is held leaves open, and
asking for the first of them as often as the chain has records leaves none. -/
structure CatchesUp (crypto : Crypto) (chain : WitnessChain) (store : SegmentStore) : Prop where
  covers : ∀ i, Covered (store.coverage (chain.nodeId crypto)) i ↔
    (Dict.get? (store.held (chain.nodeId crypto)) i).isSome
  gaps : ∀ count, Complement (store.coverage (chain.nodeId crypto)) 0 count (store.missing (chain.nodeId crypto) count)
  maximal : ∀ count, ∀ gap ∈ store.missing (chain.nodeId crypto) count,
    (gap.1 = 0 ∨ Covered (store.coverage (chain.nodeId crypto)) (gap.1 - 1)) ∧
      (gap.2 = count ∨ Covered (store.coverage (chain.nodeId crypto)) gap.2)
  ends : ∀ times : List (Decimal × PyFloat), chain.records.length ≤ times.length →
    ∃ final, catchUp crypto chain store times = .ok final ∧
      final.nextGap (chain.nodeId crypto) chain.records.length = none

theorem segments_catch_up {crypto : Crypto} {chain : WitnessChain} {offers : List (Json × PyFloat)}
    (lawful : crypto.Lawful) (own : OwnChain crypto chain) (honest : ∀ offer ∈ offers, Offered crypto chain offer) :
    CatchesUp crypto chain (SegmentStore.after crypto offers) := by
  have ready := ready_after honest
  refine ⟨(coverage_spec ready.unique).2, ready.complement, ?_, ?_⟩
  · intro count gap member
    exact (ready.complement count).maximal member
  · intro times long
    refine catchUp_ends lawful own ready ?_
    have bound := Finset.card_filter_le (Finset.range chain.records.length)
      (fun i => (Dict.get? ((SegmentStore.after crypto offers).held (chain.nodeId crypto)) (i : Int)).isNone = true)
    rw [Finset.card_range] at bound
    exact le_trans bound long

/-- One record, and a store that has nothing of it yet. -/
theorem segments_catch_up_sample :
    ∃ chain, chain.records.length = 1 ∧ CatchesUp Crypto.sample chain (SegmentStore.after Crypto.sample []) := by
  let call : AppendCall := { kind := "INFER" }
  have facts : checkAppend call = .ok () ∧ encodable call.kind ∧ writable call.timestamp := by decide +kernel
  obtain ⟨written, made, _⟩ := @append_writable Crypto.sample ⟨.sample 1, []⟩ (linked_empty rfl) call
    ⟨facts.1, facts.2.2, rfl⟩ facts.2.1 rfl rfl rfl rfl
  refine ⟨written.chain, ?_, segments_catch_up Crypto.sample_lawful (.append (.empty _) made) (by simp)⟩
  rw [(append_parts made).2.1]
  rfl

end JJDai.Replication
