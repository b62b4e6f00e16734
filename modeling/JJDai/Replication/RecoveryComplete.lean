import JJDai.Replication.HonestOrigin
import JJDai.Replication.Recovery

/-! A chain replicated in segments is recovered whole, once no gap is left below
the count of its root. -/

namespace JJDai.Replication

open PyText Canonical Merkle WitnessChain

variable {crypto : Crypto} {chain : WitnessChain}

variable (crypto chain) in
/-- Segments of the chain's node are stored only if `make_segment` made them from the chain. -/
def FromChain (store : SegmentStore) (offer : Json × PyFloat) : Prop :=
  ∀ outcome, store.accept crypto offer.1 offer.2 = .ok outcome → outcome.status = .stored →
    fieldOf offer.1 "node_id" = .str (chain.nodeId crypto) →
      ∃ sk state start stop ts, makeSegment crypto (upTo chain state) sk start stop ts = .ok offer.1

variable (crypto chain) in
/-- What is held of the chain's node are the chain's own records, each at its place. -/
def HeldFrom (store : SegmentStore) : Prop :=
  ∀ key rec, Dict.get? (store.held (chain.nodeId crypto)) key = some rec →
    0 ≤ key ∧ chain.records[key.toNat]? = some rec

theorem makeSegment_ok {sk : SigningKey} {start stop : Int} {ts : PyFloat} {env : Json}
    (made : makeSegment crypto chain sk start stop ts = .ok env) :
    0 ≤ start ∧ (∃ prevHash segmentHash, subscript env "body" =
      .ok (segmentBody (chain.nodeId crypto) start stop prevHash segmentHash ts)) ∧
      subscript env "records" = .ok (.arr (slice chain.records start stop)) := by
  simp only [makeSegment, bind, Py.unless_ok, not_not] at made
  obtain ⟨bounds, _, made⟩ := made
  cases records : slice chain.records start stop with
  | nil =>
    rw [records] at made
    cases made
  | cons first rest =>
    rw [records] at made
    simp only [Py.bind_ok] at made
    obtain ⟨prevHash, _, text, _, data, _, made⟩ := made
    obtain rfl := Except.ok.inj made
    exact ⟨bounds.1, ⟨prevHash, _, rfl⟩, rfl⟩

theorem slice_at {records : List Json} {start stop : Int} {n : Nat} {rec : Json}
    (found : (slice records start stop)[n]? = some rec) : records[start.toNat + n]? = some rec := by
  rw [slice, List.getElem?_drop, List.getElem?_take] at found
  split at found
  · exact found
  · cases found

theorem heldFrom_receive {store : SegmentStore} {offer : Json × PyFloat}
    (good : HeldFrom crypto chain store) (honest : FromChain crypto chain store offer) :
    HeldFrom crypto chain (store.receive crypto offer) := by
  rw [SegmentStore.receive]
  cases answered : store.accept crypto offer.1 offer.2 with
  | error e => exact good
  | ok outcome =>
    intro key rec found
    dsimp only at found
    rcases held_of_accept answered with same | ⟨status, segment, after, holding, stored⟩
    · rw [same] at found
      exact good key rec found
    · rw [stored, SegmentStore.held_set] at found
      split at found
      · rename_i own
        have named : fieldOf offer.1 "node_id" = .str (chain.nodeId crypto) := by
          rw [fieldOf_of_subscript segment.bodyRead, segment.node, own]
          rfl
        obtain ⟨sk, state, start, stop, ts, made⟩ := honest outcome answered status named
        obtain ⟨nonneg, ⟨prevHash, segmentHash, bodyRead⟩, recordsRead⟩ := makeSegment_ok made
        have body := Json.obj.inj (Except.ok.inj (segment.bodyRead.symm.trans bodyRead))
        have items := Json.arr.inj (Except.ok.inj (segment.recordsRead.symm.trans recordsRead))
        have place : segment.start = start := by
          have started := segment.started
          rw [body] at started
          exact (Option.some.inj started).symm
        rcases held_of_holdRecords segment.signed holding found with ⟨n, rfl, member⟩ | before
        · rw [items] at member
          have sliced := slice_at member
          rw [upTo, List.getElem?_take] at sliced
          split at sliced
          · refine ⟨by omega, ?_⟩
            rw [place, show (start + n).toNat = start.toNat + n by omega]
            exact sliced
          · cases sliced
        · exact good key rec (own ▸ before)
      · exact good key rec found

theorem heldFrom_after {offers : List (Json × PyFloat)}
    (honest : Run.Along (SegmentStore.receive crypto) (FromChain crypto chain) {} offers) :
    HeldFrom crypto chain (SegmentStore.after crypto offers) := by
  have start : HeldFrom crypto chain {} := by
    intro key rec found
    cases found
  have kept : ∀ store offer, HeldFrom crypto chain store → FromChain crypto chain store offer →
      HeldFrom crypto chain (SegmentStore.receive crypto store offer) :=
    fun store offer good => heldFrom_receive good
  exact Run.invariant kept start honest

def Covered (ranges : List (Int × Int)) (i : Int) : Prop := ∃ range ∈ ranges, range.1 ≤ i ∧ i < range.2

theorem covered_mergeRanges {ranges : List (Int × Int)} {indexes : List Int} {i : Int}
    (covered : Covered (mergeRanges ranges indexes) i) : Covered ranges i ∨ i ∈ indexes := by
  induction indexes generalizing ranges with
  | nil => exact .inl covered
  | cons first rest ih =>
    have single : Covered [(first, first + 1)] i → i = first := by
      rintro ⟨range, member, low, high⟩
      rw [List.mem_singleton.mp member] at low high
      dsimp only at low high
      omega
    rw [mergeRanges] at covered
    split at covered
    · rename_i start stop ending
      have last : (start, stop) ∈ ranges := List.mem_of_getLast? ending
      split at covered
      · rename_i adjacent
        rcases ih covered with ⟨range, member, low, high⟩ | later
        · rcases List.mem_append.mp member with front | new
          · exact .inl ⟨range, List.dropLast_subset _ front, low, high⟩
          · rw [List.mem_singleton.mp new] at low high
            by_cases inside : i < stop
            · exact .inl ⟨_, last, low, inside⟩
            · right
              rw [show i = first by dsimp only at high; omega]
              exact List.mem_cons_self
        · exact .inr (List.mem_cons_of_mem _ later)
      · rcases ih covered with ⟨range, member, low, high⟩ | later
        · rcases List.mem_append.mp member with front | new
          · exact .inl ⟨range, front, low, high⟩
          · rw [single ⟨range, new, low, high⟩]
            exact .inr List.mem_cons_self
        · exact .inr (List.mem_cons_of_mem _ later)
    · rcases ih covered with new | later
      · rw [single new]
        exact .inr List.mem_cons_self
      · exact .inr (List.mem_cons_of_mem _ later)

theorem gapsBelow_spec {count : Int} {ranges gaps : List (Int × Int)} {cursor : Int} :
    (∀ gap ∈ gaps, gap ∈ (gapsBelow count gaps cursor ranges).1) ∧
      ∀ i, cursor ≤ i → i < count → Covered (gapsBelow count gaps cursor ranges).1 i ∨
        Covered ranges i ∨ (gapsBelow count gaps cursor ranges).2 ≤ i := by
  induction ranges generalizing gaps cursor with
  | nil => exact ⟨fun gap member => member, fun i low _ => .inr (.inr low)⟩
  | cons range rest ih =>
    obtain ⟨start, stop⟩ := range
    rw [gapsBelow]
    generalize added : (if cursor < start then gaps ++ [(cursor, min start count)] else gaps) = gaps'
    have kept : ∀ gap ∈ gaps, gap ∈ gaps' := by
      intro gap member
      rw [← added]
      split
      · exact List.mem_append_left _ member
      · exact member
    have before : ∀ i, cursor ≤ i → i < start → i < count → Covered gaps' i := by
      intro i low high inside
      rw [← added, if_pos (by omega)]
      exact ⟨_, List.mem_append_right _ (List.mem_singleton_self _), low, lt_min high inside⟩
    have here (i : Int) (low : start ≤ i) (high : i < stop) : Covered ((start, stop) :: rest) i :=
      ⟨_, List.mem_cons_self, low, high⟩
    split
    · refine ⟨kept, fun i low inside => ?_⟩
      by_cases early : i < start
      · exact .inl (before i low early inside)
      · exact .inr (.inl (here i (by omega) (by omega)))
    · obtain ⟨keeps, spec⟩ := @ih gaps' (max cursor stop)
      refine ⟨fun gap member => keeps gap (kept gap member), fun i low inside => ?_⟩
      by_cases early : i < start
      · obtain ⟨gap, member, within⟩ := before i low early inside
        exact .inl ⟨gap, keeps gap member, within⟩
      · by_cases within : i < stop
        · exact .inr (.inl (here i (by omega) within))
        · rcases spec i (by omega) inside with gap | ⟨range, member, covers⟩ | ahead
          · exact .inl gap
          · exact .inr (.inl ⟨range, List.mem_cons_of_mem _ member, covers⟩)
          · exact .inr (.inr ahead)

theorem held_of_missing {store : SegmentStore} {origin : Str} {count : Int}
    (complete : store.missing origin count = []) {i : Int} (nonneg : 0 ≤ i) (below : i < count) :
    (Dict.get? (store.held origin) i).isSome := by
  rw [SegmentStore.missing] at complete
  obtain ⟨_, spec⟩ := @gapsBelow_spec count (store.coverage origin) [] 0
  generalize gapsBelow count [] 0 (store.coverage origin) = found at complete spec
  obtain ⟨gaps, cursor⟩ := found
  dsimp only at complete spec
  have none_left : ∀ gap ∈ (if cursor < count then gaps ++ [(cursor, count)] else gaps),
      ¬gap.1 < gap.2 := by simpa using complete
  have reached : ¬cursor < count := by
    intro short
    rw [if_pos short] at none_left
    exact none_left _ (List.mem_append_right _ (List.mem_singleton_self _)) short
  rw [if_neg reached] at none_left
  rcases spec i nonneg below with ⟨gap, member, low, high⟩ | covered | ahead
  · exact absurd (by omega) (none_left gap member)
  · rw [SegmentStore.coverage] at covered
    rcases covered_mergeRanges covered with ⟨_, member, _⟩ | held
    · cases member
    · exact Dict.mem_keys.mp ((List.mem_insertionSort _).mp held)
  · omega

theorem heldRecords_take {store : SegmentStore} (good : HeldFrom crypto chain store) {count : Nat}
    (inside : count ≤ chain.records.length)
    (complete : store.missing (chain.nodeId crypto) count = []) :
    heldRecords (store.held (chain.nodeId crypto)) count = .ok (chain.records.take count) := by
  refine Py.mapM_ok.mpr (List.forall₂_iff_get.mpr ⟨by simp [inside], ?_⟩)
  intro i first second
  rw [Int.toNat_natCast, List.length_range] at first
  obtain ⟨rec, found⟩ := Option.isSome_iff_exists.mp
    (held_of_missing complete (Int.natCast_nonneg i) (by exact_mod_cast first))
  obtain ⟨_, place⟩ := good i rec found
  have number : (List.range (count : Int).toNat).get ⟨i, by simpa using first⟩ = i := by simp
  have own : (chain.records.take count).get ⟨i, second⟩ = rec := by
    rw [Int.toNat_natCast] at place
    simpa using (List.getElem?_eq_some_iff.mp place).2
  rw [number, own, found]

theorem checkSeams_take {pub : Bytes} {i : Nat} {prev : Json} {records : List Json} (count : Nat)
    (verified : verifyLoop crypto pub i prev records = .ok true) :
    checkSeams i prev (records.take count) = .ok none := by
  induction records generalizing i prev count with
  | nil => simp [checkSeams, pure, Except.pure]
  | cons rec rest ih =>
    obtain ⟨fields, hash, rfl, record, prevHere, _, later⟩ := verifyLoop_cons.mp verified
    obtain ⟨prevHash, prevRead⟩ := Option.isSome_iff_exists.mp prevHere
    cases count with
    | zero => rfl
    | succ count =>
      have chained : Json.pyEq prevHash prev := by
        have linked := record.prevHash
        rwa [prevRead] at linked
      rw [List.take_succ_cons, checkSeams]
      simp only [subscript_obj.mpr prevRead, subscript_obj.mpr record.named, bind, Except.bind]
      rw [if_neg (not_not.mpr chained)]
      exact ih count later

theorem signedRoot_of_made (lawful : crypto.Lawful) {ts : PyFloat} {env : Json}
    (made : makeSignedRoot crypto chain chain.sk ts = .ok env) :
    ∃ head leaves, chain.headHash = .ok head ∧ chainLeaves chain = .ok leaves ∧
      verifySignedRoot crypto env = .ok (true, "ok") ∧
      subscript env "body" = .ok (rootBody (chain.nodeId crypto) chain.records.length head
        (hexJson (treeHead crypto leaves)) ts) := by
  simp only [makeSignedRoot, chainRoot, bind, Py.bind_ok] at made
  obtain ⟨head, headRead, root, ⟨leaves, leavesMade, rooted⟩, sealed⟩ := made
  rw [mthRoot_eq] at rooted
  obtain rfl := Except.ok.inj rooted
  obtain ⟨data, text, read⟩ := readEnvelope_seal sealed
  refine ⟨head, leaves, headRead, leavesMade, ?_, subscript_of_readEnvelope read⟩
  have root : SignedRoot crypto env := {
    body := _, pub := _, sig := _, count := chain.records.length, data := data
    read := read
    kind := rfl
    node := rfl
    counted := rfl
    nonneg := Int.natCast_nonneg _
    text := text
    verified := lawful _ _ }
  exact root.verifies

theorem recover_complete (lawful : crypto.Lawful) (verified : chain.verifyChain crypto = .ok true)
    {store : SegmentStore} (good : HeldFrom crypto chain store) {count : Nat}
    (inside : count ≤ chain.records.length) {ts : PyFloat} {env : Json}
    (made : makeSignedRoot crypto (upTo chain count) chain.sk ts = .ok env)
    (complete : store.missing (chain.nodeId crypto) count = []) :
    ∃ result, recoverRecords crypto store (chain.nodeId crypto) env = .ok result ∧
      result.ok = true ∧ result.records = some (chain.records.take count) := by
  obtain ⟨head, leaves, headRead, leavesMade, verifies, bodyRead⟩ := signedRoot_of_made lawful made
  have size : (upTo chain count).records.length = count := by simp [upTo, inside]
  rw [size] at bodyRead
  have rooted : recordsRoot crypto (chain.records.take count) =
      .ok (hexJson (treeHead crypto leaves)) := by
    have read : (chain.records.take count).mapM recordLeaf = .ok leaves := leavesMade
    simp only [recordsRoot, read, bind, Except.bind, mthRoot_eq]
  have last : lastHash (.str genesis) (chain.records.take count) = .ok head := headRead
  refine ⟨⟨true, some (chain.records.take count), .int count, hexJson (treeHead crypto leaves), [], "ok"⟩,
    ?_, rfl, rfl⟩
  have owner : (upTo chain count).nodeId crypto = chain.nodeId crypto := rfl
  rw [owner] at bodyRead
  have key : countKey (.int count) = count := rfl
  generalize shape : rootBody (chain.nodeId crypto) count head (hexJson (treeHead crypto leaves)) ts =
    body at bodyRead
  have node : subscript body "node_id" = .ok (.str (chain.nodeId crypto)) := by rw [← shape]; rfl
  have alg : dotGet body "root_alg" = .ok (.str "rfc6962") := by rw [← shape]; rfl
  have counted : subscript body "count" = .ok (.int count) := by rw [← shape]; rfl
  have root : subscript body "root" = .ok (hexJson (treeHead crypto leaves)) := by rw [← shape]; rfl
  have headHash : subscript body "head_hash" = .ok head := by rw [← shape]; rfl
  simp [recoverRecords, verifies, bodyRead, node, alg, counted, root, headHash, key, complete,
    heldRecords_take good inside complete, checkSeams_take count verified, rooted, last, bind, Except.bind,
    pure, Except.pure]

variable (crypto) in
/-- A recovered list has the root's count, is signed record by record by the origin and
chained from GENESIS; other records with that tree head have the same bodies in the same
order, or two of the byte strings hashed for the two lists collide. -/
def RecoveredSoundly (origin : Str) (env : Json) (result : Recovery) : Prop :=
  ∃ records, result.records = some records ∧
    asInt? (fieldOf env "count") = some (records.length : Int) ∧
    SignedFrom crypto origin 0 (.str genesis) records ∧
    recordsRoot crypto records = .ok (fieldOf env "root") ∧
    ∀ other, (∀ rec ∈ other, Hashed crypto rec) →
      recordsRoot crypto other = .ok (fieldOf env "root") →
        other.map bodyText = records.map bodyText ∨
          ∃ x ∈ recordInputs crypto records ++ recordInputs crypto other,
            ∃ y ∈ recordInputs crypto records ++ recordInputs crypto other,
              x ≠ y ∧ crypto.H x = crypto.H y

/-- A recovery that succeeds is the origin's history, and from the segments of one chain
without a gap it succeeds with exactly that chain's records. -/
theorem recovery_sound_and_complete (lawful : crypto.Lawful) :
    (∀ offers origin env result,
      recoverRecords crypto (SegmentStore.after crypto offers) origin env = .ok result →
        result.ok = true → RecoveredSoundly crypto origin env result) ∧
      ∀ (chain : WitnessChain) (offers : List (Json × PyFloat)) (count : Nat) (ts : PyFloat) (env : Json),
        chain.verifyChain crypto = .ok true →
        Run.Along (SegmentStore.receive crypto) (FromChain crypto chain) {} offers →
        count ≤ chain.records.length →
        makeSignedRoot crypto (upTo chain count) chain.sk ts = .ok env →
        (SegmentStore.after crypto offers).missing (chain.nodeId crypto) count = [] →
        ∃ result, recoverRecords crypto (SegmentStore.after crypto offers) (chain.nodeId crypto) env =
            .ok result ∧ result.ok = true ∧ result.records = some (chain.records.take count) := by
  constructor
  · intro offers origin env result answered ok
    obtain ⟨recovered⟩ := recovered_of_ok answered ok
    have signed := recovered.signed (heldSigned_after offers)
    refine ⟨recovered.records, recovered.returned, recovered.counted ▸ recovered.length, signed,
      recovered.rooted, ?_⟩
    intro other hashed rooted
    by_cases apart : Set.InjOn crypto.H
        {b | b ∈ recordInputs crypto recovered.records ++ recordInputs crypto other}
    · left
      exact bodies_unique (signedFrom_hashed signed) hashed recovered.rooted rooted apart
    · right
      simp only [Set.InjOn, Set.mem_ofPred_eq, not_forall] at apart
      obtain ⟨x, inX, y, inY, same, different⟩ := apart
      exact ⟨x, inX, y, inY, different, same⟩
  · intro chain offers count ts env verified honest inside made complete
    exact recover_complete lawful verified (heldFrom_after honest) inside made complete

/-- A log of one record, the segment of it and the root over it. -/
def sampleLog : WitnessChain where
  sk := .sample 1
  records := ((⟨.sample 1, []⟩ : WitnessChain).buildRecord Crypto.sample { kind := "INFER" }).toOption.toList

def sampleSegment : Json :=
  (makeSegment Crypto.sample (upTo sampleLog 1) (.sample 1) 0 1 .zero).toOption.getD .null

/-- The same record, with the hex digits of its signature in upper case. -/
def respelled : List Json :=
  sampleLog.records.map (fun record =>
    match record with
    | .obj fields =>
      match Dict.get? fields "sig" with
      | some (.str sig) => .obj (Dict.set fields "sig" (.str (sig.map (fun c =>
          if 97 ≤ c.val ∧ c.val ≤ 102 then Fin.ofNat _ (c.val - 32) else c))))
      | _ => record
    | _ => record)

private theorem sampleLog_told :
    (makeSegment Crypto.sample (upTo sampleLog 1) (.sample 1) 0 1 .zero = .ok sampleSegment ∧
      sampleLog.verifyChain Crypto.sample = .ok true ∧ sampleLog.records.length = 1) ∧
    ((SegmentStore.after Crypto.sample [(sampleSegment, .zero)]).missing
        (sampleLog.nodeId Crypto.sample) ((1 : Nat) : Int) = [] ∧
      (makeSignedRoot Crypto.sample (upTo sampleLog 1) (.sample 1) .zero).isOk = true) ∧
    (verifyRecords Crypto.sample ((SigningKey.sample 1).publicKey Crypto.sample)
        (sampleLog.nodeId Crypto.sample) 0 (.str genesis) respelled = .ok none ∧
      recordsRoot Crypto.sample respelled = recordsRoot Crypto.sample sampleLog.records ∧
      (∀ x ∈ recordInputs Crypto.sample sampleLog.records ++ recordInputs Crypto.sample respelled,
        ∀ y ∈ recordInputs Crypto.sample sampleLog.records ++ recordInputs Crypto.sample respelled,
          Crypto.sample.H x = Crypto.sample.H y → x = y) ∧
      respelled ≠ sampleLog.records) := by
  decide +kernel

theorem sampleSegment_made :
    makeSegment Crypto.sample (upTo sampleLog 1) (.sample 1) 0 1 .zero = .ok sampleSegment :=
  sampleLog_told.1.1

theorem sampleLog_verified : sampleLog.verifyChain Crypto.sample = .ok true := sampleLog_told.1.2.1

theorem sampleSegment_honest : Run.Along (SegmentStore.receive Crypto.sample)
    (FromChain Crypto.sample sampleLog) {} [(sampleSegment, .zero)] := by
  constructor
  · intro outcome answered status named
    refine ⟨.sample 1, 1, 0, 1, .zero, ?_⟩
    dsimp only
    exact sampleSegment_made
  · exact True.intro

theorem sampleSegment_complete : (SegmentStore.after Crypto.sample [(sampleSegment, .zero)]).missing
    (sampleLog.nodeId Crypto.sample) ((1 : Nat) : Int) = [] :=
  sampleLog_told.2.1.1

theorem recovery_sound_and_complete_sample :
    ∃ env result, makeSignedRoot Crypto.sample (upTo sampleLog 1) (.sample 1) .zero = .ok env ∧
      recoverRecords Crypto.sample (SegmentStore.after Crypto.sample [(sampleSegment, .zero)])
        (sampleLog.nodeId Crypto.sample) env = .ok result ∧
      result.ok = true ∧ result.records = some (sampleLog.records.take 1) ∧
      RecoveredSoundly Crypto.sample (sampleLog.nodeId Crypto.sample) env result := by
  obtain ⟨env, made⟩ := Py.exists_of_isOk sampleLog_told.2.1.2
  have both := recovery_sound_and_complete Crypto.sample_lawful
  obtain ⟨result, answered, ok, records⟩ :=
    both.2 sampleLog [(sampleSegment, .zero)] 1 .zero env sampleLog_verified sampleSegment_honest
      sampleLog_told.1.2.2.ge made sampleSegment_complete
  exact ⟨env, result, made, answered, ok, records, both.1 _ _ _ _ answered ok⟩

theorem root_of_recovered {store : SegmentStore} {origin : Str} {env : Json} {result : Recovery}
    {records : List Json} (answered : recoverRecords crypto store origin env = .ok result)
    (ok : result.ok = true) (returned : result.records = some records) :
    recordsRoot crypto records = .ok (fieldOf env "root") := by
  obtain ⟨recovered⟩ := recovered_of_ok answered ok
  rw [Option.some.inj (returned.symm.trans recovered.returned)]
  exact recovered.rooted

theorem respelled_passes : ∃ other,
    SignedFrom Crypto.sample (sampleLog.nodeId Crypto.sample) 0 (.str genesis) other ∧
      recordsRoot Crypto.sample other = recordsRoot Crypto.sample sampleLog.records ∧
      (∀ x ∈ recordInputs Crypto.sample sampleLog.records ++ recordInputs Crypto.sample other,
        ∀ y ∈ recordInputs Crypto.sample sampleLog.records ++ recordInputs Crypto.sample other,
          Crypto.sample.H x = Crypto.sample.H y → x = y) ∧
      other ≠ sampleLog.records := by
  obtain ⟨_, _, read, head, apart, different⟩ := sampleLog_told
  generalize respelled = other at read head apart different
  exact ⟨other, signedFrom_of_verified rfl read, head, apart, different⟩

/-- A recovered list is not the only list of signed records with its tree head. -/
theorem not_only_list : ¬∀ offers origin env result,
    recoverRecords Crypto.sample (SegmentStore.after Crypto.sample offers) origin env = .ok result →
      result.ok = true → ∃ records, result.records = some records ∧
        ∀ other, SignedFrom Crypto.sample origin 0 (.str genesis) other →
          recordsRoot Crypto.sample other = .ok (fieldOf env "root") →
          Set.InjOn Crypto.sample.H
            {b | b ∈ recordInputs Crypto.sample records ++ recordInputs Crypto.sample other} →
          other = records := by
  intro only
  obtain ⟨env, made⟩ := Py.exists_of_isOk sampleLog_told.2.1.2
  have whole : sampleLog.records.take 1 = sampleLog.records := List.take_of_length_le sampleLog_told.1.2.2.le
  obtain ⟨result, answered, ok, returned⟩ := recover_complete Crypto.sample_lawful sampleLog_verified
    (heldFrom_after sampleSegment_honest) sampleLog_told.1.2.2.ge made sampleSegment_complete
  obtain ⟨records, same, unique⟩ := only _ _ env result answered ok
  rw [whole] at returned
  have list : sampleLog.records = records := Option.some.inj (returned.symm.trans same)
  rw [← list] at unique
  have rooted := root_of_recovered answered ok returned
  obtain ⟨other, signed, head, apart, different⟩ := respelled_passes
  refine different (unique other signed (head.trans rooted) ?_)
  intro x inX y inY
  exact apart x inX y inY

end JJDai.Replication
