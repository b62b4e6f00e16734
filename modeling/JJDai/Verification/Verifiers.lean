import JJDai.Primitive.DurableText
import JJDai.Primitive.WitnessReader
import JJDai.Replication.CatchUp
import JJDai.Verification.CrossVerify

/-! The four verifiers of a witness log, and on which logs they agree. -/

namespace JJDai.Verifiers

open PyText Canonical Durable WitnessChain CrossVerifier Replication

variable (crypto : Crypto)

/-- Every record is at its place, linked to the one before it, named by its hash and signed with the key. -/
def Sealed (pub : Bytes) : Nat → Json → List Json → Prop
  | _, _, [] => True
  | i, prev, rec :: rest => ∃ fields hash, rec = .obj fields ∧ SignedRecord crypto pub i prev hash fields ∧
      Sealed pub (i + 1) (.str hash) rest

/-- Every record names the node of the key. -/
def Named (pub : Bytes) (records : List Json) : Prop :=
  ∀ rec ∈ records, dotGet rec "node_id" = .ok (.str (canonicalNodeId crypto pub))

def onlyNode (pub : Bytes) (node : Json) : Option Bytes :=
  if node = .str (canonicalNodeId crypto pub) then some pub else none

/-- The export of a list, with its last hash. -/
structure ExportOf (pub : Bytes) (records : List Json) (exported : Json) : Prop where
  pubkey : subscript exported "pubkey" = .ok (.str (toHex pub))
  list : subscript exported "records" = .ok (.arr records)
  head : ∀ hash, lastHash (.str genesis) records = .ok hash → subscript exported "head" = .ok hash

/-- The segment `[0, n)` of a list, signed with the key. -/
structure SegmentOf (pub : Bytes) (records : List Json) (env body : Json) (data sig : Bytes) : Prop where
  read : readSegment env = .ok (body, .arr records, pub, sig)
  kind : dotGet body "kind" = .ok (.str "WITNESS_SEGMENT")
  node : dotGet body "node_id" = .ok (.str (canonicalNodeId crypto pub))
  start : dotGet body "start" = .ok (.int 0)
  stop : dotGet body "end" = .ok (.int records.length)
  prevHash : ∀ rec prev, records.head? = some rec → subscript rec "prev_hash" = .ok prev →
    dotGet body "prev_hash" = .ok prev
  segmentHash : ∀ text, canonical (.arr records) = .ok text →
    dotGet body "segment_hash" = .ok (.str (H_hex crypto text))
  text : canonical body = .ok data
  signed : crypto.verify pub (segmentDomain ++ data) sig = true

/-- One list of records, as each verifier is given it. -/
structure Presented (pub : Bytes) (records : List Json) (chain : WitnessChain) (reader : WitnessReader)
    (exported : Json) (index : Nat) (env : Json) : Prop where
  some_left : records ≠ []
  dicts : ∀ rec ∈ records, rec.valid ∧ ∃ fields, rec = .obj fields
  chain : chain.records = records
  log : reader.records = .ok records
  exports : ExportOf pub records exported
  inside : index < records.length
  segment : ∃ body data sig, SegmentOf crypto pub records env body data sig

def Agree (pub : Bytes) (chain : WitnessChain) (reader : WitnessReader) (exported : Json) (index : Nat)
    (env : Json) : Prop :=
  let verified := chain.verifyChain crypto pub = .ok true
  let walked := ∃ result, reader.verify crypto (some (onlyNode crypto pub)) = .ok result
  let found := ∃ rec, rechainAndFind crypto exported (.int index) = .ok rec
  let accepted := ∃ reason, verifySegment crypto env = .ok (true, reason)
  (verified ∧ walked ∧ found ∧ accepted) ∨ (¬verified ∧ ¬walked ∧ ¬found ∧ ¬accepted)

variable {crypto} {pub : Bytes} {records : List Json}

theorem verifyLoop_iff (unsigned : ∀ message, crypto.verify pub message [] = false) {i : Nat} {prev : Str} :
    verifyLoop crypto pub i (.str prev) records = .ok true ↔ Sealed crypto pub i (.str prev) records := by
  induction records generalizing i prev with
  | nil => simp [verifyLoop, Sealed, pure, Except.pure]
  | cons rec rest ih =>
    rw [verifyLoop_cons, Sealed]
    constructor
    · rintro ⟨fields, hash, shape, record, _, _, later⟩
      exact ⟨fields, hash, shape, record, ih.mp later⟩
    · rintro ⟨fields, hash, shape, record, later⟩
      refine ⟨fields, hash, shape, record, ?_, ?_, ih.mpr later⟩
      · cases found : Dict.get? fields "prev_hash" with
        | some value => rfl
        | none =>
          have chained := record.prevHash
          rw [found] at chained
          cases chained
      · cases found : Dict.get? fields "sig" with
        | some value => rfl
        | none =>
          obtain ⟨data, sig, _, decoded, verifies⟩ := record.signed
          rw [found] at decoded
          obtain rfl := Except.ok.inj decoded
          rw [unsigned] at verifies
          cases verifies

theorem checkSigner_onlyNode {n : Nat} {fields : Dict Str Json} {hash : Str} :
    WitnessReader.checkSigner crypto (some (onlyNode crypto pub)) n fields hash = .ok () ↔
      Dict.get? fields "node_id" = some (.str (canonicalNodeId crypto pub)) ∧
        ∃ data value sig, encode hash = .ok data ∧ Dict.get? fields "sig" = some value ∧
          bytesFromHex value = .ok sig ∧ crypto.verify pub data sig = true := by
  by_cases named : Dict.get? fields "node_id" = some (.str (canonicalNodeId crypto pub))
  · simp only [WitnessReader.checkSigner, onlyNode, named, Option.getD_some, if_true, bind, Py.bind_ok, Py.unless_ok,
      subscript_obj, Bool.not_eq_true', Bool.not_eq_false, true_and, pure, Except.pure, and_true, exists_and_left]
  · have other : (Dict.get? fields "node_id").getD .null ≠ .str (canonicalNodeId crypto pub) := by
      intro same
      exact named (some_of_getD same (by simp))
    simp [WitnessReader.checkSigner, onlyNode, named, other, raise]

theorem readerLoop_iff {i : Nat} {prev : Json} :
    (∃ result, WitnessReader.verifyLoop crypto (some (onlyNode crypto pub)) i prev records = .ok result) ↔
      verifyLoop crypto pub i prev records = .ok true ∧ Named crypto pub records := by
  induction records generalizing i prev with
  | nil => simp [WitnessReader.verifyLoop, verifyLoop, Named, pure, Except.pure]
  | cons rec rest ih =>
    constructor
    · rintro ⟨result, walked⟩
      obtain ⟨fields, index, before, data, rfl, indexRead, number, beforeRead, chained, text, hashRead, signer,
        later⟩ := WitnessReader.verifyLoop_cons.mp walked
      obtain ⟨named, signed, value, sig, encoded, valueRead, decoded, verifies⟩ := checkSigner_onlyNode.mp signer
      obtain ⟨after, others⟩ := ih.mp ⟨result, later⟩
      refine ⟨verifyLoop_cons.mpr ⟨fields, _, rfl, ⟨⟨index, indexRead, number⟩, ?_, ⟨data, text, rfl⟩, hashRead,
        signed, sig, encoded, ?_, verifies⟩, by simp [beforeRead], by simp [valueRead], after⟩, ?_⟩
      · rwa [beforeRead]
      · rwa [valueRead]
      · intro other member
        rcases List.mem_cons.mp member with rfl | inside
        · rw [dotGet_obj, named]
          rfl
        · exact others other inside
    · rintro ⟨verified, named⟩
      obtain ⟨fields, hash, rfl, record, prevHere, sigHere, later⟩ := verifyLoop_cons.mp verified
      obtain ⟨⟨index, indexRead, number⟩, chained, ⟨data, text, rfl⟩, hashRead, signed, sig, encoded, decoded,
        verifies⟩ := record
      obtain ⟨before, beforeRead⟩ := Option.isSome_iff_exists.mp prevHere
      obtain ⟨value, valueRead⟩ := Option.isSome_iff_exists.mp sigHere
      rw [beforeRead] at chained
      rw [valueRead] at decoded
      have node := named _ List.mem_cons_self
      rw [dotGet_obj, Except.ok.injEq] at node
      obtain ⟨result, walked⟩ := ih.mpr ⟨later, fun other inside => named other (List.mem_cons_of_mem _ inside)⟩
      exact ⟨result, WitnessReader.verifyLoop_cons.mpr ⟨fields, index, before, data, rfl, indexRead, number,
        beforeRead, chained, text, hashRead, checkSigner_onlyNode.mpr ⟨some_of_getD node (by simp), signed, value,
          sig, encoded, valueRead, decoded, verifies⟩, walked⟩⟩

theorem rechainLoop_iff {receiptIndex : Json} {i : Nat} {prev : Json} {found : Option Json} :
    (∃ result, rechainLoop crypto pub receiptIndex i prev found records = .ok result) ↔
      verifyLoop crypto pub i prev records = .ok true := by
  induction records generalizing i prev found with
  | nil => simp [rechainLoop, verifyLoop, pure, Except.pure]
  | cons rec rest ih =>
    cases rec with
    | obj fields =>
      simp only [rechainLoop, bind, Py.bind_ok, Py.unless_ok, not_not, subscript_obj, verifyLoop_cons]
      constructor
      · rintro ⟨result, index, indexRead, number, before, beforeRead, chained, hash, hashRead, data, text, named,
          signed, encoded, value, valueRead, sig, decoded, verifies, later⟩
        subst named
        refine ⟨fields, _, rfl, ⟨⟨index, indexRead, number⟩, ?_, ⟨data, text, rfl⟩, hashRead, signed, sig, encoded,
          ?_, by simpa using verifies⟩, by simp [beforeRead], by simp [valueRead], ih.mp ⟨result, later⟩⟩
        · rwa [beforeRead]
        · rwa [valueRead]
      · rintro ⟨_, hash, shape, record, prevHere, sigHere, later⟩
        cases shape
        obtain ⟨⟨index, indexRead, number⟩, chained, ⟨data, text, rfl⟩, hashRead, signed, sig, encoded, decoded,
          verifies⟩ := record
        obtain ⟨before, beforeRead⟩ := Option.isSome_iff_exists.mp prevHere
        obtain ⟨value, valueRead⟩ := Option.isSome_iff_exists.mp sigHere
        rw [beforeRead] at chained
        rw [valueRead] at decoded
        obtain ⟨result, walked⟩ := ih.mpr later
        exact ⟨result, index, indexRead, number, before, beforeRead, chained, _, hashRead, data, text, rfl, signed,
          encoded, value, valueRead, sig, decoded, by simpa using verifies, walked⟩
    | _ =>
      constructor
      · rintro ⟨_, walked⟩
        cases walked
      · intro verified
        cases verified

theorem rechainLoop_result {index i : Nat} {prev : Json} {found : Option Json} {result : Option Json × Json}
    (walked : rechainLoop crypto pub (.int index) i prev found records = .ok result) :
    lastHash prev records = .ok result.2 ∧
      (found.isSome ∨ (i ≤ index ∧ index < i + records.length) → result.1.isSome) := by
  induction records generalizing i prev found with
  | nil =>
    obtain rfl := Except.ok.inj walked
    refine ⟨rfl, ?_⟩
    rintro (already | ⟨low, high⟩)
    · exact already
    · exact absurd high (by simpa using low)
  | cons rec rest ih =>
    cases rec with
    | obj fields =>
      simp only [rechainLoop, bind, Py.bind_ok, Py.unless_ok, not_not] at walked
      obtain ⟨_, _, _, _, _, _, hash, hashRead, _, _, _, _, _, _, _, _, _, _, later⟩ := walked
      obtain ⟨last, finds⟩ := ih later
      refine ⟨(lastHash_cons hashRead).trans last, fun here => finds ?_⟩
      by_cases this : i = index
      · left
        rw [this, if_pos (Json.pyEq.refl _)]
        rfl
      · rcases here with already | ⟨low, high⟩
        · left
          split
          · rfl
          · exact already
        · right
          rw [List.length_cons] at high
          omega
    | _ => cases walked

theorem verifyRecords_iff {i : Nat} {prev : Json} :
    verifyRecords crypto pub (canonicalNodeId crypto pub) i prev records = .ok none ↔
      Sealed crypto pub i prev records ∧ Named crypto pub records := by
  induction records generalizing i prev with
  | nil => simp [verifyRecords, Sealed, Named, pure, Except.pure]
  | cons rec rest ih =>
    rw [verifyRecords_cons, Sealed]
    have next : ((i : Int) + 1) = ((i + 1 : Nat) : Int) := rfl
    constructor
    · rintro ⟨fields, hash, shape, node, record, later⟩
      rw [next] at later
      obtain ⟨after, named⟩ := ih.mp later
      refine ⟨⟨fields, hash, shape, record, after⟩, fun other member => ?_⟩
      rcases List.mem_cons.mp member with rfl | inside
      · rw [shape, dotGet_obj, node]
        rfl
      · exact named other inside
    · rintro ⟨⟨fields, hash, shape, record, after⟩, named⟩
      have node := named rec List.mem_cons_self
      rw [shape, dotGet_obj, Except.ok.injEq] at node
      refine ⟨fields, hash, shape, some_of_getD node (by simp), record, ?_⟩
      rw [next]
      exact ih.mpr ⟨after, fun other inside => named other (List.mem_cons_of_mem _ inside)⟩

theorem writable_of_signed {fields : Dict Str Json} {i : Int} {prev : Json} {hash : Str} (sound : (Json.obj fields).valid)
    (record : SignedRecord crypto pub i prev hash fields) : writable (.obj fields) := by
  obtain ⟨data, text, rfl⟩ := record.hashed
  have body : writable (.obj (unsignedRecord fields)) := (canonical_isOk _).mp (by rw [text]; rfl)
  have unique := (Json.valid_obj.mp sound).1
  have keys : encodable "this_hash" ∧ encodable "sig" := by decide
  rw [writable_obj] at body ⊢
  rintro ⟨key, value⟩ member
  have held := Dict.get?_of_mem unique member
  by_cases hash : key = "this_hash"
  · subst hash
    obtain rfl := Option.some.inj (held.symm.trans record.named)
    exact ⟨keys.1, encodable_hash data⟩
  · by_cases sig : key = "sig"
    · subst sig
      obtain ⟨_, bytes, _, decoded, _⟩ := record.signed
      rw [held, Option.getD_some] at decoded
      obtain ⟨text, rfl, read⟩ := bytesFromHex_ok.mp decoded
      exact ⟨keys.2, encodable_of_fromHex read⟩
    · exact body _ (List.mem_filter.mpr ⟨member, by simp [hash, sig]⟩)

theorem writable_of_sealed {i : Nat} {prev : Json} (sound : ∀ rec ∈ records, rec.valid)
    (closed : Sealed crypto pub i prev records) : ∀ rec ∈ records, writable rec := by
  induction records generalizing i prev with
  | nil => simp
  | cons first rest ih =>
    obtain ⟨fields, hash, rfl, record, later⟩ := closed
    intro rec member
    rcases List.mem_cons.mp member with rfl | inside
    · exact writable_of_signed (sound _ List.mem_cons_self) record
    · exact ih (fun other inside => sound other (List.mem_cons_of_mem _ inside)) later rec inside

section Presented

variable {env body : Json} {data sig : Bytes}

/-- The checks of an envelope that was signed for this list hold; what is left are those on the list. -/
theorem SegmentOf.accepted_iff (segment : SegmentOf crypto pub records env body data sig)
    (some_left : records ≠ []) {reason : Str} :
    verifySegment crypto env = .ok (true, reason) ↔ reason = "ok" ∧ (∃ text, canonical (.arr records) = .ok text) ∧
      dotGet body "prev_hash" = .ok (.str genesis) ∧
      verifyRecords crypto pub (canonicalNodeId crypto pub) 0 (.str genesis) records = .ok none := by
  have positive : 0 < (records.length : Int) := by
    have := List.length_pos_iff.mpr some_left
    omega
  simp only [verifySegment, segment.read, segment.kind, segment.node, segment.text, segment.signed, segment.start,
    segment.stop, asInt?, pyList, bind, Py.bind_ok, guard_ok, ne_eq, not_not, Except.ok.injEq, exists_eq_left',
    Bool.not_true, Bool.false_eq_true, not_false_eq_true, true_and, le_refl, positive, sub_zero]
  constructor
  · rintro ⟨_, _, _, text, whole, _, _, _, _, before, first, result, checked, accepted⟩
    subst first
    cases result with
    | some refusal => cases accepted
    | none =>
      obtain ⟨_, rfl⟩ := Prod.mk.inj (Except.ok.inj accepted)
      exact ⟨rfl, ⟨text, whole⟩, before, checked⟩
  · rintro ⟨same, ⟨text, whole⟩, before, checked⟩
    subst same
    exact ⟨_, rfl, rfl, text, whole, _, segment.segmentHash text whole, rfl, _, before, rfl, none, checked, rfl⟩

theorem SegmentOf.accepts_iff (segment : SegmentOf crypto pub records env body data sig)
    (some_left : records ≠ []) (sound : ∀ rec ∈ records, rec.valid) :
    (∃ reason, verifySegment crypto env = .ok (true, reason)) ↔
      Sealed crypto pub 0 (.str genesis) records ∧ Named crypto pub records := by
  simp only [segment.accepted_iff some_left, exists_eq_left]
  rw [← verifyRecords_iff]
  constructor
  · intro ⟨_, _, checked⟩
    exact checked
  · intro checked
    obtain ⟨closed, _⟩ := verifyRecords_iff.mp checked
    refine ⟨canonical_ok (writable_arr.mpr (writable_of_sealed sound closed)), ?_, checked⟩
    cases records with
    | nil => exact absurd rfl some_left
    | cons first rest =>
      obtain ⟨fields, hash, rfl, record, _⟩ := closed
      have linked := Json.pyEq_str.mp record.prevHash
      exact segment.prevHash _ _ rfl (subscript_obj.mpr (some_of_getD linked (by simp)))

variable {chain : WitnessChain} {reader : WitnessReader} {exported : Json} {index : Nat}

theorem rechain_iff (exports : ExportOf pub records exported) (inside : index < records.length) :
    (∃ rec, rechainAndFind crypto exported (.int index) = .ok rec) ↔
      verifyLoop crypto pub 0 (.str genesis) records = .ok true := by
  have list : pyList (.arr records) = .ok records := rfl
  rw [← @rechainLoop_iff crypto pub records (.int index) 0 (.str genesis) none]
  simp only [rechainAndFind, exports.pubkey, exports.list, list, bytesFromHex_toHex, bind, Py.bind_ok, Except.ok.injEq,
    exists_eq_left']
  constructor
  · rintro ⟨rec, result, walked, _⟩
    exact ⟨result, walked⟩
  · rintro ⟨⟨found, last⟩, walked⟩
    obtain ⟨ended, finds⟩ := rechainLoop_result walked
    obtain ⟨rec, rfl⟩ := Option.isSome_iff_exists.mp (finds (.inr (by omega)))
    refine ⟨rec, _, walked, last, exports.head last ended, ?_⟩
    have same : ¬(¬Json.pyEq last last ∧ truthy (.arr records)) := fun both => both.1 (Json.pyEq.refl last)
    rw [if_neg same]
    rfl

end Presented

variable {chain : WitnessChain} {reader : WitnessReader} {exported env : Json} {index : Nat}

/-- The four verifiers agree on a list exactly when it is not one that the key sealed while a record in it
names another node. -/
theorem verifiers_agree_iff (key : pub ≠ []) (unsigned : ∀ message, crypto.verify pub message [] = false)
    (given : Presented crypto pub records chain reader exported index env) :
    Agree crypto pub chain reader exported index env ↔
      (Sealed crypto pub 0 (.str genesis) records → Named crypto pub records) := by
  obtain ⟨body, data, sig, segment⟩ := given.segment
  have verified : chain.verifyChain crypto pub = .ok true ↔ Sealed crypto pub 0 (.str genesis) records := by
    rw [WitnessChain.verifyChain, if_neg key, given.chain, verifyLoop_iff unsigned]
  have walked : (∃ result, reader.verify crypto (some (onlyNode crypto pub)) = .ok result) ↔
      Sealed crypto pub 0 (.str genesis) records ∧ Named crypto pub records := by
    rw [← verifyLoop_iff unsigned, ← readerLoop_iff]
    simp only [WitnessReader.verify, given.log, bind, Except.bind]
  have found := @rechain_iff crypto _ _ _ _ given.exports given.inside
  rw [verifyLoop_iff unsigned] at found
  have accepted := segment.accepts_iff given.some_left (fun rec member => (given.dicts rec member).1)
  simp only [Agree, verified, walked, found, accepted]
  tauto

variable (crypto) in
/-- The segment of a whole list that starts at genesis. -/
def wholeSegment (nodeId : Str) (records : List Json) (list : Bytes) : Json :=
  segmentBody nodeId 0 records.length (.str genesis) (.str (H_hex crypto list)) .zero

variable (crypto) in
def signedSegment (sk : SigningKey) (records : List Json) (body : Json) (data : Bytes) : Json :=
  .obj [("body", body), ("records", .arr records), ("pub", .str (toHex (sk.publicKey crypto))),
    ("sig", .str (toHex (sk.sign crypto (segmentDomain ++ data))))]

theorem segmentOf_signed (lawful : crypto.Lawful) (sk : SigningKey) {list data : Bytes}
    (linked : ∀ rec prev, records.head? = some rec → subscript rec "prev_hash" = .ok prev → prev = .str genesis)
    (listed : canonical (.arr records) = .ok list)
    (written : canonical (wholeSegment crypto (canonicalNodeId crypto (sk.publicKey crypto)) records list) = .ok data) :
    SegmentOf crypto (sk.publicKey crypto) records
      (signedSegment crypto sk records (wholeSegment crypto (canonicalNodeId crypto (sk.publicKey crypto)) records list) data)
      (wholeSegment crypto (canonicalNodeId crypto (sk.publicKey crypto)) records list) data
      (sk.sign crypto (segmentDomain ++ data)) := by
  refine ⟨?_, rfl, rfl, rfl, rfl, ?_, ?_, written, lawful _ _⟩
  · simp [signedSegment, readSegment, subscript, bytesFromHex_toHex, bind, Except.bind, pure, Except.pure]
  · intro rec prev here read
    rw [linked rec prev here read]
    rfl
  · intro again canon
    obtain rfl := Except.ok.inj (listed.symm.trans canon)
    rfl

theorem exists_presented (lawful : crypto.Lawful) (sk : SigningKey) {nodeId : Str} (plain : encodable nodeId) :
    ∃ rec reader exported env, Presented crypto (sk.publicKey crypto) [rec] { sk := sk, records := [rec] } reader
        exported 0 env ∧
      Sealed crypto (sk.publicKey crypto) 0 (.str genesis) [rec] ∧ dotGet rec "node_id" = .ok (.str nodeId) := by
  have name : writable (.str nodeId) := plain
  have number (n : Int) : writable (.int n) := rfl
  have first : writable (.str genesis) := by decide
  have whole : writable (.obj [("index", .int 0), ("node_id", .str nodeId), ("prev_hash", .str genesis)]) := by
    rw [writable_obj]
    simp only [List.mem_cons, List.not_mem_nil, or_false, forall_eq_or_imp, forall_eq, name, number, first, and_true]
    decide
  obtain ⟨text, made⟩ := canonical_ok whole
  obtain ⟨signed, encoded⟩ := encode_toHex (crypto.H text)
  -- The keys stand in the order in which the log is written.
  generalize shape : ([("index", .int 0), ("node_id", .str nodeId), ("prev_hash", .str genesis),
    ("sig", .str (toHex (sk.sign crypto signed))), ("this_hash", .str (H_hex crypto text))] : Dict Str Json) = fields
  have record : SignedRecord crypto (sk.publicKey crypto) 0 (.str genesis) (H_hex crypto text) fields := by
    subst shape
    exact ⟨⟨_, rfl, Json.pyEq.refl _⟩, Json.pyEq.refl _, ⟨text, made, rfl⟩, rfl, signed, _, encoded,
      bytesFromHex_toHex _, lawful _ _⟩
  have sound : (Json.obj fields).valid := by
    subst shape
    rfl
  have carried := writable_of_signed sound record
  have sorted : (Json.obj fields).sortKeys = .obj fields := by
    subst shape
    rfl
  obtain ⟨file, written⟩ := Py.exists_of_isOk ((durableAppend_isOk [] (.obj fields)).mpr (encodable_of_writable carried))
  have log : (WitnessReader.mk (some file)).records = .ok [.obj fields] := by
    have holds : Holds file [⟨fields, sound⟩] := Holds.append Holds.nil written
    rw [WitnessReader.records_holds holds, stored, List.map_singleton, Event.json, sorted]
  obtain ⟨list, listed⟩ := canonical_ok (writable_arr.mpr (by simpa using carried) : writable (.arr [.obj fields]))
  obtain ⟨data, written⟩ := canonical_ok (writable_segmentBody (encodable_nodeId crypto (sk.publicKey crypto)) first
    (encodable_hash list) _ : writable (wholeSegment crypto _ [.obj fields] list))
  have named : Dict.get? fields "node_id" = some (.str nodeId) := by
    subst shape
    rfl
  have linked : Dict.get? fields "prev_hash" = some (.str genesis) := by
    subst shape
    rfl
  refine ⟨.obj fields, ⟨some file⟩, .obj [("pubkey", .str (toHex (sk.publicKey crypto))),
    ("records", .arr [.obj fields]), ("head", .str (H_hex crypto text))], _,
    ⟨by simp, ?_, rfl, log, ⟨rfl, rfl, ?_⟩, by simp, _, data, _, segmentOf_signed lawful sk ?_ listed written⟩,
    ⟨fields, _, rfl, record, trivial⟩, ?_⟩
  · intro rec member
    rw [List.mem_singleton.mp member]
    exact ⟨sound, fields, rfl⟩
  · intro hash last
    rw [lastHash, List.getLast?_singleton] at last
    obtain rfl := Except.ok.inj ((subscript_obj.mpr record.named).symm.trans last)
    rfl
  · intro rec prev here read
    obtain rfl := Option.some.inj here
    exact Option.some.inj ((subscript_obj.mp read).symm.trans linked)
  · rw [dotGet_obj, named]
    rfl

theorem sample_unsigned (message : Bytes) :
    Crypto.sample.verify ((SigningKey.sample 1).publicKey Crypto.sample) message [] = false := by
  simp [Crypto.sample, SigningKey.publicKey, SigningKey.sample]

theorem verifiers_agree_iff_sample : ∃ rec reader exported env,
    Agree Crypto.sample ((SigningKey.sample 1).publicKey Crypto.sample) { sk := .sample 1, records := [rec] } reader
        exported 0 env ↔
      (Sealed Crypto.sample ((SigningKey.sample 1).publicKey Crypto.sample) 0 (.str genesis) [rec] →
        Named Crypto.sample ((SigningKey.sample 1).publicKey Crypto.sample) [rec]) := by
  obtain ⟨rec, reader, exported, env, given, _⟩ :=
    exists_presented Crypto.sample_lawful (.sample 1) (encodable_nodeId Crypto.sample ((SigningKey.sample 1).publicKey Crypto.sample))
  exact ⟨rec, reader, exported, env, verifiers_agree_iff (by decide) sample_unsigned given⟩

/-- A chain with a record that its own key signed under another node's name: `verify_chain` accepts it, and
`verify_segment` does not. -/
theorem verifiers_disagree : ¬ ∀ pub records chain reader exported index env,
    Presented Crypto.sample pub records chain reader exported index env →
      Agree Crypto.sample pub chain reader exported index env := by
  intro always
  obtain ⟨rec, reader, exported, env, given, closed, stray⟩ :=
    exists_presented Crypto.sample_lawful (.sample 1) (show encodable "node:other" by decide)
  obtain ⟨body, data, sig, segment⟩ := given.segment
  have verified : WitnessChain.verifyChain Crypto.sample { sk := .sample 1, records := [rec] }
      ((SigningKey.sample 1).publicKey Crypto.sample) = .ok true := by
    rw [WitnessChain.verifyChain, if_neg (by decide)]
    exact (verifyLoop_iff sample_unsigned).mpr closed
  rcases always _ _ _ _ _ _ _ given with ⟨_, _, _, accepted⟩ | ⟨refused, _⟩
  · obtain ⟨_, named⟩ := (segment.accepts_iff given.some_left (fun other member => (given.dicts other member).1)).mp accepted
    have same := (stray.symm.trans (named rec List.mem_cons_self))
    exact absurd (Json.str.inj (Except.ok.inj same)) (by decide +kernel)
  · exact refused verified

end JJDai.Verifiers
