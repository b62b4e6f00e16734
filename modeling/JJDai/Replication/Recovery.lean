import JJDai.Lib.HashTreeUnique
import JJDai.Primitive.ChainVerification
import JJDai.Replication.PeerEvidence

/-! `recover_records`: a log put together again from replicated segments, and what
a successful recovery says about it. -/

namespace JJDai.Replication

open PyText Canonical Merkle WitnessChain
open HashTree hiding Bytes

variable (crypto : Crypto)

def segmentBody (nodeId : Str) (start stop : Int) (prevHash segmentHash : Json) (ts : PyFloat) : Json :=
  .obj [("kind", .str "WITNESS_SEGMENT"), ("node_id", .str nodeId), ("start", .int start),
    ("end", .int stop), ("prev_hash", prevHash), ("segment_hash", segmentHash), ("ts", .float ts)]

def slice (records : List Json) (start stop : Int) : List Json :=
  (records.take stop.toNat).drop start.toNat

def makeSegment (chain : WitnessChain) (sk : SigningKey) (start stop : Int) (ts : PyFloat) :
    Py Json := do
  let n : Int := chain.records.length
  if ¬(0 ≤ start ∧ start < stop ∧ stop ≤ n) then
    raise .segmentError ("segment [" ++ intText start ++ ", " ++ intText stop ++ ") outside [0, " ++
      intText n ++ ")")
  if maxSegmentRecords < stop - start then
    raise .segmentError ("segment of " ++ intText (stop - start) ++ " records exceeds the " ++
      intText maxSegmentRecords ++ "-record cap; chunk the request")
  match slice chain.records start stop with
  | [] => raise .indexError
  | first :: rest =>
    let prevHash ← subscript first "prev_hash"
    let text ← canonical (.arr (first :: rest))
    let body := segmentBody (chain.nodeId crypto) start stop prevHash (.str (H_hex crypto text)) ts
    let data ← canonical body
    return .obj [("body", body), ("records", .arr (first :: rest)),
      ("pub", .str (toHex (sk.publicKey crypto))),
      ("sig", .str (toHex (sk.sign crypto (segmentDomain ++ data))))]

structure Recovery where
  ok : Bool
  records : Option (List Json)
  count : Json
  root : Json
  missing : List (Int × Int)
  reason : Str

def Recovery.refused (count root : Json) (missing : List (Int × Int)) (reason : Str) : Recovery :=
  ⟨false, none, count, root, missing, reason⟩

def heldRecords (held : Dict Int Json) (count : Int) : Py (List Json) :=
  (List.range count.toNat).mapM (fun (i : Nat) =>
    match Dict.get? held (i : Int) with
    | some record => .ok record
    | none => raise .keyError)

/-- The loop over the seams: the first index whose record does not follow, if any. -/
def checkSeams : Nat → Json → List Json → Py (Option Nat)
  | _, _, [] => return none
  | i, prev, rec :: rest => do
    if ¬Json.pyEq (← subscript rec "prev_hash") prev then return some i
    checkSeams (i + 1) (← subscript rec "this_hash") rest

def recordLeaf (record : Json) : Py Bytes := do
  match ← subscript record "this_hash" with
  | .str hash => encode hash
  | _ => raise .attributeError

def recordsRoot (records : List Json) : Py Json := do
  let leaves ← records.mapM recordLeaf
  mthRoot crypto leaves

def recoverRecords (store : SegmentStore) (origin : Str) (trustedRootEnv : Json) : Py Recovery := do
  let (ok, why) ← verifySignedRoot crypto trustedRootEnv
  if !ok then return .refused (.int 0) .null [] ("trusted root invalid: " ++ why)
  let b ← subscript trustedRootEnv "body"
  if (← subscript b "node_id") ≠ .str origin then
    return .refused (.int 0) .null [] "trusted root is for another origin"
  if (← dotGet b "root_alg") ≠ .str "rfc6962" then
    return .refused (← subscript b "count") (← subscript b "root") []
      "trusted root is legacy v1; recovery requires an rfc6962 root"
  let count ← subscript b "count"
  let wantRoot ← subscript b "root"
  let gaps := store.missing origin (countKey count)
  if gaps ≠ [] then
    return .refused count wantRoot gaps
      (natText gaps.length ++ " coverage gap(s); pull more segments")
  let records ← heldRecords (store.held origin) (countKey count)
  match ← checkSeams 0 (.str genesis) records with
  | some i => return .refused count wantRoot [] ("chain break at seam index " ++ natText i)
  | none =>
    let gotRoot ← recordsRoot crypto records
    if gotRoot ≠ wantRoot then
      return .refused count wantRoot []
        "reconstruction does not match the trusted root: the stored segments tell a different history"
    let headHash ← subscript b "head_hash"
    let head ← lastHash (.str genesis) records
    if ¬Json.pyEq headHash head then
      return .refused count wantRoot [] "head hash mismatch against the trusted root"
    return ⟨true, some records, count, wantRoot, [], "ok"⟩

/-- Records from `i` on, each signed by the origin, in its place and chained from `prev`. -/
def SignedFrom (origin : Str) : Int → Json → List Json → Prop
  | _, _, [] => True
  | i, prev, rec :: rest => ∃ pub fields hash, canonicalNodeId crypto pub = origin ∧
      rec = .obj fields ∧ Dict.get? fields "node_id" = some (.str origin) ∧
      SignedRecord crypto pub i prev hash fields ∧ SignedFrom origin (i + 1) (.str hash) rest

/-- The store after an `accept`, whatever it answers and whether or not it is written. -/
def SegmentStore.receive (store : SegmentStore) (offer : Json × PyFloat) : SegmentStore :=
  match store.accept crypto offer.1 offer.2 with
  | .ok outcome => outcome.store
  | .error _ => store

def SegmentStore.after (offers : List (Json × PyFloat)) : SegmentStore :=
  Run.run (SegmentStore.receive crypto) {} offers

variable {crypto} {origin : Str} {env : Json}

theorem pyEq_int_ne_null {value : Json} {i : Int} (same : Json.pyEq value (.int i)) : value ≠ .null := by
  rintro rfl
  cases same

theorem verifyRecords_cons {pub : Bytes} {i : Int} {prev rec : Json} {rest : List Json} :
    verifyRecords crypto pub origin i prev (rec :: rest) = .ok none ↔
      ∃ fields hash, rec = .obj fields ∧ Dict.get? fields "node_id" = some (.str origin) ∧
        SignedRecord crypto pub i prev hash fields ∧
        verifyRecords crypto pub origin (i + 1) (.str hash) rest = .ok none := by
  cases rec with
  | obj fields =>
    simp only [verifyRecords, bind, Py.bind_ok, guard_none, not_not, dotGet_obj, Except.ok.injEq]
    constructor
    · rintro ⟨index, indexRead, number, node, nodeRead, named, prevHash, prevRead, chained, data, text, hash,
        hashRead, hashed, signed, encoded, sig, sigRead, verifies, later⟩
      subst hashed
      refine ⟨fields, _, rfl, ?_, ⟨⟨index, ?_, number⟩, ?_, ⟨data, text, rfl⟩, ?_, signed, sig, encoded, sigRead,
        ?_⟩, later⟩
      · exact some_of_getD (nodeRead.trans named) (by simp)
      · exact some_of_getD indexRead (pyEq_int_ne_null number)
      · rwa [prevRead]
      · exact some_of_getD hashRead (by simp)
      · simpa using verifies
    · rintro ⟨_, hash, shape, node, record, later⟩
      cases shape
      obtain ⟨⟨index, indexRead, number⟩, chained, ⟨data, text, rfl⟩, named, signed, sig, encoded, sigRead,
        verifies⟩ := record
      exact ⟨index, by rw [indexRead]; rfl, number, .str origin, by rw [node]; rfl, rfl, _, rfl, chained, data,
        text, _, by rw [named]; rfl, rfl, signed, encoded, sig, sigRead, by simp [verifies], later⟩
  | _ =>
    constructor
    · intro verified
      cases verified
    · rintro ⟨_, _, shape, _⟩
      cases shape

theorem signedFrom_of_verified {pub : Bytes} (owner : canonicalNodeId crypto pub = origin) {i : Int}
    {prev : Json} {items : List Json}
    (verified : verifyRecords crypto pub origin i prev items = .ok none) :
    SignedFrom crypto origin i prev items := by
  induction items generalizing i prev with
  | nil => trivial
  | cons rec rest ih =>
    obtain ⟨fields, hash, shape, node, record, later⟩ := verifyRecords_cons.mp verified
    exact ⟨pub, fields, hash, owner, shape, node, record, ih later⟩

theorem SignedFrom.at {i : Int} {prev : Json} {items : List Json}
    (signed : SignedFrom crypto origin i prev items) {n : Nat} {rec : Json}
    (found : items[n]? = some rec) : ∃ prev', SignedFrom crypto origin (i + n) prev' [rec] := by
  induction items generalizing i prev n with
  | nil => cases found
  | cons first rest ih =>
    obtain ⟨pub, fields, hash, owner, shape, node, record, later⟩ := signed
    cases n with
    | zero =>
      obtain rfl := Option.some.inj found
      exact ⟨prev, pub, fields, hash, owner, shape, node, by simpa using record, trivial⟩
    | succ n =>
      obtain ⟨prev', here⟩ := ih later (by simpa using found)
      refine ⟨prev', ?_⟩
      rwa [Nat.cast_succ, add_comm (n : Int) 1, ← add_assoc]

theorem indexKey_of_pyEq {index : Json} {i : Int} (same : Json.pyEq index (.int i)) :
    indexKey index = i := by
  cases index with
  | float value =>
    simp only [Json.pyEq, Json.comparisonKey] at same
    split at same
    · rename_i whole integral
      rw [indexKey, integral]
      exact Json.int.inj same
    · cases same
  | _ => simp_all [Json.pyEq, Json.comparisonKey, indexKey, countKey, asInt?]

theorem held_of_holdRecords {i : Int} {prev : Json} {items : List Json}
    (signed : SignedFrom crypto origin i prev items) {held after : Dict Int Json}
    (made : holdRecords held items = .ok after) {key : Int} {rec : Json}
    (found : Dict.get? after key = some rec) :
    (∃ n : Nat, key = i + n ∧ items[n]? = some rec) ∨ Dict.get? held key = some rec := by
  induction items generalizing i prev held with
  | nil =>
    obtain rfl := Except.ok.inj made
    exact .inr found
  | cons first rest ih =>
    obtain ⟨pub, fields, hash, owner, rfl, node, record, later⟩ := signed
    obtain ⟨value, valueRead, number⟩ := record.index
    simp only [holdRecords, subscript_obj.mpr valueRead, bind, Except.bind,
      indexKey_of_pyEq number] at made
    rcases ih later made with ⟨n, place, member⟩ | before
    · left
      exact ⟨n + 1, by rw [place]; push_cast; ring, by simpa using member⟩
    · rw [Dict.get?_set] at before
      split at before
      · rename_i here
        exact .inl ⟨0, by simp [here], by simpa using before⟩
      · exact .inr before

/-- A verified segment, with the place it starts from. -/
structure VerifiedSegment (crypto : Crypto) (env : Json) where
  body : Dict Str Json
  items : List Json
  origin : Str
  start : Int
  prev : Json
  bodyRead : subscript env "body" = .ok (.obj body)
  recordsRead : subscript env "records" = .ok (.arr items)
  node : Dict.get? body "node_id" = some (.str origin)
  started : (Dict.get? body "start").bind asInt? = some start
  nonneg : 0 ≤ start
  signed : SignedFrom crypto origin start prev items

theorem segment_of_verified {reason : Str} (accepted : verifySegment crypto env = .ok (true, reason)) :
    Nonempty (VerifiedSegment crypto env) := by
  unfold verifySegment at accepted
  cases read : readSegment env with
  | error e =>
    simp only [read] at accepted
    split at accepted <;> cases accepted
  | ok parts =>
    obtain ⟨body, records, pub, sig⟩ := parts
    obtain ⟨bodyRead, recordsRead⟩ := subscript_of_readSegment read
    simp only [read, bind, Py.bind_ok, guard_ok, read_ok] at accepted
    obtain ⟨kind, node, text, canon, signed, start, startRead, stop, stopRead, accepted⟩ := accepted
    split at accepted
    · rename_i first last startInt stopInt
      simp only [Py.bind_ok, guard_ok, read_ok] at accepted
      obtain ⟨bounds, length, sized, counted, rtext, rcanon, hash, prev, prevRead, chained,
        items, itemsRead, result, verified, accepted⟩ := accepted
      cases result with
      | some _ => cases accepted
      | none =>
        obtain rfl := arr_of_verified sized (by omega) itemsRead verified
        obtain ⟨fields, rfl⟩ := obj_of_dotGet kind
        rw [dotGet_obj, Except.ok.injEq] at node startRead
        exact ⟨{
          body := fields, items := items, origin := canonicalNodeId crypto pub, start := first
          prev := prev, bodyRead := bodyRead, recordsRead := recordsRead
          node := some_of_getD node (by simp)
          started := by rw [← asInt_getD, startRead, startInt]
          nonneg := by omega
          signed := signedFrom_of_verified rfl verified }⟩
    · cases accepted

theorem held_of_accept {store : SegmentStore} {now : PyFloat} {outcome : SegmentOutcome}
    (answered : store.accept crypto env now = .ok outcome) :
    (∀ origin, outcome.store.held origin = store.held origin) ∨
      outcome.status = .stored ∧ ∃ segment : VerifiedSegment crypto env, ∃ after,
        holdRecords (store.held segment.origin) segment.items = .ok after ∧
        outcome.store = { store with records := Dict.set store.records segment.origin after } := by
  simp only [SegmentStore.accept, bind, Py.bind_ok] at answered
  obtain ⟨⟨ok, reason⟩, verified, answered⟩ := answered
  cases ok with
  | false =>
    obtain rfl := Except.ok.inj answered
    exact .inl (fun _ => rfl)
  | true =>
    obtain ⟨segment⟩ := segment_of_verified verified
    simp only [Bool.not_true, Bool.false_eq_true, if_false, Py.bind_ok] at answered
    obtain ⟨_, _, _, _, origin, _, _, _, _, _, compared, _, answered⟩ := answered
    cases compared with
    | inr conflict =>
      obtain rfl := Except.ok.inj answered
      exact .inl (fun _ => rfl)
    | inl fresh =>
      dsimp only at answered
      split at answered
      · obtain rfl := Except.ok.inj answered
        exact .inl (fun _ => rfl)
      · simp only [Py.bind_ok] at answered
        obtain ⟨stored, holding, made⟩ := answered
        obtain rfl := Except.ok.inj made
        simp only [SegmentStore.hold, segment.bodyRead, segment.recordsRead,
          subscript_obj.mpr segment.node, originKey, pyList, bind, pure, Except.pure, Except.bind]
          at holding
        obtain ⟨after, held, made⟩ := Py.bind_ok.mp holding
        obtain rfl := Except.ok.inj made
        exact .inr ⟨rfl, segment, after, held, rfl⟩

variable (crypto) in
/-- Every held record is signed by its origin at the index it is held under. -/
def HeldSigned (store : SegmentStore) : Prop :=
  ∀ origin key rec, Dict.get? (store.held origin) key = some rec →
    ∃ prev, SignedFrom crypto origin key prev [rec]

theorem heldSigned_receive {store : SegmentStore} (good : HeldSigned crypto store)
    (offer : Json × PyFloat) : HeldSigned crypto (store.receive crypto offer) := by
  rw [SegmentStore.receive]
  cases answered : store.accept crypto offer.1 offer.2 with
  | error e => exact good
  | ok outcome =>
    intro origin key rec found
    dsimp only at found
    rcases held_of_accept answered with same | ⟨_, segment, after, holding, stored⟩
    · rw [same] at found
      exact good origin key rec found
    · rw [stored, SegmentStore.held_set] at found
      split at found
      · rename_i here
        subst here
        rcases held_of_holdRecords segment.signed holding found with ⟨n, rfl, member⟩ | before
        · exact segment.signed.at member
        · exact good _ key rec before
      · exact good origin key rec found

theorem heldSigned_after (offers : List (Json × PyFloat)) :
    HeldSigned crypto (SegmentStore.after crypto offers) := by
  have start : HeldSigned crypto {} := by
    intro origin key rec found
    cases found
  have kept : ∀ store offer, HeldSigned crypto store → True →
      HeldSigned crypto (SegmentStore.receive crypto store offer) :=
    fun store offer good _ => heldSigned_receive good offer
  exact Run.invariant_of_forall kept start (fun _ _ => trivial)

theorem signedFrom_of_seams {i : Nat} {prev : Json} {records : List Json}
    (each : ∀ n rec, records[n]? = some rec → ∃ prev', SignedFrom crypto origin (i + n : Nat) prev' [rec])
    (seams : checkSeams i prev records = .ok none) : SignedFrom crypto origin i prev records := by
  induction records generalizing i prev with
  | nil => trivial
  | cons rec rest ih =>
    simp only [checkSeams, bind, Py.bind_ok] at seams
    obtain ⟨prevHash, prevRead, seams⟩ := seams
    split at seams
    · cases seams
    · rename_i chained
      obtain ⟨thisHash, hashRead, later⟩ := Py.bind_ok.mp seams
      obtain ⟨_, pub, fields, hash, owner, rfl, node, record, _⟩ := each 0 rec rfl
      have named : thisHash = .str hash := by
        rw [subscript_obj.mpr record.named] at hashRead
        exact (Except.ok.inj hashRead).symm
      subst named
      refine ⟨pub, fields, hash, owner, rfl, node, { record with prevHash := ?_ }, ?_⟩
      · rw [subscript_obj.mp prevRead]
        exact not_not.mp chained
      · have next := ih (i := i + 1) (fun n other member => by
          obtain ⟨prev', here⟩ := each (n + 1) other (by simpa using member)
          exact ⟨prev', by rwa [show i + 1 + n = i + (n + 1) by omega]⟩) later
        exact_mod_cast next

theorem heldRecords_ok {held : Dict Int Json} {count : Int} {records : List Json}
    (read : heldRecords held count = .ok records) :
    records.length = count.toNat ∧ ∀ (n : Nat) rec, records[n]? = some rec → Dict.get? held n = some rec := by
  have each := Py.mapM_ok.mp read
  refine ⟨by rw [← each.length_eq, List.length_range], ?_⟩
  intro n rec found
  obtain ⟨inside, rfl⟩ := List.getElem?_eq_some_iff.mp found
  have here := each.get (i := n) (by rw [each.length_eq]; exact inside) inside
  rw [List.get_eq_getElem, List.getElem_range] at here
  split at here
  · rename_i record present
    exact present.trans (congrArg some (Except.ok.inj here))
  · cases here

/-- A recovery that succeeds, with what it read. -/
structure Recovered (crypto : Crypto) (store : SegmentStore) (origin : Str) (env : Json)
    (result : Recovery) where
  root : SignedRoot crypto env
  node : root.origin = origin
  records : List Json
  returned : result.records = some records
  counted : result.count = fieldOf env "count"
  held : heldRecords (store.held origin) root.count = .ok records
  seams : checkSeams 0 (.str genesis) records = .ok none
  rooted : recordsRoot crypto records = .ok (fieldOf env "root")

private theorem not_refused {p : Prop} [Decidable p] {count root : Json} {missing : List (Int × Int)}
    {reason : Str} {rest : Py Recovery} {result : Recovery} (ok : result.ok = true) :
    (if p then pure (.refused count root missing reason) else rest) = .ok result ↔
      ¬p ∧ rest = .ok result := by
  split
  · simp only [*, not_true_eq_false, false_and, iff_false]
    rintro ⟨⟩
    cases ok
  · simp [*]

theorem recovered_of_ok {store : SegmentStore} {result : Recovery}
    (answered : recoverRecords crypto store origin env = .ok result) (ok : result.ok = true) :
    Nonempty (Recovered crypto store origin env result) := by
  simp only [recoverRecords, bind, Py.bind_ok, not_refused ok] at answered
  obtain ⟨⟨verifies, why⟩, verified, passed, body, bodyRead, node, nodeRead, named, alg, algRead,
    answered⟩ := answered
  have verifies : verifies = true := by simpa using passed
  subst verifies
  obtain ⟨root⟩ := signedRoot_of_verifies verified
  obtain rfl := Except.ok.inj ((subscript_of_readEnvelope root.read).symm.trans bodyRead)
  split at answered
  · obtain ⟨_, _, refused⟩ := Py.bind_ok.mp answered
    obtain ⟨_, _, refused⟩ := Py.bind_ok.mp refused
    obtain rfl := Except.ok.inj refused
    cases ok
  · simp only [Py.bind_ok, not_refused ok] at answered
    obtain ⟨count, countRead, wantRoot, rootRead, covered, records, held, seam, seams, answered⟩ :=
      answered
    cases seam with
    | some i =>
      obtain rfl := Except.ok.inj answered
      cases ok
    | none =>
      simp only [Py.bind_ok, not_refused ok, not_not] at answered
      obtain ⟨gotRoot, rooted, same, head, headRead, last, lastRead, ends, made⟩ := answered
      obtain rfl := Except.ok.inj made
      have number : countKey count = root.count := by
        have counted := root.counted
        rw [subscript_obj.mp countRead] at counted
        rw [countKey, show asInt? count = some root.count from counted]
        rfl
      refine ⟨{ root := root, records := records, returned := rfl, seams := seams, node := ?_,
                counted := ?_, held := number ▸ held, rooted := ?_ }⟩
      · have place := root.node
        rw [subscript_obj.mp nodeRead, not_not.mp named] at place
        exact (Json.str.inj (Option.some.inj place)).symm
      · rw [root.field, subscript_obj.mp countRead]
        rfl
      · rw [root.field, subscript_obj.mp rootRead, rooted, same]
        rfl

theorem Recovered.signed {store : SegmentStore} {result : Recovery}
    (recovered : Recovered crypto store origin env result) (good : HeldSigned crypto store) :
    SignedFrom crypto origin 0 (.str genesis) recovered.records := by
  refine signedFrom_of_seams ?_ recovered.seams
  intro n rec found
  rw [Nat.zero_add]
  exact good origin n rec ((heldRecords_ok recovered.held).2 n rec found)

theorem Recovered.length {store : SegmentStore} {result : Recovery}
    (recovered : Recovered crypto store origin env result) :
    asInt? result.count = some (recovered.records.length : Int) := by
  rw [recovered.counted, recovered.root.field, asInt_getD, recovered.root.counted,
    (heldRecords_ok recovered.held).1, Int.toNat_of_nonneg recovered.root.nonneg]

variable (crypto) in
/-- A record that carries the hash of its own body. -/
def Hashed (record : Json) : Prop :=
  ∃ fields data, record = .obj fields ∧ canonical (.obj (unsignedRecord fields)) = .ok data ∧
    Dict.get? fields "this_hash" = some (.str (H_hex crypto data))

/-- The canonical text of a record's body: what its hash and its signature are made over. -/
def bodyText : Json → Option Bytes
  | .obj fields => (canonical (.obj (unsignedRecord fields))).toOption
  | _ => none

def leafOf (record : Json) : Bytes := (recordLeaf record).toOption.getD []

variable (crypto) in
/-- Every byte string hashed for a list of records and its tree head. -/
def recordInputs (records : List Json) : List Bytes :=
  records.filterMap bodyText ++ inputs crypto.H (join (leafTrees (records.map leafOf)))

theorem recordsRoot_ok {records : List Json} {root : Json}
    (rooted : recordsRoot crypto records = .ok root) :
    root = hexJson (treeHead crypto (records.map leafOf)) := by
  simp only [recordsRoot, bind, Py.bind_ok, mthRoot_eq] at rooted
  obtain ⟨leaves, read, made⟩ := rooted
  have same : records.map leafOf = leaves := by
    have each := Py.mapM_ok.mp read
    clear read made
    induction each with
    | nil => rfl
    | cons first _ ih => rw [List.map_cons, ih, leafOf, first]; rfl
  rw [same, Except.ok.inj made]

theorem leafTrees_injective {A B : List Bytes} (same : join (leafTrees A) = join (leafTrees B)) :
    A = B := by
  have flat (leaves : List Bytes) : (join (leafTrees leaves)).leaves = leaves := by
    rw [leaves_join, leafTrees, List.flatMap_map]
    exact List.flatMap_singleton' leaves
  rw [← flat A, same, flat B]

theorem signedFrom_hashed {i : Int} {prev : Json} {records : List Json}
    (signed : SignedFrom crypto origin i prev records) : ∀ rec ∈ records, Hashed crypto rec := by
  induction records generalizing i prev with
  | nil => intro rec member; cases member
  | cons first rest ih =>
    obtain ⟨pub, fields, hash, _, rfl, _, record, later⟩ := signed
    intro rec member
    rcases List.mem_cons.mp member with rfl | tail
    · obtain ⟨data, text, rfl⟩ := record.hashed
      exact ⟨fields, data, rfl, text, record.named⟩
    · exact ih later rec tail

theorem encode_toHex (bytes : Bytes) : ∃ text, encode (toHex bytes) = .ok text := by
  have chars : toHex bytes = (bytes.flatMap (fun b =>
      [Nat.digitChar (b.toNat / 16), Nat.digitChar (b.toNat % 16)])).map CodePoint.ofChar := by
    rw [List.map_flatMap]
    rfl
  rw [chars]
  exact ⟨_, Durable.encode_ok.mpr (encodeUtf8_chars _)⟩

theorem encode_injective {a b : Str} {text : Bytes} (first : encode a = .ok text)
    (second : encode b = .ok text) : a = b := by
  have read := decodeUtf8_encodeUtf8 (Durable.encode_ok.mp first)
  rw [decodeUtf8_encodeUtf8 (Durable.encode_ok.mp second)] at read
  exact (Option.some.inj read).symm

theorem leafOf_hashed {record : Json} (hashed : Hashed crypto record) :
    ∃ data, bodyText record = some data ∧ encode (H_hex crypto data) = .ok (leafOf record) := by
  obtain ⟨fields, data, rfl, text, named⟩ := hashed
  obtain ⟨leaf, encoded⟩ := encode_toHex (crypto.H data)
  refine ⟨data, by rw [bodyText, text]; rfl, ?_⟩
  have read : recordLeaf (.obj fields) = .ok leaf := by
    simp only [recordLeaf, subscript_obj.mpr named, bind, Except.bind]
    exact encoded
  rw [leafOf, read]
  exact encoded

theorem bodyText_unique {known : List Bytes} (apart : Set.InjOn crypto.H {b | b ∈ known})
    {a b : Json} (first : Hashed crypto a) (second : Hashed crypto b)
    (firstKnown : ∀ data, bodyText a = some data → data ∈ known)
    (secondKnown : ∀ data, bodyText b = some data → data ∈ known)
    (same : leafOf a = leafOf b) : bodyText a = bodyText b := by
  obtain ⟨dataA, textA, leafA⟩ := leafOf_hashed first
  obtain ⟨dataB, textB, leafB⟩ := leafOf_hashed second
  have hash : H_hex crypto dataA = H_hex crypto dataB := encode_injective leafA (same ▸ leafB)
  rw [textA, textB, apart (firstKnown _ textA) (secondKnown _ textB) (toHex_injective hash)]

/-- A tree head determines the bodies of the records under it, their number and
their order, if nothing hashed for it collides. -/
theorem bodies_unique {records other : List Json} {root : Json}
    (hashed : ∀ rec ∈ records, Hashed crypto rec) (otherHashed : ∀ rec ∈ other, Hashed crypto rec)
    (rooted : recordsRoot crypto records = .ok root) (otherRooted : recordsRoot crypto other = .ok root)
    (apart : Set.InjOn crypto.H {b | b ∈ recordInputs crypto records ++ recordInputs crypto other}) :
    other.map bodyText = records.map bodyText := by
  have heads : treeHead crypto (records.map leafOf) = treeHead crypto (other.map leafOf) := by
    have texts := (recordsRoot_ok rooted).symm.trans (recordsRoot_ok otherRooted)
    exact toHex_injective (Json.str.inj texts)
  have leaves : records.map leafOf = other.map leafOf := by
    apply leafTrees_injective
    apply digest_injective apart crypto.length_H _ _ heads
    · intro b member
      exact List.mem_append_left _ (List.mem_append_right _ member)
    · intro b member
      exact List.mem_append_right _ (List.mem_append_right _ member)
  have known (rec : Json) (member : rec ∈ records ∨ rec ∈ other) (data : Bytes)
      (text : bodyText rec = some data) :
      data ∈ recordInputs crypto records ++ recordInputs crypto other := by
    rcases member with here | there
    · exact List.mem_append_left _ (List.mem_append_left _ (List.mem_filterMap.mpr ⟨rec, here, text⟩))
    · exact List.mem_append_right _ (List.mem_append_left _ (List.mem_filterMap.mpr ⟨rec, there, text⟩))
  have sized : other.length = records.length := by
    simpa using (congrArg List.length leaves).symm
  apply List.ext_getElem (by simpa using sized)
  intro n first second
  simp only [List.length_map] at first second
  have here := List.getElem_mem second
  have there := List.getElem_mem first
  have leaf : leafOf other[n] = leafOf records[n] := by
    have same := congrArg (fun leaves => leaves[n]?) leaves
    simpa [first, second] using same.symm
  simpa using bodyText_unique apart (otherHashed _ there) (hashed _ here) (known _ (.inr there))
    (known _ (.inl here)) leaf

end JJDai.Replication
