import JJDai.Kernel.Smriti
import JJDai.Primitive.WritableRecord

/-! Memory that is carried to another host: what an import and an audit accept. -/

namespace JJDai.Smriti

open PyText Canonical WitnessChain

variable {crypto : Crypto} {organ : Organ}

theorem apply_events {memory later : Memory} {op : Json} (applied : memory.apply op = .ok later) :
    later.events = memory.events ++ [op] := by
  simp only [Memory.apply, bind, Py.bind_ok] at applied
  obtain ⟨kind, _, applied⟩ := applied
  split at applied
  · simp only [Py.bind_ok] at applied
    obtain ⟨_, _, _, _, _, _, _, _, made⟩ := applied
    exact (Except.ok.inj made) ▸ rfl
  · split at applied
    · simp only [Py.bind_ok] at applied
      obtain ⟨_, _, _, _, _, _, made⟩ := applied
      exact (Except.ok.inj made) ▸ rfl
    · split at applied
      · simp only [Py.bind_ok] at applied
        obtain ⟨_, _, _, _, _, _, made⟩ := applied
        exact (Except.ok.inj made) ▸ rfl
      · cases applied

def appendOp (t : PyFloat) (label addition : Str) : Json :=
  .obj [("op", .str "core_append"), ("t", .float t), ("label", .str label), ("addition", .str addition)]

theorem appendedValue_ok (t : PyFloat) (label : Str) {block : Option CoreBlock} {addition value : Str}
    (joined : newValue block addition = .ok value) :
    ∃ value, appendedValue (block.getD { label }).value (appendOp t label addition) = .ok value := by
  cases block with
  | none => exact ⟨_, rfl⟩
  | some block =>
    simp only [newValue, Option.getD_some, appendedValue] at joined ⊢
    split at joined
    · rename_i present
      simp only [bind, Py.bind_ok] at joined
      obtain ⟨base, front, _⟩ := joined
      rw [if_pos present]
      cases held : block.value with
      | str text => exact ⟨_, rfl⟩
      | _ =>
        rw [held] at front
        cases front
    · rename_i absent
      rw [if_neg absent]
      exact ⟨_, rfl⟩

theorem request_applies {memory : Memory} {t : PyFloat} {call : Call} {op : Json}
    (made : memory.request t call = .ok op) : ∃ later, memory.apply op = .ok later := by
  cases call with
  | coreSet label value charLimit =>
    simp only [Memory.request, bind, Py.unless_ok] at made
    obtain ⟨_, made⟩ := made
    obtain rfl := Except.ok.inj made
    exact ⟨_, rfl⟩
  | coreAppend label addition =>
    simp only [Memory.request, bind, Py.bind_ok] at made
    obtain ⟨value, joined, made⟩ := made
    obtain ⟨_, _, made⟩ := made
    simp only [Py.unless_ok] at made
    obtain ⟨_, made⟩ := made
    obtain rfl := Except.ok.inj made
    obtain ⟨value, appended⟩ := appendedValue_ok t label joined
    refine ⟨{ memory with
      core := Dict.set memory.core label { (Dict.get? memory.core label).getD { label } with value }
      events := memory.events ++ [appendOp t label addition] }, ?_⟩
    change (do
      let value ← appendedValue ((Dict.get? memory.core label).getD { label }).value (appendOp t label addition)
      _ : Py Memory) = _
    rw [appended]
    rfl
  | recallAdd role text =>
    obtain rfl := Except.ok.inj made
    exact ⟨_, rfl⟩

theorem checkRecord_built (lawful : crypto.Lawful) {chain : WitnessChain} {call : AppendCall} {record : Json}
    (built : chain.buildRecord crypto call = .ok record) (i : Nat) {pub : Option Bytes}
    (writer : ∀ key ∈ pub, key = chain.sk.publicKey crypto) : checkRecord crypto pub i record = .ok () := by
  obtain ⟨head, _, verified⟩ := verifyLoop_built lawful built
  obtain ⟨fields, hash, rfl, found, _, tagged, _⟩ := verifyLoop_cons.mp verified
  obtain ⟨data, text, rfl⟩ := found.hashed
  obtain ⟨signed, sig, encoded, sigRead, verifies⟩ := found.signed
  obtain ⟨value, valueRead⟩ := Option.isSome_iff_exists.mp tagged
  rw [valueRead] at sigRead
  have read : subscript (.obj fields) "sig" = .ok value := subscript_obj.mpr valueRead
  have bytes : bytesFromHex value = .ok sig := sigRead
  cases pub with
  | none =>
    simp only [checkRecord, text, found.named, bind, Except.bind, Option.getD_some, ne_eq, not_true_eq_false, if_false]
    rfl
  | some key =>
    obtain rfl := writer key rfl
    simp only [checkRecord, text, found.named, encoded, read, bytes, verifies, bind, Except.bind, Option.getD_some,
      ne_eq, not_true_eq_false, if_false, Bool.not_true, Bool.false_eq_true]
    rfl

/-- The record of an operation: of its kind, signed, and naming the operation and
the state after it. -/
structure Binds (crypto : Crypto) (key : Bytes) (being : Str) (root : Option Str) (memory later : Memory)
    (op record : Json) : Prop where
  asked : ∃ t call, memory.request t call = .ok op
  applied : memory.apply op = .ok later
  kind : dotGet record "kind" = .ok (.str "MEMORY")
  digest : ∃ operation state, canonical op = .ok operation ∧ stateHash crypto being root later = .ok (H_hex crypto state) ∧
    dotGet record "semantic_digest" = .ok (.str (memDigest being (H_hex crypto operation) (H_hex crypto state)))
  authentic : ∀ i pub, (∀ writer ∈ pub, writer = key) → checkRecord crypto pub i record = .ok ()

theorem stateHash_hex {being : Str} {root : Option Str} {memory : Memory} {hash : Str}
    (made : stateHash crypto being root memory = .ok hash) : ∃ state, hash = H_hex crypto state := by
  simp only [stateHash, bind, Py.bind_ok] at made
  obtain ⟨_, _, data, _, made⟩ := made
  exact ⟨data, (Except.ok.inj made).symm⟩

theorem append_built {log : SaltedChain} {call : AppendCall} {record : Json} (checked : checkAppend call = .ok ())
    (built : log.chain.buildRecord crypto call = .ok record) : ∃ receipt, log.append crypto call true =
      (⟨{ log.chain with records := log.chain.records ++ [record] }, log.responseMinted call⟩, .ok receipt) := by
  obtain ⟨hash, hashRead⟩ := buildRecord_hash built
  refine ⟨.obj [("index", .int log.chain.nextIndex), ("this_hash", .str hash), ("kind", .str call.kind),
    ("anchored", .bool false), ("anchor_eta", .str "batch@root")], ?_⟩
  have appended : log.chain.append crypto call = .ok {
      chain := { log.chain with records := log.chain.records ++ [record] }, record := record
      receipt := .obj [("index", .int log.chain.nextIndex), ("this_hash", .str hash), ("kind", .str call.kind),
        ("anchored", .bool false), ("anchor_eta", .str "batch@root")] } := by
    simp only [WitnessChain.append, checked, built, hashRead, bind, Except.bind]
    rfl
  exact SaltedChain.append_written appended

theorem append_memory (lawful : crypto.Lawful) {log : SaltedChain} (linked : Linked log.chain) {memory later : Memory}
    {op : Json} {moment : Moment} {args : AppendCall} (asked : ∃ t call, memory.request t call = .ok op)
    (applied : memory.apply op = .ok later)
    (made : memoryCall crypto organ later op moment = .ok args) (clear : Writable args) :
    ∃ record receipt, log.append crypto args true =
        (⟨{ log.chain with records := log.chain.records ++ [record] }, log.responseMinted args⟩, .ok receipt) ∧
      Linked { log.chain with records := log.chain.records ++ [record] } ∧
      Binds crypto (log.chain.sk.publicKey crypto) organ.identity.beingId moment.root memory later op record := by
  simp only [memoryCall, opHash, bind, Py.bind_ok] at made
  obtain ⟨_, ⟨operation, text, hashed⟩, state, stated, timestamp, stamped, made⟩ := made
  obtain rfl := Except.ok.inj hashed
  obtain rfl := (Except.ok.inj made).symm
  obtain ⟨state, rfl⟩ := stateHash_hex stated
  have request : writable (.obj [("mem_op", op)]) := by
    rw [writable_obj]
    have inner := (canonical_isOk op).mp (by simp [text, Except.isOk, Except.toBool])
    simp only [List.mem_singleton, forall_eq, inner, and_true]
    decide +kernel
  have named : encodable organ.identity.beingId := by
    have fields := writable_obj.mp clear.provenance
    exact (fields ("being_id", .str organ.identity.beingId) (by simp)).2
  have digest : encodable (memDigest organ.identity.beingId (H_hex crypto operation) (H_hex crypto state)) := by
    have mem : encodable "mem:" := by decide +kernel
    have colon : encodable ":" := by decide +kernel
    simp only [memDigest, encodable_append, mem, colon, named, encodable_hash, and_self]
  have kind : encodable "MEMORY" := by decide +kernel
  obtain ⟨record, built⟩ := @buildRecord_writable crypto _ linked _ kind request rfl clear.provenance digest
    clear.timestamp rfl rfl rfl
  obtain ⟨receipt, appended⟩ := append_built clear.checked built
  have fields := buildRecord_fields built
  refine ⟨record, receipt, appended, linked_built built, ?_⟩
  exact {
    asked, applied, kind := dotGet_of_subscript fields.1
    digest := ⟨operation, state, text, stated, dotGet_of_subscript fields.2⟩
    authentic := fun i _ writer => checkRecord_built lawful built i writer }

/-- A memory, and the records of its operations in their order. -/
inductive History (crypto : Crypto) (key : Bytes) (being : Str) (root : Option Str) : Memory → List Json → Prop where
  | fresh : History crypto key being root {} []
  | record {memory later : Memory} {own : List Json} {op record : Json} (old : History crypto key being root memory own)
      (binds : Binds crypto key being root memory later op record) : History crypto key being root later (own ++ [record])

variable {key : Bytes} {being : Str} {root : Option Str} {memory : Memory} {own : List Json}

theorem History.length (history : History crypto key being root memory own) :
    own.length = memory.events.length := by
  induction history with
  | fresh => rfl
  | record _ binds ih => simp [apply_events binds.applied, ih]

theorem History.replays (history : History crypto key being root memory own) :
    memory.events.foldlM Memory.apply {} = .ok memory := by
  induction history with
  | fresh => rfl
  | record _ binds ih =>
    rw [apply_events binds.applied, List.foldlM_append, ih]
    simp only [List.foldlM_cons, List.foldlM_nil, binds.applied, bind, Except.bind]
    rfl

theorem eachOp_append {check : Nat → Memory → Json → Json → Py Memory} {front back : List (Json × Json)} {i : Nat}
    {probe middle : Memory} (first : eachOp check i probe front = .ok middle) :
    eachOp check i probe (front ++ back) = eachOp check (i + front.length) middle back := by
  induction front generalizing i probe with
  | nil =>
    obtain rfl := Except.ok.inj first
    rfl
  | cons pair front ih =>
    obtain ⟨op, record⟩ := pair
    simp only [eachOp, bind, Py.bind_ok] at first
    obtain ⟨next, checked, later⟩ := first
    simp only [List.cons_append, eachOp, checked, bind, Except.bind, ih later, List.length_cons]
    congr 1
    omega

theorem History.accepted {check : Nat → Memory → Json → Json → Py Memory}
    (accepts : ∀ i memory later op record, Binds crypto key being root memory later op record →
      check i memory op record = .ok later) (history : History crypto key being root memory own) :
    eachOp check 0 {} (memory.events.zip own) = .ok memory := by
  induction history with
  | fresh => rfl
  | record old binds ih =>
    rw [apply_events binds.applied, List.zip_append old.length.symm, eachOp_append ih]
    simp [eachOp, accepts _ _ _ _ _ binds, bind, Except.bind, pure, Except.pure]

theorem checkOp_binds {pub : Option Bytes} (writer : ∀ found ∈ pub, found = key) (i : Nat) (memory later : Memory)
    (op record : Json) (binds : Binds crypto key being root memory later op record) :
    checkOp crypto pub being root i memory op record = .ok later := by
  obtain ⟨operation, state, text, stated, digest⟩ := binds.digest
  simp only [checkOp, binds.authentic i pub writer, binds.applied, opHash, text, stated, digest, bind, Except.bind, pure,
    Except.pure, ne_eq, not_true_eq_false, if_false]

theorem auditOp_binds (i : Nat) (memory later : Memory) (op record : Json)
    (binds : Binds crypto key being none memory later op record) :
    auditOp crypto being i memory op record = .ok later := by
  obtain ⟨operation, state, text, stated, digest⟩ := binds.digest
  simp only [auditOp, binds.applied, opHash, text, stated, digest, bind, Except.bind, pure, Except.pure, ne_eq,
    not_true_eq_false, if_false]

theorem History.members (history : History crypto key being root memory own) : ∀ record ∈ own,
    dotGet record "kind" = .ok (.str "MEMORY") ∧ ∃ operation state, dotGet record "semantic_digest" =
      .ok (.str (memDigest being (H_hex crypto operation) (H_hex crypto state))) := by
  induction history with
  | fresh => simp
  | record _ binds ih =>
    intro record member
    rcases List.mem_append.mp member with old | new
    · exact ih record old
    · obtain rfl := List.mem_singleton.mp new
      obtain ⟨operation, state, _, _, digest⟩ := binds.digest
      exact ⟨binds.kind, operation, state, digest⟩

theorem History.hashed (history : History crypto key being root memory own) (named : encodable being)
    (rooted : writable (rootField root)) : ∃ hash, stateHash crypto being root memory = .ok hash := by
  cases history with
  | fresh =>
    have state : writable (.obj [("being_id", .str being), ("core", .obj (coreDict [])), ("recall_head", .str genesis),
        ("archival_root", rootField root)]) := by
      have name : writable (.str being) := named
      have head : writable (.str genesis) := by decide +kernel
      have core : writable (.obj (coreDict [])) := by decide +kernel
      rw [writable_obj]
      simp only [List.mem_cons, List.not_mem_nil, or_false, forall_eq_or_imp, forall_eq]
      simp only [name, rooted, core, head, and_true]
      decide +kernel
    obtain ⟨data, text⟩ := canonical_ok state
    refine ⟨H_hex crypto data, ?_⟩
    simp only [stateHash, recallHead, List.foldlM_nil, bind, Except.bind, pure, Except.pure, text]
  | record _ binds =>
    obtain ⟨_, state, _, stated, _⟩ := binds.digest
    exact ⟨_, stated⟩

/-- The arguments of an operation's record can be written down and pass the checks
of `append`. -/
def recordable (crypto : Crypto) (organ : Organ) (later : Memory) (op : Json) (moment : Moment) : Bool :=
  match memoryCall crypto organ later op moment with
  | .error _ => false
  | .ok args => (checkAppend args).isOk && writable args.timestamp && writable args.provenance

/-- What a step has to meet: the archival root does not move, an operation that is
applied can be journaled and recorded, and no other memory shares the chain. -/
def Steady (crypto : Crypto) (organ : Organ) (root : Option Str) (host : Host) : Move → Prop
  | .call call moment => moment.root = root ∧ ∀ op later, host.memory.request moment.t call = .ok op →
      host.memory.apply op = .ok later → (host.write op).isOk ∧ recordable crypto organ later op moment
  | .chained call => call.kind ≠ "MEMORY"

theorem recordable_ok {later : Memory} {op : Json} {moment : Moment} (clear : recordable crypto organ later op moment) :
    ∃ args, memoryCall crypto organ later op moment = .ok args ∧ Writable args := by
  unfold recordable at clear
  split at clear
  · cases clear
  · rename_i args made
    simp only [Bool.and_eq_true] at clear
    obtain ⟨⟨checked, timestamp⟩, provenance⟩ := clear
    obtain ⟨_, checked⟩ := Py.exists_of_isOk checked
    exact ⟨args, made, checked, timestamp, provenance⟩

/-- A call either leaves everything as it is or enters the memory, and its record the chain. -/
theorem call_cases (lawful : crypto.Lawful) {host : Host} {log : SaltedChain} (chained : host.log = some log)
    (linked : Linked log.chain) {call : Call} {moment : Moment} {root : Option Str}
    (steady : Steady crypto organ root host (.call call moment)) :
    (host.call crypto organ call moment).1 = host ∨
      ∃ op later record salts, (host.call crypto organ call moment).1.memory = later ∧
        (host.call crypto organ call moment).1.log =
          some ⟨{ log.chain with records := log.chain.records ++ [record] }, salts⟩ ∧
        Linked { log.chain with records := log.chain.records ++ [record] } ∧
        Binds crypto (log.chain.sk.publicKey crypto) organ.identity.beingId root host.memory later op record := by
  obtain ⟨same, recorded⟩ := steady
  unfold Host.call
  cases made : host.memory.request moment.t call with
  | error e => exact .inl rfl
  | ok op =>
    right
    obtain ⟨later, applied⟩ := request_applies made
    obtain ⟨written, clear⟩ := recorded op later made applied
    obtain ⟨journal, writes⟩ := Py.exists_of_isOk written
    obtain ⟨args, asked, sound⟩ := recordable_ok clear
    obtain ⟨record, receipt, appended, next, binds⟩ := append_memory lawful linked ⟨_, call, made⟩ applied asked sound
    have wrote : Host.write { memory := later, journal := host.journal, log := some log } op = .ok journal := writes
    refine ⟨op, later, record, log.responseMinted args, ?_, ?_, next, same ▸ binds⟩
    · simp only [Host.emit, applied, wrote, Host.witness, chained, asked, appended]
    · simp only [Host.emit, applied, wrote, Host.witness, chained, asked, appended]

structure Carried (crypto : Crypto) (organ : Organ) (key : Bytes) (root : Option Str) (host : Host) (log : SaltedChain)
    (own : List Json) : Prop where
  chained : host.log = some log
  linked : Linked log.chain
  writer : log.chain.sk.publicKey crypto = key
  history : History crypto key organ.identity.beingId root host.memory own
  memories : filterPy isMemory log.chain.records = .ok own

theorem isMemory_of_kind {record : Json} {kind : Str} (read : dotGet record "kind" = .ok (.str kind)) :
    isMemory record = .ok (decide (kind = "MEMORY")) := by
  simp only [isMemory, read, bind, Except.bind, pure, Except.pure, Json.str.injEq]

variable (crypto) in
theorem chained_cases (log : SaltedChain) (call : AppendCall) :
    (log.append crypto call true).1.chain = log.chain ∨ ∃ record, log.chain.buildRecord crypto call = .ok record ∧
      (log.append crypto call true).1.chain = { log.chain with records := log.chain.records ++ [record] } := by
  cases log.outcome crypto call true with
  | never record _ built leaves =>
    right
    exact ⟨record, built, by rw [leaves]⟩
  | beforeSalts _ _ leaves => exact .inl (by rw [leaves])
  | atResponse _ _ leaves => exact .inl (by rw [leaves])
  | atRecord _ _ leaves => exact .inl (by rw [leaves])
  | atWrite _ leaves => exact .inl (by rw [leaves])

theorem move_carried (lawful : crypto.Lawful) {host : Host} {move : Move} {log : SaltedChain}
    (carried : Carried crypto organ key root host log own) (steady : Steady crypto organ root host move) :
    ∃ log own, Carried crypto organ key root (host.move crypto organ move) log own := by
  cases move with
  | call call moment =>
    rcases call_cases lawful carried.chained carried.linked steady with same |
      ⟨op, later, record, salts, memory, chained, linked, binds⟩
    · rw [Host.move, same]
      exact ⟨log, own, carried⟩
    · rw [carried.writer] at binds
      refine ⟨_, own ++ [record], {
        chained, linked, writer := carried.writer, history := memory ▸ .record carried.history binds
        memories := filterPy_append carried.memories ?_ }⟩
      simp [filterPy, isMemory_of_kind binds.kind, bind, Except.bind, pure, Except.pure]
  | chained call =>
    have later : (host.chained crypto call).log = some (log.append crypto call true).1 := by
      simp [Host.chained, carried.chained]
    rcases chained_cases crypto log call with same | ⟨record, built, added⟩
    · exact ⟨_, own, {
        chained := later, linked := same ▸ carried.linked, writer := same ▸ carried.writer, history := carried.history
        memories := same ▸ carried.memories }⟩
    · refine ⟨_, own, {
        chained := later, linked := added ▸ linked_built built, writer := by rw [added]; exact carried.writer
        history := carried.history, memories := ?_ }⟩
      have kind := isMemory_of_kind (dotGet_of_subscript (buildRecord_fields built).1)
      rw [added, ← List.append_nil own]
      refine filterPy_append carried.memories ?_
      have other : call.kind ≠ "MEMORY" := steady
      simp [filterPy, kind, other, bind, Except.bind, pure, Except.pure]

theorem colon_not_mem_toHex (bytes : Bytes) : ch ':' ∉ toHex bytes := by
  have digit : ∀ n < 16, hexDigit n ≠ ch ':' := by decide
  intro member
  obtain ⟨b, _, inside⟩ := List.mem_flatMap.mp member
  simp only [List.mem_cons, List.not_mem_nil, or_false] at inside
  have bound := b.toNat_lt
  rcases inside with high | low
  · exact digit _ (by omega) high.symm
  · exact digit _ (by omega) low.symm

theorem beforeLastColon_append (front : Str) {back : Str} (plain : ch ':' ∉ back) :
    beforeLastColon (front ++ ch ':' :: back) = front := by
  have inside : ∀ c ∈ back.reverse, decide (c ≠ ch ':') = true := by
    intro c member
    have present := List.mem_reverse.mp member
    by_cases same : c = ch ':'
    · exact absurd (same ▸ present) plain
    · simpa using same
  have cut : (front ++ ch ':' :: back).reverse.dropWhile (· ≠ ch ':') = ch ':' :: front.reverse := by
    rw [List.reverse_append, List.reverse_cons, List.append_assoc, List.dropWhile_append_of_pos inside]
    simp
  unfold beforeLastColon
  rw [cut]
  exact List.reverse_reverse front

theorem parseBeing_memDigest (being : Str) (operation state : Bytes) :
    parseBeing (memDigest being (toHex operation) (toHex state)) = being := by
  have mem : Str.ofString "mem:" = [ch 'm', ch 'e', ch 'm', ch ':'] := by decide
  have colon : Str.ofString ":" = [ch ':'] := by decide
  have shape : (memDigest being (toHex operation) (toHex state)).drop 4 =
      (being ++ ch ':' :: toHex operation) ++ ch ':' :: toHex state := by
    simp [memDigest, mem, colon]
  rw [parseBeing, shape, beforeLastColon_append _ (colon_not_mem_toHex _),
    beforeLastColon_append _ (colon_not_mem_toHex _)]

theorem isOwn_member {record : Json} {operation state : Bytes} (kind : dotGet record "kind" = .ok (.str "MEMORY"))
    (digest : dotGet record "semantic_digest" = .ok (.str (memDigest being (toHex operation) (toHex state)))) :
    isOwn being record = .ok true := by
  have front : ("mem:" ++ being ++ ":" : Str).isPrefixOf (memDigest being (toHex operation) (toHex state)) = true := by
    rw [List.isPrefixOf_iff_prefix, memDigest]
    exact ⟨toHex operation ++ (Str.ofString ":" ++ toHex state), by simp only [List.append_assoc]⟩
  simp only [isOwn, isMemory_of_kind kind, getDefault_of_dotGet digest, bind, Except.bind, decide_true, if_true, pyStr, front]
  rfl

theorem own_of_memories {records : List Json} (memories : filterPy isMemory records = .ok own)
    (named : ∀ record ∈ own, isOwn being record = .ok true) : filterPy (isOwn being) records = .ok own := by
  induction records generalizing own with
  | nil => exact memories
  | cons record rest ih =>
    simp only [filterPy, bind, Py.bind_ok] at memories
    obtain ⟨holds, tested, later, kept, made⟩ := memories
    obtain rfl := Except.ok.inj made
    cases holds with
    | true =>
      have inner := ih kept (fun item member => named item (List.mem_cons_of_mem _ member))
      simp [filterPy, named record (by simp), inner, bind, Except.bind, pure, Except.pure]
    | false =>
      have other : isOwn being record = .ok false := by
        simp [isOwn, tested, bind, Except.bind, pure, Except.pure]
      simp [filterPy, other, ih kept named, bind, Except.bind, pure, Except.pure]

theorem readIdentity_asDict (identity : AgentIdentity) : readIdentity identity.asDict = .ok identity := rfl

/-- A bundle of the given journal and records. -/
def bundleOf (identity : AgentIdentity) (memory : Memory) (root : Option Str) (hash : Str) (nodeId pubkey : Str)
    (journal records : List Json) : Json :=
  .obj [("identity", identity.asDict), ("core", .obj (coreDict memory.core)),
    ("recall", .arr (memory.episodes.map Episode.asDict)), ("archival_root", rootField root), ("state_hash", .str hash),
    ("journal", .arr journal), ("witness", .obj [("node_id", .str nodeId), ("pubkey", .str pubkey),
      ("records", .arr records)])]

theorem decodePub_toHex (key : Bytes) : ∃ pub, decodePub (.str (toHex key)) = .ok pub ∧ ∀ writer ∈ pub, writer = key := by
  unfold decodePub
  by_cases present : truthy (.str (toHex key)) = true
  · refine ⟨some key, ?_, fun writer same => (Option.some.inj same).symm⟩
    simp only [present, if_true, bytesFromHex_toHex, bind, Except.bind]
    rfl
  · exact ⟨none, by rw [if_neg present]; rfl, fun writer absent => by cases absent⟩

theorem import_bundle {identity : AgentIdentity} {memory : Memory} {hash nodeId : Str} {journal records : List Json}
    (shown : Memory) (count : records.length = journal.length)
    (checked : ∀ pub, (∀ writer ∈ pub, writer = key) →
      eachOp (checkOp crypto pub identity.beingId root) 0 {} (journal.zip records) = .ok memory)
    (replays : journal.foldlM Memory.apply {} = .ok memory)
    (hashed : stateHash crypto identity.beingId root memory = .ok hash) :
    importPortable crypto (bundleOf identity shown root hash nodeId (toHex key) journal records) true (some (toHex key))
      root = .ok ⟨identity, memory⟩ := by
  have verified : verifyBundle crypto (bundleOf identity shown root hash nodeId (toHex key) journal records) identity
      journal (some (toHex key)) root = .ok () := by
    have witness : dotGet (bundleOf identity shown root hash nodeId (toHex key) journal records) "witness" =
        .ok (.obj [("node_id", .str nodeId), ("pubkey", .str (toHex key)), ("records", .arr records)]) := rfl
    have stated : dotGet (bundleOf identity shown root hash nodeId (toHex key) journal records) "state_hash" =
        .ok (.str hash) := rfl
    have given : pubHexOf (some (toHex key))
        (.obj [("node_id", .str nodeId), ("pubkey", .str (toHex key)), ("records", .arr records)]) =
          .ok (.str (toHex key)) := by
      unfold pubHexOf
      split
      · rename_i same
        rw [← Option.some.inj same]
        rfl
      · rfl
    have listed : getDefault (.obj [("node_id", .str nodeId), ("pubkey", .str (toHex key)), ("records", .arr records)])
        "records" (.arr []) = .ok (.arr records) := rfl
    obtain ⟨pub, decoded, writer⟩ := decodePub_toHex key
    have present : truthy (.obj [("node_id", .str nodeId), ("pubkey", .str (toHex key)), ("records", .arr records)]) =
        true := rfl
    simp only [verifyBundle, witness, stated, present, if_true, listed, given, pyList,
      decoded, count, checked pub writer, hashed, bind, Except.bind, ne_eq, not_true_eq_false, if_false]
    rfl
  have opened : subscript (bundleOf identity shown root hash nodeId (toHex key) journal records) "identity" =
      .ok identity.asDict := rfl
  have listed : getDefault (bundleOf identity shown root hash nodeId (toHex key) journal records) "journal" (.arr []) =
      .ok (.arr journal) := rfl
  have stated : dotGet (bundleOf identity shown root hash nodeId (toHex key) journal records) "state_hash" =
      .ok (.str hash) := rfl
  simp only [importPortable, opened, readIdentity_asDict, listed, pyList, verified, replays, hashed, stated, bind,
    Except.bind, if_true, ne_eq, not_true_eq_false, if_false]
  rfl

variable (crypto organ root) in
/-- While the archival root does not move, a memory that is exported imports as it
is under the origin's key; without an archival tier, its audit accepts it. -/
theorem memory_carried (lawful : crypto.Lawful) {host : Host} {log : SaltedChain} (fresh : host.memory = {})
    (chained : host.log = some log) (empty : log.chain.records = []) (named : encodable organ.identity.beingId)
    (rooted : writable (rootField root)) {moves : List Move}
    (steady : Run.Along (Host.move crypto organ) (Steady crypto organ root) host moves) :
    ∃ bundle later, exportPortable crypto organ (Run.run (Host.move crypto organ) host moves) root = .ok bundle ∧
      importPortable crypto bundle true (some (toHex (log.chain.sk.publicKey crypto))) root =
        .ok ⟨organ.identity, (Run.run (Host.move crypto organ) host moves).memory⟩ ∧
      (Run.run (Host.move crypto organ) host moves).log = some later ∧
      (root = none → verifyMemoryAgainstChain crypto (Run.run (Host.move crypto organ) host moves).memory.events
        later.chain.records = .ok (Run.run (Host.move crypto organ) host moves).memory.events.length) := by
  have begun : Carried crypto organ (log.chain.sk.publicKey crypto) root host log [] := {
    chained, linked := linked_empty empty, writer := rfl, history := fresh ▸ .fresh, memories := by rw [empty]; rfl }
  obtain ⟨later, records, carried⟩ := Run.invariant
    (fun host _ (good : ∃ later own, Carried crypto organ (log.chain.sk.publicKey crypto) root host later own) steady => by
      obtain ⟨_, _, good⟩ := good
      exact move_carried lawful good steady) ⟨log, [], begun⟩ steady
  generalize Run.run (Host.move crypto organ) host moves = final at carried ⊢
  obtain ⟨hash, hashed⟩ := carried.history.hashed named rooted
  have own : filterPy (isOwn organ.identity.beingId) later.chain.records = .ok records :=
    own_of_memories carried.memories (fun record member => by
      obtain ⟨kind, _, _, digest⟩ := carried.history.members record member
      exact isOwn_member kind digest)
  refine ⟨bundleOf organ.identity final.memory root hash (later.chain.nodeId crypto)
    (toHex (log.chain.sk.publicKey crypto)) final.memory.events records, later, ?_, ?_, carried.chained, ?_⟩
  · rw [← carried.writer]
    simp only [exportPortable, carried.chained, witnessPart, own, hashed, bind, Except.bind, pure, Except.pure]
    rfl
  · exact import_bundle final.memory carried.history.length
      (fun pub writer => carried.history.accepted (checkOp_binds writer)) carried.history.replays hashed
  · intro absent
    subst absent
    have being : records ≠ [] → beingOf records = .ok organ.identity.beingId := by
      intro present
      cases records with
      | nil => exact absurd rfl present
      | cons record rest =>
        obtain ⟨_, operation, state, digest⟩ := carried.history.members record List.mem_cons_self
        simp only [beingOf, getDefault_of_dotGet digest, bind, Except.bind, pyStr]
        exact congrArg Except.ok (parseBeing_memDigest _ _ _)
    have accepted := carried.history.accepted (fun i memory later op record => auditOp_binds i memory later op record)
    simp only [verifyMemoryAgainstChain, carried.memories, carried.history.length, bind, Except.bind, ne_eq,
      not_true_eq_false, if_false]
    cases records with
    | nil =>
      have none_left : final.memory.events = [] := List.length_eq_zero_iff.mp carried.history.length.symm
      rw [none_left]
      rfl
    | cons record rest =>
      rw [being (by simp)]
      simp only [accepted]
      rfl

def sampleOrgan : Organ where
  identity := { beingId := "being:x", createdAt := .int 0 }
  stamp _ := .ok "2026-01-01T00:00:00Z"

def sampleLog : SaltedChain := ⟨⟨SigningKey.sample 1, []⟩, []⟩

def sampleHost : Host where
  log := some sampleLog

def sampleCall : Call := .coreSet "focus" "calm" 10

def sampleMoment (root : Option Str) : Moment where
  t := .finite ⟨false, 5, -1, by decide⟩
  root := root

/-- A block is set while the archival root is `root`. -/
def sampleSet (root : Option Str) : Move := .call sampleCall (sampleMoment root)

theorem sampleSet_steady : Steady Crypto.sample sampleOrgan none sampleHost (sampleSet none) := by
  refine ⟨rfl, ?_⟩
  intro op later made applied
  obtain rfl := Except.ok.inj made
  obtain rfl := Except.ok.inj applied
  exact ⟨rfl, by decide +kernel⟩

theorem memory_carried_sample : ∃ bundle later,
    exportPortable Crypto.sample sampleOrgan (Run.run (Host.move Crypto.sample sampleOrgan) sampleHost [sampleSet none]) none =
        .ok bundle ∧
      importPortable Crypto.sample bundle true (some (toHex (sampleLog.chain.sk.publicKey Crypto.sample))) none =
        .ok ⟨sampleOrgan.identity,
          (Run.run (Host.move Crypto.sample sampleOrgan) sampleHost [sampleSet none]).memory⟩ ∧
      (Run.run (Host.move Crypto.sample sampleOrgan) sampleHost [sampleSet none]).log = some later ∧
      ((none : Option Str) = none → verifyMemoryAgainstChain Crypto.sample
        (Run.run (Host.move Crypto.sample sampleOrgan) sampleHost [sampleSet none]).memory.events later.chain.records =
          .ok (Run.run (Host.move Crypto.sample sampleOrgan) sampleHost [sampleSet none]).memory.events.length) := by
  exact memory_carried Crypto.sample sampleOrgan none Crypto.sample_lawful rfl rfl rfl (by decide +kernel) rfl
    ⟨sampleSet_steady, trivial⟩

/-- The same block set under an archival root. -/
def archivedHost : Host := Run.run (Host.move Crypto.sample sampleOrgan) sampleHost [sampleSet (some "aa")]

/-- Whether a host without an archival tier imports it, and whether the audit accepts its chain. -/
def archivedVerdicts : Py (Bool × Bool) := do
  let bundle ← exportPortable Crypto.sample sampleOrgan archivedHost (some "aa")
  let imported := importPortable Crypto.sample bundle true (some (toHex (sampleLog.chain.sk.publicKey Crypto.sample))) none
  let records := (archivedHost.log.map (fun log => log.chain.records)).getD []
  return (imported.isOk, (verifyMemoryAgainstChain Crypto.sample archivedHost.memory.events records).isOk)

theorem archived_not_imported : archivedVerdicts = .ok (false, false) := by decide +kernel

end JJDai.Smriti
