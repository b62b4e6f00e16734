import JJDai.Primitive.Builtins
import JJDai.Primitive.DurableText
import JJDai.Primitive.Ledger

/-! Organs whose state is a list of events: each event is journaled and bound to the
witness chain, and an auditor reads such a list against the chain. -/

namespace JJDai.EventLog

open PyText Canonical

/-- What one kind of event log writes on the chain, and how its auditor complains. -/
structure Organ where
  kind : Str
  /-- How the digests begin that its auditor reads, where it does not read all of its kind. -/
  front : Option Str := none
  /-- What a digest says before the hash of the log. -/
  label : Json → Py Str
  miscounted : Nat → Nat → PyErr
  broken : Nat → PyErr

/-- What else an organ puts into its records. -/
structure Writer where
  /-- The key of the event in the committed request. -/
  field : Str
  provenance : Dict Str Json
  /-- `time.strftime` of `time.gmtime`. -/
  stamp : Json → Py Str

variable (crypto : Crypto) (organ : Organ)

def logHash (events : List Json) : Py Str := do return H_hex crypto (← canonical (.arr events))

/-- The digest that binds an event and the log it ends. -/
def digestOf (event : Json) (events : List Json) : Py Str := do
  let label ← organ.label event
  return label ++ ":" ++ (← logHash crypto events)

variable (writer : Writer)

/-- The arguments of `append` for an event that ends the log. -/
def callOf (event : Json) (events : List Json) (salt : Bytes) : Py AppendCall := do
  let digest ← digestOf crypto organ event events
  let timestamp ← writer.stamp (← subscript event "t")
  return {
    kind := organ.kind
    request := .obj [(writer.field, event)]
    provenance := .obj writer.provenance
    semanticDigest := .str digest
    timestamp := .str timestamp
    requestSalt := salt }

/-- An organ's events, its journal and the chain it writes on. -/
structure EventHost where
  events : List Json := []
  journal : Option Bytes := none
  chain : WitnessChain

/-- What happens around an event: whether the journal and the chain can be written,
and the randomness of the commitment. -/
structure Moment where
  journalTakes : Bool := true
  chainTakes : Bool := true
  salt : Bytes := []

namespace EventHost

def write (host : EventHost) (event : Json) (moment : Moment) : Py (Option Bytes) :=
  match host.journal with
  | none => return none
  | some file => do
    if !moment.journalTakes then raise .osError
    return some (← Durable.durableAppend file event)

def witness (host : EventHost) (event : Json) (moment : Moment) : Py Appended := do
  let call ← callOf crypto organ writer event host.events moment.salt
  let appended ← host.chain.append crypto call
  if !moment.chainTakes then raise .osError
  return appended

/-- `_emit`: in memory, in the journal, on the chain. -/
def emit (host : EventHost) (event : Json) (moment : Moment) : EventHost × Py Json :=
  let host := { host with events := host.events ++ [event] }
  match host.write event moment with
  | .error e => (host, .error e)
  | .ok journal =>
    let host := { host with journal }
    match host.witness crypto organ writer event moment with
    | .error e => (host, .error e)
    | .ok appended => ({ host with chain := appended.chain }, .ok appended.receipt)

/-- A record that something else writes on the same chain. -/
def chained (host : EventHost) (call : AppendCall) : EventHost :=
  match host.chain.append crypto call with
  | .error _ => host
  | .ok appended => { host with chain := appended.chain }

end EventHost

def owns (record : Json) : Py Bool := do
  if (← dotGet record "kind") = .str organ.kind then
    match organ.front with
    | none => return true
    | some front => return front.isPrefixOf (pyStr (← getDefault record "semantic_digest" (.str [])))
  else return false

/-- The loop over the events and their records. -/
def eachBinding : Nat → List Json → List (Json × Json) → Py Unit
  | _, _, [] => return ()
  | i, log, (event, record) :: rest => do
    let log := log ++ [event]
    let expected ← digestOf crypto organ event log
    if (← dotGet record "semantic_digest") ≠ .str expected then .error (organ.broken i)
    eachBinding (i + 1) log rest

def audit (events chainRecords : List Json) : Py Nat := do
  let records ← filterPy (owns organ) chainRecords
  if records.length ≠ events.length then .error (organ.miscounted events.length records.length)
  eachBinding crypto organ 0 [] (events.zip records)
  return events.length

/-- Events with their records, each of which binds the events so far. -/
inductive Bound : List Json → List Json → Prop where
  | nil : Bound [] []
  | snoc {events records : List Json} {event record : Json} {digest : Str} (old : Bound events records)
      (named : digestOf crypto organ event (events ++ [event]) = .ok digest)
      (binds : dotGet record "semantic_digest" = .ok (.str digest)) : Bound (events ++ [event]) (records ++ [record])

/-- Two lists of one canonical text, or of two texts with one hash. -/
def SameText (events others : List Json) : Prop :=
  canonical (.arr events) = canonical (.arr others) ∨
    ∃ text other, canonical (.arr events) = .ok text ∧ canonical (.arr others) = .ok other ∧
      text ≠ other ∧ crypto.H text = crypto.H other

variable {crypto organ} {events others records log : List Json} {pairs : List (Json × Json)} {i : Nat}

theorem Bound.length (bound : Bound crypto organ events records) : records.length = events.length := by
  induction bound with
  | nil => rfl
  | snoc _ _ _ ih => simp [ih]

theorem eachBinding_nil (i : Nat) (log : List Json) : eachBinding crypto organ i log [] = .ok () := rfl

theorem eachBinding_cons (i : Nat) (log : List Json) (event record : Json) (rest : List (Json × Json)) :
    eachBinding crypto organ i log ((event, record) :: rest) = (do
      let expected ← digestOf crypto organ event (log ++ [event])
      if (← dotGet record "semantic_digest") ≠ .str expected then .error (organ.broken i)
      eachBinding crypto organ (i + 1) (log ++ [event]) rest) := rfl

theorem eachBinding_append {back : List (Json × Json)} :
    eachBinding crypto organ i log (pairs ++ back) = (do
      eachBinding crypto organ i log pairs
      eachBinding crypto organ (i + pairs.length) (log ++ pairs.map Prod.fst) back) := by
  induction pairs generalizing i log with
  | nil => simp [eachBinding_nil, bind, Except.bind]
  | cons pair rest ih =>
    obtain ⟨event, record⟩ := pair
    simp only [List.cons_append, eachBinding_cons, bind]
    cases digestOf crypto organ event (log ++ [event]) with
    | error e => rfl
    | ok expected =>
      cases dotGet record "semantic_digest" with
      | error e => rfl
      | ok found =>
        simp only [Except.bind]
        by_cases differs : found ≠ .str expected
        · rw [if_pos differs, if_pos differs]
        · rw [if_neg differs, if_neg differs, ih]
          simp [bind, Except.bind, Nat.add_assoc, Nat.add_comm 1]

theorem eachBinding_bound (bound : Bound crypto organ events records) :
    eachBinding crypto organ 0 [] (events.zip records) = .ok () := by
  induction bound with
  | nil => rfl
  | @snoc events records event record digest old named binds ih =>
    have firsts : (events.zip records).map Prod.fst = events := List.map_fst_zip (Nat.le_of_eq old.length.symm)
    rw [List.zip_append old.length.symm, eachBinding_append, ih]
    simp [eachBinding_cons, eachBinding_nil, firsts, named, binds, bind, Except.bind]

theorem audit_bound {chainRecords : List Json} (read : filterPy (owns organ) chainRecords = .ok records)
    (bound : Bound crypto organ events records) : audit crypto organ events chainRecords = .ok events.length := by
  simp only [audit, read, bound.length, eachBinding_bound bound, bind, Except.bind, ne_eq, not_true_eq_false, if_false]
  rfl

theorem last_named {event record : Json} (same : events.length = records.length)
    (passed : eachBinding crypto organ 0 [] ((events ++ [event]).zip (records ++ [record])) = .ok ()) :
    ∃ digest, digestOf crypto organ event (events ++ [event]) = .ok digest ∧
      dotGet record "semantic_digest" = .ok (.str digest) := by
  have firsts : (events.zip records).map Prod.fst = events := List.map_fst_zip (Nat.le_of_eq same)
  rw [List.zip_append same, eachBinding_append, firsts] at passed
  simp only [bind, Py.bind_ok] at passed
  obtain ⟨_, _, last⟩ := passed
  simp only [List.zip_cons_cons, List.zip_nil_right, List.nil_append, eachBinding_cons, bind, Py.bind_ok] at last
  obtain ⟨digest, named, found, read, last⟩ := last
  by_cases differs : found ≠ .str digest
  · rw [if_pos differs] at last
    cases last
  · rw [not_not.mp differs] at read
    exact ⟨digest, named, read⟩

theorem sameText_of_digest {event other : Json} {digest : Str} (first : digestOf crypto organ event events = .ok digest)
    (second : digestOf crypto organ other others = .ok digest) : SameText crypto events others := by
  simp only [digestOf, logHash, bind, Py.bind_ok] at first second
  obtain ⟨label, _, _, ⟨text, written, hashed⟩, first⟩ := first
  obtain ⟨label', _, _, ⟨text', written', hashed'⟩, second⟩ := second
  obtain rfl := Except.ok.inj hashed
  obtain rfl := Except.ok.inj hashed'
  have joined : label ++ ":" ++ H_hex crypto text = label' ++ ":" ++ H_hex crypto text' :=
    (Except.ok.inj first).trans (Except.ok.inj second).symm
  have long (data : Bytes) : (H_hex crypto data).length = 64 := by rw [H_hex, length_toHex, crypto.length_H]
  have hex := List.append_inj_right' joined ((long text).trans (long text').symm)
  have hash : crypto.H text = crypto.H text' := toHex_injective hex
  by_cases same : text = text'
  · left
    rw [written, written', same]
  · right
    exact ⟨text, text', written, written', same, hash⟩

theorem audit_unique {chainRecords : List Json} {n m : Nat} (first : audit crypto organ events chainRecords = .ok n)
    (second : audit crypto organ others chainRecords = .ok m) : SameText crypto events others := by
  have opened {events : List Json} {n : Nat} (accepted : audit crypto organ events chainRecords = .ok n) :
      ∃ records, filterPy (owns organ) chainRecords = .ok records ∧ records.length = events.length ∧
        eachBinding crypto organ 0 [] (events.zip records) = .ok () := by
    simp only [audit, bind, Py.bind_ok] at accepted
    obtain ⟨records, read, accepted⟩ := accepted
    by_cases differs : records.length ≠ events.length
    · rw [if_pos differs] at accepted
      cases accepted
    · rw [if_neg differs] at accepted
      simp only [Py.bind_ok] at accepted
      obtain ⟨_, passed, _⟩ := accepted
      exact ⟨records, read, not_not.mp differs, passed⟩
  obtain ⟨records, read, count, passed⟩ := opened first
  obtain ⟨records', read', count', passed'⟩ := opened second
  obtain rfl := Except.ok.inj (read.symm.trans read')
  cases records using List.reverseRecOn with
  | nil =>
    left
    rw [List.length_eq_zero_iff.mp count.symm, List.length_eq_zero_iff.mp count'.symm]
  | append_singleton records record =>
    cases events using List.reverseRecOn with
    | nil => simp at count
    | append_singleton events event =>
      cases others using List.reverseRecOn with
      | nil => simp at count'
      | append_singleton others other =>
        have same : events.length = records.length := by simpa using count.symm
        have same' : others.length = records.length := by simpa using count'.symm
        obtain ⟨digest, named, found⟩ := last_named same passed
        obtain ⟨digest', named', found'⟩ := last_named same' passed'
        obtain rfl := Json.str.inj (Except.ok.inj (found.symm.trans found'))
        exact sameText_of_digest named named'

/-- The auditor leaves the record of a call to others. -/
def Foreign (organ : Organ) (call : AppendCall) : Prop :=
  call.kind = organ.kind → ∃ front ∈ organ.front, ¬front.isPrefixOf (pyStr call.semanticDigest)

/-- Records that can enter a chain: of a kind and with a provenance that `append` takes,
and with digests that begin as the auditor expects. -/
structure Sound (organ : Organ) (writer : Writer) : Prop where
  kind : organ.kind ∈ witnessKinds ∧ organ.kind ∉ reservedKinds ∧ organ.kind ∉ provenanceKinds
  field : encodable writer.field
  provenance : (checkNoReservedValues "provenance" (.obj writer.provenance) 0).isOk ∧ writable (.obj writer.provenance)
  front : ∀ event label front, organ.label event = .ok label → front ∈ organ.front →
    front.isPrefixOf (label ++ ":")

/-- The time of an event can be written as a date. -/
def dated (writer : Writer) (event : Json) : Bool :=
  match subscript event "t" >>= writer.stamp with
  | .ok timestamp => encodable timestamp
  | .error _ => false

/-- An event that can be written down, with its date, while the journal and the
chain can be written. -/
def recordable (writer : Writer) (host : EventHost) (event : Json) (moment : Moment) : Bool :=
  writable event && dated writer event && (host.journal.isNone || moment.journalTakes) && moment.chainTakes

/-- An event that can be recorded, with a label that the plane takes. -/
structure Passes (crypto : Crypto) (organ : Organ) (writer : Writer) (host : EventHost) (event : Json)
    (moment : Moment) : Prop where
  sound : writable event
  timed : dated writer event
  journaled : host.journal.isNone ∨ moment.journalTakes
  taken : moment.chainTakes
  labelled : ∃ label, organ.label event = .ok label ∧ encodable label ∧
    ∀ data, Free (label ++ ":" ++ H_hex crypto data)

/-- What every run keeps: the chain's own records bind the events. -/
structure Audited (crypto : Crypto) (organ : Organ) (host : EventHost) : Prop where
  linked : host.chain.Linked
  written : ∀ event ∈ host.events, writable event
  bound : ∃ records, filterPy (owns organ) host.chain.records = .ok records ∧ Bound crypto organ host.events records

variable {writer : Writer} {host : EventHost} {event : Json} {moment : Moment}

theorem passes_of_recordable (able : recordable writer host event moment)
    (labelled : ∃ label, organ.label event = .ok label ∧ encodable label ∧
      ∀ data, Free (label ++ ":" ++ H_hex crypto data)) : Passes crypto organ writer host event moment := by
  simp only [recordable, Bool.and_eq_true, Bool.or_eq_true] at able
  obtain ⟨⟨⟨sound, timed⟩, journaled⟩, taken⟩ := able
  exact { sound, timed, journaled, taken, labelled }

theorem EventHost.write_ok (sound : writable event) (takes : host.journal.isNone ∨ moment.journalTakes) :
    ∃ journal, host.write event moment = .ok journal := by
  unfold EventHost.write
  cases held : host.journal with
  | none => exact ⟨none, rfl⟩
  | some file =>
    obtain ⟨after, wrote⟩ := Py.exists_of_isOk ((durableAppend_isOk file event).mpr (encodable_of_writable sound))
    have open_ : moment.journalTakes = true := by
      rcases takes with absent | takes
      · rw [held] at absent
        cases absent
      · exact takes
    simp only [open_, wrote, bind, Except.bind, Bool.not_true, Bool.false_eq_true, if_false]
    exact ⟨_, rfl⟩

theorem callOf_passes (sound : Sound organ writer) (passes : Passes crypto organ writer host event moment)
    (written : ∀ event ∈ events, writable event) (salt : Bytes) :
    ∃ digest call, digestOf crypto organ event events = .ok digest ∧ callOf crypto organ writer event events salt = .ok call ∧
      call.taken ∧ call.kind = organ.kind ∧ call.semanticDigest = .str digest := by
  obtain ⟨label, named, labelText, free⟩ := passes.labelled
  obtain ⟨timestamp, stamped, timeText⟩ : ∃ timestamp, subscript event "t" >>= writer.stamp = .ok timestamp ∧
      encodable timestamp := by
    have timed := passes.timed
    unfold dated at timed
    cases read : subscript event "t" >>= writer.stamp with
    | error e =>
      rw [read] at timed
      cases timed
    | ok timestamp =>
      rw [read] at timed
      exact ⟨timestamp, rfl, timed⟩
  simp only [bind, Py.bind_ok] at stamped
  obtain ⟨t, timed, stamped⟩ := stamped
  obtain ⟨text, logText⟩ := WitnessChain.canonical_ok (writable_arr.mpr written)
  have digest : digestOf crypto organ event events = .ok (label ++ ":" ++ H_hex crypto text) := by
    simp only [digestOf, logHash, named, logText, bind, Except.bind]
    rfl
  refine ⟨_, {
    kind := organ.kind, request := .obj [(writer.field, event)], provenance := .obj writer.provenance
    semanticDigest := .str (label ++ ":" ++ H_hex crypto text), timestamp := .str timestamp
    requestSalt := salt }, digest, ?_, ?_, rfl, rfl⟩
  · simp only [callOf, digest, timed, stamped, bind, Except.bind]
    rfl
  · obtain ⟨known, unreserved, bare⟩ := sound.kind
    obtain ⟨_, reserve⟩ := Py.exists_of_isOk sound.provenance.1
    have plane := @checkPlaneValue_of (.str (label ++ ":" ++ H_hex crypto text)) "semantic_digest" 0 0
      (fun text member => by
        obtain rfl := List.mem_singleton.mp member
        exact (free _).1) (by simp [counted, maxPlaneNodes]) (by simp [height])
    obtain ⟨_, _, digestFree⟩ := @checkNoReservedValues_of (.str (label ++ ":" ++ H_hex crypto text)) "semantic_digest" 0
      (fun text member => by
        obtain rfl := List.mem_singleton.mp member
        exact (free _).2) (by simp [size, maxScanNodes])
    have admitted : WitnessChain.Admitted {
        kind := organ.kind, request := .obj [(writer.field, event)], provenance := .obj writer.provenance
        semanticDigest := .str (label ++ ":" ++ H_hex crypto text), timestamp := .str timestamp
        requestSalt := salt } := {
      known := List.contains_iff_mem.mpr known
      cognitive := fun inside => unreserved (List.mem_append_left _ (List.mem_append_right _ (List.contains_iff_mem.mp inside)))
      custody := fun inside => unreserved (List.mem_append_right _ (List.contains_iff_mem.mp inside))
      reserved := fun inside => unreserved (List.contains_iff_mem.mp inside)
      bound := fun inside => absurd (List.contains_iff_mem.mp inside) bare
      complete := fun (attested : organ.kind = releaseAttested) => absurd (attested ▸ List.mem_cons_self) bare
      plane := ⟨_, plane⟩, digest := ⟨_, digestFree⟩, provenance := ⟨_, reserve⟩, entanglement := ⟨1, rfl⟩
      session := rfl, schema := rfl }
    rw [AppendCall.taken, Bool.and_eq_true]
    constructor
    · rw [WitnessChain.checkAppend_ok.mpr admitted]
      rfl
    · have request : writable (.obj [(writer.field, event)]) := by
        rw [writable_obj]
        simp only [List.mem_singleton, forall_eq]
        exact ⟨sound.field, passes.sound⟩
      have digestText : encodable (label ++ ":" ++ H_hex crypto text) := by
        have colon : encodable ":" := by decide +kernel
        simp only [encodable_append, labelText, colon, WitnessChain.encodable_hash, and_self]
      have timeJson : writable (.str timestamp) := timeText
      have digestJson : writable (.str (label ++ ":" ++ H_hex crypto text)) := digestText
      have null : writable .null := rfl
      simp only [List.all_cons, List.all_nil, request, sound.provenance.2, digestJson, timeJson, null, Bool.and_self]

theorem owns_of {record : Json} {call : AppendCall} (kind : subscript record "kind" = .ok (.str call.kind))
    (digest : subscript record "semantic_digest" = .ok call.semanticDigest) :
    owns organ record = .ok (decide (call.kind = organ.kind) &&
      organ.front.all (fun front => front.isPrefixOf (pyStr call.semanticDigest))) := by
  have read : getDefault record "semantic_digest" (.str []) = .ok call.semanticDigest := by
    obtain ⟨fields, rfl⟩ := obj_of_subscript digest
    rw [getDefault, subscript_obj.mp digest]
    rfl
  by_cases same : call.kind = organ.kind
  · cases asked : organ.front with
    | none => simp [owns, dotGet_of_subscript kind, same, asked, bind, Except.bind, pure, Except.pure]
    | some front => simp [owns, dotGet_of_subscript kind, same, asked, read, bind, Except.bind, pure, Except.pure]
  · simp [owns, dotGet_of_subscript kind, same, bind, Except.bind, pure, Except.pure]

theorem front_of_digest (sound : Sound organ writer) {front digest : Str} (asked : organ.front = some front)
    (named : digestOf crypto organ event events = .ok digest) : front.isPrefixOf (pyStr (.str digest)) = true := by
  simp only [digestOf, bind, Py.bind_ok] at named
  obtain ⟨label, labelled, hash, _, made⟩ := named
  obtain rfl := Except.ok.inj made
  have starts := List.isPrefixOf_iff_prefix.mp (sound.front event label front labelled asked)
  rw [List.isPrefixOf_iff_prefix, pyStr]
  exact starts.trans (List.prefix_append _ hash)

theorem emit_audited (sound : Sound organ writer) (audited : Audited crypto organ host)
    (passes : Passes crypto organ writer host event moment) : Audited crypto organ (host.emit crypto organ writer event moment).1 := by
  have written : ∀ other ∈ host.events ++ [event], writable other := by
    intro other member
    rcases List.mem_append.mp member with old | new
    · exact audited.written other old
    · rw [List.mem_singleton.mp new]
      exact passes.sound
  obtain ⟨digest, call, named, made, taken, kind, binds⟩ := callOf_passes sound passes written moment.salt
  obtain ⟨journal, wrote⟩ := host.write_ok passes.sound passes.journaled
  obtain ⟨appended, added, linked⟩ := @Ledger.append_taken crypto ⟨host.chain, audited.linked⟩ call taken
  have left : (host.emit crypto organ writer event moment).1 =
      { events := host.events ++ [event], journal, chain := appended.chain } := by
    have same : EventHost.write { host with events := host.events ++ [event] } event moment = .ok journal := wrote
    have put : EventHost.witness crypto organ writer { events := host.events ++ [event], journal, chain := host.chain } event moment =
        .ok appended := by
      simp only [EventHost.witness, made, added, passes.taken, bind, Except.bind, Bool.not_true, Bool.false_eq_true, if_false]
      rfl
    simp only [EventHost.emit, same, put]
  obtain ⟨records, read, bound⟩ := audited.bound
  obtain ⟨grows, kindRead, digestRead⟩ := WitnessChain.append_adds added
  have own : owns organ appended.record = .ok true := by
    rw [owns_of kindRead digestRead, kind, binds, Except.ok.injEq]
    simp only [decide_true, Bool.true_and]
    cases asked : organ.front with
    | none => rfl
    | some front => exact front_of_digest sound asked named
  rw [left]
  exact {
    linked, written
    bound := ⟨records ++ [appended.record], by
      rw [grows]
      exact filterPy_append read (by simp [filterPy, own, bind, Except.bind, pure, Except.pure]),
      .snoc bound named (by rw [dotGet_of_subscript digestRead, binds])⟩ }

theorem chained_audited (audited : Audited crypto organ host) {call : AppendCall} (foreign : Foreign organ call) :
    Audited crypto organ (host.chained crypto call) := by
  unfold EventHost.chained
  cases added : host.chain.append crypto call with
  | error e => exact audited
  | ok appended =>
    dsimp only
    obtain ⟨records, read, bound⟩ := audited.bound
    obtain ⟨grows, kind, digest⟩ := WitnessChain.append_adds added
    have other : owns organ appended.record = .ok false := by
      rw [owns_of kind digest, Except.ok.injEq]
      by_cases same : call.kind = organ.kind
      · obtain ⟨front, asked, apart⟩ := foreign same
        simp [Option.mem_def.mp asked, apart]
      · simp [same]
    exact {
      linked := WitnessChain.linked_append added, written := audited.written
      bound := ⟨records ++ [], by
        change filterPy (owns organ) appended.chain.records = _
        rw [grows]
        exact filterPy_append read (by simp [filterPy, other, bind, Except.bind, pure, Except.pure]),
        (List.append_nil records).symm ▸ bound⟩ }

theorem Audited.exact (audited : Audited crypto organ host) :
    audit crypto organ host.events host.chain.records = .ok host.events.length ∧
      ∀ others n, audit crypto organ others host.chain.records = .ok n → SameText crypto others host.events := by
  obtain ⟨records, read, bound⟩ := audited.bound
  have accepted := audit_bound read bound
  exact ⟨accepted, fun others n found => audit_unique found accepted⟩

theorem audited_fresh (linked : host.chain.Linked) (fresh : host.events = [])
    (unused : filterPy (owns organ) host.chain.records = .ok []) : Audited crypto organ host where
  linked := linked
  written event member := by
    rw [fresh] at member
    exact absurd member List.not_mem_nil
  bound := ⟨[], unused, by rw [fresh]; exact .nil⟩

end JJDai.EventLog
