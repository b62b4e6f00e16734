import JJDai.Primitive.ChainVerification
import JJDai.Primitive.JournaledStore
import JJDai.Primitive.ReadBack

/-! `WitnessChain` on a log path: appends whose durable write may fail partway while
the process goes on, and chains opened on the path again. -/

namespace JJDai

open PyText Canonical WitnessChain Durable
open Durable.JournaledStore (EndsClean Fragment readJournal_fragment)

/-- A call whose values, where the record takes them over, are dicts without repeated keys. -/
structure LoggedCall where
  call : AppendCall
  timestamp : call.timestamp.valid
  semanticDigest : call.semanticDigest.valid
  entanglement : call.entanglement.valid

/-- The running chain and the bytes of its log. -/
structure PersistedChain where
  chain : WitnessChain
  file : Bytes

/-- An append whose write completes or fails after some of its bytes; a second chain
opened on the path; the process ending and another one starting on the path. -/
inductive LogAction where
  | append (call : LoggedCall) (failure : Option Nat)
  | reopen
  | restart

namespace PersistedChain

variable (crypto : Crypto) (path : Str)

def fresh (sk : SigningKey) : PersistedChain := ⟨⟨sk, []⟩, []⟩

/-- `append` with `_persist`: a failing write leaves the memory as it is, not the file. -/
def append (log : PersistedChain) (call : LoggedCall) (failure : Option Nat) : PersistedChain :=
  match log.chain.append crypto call.call with
  | .error _ => log
  | .ok appended =>
    match encode (journalLine appended.record) with
    | .error _ => log
    | .ok line =>
      match failure with
      | none => ⟨appended.chain, log.file ++ line⟩
      | some count => { log with file := log.file ++ line.take count }

def step (log : PersistedChain) : LogAction → PersistedChain
  | .append call failure => log.append crypto call failure
  | .reopen =>
    match boot path log.file with
    | .ok (_, file) => { log with file }
    | .error _ => log
  | .restart =>
    match boot path log.file with
    | .ok (records, file) => ⟨{ log.chain with records }, file⟩
    | .error _ => log

/-- A chain opened on the path now loads, verifies, and has the running chain's records. -/
def Agrees (log : PersistedChain) : Prop :=
  ∃ records file, boot path log.file = .ok (records, file) ∧
    WitnessChain.verifyChain crypto { log.chain with records } = .ok true ∧
    records = log.chain.records.map Json.sortKeys

/-- The write starts at the start of a line, and one that fails has put nothing yet, or
stops between two characters of the record's text before its end. -/
def Careful (log : PersistedChain) : LogAction → Prop
  | .append call failure => ∀ appended line, log.chain.append crypto call.call = .ok appended →
      encode (journalLine appended.record) = .ok line →
      match failure with
      | none => EndsClean log.file
      | some count => 0 < count →
          EndsClean log.file ∧ (decodeUtf8 (line.take count)).isSome ∧ count + 1 < line.length
  | _ => True

end PersistedChain

variable {crypto : Crypto} {path : Str} {pub : Bytes} {chain : WitnessChain}

theorem valid_commitment {salt : Bytes} {value committed : Json}
    (made : commitment crypto salt value = .ok committed) : committed.valid := by
  cases value with
  | null =>
    obtain rfl := Except.ok.inj made
    rfl
  | _ =>
    simp only [commitment, bind, Py.bind_ok] at made
    obtain ⟨data, _, made⟩ := made
    obtain rfl := Except.ok.inj made
    rfl

theorem valid_provenanceHash {value hash : Json} (made : provenanceHash crypto value = .ok hash) :
    hash.valid := by
  cases value with
  | null =>
    obtain rfl := Except.ok.inj made
    rfl
  | _ =>
    simp only [provenanceHash, bind, Py.bind_ok] at made
    obtain ⟨data, _, made⟩ := made
    obtain rfl := Except.ok.inj made
    rfl

theorem keys_optionalField (key : Str) (value : Json) :
    (Dict.keys (optionalField key value)).Sublist [key] := by
  cases value with
  | null => exact List.nil_sublist _
  | _ => exact List.Sublist.refl _

theorem valid_optionalField {key : Str} {value : Json} (sound : value.valid) {entry : Str × Json}
    (member : entry ∈ optionalField key value) : entry.2.valid := by
  cases value with
  | null => cases member
  | _ => rw [List.mem_singleton.mp member]; exact sound

theorem event_of_built {call : LoggedCall} {record : Json} (session : call.call.sessionId = .null)
    (schema : call.call.irSchemaVersion = .null)
    (head : ∀ prev, chain.headHash = .ok prev → prev.valid)
    (built : chain.buildRecord crypto call.call = .ok record) : ∃ e : Event, e.json = record := by
  simp only [buildRecord, bind, Py.bind_ok, session, schema] at built
  obtain ⟨prevHash, prevRead, request, requestMade, response, responseMade, provenance,
    provenanceMade, data, _, signed, _, made⟩ := built
  obtain rfl := Except.ok.inj made
  have entangled := keys_optionalField "entanglement" call.call.entanglement
  refine ⟨⟨_, Json.valid_obj.mpr ⟨?_, ?_⟩⟩, rfl⟩
  · have fixed : (["index", "prev_hash", "timestamp", "node_id", "kind", "request_commitment",
        "response_commitment", "provenance_hash", "semantic_digest", "entanglement", "this_hash",
        "sig"] : List Str).Nodup := by decide
    refine fixed.sublist ?_
    simp only [Dict.keys, optionalField, List.append_nil, List.map_append, List.map_cons,
      List.map_nil, List.cons_append, List.nil_append]
    repeat apply List.Sublist.cons_cons
    exact entangled.append (List.Sublist.refl _)
  · intro entry member
    simp only [optionalField, List.append_nil, List.mem_append] at member
    rcases member with (body | entanglement) | added
    · simp only [List.mem_cons, List.not_mem_nil, or_false] at body
      rcases body with rfl | rfl | rfl | rfl | rfl | rfl | rfl | rfl | rfl
      · rfl
      · exact head _ prevRead
      · exact call.timestamp
      · rfl
      · rfl
      · exact valid_commitment requestMade
      · exact valid_commitment responseMade
      · exact valid_provenanceHash provenanceMade
      · exact call.semanticDigest
    · exact valid_optionalField call.entanglement entanglement
    · simp only [List.mem_cons, List.not_mem_nil, or_false] at added
      rcases added with rfl | rfl <;> rfl

theorem verifyLoop_sortKeys {i : Nat} {prev prev' : Json} {records : List Json}
    (sound : ∀ record ∈ records, record.valid) (same : Json.pyEq prev prev')
    (verified : verifyLoop crypto pub i prev records = .ok true) :
    verifyLoop crypto pub i prev' (records.map Json.sortKeys) = .ok true := by
  induction records generalizing i prev prev' with
  | nil => rfl
  | cons record rest ih =>
    have recordSound := sound record List.mem_cons_self
    have restSound : ∀ item ∈ rest, item.valid := fun item member =>
      sound item (List.mem_cons_of_mem _ member)
    obtain ⟨fields, hash, rfl, signed, prevHere, sigHere, later⟩ := verifyLoop_cons.mp verified
    obtain ⟨⟨index, indexRead, number⟩, chained, ⟨data, text, hashed⟩, named, data', sig, encoded,
      sigRead, verifies⟩ := signed
    obtain ⟨prevHash, prevRead⟩ := Option.isSome_iff_exists.mp prevHere
    obtain ⟨value, valueRead⟩ := Option.isSome_iff_exists.mp sigHere
    rw [prevRead] at chained
    rw [valueRead] at sigRead
    have prevBack := get?_sortedFields recordSound prevRead
    have sigBack := get?_sortedFields recordSound valueRead
    rw [List.map_cons, Json.sortKeys_obj]
    refine verifyLoop_cons.mpr ⟨sortedFields fields, hash, rfl, ?_, by rw [prevBack]; rfl,
      by rw [sigBack]; rfl, ih restSound (Json.pyEq.refl _) later⟩
    refine ⟨⟨_, get?_sortedFields recordSound indexRead, (Json.pyEq_sortKeys index).trans number⟩, ?_,
      ⟨data, (canonical_unsigned recordSound).trans text, hashed⟩, get?_sortedFields recordSound named,
      data', sig, encoded, ?_, verifies⟩
    · rw [prevBack]
      exact ((Json.pyEq_sortKeys prevHash).trans chained).trans same
    · rw [sigBack]
      exact bytesFromHex_sortKeys sigRead

namespace PersistedChain

variable (crypto) in
/-- The log holds the lines of the chain's records, and at most a fragment behind them. -/
structure Settled (log : PersistedChain) (events : List Event) (tail : Str) : Prop where
  fragment : Fragment tail
  file : encodeUtf8 (journalText events ++ tail) = some log.file
  records : log.chain.records = events.map Event.json
  verified : log.chain.verifyChain crypto = .ok true

variable {log : PersistedChain} {events : List Event} {tail : Str}

theorem boot_fragment (path : Str) {file : Bytes} (fragment : Fragment tail)
    (encoded : encodeUtf8 (journalText events ++ tail) = some file) :
    ∃ clean, boot path file = .ok (stored events, clean) ∧ Holds clean events := by
  obtain ⟨clean, rest, holds, _, _⟩ := encodeUtf8_append_inv encoded
  have decoded := decodeUtf8_encodeUtf8 encoded
  have printable := fragment.printable
  refine ⟨clean, ?_, holds⟩
  rcases fragment with rfl | ⟨e, back, split, proper, some_left⟩
  · rw [List.append_nil] at encoded
    obtain rfl : clean = file := Option.some.inj (holds.symm.trans encoded)
    simp [boot, readJournal_holds path holds, Report.ofTail, bind, Except.bind, pure, Except.pure]
  · obtain ⟨others, brace⟩ := dumps_brace e
    obtain ⟨c, tail, rfl⟩ := List.exists_cons_of_ne_nil some_left
    obtain ⟨rfl, _⟩ := List.cons.inj (brace.symm.trans split)
    exact boot_torn path holds decoded printable (hasText_brace tail)
      (loads_dumps_front e.valid split proper)

theorem Settled.valid (good : Settled crypto log events tail) :
    ∀ record ∈ log.chain.records, record.valid := by
  intro record member
  rw [good.records] at member
  obtain ⟨e, _, rfl⟩ := List.mem_map.mp member
  exact e.valid

theorem Settled.stored (good : Settled crypto log events tail) :
    stored events = log.chain.records.map Json.sortKeys := by
  rw [good.records, List.map_map]
  rfl

theorem Settled.verified_stored (good : Settled crypto log events tail) :
    WitnessChain.verifyChain crypto { log.chain with records := Durable.stored events } = .ok true := by
  rw [good.stored]
  exact verifyLoop_sortKeys good.valid (Json.pyEq.refl _) good.verified

theorem Settled.agrees (good : Settled crypto log events tail) : log.Agrees crypto path := by
  obtain ⟨clean, boots, _⟩ := boot_fragment path good.fragment good.file
  exact ⟨_, clean, boots, good.verified_stored, good.stored⟩

theorem Settled.repaired (good : Settled crypto log events tail) {clean : Bytes}
    (holds : Holds clean events) : Settled crypto { log with file := clean } events [] where
  fragment := .inl rfl
  file := by simpa [Holds] using holds
  records := good.records
  verified := good.verified

theorem Settled.restarted (good : Settled crypto log events tail) {clean : Bytes}
    (holds : Holds clean events) :
    Settled crypto ⟨{ log.chain with records := Durable.stored events }, clean⟩
      (events.map Event.reloaded) [] where
  fragment := .inl rfl
  file := by
    rw [journalText_reloaded, List.append_nil]
    exact holds
  records := stored_eq events
  verified := good.verified_stored

theorem Settled.head (good : Settled crypto log events tail) :
    ∀ prev, log.chain.headHash = .ok prev → prev.valid := by
  intro prev read
  unfold headHash at read
  cases last : log.chain.records.getLast? with
  | none =>
    rw [last] at read
    obtain rfl := Except.ok.inj read
    rfl
  | some record =>
    rw [last] at read
    exact valid_of_subscript (good.valid record (List.mem_of_getLast? last)) read

theorem settled_append (lawful : crypto.Lawful) (good : Settled crypto log events tail)
    (call : LoggedCall) (failure : Option Nat)
    (careful : log.Careful crypto (.append call failure)) :
    ∃ events tail, Settled crypto (log.append crypto call failure) events tail := by
  unfold append
  cases made : log.chain.append crypto call.call with
  | error e => exact ⟨events, tail, good⟩
  | ok appended =>
    have grown := verifyChain_append lawful made good.verified
    have parts := made
    simp only [WitnessChain.append, bind, Py.bind_ok] at parts
    obtain ⟨_, checked, record, built, _, _, shape⟩ := parts
    obtain rfl := Except.ok.inj shape
    have admitted := checkAppend_ok.mp checked
    obtain ⟨e, rfl⟩ := event_of_built admitted.session admitted.schema good.head built
    cases encoded : encode (journalLine e.json) with
    | error err => exact ⟨events, tail, by simpa only [encoded] using good⟩
    | ok line =>
      have allowed := careful _ line made encoded
      simp only [encoded]
      cases failure with
      | none =>
        obtain rfl := JournaledStore.EndsClean.no_fragment allowed good.fragment good.file
        have whole : Holds log.file events := by simpa [Holds] using good.file
        refine ⟨events ++ [e], [], .inl rfl, ?_, ?_, grown⟩
        · rw [List.append_nil]
          exact whole.append (durableAppend_ok.mpr ⟨line, encode_ok.mp encoded, rfl⟩)
        · simp [good.records]
      | some count =>
        cases count with
        | zero => exact ⟨events, tail, by simpa using good⟩
        | succ count =>
          obtain ⟨clean, boundary, short⟩ := allowed (Nat.succ_pos count)
          obtain rfl := JournaledStore.EndsClean.no_fragment clean good.fragment good.file
          have whole : Holds log.file events := by simpa [Holds] using good.file
          obtain ⟨front, decoded⟩ := Option.isSome_iff_exists.mp boundary
          obtain ⟨back, split, proper, part⟩ := front_of_cut encoded decoded short
          refine ⟨events, front, ?_, encodeUtf8_append whole part, good.records, good.verified⟩
          by_cases some_left : front = []
          · exact .inl some_left
          · exact .inr ⟨e, back, split, proper, some_left⟩

theorem settled_step (lawful : crypto.Lawful) (log : PersistedChain) (action : LogAction)
    (good : ∃ events tail, Settled crypto log events tail) (careful : log.Careful crypto action) :
    ∃ events tail, Settled crypto (log.step crypto path action) events tail := by
  obtain ⟨events, tail, good⟩ := good
  cases action with
  | append call failure => exact settled_append lawful good call failure careful
  | reopen =>
    obtain ⟨clean, boots, holds⟩ := boot_fragment path good.fragment good.file
    exact ⟨events, [], by simpa only [step, boots] using good.repaired holds⟩
  | restart =>
    obtain ⟨clean, boots, holds⟩ := boot_fragment path good.fragment good.file
    exact ⟨_, [], by simpa only [step, boots] using good.restarted holds⟩

/-- At the end of every careful run the disk and the memory agree. -/
theorem disk_agrees (crypto : Crypto) (path : Str) (lawful : crypto.Lawful) (sk : SigningKey)
    (actions : List LogAction)
    (careful : Run.Along (PersistedChain.step crypto path) (PersistedChain.Careful crypto) (fresh sk)
      actions) :
    (Run.run (PersistedChain.step crypto path) (fresh sk) actions).Agrees crypto path := by
  have settled : ∃ events tail, Settled crypto (fresh sk) events tail :=
    ⟨[], [], .inl rfl, rfl, rfl, rfl⟩
  obtain ⟨_, _, final⟩ := Run.invariant (settled_step lawful) settled careful
  exact final.agrees

def sampleCall : LoggedCall where
  call := { kind := "INFER" }
  timestamp := rfl
  semanticDigest := rfl
  entanglement := rfl

def sampleRecord : Json :=
  (((fresh (.sample 1)).chain.append Crypto.sample sampleCall.call).toOption.map
    Appended.record).getD .null

def sampleLine : Bytes := (encode (journalLine sampleRecord)).toOption.getD []

/-- A line that opens an object, and goes on. -/
def opensObject : Bytes → Bool
  | first :: _ :: _ :: _ => first = 123
  | _ => false

private theorem sampleCall_told :
    ((fresh (.sample 1)).chain.append Crypto.sample sampleCall.call).isOk = true ∧
      (encode (journalLine sampleRecord)).isOk = true ∧ opensObject sampleLine = true := by
  decide +kernel

theorem sampleRecord_made : ∃ appended,
    (fresh (.sample 1)).chain.append Crypto.sample sampleCall.call = .ok appended ∧
      appended.record = sampleRecord := by
  obtain ⟨appended, made⟩ := Py.exists_of_isOk sampleCall_told.1
  refine ⟨appended, made, ?_⟩
  rw [sampleRecord, made]
  rfl

theorem sampleLine_encoded : encode (journalLine sampleRecord) = .ok sampleLine := by
  obtain ⟨line, encoded⟩ := Py.exists_of_isOk sampleCall_told.2.1
  rw [sampleLine, encoded]
  rfl

theorem starts_of_opensObject {line : Bytes} (opens : opensObject line = true) :
    line.take 1 = [123] ∧ 2 < line.length := by
  match line, opens with
  | first :: second :: third :: rest, opens =>
    obtain rfl := of_decide_eq_true opens
    exact ⟨rfl, by simp⟩

theorem sampleLine_starts : sampleLine.take 1 = [123] ∧ 2 < sampleLine.length :=
  starts_of_opensObject sampleCall_told.2.2

theorem endsClean_nil : EndsClean [] := by
  intro raw decoded
  obtain rfl := Option.some.inj decoded
  exact .inl rfl

theorem append_failed {call : LoggedCall} {appended : Appended} {line : Bytes}
    (made : log.chain.append crypto call.call = .ok appended)
    (encoded : encode (journalLine appended.record) = .ok line) (count : Nat) :
    log.append crypto call (some count) = { log with file := log.file ++ line.take count } := by
  simp only [append, made, encoded]

theorem cut_once : PersistedChain.step Crypto.sample "log" (fresh (.sample 1))
    (.append sampleCall (some 1)) = { fresh (.sample 1) with file := [123] } := by
  obtain ⟨appended, made, same⟩ := sampleRecord_made
  rw [step, append_failed made (by rw [same, sampleLine_encoded]), sampleLine_starts.1]
  rfl

theorem repaired_once : PersistedChain.step Crypto.sample "log" { fresh (.sample 1) with file := [123] }
    .reopen = fresh (.sample 1) := by
  have boots : boot "log" [123] = .ok ([], []) := by decide +kernel
  simp only [step, boots]
  rfl

theorem disk_agrees_sample :
    (Run.run (PersistedChain.step Crypto.sample "log") (fresh (.sample 1))
      [.append sampleCall (some 1), .reopen, .append sampleCall none]).Agrees Crypto.sample "log" := by
  have first : (fresh (.sample 1)).Careful Crypto.sample (.append sampleCall (some 1)) := by
    intro appended line made encoded _
    obtain ⟨again, madeAgain, same⟩ := sampleRecord_made
    obtain rfl := Except.ok.inj (made.symm.trans madeAgain)
    rw [same, sampleLine_encoded] at encoded
    obtain rfl := Except.ok.inj encoded
    refine ⟨endsClean_nil, ?_, sampleLine_starts.2⟩
    rw [sampleLine_starts.1]
    decide
  have last : (fresh (.sample 1)).Careful Crypto.sample (.append sampleCall none) :=
    fun _ _ _ _ => endsClean_nil
  have second : Run.Along (PersistedChain.step Crypto.sample "log") (PersistedChain.Careful Crypto.sample)
      { fresh (.sample 1) with file := [123] } [.reopen, .append sampleCall none] := by
    apply Run.Along.cons repaired_once trivial
    exact ⟨last, trivial⟩
  exact disk_agrees Crypto.sample "log" Crypto.sample_lawful (.sample 1) _
    (.cons cut_once first second)

theorem whole_line_differs {call : LoggedCall} {appended : Appended} {line : Bytes}
    (made : (fresh (.sample 1)).chain.append Crypto.sample call.call = .ok appended)
    (encoded : encode (journalLine appended.record) = .ok line) :
    ¬ (PersistedChain.step Crypto.sample "log" (fresh (.sample 1)) (.append call (some line.length))).Agrees
      Crypto.sample "log" := by
  rintro ⟨records, file, boots, _, same⟩
  have left : (fresh (.sample 1)).append Crypto.sample call (some line.length) =
      { fresh (.sample 1) with file := line } := by
    have empty : (fresh (.sample 1)).file = [] := rfl
    rw [append_failed made encoded, List.take_length, empty, List.nil_append]
  rw [step, left] at boots same
  have parts := made
  simp only [WitnessChain.append, bind, Py.bind_ok] at parts
  obtain ⟨_, checked, record, built, _, _, shape⟩ := parts
  obtain rfl := Except.ok.inj shape
  have admitted := checkAppend_ok.mp checked
  have head : ∀ prev, (fresh (.sample 1)).chain.headHash = .ok prev → prev.valid := by
    intro prev read
    obtain rfl := Except.ok.inj read
    rfl
  obtain ⟨e, event⟩ := event_of_built admitted.session admitted.schema head built
  have holds : Holds line [e] := by
    have text := encode_ok.mp encoded
    rw [← event] at text
    simpa [Holds, journalText] using text
  have read : boot "log" line = .ok (stored [e], line) := by
    simp [boot, readJournal_holds "log" holds, Report.ofTail, bind, Except.bind, pure, Except.pure]
  obtain ⟨rfl, _⟩ := Prod.mk.inj (Except.ok.inj (boots.symm.trans read))
  cases same

theorem disk_differs : Crypto.sample.Lawful ∧ ¬ ∀ actions : List LogAction,
    (Run.run (PersistedChain.step Crypto.sample "log") (fresh (.sample 1)) actions).Agrees
      Crypto.sample "log" := by
  refine ⟨Crypto.sample_lawful, fun always => ?_⟩
  obtain ⟨appended, made, recorded⟩ := sampleRecord_made
  have encoded : encode (journalLine appended.record) = .ok sampleLine := by
    rw [recorded, sampleLine_encoded]
  have agrees := always [.append sampleCall (some sampleLine.length)]
  rw [Run.run_cons, Run.run_nil] at agrees
  exact whole_line_differs made encoded agrees

end PersistedChain

end JJDai
