import JJDai.Lib.Run
import JJDai.Primitive.EventLog
import JJDai.Reputation.Registry

/-! `core.registry` on the witness chain: its events as they are journaled and bound,
and `verify_journal_against_chain`. -/

namespace JJDai.Reputation

open PyText Canonical EventLog

def Event.json : Event PyFloat → Json
  | .verdict t topic scope objectId ok margin difficulty =>
    .obj [("ev", .str "verdict"), ("t", .float t), ("topic", .str topic), ("scope", .str scope),
      ("object_id", .str objectId), ("ok", .bool ok), ("margin", margin.elim .null .float),
      ("difficulty", .float difficulty)]
  | .slash t objectId reason penaltyMult =>
    .obj [("ev", .str "slash"), ("t", .float t), ("object_id", .str objectId), ("reason", .str reason),
      ("penalty_mult", .float penaltyMult)]
  | .stake t objectId amount =>
    .obj [("ev", .str "stake"), ("t", .float t), ("object_id", .str objectId), ("stake", .float amount)]

variable (crypto : Crypto)

def registryLog : Organ where
  kind := "REGISTRY"
  label event := do return "reg:" ++ H_hex crypto (← canonical event)
  miscounted journal chain := ⟨.journalChainMismatch, "count mismatch: journal has " ++ natText journal ++
    " events, chain has " ++ natText chain ++ " REGISTRY records"⟩
  broken i := ⟨.journalChainMismatch, "binding broken at event " ++ natText i ++
    ": journal event does not match the chain's REGISTRY digest (tamper or reorder)"⟩

def verifyJournalAgainstChain (events chainRecords : List Json) : Py Nat :=
  audit crypto (registryLog crypto) events chainRecords

variable (stamp : Json → Py Str)

def registryWriter : Writer where
  field := "registry_event"
  provenance := [("module", .str "core.registry"), ("schema", .str "v1")]
  stamp := stamp

/-- `ChampionRegistry._emit`, without the views that an event changes. -/
def emit (host : EventHost) (event : Event PyFloat) (moment : Moment) : EventHost × Py Json :=
  let (host, receipt) := host.emit crypto (registryLog crypto) (registryWriter stamp) event.json moment
  (host, do
    let receipt ← receipt
    let hash ← logHash crypto host.events
    return .obj [("event", event.json), ("witness_receipt", receipt), ("snapshot_hash", .str hash)])

/-- A mutation, or a record that something else writes on the chain. -/
inductive Move where
  | mutate (event : Event PyFloat) (moment : Moment)
  | chained (call : AppendCall)

def move (host : EventHost) : Move → EventHost
  | .mutate event moment => (emit crypto stamp host event moment).1
  | .chained call => host.chained crypto call

/-- A mutation that can be recorded; a record of another kind. -/
def Clear (host : EventHost) : Move → Prop
  | .mutate event moment => recordable (registryWriter stamp) host event.json moment
  | .chained call => call.kind ≠ "REGISTRY"

instance (host : EventHost) : (action : Move) → Decidable (Clear stamp host action)
  | .mutate event moment => inferInstanceAs (Decidable (recordable (registryWriter stamp) host event.json moment = true))
  | .chained call => inferInstanceAs (Decidable (call.kind ≠ "REGISTRY"))

theorem registry_sound : Sound (registryLog crypto) (registryWriter stamp) where
  kind := by
    change Str.ofString "REGISTRY" ∈ witnessKinds ∧ Str.ofString "REGISTRY" ∉ reservedKinds ∧
      Str.ofString "REGISTRY" ∉ provenanceKinds
    decide +kernel
  field := by
    change encodable (Str.ofString "registry_event")
    decide +kernel
  provenance := by
    change (checkNoReservedValues "provenance" (.obj [("module", .str "core.registry"), ("schema", .str "v1")]) 0).isOk ∧
      writable (.obj [("module", .str "core.registry"), ("schema", .str "v1")])
    decide +kernel
  front event label front _ asked := by cases asked

variable {crypto stamp} {host : EventHost}

theorem label_registry {event : Json} (sound : writable event) :
    ∃ label, (registryLog crypto).label event = .ok label ∧ encodable label ∧
      ∀ data, Free (label ++ ":" ++ H_hex crypto data) := by
  obtain ⟨text, written⟩ := WitnessChain.canonical_ok sound
  refine ⟨"reg:" ++ H_hex crypto text, ?_, ?_, fun data => ?_⟩
  · simp only [registryLog, written, bind, Except.bind]
    rfl
  · have word : encodable "reg:" := by decide +kernel
    simp only [encodable_append, word, WitnessChain.encodable_hash, and_self]
  · have parts : splitAt (ch ':') (H_hex crypto text ++ ch ':' :: H_hex crypto data) =
        [H_hex crypto text, H_hex crypto data] := by
      rw [splitAt_append, splitAt_absent (colon_not_mem_hash crypto text), splitAt_absent (colon_not_mem_hash crypto data)]
      rfl
    have free := @free_joined "reg" (H_hex crypto text ++ ch ':' :: H_hex crypto data) (by decide +kernel)
      (fun part member => by
        rw [parts] at member
        rcases List.mem_cons.mp member with rfl | last
        · exact freePart_hash crypto text
        · rw [List.mem_singleton.mp last]
          exact freePart_hash crypto data) (by simp [parts, maxDigestParts])
    have joined : "reg:" ++ H_hex crypto text ++ ":" ++ H_hex crypto data =
        Str.ofString "reg" ++ ch ':' :: (H_hex crypto text ++ ch ':' :: H_hex crypto data) := by
      have word : Str.ofString "reg:" = Str.ofString "reg" ++ [ch ':'] := by decide +kernel
      have colon : Str.ofString ":" = [ch ':'] := by decide +kernel
      simp [word, colon]
    rw [joined]
    exact free

theorem move_audited (audited : Audited crypto (registryLog crypto) host) {action : Move}
    (clear : Clear stamp host action) : Audited crypto (registryLog crypto) (move crypto stamp host action) := by
  cases action with
  | mutate event moment =>
    have able : recordable (registryWriter stamp) host event.json moment := clear
    have sound : writable event.json := by
      simp only [recordable, Bool.and_eq_true] at able
      exact able.1.1.1
    exact emit_audited (registry_sound crypto stamp) audited (passes_of_recordable able (label_registry sound))
  | chained call => exact chained_audited audited (fun same => absurd same clear)

/-- The registry's own list passes its audit after every clear run, and no other
list but one of its text. -/
theorem registry_audited (linked : host.chain.Linked) (fresh : host.events = [])
    (unused : filterPy (owns (registryLog crypto)) host.chain.records = .ok []) {actions : List Move}
    (clear : Run.Along (move crypto stamp) (Clear stamp) host actions) :
    Audited crypto (registryLog crypto) (Run.run (move crypto stamp) host actions) :=
  Run.invariant (fun host _ (kept : Audited crypto (registryLog crypto) host) allowed => move_audited kept allowed)
    (audited_fresh linked fresh unused) clear

end JJDai.Reputation
