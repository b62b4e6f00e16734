import JJDai.Kernel.Karma
import JJDai.Reputation.JournalAudit

/-! `kernel.karma` on the witness chain, `verify_karma_against_chain`, and what the two
auditors of journals accept. -/

namespace JJDai.Karma

open PyText Canonical EventLog

/-- `isolation_provenance`, of a sandbox with the given capabilities. -/
def isolationProvenance (profile : Str) (capabilities : Dict Str Json) : Dict Str Json :=
  ("isolation_profile", .str profile) :: (["toolset_hash", "runtime"] : List Str).filterMap (fun key =>
    match Dict.get? capabilities key with
    | some value => if truthy value then some (key, value) else none
    | none => none)

variable (crypto : Crypto)

/-- What a being's events bind on the chain. -/
def karmaLog (beingId : Str) : EventLog.Organ where
  kind := "SANDBOX"
  front := some ("karma:" ++ beingId ++ ":")
  label event := do
    let ph ← subscript event "ph"
    let actionHash ← subscript event "action_hash"
    return "karma:" ++ beingId ++ ":" ++ pyStr ph ++ ":" ++ pyStr actionHash
  miscounted events records := ⟨.karmaError, "count mismatch: " ++ natText events ++ " events vs " ++ natText records ++
    " records"⟩
  broken i := ⟨.karmaError, "binding broken at event " ++ natText i ++ " (tamper, reorder, or omission)"⟩

def verifyKarmaAgainstChain (events chainRecords : List Json) (beingId : Str) : Py Nat :=
  audit crypto (karmaLog beingId) events chainRecords

variable (sandbox : Sandbox) (capabilities : Dict Str Json) (stamp : Json → Py Str)

def karmaWriter : Writer where
  field := "karma_event"
  provenance :=
    ([("organ", .str "karma"), ("being_id", .str sandbox.beingId), ("workspace", .str sandbox.root)] : Dict Str Json) ++
      isolationProvenance sandbox.profile capabilities
  stamp := stamp

/-- `Karma._emit`, of an event that `_act` makes. -/
def emit (host : EventHost) (event : Event) (moment : Moment) : EventHost × Py Unit :=
  let (host, receipt) := host.emit crypto (karmaLog sandbox.beingId) (karmaWriter sandbox capabilities stamp) event.json
    moment
  (host, do
    let _ ← receipt
    return ())

/-- An event of the being, or a record that something else writes on the chain. -/
inductive Chaining where
  | emit (event : Event) (moment : Moment)
  | chained (call : AppendCall)

def chaining (host : EventHost) : Chaining → EventHost
  | .emit event moment => (emit crypto sandbox capabilities stamp host event moment).1
  | .chained call => host.chained crypto call

/-- A name that fits into a digest: four segments stand beside it. -/
def nameable (beingId : Str) : Bool :=
  encodable beingId && (splitAt (ch ':') beingId).all freePart && (splitAt (ch ':') beingId).length + 4 ≤ maxDigestParts

/-- A being and a sandbox that `append` lets into a record. -/
def admissible : Bool :=
  nameable sandbox.beingId &&
    (checkNoReservedValues "provenance" (.obj (karmaWriter sandbox capabilities stamp).provenance) 0).isOk &&
    writable (.obj (karmaWriter sandbox capabilities stamp).provenance)

def Hashed (event : Event) : Prop := ∃ data, event.actionHash = H_hex crypto data

/-- An event that can be recorded; a record that does not begin as the being's do. -/
def Clear (host : EventHost) : Chaining → Prop
  | .emit event moment => Hashed crypto event ∧
      recordable (karmaWriter sandbox capabilities stamp) host event.json moment
  | .chained call => Foreign (karmaLog sandbox.beingId) call

variable {crypto sandbox capabilities stamp} {host : EventHost}

theorem karma_sound (able : admissible sandbox capabilities stamp) :
    Sound (karmaLog sandbox.beingId) (karmaWriter sandbox capabilities stamp) where
  kind := by
    change Str.ofString "SANDBOX" ∈ witnessKinds ∧ Str.ofString "SANDBOX" ∉ reservedKinds ∧
      Str.ofString "SANDBOX" ∉ provenanceKinds
    decide +kernel
  field := by
    change encodable (Str.ofString "karma_event")
    decide +kernel
  provenance := by
    simp only [admissible, Bool.and_eq_true] at able
    exact ⟨able.1.2, able.2⟩
  front event label front labelled asked := by
    obtain rfl := Option.some.inj asked
    simp only [karmaLog, bind, Py.bind_ok] at labelled
    obtain ⟨ph, _, actionHash, _, made⟩ := labelled
    rw [← Except.ok.inj made, List.isPrefixOf_iff_prefix]
    exact ⟨pyStr ph ++ (":" ++ pyStr actionHash) ++ ":", by simp only [List.append_assoc]⟩

def phase (event : Event) : Str := if event.isIntent then "intent" else "outcome"

theorem fields_of_event (event : Event) : subscript event.json "ph" = .ok (.str (phase event)) ∧
    subscript event.json "action_hash" = .ok (.str event.actionHash) := by
  cases event <;> exact ⟨rfl, rfl⟩

theorem phase_word (event : Event) : isWord (phase event) ∧ encodable (phase event) := by
  unfold phase
  split
  · decide +kernel
  · decide +kernel

theorem label_karma (able : admissible sandbox capabilities stamp) {event : Event} (hashed : Hashed crypto event) :
    ∃ label, (karmaLog sandbox.beingId).label event.json = .ok label ∧ encodable label ∧
      ∀ data, Free (label ++ ":" ++ H_hex crypto data) := by
  obtain ⟨action, hash⟩ := hashed
  obtain ⟨phRead, hashRead⟩ := fields_of_event event
  obtain ⟨phWord, phText⟩ := phase_word event
  simp only [admissible, nameable, Bool.and_eq_true, List.all_eq_true, decide_eq_true_eq] at able
  obtain ⟨⟨⟨⟨name, named⟩, short⟩, _⟩, _⟩ := able
  refine ⟨"karma:" ++ sandbox.beingId ++ ":" ++ phase event ++ ":" ++ H_hex crypto action, ?_, ?_, fun data => ?_⟩
  · simp only [karmaLog, phRead, hashRead, hash, bind, Except.bind]
    rfl
  · have word : encodable "karma:" := by decide +kernel
    have colon : encodable ":" := by decide +kernel
    simp only [encodable_append, word, colon, name, phText, WitnessChain.encodable_hash, and_self]
  · have parts : splitAt (ch ':') (sandbox.beingId ++ ch ':' :: (phase event ++ ch ':' ::
        (H_hex crypto action ++ ch ':' :: H_hex crypto data))) =
          splitAt (ch ':') sandbox.beingId ++ [phase event, H_hex crypto action, H_hex crypto data] := by
      rw [splitAt_append, splitAt_append, splitAt_append, splitAt_absent (colon_not_mem_word phWord),
        splitAt_absent (colon_not_mem_hash crypto action), splitAt_absent (colon_not_mem_hash crypto data)]
      rfl
    have free := @free_joined "karma" (sandbox.beingId ++ ch ':' :: (phase event ++ ch ':' ::
      (H_hex crypto action ++ ch ':' :: H_hex crypto data))) (by decide +kernel)
      (fun part member => by
        rw [parts, List.mem_append] at member
        rcases member with inside | last
        · exact named part inside
        · simp only [List.mem_cons, List.not_mem_nil, or_false] at last
          rcases last with rfl | rfl | rfl
          · exact freePart_word phWord
          · exact freePart_hash crypto action
          · exact freePart_hash crypto data)
      (by
        rw [parts, List.length_append]
        simp only [List.length_cons, List.length_nil]
        omega)
    have joined : "karma:" ++ sandbox.beingId ++ ":" ++ phase event ++ ":" ++ H_hex crypto action ++ ":" ++
        H_hex crypto data = Str.ofString "karma" ++ ch ':' :: (sandbox.beingId ++ ch ':' :: (phase event ++ ch ':' ::
          (H_hex crypto action ++ ch ':' :: H_hex crypto data))) := by
      have word : Str.ofString "karma:" = Str.ofString "karma" ++ [ch ':'] := by decide +kernel
      have colon : Str.ofString ":" = [ch ':'] := by decide +kernel
      simp [word, colon]
    rw [joined]
    exact free

theorem chaining_audited (able : admissible sandbox capabilities stamp)
    (audited : Audited crypto (karmaLog sandbox.beingId) host) {action : Chaining}
    (clear : Clear crypto sandbox capabilities stamp host action) :
    Audited crypto (karmaLog sandbox.beingId) (chaining crypto sandbox capabilities stamp host action) := by
  cases action with
  | emit event moment =>
    obtain ⟨hashed, recorded⟩ := clear
    exact emit_audited (karma_sound able) audited (passes_of_recordable recorded (label_karma able hashed))
  | chained call => exact chained_audited audited clear

theorem karma_audited (able : admissible sandbox capabilities stamp) (linked : host.chain.Linked) (fresh : host.events = [])
    (unused : filterPy (owns (karmaLog sandbox.beingId)) host.chain.records = .ok []) {actions : List Chaining}
    (clear : Run.Along (chaining crypto sandbox capabilities stamp) (Clear crypto sandbox capabilities stamp) host actions) :
    Audited crypto (karmaLog sandbox.beingId) (Run.run (chaining crypto sandbox capabilities stamp) host actions) :=
  Run.invariant
    (fun host _ (kept : Audited crypto (karmaLog sandbox.beingId) host) allowed => chaining_audited able kept allowed)
    (audited_fresh linked fresh unused) clear

end JJDai.Karma

namespace JJDai.EventLog

open PyText Reputation Karma

/-- On a chain without records of theirs, after every run of mutations that can be
recorded, the auditors of the registry and of a being accept the own list of events,
and no other but one of the same canonical text, unless two texts share their hash. -/
theorem journal_audits_exact (crypto : Crypto) (stamp : Json → Py Str) (host : EventHost) (linked : host.chain.Linked)
    (fresh : host.events = []) :
    (∀ actions, filterPy (owns (registryLog crypto)) host.chain.records = .ok [] →
      Run.Along (Reputation.move crypto stamp) (Reputation.Clear stamp) host actions →
      let final := Run.run (Reputation.move crypto stamp) host actions
      verifyJournalAgainstChain crypto final.events final.chain.records = .ok final.events.length ∧
        ∀ others n, verifyJournalAgainstChain crypto others final.chain.records = .ok n →
          SameText crypto others final.events) ∧
    (∀ sandbox capabilities actions, admissible sandbox capabilities stamp →
      filterPy (owns (karmaLog sandbox.beingId)) host.chain.records = .ok [] →
      Run.Along (chaining crypto sandbox capabilities stamp) (Karma.Clear crypto sandbox capabilities stamp) host actions →
      let final := Run.run (chaining crypto sandbox capabilities stamp) host actions
      verifyKarmaAgainstChain crypto final.events final.chain.records sandbox.beingId = .ok final.events.length ∧
        ∀ others n, verifyKarmaAgainstChain crypto others final.chain.records sandbox.beingId = .ok n →
          SameText crypto others final.events) := by
  constructor
  · intro actions unused clear
    exact (registry_audited linked fresh unused clear).exact
  · intro sandbox capabilities actions able unused clear
    exact (karma_audited able linked fresh unused clear).exact

def sampleHost : EventHost := { chain := ⟨.sample 1, []⟩ }

def sampleStamp : Json → Py Str := fun _ => return "1970-01-01T00:00:00Z"

def sampleVerdict (margin : Option PyFloat) : Reputation.Event PyFloat :=
  .verdict .zero "sort" "global" "m1" true margin .zero

def sampleSandbox : Sandbox := { beingId := "being:a", root := "/w", maxOutput := 1 }

def sampleIntent : Karma.Event := .intent .zero "fs_list" (.obj [("path", .str ".")]) (H_hex Crypto.sample [])

def otherBeing : AppendCall := {
  kind := "SANDBOX"
  semanticDigest := .str ("karma:being:a:b:intent:" ++ H_hex Crypto.sample [] ++ ":" ++ H_hex Crypto.sample []) }

theorem journal_audits_exact_sample :
    (let final := Run.run (Reputation.move Crypto.sample sampleStamp) sampleHost [.mutate (sampleVerdict none) {}];
      verifyJournalAgainstChain Crypto.sample final.events final.chain.records = .ok final.events.length) ∧
    (let final := Run.run (chaining Crypto.sample sampleSandbox [] sampleStamp) sampleHost [.emit sampleIntent {}];
      verifyKarmaAgainstChain Crypto.sample final.events final.chain.records "being:a" = .ok final.events.length) := by
  have linked : sampleHost.chain.Linked := WitnessChain.linked_empty rfl
  obtain ⟨registry, karma⟩ := journal_audits_exact Crypto.sample sampleStamp sampleHost linked rfl
  obtain ⟨first, _⟩ := registry [.mutate (sampleVerdict none) {}] rfl (by decide +kernel)
  obtain ⟨second, _⟩ := karma sampleSandbox [] [.emit sampleIntent {}] (by decide +kernel) rfl
    ⟨⟨⟨[], rfl⟩, by decide +kernel⟩, trivial⟩
  exact ⟨first, second⟩

/-- A margin that is not a number enters the list and not the chain; the records of a
being whose name continues the name of another count for both. -/
theorem journal_audits_break :
    ¬(∀ actions, let final := Run.run (Reputation.move Crypto.sample sampleStamp) sampleHost actions
      verifyJournalAgainstChain Crypto.sample final.events final.chain.records = .ok final.events.length) ∧
    ¬(∀ actions, let final := Run.run (chaining Crypto.sample sampleSandbox [] sampleStamp) sampleHost actions
      verifyKarmaAgainstChain Crypto.sample final.events final.chain.records "being:a" = .ok final.events.length) := by
  constructor
  · intro always
    have accepted := always [.mutate (sampleVerdict (some .nan)) {}]
    have refused : (verifyJournalAgainstChain Crypto.sample
        (Run.run (Reputation.move Crypto.sample sampleStamp) sampleHost
          [.mutate (sampleVerdict (some .nan)) {}]).events
        (Run.run (Reputation.move Crypto.sample sampleStamp) sampleHost
          [.mutate (sampleVerdict (some .nan)) {}]).chain.records).isOk = false := by decide +kernel
    generalize Run.run (Reputation.move Crypto.sample sampleStamp) sampleHost
      [.mutate (sampleVerdict (some .nan)) {}] = final at refused accepted
    rw [accepted] at refused
    cases refused
  · intro always
    have accepted := always [.emit sampleIntent {}, .chained otherBeing]
    have refused : (verifyKarmaAgainstChain Crypto.sample
        (Run.run (chaining Crypto.sample sampleSandbox [] sampleStamp) sampleHost
          [.emit sampleIntent {}, .chained otherBeing]).events
        (Run.run (chaining Crypto.sample sampleSandbox [] sampleStamp) sampleHost
          [.emit sampleIntent {}, .chained otherBeing]).chain.records "being:a").isOk = false := by decide +kernel
    generalize Run.run (chaining Crypto.sample sampleSandbox [] sampleStamp) sampleHost
      [.emit sampleIntent {}, .chained otherBeing] = final at refused accepted
    rw [accepted] at refused
    cases refused

end JJDai.EventLog
