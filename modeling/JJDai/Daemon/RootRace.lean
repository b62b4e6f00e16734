import Mathlib.Logic.Relation
import JJDai.Replication.HonestOrigin

/-! `Node.signed_root` beside the components that append to the same chain. The
reader holds the node lock; an append holds `chain.lock`, which the reader never
takes, and the node lock only in some callers. -/

namespace JJDai.Daemon

open PyText Merkle Replication

/-- Where `signed_root` stands, with what it has read so far. -/
inductive Reader where
  | idle
  | locked
  | counted (count : Nat)
  | headed (count : Nat) (headHash : Json)
  | rooted (count : Nat) (headHash root : Json)

/-- The chain, the reader, and the envelopes returned so far. -/
structure RaceState where
  chain : WitnessChain
  reader : Reader := .idle
  issued : List Json := []

variable (crypto : Crypto) (sk : SigningKey)

/-- One step of the reader or of an appender; an append is one step. -/
inductive Step : RaceState → RaceState → Prop
  | acquire {state : RaceState} (free : state.reader = .idle) :
      Step state { state with reader := .locked }
  | readCount {state : RaceState} (stand : state.reader = .locked) :
      Step state { state with reader := .counted state.chain.records.length }
  | readHead {state : RaceState} {count : Nat} {headHash : Json}
      (stand : state.reader = .counted count) (read : state.chain.headHash = .ok headHash) :
      Step state { state with reader := .headed count headHash }
  | readRoot {state : RaceState} {count : Nat} {headHash root : Json}
      (stand : state.reader = .headed count headHash)
      (read : chainRoot crypto state.chain = .ok root) :
      Step state { state with reader := .rooted count headHash root }
  | answer {state : RaceState} {count : Nat} {headHash root env : Json} {ts : PyFloat}
      (stand : state.reader = .rooted count headHash root)
      (sealed : sealEnvelope crypto sk rootDomain
        (rootBody (state.chain.nodeId crypto) count headHash root ts) = .ok env) :
      Step state { state with reader := .idle, issued := state.issued ++ [env] }
  | fail {state : RaceState} : Step state { state with reader := .idle }
  | append {state : RaceState} {call : AppendCall} {appended : Appended}
      (made : state.chain.append crypto call = .ok appended) :
      Step state { state with chain := appended.chain }
  | appendUnderNodeLock {state : RaceState} {call : AppendCall} {appended : Appended}
      (free : state.reader = .idle) (made : state.chain.append crypto call = .ok appended) :
      Step state { state with chain := appended.chain }

/-- Some of the three reads are made and some are not. -/
def Reader.between : Reader → Prop
  | .counted _ => True
  | .headed _ _ => True
  | _ => False

/-- A step that does not change the chain between the reads. -/
def QuietStep (before after : RaceState) : Prop :=
  Step crypto sk before after ∧ (after.chain ≠ before.chain → ¬before.reader.between)

/-- The envelope's three values belong to one state of the chain. -/
def OneState (chain : WitnessChain) (env : Json) : Prop :=
  ∃ count, count ≤ chain.records.length ∧ fieldOf env "count" = .int count ∧
    chainRoot crypto (upTo chain count) = .ok (fieldOf env "root") ∧
    (upTo chain count).headHash = .ok (fieldOf env "head_hash")

variable {crypto sk}

theorem upTo_self (chain : WitnessChain) : upTo chain chain.records.length = chain := by
  rw [upTo, List.take_length]

theorem upTo_append {chain : WitnessChain} {call : AppendCall} {appended : Appended}
    (made : chain.append crypto call = .ok appended) {count : Nat}
    (le : count ≤ chain.records.length) :
    upTo appended.chain count = upTo chain count ∧ count ≤ appended.chain.records.length := by
  simp only [WitnessChain.append, bind, Py.bind_ok] at made
  obtain ⟨_, _, record, _, _, _, made⟩ := made
  obtain rfl := Except.ok.inj made
  constructor
  · simp only [upTo, List.take_append_of_le_length le]
  · simp only [List.length_append]
    omega

theorem append_ne {chain : WitnessChain} {call : AppendCall} {appended : Appended}
    (made : chain.append crypto call = .ok appended) : appended.chain ≠ chain := by
  simp only [WitnessChain.append, bind, Py.bind_ok] at made
  obtain ⟨_, _, record, _, _, _, made⟩ := made
  obtain rfl := Except.ok.inj made
  intro same
  have longer := congrArg (fun chain => chain.records.length) same
  simp at longer

theorem OneState.append {chain : WitnessChain} {call : AppendCall} {appended : Appended} {env : Json}
    (one : OneState crypto chain env) (made : chain.append crypto call = .ok appended) :
    OneState crypto appended.chain env := by
  obtain ⟨count, le, counted, root, head⟩ := one
  obtain ⟨same, le'⟩ := upTo_append made le
  exact ⟨count, le', counted, same ▸ root, same ▸ head⟩

variable (crypto) in
/-- What the reader has read so far belongs to one state of the chain. -/
def ReadsOneState (chain : WitnessChain) : Reader → Prop
  | .idle => True
  | .locked => True
  | .counted count => count = chain.records.length
  | .headed count headHash => count = chain.records.length ∧ chain.headHash = .ok headHash
  | .rooted count headHash root => count ≤ chain.records.length ∧
      (upTo chain count).headHash = .ok headHash ∧ chainRoot crypto (upTo chain count) = .ok root

variable (crypto) in
structure Consistent (state : RaceState) : Prop where
  reads : ReadsOneState crypto state.chain state.reader
  issued : ∀ env ∈ state.issued, OneState crypto state.chain env

theorem sealed_fields {nodeId : Str} {count : Nat} {headHash root env : Json} {ts : PyFloat}
    (sealed : sealEnvelope crypto sk rootDomain (rootBody nodeId count headHash root ts) = .ok env) :
    fieldOf env "count" = .int count ∧ fieldOf env "root" = root ∧
      fieldOf env "head_hash" = headHash := by
  obtain ⟨data, _, read⟩ := readEnvelope_seal sealed
  have field (key : Str) := fieldOf_of_subscript (subscript_of_readEnvelope read) key
  exact ⟨field "count", field "root", field "head_hash"⟩

theorem consistent_append {state : RaceState} {call : AppendCall} {appended : Appended}
    (good : Consistent crypto state) (quiet : ¬state.reader.between)
    (made : state.chain.append crypto call = .ok appended) :
    Consistent crypto { state with chain := appended.chain } := by
  refine ⟨?_, fun env member => (good.issued env member).append made⟩
  have reads := good.reads
  cases stand : state.reader with
  | idle => trivial
  | locked => trivial
  | counted count => exact absurd (by rw [stand]; trivial) quiet
  | headed count headHash => exact absurd (by rw [stand]; trivial) quiet
  | rooted count headHash root =>
    rw [stand] at reads
    obtain ⟨le, head, rooted⟩ := reads
    obtain ⟨same, le'⟩ := upTo_append made le
    exact ⟨le', same ▸ head, same ▸ rooted⟩

theorem consistent_step {before after : RaceState} (good : Consistent crypto before)
    (step : QuietStep crypto sk before after) : Consistent crypto after := by
  obtain ⟨step, quiet⟩ := step
  have reads := good.reads
  cases step with
  | acquire free => exact ⟨trivial, good.issued⟩
  | readCount stand => exact ⟨rfl, good.issued⟩
  | readHead stand read =>
    rw [stand] at reads
    exact ⟨⟨reads, read⟩, good.issued⟩
  | readRoot stand read =>
    rw [stand] at reads
    obtain ⟨rfl, head⟩ := reads
    refine ⟨⟨le_rfl, ?_, ?_⟩, good.issued⟩
    · rw [upTo_self]; exact head
    · rw [upTo_self]; exact read
  | answer stand sealed =>
    rw [stand] at reads
    obtain ⟨le, head, rooted⟩ := reads
    refine ⟨trivial, ?_⟩
    intro env member
    rcases List.mem_append.mp member with old | new
    · exact good.issued env old
    · obtain rfl := List.mem_singleton.mp new
      obtain ⟨countField, rootField, headField⟩ := sealed_fields sealed
      exact ⟨_, le, countField, rootField ▸ rooted, headField ▸ head⟩
  | fail => exact ⟨trivial, good.issued⟩
  | append made => exact consistent_append good (quiet (append_ne made)) made
  | appendUnderNodeLock free made =>
    exact consistent_append good (by rw [free]; exact id) made

/-- When no append falls between the reads, every envelope describes one state. -/
theorem signedRoot_one_state (chain : WitnessChain) {state : RaceState}
    (run : Relation.ReflTransGen (QuietStep crypto sk) { chain := chain } state) :
    ∀ env ∈ state.issued, OneState crypto state.chain env := by
  have start : Consistent crypto { chain := chain } := ⟨trivial, by simp⟩
  have good : Consistent crypto state := by
    induction run with
    | refl => exact start
    | tail _ step ih => exact consistent_step ih step
  exact good.issued

def emptyChain : WitnessChain where
  sk := .sample 1
  records := []

/-- The chain after a record that another component appends. -/
def racedChain : Py WitnessChain := do
  let appended ← emptyChain.append Crypto.sample { kind := "TASK" }
  return appended.chain

/-- The envelope of a count read before that record and a head and root read after it. -/
def racedEnvelope : Py Json := do
  let chain ← racedChain
  let headHash ← chain.headHash
  let root ← chainRoot Crypto.sample chain
  sealEnvelope Crypto.sample (.sample 1) rootDomain
    (rootBody (chain.nodeId Crypto.sample) 0 headHash root .zero)

theorem not_one_state_raced :
    ∃ state, Relation.ReflTransGen (Step Crypto.sample (.sample 1)) { chain := emptyChain } state ∧
      ∃ env ∈ state.issued, ¬OneState Crypto.sample state.chain env := by
  have made : racedEnvelope.isOk = true := by decide +kernel
  have other : racedChain.bind WitnessChain.headHash ≠ .ok (.str genesis) := by decide +kernel
  obtain ⟨env, made⟩ := Py.exists_of_isOk made
  simp only [racedEnvelope, bind, Py.bind_ok] at made
  obtain ⟨chain, raced, headHash, head, root, rooted, sealed⟩ := made
  rw [raced] at other
  have apart : headHash ≠ .str genesis := by
    rintro rfl
    exact other head
  simp only [racedChain, bind, Py.bind_ok] at raced
  obtain ⟨appended, appends, same⟩ := raced
  obtain rfl := Except.ok.inj same
  refine ⟨⟨appended.chain, .idle, [env]⟩, ?_, env, List.mem_singleton_self _, ?_⟩
  · have acquired := Relation.ReflTransGen.single
      (@Step.acquire Crypto.sample (.sample 1) ⟨emptyChain, .idle, []⟩ rfl)
    have counted := acquired.tail (.readCount rfl)
    have grown := counted.tail (.append appends)
    have headed := grown.tail (.readHead rfl head)
    have read := headed.tail (.readRoot rfl rooted)
    exact read.tail (.answer rfl sealed)
  · rintro ⟨count, _, counted, _, headed⟩
    obtain ⟨countField, _, headField⟩ := sealed_fields sealed
    obtain rfl : count = 0 := by
      have same := counted.symm.trans countField
      simpa using same
    rw [headField] at headed
    exact apart (Except.ok.inj headed).symm

/-- An undisturbed call. -/
theorem signedRoot_one_state_sample :
    ∃ state : RaceState, state.issued ≠ [] ∧
      ∀ env ∈ state.issued, OneState Crypto.sample state.chain env := by
  have made : (makeSignedRoot Crypto.sample emptyChain (.sample 1) .zero).isOk = true := by
    decide +kernel
  obtain ⟨env, made⟩ := Py.exists_of_isOk made
  simp only [makeSignedRoot, bind, Py.bind_ok] at made
  obtain ⟨headHash, head, root, rooted, sealed⟩ := made
  have quiet {before after : RaceState} (step : Step Crypto.sample (.sample 1) before after)
      (same : after.chain = before.chain) : QuietStep Crypto.sample (.sample 1) before after :=
    ⟨step, fun changed => absurd same changed⟩
  refine ⟨⟨emptyChain, .idle, [env]⟩, by simp, @signedRoot_one_state Crypto.sample (.sample 1) emptyChain _ ?_⟩
  have acquired := Relation.ReflTransGen.single (quiet
    (@Step.acquire Crypto.sample (.sample 1) ⟨emptyChain, .idle, []⟩ rfl) rfl)
  have counted := acquired.tail (quiet (.readCount rfl) rfl)
  have headed := counted.tail (quiet (.readHead rfl head) rfl)
  have read := headed.tail (quiet (.readRoot rfl rooted) rfl)
  exact read.tail (quiet (.answer rfl sealed) rfl)

end JJDai.Daemon
