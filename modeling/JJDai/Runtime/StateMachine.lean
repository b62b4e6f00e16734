import JJDai.Lib.Run
import JJDai.Primitive.PlaneBound

/-! `runtime.decision_trace` and `runtime.state_machine`: a transition is witnessed, then journaled,
then made. -/

namespace JJDai.Runtime

open PyText

inductive TaskState where
  | received | grounded | planned | generated | verified | authorized | acted | recorded
  | refused | failed | fateUnknown | contained
  deriving DecidableEq

namespace TaskState

def text : TaskState → Str
  | received => "RECEIVED"
  | grounded => "GROUNDED"
  | planned => "PLANNED"
  | generated => "GENERATED"
  | verified => "VERIFIED"
  | authorized => "AUTHORIZED"
  | acted => "ACTED"
  | recorded => "RECORDED"
  | refused => "REFUSED"
  | failed => "FAILED"
  | fateUnknown => "FATE_UNKNOWN"
  | contained => "CONTAINED"

def pipeline : List TaskState :=
  [received, grounded, planned, generated, verified, authorized, acted, recorded]

def branches : List TaskState := [refused, failed, fateUnknown, contained]

def isTerminal (state : TaskState) : Bool := state = recorded || branches.contains state

/-- `LEGAL`: one step of the pipeline, or any branch. -/
def legal (state : TaskState) : List TaskState :=
  match (pipeline.zip pipeline.tail).find? (fun step => step.1 = state) with
  | some (_, next) => next :: branches
  | none => []

end TaskState

/-- The attributes of a trace that `enrich` attaches evidence to. -/
inductive Evidence where
  | citations | planHash | planSteps | generator | verifierPanel | answer | containment | action
  | outcomeReason | beingAttestation
  deriving DecidableEq

/-- What a new trace holds in an attribute. -/
def Evidence.initial : Evidence → Json
  | citations => .arr []
  | planSteps => .arr []
  | _ => .null

structure Transition where
  previous : Option TaskState
  target : TaskState
  witnessIndex : Nat
  detail : Dict Str Json

structure DecisionTrace where
  taskId : Str
  taskHash : Str
  beingId : Str
  nodeId : Str
  profile : Str
  state : TaskState := .received
  transitions : List Transition := []
  evidence : Evidence → Json := Evidence.initial
  witnessFirst : Option Nat := none
  witnessLast : Option Nat := none

inductive Entry where
  | opened (taskId taskHash beingId nodeId profile : Str)
  | moved (taskId : Str) (transition : Transition)
  | enriched (taskId : Str) (fields : List (Evidence × Json))

def Entry.taskId : Entry → Str
  | opened taskId .. => taskId
  | moved taskId _ => taskId
  | enriched taskId _ => taskId

namespace DecisionTrace

def terminal (trace : DecisionTrace) : Bool := trace.state.isTerminal

/-- What `move` leaves of a trace when the transition is legal. -/
def add (trace : DecisionTrace) (transition : Transition) : DecisionTrace :=
  { trace with
    transitions := trace.transitions ++ [transition]
    state := transition.target
    witnessFirst := trace.witnessFirst.or (some transition.witnessIndex)
    witnessLast := some transition.witnessIndex }

def enrich (trace : DecisionTrace) (fields : List (Evidence × Json)) : DecisionTrace :=
  let evidence := fields.foldl (fun held field => Function.update held field.1 field.2) trace.evidence
  { trace with evidence := evidence }

/-- One round of the loop of `from_journal`. -/
def replay (trace : DecisionTrace) : Entry → DecisionTrace
  | .opened .. => trace
  | .moved _ transition => trace.add transition
  | .enriched _ fields => trace.enrich fields

def fromJournal : List Entry → Py DecisionTrace
  | [] => raise .indexError
  | .opened taskId taskHash beingId nodeId profile :: rest =>
    .ok (rest.foldl replay
      { taskId := taskId, taskHash := taskHash, beingId := beingId, nodeId := nodeId, profile := profile })
  | _ => raise .keyError

theorem fromJournal_snoc {entries : List Entry} {trace : DecisionTrace} (rebuilt : fromJournal entries = .ok trace)
    (entry : Entry) : fromJournal (entries ++ [entry]) = .ok (trace.replay entry) := by
  match entries, rebuilt with
  | .opened .. :: rest, rebuilt =>
    obtain rfl := Except.ok.inj rebuilt
    rw [List.cons_append, fromJournal, List.foldl_append]
    rfl

end DecisionTrace

structure Being where
  beingId : Str
  profile : Str
  chain : WitnessChain
  journal : List Entry
  traces : Dict Str DecisionTrace

def taskKind : Str := "TASK"

def openCall (taskId taskHash : Str) (task : Dict Str Json) (salt : Bytes) : AppendCall where
  kind := taskKind
  request := .obj [("task", .obj task)]
  semanticDigest := .obj [("task_id", .str taskId), ("state", .str TaskState.received.text), ("task_hash", .str taskHash)]
  requestSalt := salt

def moveCall (taskId : Str) (state target : TaskState) (detail response : Dict Str Json) (salt : Bytes) : AppendCall where
  kind := taskKind
  request := .obj response
  semanticDigest := .obj ([(Str.ofString "task_id", .str taskId), ("state", .str target.text), ("from", .str state.text)] ++
    if detail = [] then [] else [(Str.ofString "detail", .obj detail)])
  requestSalt := salt

namespace Being

variable (crypto : Crypto)

def witness (being : Being) (call : AppendCall) : Py Being := do
  let appended ← being.chain.append crypto call
  return { being with chain := appended.chain }

/-- A record of another organ of the node; a call that raises adds nothing. -/
def other (being : Being) (call : AppendCall) : Being := (being.witness crypto call).toOption.getD being

def lastIndex (being : Being) : Nat := being.chain.records.length - 1

def opened (being : Being) (taskId taskHash nodeId : Str) (index : Nat) : DecisionTrace where
  taskId := taskId
  taskHash := taskHash
  beingId := being.beingId
  nodeId := nodeId
  profile := being.profile
  transitions := [{ previous := none, target := .received, witnessIndex := index, detail := [] }]
  witnessFirst := some index
  witnessLast := some index

/-- `open_trace` as far as the journal; `between` is what others append before the length is read. -/
def openTrace (being : Being) (taskId : Str) (task : Dict Str Json) (salt : Bytes) (between : List AppendCall) :
    Py (Being × DecisionTrace) := do
  let data ← Canonical.canonical (.obj task)
  let taskHash := H_hex crypto data
  let being ← being.witness crypto (openCall taskId taskHash task salt)
  let being := between.foldl (Being.other crypto) being
  return (being, being.opened taskId taskHash (being.chain.nodeId crypto) being.lastIndex)

def illegal (trace : DecisionTrace) (target : TaskState) : PyErr :=
  ⟨.traceError, "illegal transition " ++ trace.state.text ++ " -> " ++ target.text ++ " for " ++ trace.taskId⟩

/-- `move` as far as the journal: the transition is on the chain. -/
def move (being : Being) (trace : DecisionTrace) (target : TaskState) (detail response : Dict Str Json) (salt : Bytes) :
    Py (Being × Transition) := do
  if target ∉ trace.state.legal then .error (illegal trace target)
  else
    let being ← being.witness crypto (moveCall trace.taskId trace.state target detail response salt)
    return (being, {
      previous := some trace.state, target := target, witnessIndex := being.lastIndex, detail := detail })

def journalize (being : Being) (entry : Entry) : Being := { being with journal := being.journal ++ [entry] }

def keep (being : Being) (trace : DecisionTrace) : Being :=
  { being with traces := Dict.set being.traces trace.taskId trace }

end Being

/-- A transition's index points at a TASK record of the task with the state. -/
def Witnessed (records : List Json) (taskId : Str) (transition : Transition) : Prop :=
  ∃ record digest, records[transition.witnessIndex]? = some record ∧ subscript record "kind" = .ok (.str taskKind) ∧
    subscript record "semantic_digest" = .ok digest ∧ subscript digest "task_id" = .ok (.str taskId) ∧
    subscript digest "state" = .ok (.str transition.target.text)

theorem Witnessed.grows {records later : List Json} {taskId : Str} {transition : Transition}
    (witnessed : Witnessed records taskId transition) (grown : records <+: later) :
    Witnessed later taskId transition := by
  obtain ⟨record, digest, found, tells⟩ := witnessed
  obtain ⟨rest, rfl⟩ := grown
  obtain ⟨inside, _⟩ := List.getElem?_eq_some_iff.mp found
  exact ⟨record, digest, by rw [List.getElem?_append_left inside, found], tells⟩

namespace Being

variable {crypto : Crypto} {being reached : Being}

theorem witness_adds {call : AppendCall} (made : being.witness crypto call = .ok reached) :
    ∃ record, reached = { being with chain := { being.chain with records := being.chain.records ++ [record] } } ∧
      subscript record "kind" = .ok (.str call.kind) ∧
      subscript record "semantic_digest" = .ok call.semanticDigest := by
  simp only [witness, bind, Py.bind_ok] at made
  obtain ⟨appended, added, rest⟩ := made
  obtain rfl := Except.ok.inj rest
  obtain ⟨chain, tells⟩ := WitnessChain.append_adds added
  exact ⟨appended.record, by rw [chain], tells⟩

/-- What an append on the chain leaves of a being. -/
structure Grown (before after : Being) : Prop where
  records : before.chain.records <+: after.chain.records
  same : after = { before with chain := after.chain }

theorem Grown.refl (being : Being) : Grown being being := ⟨List.prefix_refl _, rfl⟩

theorem Grown.trans {first second third : Being} (one : Grown first second) (two : Grown second third) :
    Grown first third := by
  refine ⟨one.records.trans two.records, ?_⟩
  rw [two.same, one.same]

theorem Grown.opened {before after : Being} (grown : Grown before after) (taskId taskHash nodeId : Str) (index : Nat) :
    after.opened taskId taskHash nodeId index = before.opened taskId taskHash nodeId index := by
  rw [grown.same]
  rfl

theorem grown_witness {call : AppendCall} (made : being.witness crypto call = .ok reached) : Grown being reached := by
  obtain ⟨record, rfl, _⟩ := witness_adds made
  exact ⟨List.prefix_append _ _, rfl⟩

theorem grown_other (being : Being) (call : AppendCall) : Grown being (being.other crypto call) := by
  unfold other
  cases made : being.witness crypto call with
  | error e => exact .refl being
  | ok reached => exact grown_witness made

theorem grown_others (being : Being) (calls : List AppendCall) : Grown being (calls.foldl (Being.other crypto) being) := by
  induction calls generalizing being with
  | nil => exact .refl being
  | cons call rest ih => exact (grown_other being call).trans (ih _)

theorem openTrace_ok {taskId : Str} {task : Dict Str Json} {salt : Bytes} {between : List AppendCall}
    {trace : DecisionTrace} (made : being.openTrace crypto taskId task salt between = .ok (reached, trace)) :
    Grown being reached ∧ ∃ taskHash nodeId index, trace = being.opened taskId taskHash nodeId index := by
  simp only [openTrace, bind, Py.bind_ok] at made
  obtain ⟨data, _, first, witnessed, rest⟩ := made
  obtain ⟨rfl, rfl⟩ := Prod.mk.inj (Except.ok.inj rest)
  have grown := (grown_witness witnessed).trans (@grown_others crypto first between)
  exact ⟨grown, _, _, _, grown.opened _ _ _ _⟩

theorem move_ok {trace : DecisionTrace} {target : TaskState} {detail response : Dict Str Json} {salt : Bytes}
    {transition : Transition} (made : being.move crypto trace target detail response salt = .ok (reached, transition)) :
    Grown being reached ∧ Witnessed reached.chain.records trace.taskId transition ∧
      transition.previous = some trace.state ∧ transition.target ∈ trace.state.legal := by
  unfold move at made
  split at made
  · cases made
  · rename_i legal
    simp only [bind, Py.bind_ok] at made
    obtain ⟨after, witnessed, rest⟩ := made
    obtain ⟨rfl, rfl⟩ := Prod.mk.inj (Except.ok.inj rest)
    refine ⟨grown_witness witnessed, ?_, rfl, not_not.mp legal⟩
    obtain ⟨record, rfl, kind, digest⟩ := witness_adds witnessed
    refine ⟨record, _, ?_, kind, digest, rfl, rfl⟩
    simp [lastIndex]

end Being

end JJDai.Runtime
