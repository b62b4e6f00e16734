import JJDai.Lib.Run
import JJDai.Primitive.Durable
import JJDai.Primitive.SaltedAppend

/-! `kernel.viveka`: a witnessed, checkpointed, governor-gated walk of a state
graph. Node functions, routers, the governor and the clock are what the caller
gives; they may depend on a world of their own. -/

namespace JJDai.Kernel

open PyText Canonical

def END : Str := "__END__"

def executiveScope : Str := "tools.side_effect"

structure Node (World : Type) where
  fn : Dict Str Json → World → Py Json × World
  executive : Bool

/-- A `Viveka` object before any run: what its constructor and its builder
methods were given. -/
structure Organ (World : Type) where
  beingId : Str
  maxSteps : Int
  nodes : Dict Str (Node World)
  edges : Dict Str Str
  cond : Dict Str (Dict Str Json → World → Py Str × World)
  entry : Option Str
  /-- `governor.permits(being_id, EXECUTIVE_SCOPE)`. -/
  governor : Option (World → Py Bool × World)
  now : World → PyFloat × World
  /-- `time.strftime` of `time.gmtime`. -/
  stamp : Json → Py Str
  urandom : World → Bytes × World

inductive Status where
  | idle | budget | contained | complete | rolledBack
  deriving DecidableEq

structure Checkpoint where
  step : Int
  node : Str
  state : Dict Str Json
  stateHash : Str
  ts : Json

/-- The run state; `cursor` and `runId` may be `None`. -/
structure Viveka where
  state : Dict Str Json := []
  cursor : Json := .null
  step : Int := 0
  runId : Json := .null
  checkpoints : List Checkpoint := []
  events : List Json := []
  status : Status := .idle

/-- A running object with its journal, its witness chain and the world around it. -/
structure Host (World : Type) where
  viveka : Viveka := {}
  journal : Option Bytes := none
  log : Option SaltedChain := none
  world : World

def getOr (event : Json) (key : Str) (default : Json) : Json :=
  match event with
  | .obj fields => (Dict.get? fields key).getD default
  | _ => default

def startEvent (t : PyFloat) (runId : Str) (entry : Str) (state : Dict Str Json) : Json :=
  .obj [("ev", .str "start"), ("t", .float t), ("run_id", .str runId), ("entry", .str entry), ("state", .obj state)]

def stepEvent (t : PyFloat) (runId : Json) (step : Int) (node : Str) (state : Dict Str Json) : Json :=
  .obj [("ev", .str "step"), ("t", .float t), ("run_id", runId), ("step", .int step), ("node", .str node),
    ("state", .obj state)]

def rollbackEvent (t : PyFloat) (runId : Json) (toStep : Int) (patch state : Dict Str Json) : Json :=
  .obj [("ev", .str "rollback"), ("t", .float t), ("run_id", runId), ("to_step", .int toStep), ("patch", .obj patch),
    ("state", .obj state)]

def blockedEvent (t : PyFloat) (runId : Json) (step : Int) (node : Str) : Json :=
  .obj [("ev", .str "blocked"), ("t", .float t), ("run_id", runId), ("step", .int step), ("node", .str node),
    ("scope", .str executiveScope)]

/-- `ev in ("step", "rollback", "blocked")`. -/
def isWitnessed (event : Json) : Bool :=
  [Json.str "step", .str "rollback", .str "blocked"].contains (getOr event "ev" .null)

/-- `dict(value)` and an integer of an event that the organ wrote. -/
def asFields : Json → Py (Dict Str Json)
  | .obj fields => return fields
  | _ => raise .typeError

def asInt : Json → Py Int
  | .int n => return n
  | _ => raise .typeError

def asText : Json → Py Str
  | .str text => return text
  | _ => raise .typeError

structure OrganBinding where
  organ : Str
  eventField : Str

def kriyaGateDigestPrefix : Str := "kriya_gate"

def legacyVivekaDigestPrefix : Str := "viveka"

def kriyaGateBinding : OrganBinding := ⟨"kriya_gate", "kriya_gate_event"⟩

def organBindings : Dict Str OrganBinding :=
  [(kriyaGateDigestPrefix, kriyaGateBinding), (legacyVivekaDigestPrefix, ⟨"viveka", "viveka_event"⟩)]

def digestTail (runId step node : Json) (sh : Str) : Str :=
  ":" ++ pyStr runId ++ ":" ++ pyStr step ++ ":" ++ pyStr node ++ ":" ++ sh

def provenanceOf (organ beingId : Str) : Json := .obj [("organ", .str organ), ("being_id", .str beingId)]

variable (crypto : Crypto)

def stateHashOf (state : Json) : Py Str := do return H_hex crypto (← canonical state)

/-- The arguments of `append` for an event, read after the event was applied. -/
def deliberationCall (beingId : Str) (viveka : Viveka) (event : Json) (timestamp : Str) (salt : Bytes) : Py AppendCall := do
  let sh ← stateHashOf crypto (getOr event "state" (.obj viveka.state))
  let node := getOr event "node" (getOr event "ev" .null)
  let step := getOr event "step" (.int viveka.step)
  let runId ← subscript event "run_id"
  return {
    kind := "DELIBERATION"
    request := .obj [(kriyaGateBinding.eventField, event)]
    provenance := provenanceOf kriyaGateBinding.organ beingId
    semanticDigest := .str (kriyaGateDigestPrefix ++ digestTail runId step node sh)
    timestamp := .str timestamp
    requestSalt := salt }

def Viveka.apply (viveka : Viveka) (event : Json) : Py Viveka := do
  let viveka := { viveka with events := viveka.events ++ [event] }
  let ev ← subscript event "ev"
  if ev = .str "start" then
    let runId ← subscript event "run_id"
    let state ← asFields (← subscript event "state")
    let cursor ← subscript event "entry"
    return { viveka with runId, state, cursor, step := 0, checkpoints := [] }
  else if ev = .str "step" then
    let state ← asFields (← subscript event "state")
    let step ← asInt (← subscript event "step")
    let node ← asText (← subscript event "node")
    let stateHash ← stateHashOf crypto (.obj state)
    let ts ← subscript event "t"
    return { viveka with state, step, checkpoints := viveka.checkpoints ++ [⟨step, node, state, stateHash, ts⟩] }
  else if ev = .str "rollback" then
    let state ← asFields (← subscript event "state")
    let step ← asInt (← subscript event "to_step")
    return { viveka with state, step }
  else if ev = .str "blocked" then return viveka
  else raise .valueError ("unknown viveka event " ++ reprJson ev)

/-- The lines of a journal, each of them parsed. -/
def readLog (file : Bytes) : Py (List Json) := do
  let raw ← Durable.readText file
  ((Durable.splitNewline raw).filter Durable.hasText).mapM (fun line =>
    match Json.loads line with
    | some event => return event
    | none => raise .valueError)

/-- `Viveka(being_id, journal_path=…)` on an existing journal. -/
def Viveka.rebuild (file : Bytes) : Py Viveka := do
  (← readLog file).foldlM (Viveka.apply crypto) {}

variable {World : Type} (organ : Organ World)

namespace Host

def write (host : Host World) (event : Json) : Py (Option Bytes) :=
  match host.journal with
  | none => return none
  | some file => do return some (← Durable.durableAppend file event)

/-- The witness record of an event that was applied. -/
def witness (host : Host World) (event : Json) : Host World × Py Unit :=
  match host.log with
  | none => (host, .ok ())
  | some log =>
    let (salt, world) := organ.urandom host.world
    match (do
      let t ← subscript event "t"
      let timestamp ← organ.stamp t
      deliberationCall crypto organ.beingId host.viveka event timestamp salt) with
    | .error e => (host, .error e)
    | .ok call =>
      let (log, receipt) := log.append crypto call true
      ({ host with log := some log, world }, receipt.map (fun _ => ()))

/-- `_emit`: the event is applied, journaled, and witnessed when it is of the
kinds that are. -/
def emit (host : Host World) (event : Json) : Host World × Py Unit :=
  match host.viveka.apply crypto event with
  | .error e => ({ host with viveka := { host.viveka with events := host.viveka.events ++ [event] } }, .error e)
  | .ok viveka =>
    let host := { host with viveka }
    match host.write event with
    | .error e => (host, .error e)
    | .ok journal =>
      let host := { host with journal }
      if isWitnessed event then host.witness crypto organ event else (host, .ok ())

def nextNode (host : Host World) (node : Str) : Host World × Py Str :=
  match Dict.get? organ.cond node with
  | some router =>
    let (next, world) := router host.viveka.state host.world
    ({ host with world }, next)
  | none => (host, .ok ((Dict.get? organ.edges node).getD END))

/-- The gate of an executive node: whether the governor lets it run. -/
def permitted (host : Host World) (node : Node World) : Host World × Py Bool :=
  match organ.governor with
  | some governor =>
    if node.executive then
      let (answer, world) := governor host.world
      ({ host with world }, answer)
    else (host, .ok true)
  | none => (host, .ok true)

/-- `fn(dict(state)) or {}`, which has to be a dict. -/
def updatesOf (node : Str) (answer : Json) : Py (Dict Str Json) :=
  match answer with
  | .obj fields => return fields
  | value => if truthy value then raise .vivekaError ("node " ++ pyRepr node ++ " must return a dict") else return []

/-- How far a round of the loop gets before it emits. -/
inductive Intent where
  | stop
  | block (event : Json)
  | record (node : Str) (event : Json)

/-- A node is run, and its checkpoint taken. -/
def execute (host : Host World) (name : Str) (node : Node World) : Host World × Py Intent :=
  let (answer, world) := node.fn host.viveka.state host.world
  let host := { host with world }
  match answer.bind (updatesOf name) with
  | .error e => (host, .error e)
  | .ok updates =>
    let state := Dict.update host.viveka.state updates
    let step := host.viveka.step + 1
    let host := { host with viveka := { host.viveka with state, step } }
    match stateHashOf crypto (.obj state) with
    | .error e => (host, .error e)
    | .ok _ =>
      let (t, world) := organ.now host.world
      ({ host with world }, .ok (.record name (stepEvent t host.viveka.runId step name state)))

/-- A round of the loop of `_drive` up to its `_emit`. -/
def intent (host : Host World) : Host World × Py Intent :=
  match host.viveka.cursor with
  | .null => (host, .ok .stop)
  | .str name =>
    if name = END then (host, .ok .stop)
    else if organ.maxSteps ≤ host.viveka.step then
      ({ host with viveka := { host.viveka with status := .budget } }, .ok .stop)
    else
      match Dict.get? organ.nodes name with
      | none => (host, raise .keyError name)
      | some node =>
        match host.permitted organ node with
        | (host, .error e) => (host, .error e)
        | (host, .ok true) => host.execute crypto organ name node
        | (host, .ok false) =>
          let (t, world) := organ.now host.world
          ({ host with world }, .ok (.block (blockedEvent t host.viveka.runId host.viveka.step name)))
  | value => (host, raise (if hashable value then .keyError else .typeError))

/-- The cursor moves on from a node that was run. -/
def advance (host : Host World) (node : Str) : Host World × Py Bool :=
  match host.nextNode organ node with
  | (host, .error e) => (host, .error e)
  | (host, .ok next) => ({ host with viveka := { host.viveka with cursor := .str next } }, .ok true)

def setStatus (host : Host World) (status : Status) : Host World :=
  { host with viveka := { host.viveka with status } }

/-- A round of the loop of `_drive`; the answer tells whether there is another one. -/
def turn (host : Host World) : Host World × Py Bool :=
  match host.intent crypto organ with
  | (host, .error e) => (host, .error e)
  | (host, .ok .stop) =>
    (if host.viveka.cursor = .str END then host.setStatus .complete else host, .ok false)
  | (host, .ok (.block event)) =>
    match host.emit crypto organ event with
    | (host, .error e) => (host, .error e)
    | (host, .ok ()) => (host.setStatus .contained, .ok false)
  | (host, .ok (.record node event)) =>
    match host.emit crypto organ event with
    | (host, .error e) => (host, .error e)
    | (host, .ok ()) => host.advance organ node

structure Result where
  status : Status
  state : Dict Str Json
  steps : Int
  node : Json
  runId : Json
  stateHash : Str

def result (host : Host World) : Py Result := do
  let viveka := host.viveka
  let stateHash ← stateHashOf crypto (.obj viveka.state)
  return ⟨viveka.status, viveka.state, viveka.step, viveka.cursor, viveka.runId, stateHash⟩

def driveLoop : Nat → Host World → Host World × Py Result
  | 0, host => (host, host.result crypto)
  | rounds + 1, host =>
    match host.turn crypto organ with
    | (host, .error e) => (host, .error e)
    | (host, .ok false) => (host, host.result crypto)
    | (host, .ok true) => driveLoop rounds host

/-- The rounds that the step budget leaves. -/
def rounds (host : Host World) : Nat := (organ.maxSteps - host.viveka.step).toNat + 1

def drive (host : Host World) : Host World × Py Result := host.driveLoop crypto organ (host.rounds organ)

def start (host : Host World) (initial : Dict Str Json) : Host World × Py Unit :=
  match organ.entry with
  | none => (host, raise .vivekaError "no entry node set")
  | some entry =>
    let (t, world) := organ.now host.world
    let host := { host with world, viveka := { host.viveka with state := initial, cursor := .str entry, step := 0 } }
    match canonical (.obj [("being", .str organ.beingId), ("init", .obj initial), ("t", .float t)]) with
    | .error e => (host, .error e)
    | .ok data =>
      let runId := (H_hex crypto data).take 16
      let (t, world) := organ.now host.world
      let host := { host with world, viveka := { host.viveka with runId := .str runId } }
      host.emit crypto organ (startEvent t runId entry initial)

def run (host : Host World) (initial : Option (Dict Str Json)) : Host World × Py Result :=
  match initial with
  | none => host.drive crypto organ
  | some initial =>
    match host.start crypto organ initial with
    | (host, .error e) => (host, .error e)
    | (host, .ok ()) => host.drive crypto organ

def resume (host : Host World) : Host World × Py Result :=
  if host.viveka.cursor = .null then (host, raise .vivekaError "nothing to resume")
  else host.drive crypto organ

def rewind (host : Host World) (checkpointStep : Int) (patch : Dict Str Json) : Host World × Py Json :=
  match host.viveka.checkpoints.find? (fun checkpoint => checkpoint.step = checkpointStep) with
  | none => (host, raise .vivekaError ("no checkpoint at step " ++ intText checkpointStep))
  | some target =>
    let state := Dict.update target.state patch
    let host := { host with viveka := { host.viveka with state, step := target.step } }
    match host.nextNode organ target.node with
    | (host, .error e) => (host, .error e)
    | (host, .ok next) =>
      let (t, world) := organ.now host.world
      ({ host with world, viveka := { host.viveka with cursor := .str next, status := .rolledBack } },
        .ok (rollbackEvent t host.viveka.runId checkpointStep patch state))

/-- `rollback_to`; without a patch, `patch` is empty. -/
def rollbackTo (host : Host World) (checkpointStep : Int) (patch : Dict Str Json) : Host World × Py Str :=
  match host.rewind organ checkpointStep patch with
  | (host, .error e) => (host, .error e)
  | (host, .ok event) =>
    match host.emit crypto organ event with
    | (host, .error e) => (host, .error e)
    | (host, .ok ()) => (host, stateHashOf crypto (.obj host.viveka.state))

end Host

inductive Call where
  | run (initial : Option (Dict Str Json))
  | resume
  | rollbackTo (checkpointStep : Int) (patch : Dict Str Json)

/-- What a call is made of: the start of a run, one round of the loop, a rewind. -/
inductive Move where
  | start (initial : Dict Str Json)
  | turn
  | rollback (checkpointStep : Int) (patch : Dict Str Json)

namespace Host

/-- The object after a call; one that raises leaves what it has changed. -/
def call (host : Host World) : Call → Host World
  | .run initial => (host.run crypto organ initial).1
  | .resume => (host.resume crypto organ).1
  | .rollbackTo checkpointStep patch => (host.rollbackTo crypto organ checkpointStep patch).1

def move (host : Host World) : Move → Host World
  | .start initial => (host.start crypto organ initial).1
  | .turn => (host.turn crypto organ).1
  | .rollback checkpointStep patch => (host.rollbackTo crypto organ checkpointStep patch).1

def driveMoves : Nat → Host World → List Move
  | 0, _ => []
  | rounds + 1, host =>
    match host.turn crypto organ with
    | (host, .ok true) => .turn :: driveMoves rounds host
    | _ => [.turn]

def moves (host : Host World) : Call → List Move
  | .run none => driveMoves crypto organ (host.rounds organ) host
  | .run (some initial) =>
    match host.start crypto organ initial with
    | (host, .ok ()) => .start initial :: driveMoves crypto organ (host.rounds organ) host
    | _ => [.start initial]
  | .resume => if host.viveka.cursor = .null then [] else driveMoves crypto organ (host.rounds organ) host
  | .rollbackTo checkpointStep patch => [.rollback checkpointStep patch]

variable {crypto organ}

theorem driveLoop_moves (rounds : Nat) (host : Host World) :
    (host.driveLoop crypto organ rounds).1 =
      Run.run (move crypto organ) host (driveMoves crypto organ rounds host) := by
  induction rounds generalizing host with
  | zero => rfl
  | succ rounds ih =>
    rw [driveLoop, driveMoves]
    cases turned : host.turn crypto organ with
    | mk next answer =>
      have moved : move crypto organ host .turn = next := congrArg Prod.fst turned
      cases answer with
      | error e => simp only [Run.run_cons, Run.run_nil, moved]
      | ok more =>
        cases more with
        | false => simp only [Run.run_cons, Run.run_nil, moved]
        | true => simp only [Run.run_cons, moved, ih]

theorem call_moves (host : Host World) (call : Call) :
    host.call crypto organ call = Run.run (move crypto organ) host (host.moves crypto organ call) := by
  cases call with
  | run initial =>
    cases initial with
    | none => exact driveLoop_moves _ host
    | some initial =>
      rw [Host.call, Host.run, moves]
      cases started : host.start crypto organ initial with
      | mk next answer =>
        have moved : move crypto organ host (.start initial) = next := congrArg Prod.fst started
        cases answer with
        | error e => simp only [Run.run_cons, Run.run_nil, moved]
        | ok =>
          simp only [Run.run_cons, moved]
          exact driveLoop_moves _ next
  | resume =>
    rw [Host.call, Host.resume, moves]
    split
    · rfl
    · exact driveLoop_moves _ host
  | rollbackTo checkpointStep patch => rfl

end Host

end JJDai.Kernel
