import JJDai.Lib.Run
import JJDai.Primitive.Canonical
import JJDai.Primitive.Crypto
import JJDai.Primitive.Durable

/-! `kernel.karma`: the action organ, which writes an intent before it acts and an
outcome after, and whose pending intents are the actions of unknown fate. -/

namespace JJDai.Karma

open PyText Canonical

variable (crypto : Crypto)

structure ActionResult where
  action : Str
  ok : Bool
  exitCode : Int
  stdout : Str
  stderr : Str
  duration : PyFloat := .zero
  truncated : Bool := false
  timedOut : Bool := false
  detail : Json := .null

def ActionResult.details (result : ActionResult) : Json := if truthy result.detail then result.detail else .obj []

def ActionResult.asDict (result : ActionResult) : Json :=
  .obj [("action", .str result.action), ("ok", .bool result.ok), ("exit_code", .int result.exitCode),
    ("stdout", .str result.stdout), ("stderr", .str result.stderr), ("duration_s", .float result.duration),
    ("truncated", .bool result.truncated), ("timed_out", .bool result.timedOut), ("detail", result.details)]

/-- The events of `_act`: the intent, and the two forms of the outcome. -/
inductive Event where
  | intent (t : PyFloat) (action : Str) (params : Json) (actionHash : Str)
  | refusal (t : PyFloat) (action actionHash refused refusalClass profile nothingHash : Str)
  | outcome (t : PyFloat) (action actionHash : Str) (result : ActionResult) (stdoutHash stderrHash : Str)

namespace Event

def json : Event → Json
  | .intent t action params actionHash =>
    .obj [("ph", .str "intent"), ("t", .float t), ("action", .str action), ("params", params),
      ("action_hash", .str actionHash)]
  | .refusal t action actionHash refused refusalClass profile nothingHash =>
    .obj [("ph", .str "outcome"), ("t", .float t), ("action", .str action), ("action_hash", .str actionHash),
      ("ok", .bool false), ("exit_code", .int (-1)), ("refused", .str refused), ("refusal_class", .str refusalClass),
      ("isolation_profile", .str profile), ("stdout_hash", .str nothingHash), ("stderr_hash", .str nothingHash)]
  | .outcome t action actionHash result stdoutHash stderrHash =>
    .obj [("ph", .str "outcome"), ("t", .float t), ("action", .str action), ("action_hash", .str actionHash),
      ("ok", .bool result.ok), ("exit_code", .int result.exitCode), ("duration_s", .float result.duration),
      ("timed_out", .bool result.timedOut), ("truncated", .bool result.truncated), ("stdout_hash", .str stdoutHash),
      ("stderr_hash", .str stderrHash), ("detail", result.details)]

def actionHash : Event → Str
  | .intent _ _ _ actionHash => actionHash
  | .refusal _ _ actionHash _ _ _ _ => actionHash
  | .outcome _ _ actionHash _ _ _ => actionHash

/-- `e["ph"] == "intent"`; every other event is an outcome. -/
def isIntent : Event → Bool
  | .intent .. => true
  | _ => false

end Event

/-- `pending_intents`: matching is by the action hash. -/
def pendingIntents (events : List Event) : List Event :=
  let outcomes := (events.filter (fun e => !e.isIntent)).map Event.actionHash
  events.filter (fun e => e.isIntent && !outcomes.contains e.actionHash)

/-- What the organ and its sandbox are made with, and the path of the interpreter. -/
structure Sandbox where
  beingId : Str
  root : Str
  maxOutput : Nat
  profile : Str := "reference"
  executable : Str := "python3"

/-- What the operating system answers while an action runs. -/
structure Os where
  /-- `os.path.realpath`. -/
  realpath : Str → Py Str
  /-- `os.makedirs` of the parent of a path. -/
  makeParent : Str → Py Unit
  /-- A file opened as UTF-8 text, written, flushed and synced. -/
  write : Str → Str → Py Unit
  /-- At most so many characters of a file opened as UTF-8 text. -/
  read : Str → Nat → Py Str
  listdir : Str → Py (List Str)
  remove : Str → Py Unit
  /-- `Sandbox.run` of an argv from its `Popen` on, in a resolved directory. -/
  spawn : List Str → Str → Py ActionResult

def isAbsolute (path : Str) : Bool := path.head? = some (ch '/')

def Sandbox.resolve (sandbox : Sandbox) (os : Os) (relPath : Str) : Py Str := do
  let candidate ← os.realpath (if isAbsolute relPath then relPath else sandbox.root ++ "/" ++ relPath)
  if candidate ≠ sandbox.root ∧ ¬(sandbox.root ++ "/").isPrefixOf candidate then
    raise .sandboxEscape ("path " ++ pyRepr relPath ++ " resolves to " ++ pyRepr candidate ++
      ", outside the workspace " ++ pyRepr sandbox.root ++ " — refused")
  return candidate

def Sandbox.run (sandbox : Sandbox) (os : Os) (argv : List Str) (cwd : Option Str) : Py ActionResult := do
  let workdir ← match cwd with
    | some (c :: path) => sandbox.resolve os (c :: path)
    | _ => .ok sandbox.root
  os.spawn argv workdir

/-- The public actions; a command given as text has been split. -/
inductive Call where
  | shell (argv : List Str) (cwd : Option Str)
  | fsWrite (path content : Str)
  | fsRead (path : Str)
  | fsList (path : Str)
  | fsDelete (path : Str)
  | git (args : List Str) (cwd : Option Str)
  | test (target : Str) (runner : List Str)

def strings (items : List Str) : Json := .arr (items.map .str)

/-- A path in a dict of results or parameters. -/
def optional (path : Option Str) : Json := path.elim .null .str

def strip (s : Str) : Str := ((s.dropWhile Durable.isSpace).reverse.dropWhile Durable.isSpace).reverse

namespace Call

def action : Call → Str
  | .shell .. => "shell"
  | .fsWrite .. => "fs_write"
  | .fsRead .. => "fs_read"
  | .fsList .. => "fs_list"
  | .fsDelete .. => "fs_delete"
  | .git .. => "git"
  | .test .. => "test"

def executive : Call → Bool
  | .fsRead .. => false
  | .fsList .. => false
  | _ => true

def gitArgv (args : List Str) : List Str := "git" :: args

def testArgv (sandbox : Sandbox) (target : Str) (runner : List Str) : List Str :=
  if runner = [] then [sandbox.executable, "-m", "unittest", "discover", "-s", target] else runner

def params (sandbox : Sandbox) : Call → Py Json
  | .shell argv cwd => return .obj [("argv", strings argv), ("cwd", optional cwd)]
  | .fsWrite path content => do
    let bytes ← encode content
    return .obj [("path", .str path), ("content_hash", .str (H_hex crypto bytes)), ("bytes", .int content.length)]
  | .fsRead path => return .obj [("path", .str path)]
  | .fsList path => return .obj [("path", .str path)]
  | .fsDelete path => return .obj [("path", .str path)]
  | .git args cwd => return .obj [("argv", strings (gitArgv args)), ("cwd", optional cwd)]
  | .test target runner =>
    return .obj [("argv", strings (testArgv sandbox target runner)), ("target", .str target)]

/-- The function that an action hands to `_act`. -/
def perform (sandbox : Sandbox) (os : Os) : Call → Py ActionResult
  | .shell argv cwd => sandbox.run os argv cwd
  | .fsWrite path content => do
    let real ← sandbox.resolve os path
    os.makeParent real
    os.write real content
    let bytes ← encode content
    return { action := "fs_write", ok := true, exitCode := 0, stdout := [], stderr := []
             detail := .obj [("path", .str path), ("bytes", .int content.length),
               ("content_hash", .str (H_hex crypto bytes))] }
  | .fsRead path => do
    let real ← sandbox.resolve os path
    let data ← os.read real (sandbox.maxOutput + 1)
    return { action := "fs_read", ok := true, exitCode := 0, stdout := data.take sandbox.maxOutput, stderr := []
             truncated := sandbox.maxOutput < data.length, detail := .obj [("path", .str path)] }
  | .fsList path => do
    let real ← sandbox.resolve os path
    let names := (← os.listdir real).insertionSort (· ≤ ·)
    return { action := "fs_list", ok := true, exitCode := 0, stdout := joinWith "\n" names, stderr := []
             detail := .obj [("path", .str path), ("n", .int names.length)] }
  | .fsDelete path => do
    let real ← sandbox.resolve os path
    os.remove real
    return { action := "fs_delete", ok := true, exitCode := 0, stdout := [], stderr := []
             detail := .obj [("path", .str path)] }
  | .git args cwd => do
    let result ← sandbox.run os (gitArgv args) cwd
    let head ← sandbox.run os ["git", "rev-parse", "HEAD"] cwd
    return { result with
             action := "git"
             detail := .obj [("argv", strings (gitArgv args)),
               ("head", if head.ok then .str (strip head.stdout) else .null)] }
  | .test target runner => do
    let result ← sandbox.run os (testArgv sandbox target runner) none
    return { result with
             action := "test"
             detail := .obj [("argv", strings (testArgv sandbox target runner)), ("target", .str target),
               ("passed", .bool (result.exitCode = 0))] }

end Call

/-- What surrounds a call: the operating system, the governor's answer, the two
readings of the clock, and how the journal and the witness take an event. -/
structure Around where
  os : Os
  permits : Bool := true
  begun : PyFloat := .zero
  ended : PyFloat := .zero
  journal : Event → Py Unit := fun _ => .ok ()
  witness : Event → Py Unit := fun _ => .ok ()

/-- The events in memory and in the journal, each with the number of its call, and
the number of calls so far. The code keeps the events alone. -/
structure Organ where
  log : List (Nat × Event) := []
  journal : List (Nat × Event) := []
  calls : Nat := 0

def Organ.events (organ : Organ) : List Event := organ.log.map (·.2)

/-- `_emit`: in memory, in the journal, on the witness chain. -/
def Organ.emit (organ : Organ) (around : Around) (id : Nat) (event : Event) : Organ × Py Unit :=
  let organ := { organ with log := organ.log ++ [(id, event)] }
  match around.journal event with
  | .error e => (organ, .error e)
  | .ok () => ({ organ with journal := organ.journal ++ [(id, event)] }, around.witness event)

variable (sandbox : Sandbox)

/-- The intent of a call that the gate lets through. -/
def intentOf (around : Around) (call : Call) : Py Event := do
  let params ← call.params crypto sandbox
  if call.executive && !around.permits then
    raise .actionRefused ("423 CONTAINED: executive action " ++ pyRepr call.action ++ " refused for " ++
      sandbox.beingId ++ " — the hand is severed (Article 25)")
  let data ← canonical (.obj [("action", .str call.action), ("params", params)])
  return .intent around.begun call.action params (H_hex crypto data)

def outcomeEvent (around : Around) (action actionHash : Str) (result : ActionResult) : Py Event := do
  let stdout ← encode result.stdout
  let stderr ← encode result.stderr
  return .outcome around.ended action actionHash result (H_hex crypto stdout) (H_hex crypto stderr)

/-- `type(e).__name__` of the refusals that are witnessed. -/
def refusalClass (kind : PyClass) : Str := if kind = .sandboxEscape then "SandboxEscape" else "IsolationRefused"

/-- The outcome of an action, and what its caller gets; an exception of another
class than the two handled ones leaves no outcome. -/
def outcomeOf (around : Around) (call : Call) (actionHash : Str) : Py (Event × Py ActionResult) :=
  match call.perform crypto sandbox around.os with
  | .ok result => do return (← outcomeEvent crypto around call.action actionHash result, .ok result)
  | .error e =>
    if e.kind = .sandboxEscape ∨ e.kind = .isolationRefused then
      .ok (.refusal around.ended call.action actionHash e.text (refusalClass e.kind) sandbox.profile (H_hex crypto []),
        .error e)
    else if e.kind = .osError then do
      let result : ActionResult := { action := call.action, ok := false, exitCode := -1, stdout := [], stderr := e.text }
      return (← outcomeEvent crypto around call.action actionHash result, .ok result)
    else .error e

def Organ.act (organ : Organ) (around : Around) (call : Call) : Organ × Py ActionResult :=
  let id := organ.calls
  let organ := { organ with calls := id + 1 }
  match intentOf crypto sandbox around call with
  | .error e => (organ, .error e)
  | .ok intent =>
    match organ.emit around id intent with
    | (organ, .error e) => (organ, .error e)
    | (organ, .ok ()) =>
      match outcomeOf crypto sandbox around call intent.actionHash with
      | .error e => (organ, .error e)
      | .ok (outcome, answer) =>
        match organ.emit around id outcome with
        | (organ, .error e) => (organ, .error e)
        | (organ, .ok ()) => (organ, answer)

/-- The organ is rebuilt from the first events of its journal. -/
def Organ.rebuilt (organ : Organ) (kept : Nat) : Organ :=
  { organ with log := organ.journal.take kept, journal := organ.journal.take kept }

inductive Move where
  | call (call : Call) (around : Around)
  | restart (kept : Nat)

def step (organ : Organ) : Move → Organ
  | .call call around => (organ.act crypto sandbox around call).1
  | .restart kept => organ.rebuilt kept

/-- Some outcome stands in the log under this call. -/
def answered (log : List (Nat × Event)) (id : Nat) : Bool := log.any (fun entry => entry.1 = id && !entry.2.isIntent)

/-- The intents that have no outcome of their own. -/
def unanswered (log : List (Nat × Event)) : List (Nat × Event) :=
  log.filter (fun entry => entry.2.isIntent && !answered log entry.1)

/-- `pending_intents()` is the list of intents without an outcome of their own. -/
def Exact (organ : Organ) : Prop := pendingIntents organ.events = (unanswered organ.log).map (·.2)

/-- A call writes nothing, or an intent and then its one outcome. -/
def Settles (before after : Organ) : Prop :=
  after.log = before.log ∨ ∃ intent outcome : Event, intent.isIntent = true ∧ outcome.isIntent = false ∧
    outcome.actionHash = intent.actionHash ∧
    after.log = before.log ++ [(before.calls, intent), (before.calls, outcome)]

/-- Each call leaves an outcome after its intent. -/
def Leaves (organ : Organ) : Move → Prop
  | .call call around => Settles organ (organ.act crypto sandbox around call).1
  | .restart _ => True

/-- What a call needs to come to an outcome: its action raises nothing but what is
handled, its output can be encoded, and both of its events are taken. -/
structure Finishes (call : Call) (around : Around) : Prop where
  raises : ∀ e, call.perform crypto sandbox around.os = .error e →
    e.kind = .sandboxEscape ∨ e.kind = .isolationRefused ∨ e.kind = .osError ∧ (encode e.text).isOk = true
  prints : ∀ result, call.perform crypto sandbox around.os = .ok result →
    (encode result.stdout).isOk = true ∧ (encode result.stderr).isOk = true
  taken : ∀ event, around.journal event = .ok () ∧ around.witness event = .ok ()

/-- A call finishes and repeats no action that is pending; a cut after an intent
leaves no earlier event of its action. -/
def Careful (organ : Organ) : Move → Prop
  | .call call around => Finishes crypto sandbox call around ∧
      ∀ intent, intentOf crypto sandbox around call = .ok intent →
        ∀ entry ∈ unanswered organ.log, entry.2.actionHash ≠ intent.actionHash
  | .restart kept => ∀ front id intent, organ.journal.take kept = front ++ [(id, intent)] → intent.isIntent = true →
      ∀ entry ∈ front, entry.2.actionHash ≠ intent.actionHash

end JJDai.Karma
