import JJDai.Kernel.Isolation

/-! `Sandbox.run` from its `Popen` on: how a child is started, its output captured and its end awaited;
and what the wasm profile makes of the result. -/

namespace JJDai.Isolation

open PyText Karma

def continuation (byte : UInt8) : Bool := 0x80 ≤ byte.toNat && byte.toNat ≤ 0xBF

/-- The bytes that may follow a leading byte, and how many follow in all. -/
def following (lead : Nat) : Option (Nat × Nat × Nat) :=
  if 0xC2 ≤ lead ∧ lead ≤ 0xDF then some (1, 0x80, 0xBF)
  else if 0xE0 ≤ lead ∧ lead ≤ 0xEF then
    some (2, if lead = 0xE0 then 0xA0 else 0x80, if lead = 0xED then 0x9F else 0xBF)
  else if 0xF0 ≤ lead ∧ lead ≤ 0xF4 then
    some (3, if lead = 0xF0 then 0x90 else 0x80, if lead = 0xF4 then 0x8F else 0xBF)
  else none

/-- The bytes after a leading byte that continue a character. -/
def continued (lead : Nat) (rest : Bytes) : Bytes :=
  match following lead, rest with
  | some (count, low, high), second :: later =>
    if low ≤ second.toNat ∧ second.toNat ≤ high then second :: (later.take (count - 1)).takeWhile continuation else []
  | _, _ => []

/-- One character, and the number of bytes behind the first that it takes; what is cut short or
begins no character is replaced. -/
def decodeOne (first : UInt8) (rest : Bytes) : CodePoint × Nat :=
  if first.toNat < 0x80 then (codePoint first.toNat, 0)
  else
    match following first.toNat with
    | none => (codePoint 0xFFFD, 0)
    | some (count, _, _) =>
      let tail := continued first.toNat rest
      if tail.length = count then
        (codePoint (tail.foldl (fun value byte => value * 64 + byte.toNat % 64)
          (first.toNat % 2 ^ (6 - count))), count)
      else (codePoint 0xFFFD, tail.length)

def decodeFrom : Nat → Bytes → Str
  | _, [] => []
  | 0, _ => []
  | fuel + 1, first :: rest =>
    let (c, used) := decodeOne first rest
    c :: decodeFrom fuel (rest.drop used)

/-- `data.decode("utf-8", errors="replace")`. -/
def decodeReplace (data : Bytes) : Str := decodeFrom data.length data

theorem decodeReplace_eq_nil {data : Bytes} : decodeReplace data = [] ↔ data = [] := by
  cases data <;> simp [decodeReplace, decodeFrom]

inductive Stream where
  | out | err
  deriving DecidableEq

/-- A key the selector reports: standard input takes so many bytes, or none any more; a stream is
read, where no result is an `OSError` and an empty one the end. -/
inductive Ready where
  | input (sent : Option Nat)
  | read (stream : Stream) (result : Option Bytes)

inductive Ending where
  | itself (code : Int)
  | killed (signal : Nat)

def Ending.code : Ending → Int
  | .itself code => code
  | .killed signal => -signal

/-- What a child does until the deadline, round by round of the selector, and how it ends when it is
left alone. -/
structure Child where
  rounds : List (List Ready)
  ending : Ending
  duration : PyFloat := .zero

/-- `Popen`: a child, a file that is not found or not permitted, or another exception. -/
inductive Launch where
  | started (child : Child)
  | refused (text : Str) (duration : PyFloat)
  | raises (e : PyErr)

structure Capture where
  bufs : Stream → Bytes := fun _ => []
  totals : Stream → Nat := fun _ => 0
  opened : Stream → Bool := fun _ => true
  pending : Bytes
  overflowed : Bool := false

/-- `max(FLOOD_BUDGET_FLOOR, FLOOD_BUDGET_FACTOR * cap)`. -/
def floodBudget (cap : Nat) : Nat := max (1024 * 1024) (8 * cap)

def Capture.take (cap : Nat) (c : Capture) (stream : Stream) (chunk : Bytes) : Capture :=
  let total := c.totals stream + chunk.length
  { c with
    totals := Function.update c.totals stream total
    bufs := Function.update c.bufs stream (c.bufs stream ++ chunk.take (cap - (c.bufs stream).length))
    overflowed := c.overflowed || decide (floodBudget cap < total) }

/-- One key of a round; the selector does not report what is unregistered. -/
def Capture.step (cap : Nat) (c : Capture) : Ready → Capture
  | .input sent =>
    match sent with
    | none => { c with pending := [] }
    | some sent => { c with pending := c.pending.drop sent }
  | .read stream result =>
    if c.opened stream then
      match result.getD [] with
      | [] => { c with opened := Function.update c.opened stream false }
      | chunk => c.take cap stream chunk
    else c

/-- The loop, and whether it was left at the deadline. -/
def Capture.loop (cap : Nat) : List (List Ready) → Capture → Capture × Bool
  | rounds, c =>
    if c.opened .out || c.opened .err then
      match rounds with
      | [] => (c, true)
      | round :: rest =>
        let c := round.foldl (Capture.step cap) c
        if c.overflowed then (c, false) else Capture.loop cap rest c
    else (c, false)

/-- What `Sandbox.run` returns after the loop. -/
def Capture.result (cap : Nat) (child : Child) (c : Capture) (timedOut : Bool) : ActionResult :=
  let code := if timedOut || c.overflowed then -9 else child.ending.code
  let truncated := decide ((c.bufs .out).length < c.totals .out) || decide ((c.bufs .err).length < c.totals .err)
  let emitted : Json := .obj [("out", .int (c.totals .out)), ("err", .int (c.totals .err))]
  { action := "shell"
    ok := code = 0 && !timedOut && !c.overflowed
    exitCode := code
    stdout := decodeReplace (c.bufs .out)
    stderr := decodeReplace (c.bufs .err)
    duration := child.duration
    truncated := truncated || c.overflowed
    timedOut
    detail := .obj (([("bytes_emitted", emitted)] : Dict Str Json) ++ (if c.overflowed then
      [("verdict", .str "OUTPUT_LIMIT_EXCEEDED"), ("flood_budget", .int (floodBudget cap))] else [] : Dict Str Json)) }

def spawn (cap : Nat) (input : Bytes) : Launch → Py ActionResult
  | .started child =>
    let (c, timedOut) := Capture.loop cap child.rounds { pending := input }
    return c.result cap child timedOut
  | .refused text duration =>
    return { action := "shell", ok := false, exitCode := 127, stdout := [], stderr := text, duration }
  | .raises e => .error e

def runtimeBreachMarkers : List (Str × Str) :=
  [(Str.ofString "all fuel consumed", "LIMIT_FUEL"), (Str.ofString "out of fuel", "LIMIT_FUEL"),
    (Str.ofString "outoffuel", "LIMIT_FUEL"), (Str.ofString "memory minimum size", "LIMIT_MEMORY"),
    (Str.ofString "failed to grow memory", "LIMIT_MEMORY"), (Str.ofString "exceeds memory limits", "LIMIT_MEMORY"),
    (Str.ofString "max-memory-size", "LIMIT_MEMORY")]

def classifyRuntimeBreach (lower : Str → Str) (stderr : Str) : Option Str :=
  let low := if stderr = [] then [] else lower stderr
  (runtimeBreachMarkers.find? (fun entry => occurs entry.1 low)).map Prod.snd

def limitsAsDict (limits : Toolset.Limits) : Json :=
  .obj [("fuel", .int limits.fuel), ("guest_memory_bytes", .int limits.guestMemoryBytes),
    ("host_memory_bytes", .int limits.hostMemoryBytes), ("output_bytes", .int limits.outputBytes)]

/-- `int(emitted.get(stream, 0))` of the result's own count. -/
def emittedOf (result : ActionResult) (stream : Str) : Py Int := do
  match ← dotGet result.details "bytes_emitted" with
  | .obj emitted => pyInt ((Dict.get? emitted stream).getD (.int 0))
  | _ => return 0

/-- What the profile answers in place of a result that breaks a limit. -/
def discarded (result : ActionResult) (detail : Dict Str Json) : ActionResult :=
  { action := "shell", ok := false, exitCode := result.exitCode, stdout := [], stderr := [], duration := result.duration
    timedOut := result.timedOut, detail := .obj detail }

def judge (lower : Str → Str) (tool : Str) (limits : Toolset.Limits) (result : ActionResult) : Py ActionResult :=
  match classifyRuntimeBreach lower result.stderr with
  | some breach =>
    return discarded result (([("verdict", .str breach), ("limits", limitsAsDict limits)] : Dict Str Json) ++
      ([("reason", .str ("tool " ++ pyRepr tool ++ " exhausted a declared limit inside the runtime; the partial output is " ++
        "discarded for the same reason as an output breach")), ("runtime_said", .str (result.stderr.take 400))] :
        Dict Str Json))
  | none => do
    let out ← emittedOf result "out"
    let err ← emittedOf result "err"
    if result.truncated ∨ limits.outputBytes < out + err then
      let emitted ← dotGet result.details "bytes_emitted"
      return discarded result (([("verdict", .str "LIMIT_OUTPUT"), ("limit", .int limits.outputBytes),
        ("bytes_emitted", emitted)] : Dict Str Json) ++ ([("reason", .str ("tool " ++ pyRepr tool ++ " exceeded its declared " ++
        "output limit; the partial output is DISCARDED because a truncated result from a deterministic tool cannot be told " ++
        "apart from a complete one"))] : Dict Str Json))
    else return result

variable (crypto : Crypto) (profile : Profile) (host : Host)

def limitsFor (tool : Str) : Py Toolset.Limits := do
  match Dict.get? (← toolset crypto profile host) tool with
  | some entry =>
    if truthy entry then Toolset.checkLimitsDeclared (← dotGet entry "limits") else Toolset.checkLimitsDeclared .null
  | none => Toolset.checkLimitsDeclared .null

/-- A flag that would hand the guest a directory. -/
def preopens (token : Str) : Bool :=
  token = "--dir" || token = "--mapdir" || ("--dir=" : Str).isPrefixOf token || ("--mapdir=" : Str).isPrefixOf token

def checkNoPreopens : List Str → Py Unit
  | [] => return ()
  | token :: rest =>
    if preopens token then
      WasmPure.fail "PREOPEN_PRESENT" ("invocation carries " ++ pyRepr token ++ ": `pure` means ZERO preopen directories, " ++
        "neither read nor write. The earlier formulation allowed writes inside one preopened directory and was therefore " ++
        "not a boundary (roadmap r6.9.1).")
    else checkNoPreopens rest

def wasmArgv (tool : Str) (args : List Str) : Py (List Str) := do
  match ← moduleFor crypto profile host tool with
  | .error refusal => raise .isolationRefused refusal.text
  | .ok module_ => do
    let limits ← limitsFor crypto profile host tool
    let cmd := [profile.wasmtime, "run", "-W", "fuel=" ++ intText limits.fuel, "-W",
      "max-memory-size=" ++ intText limits.guestMemoryBytes, module_, "--"] ++ args
    checkNoPreopens cmd
    return cmd

variable (sandbox : Sandbox) (os : Os)

/-- `self.resolve(cwd) if cwd else self.root`. -/
def workdirOf (cwd : Option Str) : Py Str :=
  match cwd with
  | some (c :: path) => sandbox.resolve os (c :: path)
  | _ => .ok sandbox.root

/-- `WasmWasiProfile.run` up to the sandbox: the command and the limits of the tool. -/
def prepare (cwd : Option Str) : List Str → Py (Str × List Str × Toolset.Limits)
  | [] => raise .isolationRefused "empty argv — refused"
  | tool :: args => do
    let (ok, reason) ← runtimeReady crypto profile host
    if !ok then raise .isolationRefused reason
    let _ ← workdirOf sandbox os cwd
    let cmd ← wasmArgv crypto profile host tool args
    let limits ← limitsFor crypto profile host tool
    let _ ← workdirOf sandbox os cwd
    return (tool, cmd, limits)

/-- `WasmWasiProfile.run`; `launch` is what `Popen` makes of the command. -/
def run (argv : List Str) (cwd : Option Str) (input : Bytes) (launch : List Str → Launch) : Py ActionResult := do
  let (tool, cmd, limits) ← prepare crypto profile host sandbox os cwd argv
  let result ← spawn limits.outputBytes.toNat input (launch cmd)
  judge host.lower tool limits result

end JJDai.Isolation
