import JJDai.Kernel.Karma
import JJDai.Kernel.WasmPure

/-! `kernel.isolation`: the profile that runs precompiled modules, from its manifest to the command
that starts one of its tools. -/

namespace JJDai.Isolation

open PyText Toolset WasmPure

structure Profile where
  toolsDir : Str
  wasmtime : Str := "wasmtime"
  resolver : Option (Json → Py Json)
  gauntletAvailable : Bool := false
  authorization : Option (Str → Py Json)

structure Host where
  /-- `os.path.realpath` of a path that the system takes. -/
  realpath : Str → Str
  /-- `os.path.exists`. -/
  present : Str → Bool
  /-- The manifest opened and read to its end. -/
  manifest : Py Bytes
  /-- A module opened and read to its end. -/
  read : Str → Py Bytes
  /-- `shutil.which`. -/
  which : Str → Option Str
  /-- What `run --help` prints, or the handled exception of starting it. -/
  probe : Except Str Str
  /-- `str.lower`. -/
  lower : Str → Str

/-- `os.path.join` of a directory and a path. -/
def joinPath (directory path : Str) : Str :=
  if Karma.isAbsolute path then path
  else if directory = [] ∨ directory.getLast? = some (ch '/') then directory ++ path
  else directory ++ "/" ++ path

/-- A surrogate that stands for no byte of a file name. -/
def nameless (c : CodePoint) : Bool := 0xD800 ≤ c.val ∧ c.val ≤ 0xDFFF ∧ ¬(0xDC80 ≤ c.val ∧ c.val ≤ 0xDCFF)

/-- `os.path.realpath`: `lstat` raises for a name that is no file name, and is handled for the rest. -/
def Host.resolve (host : Host) (path : Str) : Py Str :=
  if path.any nameless then raise .unicodeEncodeError
  else if codePoint 0 ∈ path then raise .valueError "embedded null byte"
  else return host.realpath path

/-- A `ToolNotPermitted` or a `ProfileUnavailable`, with its code. -/
structure Refusal where
  code : Str
  text : Str
  deriving DecidableEq

def toolOk : Str := "OK"

def profileName : Str := "wasm-wasi"

def manifestFile : Str := "toolset-manifest.json"

def legacyManifestFile : Str := "toolset.json"

variable (crypto : Crypto) (profile : Profile) (host : Host)

def manifestPath : Str :=
  let primary := joinPath profile.toolsDir manifestFile
  let legacy := joinPath profile.toolsDir legacyManifestFile
  if host.present primary then primary else if host.present legacy then legacy else primary

/-- `toolset`, with the `_manifest_error` it leaves. -/
def loadToolset : Py (Str × Dict Str Json) :=
  match loadVerifiedManifest crypto (manifestPath profile host) host.manifest profile.resolver profile.gauntletAvailable
      profile.authorization with
  | .ok doc => do
    match ← subscript doc "tools" with
    | .obj tools => return ([], tools)
    | _ => raise .typeError
  | .error e =>
    match e.kind with
    | .toolsetError code => return (code ++ ": " ++ e.text, [])
    | _ => if e.isValueError ∨ e.kind = .typeError then return ("MANIFEST_REFUSED: " ++ e.text, []) else .error e

def toolset : Py (Dict Str Json) := do
  let (_, tools) ← loadToolset crypto profile host
  return tools

/-- `os.path.join(self.tools_dir, entry.get("module", ""))`. -/
def modulePath (entry : Dict Str Json) : Py Str :=
  match (Dict.get? entry "module").getD (.str []) with
  | .str path => return joinPath profile.toolsDir path
  | _ => raise .typeError "join() argument must be str, bytes, or os.PathLike object"

/-- `(entry.get(field) or "")` behind a method of `str`. -/
def textOf (entry : Dict Str Json) (field : Str) (method : Str → Str) : Py Str :=
  match (Dict.get? entry field).getD .null with
  | .str (c :: text) => return method (c :: text)
  | value => if truthy value then raise .attributeError else return []

/-- The refusals of `check_pure_imports` as refusals of the tool. -/
def boundary (tool : Str) (data : Bytes) : Py (Except Refusal Unit) :=
  match checkPureImports data with
  | .ok _ => return .ok ()
  | .error e =>
    match e.kind with
    | .pureBoundaryError code => return .error ⟨code, "tool " ++ pyRepr tool ++ " declares effect_class 'pure' and its " ++
        "module does not hold to it: " ++ e.text⟩
    | _ => .error e

/-- The checks on a module that is the pinned one. -/
def checkEffects (tool : Str) (entry : Dict Str Json) (module_ : Str) : Py (Except Refusal Str) := do
  let declared ← textOf entry "effect_class" Karma.strip
  if declared = [] then
    return .error ⟨"NO_EFFECT_CLASS", "tool " ++ pyRepr tool ++ " declares no effect_class — refused. Without one the limit " ++
      "on the hand in custody has nothing to be told apart from, so an undeclared tool is not a permissive default, it " ++
      "is a refusal (ADR-022 D9)"⟩
  else do
    checkEffectClass (.str declared)
    if declared = "pure" then
      let data ← host.read module_
      match ← boundary tool data with
      | .ok _ => return .ok module_
      | .error refusal => return .error refusal
    else return .ok module_

def moduleOf (tool : Str) (entry : Dict Str Json) : Py (Except Refusal Str) := do
  let path ← modulePath profile entry
  let module_ ← host.resolve path
  if ¬(profile.toolsDir ++ "/").isPrefixOf module_ then
    return .error ⟨"OUTSIDE_ROOT", "module for tool " ++ pyRepr tool ++ " resolves outside the toolset directory — refused"⟩
  else if !host.present module_ then
    return .error ⟨"MODULE_MISSING", "module for tool " ++ pyRepr tool ++ " declared but missing at " ++ pyRepr module_ ++
      " — refused"⟩
  else do
    let want ← textOf entry "sha256" host.lower
    let got := H_hex crypto (← host.read module_)
    if want = [] then
      return .error ⟨"UNPINNED", "manifest entry for tool " ++ pyRepr tool ++ " carries no sha256 pin — refused (an " ++
        "unpinned module is an unverifiable module)"⟩
    else if got ≠ want then
      return .error ⟨"DIGEST_DRIFT", "module digest mismatch for tool " ++ pyRepr tool ++ ": manifest pins " ++ want ++
        ", module hashes " ++ got ++ " — refused"⟩
    else checkEffects host tool entry module_

def moduleFor (tool : Str) : Py (Except Refusal Str) := do
  match Dict.get? (← toolset crypto profile host) tool with
  | some (.obj entry) => moduleOf crypto profile host tool entry
  | _ => return .error ⟨"NOT_PERMITTED", "tool " ++ pyRepr tool ++ " is not in the fixed toolset of profile " ++
      pyRepr profileName ++ " — refused (arbitrary execution does not exist in this profile)"⟩

def sortedTools (tools : Dict Str Json) : List Str := (Dict.keys tools).insertionSort (· ≤ ·)

def statusOf (tool : Str) : Py (Str × Bool × Str) := do
  match ← moduleFor crypto profile host tool with
  | .ok _ => return (tool, true, [])
  | .error refusal => return (tool, false, refusal.text)

def toolsetStatus : Py (Dict Str (Bool × Str)) := do
  let tools ← toolset crypto profile host
  (sortedTools tools).mapM (statusOf crypto profile host)

structure Report where
  ok : Bool
  code : Str
  reason : Str
  deriving DecidableEq

def reportOf (tool : Str) : Py (Str × Report) := do
  match ← moduleFor crypto profile host tool with
  | .ok _ => return (tool, ⟨true, toolOk, []⟩)
  | .error refusal => return (tool, ⟨false, refusal.code, refusal.text⟩)

def toolsetReport : Py (Dict Str Report) := do
  let tools ← toolset crypto profile host
  (sortedTools tools).mapM (reportOf crypto profile host)

/-- `RUNTIME_LIMIT_FLAGS` by name, with `RUNTIME_LIMIT_PROBE`. -/
def runtimeLimitProbe : Dict Str Str := [(Str.ofString "fuel", "fuel"), (Str.ofString "memory", "max-memory-size")]

def occurs (needle text : Str) : Bool := text.tails.any (fun tail => needle.isPrefixOf tail)

def runtimeSupportsLimits : Bool × Str :=
  match host.probe with
  | .error why => (false, "wasm runtime probe failed: " ++ why)
  | .ok text =>
    let missing := (runtimeLimitProbe.filter (fun entry => !occurs entry.2 text)).map Prod.fst
    if missing ≠ [] then
      (false, "wasm runtime " ++ pyRepr profile.wasmtime ++ " does not accept the " ++ WitnessChain.reprList missing ++
        " limit option(s) this build passes; the profile is unavailable rather than executing without them — a limit a " ++
        "runtime ignores is not a limit (ADR-022 D9)")
    else (true, [])

def runtimeReady : Py (Bool × Str) :=
  if (host.which profile.wasmtime).isNone then
    return (false, "wasm runtime " ++ pyRepr profile.wasmtime ++ " not found on this host — profile " ++
      pyRepr profileName ++ " cannot execute")
  else if (runtimeSupportsLimits profile host).1 = false then return (false, (runtimeSupportsLimits profile host).2)
  else if !host.present (manifestPath profile host) then
    return (false, "toolset manifest missing at " ++ pyRepr (manifestPath profile host))
  else do
    let (error, tools) ← loadToolset crypto profile host
    if tools = [] then
      let why := if error ≠ [] then error else "empty or not schema " ++ schemaToolsetManifest
      return (false, "toolset manifest at " ++ pyRepr (manifestPath profile host) ++ " is not usable — " ++ why)
    else return (true, [])

def available : Py (Bool × Str) := do
  let (ok, reason) ← runtimeReady crypto profile host
  if ok then do
    let status ← toolsetStatus crypto profile host
    if status.any (fun entry => entry.2.1) then return (true, [])
    else
      match status with
      | [] => raise .indexError
      | (first, _, why) :: _ =>
        return (false, "no declared tool is executable — " ++ natText status.length ++ " broken, e.g. " ++ pyRepr first ++
          ": " ++ why)
  else return (false, reason)

end JJDai.Isolation
