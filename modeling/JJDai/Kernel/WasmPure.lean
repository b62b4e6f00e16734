import JJDai.Kernel.Toolset

/-! `kernel.wasm_pure`: the imports of a module, read out of its bytes before the runtime sees it. -/

namespace JJDai.WasmPure

open PyText

def wasmMagic : Bytes := [0x00, 0x61, 0x73, 0x6D]

def wasmVersion : Nat := 1

def pureNotWasm : Str := "NOT_WASM"

def pureMalformed : Str := Toolset.pureMalformed

def pureImportDenied : Str := "IMPORT_DENIED"

def wasiModule : Str := "wasi_snapshot_preview1"

def pureImportAllowlist : List (Str × Str) :=
  [(wasiModule, Str.ofString "fd_read"), (wasiModule, Str.ofString "fd_write"), (wasiModule, Str.ofString "proc_exit")]

def pureDeniedByName : Dict Str Str :=
  [(Str.ofString "clock_time_get", "clocks are denied: a tool that reads time is not replayable, and a panel " ++
      Str.ofString "corroborates by replaying"),
    (Str.ofString "clock_res_get", "clocks are denied: see clock_time_get"),
    (Str.ofString "random_get", "entropy is denied: a tool that draws randomness gives a different answer to the " ++
      Str.ofString "same question"),
    (Str.ofString "sock_accept", "the network is denied outright"),
    (Str.ofString "sock_recv", "the network is denied outright"),
    (Str.ofString "sock_send", "the network is denied outright"),
    (Str.ofString "path_open", "there are zero preopen directories, so no path can be opened: `pure` is not 'writes " ++
      Str.ofString "only inside its own directory', which is the formulation r6.9.1 removed"),
    (Str.ofString "fd_prestat_get", "there are zero preopen directories to enumerate; a module that asks was linked " ++
      Str.ofString "against full wasi-libc and must be rebuilt against a narrowed target (O-3)"),
    (Str.ofString "fd_prestat_dir_name", "see fd_prestat_get")]

def fail (code message : Str) : Py α := raise (.pureBoundaryError code) message

inductive Kind where
  | func | table | memory | global | unknown
  deriving DecidableEq

def Kind.text : Kind → Str
  | .func => "func"
  | .table => "table"
  | .memory => "memory"
  | .global => "global"
  | .unknown => "unknown"

structure Import where
  moduleName : Str
  name : Str
  kind : Kind
  deriving DecidableEq

def importSection : Nat := 2

def kinds : Nat → Kind
  | 0x00 => .func
  | 0x01 => .table
  | 0x02 => .memory
  | 0x03 => .global
  | _ => .unknown

def byteAt (data : Bytes) (pos : Nat) : Py Nat :=
  match data[pos]? with
  | some byte => return byte.toNat
  | none => raise .indexError

/-- The loop of `_uleb`; it is left after ten bytes at the latest. -/
def ulebLoop (data : Bytes) : Nat → Nat → Nat → Nat → Py (Nat × Nat)
  | 0, _, _, _ => raise .runtimeError
  | fuel + 1, result, shift, pos => do
    if data.length ≤ pos then fail pureMalformed "module truncated inside a LEB128 integer"
    let byte ← byteAt data pos
    let result := result ||| ((byte &&& 0x7F) <<< shift)
    if byte &&& 0x80 = 0 then return (result, pos + 1)
    if 63 < shift + 7 then
      fail pureMalformed "LEB128 integer too wide to be a length in a well-formed module"
    ulebLoop data fuel result (shift + 7) (pos + 1)

def uleb (data : Bytes) (pos : Nat) : Py (Nat × Nat) := ulebLoop data 10 0 0 pos

def name (data : Bytes) (pos : Nat) : Py (Str × Nat) := do
  let (length, pos) ← uleb data pos
  let stop := pos + length
  if data.length < stop then fail pureMalformed "module truncated inside a name"
  match decodeUtf8 ((data.take stop).drop pos) with
  | some text => return (text, stop)
  | none => fail pureMalformed "import name is not valid UTF-8"

def skipLimits (data : Bytes) (pos : Nat) : Py Nat := do
  if data.length ≤ pos then fail pureMalformed "module ends inside a limits descriptor"
  let flags ← byteAt data pos
  let (_, pos) ← uleb data (pos + 1)
  if flags &&& 0x01 = 0 then return pos
  let (_, pos) ← uleb data pos
  return pos

/-- What `_skip_descriptor` steps over after the kind byte. -/
def skipPayload (data : Bytes) (kind pos : Nat) : Py Nat :=
  match kind with
  | 0x00 => do
    let (_, pos) ← uleb data pos
    return pos
  | 0x01 => do
    if data.length < pos + 1 then fail pureMalformed "module ends inside a table descriptor"
    skipLimits data (pos + 1)
  | 0x02 => skipLimits data pos
  | 0x03 => do
    if data.length < pos + 2 then fail pureMalformed "module ends inside a global descriptor"
    return pos + 2
  | kind => fail pureMalformed ("unknown import descriptor kind 0x" ++ [hexDigit (kind / 16), hexDigit (kind % 16)])

def skipDescriptor (data : Bytes) (pos stop : Nat) : Py Nat := do
  if data.length ≤ pos then fail pureMalformed "module ends inside an import descriptor"
  let kind ← byteAt data pos
  let pos ← skipPayload data kind (pos + 1)
  if stop < pos then fail pureMalformed "import descriptor runs past its section"
  return pos

/-- One pass of the loop over the entries of an import section. -/
def entry (data : Bytes) (stop p : Nat) : Py (Import × Nat) := do
  let (moduleName, p) ← name data p
  let (nm, p) ← name data p
  if stop ≤ p then fail pureMalformed "import section ends inside an entry"
  let kind ← byteAt data p
  let next ← skipDescriptor data p stop
  return (⟨moduleName, nm, kinds kind⟩, next)

/-- The loop over the entries; the position it ends at is not looked at. -/
def entries (data : Bytes) (stop : Nat) : Nat → Nat → Py (List Import)
  | 0, _ => return []
  | count + 1, p => do
    let (imp, p) ← entry data stop p
    let others ← entries data stop count p
    return imp :: others

def sections (data : Bytes) : Nat → Nat → Py (List Import)
  | 0, _ => raise .runtimeError
  | fuel + 1, pos =>
    if pos < data.length then do
      let sectionId ← byteAt data pos
      let (size, pos) ← uleb data (pos + 1)
      let stop := pos + size
      if data.length < stop then
        fail pureMalformed ("section " ++ natText sectionId ++ " declares " ++ natText size ++
          " bytes and the module ends before them")
      if sectionId = importSection then
        let (count, p) ← uleb data pos
        let imports ← entries data stop count p
        let others ← sections data fuel stop
        return imports ++ others
      else sections data fuel stop
    else return []

/-- `struct.unpack_from("<I", data, pos)[0]`, where the buffer holds the four bytes. -/
def unpackU32 (data : Bytes) (pos : Nat) : Nat :=
  ((data.drop pos).take 4).foldr (fun byte higher => byte.toNat + 256 * higher) 0

def parseImports (data : Bytes) : Py (List Import) := do
  if data.length < 8 ∨ data.take 4 ≠ wasmMagic then
    fail pureNotWasm "not a WebAssembly module: magic header absent"
  let version := unpackU32 data 4
  if version ≠ wasmVersion then
    fail pureNotWasm ("unsupported wasm binary version " ++ natText version)
  sections data (data.length + 1) 8

/-- The clause a refusal names, where the import is denied by name. -/
def deniedDetail (nm : Str) : Str :=
  match Dict.get? pureDeniedByName nm with
  | some why => " — " ++ why
  | none => []

def checkImport (imp : Import) : Py Unit :=
  if (imp.moduleName, imp.name) ∈ pureImportAllowlist then
    if imp.kind ≠ .func then
      fail pureImportDenied (imp.moduleName ++ "." ++ imp.name ++ " is allowlisted as a FUNCTION and this module imports it " ++
        "as a " ++ imp.kind.text ++ ". A name is not a permission: an imported memory or table is host state the guest " ++
        "did not have.")
    else return ()
  else
    fail pureImportDenied ("module imports " ++ imp.moduleName ++ "." ++ imp.name ++ " (" ++ imp.kind.text ++ "), which is " ++
      "outside the `pure` allowlist" ++ deniedDetail imp.name ++ ". The allowlist is checked at instantiation, not at the " ++
      "call: a boundary that only holds when execution happens to reach the forbidden call is a boundary that depends on " ++
      "the input (ADR-022 D9).")

def checkEach : List Import → Py Unit
  | [] => return ()
  | imp :: rest => do
    checkImport imp
    checkEach rest

def checkPureImports (data : Bytes) : Py (List Import) := do
  let imports ← parseImports data
  checkEach imports
  return imports

end JJDai.WasmPure
