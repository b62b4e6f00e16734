import JJDai.Primitive.Python

/-! `jjdai.durable`: JSON-lines journals over the bytes of one file. -/

namespace JJDai.Durable

open PyText

/-- A dict that `json.dumps` accepts: pairwise different string keys, throughout. -/
structure Event where
  fields : Dict Str Json
  valid : (Json.obj fields).valid

def Event.json (e : Event) : Json := .obj e.fields

def newline : CodePoint := ch '\n'

def journalLine (obj : Json) : Str := obj.dumps ++ [newline]

/-- The file after the append; an unencodable line is refused before any byte. -/
def durableAppend (file : Bytes) (obj : Json) : Py Bytes := do
  let line ← encode (journalLine obj)
  return file ++ line

structure Report where
  tornTail : Bool
  dropped : Nat
  lines : Nat
  deriving DecidableEq

def Report.ofTail (torn : Bool) (lines : Nat) : Report :=
  { tornTail := torn, dropped := if torn then 1 else 0, lines := lines }

/-- Text mode reads `\r\n` and `\r` as `\n`. -/
def universalNewlines : Str → Str
  | [] => []
  | [c] => if c = ch '\r' then [newline] else [c]
  | c :: d :: rest =>
    if c = ch '\r' then
      if d = newline then newline :: universalNewlines rest
      else newline :: universalNewlines (d :: rest)
    else c :: universalNewlines (d :: rest)

def splitNewline (raw : Str) : List Str := splitAt newline raw

def isSpace (c : CodePoint) : Bool :=
  (9 ≤ c.val && c.val ≤ 13) || (28 ≤ c.val && c.val ≤ 32) || c.val == 0x85 || c.val == 0xA0 ||
    c.val == 0x1680 || (0x2000 ≤ c.val && c.val ≤ 0x200A) || c.val == 0x2028 ||
    c.val == 0x2029 || c.val == 0x202F || c.val == 0x205F || c.val == 0x3000

def hasText (line : Str) : Bool := line.any (fun c => !isSpace c)

def readText (file : Bytes) : Py Str :=
  match decodeUtf8 file with
  | some raw => .ok (universalNewlines raw)
  | none => raise .unicodeDecodeError

def corruption (path : Str) (i total : Nat) : PyErr :=
  ⟨.journalCorruption, path ++ ": malformed line " ++ natText i ++ " of " ++ natText total ++
    " — not a torn tail (corruption or tampering)"⟩

/-- The loop of `read_journal` from line `i` on: the events, and whether the tail is torn. -/
def readLines (path : Str) (repairTail ended : Bool) (total : Nat) :
    Nat → List Str → Py (List Json × Bool)
  | _, [] => return ([], false)
  | i, line :: rest =>
    match Json.loads line with
    | some event => do
      let (events, torn) ← readLines path repairTail ended total (i + 1) rest
      return (event :: events, torn)
    | none =>
      if i + 1 = total ∧ ¬ended ∧ repairTail then return ([], true)
      else .error (corruption path i total)

def readJournal (path : Str) (file : Bytes) (repairTail : Bool := true) :
    Py (List Json × Report) := do
  let raw ← readText file
  let lines := (splitNewline raw).filter hasText
  let ended := raw.getLast? = some newline
  let (events, torn) ← readLines path repairTail ended lines.length 0 lines
  return (events, .ofTail torn lines.length)

def appendAll (file : Bytes) : List Json → Py Bytes
  | [] => return file
  | obj :: rest => do
    let file ← durableAppend file obj
    appendAll file rest

/-- The file after `truncate_torn_tail`, and its answer; the replacement is atomic. -/
def truncateTornTail (path : Str) (file : Bytes) : Py (Bytes × Bool) := do
  let (events, report) ← readJournal path file
  if report.tornTail then
    let repaired ← appendAll [] events
    return (repaired, true)
  else return (file, false)

/-- The boot sequence of `WitnessChain._load`: read, and repair when the tail is torn. -/
def boot (path : Str) (file : Bytes) : Py (List Json × Bytes) := do
  let (events, report) ← readJournal path file
  if report.tornTail then
    let (repaired, _) ← truncateTornTail path file
    return (events, repaired)
  else return (events, file)

end JJDai.Durable
