import JJDai.Primitive.Builtins
import JJDai.Replication.Envelope

/-! `core.anchoring`: the receipts of external anchoring, and the scheduler of its rounds. -/

namespace JJDai

open PyText

/-- `AnchorLog`: the receipts in memory, and the bytes of its journal. -/
structure AnchorLog where
  receipts : List Json := []
  file : Bytes := []

namespace AnchorLog

def required : List Str := ["backend", "root", "count", "status", "ts"]

def missingFields (receipt : Json) : Py (List Str) :=
  required.filterM (fun field => do return !(← pyContains field receipt))

/-- `add`: the receipt is in memory before it is in the journal. -/
def add (log : AnchorLog) (receipt : Json) : AnchorLog × Py Unit :=
  match missingFields receipt with
  | .error e => (log, .error e)
  | .ok (first :: rest) =>
    (log, raise .anchorError ("receipt missing fields: " ++ WitnessChain.reprList (first :: rest)))
  | .ok [] =>
    let entry := Json.obj [("kind", .str "ANCHOR_RECEIPT"), ("receipt", receipt)]
    match Durable.durableAppend log.file entry with
    | .error e => ({ log with receipts := log.receipts ++ [receipt] }, .error e)
    | .ok file => ({ receipts := log.receipts ++ [receipt], file }, .ok ())

def readEntry (entry : Json) : Py Json := do
  let malformed := PyErr.mk .anchorError
    ("anchor journal integrity failure on reload: malformed entry " ++ pyRepr ((pyStr entry).take 80))
  if (← dotGet entry "kind") ≠ .str "ANCHOR_RECEIPT" then .error malformed
  let receipt ← dotGet entry "receipt"
  let held ← required.allM (fun field => pyContains field (if truthy receipt then receipt else .obj []))
  if !held then .error malformed
  subscript entry "receipt"

/-- `AnchorLog(path)` on an existing journal. -/
def load (path : Str) (file : Bytes) : Py AnchorLog := do
  let (entries, _) ← Durable.readJournal path file
  let receipts ← entries.mapM readEntry
  return { receipts, file }

end AnchorLog

def terminalSuccess : List Str := ["recorded", "confirmed"]

def custodyStates : List Str := ["pending-attestation", "pending-confirmation"]

def failedStates : List Str := ["failed"]

def localBackends : List Str := ["local"]

/-- `value in texts` for a tuple of strings. -/
def isOneOf (value : Json) (texts : List Str) : Bool := texts.any (fun text => value = .str text)

/-- The entries of one backend in the scheduler's dicts. -/
structure Mark where
  covered : Nat := 0
  custody : Nat := 0
  attempted : Nat := 0
  lastSuccess : Json := .null
  lastFailure : Option Json := none

namespace Mark

def attempt (mark : Mark) (count : Nat) : Mark := { mark with attempted := max mark.attempted count }

def settle (mark : Mark) (count : Nat) (ts : Json) : Mark :=
  { mark with covered := max mark.covered count, custody := max mark.custody count, lastSuccess := ts }

def hold (mark : Mark) (count : Nat) : Mark := { mark with custody := max mark.custody count }

/-- What a receipt on reload says about its backend. -/
def replay (mark : Mark) (status ts : Json) (count : Nat) : Mark :=
  let mark := mark.attempt count
  if isOneOf status terminalSuccess then mark.settle count ts
  else if isOneOf status custodyStates then mark.hold count
  else if isOneOf status failedStates then { mark with lastFailure := some status }
  else mark

/-- What an answer in a round says about the backend that was asked. -/
def answered (mark : Mark) (status ts : Json) (count : Nat) : Mark :=
  if isOneOf status terminalSuccess then { mark.settle count ts with lastFailure := none }
  else if isOneOf status custodyStates then { mark.hold count with lastFailure := none }
  else { mark with lastFailure := some status }

end Mark

/-- The marks with those of one backend changed. -/
def changeMark (marks : Str → Mark) (name : Str) (change : Mark → Mark) : Str → Mark :=
  fun other => if other = name then change (marks other) else marks other

def bookkeeping : List Str := ["ANCHOR_QUORUM", "ANCHOR_EXTERNAL", "PEER_ROOT"]

structure Host where
  chain : WitnessChain
  kinds : ∀ record ∈ chain.records, (subscript record "kind").isOk = true

def kindOf (record : Json) : Json := (subscript record "kind").toOption.getD .null

def isNews (record : Json) : Bool := !isOneOf (kindOf record) bookkeeping

def hasNews (records : List Json) (after : Nat) : Bool := (records.drop after).any isNews

namespace Host

variable (crypto : Crypto)

def append (host : Host) (call : AppendCall) : Py Host :=
  match made : host.chain.append crypto call with
  | .error e => .error e
  | .ok appended => .ok {
    chain := appended.chain
    kinds := by
      obtain ⟨same, kind, _⟩ := WitnessChain.append_adds made
      intro record member
      rw [same] at member
      rcases List.mem_append.mp member with before | last
      · exact host.kinds record before
      · rw [List.mem_singleton.mp last, kind]
        rfl }

end Host

/-- What the scheduler does with clock readings: `0.0`, `now >= t`, and `now + retry_backoff_s`. -/
structure Clock (Time : Type) where
  zero : Time
  reached : Time → Time → Bool
  later : Time → Time

/-- `AnchorScheduler`; its dicts by backend are `marks`. -/
structure AnchorScheduler (Time : Type) where
  host : Host
  backends : List Str
  some_backend : backends ≠ []
  required : List Str
  log : AnchorLog
  marks : Str → Mark
  nextRetry : Time
  lastAttempt : Option Time := none

inductive RoundResult where
  | skipped
  | retried (receipts : List Json)
  | anchored (receipts : List Json)

namespace AnchorScheduler

variable {Time : Type}

/-- The backends a policy requires; without one, all that are not local. -/
def requiredBackends (names : List Str) : Option (List Str) → List Str
  | none => (names.filter (fun name => name ∉ localBackends)).filter (fun name => name ∈ names)
  | some given => given.filter (fun name => name ∈ names)

/-- The loop of the constructor over the receipts of the log. -/
def replayLog (nodeId : Str) (names : List Str) : (Str → Mark) → List Json → Py (Str → Mark)
  | marks, [] => return marks
  | marks, r :: rest => do
    if (← dotGet r "node") ≠ .str nodeId then
      replayLog nodeId names marks rest
    else
      let backend ← dotGet r "backend"
      let count ← pyInt (← getDefault r "count" (.int 0))
      if !hashable backend then raise .typeError
      match backend with
      | .str name =>
        if name ∈ names then
          let status ← dotGet r "status"
          let ts ← dotGet r "ts"
          -- The marks are never negative, so a negative count leaves them.
          replayLog nodeId names (changeMark marks name (fun mark => mark.replay status ts count.toNat)) rest
        else replayLog nodeId names marks rest
      | _ => replayLog nodeId names marks rest

variable (crypto : Crypto) (clock : Clock Time)

def make (host : Host) (backends : List Str) (given : Option (List Str)) (log : AnchorLog) :
    Py (AnchorScheduler Time) :=
  if some_backend : backends = [] then raise .anchorError "anchor scheduler needs at least one backend"
  else do
    let marks ← replayLog (host.chain.nodeId crypto) backends (fun _ => {}) log.receipts
    return {
      host, backends, some_backend, log, marks
      required := requiredBackends backends given
      nextRetry := clock.zero }

def covered (s : AnchorScheduler Time) : Nat :=
  let names := if s.required = [] then s.backends else s.required
  ((names.map (fun name => (s.marks name).covered)).min?).getD 0

/-- How far a backend has settled or holds a proof. -/
def submitted (s : AnchorScheduler Time) (name : Str) : Nat := max (s.marks name).covered (s.marks name).custody

def behind (s : AnchorScheduler Time) (records : List Json) : List Str :=
  s.required.filter (fun name => hasNews records (s.submitted name))

def attemptedMax (s : AnchorScheduler Time) : Nat :=
  (s.backends.map (fun name => (s.marks name).attempted)).foldr max 0

/-- Whether there are records worth a round that no attempt has covered. -/
def substantive (s : AnchorScheduler Time) : Bool := hasNews s.host.chain.records s.attemptedMax

/-- Whether a backend is behind and the time for another try has come. -/
def retryDue (s : AnchorScheduler Time) (now : Time) : Bool :=
  s.behind s.host.chain.records ≠ [] && clock.reached now s.nextRetry

/-- The backends a round asks: on a bare retry only those that are behind. -/
def targets (s : AnchorScheduler Time) (now : Time) : List Str :=
  if s.retryDue clock now && !s.substantive then
    s.backends.filter (fun name => name ∈ s.behind s.host.chain.records)
  else s.backends

/-- An answer is journalled, and then counted for the backend that was asked. -/
def receive (s : AnchorScheduler Time) (backend : Str) (rec : Json) (count : Nat) :
    AnchorScheduler Time × Py Unit :=
  match s.log.add rec with
  | (log, .error e) => ({ s with log }, .error e)
  | (log, .ok ()) =>
    let s := { s with log, marks := changeMark s.marks backend (fun mark => mark.attempt count) }
    let read : Py (Json × Json) := do
      let status ← dotGet rec "status"
      -- The log has refused an answer without `ts`.
      let ts ← dotGet rec "ts"
      return (status, ts)
    match read with
    | .error e => (s, .error e)
    | .ok (status, ts) =>
      ({ s with marks := changeMark s.marks backend (fun mark => mark.answered status ts count) }, .ok ())

/-- The loop of a round over its targets; `answers` says what each is answered. -/
def submitAll (count : Nat) (answers : Nat → Json) :
    AnchorScheduler Time → Nat → List Str → AnchorScheduler Time × Py (List Json)
  | s, _, [] => (s, .ok [])
  | s, i, backend :: rest =>
    match s.receive backend (answers i) count with
    | (s, .error e) => (s, .error e)
    | (s, .ok ()) =>
      match submitAll count answers s (i + 1) rest with
      | (s, .error e) => (s, .error e)
      | (s, .ok receipts) => (s, .ok (answers i :: receipts))

theorem submitAll_cons (count : Nat) (answers : Nat → Json) (s : AnchorScheduler Time) (i : Nat)
    (backend : Str) (rest : List Str) :
    submitAll count answers s i (backend :: rest) =
      match s.receive backend (answers i) count with
      | (s, .error e) => (s, .error e)
      | (s, .ok ()) =>
        match submitAll count answers s (i + 1) rest with
        | (s, .error e) => (s, .error e)
        | (s, .ok receipts) => (s, .ok (answers i :: receipts)) := rfl

def gather (s : AnchorScheduler Time) (now : Time) (answers : Nat → Json) :
    AnchorScheduler Time × Py (List Json) :=
  submitAll s.host.chain.records.length answers { s with lastAttempt := some now } 0 (s.targets clock now)

def hasTerminal (receipts : List Json) : Py Bool :=
  receipts.anyM (fun r => do return isOneOf (← dotGet r "status") terminalSuccess)

def external (s : AnchorScheduler Time) (count : Nat) (root : Json) (receipts : List Json)
    (timestamp : Str) (salt : Bytes) : Py AppendCall := do
  let backends ← receipts.mapM (fun r => do
    let backend ← subscript r "backend"
    let status ← subscript r "status"
    return Json.obj [("backend", backend), ("status", status)])
  return {
    kind := "ANCHOR_EXTERNAL"
    response := .obj [("receipts", .arr receipts)]
    semanticDigest := .obj [("count", .int count), ("root", root), ("root_alg", .str "rfc6962"),
      ("backends", .arr backends), ("covered", .int s.covered)]
    timestamp := .str timestamp
    responseSalt := salt }

/-- The end of a round: the record, unless a retry has changed nothing. -/
def conclude (s : AnchorScheduler Time) (count : Nat) (root : Json) (substantive : Bool)
    (receipts : List Json) (timestamp : Str) (salt : Bytes) : AnchorScheduler Time × Py RoundResult :=
  let ended : Py (Option Host) := do
    let progressed ← hasTerminal receipts
    if !progressed && !substantive then return none
    let call ← s.external count root receipts timestamp salt
    let host ← s.host.append crypto call
    return some host
  match ended with
  | .error e => (s, .error e)
  | .ok none => (s, .ok (.retried receipts))
  | .ok (some host) => ({ s with host }, .ok (.anchored receipts))

/-- `_anchor_round`, under the lock of `anchor_now`. -/
def anchorRound (s : AnchorScheduler Time) (now : Time) (answers : Nat → Json) (timestamp : Str)
    (salt : Bytes) : AnchorScheduler Time × Py RoundResult :=
  match Replication.chainRoot crypto s.host.chain with
  | .error e => (s, .error e)
  | .ok root =>
    let records := s.host.chain.records
    let count := records.length
    if count = 0 ∨ ¬(s.substantive || s.retryDue clock now) then (s, .ok .skipped)
    else
      let substantive := s.substantive
      match s.gather clock now answers with
      | (s, .error e) => (s, .error e)
      | (s, .ok receipts) =>
        let stillBehind := s.behind records
        let nextRetry := if stillBehind ≠ [] then clock.later now else clock.zero
        { s with nextRetry }.conclude crypto count root substantive receipts timestamp salt

end AnchorScheduler

end JJDai
