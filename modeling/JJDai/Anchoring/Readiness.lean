import JJDai.Anchoring.Ratchet

/-! `node.readiness`, anchoring: what the scheduler reports, and the rule over it. -/

namespace JJDai

open PyText

structure BackendStatus where
  required : Bool
  never : Bool
  inCustody : Bool
  behind : Bool
  lastSuccessAt : Json
  covered : Nat
  custody : Nat
  depth : Nat

/-- `anchor_status()`, without the copies of the scheduler's own dicts. -/
structure AnchorStatus where
  requiredBackends : List Str
  externalConfigured : Bool
  inCustody : List Str
  covered : Nat
  count : Nat
  unanchoredDepth : Nat
  lastSuccessAt : Json
  behind : List Str
  neverSucceeded : Bool
  configuredBackends : List Str
  shadowBackends : List Str
  perBackend : Dict Str BackendStatus

def depthAfter (records : List Json) (after : Nat) : Nat := (records.drop after).countP isNews

namespace AnchorScheduler

variable {Time : Type} (crypto : Crypto)

def backendStatus (s : AnchorScheduler Time) (name : Str) : BackendStatus where
  required := name ∈ s.required
  never := (s.marks name).lastSuccess = .null
  inCustody := (s.marks name).covered < (s.marks name).custody
  behind := name ∈ s.behind s.host.chain.records
  lastSuccessAt := (s.marks name).lastSuccess
  covered := (s.marks name).covered
  custody := (s.marks name).custody
  depth := depthAfter s.host.chain.records (s.submitted name)

/-- The earliest of the last successes, once every required backend has one. -/
def lastSuccessAt (s : AnchorScheduler Time) : Py Json :=
  let succ := (s.required.map (fun name => (s.marks name).lastSuccess)).filter truthy
  match succ with
  | [] => .ok .null
  | first :: rest => if succ.length = s.required.length then pyMin first rest else .ok .null

def anchorStatus (s : AnchorScheduler Time) : Py AnchorStatus := do
  let _ ← Replication.chainRoot crypto s.host.chain
  let records := s.host.chain.records
  let lastSuccessAt ← s.lastSuccessAt
  return {
    requiredBackends := s.required
    externalConfigured := s.required ≠ []
    inCustody := s.required.filter (fun name => (s.marks name).covered < (s.marks name).custody)
    covered := s.covered
    count := records.length
    unanchoredDepth := depthAfter records s.covered
    lastSuccessAt
    behind := s.behind records
    neverSucceeded := s.required.any (fun name => (s.marks name).lastSuccess = .null)
    configuredBackends := s.backends.eraseDups
    shadowBackends := s.backends.eraseDups.filter (fun name => name ∉ s.required ∧ name ∉ localBackends)
    perBackend := s.backends.eraseDups.map (fun name => (name, s.backendStatus name)) }

end AnchorScheduler

/-- The lag since a time in a receipt, at the moment of asking. -/
structure LagClock (Lag : Type) where
  since : Json → Py Lag
  longest : Lag → Lag → Lag

structure BackendFacts (Lag : Type) where
  required : Bool
  never : Bool
  inCustody : Bool
  behind : Bool
  depth : Nat
  lag : Option Lag

/-- The anchoring part of a readiness snapshot. -/
structure AnchorSnapshot (Lag : Type) where
  configured : Bool
  externalConfigured : Bool
  required : List Str
  configuredBackends : List Str
  shadowBackends : List Str
  backendFacts : Dict Str (BackendFacts Lag)
  unanchoredDepth : Nat
  lag : Option Lag

section Facts

variable {Lag : Type} (clock : LagClock Lag)

def lagSince (last : Json) : Py (Option Lag) :=
  if truthy last then (clock.since last).map some else .ok none

def backendFactsOf (f : BackendStatus) : Py (BackendFacts Lag) := do
  let lag ← lagSince clock f.lastSuccessAt
  return {
    required := f.required
    never := f.never
    inCustody := f.inCustody
    behind := f.behind
    depth := f.depth
    lag }

def longestLag (lags : List Lag) : Option Lag :=
  match lags with
  | [] => none
  | first :: rest => some (rest.foldl clock.longest first)

def anchorFacts (status : AnchorStatus) : Py (AnchorSnapshot Lag) := do
  let per ← status.perBackend.mapM (fun entry => do
    let facts ← backendFactsOf clock entry.2
    return (entry.1, facts))
  return {
    configured := true
    externalConfigured := status.externalConfigured
    required := status.requiredBackends
    configuredBackends := status.configuredBackends
    shadowBackends := status.shadowBackends
    backendFacts := per
    unanchoredDepth := status.unanchoredDepth
    lag := longestLag clock ((per.filter (fun entry => entry.2.required)).filterMap (fun entry => entry.2.lag)) }

end Facts

inductive Readiness where
  | ready | degraded | notReady | notConfigured
  deriving DecidableEq

/-- The policies: the reason a lag breaks one, and the depth allowed, 0 for any. -/
structure AnchorPolicy (Lag : Type) where
  overLag : Lag → Option Str
  maxDepth : Nat

def AnchorPolicy.none {Lag : Type} : AnchorPolicy Lag where
  overLag := fun _ => .none
  maxDepth := 0

structure AnchorReport (Lag : Type) where
  state : Readiness
  reason : Str
  lag : Option Lag := none
  unanchoredDepth : Nat := 0
  required : List Str := []
  backends : Dict Str Readiness := []
  shadow : List Str := []
  behind : List Str := []
  inCustody : List Str := []

section Rule

variable {Lag : Type} (policy : AnchorPolicy Lag)

def backendAnchorState (f : BackendFacts Lag) : Readiness × Str :=
  let overLag := f.lag.bind policy.overLag
  let overDepth := policy.maxDepth ≠ 0 ∧ policy.maxDepth < f.depth
  if overLag.isSome ∨ overDepth then
    let depthText : List Str := if overDepth then
      [natText f.depth ++ " unanchored over policy " ++ natText policy.maxDepth] else []
    (.notReady, joinWith "; " (overLag.toList ++ depthText))
  else if f.never ∧ ¬f.inCustody then
    if 0 < f.depth then
      (.notReady, "has never anchored and " ++ natText f.depth ++ " substantive record(s) are waiting")
    else (.degraded, "no successful anchor yet; nothing substantive waits")
  else if f.inCustody then (.degraded, "proof in custody, not yet settled")
  else if f.behind then (.degraded, "behind on substantive records")
  else (.ready, [])

/-- One turn of the loop over the required backends. -/
def requiredState (facts : Dict Str (BackendFacts Lag)) (name : Str) : Readiness × Str :=
  match Dict.get? facts name with
  | none => (.notReady, "no measurement (absent is not green)")
  | some f => backendAnchorState policy f

def evaluateAnchoring (snap : AnchorSnapshot Lag) : AnchorReport Lag :=
  if !snap.configured then
    { state := .notConfigured, reason := "no anchor backends configured on this node" }
  else if !snap.externalConfigured then
    { state := .notConfigured
      reason := "only a local anchor backend is configured — external anchoring is not set up on this node"
      unanchoredDepth := snap.unanchoredDepth }
  else if snap.required = [] then
    { state := .notReady
      reason := "external anchoring is declared configured but no backend is required — the two facts " ++
        "contradict each other and the safe reading is not ready"
      lag := snap.lag
      unanchoredDepth := snap.unanchoredDepth }
  else
    let judged := snap.required.map (fun name => (name, requiredState policy snap.backendFacts name))
    let states := judged.foldl (fun states entry => Dict.set states entry.1 entry.2.1) []
    let reasons := (judged.filter (fun entry => entry.2.2 ≠ [])).map (fun entry =>
      entry.1 ++ Str.ofString ": " ++ entry.2.2)
    let values := states.map Prod.snd
    { state :=
        if .notReady ∈ values then .notReady else if .degraded ∈ values then .degraded else .ready
      reason := joinWith "; " reasons
      lag := snap.lag
      unanchoredDepth := snap.unanchoredDepth
      required := snap.required
      backends := states
      shadow := snap.shadowBackends
      behind := ((snap.backendFacts.filter (fun entry => entry.2.required && entry.2.behind)).map
        Prod.fst).insertionSort (· ≤ ·)
      inCustody := ((snap.backendFacts.filter (fun entry => entry.2.required && entry.2.inCustody)).map
        Prod.fst).insertionSort (· ≤ ·) }

end Rule

end JJDai
