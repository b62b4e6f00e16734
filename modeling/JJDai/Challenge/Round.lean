import JJDai.Primitive.Witness

/-! `core.challenge`: one adversarial verification round on the witness chain, with
sealed verdicts, reveals and fraud proofs. -/

namespace JJDai.Challenge

open PyText Canonical



def challengeKind : Str := "CHALLENGE"

def sortitionDomain : Bytes := ascii "jjdai:challenge:sortition:v1:"

def mismatchType : Str := "commit-reveal-mismatch"

/-- The clock's readings, the windows laid on them, how a reading stands in a digest, and
the two things the round is handed: `vrf_verify` and whether there is a registry. -/
structure Setting (Time : Type) where
  commitDeadline : Time → Time
  revealDeadline : Time → Time
  timeJson : Time → Json
  vrfVerify : Bytes → Bytes → Bytes → Py Bytes
  registry : Bool

/-- Windows of thirty units, and a verifier key that is its own proof. -/
def Setting.sample : Setting Nat where
  commitDeadline t := t + 30
  revealDeadline t := t + 60
  timeJson t := .float (.finite (.ofDigits false t 0))
  vrfVerify pub alpha proof :=
    if proof = pub then .ok (Crypto.sample.H (pub ++ alpha))
    else raise .valueError "VRF verify: challenge mismatch"
  registry := true

structure Seat where
  beta : Bytes
  proof : Json

structure Commit where
  commitment : Json
  index : Nat

structure Reveal where
  verdict : Json
  salt : Json

structure Fraud (Time : Type) where
  roundId : Json
  verifier : Str
  index : Nat
  committed : Json
  verdict : Json
  salt : Json
  recomputed : Str
  t : Time

structure Summary where
  outcome : Dict Str Json
  roundId : Json
  seats : List Str
  revealed : List Str
  abstained : List Str
  frauds : List Str

structure Round (Time : Type) where
  transcript : Json
  alpha : Bytes
  eligible : Dict Str Json
  k : Int
  commitDeadline : Time
  revealDeadline : Time
  seats : Dict Str Seat := []
  commits : Dict Str Commit := []
  reveals : Dict Str Reveal := []
  frauds : List (Fraud Time) := []
  resolved : Option Summary := none

/-- A `ChallengeRound` with its chain, and the calls it has made to `registry.slash`. -/
structure State (Time : Type) where
  chain : WitnessChain
  rounds : Dict Json (Round Time) := []
  slashed : List Str := []

def sampleState : State Nat where
  chain := { sk := .sample 1, records := [] }

/-- What a call does not choose: the clock, the two writes and the salt. -/
structure Circumstance (Time : Type) where
  now : Time
  written : Bool := true
  logged : Bool := true
  salt : Bytes := []

variable {Time : Type} (crypto : Crypto) (setting : Setting Time)

def strList (names : List Str) : Json := .arr (names.map .str)

def sortStrs (names : List Str) : List Str := names.insertionSort (· ≤ ·)

def sortitionAlpha (roundId transcript : Json) : Py Bytes := do
  let data ← canonical (.obj [("round_id", roundId), ("transcript_hash", transcript)])
  return sortitionDomain ++ data

def bigEndian (data : Bytes) : Nat := data.foldl (fun n b => n * 256 + b.toNat) 0

def isSelected (beta : Bytes) (k : Int) (n : Nat) : Py Bool := do
  if ¬(0 < k ∧ k ≤ n) then
    raise .challengeError ("threshold needs 0 < k <= n, got k=" ++ intText k ++ " n=" ++ natText n)
  return decide ((bigEndian (beta.take 8) : Int) < k * 2 ^ 64 / n)

def makeCommitment (roundId verifier verdict salt : Json) : Py Str := do
  let data ← canonical (.obj [("round_id", roundId), ("verifier", verifier), ("verdict", verdict),
    ("salt", salt)])
  return H_hex crypto data

/-- The key of a dict that a value equals; an unhashable value raises. -/
def roundKey (roundId : Json) : Py Json := do
  if !hashable roundId then raise .typeError
  return roundId.comparisonKey

/-- An identifier looked up in a dict whose keys are strings. -/
def lookupId (d : Dict Str ν) (verifier : Json) : Py (Option (Str × ν)) := do
  if !hashable verifier then raise .typeError
  match verifier with
  | .str name => return (Dict.get? d name).map (fun value => (name, value))
  | _ => return none

def findRound (state : State Time) (roundId : Json) : Py (Round Time) := do
  match Dict.get? state.rounds (← roundKey roundId) with
  | some round => return round
  | none => raise .challengeError ("unknown round " ++ reprJson roundId)

/-- A call that is let through: the round it stores before its record is appended, the
record's digest, and what follows once the record is on the chain. -/
structure Deed (Time : Type) where
  key : Json
  round : Round Time
  logs : Bool := false
  digest : Json
  later : Nat → Round Time
  slash : List Str := []
  answer : Nat → Py Json

def witness (state : State Time) (circumstance : Circumstance Time) (digest : Json) :
    State Time × Py Nat :=
  let call : AppendCall := {
    kind := challengeKind, request := .obj [], semanticDigest := digest
    requestSalt := circumstance.salt }
  match state.chain.append crypto call with
  | .error e => (state, .error e)
  | .ok appended =>
    if circumstance.written then
      ({ state with chain := appended.chain }, .ok (appended.chain.records.length - 1))
    else (state, raise .osError)

/-- The order every call keeps: the round, the fraud log, the record, the rest. -/
def perform (state : State Time) (circumstance : Circumstance Time) (deed : Deed Time) :
    State Time × Py Json :=
  let state := { state with rounds := Dict.set state.rounds deed.key deed.round }
  if deed.logs && !circumstance.logged then (state, raise .osError)
  else
    match witness crypto state circumstance deed.digest with
    | (state, .error e) => (state, .error e)
    | (state, .ok index) =>
      ({ state with
          rounds := Dict.set state.rounds deed.key (deed.later index)
          slashed := state.slashed ++ deed.slash }, deed.answer index)

/-- A record that changes no round and ends in a refusal. -/
def refusal (key : Json) (round : Round Time) (digest : Dict Str Json) (text : Str) : Deed Time where
  key := key
  round := round
  digest := .obj digest
  later _ := round
  answer _ := raise .challengeError text

def openDeed (key roundId : Json) (round : Round Time) : Deed Time where
  key := key
  round := round
  digest := .obj [("phase", .str "open"), ("round_id", roundId), ("transcript_hash", round.transcript),
    ("alpha_hash", .str (H_hex crypto round.alpha)),
    ("eligible", strList (sortStrs (Dict.keys round.eligible))), ("k", .int round.k),
    ("commit_deadline", setting.timeJson round.commitDeadline),
    ("reveal_deadline", setting.timeJson round.revealDeadline)]
  later _ := round
  answer _ := .ok (.obj [("round_id", roundId), ("alpha", .str (toHex round.alpha)),
    ("commit_deadline", setting.timeJson round.commitDeadline),
    ("reveal_deadline", setting.timeJson round.revealDeadline)])

def openRound (state : State Time) (now : Time) (roundId transcript : Json)
    (eligible : Dict Str Json) (k : Int) : Py (Deed Time) := do
  let key ← roundKey roundId
  if (Dict.get? state.rounds key).isSome then
    raise .challengeError ("round " ++ reprJson roundId ++ " already open")
  if eligible = [] then raise .challengeError "no eligible verifiers"
  if ¬(0 < k ∧ k ≤ eligible.length) then raise .challengeError "need 0 < k <= len(eligible)"
  let alpha ← sortitionAlpha roundId transcript
  let round : Round Time := {
    transcript := transcript, alpha := alpha, eligible := eligible, k := k
    commitDeadline := setting.commitDeadline now, revealDeadline := setting.revealDeadline now }
  return openDeed crypto setting key roundId round

def seatDeed (key : Json) (round : Round Time) (roundId : Json) (name : Str) (seat : Seat)
    (won : Bool) : Deed Time where
  key := key
  round := round
  digest := .obj [("phase", .str "seat"), ("round_id", roundId), ("verifier", .str name),
    ("won", .bool won), ("beta_hash", .str (H_hex crypto seat.beta))]
  later _ := if won then { round with seats := Dict.set round.seats name seat } else round
  answer _ := .ok (.bool won)

/-- `claim_seat`; no deed for a seat that is held. -/
def claimSeat (state : State Time) (roundId verifier proof : Json) : Py (Option (Deed Time)) := do
  let key ← roundKey roundId
  let round ← findRound state roundId
  match ← lookupId round.eligible verifier with
  | none => raise .challengeError (reprJson verifier ++ " is not eligible")
  | some (name, pub) =>
    if (Dict.get? round.seats name).isSome then return none
    match (do setting.vrfVerify (← bytesFromHex pub) round.alpha (← bytesFromHex proof)) with
    | .error e =>
      if !e.isValueError then .error e
      let detail ← encode e.text
      return some (refusal key round [("phase", .str "seat_refused"), ("round_id", roundId),
        ("verifier", .str name), ("reason_code", .str "vrf_invalid"),
        ("detail_hash", .str (H_hex crypto detail))] ("seat claim refused: " ++ e.text))
    | .ok beta =>
      let won ← isSelected beta round.k round.eligible.length
      return some (seatDeed crypto key round roundId name { beta := beta, proof := proof } won)

def commitDeed (key : Json) (round : Round Time) (roundId : Json) (name : Str) (commitment : Json) :
    Deed Time where
  key := key
  round := round
  digest := .obj [("phase", .str "commit"), ("round_id", roundId), ("verifier", .str name),
    ("commitment", commitment)]
  later index := { round with
    commits := Dict.set round.commits name { commitment := commitment, index := index } }
  answer index := .ok (.int index)

def commit (state : State Time) (now : Time) [LT Time] [DecidableLT Time]
    (roundId verifier commitment : Json) : Py (Deed Time) := do
  let key ← roundKey roundId
  let round ← findRound state roundId
  match ← lookupId round.seats verifier with
  | none => raise .challengeError (reprJson verifier ++ " holds no seat")
  | some (name, _) =>
    if round.commitDeadline < now then raise .challengeError "commit window closed"
    if (Dict.get? round.commits name).isSome then
      return refusal key round [("phase", .str "double_commit_refused"), ("round_id", roundId),
        ("verifier", .str name)] "verdict already committed — commitments are not replaceable"
    return commitDeed key round roundId name commitment

def fraudDigest (fraud : Fraud Time) : Json :=
  .obj [("phase", .str "fraud"), ("type", .str mismatchType), ("round_id", fraud.roundId),
    ("verifier", .str fraud.verifier), ("commit_witness_index", .int fraud.index),
    ("committed", fraud.committed), ("revealed_verdict", fraud.verdict),
    ("revealed_salt", fraud.salt), ("recomputed", .str fraud.recomputed),
    ("t", setting.timeJson fraud.t)]

/-- The deed of a reveal that does not open its commitment. -/
def accuse (key : Json) (round : Round Time) (fraud : Fraud Time) : Deed Time where
  key := key
  round := { round with frauds := round.frauds ++ [fraud] }
  logs := true
  digest := fraudDigest setting fraud
  later _ := { round with frauds := round.frauds ++ [fraud] }
  slash := if setting.registry then [fraud.verifier] else []
  answer _ := raise .challengeError "reveal does not match the sealed commitment — fraud proof recorded"

/-- The deed of a reveal that opens its commitment. -/
def publish (key : Json) (round : Round Time) (roundId : Json) (name : Str) (verdict salt : Json) :
    Deed Time where
  key := key
  round := { round with reveals := Dict.set round.reveals name { verdict := verdict, salt := salt } }
  digest := .obj [("phase", .str "reveal"), ("round_id", roundId), ("verifier", .str name),
    ("verdict", verdict)]
  later _ := { round with reveals := Dict.set round.reveals name { verdict := verdict, salt := salt } }
  answer _ := .ok verdict

/-- How `reveal` finds the verdict it is handed. -/
inductive Judgement (Time : Type) where
  | late (key : Json) (round : Round Time) (name : Str)
  | mismatched (key : Json) (round : Round Time) (fraud : Fraud Time)
  | opened (key : Json) (round : Round Time) (name : Str)

def judge (state : State Time) (now : Time) [LT Time] [DecidableLT Time]
    (roundId verifier verdict salt : Json) : Py (Judgement Time) := do
  let key ← roundKey roundId
  let round ← findRound state roundId
  match ← lookupId round.commits verifier with
  | none => raise .challengeError (reprJson verifier ++ " committed nothing")
  | some (name, com) =>
    if round.revealDeadline < now then return .late key round name
    let expect ← makeCommitment crypto roundId verifier verdict salt
    if com.commitment ≠ .str expect then
      return .mismatched key round {
        roundId := roundId, verifier := name, index := com.index, committed := com.commitment
        verdict := verdict, salt := salt, recomputed := expect, t := now }
    return .opened key round name

def reveal (state : State Time) (now : Time) [LT Time] [DecidableLT Time]
    (roundId verifier verdict salt : Json) : Py (Deed Time) := do
  match ← judge crypto state now roundId verifier verdict salt with
  | .late key round name =>
    return refusal key round [("phase", .str "late_reveal_refused"), ("round_id", roundId),
        ("verifier", .str name)] "reveal window closed — seat resolves as ABSTAINED"
  | .mismatched key round fraud => return accuse setting key round fraud
  | .opened key round name => return publish key round roundId name verdict salt

/-- The verdict of each verifier that is counted. -/
def validReveals (reveals : Dict Str Reveal) (fraudsters : List Str) : Dict Str Json :=
  (reveals.filter (fun entry => entry.1 ∉ fraudsters)).map (fun entry => (entry.1, entry.2.verdict))

/-- One round of the loop over the valid verdicts. -/
def castVote (votes : Dict Str (Json × List Str)) (entry : Str × Json) :
    Py (Dict Str (Json × List Str)) := do
  let data ← canonical entry.2
  let key := H_hex crypto data
  match Dict.get? votes key with
  | some (verdict, voters) => return Dict.set votes key (verdict, voters ++ [entry.1])
  | none => return Dict.set votes key (entry.2, [entry.1])

/-- `max` keeps the first of the greatest: more voters, then the later names. -/
def betterVote (a b : Json × List Str) : Bool :=
  decide (a.2.length < b.2.length) ||
    (decide (a.2.length = b.2.length) && decide (sortStrs a.2 < sortStrs b.2))

def bestVote : List (Json × List Str) → Option (Json × List Str)
  | [] => none
  | vote :: rest => some (rest.foldl (fun best other => if betterVote best other then other else best) vote)

/-- The summary of a round's seats, reveals and frauds. -/
def tally (roundId : Json) (seats : List Str) (reveals : Dict Str Reveal) (fraudsters : List Str) :
    Py Summary := do
  let valid := validReveals reveals fraudsters
  let votes ← valid.foldlM (castVote crypto) []
  let outcome : Dict Str Json :=
    match bestVote (votes.map Prod.snd) with
    | some (verdict, voters) => [("status", .str "resolved"), ("verdict", verdict),
        ("supporters", strList (sortStrs voters)), ("unanimous", .bool (votes.length = 1))]
    | none => [("status", .str "unresolved"), ("reason_code", .str "no_valid_reveals")]
  return {
    outcome := outcome, roundId := roundId
    seats := sortStrs seats, revealed := sortStrs (Dict.keys valid)
    abstained := sortStrs (seats.filter (fun name => name ∉ Dict.keys valid ∧ name ∉ fraudsters))
    frauds := fraudsters }

def Summary.fields (summary : Summary) : Dict Str Json :=
  summary.outcome ++ ([("round_id", summary.roundId), ("seats", strList summary.seats),
    ("revealed", strList summary.revealed), ("abstained", strList summary.abstained),
    ("frauds", .arr (summary.frauds.map (fun name =>
      .obj [("verifier", .str name), ("type", .str mismatchType)])))] : Dict Str Json)

def fraudsters (round : Round Time) : List Str := round.frauds.map Fraud.verifier

def resolveDeed (key : Json) (round : Round Time) (summary : Summary) : Deed Time where
  key := key
  round := { round with resolved := some summary }
  digest := .obj (("phase", .str "resolve") :: summary.fields)
  later _ := { round with resolved := some summary }
  answer _ := .ok (.obj summary.fields)

/-- `resolve`; a resolved round answers what it answered before, without a deed. -/
def resolve (state : State Time) (now : Time) [LT Time] [DecidableLT Time] (roundId : Json) :
    Py (Summary × Option (Deed Time)) := do
  let key ← roundKey roundId
  let round ← findRound state roundId
  match round.resolved with
  | some summary => return (summary, none)
  | none =>
    if now < round.revealDeadline then raise .challengeError "reveal window still open"
    let summary ← tally crypto roundId (Dict.keys round.seats) round.reveals (fraudsters round)
    return (summary, some (resolveDeed key round summary))

inductive Call where
  | openRound (roundId transcript : Json) (eligible : Dict Str Json) (k : Int)
  | claimSeat (roundId verifier proof : Json)
  | commit (roundId verifier commitment : Json)
  | reveal (roundId verifier verdict salt : Json)
  | resolve (roundId : Json)

/-- What a call amounts to: a refusal, an answer without a record, or a deed. -/
def decideCall (state : State Time) (now : Time) [LT Time] [DecidableLT Time] :
    Call → Py (Json ⊕ Deed Time)
  | .openRound roundId transcript eligible k => do
    return .inr (← openRound crypto setting state now roundId transcript eligible k)
  | .claimSeat roundId verifier proof => do
    match ← claimSeat crypto setting state roundId verifier proof with
    | none => return .inl (.bool true)
    | some deed => return .inr deed
  | .commit roundId verifier commitment => do
    return .inr (← commit state now roundId verifier commitment)
  | .reveal roundId verifier verdict salt => do
    return .inr (← reveal crypto setting state now roundId verifier verdict salt)
  | .resolve roundId => do
    match ← resolve crypto state now roundId with
    | (summary, none) => return .inl (.obj summary.fields)
    | (_, some deed) => return .inr deed

def invoke [LT Time] [DecidableLT Time] (state : State Time) (circumstance : Circumstance Time)
    (call : Call) : State Time × Py Json :=
  match decideCall crypto setting state circumstance.now call with
  | .error e => (state, .error e)
  | .ok (.inl answer) => (state, .ok answer)
  | .ok (.inr deed) => perform crypto state circumstance deed

/-- A call, or a record that another component appends to the chain. -/
inductive Action (Time : Type) where
  | call (circumstance : Circumstance Time) (call : Call)
  | record (call : AppendCall) (other : call.kind ≠ challengeKind)

def step [LT Time] [DecidableLT Time] (state : State Time) : Action Time → State Time
  | .call circumstance call => (invoke crypto setting state circumstance call).1
  | .record call _ =>
    match state.chain.append crypto call with
    | .ok appended => { state with chain := appended.chain }
    | .error _ => state

/-- The record is the commitment the accusation names. -/
def namesCommit (rec digest : Json) (fraud : Dict Str Json) : Py Bool := do
  if (← dotGet rec "kind") ≠ .str challengeKind then return false
  if (← dotGet digest "phase") ≠ .str "commit" then return false
  if ¬Json.pyEq (← dotGet digest "round_id") (← subscript (.obj fraud) "round_id") then return false
  if ¬Json.pyEq (← dotGet digest "verifier") (← subscript (.obj fraud) "verifier") then return false
  if ¬Json.pyEq (← dotGet digest "commitment") (← subscript (.obj fraud) "committed") then
    return false
  return true

def verifyFraudProof (fraud : Dict Str Json) (records : List Json) : Py (Bool × Str) := do
  let type := (Dict.get? fraud "type").getD .null
  if type ≠ .str mismatchType then return (false, "unknown fraud type " ++ reprJson type)
  match (asInt? ((Dict.get? fraud "commit_witness_index").getD .null)).bind
      (fun index => if 0 ≤ index then records[index.toNat]? else none) with
  | none => return (false, "commit witness index out of range")
  | some rec =>
    let held ← dotGet rec "semantic_digest"
    let digest := if truthy held then held else .obj []
    if !(← namesCommit rec digest fraud) then
      return (false, "witnessed commitment does not match the accusation")
    let roundId ← subscript (.obj fraud) "round_id"
    let verifier ← subscript (.obj fraud) "verifier"
    let verdict ← subscript (.obj fraud) "revealed_verdict"
    let salt ← subscript (.obj fraud) "revealed_salt"
    let recomputed ← makeCommitment crypto roundId verifier verdict salt
    if Json.pyEq (.str recomputed) (← subscript (.obj fraud) "committed") then
      return (false, "reveal actually matches the commitment — no fraud")
    return (true, "fraud confirmed: sealed one verdict, revealed another")

end JJDai.Challenge
