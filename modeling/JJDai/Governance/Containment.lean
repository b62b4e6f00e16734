import JJDai.Lib.Run
import JJDai.Primitive.Canonical
import JJDai.Primitive.Crypto

/-! `core.containment`: the event-sourced containment ledger, with the slashes it has the
registry record. -/

namespace JJDai.Containment

open PyText Canonical

inductive Phase where
  | active | contained | corroborated | released | pendingGuardian
  deriving DecidableEq

structure Challenge where
  challenger : Str
  claim : Str
  kind : Str
  standing : Bool

structure Case (Time : Type) where
  phase : Phase := .active
  initiator : Option Str := none
  evidenceRefs : List Str := []
  reason : Str := []
  challenges : Dict Str Challenge := []
  verifications : Dict Str Bool := []
  containedAt : Option Time := none
  topic : Str := "global"
  initiatorQualified : Bool := true
  provisionalLowTrust : Bool := false
  qualifiedSupporters : List Str := []

inductive Event (Time : Type) where
  | contain (t : Time) (being initiator : Str) (evidenceRefs : List Str) (reason topic : Str)
      (initiatorQualified provisionalLowTrust : Bool)
  | verify (t : Time) (being verifier : Str) (supported verifierQualified : Bool)
  | challenge (t : Time) (being cid challenger claim kind : Str)
  | resolveChallenge (t : Time) (being cid : Str) (upheld : Bool)
  | corroborate (t : Time) (being : Str)
  | release (t : Time) (being grounds : Str) (slashTarget : Option Str)
  | rehabilitate (t : Time) (being guardian : Str)
  | proposeErasure (t : Time) (being proposer : Str)
  deriving DecidableEq

variable {Time : Type}

def Event.being : Event Time → Str
  | .contain _ being _ _ _ _ _ _ => being
  | .verify _ being _ _ _ => being
  | .challenge _ being _ _ _ _ => being
  | .resolveChallenge _ being _ _ => being
  | .corroborate _ being => being
  | .release _ being _ _ => being
  | .rehabilitate _ being _ => being
  | .proposeErasure _ being _ => being

/-- What an event makes of the being's case. -/
def Case.apply (case : Case Time) : Event Time → Case Time
  | .contain t _ initiator evidenceRefs reason topic initiatorQualified provisionalLowTrust =>
    { case with
      phase := .contained, initiator := some initiator, evidenceRefs := evidenceRefs
      reason := reason, containedAt := some t, topic := topic
      initiatorQualified := initiatorQualified, provisionalLowTrust := provisionalLowTrust
      verifications := [], qualifiedSupporters := [], challenges := [] }
  | .verify _ _ verifier supported verifierQualified =>
    let case := { case with verifications := Dict.set case.verifications verifier supported }
    if supported && verifierQualified then
      { case with
        qualifiedSupporters := case.qualifiedSupporters.insert verifier
        provisionalLowTrust := false }
    else case
  | .challenge _ _ cid challenger claim kind =>
    { case with challenges := Dict.set case.challenges cid ⟨challenger, claim, kind, true⟩ }
  | .resolveChallenge _ _ cid upheld =>
    match Dict.get? case.challenges cid with
    | some challenge =>
      { case with challenges := Dict.set case.challenges cid { challenge with standing := upheld } }
    | none => case
  | .corroborate _ _ => { case with phase := .corroborated }
  | .release _ _ _ _ => { case with phase := .released }
  | .rehabilitate _ _ _ =>
    { case with phase := .contained, verifications := [], qualifiedSupporters := [] }
  | .proposeErasure _ _ _ => { case with phase := .pendingGuardian }

/-- `_apply`: a containment makes the case when there is none, any other event needs it. -/
def applyEvent (cases : Dict Str (Case Time)) (event : Event Time) : Py (Dict Str (Case Time)) :=
  match event, Dict.get? cases event.being with
  | .contain .., none => return Dict.set cases event.being (Case.apply {} event)
  | _, some case => return Dict.set cases event.being (case.apply event)
  | _, none => raise .keyError event.being

def replay (events : List (Event Time)) : Py (Dict Str (Case Time)) := events.foldlM applyEvent []

/-- A slash event of the registry's journal. -/
structure Slash (Time : Type) where
  t : Time
  objectId : Str
  reason : Str
  penaltyMult : Json

/-- The ledger's own parameters, and how it reads its clock's values. -/
structure Setting (Time : Type) where
  nodeId : Str
  quorum : Int
  registry : Bool
  lowTrustMult : Json
  expired : Time → Time → Bool
  timeText : Time → Str

/-- A quorum of one, and orders that lapse after a hundred units. -/
def Setting.sample : Setting Nat where
  nodeId := "n"
  quorum := 1
  registry := true
  lowTrustMult := .float (.finite (.ofDigits false 15 (-1)))
  expired since now := decide (since + 100 ≤ now)
  timeText := natText

def Phase.name : Phase → Str
  | .active => "ACTIVE"
  | .contained => "CONTAINED"
  | .corroborated => "CORROBORATED"
  | .released => "RELEASED"
  | .pendingGuardian => "PENDING_GUARDIAN"

/-- What a call is answered: the clock's readings in turn, the resolver, the registry; and
after which journal write it is cut off, when the process stops or the chain's append
raises. -/
structure Circumstance (Time : Type) where
  now : Nat → Time
  resolve : List Str → Bool
  qualifies : Str → Str → Bool
  cut : Option Nat := none

/-- A clock that stands at ten, everybody qualified, and one answer of the resolver. -/
def Circumstance.sample (supported : Bool) (cut : Option Nat) : Circumstance Nat where
  now _ := 10
  resolve _ := supported
  qualifies _ _ := true
  cut := cut

/-- The cases in memory, and the two journals. -/
structure World (Time : Type) where
  cases : Dict Str (Case Time) := []
  journal : List (Event Time) := []
  slashes : List (Slash Time) := []

variable (crypto : Crypto) (setting : Setting Time) (circumstance : Circumstance Time)
  (world : World Time)

def qualified (node topic : Str) : Bool := !setting.registry || circumstance.qualifies node topic

def orSelf : Option Str → Str
  | some name => if name = [] then setting.nodeId else name
  | none => setting.nodeId

def Phase.isContained (phase : Phase) : Bool :=
  phase = .contained || phase = .corroborated || phase = .pendingGuardian

def isContained (being : Str) : Bool :=
  match Dict.get? world.cases being with
  | some case => case.phase.isContained
  | none => false

def require (being : Str) : Py (Case Time) :=
  match Dict.get? world.cases being with
  | none => raise .containmentError ("no active containment case for " ++ pyRepr being)
  | some case =>
    if case.phase = .active then
      raise .containmentError ("no active containment case for " ++ pyRepr being)
    else return case

def standingChallenges (case : Case Time) : List Str :=
  Dict.keys (case.challenges.filter (fun entry => entry.2.standing))

/-- Some verifier's finding does not support the containment. -/
def Case.unsupported (case : Case Time) : Bool := case.verifications.any (fun entry => !entry.2)

inductive Write (Time : Type) where
  | event (event : Event Time)
  | slash (slash : Slash Time)

def triggerUnsupported : Str := "trigger_unsupported"

def falseContainment (being : Str) : Str := Str.ofString "false containment of " ++ being

/-- `_release_false`: the release, and then the registry's slash. -/
def releaseFalse (being : Str) (case : Case Time) : List (Write Time) :=
  .event (.release (circumstance.now 1) being triggerUnsupported case.initiator) ::
    match case.initiator with
    | some initiator =>
      if setting.registry && initiator ≠ [] then
        [.slash {
          t := circumstance.now 2, objectId := initiator, reason := falseContainment being
          penaltyMult := if case.provisionalLowTrust then setting.lowTrustMult
            else .float (.finite (.ofDigits false 1 0)) }]
      else []
    | none => []

def settle (being : Str) (case : Case Time) : List (Write Time) :=
  if case.phase ≠ .contained ∧ case.phase ≠ .corroborated then []
  else if case.unsupported then releaseFalse setting circumstance being case
  else if setting.quorum ≤ case.qualifiedSupporters.length ∧ standingChallenges case = [] then
    if case.phase ≠ .corroborated then [.event (.corroborate (circumstance.now 1) being)] else []
  else []

/-- The operations, with what their callers pass. -/
inductive Call where
  | contain (being : Str) (evidenceRefs : List Str) (reason topic : Str) (initiator : Option Str)
  | verify (being : Str) (verifier : Option Str)
  | challenge (being challenger claim kind : Str)
  | resolveChallenge (being cid : Str) (upheld : Bool)
  | expireProvisional (being : Str)
  | rehabilitate (being guardian : Str)
  | proposeErasure (being proposer : Str)

def challengeId (being challenger claim : Str) (now : Time) : Py Str := do
  let data ← encode (joinWith "|" [being, challenger, claim, setting.timeText now])
  return (H_hex crypto data).take 16

/-- The event a verifier's finding is recorded as. -/
def finding (being : Str) (verifier : Option Str) (case : Case Time) : Event Time :=
  .verify (circumstance.now 0) being (orSelf setting verifier) (circumstance.resolve case.evidenceRefs)
    (qualified setting circumstance (orSelf setting verifier) case.topic)

/-- What a call writes to the journals, in its order, when nothing cuts it off. -/
def writes : Call → Py (List (Write Time))
  | .contain being evidenceRefs reason topic initiator => do
    let initiator := orSelf setting initiator
    if isContained world being then
      raise .containmentError (pyRepr being ++ " already contained")
    let trusted := qualified setting circumstance initiator topic
    return [.event (.contain (circumstance.now 0) being initiator evidenceRefs reason topic trusted
      !trusted)]
  | .verify being verifier => do
    let case ← require world being
    let event := finding setting circumstance being verifier case
    return .event event :: settle setting circumstance being (case.apply event)
  | .challenge being challenger claim kind => do
    let _ ← require world being
    let cid ← challengeId crypto setting being challenger claim (circumstance.now 0)
    return [.event (.challenge (circumstance.now 1) being cid challenger claim kind)]
  | .resolveChallenge being cid upheld => do
    let case ← require world being
    let event := .resolveChallenge (circumstance.now 0) being cid upheld
    return .event event :: settle setting circumstance being (case.apply event)
  | .expireProvisional being => do
    let case ← require world being
    if !case.provisionalLowTrust || case.phase ≠ .contained then return []
    if case.qualifiedSupporters ≠ [] then return []
    match case.containedAt with
    | none => raise .typeError
    | some since =>
      if !setting.expired since (circumstance.now 0) then return []
      return [.event (.release (circumstance.now 1) being "provisional_unverified" none)]
  | .rehabilitate being guardian => do
    let case ← require world being
    if !case.phase.isContained then
      raise .containmentError (pyRepr being ++ " not in a contained state; nothing to rehabilitate")
    return [.event (.rehabilitate (circumstance.now 0) being guardian)]
  | .proposeErasure being proposer => do
    let case ← require world being
    if case.phase ≠ .corroborated then
      raise .containmentError ("cannot propose erasure: " ++ pyRepr being ++ " is " ++ case.phase.name ++
        ", not CORROBORATED (Art. 25 requires a corroborated finding)")
    if standingChallenges case ≠ [] then
      raise .containmentError "cannot propose erasure while a challenge still stands"
    return [.event (.proposeErasure (circumstance.now 0) being proposer)]

def applyWrite (world : World Time) : Write Time → Py (World Time)
  | .event event => do
    let cases ← applyEvent world.cases event
    return { world with cases := cases, journal := world.journal ++ [event] }
  | .slash slash => return { world with slashes := world.slashes ++ [slash] }

/-- The writes that are made before the call is cut off. -/
def Circumstance.made (list : List (Write Time)) : List (Write Time) :=
  match circumstance.cut with
  | none => list
  | some n => list.take (n + 1)

/-- The being that a slash for a false containment names. -/
def causeOf (reason : Str) : Option Str :=
  let start := Str.ofString "false containment of "
  if start.isPrefixOf reason then some (reason.drop start.length) else none

/-- A call, a restart from the journals, or a slash that others have the registry record. -/
inductive Action (Time : Type) where
  | call (circumstance : Circumstance Time) (call : Call)
  | restart
  | slash (slash : Slash Time) (other : causeOf slash.reason = none)

def sampleContain : Action Nat :=
  .call (.sample true none) (.contain "b" ["e"] "r" "global" (some "i"))

def sampleVerify (name : Str) (supported : Bool) (cut : Option Nat) : Action Nat :=
  .call (.sample supported cut) (.verify "b" (some name))

def perform (call : Call) : Py (World Time) := do
  let list ← writes crypto setting circumstance world call
  (circumstance.made list).foldlM applyWrite world

def step (world : World Time) : Action Time → World Time
  | .call circumstance call =>
    match perform crypto setting circumstance world call with
    | .ok after => after
    | .error _ => world
  | .restart =>
    match replay world.journal with
    | .ok cases => { world with cases := cases }
    | .error _ => world
  | .slash slash _ => { world with slashes := world.slashes ++ [slash] }

/-- The call is let through and makes all its writes. -/
def Returns (call : Call) : Prop :=
  ∃ list, writes crypto setting circumstance world call = .ok list ∧ circumstance.made list = list

end JJDai.Containment
