import JJDai.Kernel.Deliberation
import JJDai.Lib.Timeline

/-! What `rollback_to` restores: the checkpoints of every line that a run was on
are kept, and the first one of the step is taken. -/

namespace JJDai.Kernel

open PyText Canonical Timeline

variable {crypto : Crypto} {World : Type} {organ : Organ World}

theorem apply_stepEvent (viveka : Viveka) (t : PyFloat) (runId : Json) (step : Int) (node : Str)
    (state : Dict Str Json) : viveka.apply crypto (stepEvent t runId step node state) = do
      let stateHash ← stateHashOf crypto (.obj state)
      return { viveka with
        events := viveka.events ++ [stepEvent t runId step node state]
        state, step, checkpoints := viveka.checkpoints ++ [⟨step, node, state, stateHash, .float t⟩] } := rfl

theorem apply_blockedEvent (viveka : Viveka) (t : PyFloat) (runId : Json) (step : Int) (node : Str) :
    viveka.apply crypto (blockedEvent t runId step node) =
      .ok { viveka with events := viveka.events ++ [blockedEvent t runId step node] } := rfl

theorem apply_startEvent (viveka : Viveka) (t : PyFloat) (runId entry : Str) (state : Dict Str Json) :
    viveka.apply crypto (startEvent t runId entry state) =
      .ok { viveka with
        events := viveka.events ++ [startEvent t runId entry state]
        runId := .str runId, state, cursor := .str entry, step := 0, checkpoints := [] } := rfl

theorem apply_rollbackEvent (viveka : Viveka) (t : PyFloat) (runId : Json) (toStep : Int) (patch state : Dict Str Json) :
    viveka.apply crypto (rollbackEvent t runId toStep patch state) =
      .ok { viveka with
        events := viveka.events ++ [rollbackEvent t runId toStep patch state]
        state, step := toStep } := rfl

variable (crypto organ) in
theorem witness_kept (host : Host World) (event : Json) :
    (host.witness crypto organ event).1.viveka = host.viveka ∧
      (host.witness crypto organ event).1.journal = host.journal := by
  unfold Host.witness
  split
  · exact ⟨rfl, rfl⟩
  · dsimp only
    split <;> exact ⟨rfl, rfl⟩

theorem emit_done {host after : Host World} {event : Json} (emitted : host.emit crypto organ event = (after, .ok ())) :
    host.viveka.apply crypto event = .ok after.viveka ∧
      Host.write { host with viveka := after.viveka } event = .ok after.journal := by
  unfold Host.emit at emitted
  cases applied : host.viveka.apply crypto event with
  | error e => simp [applied] at emitted
  | ok viveka =>
    simp only [applied] at emitted
    cases written : Host.write { host with viveka } event with
    | error e => simp [written] at emitted
    | ok journal =>
      simp only [written] at emitted
      split at emitted
      · have kept := witness_kept crypto organ { host with viveka, journal } event
        have same := congrArg Prod.fst emitted
        dsimp only at same
        rw [← same, kept.1, kept.2]
        exact ⟨rfl, written⟩
      · obtain ⟨rfl, _⟩ := Prod.mk.inj emitted
        exact ⟨rfl, written⟩

def markOf (event : Json) : Option (Mark Int (Dict Str Json)) :=
  let ev := getOr event "ev" .null
  if ev = .str "start" then some .restart
  else if ev = .str "step" then
    match getOr event "step" .null, getOr event "state" .null with
    | .int step, .obj state => some (.visit step state)
    | _, _ => none
  else if ev = .str "rollback" then
    match getOr event "to_step" .null with
    | .int step => some (.cut step)
    | _ => none
  else none

def marksOf (events : List Json) : List (Mark Int (Dict Str Json)) := events.filterMap markOf

/-- The state that the current line had after a step. -/
def lineState (events : List Json) (step : Int) : Option (Dict Str Json) := current (marksOf events) step

/-- Every execution of a step since the start of the run, in their order. -/
def executionsOf (events : List Json) (step : Int) : List (Dict Str Json) :=
  (visits (marksOf events) step).map Prod.snd

/-- No rollback to an earlier step came after the latest execution of the step, and
that execution left the state that the first one left. -/
def Unbroken (events : List Json) (step : Int) : Prop :=
  lost (marksOf events) step = false ∧ (executionsOf events step).getLast? = (executionsOf events step).head?

instance (events : List Json) (step : Int) : Decidable (Unbroken events step) :=
  inferInstanceAs (Decidable (_ ∧ _))

theorem marksOf_snoc (events : List Json) (event : Json) :
    marksOf (events ++ [event]) = marksOf events ++ (markOf event).toList := by
  cases found : markOf event <;> simp [marksOf, found]

theorem lineState_eq (events : List Json) (step : Int) :
    lineState events step = if lost (marksOf events) step then none else (executionsOf events step).getLast? := by
  rw [lineState, current_eq, executionsOf, List.getLast?_map]

/-- The checkpoints are the executions since the start, whatever was rolled back. -/
def Kept (viveka : Viveka) : Prop :=
  viveka.checkpoints.map (fun checkpoint => (checkpoint.step, checkpoint.state)) = taken (marksOf viveka.events)

theorem Kept.first {viveka : Viveka} (kept : Kept viveka) (step : Int) :
    (viveka.checkpoints.find? (fun checkpoint => checkpoint.step = step)).map Checkpoint.state =
      (executionsOf viveka.events step).head? := by
  rw [executionsOf, visits, ← kept, List.filter_map, List.map_map, List.head?_map, List.head?_filter]
  rfl

theorem getOr_subscript {event value : Json} {key : Str} (read : subscript event key = .ok value) (default : Json) :
    getOr event key default = value := by
  obtain ⟨fields, rfl⟩ := obj_of_subscript read
  rw [subscript_obj] at read
  simp [getOr, read]

theorem apply_kept {viveka later : Viveka} {event : Json} (kept : Kept viveka)
    (applied : viveka.apply crypto event = .ok later) : Kept later := by
  simp only [Viveka.apply, bind, Py.bind_ok] at applied
  obtain ⟨ev, named, applied⟩ := applied
  have evRead := getOr_subscript named .null
  split at applied
  · rename_i start
    simp only [Py.bind_ok] at applied
    obtain ⟨_, _, _, _, _, _, _, _, made⟩ := applied
    obtain rfl := Except.ok.inj made
    have mark : markOf event = some .restart := by simp [markOf, evRead, start]
    simp [Kept, marksOf_snoc, mark, gather]
  · rename_i notStart
    split at applied
    · rename_i isStep
      simp only [Py.bind_ok] at applied
      obtain ⟨stateRead, stateAt, state, stateOk, stepRead, stepAt, step, stepOk, _, _, _, _, _, _, _, _, made⟩ := applied
      obtain rfl := Except.ok.inj made
      have mark : markOf event = some (.visit step state) := by
        cases stateRead with
        | obj fields =>
          cases stepRead with
          | int n =>
            obtain rfl := Except.ok.inj stateOk
            obtain rfl := Except.ok.inj stepOk
            simp [markOf, evRead, isStep, getOr_subscript stateAt, getOr_subscript stepAt]
          | _ => cases stepOk
        | _ => cases stateOk
      simpa [Kept, marksOf_snoc, mark, gather] using kept
    · rename_i notStep
      split at applied
      · rename_i isRollback
        simp only [Py.bind_ok] at applied
        obtain ⟨_, _, _, _, stepRead, stepAt, step, stepOk, made⟩ := applied
        obtain rfl := Except.ok.inj made
        have mark : markOf event = some (.cut step) := by
          cases stepRead with
          | int n =>
            obtain rfl := Except.ok.inj stepOk
            simp [markOf, evRead, isRollback, getOr_subscript stepAt]
          | _ => cases stepOk
        simpa [Kept, marksOf_snoc, mark, gather] using kept
      · rename_i notRollback
        split at applied
        · obtain rfl := Except.ok.inj applied
          have mark : markOf event = none := by simp [markOf, evRead, notStart, notStep, notRollback]
          simpa [Kept, marksOf_snoc, mark] using kept
        · cases applied

/-- An object that a run begins with: a new one, or one that is rebuilt from a journal. -/
def Begins (crypto : Crypto) (viveka : Viveka) : Prop :=
  viveka = {} ∨ ∃ file, Viveka.rebuild crypto file = .ok viveka

theorem foldlM_kept {events : List Json} {viveka later : Viveka} (kept : Kept viveka)
    (folded : events.foldlM (Viveka.apply crypto) viveka = .ok later) : Kept later := by
  induction events generalizing viveka with
  | nil => exact Except.ok.inj folded ▸ kept
  | cons event rest ih =>
    simp only [List.foldlM_cons, bind, Py.bind_ok] at folded
    obtain ⟨next, applied, folded⟩ := folded
    exact ih (apply_kept kept applied) folded

theorem Begins.kept {viveka : Viveka} (begins : Begins crypto viveka) : Kept viveka := by
  rcases begins with rfl | ⟨file, rebuilt⟩
  · rfl
  · simp only [Viveka.rebuild, bind, Py.bind_ok] at rebuilt
    obtain ⟨events, _, folded⟩ := rebuilt
    have fresh : Kept {} := rfl
    exact foldlM_kept fresh folded

/-- Events and checkpoints are as they were. -/
structure Still (host after : Host World) : Prop where
  events : after.viveka.events = host.viveka.events
  checkpoints : after.viveka.checkpoints = host.viveka.checkpoints

theorem Still.kept {host after : Host World} (still : Still host after) (kept : Kept host.viveka) :
    Kept after.viveka := by
  rw [Kept, still.events, still.checkpoints]
  exact kept

/-- An event that `_apply` takes is applied, whether or not it is written and witnessed. -/
theorem emit_viveka {host : Host World} {event : Json} {viveka : Viveka}
    (applied : host.viveka.apply crypto event = .ok viveka) : (host.emit crypto organ event).1.viveka = viveka := by
  unfold Host.emit
  simp only [applied]
  cases Host.write { host with viveka } event with
  | error e => rfl
  | ok journal =>
    dsimp only
    split
    · exact (witness_kept crypto organ { host with viveka, journal } event).1
    · rfl

variable (organ) in
theorem emit_kept {host : Host World} {event : Json} {viveka : Viveka} (kept : Kept host.viveka)
    (applied : host.viveka.apply crypto event = .ok viveka) : Kept (host.emit crypto organ event).1.viveka := by
  rw [emit_viveka applied]
  exact apply_kept kept applied

theorem advance_still (host : Host World) (node : Str) : Still host (host.advance organ node).1 := by
  obtain ⟨world, answer, asked⟩ := nextNode_world organ host node
  unfold Host.advance
  simp only [asked]
  cases answer <;> exact ⟨rfl, rfl⟩

/-- A round up to its emission: nothing is recorded yet, and what is to be recorded can be applied. -/
structure Poised (crypto : Crypto) (host : Host World) (next : Host World × Py Host.Intent) : Prop where
  still : Still host next.1
  blocks : ∀ event, next.2 = .ok (.block event) → ∃ viveka, next.1.viveka.apply crypto event = .ok viveka
  records : ∀ node event, next.2 = .ok (.record node event) → ∃ viveka, next.1.viveka.apply crypto event = .ok viveka

theorem Poised.failed {host after : Host World} {e : PyErr} (still : Still host after) :
    Poised crypto host (after, .error e) :=
  ⟨still, fun _ impossible => (nomatch impossible), fun _ _ impossible => (nomatch impossible)⟩

theorem Poised.stopped {host after : Host World} (still : Still host after) : Poised crypto host (after, .ok .stop) :=
  ⟨still, fun _ impossible => (nomatch impossible), fun _ _ impossible => (nomatch impossible)⟩

variable (crypto organ) in
theorem execute_poised (host : Host World) (name : Str) (node : Node World) :
    Poised crypto host (host.execute crypto organ name node) := by
  unfold Host.execute
  dsimp only
  split
  · exact .failed ⟨rfl, rfl⟩
  · rename_i updates _
    split
    · exact .failed ⟨rfl, rfl⟩
    · rename_i stateHash hashed
      refine ⟨⟨rfl, rfl⟩, fun _ impossible => (nomatch impossible), ?_⟩
      rintro _ _ ⟨⟩
      rw [apply_stepEvent, hashed]
      exact ⟨_, rfl⟩

variable (crypto organ) in
theorem intent_poised (host : Host World) : Poised crypto host (host.intent crypto organ) := by
  unfold Host.intent
  split
  · exact .stopped ⟨rfl, rfl⟩
  · rename_i name _
    split
    · exact .stopped ⟨rfl, rfl⟩
    · split
      · exact .stopped ⟨rfl, rfl⟩
      · cases Dict.get? organ.nodes name with
        | none => exact .failed ⟨rfl, rfl⟩
        | some node =>
          obtain ⟨world, answer, asked⟩ := permitted_world organ host node
          simp only [asked]
          cases answer with
          | error e => exact .failed ⟨rfl, rfl⟩
          | ok allowed =>
            cases allowed with
            | true =>
              have poised := execute_poised crypto organ { host with world } name node
              exact ⟨⟨poised.still.events, poised.still.checkpoints⟩, poised.blocks, poised.records⟩
            | false =>
              refine ⟨⟨rfl, rfl⟩, ?_, fun _ _ impossible => by cases impossible⟩
              rintro _ ⟨⟩
              exact ⟨_, apply_blockedEvent ..⟩
  · exact .failed ⟨rfl, rfl⟩

theorem turn_kept {host : Host World} (kept : Kept host.viveka) : Kept (host.turn crypto organ).1.viveka := by
  have poised := intent_poised crypto organ host
  unfold Host.turn
  cases intended : host.intent crypto organ with
  | mk next answer =>
    rw [intended] at poised
    have still := poised.still.kept kept
    cases answer with
    | error e => exact still
    | ok intent =>
      cases intent with
      | stop =>
        dsimp only
        split
        · exact still
        · exact still
      | block event =>
        obtain ⟨viveka, applied⟩ := poised.blocks event rfl
        have emitted := emit_kept organ still applied
        dsimp only
        split
        · rename_i after e made
          rwa [made] at emitted
        · rename_i after made
          rwa [made] at emitted
      | record node event =>
        obtain ⟨viveka, applied⟩ := poised.records node event rfl
        have emitted := emit_kept organ still applied
        dsimp only
        split
        · rename_i after e made
          rwa [made] at emitted
        · rename_i after made
          rw [made] at emitted
          exact (advance_still after node).kept emitted

theorem start_kept {host : Host World} (kept : Kept host.viveka) (initial : Dict Str Json) :
    Kept (host.start crypto organ initial).1.viveka := by
  unfold Host.start
  split
  · exact kept
  · dsimp only
    split
    · exact kept
    · exact emit_kept organ kept (apply_startEvent ..)

variable (organ) in
theorem rewind_still (host : Host World) (checkpointStep : Int) (patch : Dict Str Json) :
    Still host (host.rewind organ checkpointStep patch).1 := by
  unfold Host.rewind
  split
  · exact ⟨rfl, rfl⟩
  · rename_i target _
    obtain ⟨world, answer, asked⟩ := nextNode_world organ
      { host with viveka := { host.viveka with state := Dict.update target.state patch, step := target.step } } target.node
    simp only [asked]
    cases answer <;> exact ⟨rfl, rfl⟩

theorem rewind_ok {host rewound : Host World} {checkpointStep : Int} {patch : Dict Str Json} {event : Json}
    (rewinds : host.rewind organ checkpointStep patch = (rewound, .ok event)) :
    ∃ target t, host.viveka.checkpoints.find? (fun checkpoint => checkpoint.step = checkpointStep) = some target ∧
      event = rollbackEvent t host.viveka.runId checkpointStep patch (Dict.update target.state patch) := by
  unfold Host.rewind at rewinds
  split at rewinds
  · cases rewinds
  · rename_i target found
    obtain ⟨world, answer, asked⟩ := nextNode_world organ
      { host with viveka := { host.viveka with state := Dict.update target.state patch, step := target.step } } target.node
    simp only [asked] at rewinds
    cases answer with
    | error e => cases rewinds
    | ok next =>
      obtain ⟨_, made⟩ := Prod.mk.inj rewinds
      exact ⟨target, _, found, (Except.ok.inj made).symm⟩

theorem rollback_kept {host : Host World} (kept : Kept host.viveka) (checkpointStep : Int) (patch : Dict Str Json) :
    Kept (host.rollbackTo crypto organ checkpointStep patch).1.viveka := by
  have still := (rewind_still organ host checkpointStep patch).kept kept
  unfold Host.rollbackTo
  cases rewinds : host.rewind organ checkpointStep patch with
  | mk rewound answer =>
    rw [rewinds] at still
    cases answer with
    | error e => exact still
    | ok event =>
      obtain ⟨target, t, _, rfl⟩ := rewind_ok rewinds
      have emitted := emit_kept organ still
        (@apply_rollbackEvent crypto rewound.viveka t host.viveka.runId checkpointStep patch
          (Dict.update target.state patch))
      dsimp only
      split
      · rename_i after e made
        rwa [made] at emitted
      · rename_i after made
        rwa [made] at emitted

theorem move_kept {host : Host World} (kept : Kept host.viveka) (move : Move) :
    Kept (host.move crypto organ move).viveka := by
  cases move with
  | start initial => exact start_kept kept initial
  | turn => exact turn_kept kept
  | rollback checkpointStep patch => exact rollback_kept kept checkpointStep patch

variable (organ) in
theorem calls_kept {host : Host World} (begins : Begins crypto host.viveka) (calls : List Call) :
    Kept (Run.run (Host.call crypto organ) host calls).viveka := by
  refine @Run.invariant_of_forall _ _ _ _ (fun host : Host World => Kept host.viveka) (fun _ => True)
    (fun host call kept _ => ?_) calls begins.kept (fun _ _ => trivial)
  rw [Host.call_moves]
  exact @Run.invariant_of_forall _ _ _ _ (fun host : Host World => Kept host.viveka) (fun _ => True)
    (fun _ move kept _ => move_kept kept move) _ kept (fun _ _ => trivial)

theorem rollbackTo_state {host after : Host World} {checkpointStep : Int} {answer : Str}
    (returned : host.rollbackTo crypto organ checkpointStep [] = (after, .ok answer)) :
    (host.viveka.checkpoints.find? (fun checkpoint => checkpoint.step = checkpointStep)).map Checkpoint.state =
      some after.viveka.state := by
  unfold Host.rollbackTo at returned
  cases rewinds : host.rewind organ checkpointStep [] with
  | mk rewound rewindAnswer =>
    rw [rewinds] at returned
    cases rewindAnswer with
    | error e => cases returned
    | ok event =>
      obtain ⟨target, t, found, rfl⟩ := rewind_ok rewinds
      dsimp only at returned
      split at returned
      · cases returned
      · rename_i emittedHost emitted
        obtain ⟨same, _⟩ := Prod.mk.inj returned
        obtain ⟨applied, _⟩ := emit_done emitted
        rw [apply_rollbackEvent] at applied
        rw [found, ← same, ← Except.ok.inj applied]
        rfl

theorem answered_eq {α : Type u} {β : Type v} {outcome : α × Py β} {answer : β} (answered : outcome.2 = .ok answer) :
    outcome = (outcome.1, .ok answer) :=
  Prod.ext rfl answered

/-- One node that goes round, and copies the mode it is given. -/
def retryOrgan : Organ Unit where
  beingId := "being:x"
  maxSteps := 2
  nodes := [("act", { fn := fun state world => (.ok (.obj [("seen", getOr (.obj state) "mode" .null)]), world), executive := false })]
  edges := [("act", "act")]
  cond := []
  entry := some "act"
  governor := none
  now world := (.zero, world)
  stamp _ := return "1970-01-01T00:00:00Z"
  urandom world := ([7], world)

def ranHost : Host Unit := Run.run (Host.call Crypto.sample retryOrgan) { world := () } [.run (some [])]

/-- Two steps, and the second one again in another mode. -/
def retriedHost : Host Unit :=
  Run.run (Host.call Crypto.sample retryOrgan) ranHost [.rollbackTo 1 [("mode", .str "B")], .resume]

end JJDai.Kernel
