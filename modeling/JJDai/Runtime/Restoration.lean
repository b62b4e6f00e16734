import JJDai.Runtime.Recovery

/-! What the task journal restores: the traces that were in memory, without their opening transition. -/

namespace JJDai.Runtime

open PyText
open Being (Grown)

/-- The transitions lead from one state to the other, each as the map allows. -/
def Follows (state : TaskState) : List Transition → TaskState → Prop
  | [], final => state = final
  | transition :: rest, final =>
    transition.previous = some state ∧ transition.target ∈ state.legal ∧ Follows transition.target rest final

theorem follows_snoc {state middle : TaskState} {transitions : List Transition} {transition : Transition}
    (follows : Follows state transitions middle) (after : transition.previous = some middle)
    (legal : transition.target ∈ middle.legal) : Follows state (transitions ++ [transition]) transition.target := by
  induction transitions generalizing state with
  | nil =>
    obtain rfl : state = middle := follows
    exact ⟨after, legal, rfl⟩
  | cons first rest ih => exact ⟨follows.1, follows.2.1, ih follows.2.2⟩

theorem pipeline_step {state target : TaskState} (legal : target ∈ state.legal) (inside : target ∈ TaskState.pipeline) :
    state ∈ TaskState.pipeline ∧ TaskState.pipeline.dropWhile (fun s => s ≠ state) =
      state :: TaskState.pipeline.dropWhile (fun s => s ≠ target) := by
  revert legal inside
  cases state <;> cases target <;> decide

theorem follows_recorded {state : TaskState} {transitions : List Transition}
    (follows : Follows state transitions .recorded) : state ∈ TaskState.pipeline ∧
      state :: transitions.map Transition.target = TaskState.pipeline.dropWhile (fun s => s ≠ state) := by
  induction transitions generalizing state with
  | nil =>
    obtain rfl : state = .recorded := follows
    decide
  | cons first rest ih =>
    obtain ⟨_, legal, later⟩ := follows
    obtain ⟨inside, onward⟩ := ih later
    obtain ⟨member, step⟩ := pipeline_step legal inside
    exact ⟨member, by rw [step, List.map_cons, onward]⟩

namespace DecisionTrace

/-- A trace as the journal has it: there is no line for the transition that opened it. -/
def journaled (trace : DecisionTrace) : DecisionTrace :=
  let later := trace.transitions.filter (fun transition => transition.previous.isSome)
  { trace with
    transitions := later
    witnessFirst := later.head?.map Transition.witnessIndex
    witnessLast := later.getLast?.map Transition.witnessIndex }

theorem journaled_add (trace : DecisionTrace) {transition : Transition} (after : transition.previous.isSome) :
    (trace.add transition).journaled = trace.journaled.add transition := by
  simp only [add, journaled, List.filter_append, List.filter_cons, after, if_true, List.filter_nil, List.head?_append,
    List.getLast?_append, List.head?_cons, List.getLast?_singleton, Option.some_or, Option.map_some]
  cases (trace.transitions.filter (fun transition => transition.previous.isSome)).head? <;> rfl

theorem journaled_enrich (trace : DecisionTrace) (fields : List (Evidence × Json)) :
    (trace.enrich fields).journaled = trace.journaled.enrich fields := rfl

end DecisionTrace

/-- What the journal says of a trace agrees with the map. -/
structure Lawful (trace : DecisionTrace) : Prop where
  journaled : trace.journaled = trace
  follows : Follows .received trace.transitions trace.state

theorem Lawful.add {trace : DecisionTrace} (lawful : Lawful trace) {transition : Transition}
    (after : transition.previous = some trace.state) (legal : transition.target ∈ trace.state.legal) :
    Lawful (trace.add transition) where
  journaled := by rw [trace.journaled_add (by rw [after]; rfl), lawful.journaled]
  follows := follows_snoc lawful.follows after legal

theorem Lawful.enrich {trace : DecisionTrace} (lawful : Lawful trace) (fields : List (Evidence × Json)) :
    Lawful (trace.enrich fields) where
  journaled := by rw [trace.journaled_enrich, lawful.journaled]
  follows := lawful.follows

structure Faithful (being : Being) : Prop where
  agrees : ∀ taskId trace, Dict.get? being.traces taskId = some trace →
    DecisionTrace.fromJournal (entriesOf taskId being.journal) = .ok trace.journaled
  lawful : ∀ taskId trace, DecisionTrace.fromJournal (entriesOf taskId being.journal) = .ok trace → Lawful trace

/-- A line about one task: the others keep their traces, and what the task's lines give is known. -/
theorem Faithful.journalize {being : Being} (faithful : Faithful being) {middle : Being} (grown : Grown being middle)
    {entry : Entry} {trace : DecisionTrace}
    (made : DecisionTrace.fromJournal (entriesOf entry.taskId being.journal ++ [entry]) = .ok trace.journaled)
    (named : trace.taskId = entry.taskId) (lawful : Lawful trace.journaled) :
    Faithful ((middle.journalize entry).keep trace) := by
  rw [grown.same]
  constructor
  · intro taskId other live
    simp only [Being.keep, Being.journalize, Dict.get?_set, named, entriesOf_snoc] at live ⊢
    split at live
    · rename_i same
      obtain rfl := Option.some.inj live
      rw [if_pos same, ← same, made]
    · rename_i different
      rw [if_neg different]
      exact faithful.agrees taskId other live
  · intro taskId other rebuilt
    simp only [Being.keep, Being.journalize, entriesOf_snoc] at rebuilt
    split at rebuilt
    · rename_i same
      rw [← same, made] at rebuilt
      exact Except.ok.inj rebuilt ▸ lawful
    · exact faithful.lawful taskId other rebuilt

/-- No task id is opened that the journal has lines of. -/
def Unused (being : Being) : Action → Prop
  | .openTrace taskId .. => entriesOf taskId being.journal = []
  | _ => True

theorem faithful_step {crypto : Crypto} {being : Being} (kept : Kept being) (faithful : Faithful being) {action : Action}
    (unused : Unused being action) : Faithful (step crypto being action) := by
  have cases := @step_cases crypto being action
  generalize step crypto being action = after at cases ⊢
  cases cases with
  | grown grown =>
    rw [grown.same]
    exact ⟨faithful.agrees, faithful.lawful⟩
  | opened grown taskHash nodeId index =>
    have empty : entriesOf _ being.journal = [] := unused
    refine faithful.journalize grown ?_ rfl ⟨rfl, rfl⟩
    rw [Entry.taskId, empty]
    rfl
  | @moved _ taskId middle trace transition live grown witnessed after legal =>
    have made := faithful.agrees taskId trace live
    obtain ⟨rfl, _⟩ := kept.named taskId trace live
    have same := trace.journaled_add (show transition.previous.isSome by rw [after]; rfl)
    refine faithful.journalize grown ?_ rfl ?_
    · rw [same]
      exact DecisionTrace.fromJournal_snoc made _
    · rw [same]
      exact (faithful.lawful _ _ made).add after legal
  | @enriched _ taskId trace live fields =>
    have made := faithful.agrees taskId trace live
    obtain ⟨rfl, _⟩ := kept.named taskId trace live
    exact faithful.journalize (.refl being) (DecisionTrace.fromJournal_snoc made _) rfl
      ((faithful.lawful _ _ made).enrich fields)
  | recovered rebuilt =>
    refine ⟨fun taskId trace live => ?_, faithful.lawful⟩
    have made := rebuilt taskId trace live
    rw [(faithful.lawful taskId trace made).journaled]
    exact made
  | @stuck _ taskId trace rebuilt fields =>
    obtain ⟨_, made, rfl⟩ := kept.headed taskId (some_of_rebuilt rebuilt)
    obtain rfl := Except.ok.inj (rebuilt.symm.trans made)
    have lawful := faithful.lawful _ _ made
    have noted := @Faithful.journalize being faithful being (.refl being) (.enriched trace.taskId fields)
      (trace.enrich fields) (by
        rw [trace.journaled_enrich, lawful.journaled]
        exact DecisionTrace.fromJournal_snoc made _) rfl (by
        rw [trace.journaled_enrich, lawful.journaled]
        exact lawful.enrich fields)
    exact ⟨by simp, noted.lawful⟩

/-- A task that is opened, answered and grounded. -/
def sampleRun : List Action :=
  [.openTrace "t1" [] [] [] true, .enrich "t1" [(.answer, .str "a")], .move "t1" .grounded [] [] [] true]

end JJDai.Runtime
