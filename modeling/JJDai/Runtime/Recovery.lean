import JJDai.Lib.Grouping
import JJDai.Runtime.StateMachine

/-! `runtime.recovery`: the traces of a being are rebuilt from its task journal, and what was in
flight is resolved through the machine. -/

namespace JJDai.Runtime

open PyText

def entriesOf (taskId : Str) (journal : List Entry) : List Entry := Grouping.alike id Entry.taskId taskId journal

def unknownFate : Str :=
  "restart found a witnessed action INTENT with no OUTCOME — the world may or may not contain the action; " ++
    "fate honestly unknown"

def interrupted : Str := "interrupted by restart before completion"

/-- How a trace that was caught in flight ends, and why. -/
def resolution (trace : DecisionTrace) (orphans : List Str) : TaskState × Str :=
  if trace.state = .authorized ∧ orphans ≠ [] then (.fateUnknown, unknownFate) else (.failed, interrupted)

/-- A line of the karma journal: its phase and its action. -/
abbrev KarmaLine := Str × Option Str

def orphanedIntents (journal : List KarmaLine) : List Str :=
  let hashes (phase : Str) := journal.filterMap (fun line => if line.1 = phase then line.2 else none)
  (hashes "intent").filter (fun hash => hash ∉ hashes "outcome")

def journalBeingIds (journal : List Entry) : List Str :=
  journal.filterMap (fun
    | .opened _ _ beingId _ _ => if beingId = [] then none else some beingId
    | _ => none)

namespace Being

variable (crypto : Crypto) (salt : Bytes) (orphans : List Str)

/-- The loop of `recover_traces`; an exception leaves what was written. -/
def resolveAll : List (Str × List Entry) → Being → Py (Dict Str DecisionTrace) × Being
  | [], being => (.ok [], being)
  | (taskId, entries) :: rest, being =>
    match DecisionTrace.fromJournal entries with
    | .error e => (.error e, being)
    | .ok trace =>
      if trace.terminal then
        let (result, being) := resolveAll rest being
        (result.map ((taskId, trace) :: ·), being)
      else
        let (target, reason) := resolution trace orphans
        let fields := [(Evidence.outcomeReason, Json.str reason)]
        let being := being.journalize (.enriched trace.taskId fields)
        let trace := trace.enrich fields
        match being.move crypto trace target [("recovery", .bool true), ("reason", .str reason)] [] salt with
        | .error e => (.error e, being)
        | .ok (being, transition) =>
          let being := being.journalize (.moved trace.taskId transition)
          let (result, being) := resolveAll rest being
          (result.map ((taskId, trace.add transition) :: ·), being)

def recoverTraces (being : Being) (karma : List KarmaLine) : Py (Dict Str DecisionTrace) × Being :=
  if being.beingId ≠ [] ∧ ∃ other ∈ journalBeingIds being.journal, other ≠ being.beingId then
    (raise .continuityError, being)
  else
    resolveAll crypto salt (orphanedIntents karma) (being.journal.foldl (Grouping.collect id Entry.taskId) []) being

/-- A restart: what was in memory is gone, and the traces are those that were recovered. -/
def boot (being : Being) (karma : List KarmaLine) : Being :=
  let (result, being) := being.recoverTraces crypto salt karma
  { being with traces := result.toOption.getD [] }

end Being

/-- What happens to a being. With `journaled` false the line of the journal is not written: the write raises,
or the process stops before it. -/
inductive Action where
  | other (call : AppendCall)
  | openTrace (taskId : Str) (task : Dict Str Json) (salt : Bytes) (between : List AppendCall) (journaled : Bool)
  | move (taskId : Str) (target : TaskState) (detail response : Dict Str Json) (salt : Bytes) (journaled : Bool)
  | enrich (taskId : Str) (fields : List (Evidence × Json))
  | boot (karma : List KarmaLine) (salt : Bytes)

def step (crypto : Crypto) (being : Being) : Action → Being
  | .other call => being.other crypto call
  | .openTrace taskId task salt between journaled =>
    match being.openTrace crypto taskId task salt between with
    | .error _ => being
    | .ok (being, trace) =>
      if journaled then
        (being.journalize (.opened taskId trace.taskHash trace.beingId trace.nodeId trace.profile)).keep trace
      else being
  | .move taskId target detail response salt journaled =>
    match Dict.get? being.traces taskId with
    | none => being
    | some trace =>
      match being.move crypto trace target detail response salt with
      | .error _ => being
      | .ok (being, transition) =>
        if journaled then (being.journalize (.moved trace.taskId transition)).keep (trace.add transition) else being
  | .enrich taskId fields =>
    match Dict.get? being.traces taskId with
    | none => being
    | some trace => (being.journalize (.enriched trace.taskId fields)).keep (trace.enrich fields)
  | .boot karma salt => being.boot crypto salt karma

variable {crypto : Crypto}

theorem reasons_refused : (checkScalar [] unknownFate).isOk = false ∧ (checkScalar [] interrupted).isOk = false := by
  decide +kernel

theorem resolution_refused (being : Being) (trace trace' : DecisionTrace) (orphans : List Str) (salt : Bytes)
    (reached : Being × Transition) : being.move crypto trace' (resolution trace orphans).1
      [("recovery", .bool true), ("reason", .str (resolution trace orphans).2)] [] salt ≠ .ok reached := by
  intro moved
  have prose : (checkScalar [] (resolution trace orphans).2).isOk = false := by
    unfold resolution
    split
    · exact reasons_refused.1
    · exact reasons_refused.2
  unfold Being.move at moved
  split at moved
  · cases moved
  simp only [Being.witness, bind, Py.bind_ok] at moved
  obtain ⟨_, ⟨_, appended, _⟩, _⟩ := moved
  simp only [WitnessChain.append, bind, Py.bind_ok] at appended
  obtain ⟨_, checked, _⟩ := appended
  obtain ⟨_, passed⟩ := (WitnessChain.checkAppend_ok.mp checked).plane
  have vouched := (checkPlaneValue_ok passed).checked (resolution trace orphans).2 (by simp [moveCall, texts, textsFields])
  rw [vouched] at prose
  cases prose

/-- What the loop does: all tasks have ended and nothing is written, or it raises at a task whose lines do not
start with its opening, or at one in flight, which gets a line. -/
inductive Resolved (groups : List (Str × List Entry)) (being : Being) : Py (Dict Str DecisionTrace) × Being → Prop
  | settled (traces : Dict Str DecisionTrace)
      (rebuilt : ∀ taskId trace, Dict.get? traces taskId = some trace →
        ∃ group ∈ groups, group.1 = taskId ∧ DecisionTrace.fromJournal group.2 = .ok trace)
      (ended : ∀ group ∈ groups, (Dict.get? traces group.1).isSome ∧
        ∃ trace, DecisionTrace.fromJournal group.2 = .ok trace ∧ trace.terminal) : Resolved groups being (.ok traces, being)
  | headless (e : PyErr) (group : Str × List Entry) (member : group ∈ groups)
      (raised : ∀ trace, DecisionTrace.fromJournal group.2 ≠ .ok trace) : Resolved groups being (.error e, being)
  | stuck (e : PyErr) (group : Str × List Entry) (member : group ∈ groups) (trace : DecisionTrace)
      (rebuilt : DecisionTrace.fromJournal group.2 = .ok trace) (running : trace.terminal = false)
      (fields : List (Evidence × Json)) :
      Resolved groups being (.error e, being.journalize (.enriched trace.taskId fields))

theorem resolveAll_cases (salt : Bytes) (orphans : List Str) (groups : List (Str × List Entry)) (being : Being) :
    Resolved groups being (Being.resolveAll crypto salt orphans groups being) := by
  induction groups with
  | nil => exact .settled [] (by simp) (by simp)
  | cons group rest ih =>
    obtain ⟨taskId, entries⟩ := group
    unfold Being.resolveAll
    cases rebuilt : DecisionTrace.fromJournal entries with
    | error e => exact .headless e _ List.mem_cons_self (fun trace made => by simp [rebuilt] at made)
    | ok trace =>
      cases ended : trace.terminal with
      | true =>
        simp only [ended, if_true]
        generalize Being.resolveAll crypto salt orphans rest being = outcome at ih ⊢
        cases ih with
        | settled traces later endings =>
          refine .settled _ ?_ ?_
          · intro key found_ live
            rw [Dict.get?_cons] at live
            split at live
            · rename_i same
              obtain rfl := Option.some.inj live
              exact ⟨_, List.mem_cons_self, same, rebuilt⟩
            · obtain ⟨group, member, made⟩ := later key found_ live
              exact ⟨group, List.mem_cons_of_mem _ member, made⟩
          · intro group member
            rw [Dict.get?_cons]
            rcases List.mem_cons.mp member with rfl | member
            · exact ⟨by rw [if_pos rfl]; rfl, trace, rebuilt, ended⟩
            · obtain ⟨present, made⟩ := endings group member
              refine ⟨?_, made⟩
              split
              · rfl
              · exact present
        | headless e group member raised => exact .headless e group (List.mem_cons_of_mem _ member) raised
        | stuck e group member trace' rebuilt' running fields =>
          exact .stuck e group (List.mem_cons_of_mem _ member) trace' rebuilt' running fields
      | false =>
        simp only [ended, Bool.false_eq_true, if_false]
        split
        · exact .stuck _ _ List.mem_cons_self trace rebuilt ended _
        · rename_i moved
          exact absurd moved (resolution_refused _ _ _ _ _ _)

open Being (Grown)

inductive Stepped (being : Being) : Action → Being → Prop
  | grown {action : Action} {after : Being} (grown : Grown being after) : Stepped being action after
  | opened {taskId : Str} {task : Dict Str Json} {salt : Bytes} {between : List AppendCall} {journaled : Bool}
      {middle : Being} (grown : Grown being middle) (taskHash nodeId : Str) (index : Nat) :
      Stepped being (.openTrace taskId task salt between journaled)
        ((middle.journalize (.opened taskId taskHash being.beingId nodeId being.profile)).keep
          (being.opened taskId taskHash nodeId index))
  | moved {action : Action} {taskId : Str} {middle : Being} {trace : DecisionTrace} {transition : Transition}
      (live : Dict.get? being.traces taskId = some trace) (grown : Grown being middle)
      (witnessed : Witnessed middle.chain.records trace.taskId transition)
      (after : transition.previous = some trace.state) (legal : transition.target ∈ trace.state.legal) :
      Stepped being action ((middle.journalize (.moved trace.taskId transition)).keep (trace.add transition))
  | enriched {action : Action} {taskId : Str} {trace : DecisionTrace} (live : Dict.get? being.traces taskId = some trace)
      (fields : List (Evidence × Json)) :
      Stepped being action ((being.journalize (.enriched trace.taskId fields)).keep (trace.enrich fields))
  | recovered {action : Action} {traces : Dict Str DecisionTrace}
      (rebuilt : ∀ taskId trace, Dict.get? traces taskId = some trace →
        DecisionTrace.fromJournal (entriesOf taskId being.journal) = .ok trace) :
      Stepped being action { being with traces := traces }
  | stuck {action : Action} {taskId : Str} {trace : DecisionTrace}
      (rebuilt : DecisionTrace.fromJournal (entriesOf taskId being.journal) = .ok trace)
      (fields : List (Evidence × Json)) :
      Stepped being action { being.journalize (.enriched trace.taskId fields) with traces := [] }

theorem step_cases (being : Being) (action : Action) : Stepped being action (step crypto being action) := by
  cases action with
  | other call => exact .grown (Being.grown_other being call)
  | openTrace taskId task salt between journaled =>
    rw [step]
    cases made : being.openTrace crypto taskId task salt between with
    | error e => exact .grown (.refl being)
    | ok result =>
      obtain ⟨middle, trace⟩ := result
      obtain ⟨grown, taskHash, nodeId, index, rfl⟩ := Being.openTrace_ok made
      cases journaled with
      | true => exact .opened grown taskHash nodeId index
      | false => exact .grown grown
  | move taskId target detail response salt journaled =>
    rw [step]
    cases live : Dict.get? being.traces taskId with
    | none => exact .grown (.refl being)
    | some trace =>
      dsimp only
      cases made : being.move crypto trace target detail response salt with
      | error e => exact .grown (.refl being)
      | ok result =>
        obtain ⟨grown, witnessed, after, legal⟩ := Being.move_ok made
        cases journaled with
        | true => exact .moved live grown witnessed after legal
        | false => exact .grown grown
  | enrich taskId fields =>
    rw [step]
    cases live : Dict.get? being.traces taskId with
    | none => exact .grown (.refl being)
    | some trace => exact .enriched live fields
  | boot karma salt =>
    rw [step, Being.boot, Being.recoverTraces]
    by_cases foreign : being.beingId ≠ [] ∧ ∃ other ∈ journalBeingIds being.journal, other ≠ being.beingId
    · rw [if_pos foreign]
      exact .recovered (by simp [raise, Except.toOption])
    · rw [if_neg foreign]
      have cases := @resolveAll_cases crypto salt (orphanedIntents karma)
        (being.journal.foldl (Grouping.collect id Entry.taskId) []) being
      generalize Being.resolveAll crypto salt (orphanedIntents karma)
        (being.journal.foldl (Grouping.collect id Entry.taskId) []) being = outcome at cases ⊢
      cases cases with
      | settled traces rebuilt ended =>
        refine .recovered (fun taskId trace found => ?_)
        obtain ⟨group, member, rfl, made⟩ := rebuilt taskId trace found
        rw [(Grouping.group_eq member).1] at made
        exact made
      | headless e group member raised => exact .recovered (by simp [Except.toOption])
      | stuck e group member trace rebuilt running fields =>
        rw [(Grouping.group_eq member).1] at rebuilt
        exact .stuck rebuilt fields

theorem entriesOf_snoc (taskId : Str) (journal : List Entry) (entry : Entry) :
    entriesOf taskId (journal ++ [entry]) =
      if entry.taskId = taskId then entriesOf taskId journal ++ [entry] else entriesOf taskId journal := by
  unfold entriesOf Grouping.alike
  rw [List.filter_append, List.filter_singleton]
  by_cases same : entry.taskId = taskId <;> simp [same]

theorem DecisionTrace.taskId_replay (trace : DecisionTrace) (entry : Entry) : (trace.replay entry).taskId = trace.taskId := by
  cases entry <;> rfl

structure Kept (being : Being) : Prop where
  headed : ∀ taskId, entriesOf taskId being.journal ≠ [] → ∃ trace,
    DecisionTrace.fromJournal (entriesOf taskId being.journal) = .ok trace ∧ trace.taskId = taskId
  named : ∀ taskId trace, Dict.get? being.traces taskId = some trace →
    trace.taskId = taskId ∧ entriesOf taskId being.journal ≠ []
  own : ∀ other ∈ journalBeingIds being.journal, other = being.beingId
  told : ∀ taskId transition, Entry.moved taskId transition ∈ being.journal →
    Witnessed being.chain.records taskId transition ∧
      ∃ state, transition.previous = some state ∧ transition.target ∈ state.legal

/-- A line that opens a task, or is about one that was opened, leaves every task headed. -/
theorem headed_journalize {journal : List Entry} {entry : Entry}
    (headed : ∀ taskId, entriesOf taskId journal ≠ [] → ∃ trace,
      DecisionTrace.fromJournal (entriesOf taskId journal) = .ok trace ∧ trace.taskId = taskId)
    (starts : entriesOf entry.taskId journal = [] → ∃ trace,
      DecisionTrace.fromJournal [entry] = .ok trace ∧ trace.taskId = entry.taskId) (taskId : Str)
    (some_ : entriesOf taskId (journal ++ [entry]) ≠ []) : ∃ trace,
      DecisionTrace.fromJournal (entriesOf taskId (journal ++ [entry])) = .ok trace ∧ trace.taskId = taskId := by
  rw [entriesOf_snoc] at some_ ⊢
  split at some_
  · rename_i same
    subst same
    rw [if_pos rfl]
    by_cases empty : entriesOf entry.taskId journal = []
    · rw [empty]
      exact starts empty
    · obtain ⟨trace, rebuilt, named⟩ := headed _ empty
      exact ⟨_, DecisionTrace.fromJournal_snoc rebuilt entry, by rw [trace.taskId_replay, named]⟩
  · rename_i different
    rw [if_neg different]
    exact headed taskId some_

theorem entriesOf_grows {taskId : Str} {journal : List Entry} (some_ : entriesOf taskId journal ≠ []) (entry : Entry) :
    entriesOf taskId (journal ++ [entry]) ≠ [] := by
  rw [entriesOf_snoc]
  split <;> simp [some_]

theorem Kept.journalize {being : Being} (kept : Kept being) {entry : Entry} {middle : Being} (grown : Grown being middle)
    (starts : entriesOf entry.taskId being.journal = [] → ∃ trace,
      DecisionTrace.fromJournal [entry] = .ok trace ∧ trace.taskId = entry.taskId)
    (own : ∀ other ∈ journalBeingIds [entry], other = being.beingId)
    (told : ∀ taskId transition, entry = .moved taskId transition → Witnessed middle.chain.records taskId transition ∧
      ∃ state, transition.previous = some state ∧ transition.target ∈ state.legal) : Kept (middle.journalize entry) := by
  have journal : middle.journal = being.journal := by rw [grown.same]
  have traces : middle.traces = being.traces := by rw [grown.same]
  have name : middle.beingId = being.beingId := by rw [grown.same]
  constructor
  · simp only [Being.journalize, journal]
    exact headed_journalize kept.headed starts
  · intro taskId trace live
    simp only [Being.journalize, journal, traces] at live ⊢
    obtain ⟨named, some_⟩ := kept.named taskId trace live
    exact ⟨named, entriesOf_grows some_ entry⟩
  · intro other member
    simp only [Being.journalize, journal, name, journalBeingIds, List.filterMap_append, List.mem_append] at member ⊢
    rcases member with old | new
    · exact kept.own other old
    · exact own other new
  · intro taskId transition member
    simp only [Being.journalize, journal, List.mem_append, List.mem_singleton] at member ⊢
    rcases member with old | new
    · obtain ⟨witnessed, legal⟩ := kept.told taskId transition old
      exact ⟨witnessed.grows grown.records, legal⟩
    · exact told taskId transition new.symm

theorem Kept.keep {being : Being} (kept : Kept being) {trace : DecisionTrace}
    (some_ : entriesOf trace.taskId being.journal ≠ []) : Kept (being.keep trace) where
  headed := kept.headed
  own := kept.own
  told := kept.told
  named := by
    intro taskId other live
    simp only [Being.keep, Dict.get?_set] at live
    split at live
    · rename_i same
      obtain rfl := Option.some.inj live
      exact ⟨same, same ▸ some_⟩
    · exact kept.named taskId other live

theorem Kept.grows {being after : Being} (kept : Kept being) (grown : Grown being after) : Kept after := by
  rw [grown.same]
  exact {
    headed := kept.headed, named := kept.named, own := kept.own
    told := fun taskId transition member => by
      obtain ⟨witnessed, legal⟩ := kept.told taskId transition member
      exact ⟨witnessed.grows grown.records, legal⟩ }

theorem entriesOf_journalized (being : Being) (entry : Entry) :
    entriesOf entry.taskId (being.journalize entry).journal ≠ [] := by
  simp [Being.journalize, entriesOf_snoc]

theorem some_of_rebuilt {taskId : Str} {journal : List Entry} {trace : DecisionTrace}
    (rebuilt : DecisionTrace.fromJournal (entriesOf taskId journal) = .ok trace) : entriesOf taskId journal ≠ [] := by
  intro empty
  rw [empty] at rebuilt
  cases rebuilt

theorem kept_step {being : Being} (kept : Kept being) (action : Action) : Kept (step crypto being action) := by
  have cases := @step_cases crypto being action
  generalize step crypto being action = after at cases ⊢
  cases cases with
  | grown grown => exact kept.grows grown
  | opened grown taskHash nodeId index =>
    refine (kept.journalize grown (fun _ => ⟨_, rfl, rfl⟩) ?_ (by simp)).keep (entriesOf_journalized _ (.opened ..))
    intro other member
    simp only [journalBeingIds, List.filterMap_cons, List.filterMap_nil] at member
    split at member
    · cases member
    · simp_all
  | moved live grown witnessed after legal =>
    obtain ⟨rfl, some_⟩ := kept.named _ _ live
    refine (@Kept.journalize being kept (.moved _ _) _ grown (fun empty => absurd empty some_)
      (by simp [journalBeingIds]) ?_).keep (entriesOf_journalized _ (.moved ..))
    intro taskId transition same
    obtain ⟨rfl, rfl⟩ := Entry.moved.inj same
    exact ⟨witnessed, _, after, legal⟩
  | enriched live fields =>
    obtain ⟨rfl, some_⟩ := kept.named _ _ live
    exact (@Kept.journalize being kept (.enriched _ fields) _ (.refl being) (fun empty => absurd empty some_)
      (by simp [journalBeingIds]) (by simp)).keep (entriesOf_journalized _ (.enriched ..))
  | recovered rebuilt =>
    refine { headed := kept.headed, own := kept.own, told := kept.told, named := fun taskId trace live => ?_ }
    have made := rebuilt taskId trace live
    have some_ := some_of_rebuilt made
    obtain ⟨other, made', named⟩ := kept.headed taskId some_
    obtain rfl := Except.ok.inj (made.symm.trans made')
    exact ⟨named, some_⟩
  | @stuck _ taskId trace rebuilt fields =>
    have some_ := some_of_rebuilt rebuilt
    obtain ⟨_, made, rfl⟩ := kept.headed _ some_
    obtain rfl := Except.ok.inj (rebuilt.symm.trans made)
    have noted := @Kept.journalize being kept (.enriched _ fields) _ (.refl being) (fun empty => absurd empty some_)
      (by simp [journalBeingIds]) (by simp)
    exact { headed := noted.headed, own := noted.own, told := noted.told, named := by simp }

def Being.fresh (chain : WitnessChain) (beingId profile : Str) : Being :=
  { beingId := beingId, profile := profile, chain := chain, journal := [], traces := [] }

theorem kept_run (chain : WitnessChain) (beingId profile : Str) (actions : List Action) :
    Kept (Run.run (step crypto) (Being.fresh chain beingId profile) actions) := by
  have start : Kept (Being.fresh chain beingId profile) := by
    constructor <;> simp [Being.fresh, entriesOf, Grouping.alike, journalBeingIds]
  have every : ∀ being action, Kept being → True → Kept (step crypto being action) :=
    fun being action kept _ => kept_step kept action
  exact Run.invariant_of_forall every start (fun _ _ => trivial)

def Settled (being : Being) : Prop :=
  ∀ taskId trace, DecisionTrace.fromJournal (entriesOf taskId being.journal) = .ok trace → trace.terminal

theorem entries_of_group {journal : List Entry} {group : Str × List Entry}
    (member : group ∈ journal.foldl (Grouping.collect id Entry.taskId) []) :
    group.2 = entriesOf group.1 journal ∧ entriesOf group.1 journal ≠ [] := by
  obtain ⟨entries, entry, inside, named⟩ := Grouping.group_eq member
  refine ⟨entries, List.ne_nil_of_mem (a := entry) ?_⟩
  simpa [entriesOf, Grouping.alike, inside] using named

theorem group_of_entries {journal : List Entry} {taskId : Str} (some_ : entriesOf taskId journal ≠ []) :
    ∃ group ∈ journal.foldl (Grouping.collect id Entry.taskId) [], group.1 = taskId := by
  obtain ⟨entry, member⟩ := List.exists_mem_of_ne_nil _ some_
  obtain ⟨inside, named⟩ := List.mem_filter.mp member
  obtain ⟨group, among, same⟩ := Grouping.exists_group id Entry.taskId inside
  exact ⟨group, among, same.trans (by simpa using named)⟩

/-- Recovery returns when every task has ended; else the first one in flight gets a line, and it raises. -/
theorem recoverTraces_cases {being : Being} (kept : Kept being) (karma : List KarmaLine) (salt : Bytes) :
    (Settled being ∧ ∃ traces, being.recoverTraces crypto salt karma = (.ok traces, being) ∧
      ∀ taskId, Dict.get? traces taskId =
        (DecisionTrace.fromJournal (entriesOf taskId being.journal)).toOption) ∨
    ∃ e trace fields, DecisionTrace.fromJournal (entriesOf trace.taskId being.journal) = .ok trace ∧
      trace.terminal = false ∧ being.recoverTraces crypto salt karma =
        (.error e, being.journalize (.enriched trace.taskId fields)) := by
  have mine : ¬(being.beingId ≠ [] ∧ ∃ other ∈ journalBeingIds being.journal, other ≠ being.beingId) :=
    fun ⟨_, other, member, different⟩ => different (kept.own other member)
  rw [Being.recoverTraces, if_neg mine]
  have cases := @resolveAll_cases crypto salt (orphanedIntents karma)
    (being.journal.foldl (Grouping.collect id Entry.taskId) []) being
  generalize Being.resolveAll crypto salt (orphanedIntents karma)
    (being.journal.foldl (Grouping.collect id Entry.taskId) []) being = outcome at cases ⊢
  cases cases with
  | settled traces rebuilt ended =>
    refine .inl ⟨?_, traces, rfl, ?_⟩
    · intro taskId trace made
      obtain ⟨group, member, rfl⟩ := group_of_entries (some_of_rebuilt made)
      obtain ⟨_, other, made', terminal⟩ := ended group member
      rw [(entries_of_group member).1, made] at made'
      exact Except.ok.inj made' ▸ terminal
    · intro taskId
      cases live : Dict.get? traces taskId with
      | some trace =>
        obtain ⟨group, member, rfl, made⟩ := rebuilt taskId trace live
        rw [← (entries_of_group member).1, made]
        rfl
      | none =>
        by_cases empty : entriesOf taskId being.journal = []
        · rw [empty]
          rfl
        · obtain ⟨group, member, rfl⟩ := group_of_entries empty
          have present := (ended group member).1
          rw [live] at present
          cases present
  | headless e group member raised =>
    obtain ⟨entries, some_⟩ := entries_of_group member
    obtain ⟨trace, made, _⟩ := kept.headed group.1 some_
    exact absurd (entries ▸ made) (raised trace)
  | stuck e group member trace rebuilt running fields =>
    obtain ⟨entries, some_⟩ := entries_of_group member
    obtain ⟨other, made, named⟩ := kept.headed group.1 some_
    rw [entries, made] at rebuilt
    obtain rfl := Except.ok.inj rebuilt
    exact .inr ⟨e, other, fields, named ▸ made, running, rfl⟩

theorem boot_stuck {being : Being} (kept : Kept being) (unsettled : ¬Settled being) (karma : List KarmaLine)
    (salt : Bytes) : (being.boot crypto salt karma).chain = being.chain ∧
      (being.boot crypto salt karma).journal.length = being.journal.length + 1 ∧
      ¬Settled (being.boot crypto salt karma) := by
  rcases @recoverTraces_cases crypto being kept karma salt with ⟨settled, _⟩ | ⟨e, trace, fields, made, running, raised⟩
  · exact absurd settled unsettled
  rw [Being.boot, raised]
  refine ⟨rfl, List.length_append, fun settled => ?_⟩
  have ended := settled trace.taskId (trace.enrich fields) (by
    simp only [Being.journalize, entriesOf_snoc, Entry.taskId, if_true]
    exact DecisionTrace.fromJournal_snoc made _)
  rw [DecisionTrace.terminal, DecisionTrace.enrich] at ended
  rw [DecisionTrace.terminal, ended] at running
  cases running

/-- After every run: when all tasks in the journal have ended, recovery returns their traces and writes nothing.
With one in flight it raises, at this restart and at every later one, and each leaves one more line in the journal. -/
theorem boots_until_settled (crypto : Crypto) (chain : WitnessChain) (beingId profile : Str) (actions : List Action) :
    let being := Run.run (step crypto) (Being.fresh chain beingId profile) actions
    (Settled being ∧ ∀ karma salt, ∃ traces, being.recoverTraces crypto salt karma = (.ok traces, being) ∧
      ∀ taskId, Dict.get? traces taskId =
        (DecisionTrace.fromJournal (entriesOf taskId being.journal)).toOption) ∨
    (¬Settled being ∧ ∀ (boots : List (List KarmaLine × Bytes)) karma salt,
      let later := Run.run (step crypto) being (boots.map (fun boot => .boot boot.1 boot.2))
      later.chain = being.chain ∧ later.journal.length = being.journal.length + boots.length ∧
        (later.recoverTraces crypto salt karma).1.isOk = false) := by
  intro being
  have kept : Kept being := kept_run chain beingId profile actions
  by_cases settled : Settled being
  · refine .inl ⟨settled, fun karma salt => ?_⟩
    rcases @recoverTraces_cases crypto being kept karma salt with ⟨_, found⟩ | ⟨_, trace, _, made, running, _⟩
    · exact found
    · rw [settled _ trace made] at running
      cases running
  · refine .inr ⟨settled, fun boots => ?_⟩
    clear_value being
    induction boots generalizing being with
    | nil =>
      intro karma salt
      refine ⟨rfl, rfl, ?_⟩
      rcases @recoverTraces_cases crypto being kept karma salt with ⟨ended, _⟩ | ⟨e, trace, fields, _, _, raised⟩
      · exact absurd ended settled
      · simp only [List.map_nil, Run.run_nil, raised]
        rfl
    | cons boot rest ih =>
      intro karma salt
      obtain ⟨chain_, lines, unsettled⟩ := @boot_stuck crypto being kept settled boot.1 boot.2
      obtain ⟨same, count, raises⟩ := ih _ (kept_step kept (.boot boot.1 boot.2)) unsettled karma salt
      refine ⟨same.trans chain_, ?_, raises⟩
      rw [List.length_cons]
      exact count.trans (by rw [step, lines]; omega)

end JJDai.Runtime
