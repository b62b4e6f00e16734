import JJDai.Anchoring.FalseGreen

/-! What a scheduler that is built again knows of the rounds before it. -/

namespace JJDai

open PyText

/-- An answer names the node, the backend and the count it was asked for, as every backend does. -/
structure Echoes (nodeId name : Str) (count : Nat) (r : Json) : Prop where
  node : dotGet r "node" = .ok (.str nodeId)
  backend : dotGet r "backend" = .ok (.str name)
  count : getDefault r "count" (.int 0) = .ok (.int count)

def pendingStates : List Str := ["pending"]

def knownStates : List Str := terminalSuccess ++ custodyStates ++ pendingStates ++ failedStates

/-- The states that hold a proof or have settled. -/
def heldStates : List Str := terminalSuccess ++ custodyStates

theorem isOneOf_append (value : Json) (front back : List Str) :
    isOneOf value (front ++ back) = (isOneOf value front || isOneOf value back) := List.any_append

namespace Mark

theorem replay_held {mark : Mark} {status ts : Json} {count : Nat} (held : isOneOf status heldStates = true)
    (clear : mark.lastFailure = none) :
    mark.replay status ts count = (mark.attempt count).answered status ts count ∧
      (mark.replay status ts count).lastFailure = none := by
  rw [heldStates, isOneOf_append, Bool.or_eq_true] at held
  unfold replay answered
  by_cases terminal : isOneOf status terminalSuccess = true
  · simp only [terminal, if_true]
    have same : ((mark.attempt count).settle count ts).lastFailure = none := clear
    constructor
    · rw [← same]
    · exact same
  · have custody := held.resolve_left terminal
    simp only [terminal, custody, Bool.false_eq_true, if_true, if_false]
    have same : ((mark.attempt count).hold count).lastFailure = none := clear
    constructor
    · rw [← same]
    · exact same

theorem replay_failed {mark : Mark} {status ts : Json} {count : Nat} (failed : isOneOf status failedStates = true) :
    mark.replay status ts count = (mark.attempt count).answered status ts count := by
  obtain rfl : status = .str "failed" := by simpa [isOneOf, failedStates] using failed
  have unsettled : isOneOf (.str (Str.ofString "failed")) terminalSuccess = false := by decide
  have unheld : isOneOf (.str (Str.ofString "failed")) custodyStates = false := by decide
  have known : isOneOf (.str (Str.ofString "failed")) failedStates = true := by decide
  simp [replay, answered, unsettled, unheld, known]

end Mark

namespace AnchorScheduler

variable {Time : Type} {crypto : Crypto} {clock : Clock Time}

theorem replayLog_append {nodeId : Str} {names : List Str} {marks : Str → Mark} (front back : List Json) :
    replayLog nodeId names marks (front ++ back) =
      (replayLog nodeId names marks front).bind (fun middle => replayLog nodeId names middle back) := by
  induction front generalizing marks with
  | nil => rfl
  | cons r rest ih =>
    rw [List.cons_append, replayLog, replayLog]
    cases node : dotGet r "node" with
    | error e => rfl
    | ok value =>
      simp only [bind, Except.bind]
      split
      · exact ih
      · cases dotGet r "backend" with
        | error e => rfl
        | ok backend =>
          simp only
          cases getDefault r "count" (.int 0) with
          | error e => rfl
          | ok stated =>
            simp only
            cases pyInt stated with
            | error e => rfl
            | ok count =>
              simp only
              split
              · rfl
              · split
                · split
                  · cases dotGet r "status" with
                    | error e => rfl
                    | ok status =>
                      simp only
                      cases dotGet r "ts" with
                      | error e => rfl
                      | ok ts => exact ih
                  · exact ih
                · exact ih

theorem replayLog_echo {nodeId name : Str} {names : List Str} {marks : Str → Mark} {count : Nat}
    {r status ts : Json} (echoes : Echoes nodeId name count r) (configured : name ∈ names)
    (statusRead : dotGet r "status" = .ok status) (tsRead : dotGet r "ts" = .ok ts) :
    replayLog nodeId names marks [r] = .ok (changeMark marks name (fun mark => mark.replay status ts count)) := by
  simp [replayLog, echoes.node, echoes.backend, echoes.count, statusRead, tsRead, configured, bind, Except.bind,
    pyInt, pure, Except.pure, hashable]

/-- The log tells what the scheduler knows. -/
def Remembers (crypto : Crypto) (s : AnchorScheduler Time) : Prop :=
  replayLog (s.host.chain.nodeId crypto) s.backends (fun _ => {}) s.log.receipts = .ok s.marks

theorem AnchorLog.add_taken {log : AnchorLog} {r : Json} (taken : (log.add r).2 = .ok ()) :
    (log.add r).1.receipts = log.receipts ++ [r] := by
  unfold AnchorLog.add at taken ⊢
  split at taken
  · cases taken
  · cases taken
  · simp only at taken ⊢
    split at taken
    · cases taken
    · rfl

theorem receive_taken {s : AnchorScheduler Time} {name : Str} {r : Json} {count : Nat}
    (taken : (s.receive name r count).2 = .ok ()) : ∃ status ts, dotGet r "status" = .ok status ∧
      dotGet r "ts" = .ok ts ∧ (s.receive name r count).1.host = s.host ∧
      (s.receive name r count).1.backends = s.backends ∧
      (s.receive name r count).1.log.receipts = s.log.receipts ++ [r] ∧
      (s.receive name r count).1.marks =
        changeMark s.marks name (fun mark => (mark.attempt count).answered status ts count) := by
  have twice (status ts : Json) : changeMark (changeMark s.marks name (fun mark => mark.attempt count)) name
      (fun mark => mark.answered status ts count) =
        changeMark s.marks name (fun mark => (mark.attempt count).answered status ts count) := by
    funext other
    by_cases same : other = name <;> simp [changeMark, same]
  unfold receive at taken ⊢
  cases added : s.log.add r with
  | mk log out =>
    have recorded := @AnchorLog.add_taken s.log r
    rw [added] at taken recorded
    cases out with
    | error e => cases taken
    | ok =>
      simp only at taken
      cases status : dotGet r "status" with
      | error e =>
        rw [status] at taken
        cases taken
      | ok value =>
        cases ts : dotGet r "ts" with
        | error e =>
          rw [status, ts] at taken
          cases taken
        | ok time =>
          exact ⟨value, time, rfl, rfl, rfl, rfl, recorded rfl, twice value time⟩

/-- An answer that both readings take the same way keeps the log and the marks together. -/
theorem receive_remembers {s : AnchorScheduler Time} {name : Str} {r : Json} {count : Nat}
    (remembers : Remembers crypto s) (configured : name ∈ s.backends)
    (echoes : Echoes (s.host.chain.nodeId crypto) name count r)
    (calm : ∀ status, dotGet r "status" = .ok status → isOneOf status failedStates = true ∨
      isOneOf status heldStates = true ∧ (s.marks name).lastFailure = none)
    (taken : (s.receive name r count).2 = .ok ()) : Remembers crypto (s.receive name r count).1 := by
  obtain ⟨status, ts, statusRead, tsRead, host, backends, receipts, marks⟩ := receive_taken taken
  have agree : (s.marks name).replay status ts count = ((s.marks name).attempt count).answered status ts count := by
    rcases calm status statusRead with failed | ⟨held, clear⟩
    · exact Mark.replay_failed failed
    · exact (Mark.replay_held held clear).1
  unfold Remembers at remembers ⊢
  rw [host, backends, receipts, marks, replayLog_append, remembers]
  refine (replayLog_echo echoes configured statusRead tsRead).trans (congrArg Except.ok ?_)
  funext other
  by_cases same : other = name
  · rw [same, changeMark_self, changeMark_self, agree]
  · simp [changeMark, same]

/-- What the loop of a round asks of its answers. -/
def Calm (marks : Str → Mark) (answers : Nat → Json) (i : Nat) (targets : List Str) : Prop :=
  ∀ k name status, targets[k]? = some name → dotGet (answers (i + k)) "status" = .ok status →
    isOneOf status failedStates = true ∨
      isOneOf status heldStates = true ∧ (marks name).lastFailure = none ∧
        ∀ j < k, targets[j]? = some name → ∀ earlier, dotGet (answers (i + j)) "status" = .ok earlier →
          isOneOf earlier failedStates = false

theorem submitAll_remembers {count : Nat} {answers : Nat → Json} {targets : List Str} {s : AnchorScheduler Time}
    {i : Nat} (remembers : Remembers crypto s) (configured : ∀ name ∈ targets, name ∈ s.backends)
    (echoes : ∀ k name, targets[k]? = some name →
      Echoes (s.host.chain.nodeId crypto) name count (answers (i + k)))
    (calm : Calm s.marks answers i targets) (taken : (submitAll count answers s i targets).2.isOk = true) :
    Remembers crypto (submitAll count answers s i targets).1 := by
  induction targets generalizing s i with
  | nil => exact remembers
  | cons name rest ih =>
    rw [submitAll_cons] at taken ⊢
    have first : (s.receive name (answers i) count).2 = .ok () →
        Remembers crypto (s.receive name (answers i) count).1 :=
      receive_remembers remembers (configured name List.mem_cons_self) (echoes 0 name rfl)
      (fun status read => (calm 0 name status rfl read).imp_right (fun held => ⟨held.1, held.2.1⟩))
    have after := @receive_taken _ s name (answers i) count
    cases received : s.receive name (answers i) count with
    | mk next out =>
      rw [received] at taken first after
      cases out with
      | error e => cases taken
      | ok =>
        obtain ⟨status, ts, statusRead, _, host, backends, _, marks⟩ := after rfl
        have later := @ih next (i + 1) (first rfl) (fun other member => by
            rw [backends]
            exact configured other (List.mem_cons_of_mem _ member))
          (fun k other named => by
            rw [host]
            have shift : i + 1 + k = i + (k + 1) := by omega
            rw [shift]
            exact echoes (k + 1) other named)
          (fun k other status' named read => by
            have shift : i + 1 + k = i + (k + 1) := by omega
            rw [shift] at read
            refine (calm (k + 1) other status' named read).imp_right ?_
            rintro ⟨held, clear, before⟩
            refine ⟨held, ?_, ?_⟩
            · rw [marks]
              by_cases same : other = name
              · subst same
                have well := before 0 (Nat.succ_pos k) rfl status statusRead
                obtain ⟨held, clear⟩ := (calm 0 other status rfl statusRead).resolve_left (by simp [well])
                rw [changeMark_self]
                have both := @Mark.replay_held _ _ ts count held clear.1
                rw [← both.1]
                exact both.2
              · rw [changeMark, if_neg same]
                exact clear
            · intro j below named' earlier read'
              have shift' : i + 1 + j = i + (j + 1) := by omega
              rw [shift'] at read'
              exact before (j + 1) (Nat.succ_lt_succ below) named' earlier read')
        simp only at taken ⊢
        cases submitted : submitAll count answers next (i + 1) rest with
        | mk last out =>
          rw [submitted] at taken later
          cases out with
          | error e => cases taken
          | ok receipts => exact later rfl

theorem make_remembers {host : Host} {backends : List Str} {given : Option (List Str)} {log : AnchorLog}
    {s : AnchorScheduler Time} (made : make crypto clock host backends given log = .ok s) :
    Remembers crypto s := by
  unfold make at made
  split at made
  · cases made
  · simp only [bind, Py.bind_ok] at made
    obtain ⟨marks, replayed, made⟩ := made
    obtain rfl := Except.ok.inj made
    exact replayed

theorem Remembers.append {s : AnchorScheduler Time} {host : Host} {call : AppendCall}
    (remembers : Remembers crypto s) (made : s.host.append crypto call = .ok host) :
    Remembers crypto { s with host } := by
  obtain ⟨record, chain, _⟩ := Host.append_adds made
  unfold Remembers at remembers ⊢
  simp only [chain]
  exact remembers

variable (crypto clock) in
/-- A round that completes, with the answers that backends give. -/
structure Completed (s : AnchorScheduler Time) (now : Time) (answers : Nat → Json) (timestamp : Str)
    (salt : Bytes) : Prop where
  returns : (s.anchorRound crypto clock now answers timestamp salt).2.isOk = true
  echoes : ∀ i name, (s.targets clock now)[i]? = some name →
    Echoes (s.host.chain.nodeId crypto) name s.host.chain.records.length (answers i)
  known : ∀ i name, (s.targets clock now)[i]? = some name →
    ∃ status, dotGet (answers i) "status" = .ok status ∧ isOneOf status knownStates = true

variable (clock) in
/-- No answer is `pending`, and none holds the range for a backend with a failure on record. -/
def Unforgotten (s : AnchorScheduler Time) (now : Time) (answers : Nat → Json) : Prop :=
  ∀ i name status, (s.targets clock now)[i]? = some name → dotGet (answers i) "status" = .ok status →
    isOneOf status pendingStates = false ∧ (isOneOf status heldStates = true →
      (s.marks name).lastFailure = none ∧ ∀ j < i, (s.targets clock now)[j]? = some name →
        ∀ earlier, dotGet (answers j) "status" = .ok earlier → isOneOf earlier failedStates = false)

variable (crypto clock) in
def Regular (s : AnchorScheduler Time) : AnchorEvent Time → Prop
  | .act (.round now answers timestamp salt) => Completed crypto clock s now answers timestamp salt
  | _ => True

variable (clock) in
/-- The rounds of a run leave nothing that the log does not tell. -/
def Told (s : AnchorScheduler Time) : AnchorEvent Time → Prop
  | .act (.round now answers _ _) => Unforgotten clock s now answers
  | _ => True

theorem Completed.calm {s : AnchorScheduler Time} {now : Time} {answers : Nat → Json} {timestamp : Str}
    {salt : Bytes} (completed : Completed crypto clock s now answers timestamp salt)
    (unforgotten : Unforgotten clock s now answers) : Calm s.marks answers 0 (s.targets clock now) := by
  intro k name status named read
  rw [Nat.zero_add] at read
  obtain ⟨other, otherRead, known⟩ := completed.known k name named
  obtain rfl := Except.ok.inj (read.symm.trans otherRead)
  obtain ⟨settled, rest⟩ := unforgotten k name status named read
  rw [knownStates, ← heldStates, isOneOf_append, isOneOf_append, settled, Bool.or_false, Bool.or_eq_true] at known
  rcases known with held | failed
  · obtain ⟨clear, before⟩ := rest held
    refine .inr ⟨held, clear, fun j below named' earlier read' => ?_⟩
    rw [Nat.zero_add] at read'
    exact before j below named' earlier read'
  · exact .inl failed

theorem anchorRound_taken {s : AnchorScheduler Time} {now : Time} {answers : Nat → Json} {timestamp : Str}
    {salt : Bytes} (returns : (s.anchorRound crypto clock now answers timestamp salt).2.isOk = true) :
    (s.anchorRound crypto clock now answers timestamp salt).1 = s ∨ (s.gather clock now answers).2.isOk = true := by
  unfold anchorRound at returns ⊢
  cases rooted : Replication.chainRoot crypto s.host.chain with
  | error e => exact .inl rfl
  | ok root =>
    rw [rooted] at returns
    simp only at returns ⊢
    by_cases idle : s.host.chain.records.length = 0 ∨ ¬(s.substantive || s.retryDue clock now) = true
    · rw [if_pos idle]
      exact .inl rfl
    · right
      rw [if_neg idle] at returns
      cases gathered : s.gather clock now answers with
      | mk next out =>
        rw [gathered] at returns
        cases out with
        | error e => cases returns
        | ok receipts => rfl

theorem round_remembers {s : AnchorScheduler Time} {now : Time} {answers : Nat → Json} {timestamp : Str}
    {salt : Bytes} (remembers : Remembers crypto s)
    (completed : Completed crypto clock s now answers timestamp salt)
    (unforgotten : Unforgotten clock s now answers) :
    Remembers crypto (s.anchorRound crypto clock now answers timestamp salt).1 := by
  rcases anchorRound_taken completed.returns with same | taken
  · rw [same]
    exact remembers
  · have inside : ∀ name ∈ s.targets clock now, name ∈ s.backends := by
      intro name member
      unfold targets at member
      split at member
      · exact (List.mem_filter.mp member).1
      · exact member
    have kept : Remembers crypto (s.gather clock now answers).1 :=
      submitAll_remembers (s := { s with lastAttempt := some now }) remembers inside
        (fun k name named => by
          rw [Nat.zero_add]
          exact completed.echoes k name named)
        (completed.calm unforgotten) taken
    rcases @anchorRound_cases _ crypto clock s now answers timestamp salt with same | ⟨retry, made⟩ |
      ⟨retry, receipts, host, appends, made⟩
    · rw [same]
      exact remembers
    · rw [made]
      exact kept
    · obtain ⟨call, _, appended⟩ := appends.appended
      rw [made]
      exact kept.append appended

theorem live_remembers {s : AnchorScheduler Time} {event : AnchorEvent Time} (remembers : Remembers crypto s)
    (regular : Regular crypto clock s event) (told : Told clock s event) :
    Remembers crypto (s.live crypto clock event) := by
  cases event with
  | act action =>
    cases action with
    | append call =>
      simp only [live, step]
      split
      · rename_i host made
        exact remembers.append made
      · exact remembers
    | round now answers timestamp salt => exact round_remembers remembers regular told
  | rebuild backends given =>
    simp only [live]
    split
    · rename_i later made
      exact make_remembers made
    · exact remembers
  | restart path backends given =>
    simp only [live]
    split
    · rename_i later made
      rw [Py.bind_ok] at made
      obtain ⟨log, _, made⟩ := made
      exact make_remembers made
    · exact remembers

/-- `covered_by`, `custody_by`, `attempted_by`, `last_success_by` and `last_failure` of
`anchor_status()`, name by name. -/
def knownBy (s : AnchorScheduler Time) : Dict Str Mark :=
  s.backends.eraseDups.map (fun name => (name, s.marks name))

variable (crypto clock) in
/-- A scheduler over the same chain, backends and log reports the same. -/
def RestartKnows (s : AnchorScheduler Time) : Prop :=
  ∀ given, ∃ later, make crypto clock s.host s.backends given s.log = .ok later ∧ later.knownBy = s.knownBy

theorem Remembers.restart {s : AnchorScheduler Time} (remembers : Remembers crypto s) :
    RestartKnows crypto clock s := by
  intro given
  unfold Remembers at remembers
  refine ⟨{ s with required := requiredBackends s.backends given, nextRetry := clock.zero, lastAttempt := none },
    ?_, rfl⟩
  rw [make, dif_neg s.some_backend, remembers]
  rfl

section Sample

def receiptWith (nodeId name status : Str) (count : Nat) : Json :=
  .obj [("backend", .str name), ("node", .str nodeId), ("root", .str "r"), ("count", .int count),
    ("status", .str status), ("ts", .int 1)]

/-- A round in which every backend that is asked answers with one status. -/
def roundOf (s : AnchorScheduler Nat) (now : Nat) (status : Str) : AnchorEvent Nat :=
  .act (.round now (fun i => receiptWith (s.host.chain.nodeId .sample) (((s.targets minutes now)[i]?).getD [])
    status s.host.chain.records.length) "t" [])

def roundReturns (s : AnchorScheduler Nat) (now : Nat) (status : Str) : Bool :=
  match roundOf s now status with
  | .act (.round now answers timestamp salt) => (s.anchorRound .sample minutes now answers timestamp salt).2.isOk
  | _ => false

theorem roundOf_regular {s : AnchorScheduler Nat} {now : Nat} {status : Str}
    (known : isOneOf (.str status) knownStates = true) (returns : roundReturns s now status = true) :
    Regular .sample minutes s (roundOf s now status) where
  returns := returns
  echoes i name named := by
    rw [named]
    exact ⟨rfl, rfl, rfl⟩
  known _ _ _ := ⟨.str status, rfl, known⟩

theorem roundOf_told {s : AnchorScheduler Nat} {now : Nat} {status : Str}
    (settled : isOneOf (.str status) pendingStates = false) (unheld : isOneOf (.str status) heldStates = false) :
    Told minutes s (roundOf s now status) := by
  intro i name read named made
  obtain rfl := Except.ok.inj made
  exact ⟨settled, fun held => absurd held (by simp [unheld])⟩

/-- A chain with one record, whose only calendar has failed once. -/
def failedScheduler : AnchorScheduler Nat where
  host := workedHost
  backends := ["ots-calendar"]
  some_backend := List.cons_ne_nil _ _
  required := requiredBackends ["ots-calendar"] none
  log := { receipts := [receiptWith (workedHost.chain.nodeId .sample) "ots-calendar" "failed" 1] }
  marks := changeMark (fun _ => {}) "ots-calendar" (fun mark => mark.replay (.str "failed") (.int 1) 1)
  nextRetry := minutes.zero

theorem failedScheduler_made :
    make .sample minutes workedHost ["ots-calendar"] none failedScheduler.log = .ok failedScheduler := by
  have echoes : Echoes (workedHost.chain.nodeId .sample) "ots-calendar" 1
      (receiptWith (workedHost.chain.nodeId .sample) "ots-calendar" "failed" 1) := ⟨rfl, rfl, rfl⟩
  rw [make, dif_neg (List.cons_ne_nil _ _), failedScheduler]
  simp only [replayLog_echo echoes List.mem_cons_self rfl rfl, bind, Except.bind]
  rfl

/-- A scheduler built again has other failures on record. -/
def otherFailures (s : AnchorScheduler Nat) : Bool :=
  match make .sample minutes s.host s.backends none s.log with
  | .error _ => false
  | .ok later => decide (later.knownBy.map (fun entry => entry.2.lastFailure) ≠
      s.knownBy.map (fun entry => entry.2.lastFailure))

theorem not_knows_of_otherFailures {s : AnchorScheduler Nat} (shown : otherFailures s = true) :
    ¬RestartKnows .sample minutes s := by
  intro knows
  obtain ⟨later, made, same⟩ := knows none
  rw [otherFailures, made] at shown
  simp [same] at shown

theorem held_after_failure : (roundReturns failedScheduler 100 "pending-attestation" &&
    otherFailures (failedScheduler.live .sample minutes (roundOf failedScheduler 100 "pending-attestation"))) =
      true := by
  decide +kernel

end Sample

end AnchorScheduler

end JJDai
