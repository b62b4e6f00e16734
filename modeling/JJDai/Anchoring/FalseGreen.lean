import JJDai.Anchoring.Readiness

/-! When a green light on anchoring rests on a receipt of every required backend. -/

namespace JJDai

open PyText

section Rule

variable {Lag : Type} {policy : AnchorPolicy Lag}

/-- Without a policy a backend is green when it has succeeded, holds nothing open and is not behind. -/
theorem backend_ready {f : BackendFacts Lag} : (backendAnchorState .none f).1 = .ready ↔
    f.never = false ∧ f.inCustody = false ∧ f.behind = false := by
  have no_policy : f.lag.bind AnchorPolicy.none.overLag = none := by
    cases f.lag <;> rfl
  unfold backendAnchorState
  rw [no_policy]
  cases f.never <;> cases f.inCustody <;> cases f.behind <;> simp [AnchorPolicy.none]
  all_goals split <;> simp

theorem backend_configured (f : BackendFacts Lag) : (backendAnchorState policy f).1 ≠ .notConfigured := by
  simp only [backendAnchorState]
  repeat' split
  all_goals simp

theorem required_configured (facts : Dict Str (BackendFacts Lag)) (name : Str) :
    (requiredState policy facts name).1 ≠ .notConfigured := by
  unfold requiredState
  cases Dict.get? facts name with
  | none => simp
  | some f => exact backend_configured f

theorem get?_states (states : Str → Readiness × Str) (names : List Str) (held : Dict Str Readiness)
    (name : Str) : Dict.get? ((names.map (fun name => (name, states name))).foldl
      (fun held entry => Dict.set held entry.1 entry.2.1) held) name =
      if name ∈ names then some (states name).1 else Dict.get? held name := by
  induction names generalizing held with
  | nil => rfl
  | cons first rest ih =>
    rw [List.map_cons, List.foldl_cons, ih, Dict.get?_set]
    by_cases later : name ∈ rest
    · rw [if_pos later, if_pos (List.mem_cons_of_mem _ later)]
    · by_cases same : first = name
      · subst same
        rw [if_neg later, if_pos rfl, if_pos List.mem_cons_self]
      · rw [if_neg later, if_neg same, if_neg (by simp [Ne.symm same, later])]

theorem evaluate_ready {snap : AnchorSnapshot Lag} (ready : (evaluateAnchoring policy snap).state = .ready) :
    snap.externalConfigured = true ∧
      ∀ name ∈ snap.required, (requiredState policy snap.backendFacts name).1 = .ready := by
  unfold evaluateAnchoring at ready
  split at ready
  · cases ready
  · split at ready
    · cases ready
    · rename_i external
      split at ready
      · cases ready
      · refine ⟨by simpa using external, fun name member => ?_⟩
        have held := Dict.mem_of_get? ((get?_states (requiredState policy snap.backendFacts) snap.required []
          name).trans (if_pos member))
        have value := List.mem_map_of_mem (f := Prod.snd) held
        simp only at ready value
        split at ready
        · cases ready
        · rename_i sound
          split at ready
          · cases ready
          · rename_i settled
            cases state : (requiredState policy snap.backendFacts name).1 with
            | ready => rfl
            | degraded => exact absurd (state ▸ value) settled
            | notReady => exact absurd (state ▸ value) sound
            | notConfigured => exact absurd state (required_configured _ _)

theorem evaluate_congr {snap other : AnchorSnapshot Lag} (configured : snap.configured = other.configured)
    (external : snap.externalConfigured = other.externalConfigured) (required : snap.required = other.required)
    (facts : ∀ name ∈ snap.required, Dict.get? snap.backendFacts name = Dict.get? other.backendFacts name) :
    (evaluateAnchoring policy snap).state = (evaluateAnchoring policy other).state := by
  have judged : snap.required.map (fun name => (name, requiredState policy snap.backendFacts name)) =
      other.required.map (fun name => (name, requiredState policy other.backendFacts name)) := by
    rw [← required]
    refine List.map_congr_left (fun name member => ?_)
    rw [requiredState, requiredState, facts name member]
  unfold evaluateAnchoring
  rw [configured, external, judged, required]
  split
  · rfl
  · split
    · rfl
    · split <;> rfl

end Rule

section Facts

variable {Lag : Type} {clock : LagClock Lag} {per : Dict Str BackendStatus} {facts : Dict Str (BackendFacts Lag)}

def convert (clock : LagClock Lag) (entry : Str × BackendStatus) : Py (Str × BackendFacts Lag) := do
  let facts ← backendFactsOf clock entry.2
  return (entry.1, facts)

theorem get?_converted (made : per.mapM (convert clock) = .ok facts) (name : Str) :
    (Dict.get? per name = none ∧ Dict.get? facts name = none) ∨
      ∃ status f, Dict.get? per name = some status ∧ Dict.get? facts name = some f ∧
        backendFactsOf clock status = .ok f := by
  induction Py.mapM_ok.mp made with
  | nil => exact .inl ⟨rfl, rfl⟩
  | @cons entry result _ _ first rest ih =>
    simp only [convert, bind, Py.bind_ok] at first
    obtain ⟨f, converted, made⟩ := first
    obtain rfl := Except.ok.inj made
    obtain ⟨key, status⟩ := entry
    rw [Dict.get?_cons, Dict.get?_cons]
    by_cases same : key = name
    · rw [if_pos same, if_pos same]
      exact .inr ⟨status, f, rfl, rfl, converted⟩
    · rw [if_neg same, if_neg same]
      exact ih (Py.mapM_ok.mpr rest)

theorem backendFactsOf_ok {status : BackendStatus} {f : BackendFacts Lag}
    (made : backendFactsOf clock status = .ok f) :
    f.never = status.never ∧ f.inCustody = status.inCustody ∧ f.behind = status.behind := by
  simp only [backendFactsOf, bind, Py.bind_ok] at made
  obtain ⟨lag, _, made⟩ := made
  obtain rfl := Except.ok.inj made
  exact ⟨rfl, rfl, rfl⟩

theorem anchorFacts_ok {status : AnchorStatus} {snap : AnchorSnapshot Lag}
    (made : anchorFacts clock status = .ok snap) :
    status.perBackend.mapM (convert clock) = .ok snap.backendFacts ∧
      snap.configured = true ∧ snap.externalConfigured = status.externalConfigured ∧
      snap.required = status.requiredBackends := by
  simp only [anchorFacts, bind, Py.bind_ok] at made
  obtain ⟨facts, converted, made⟩ := made
  obtain rfl := Except.ok.inj made
  exact ⟨converted, rfl, rfl, rfl⟩

theorem state_of_required {policy : AnchorPolicy Lag} {status other : AnchorStatus}
    {snap otherSnap : AnchorSnapshot Lag} (external : status.externalConfigured = other.externalConfigured)
    (required : status.requiredBackends = other.requiredBackends)
    (same : ∀ name ∈ status.requiredBackends,
      Dict.get? status.perBackend name = Dict.get? other.perBackend name)
    (made : anchorFacts clock status = .ok snap) (otherMade : anchorFacts clock other = .ok otherSnap) :
    (evaluateAnchoring policy snap).state = (evaluateAnchoring policy otherSnap).state := by
  obtain ⟨converted, configured, externalSame, requiredSame⟩ := anchorFacts_ok made
  obtain ⟨converted', configured', externalSame', requiredSame'⟩ := anchorFacts_ok otherMade
  apply evaluate_congr
  · rw [configured, configured']
  · rw [externalSame, externalSame', external]
  · rw [requiredSame, requiredSame', required]
  · intro name member
    rw [requiredSame] at member
    have equal := same name member
    rcases get?_converted converted name with ⟨absent, none_left⟩ | ⟨f, facts, found, held, made⟩
    · rcases get?_converted converted' name with ⟨_, none_right⟩ | ⟨f', _, found', _, _⟩
      · rw [none_left, none_right]
      · rw [← equal, absent] at found'
        cases found'
    · rcases get?_converted converted' name with ⟨absent', _⟩ | ⟨f', facts', found', held', made'⟩
      · rw [← equal, found] at absent'
        cases absent'
      · obtain rfl := Option.some.inj (found.symm.trans (equal.trans found'))
        rw [held, held', ← Except.ok.inj (made.symm.trans made')]

end Facts

/-- A receipt of a settled anchor of this node at this backend, for no fewer than `count` records. -/
structure Confirms (nodeId name : Str) (r : Json) (count : Nat) : Prop where
  node : dotGet r "node" = .ok (.str nodeId)
  backend : dotGet r "backend" = .ok (.str name)
  settled : ∃ status, dotGet r "status" = .ok status ∧ isOneOf status terminalSuccess = true
  reaches : ∃ stated, (getDefault r "count" (.int 0)).bind pyInt = .ok stated ∧ count ≤ stated.toNat

theorem Confirms.mono {nodeId name : Str} {r : Json} {count fewer : Nat} (confirms : Confirms nodeId name r count)
    (order : fewer ≤ count) : Confirms nodeId name r fewer where
  node := confirms.node
  backend := confirms.backend
  settled := confirms.settled
  reaches := by
    obtain ⟨stated, read, reaches⟩ := confirms.reaches
    exact ⟨stated, read, order.trans reaches⟩

/-- Nothing was settled, or a receipt says how far. -/
def Backed (nodeId : Str) (receipts : List Json) (name : Str) (mark : Mark) : Prop :=
  (mark.lastSuccess = .null ∧ mark.covered = 0) ∨ ∃ r ∈ receipts, Confirms nodeId name r mark.covered

section Backed

variable {nodeId name : Str} {receipts more : List Json} {mark : Mark}

theorem Backed.mono (backed : Backed nodeId receipts name mark) (kept : ∀ r ∈ receipts, r ∈ more) :
    Backed nodeId more name mark := by
  rcases backed with fresh | ⟨r, member, confirms⟩
  · exact .inl fresh
  · exact .inr ⟨r, kept r member, confirms⟩

theorem Backed.settle {r ts : Json} {count : Nat} (backed : Backed nodeId receipts name mark)
    (member : r ∈ receipts) (confirms : Confirms nodeId name r count) :
    Backed nodeId receipts name (mark.settle count ts) := by
  right
  by_cases further : mark.covered ≤ count
  · exact ⟨r, member, confirms.mono (max_le further le_rfl)⟩
  · rcases backed with ⟨_, none_covered⟩ | ⟨old, inside, before⟩
    · omega
    · exact ⟨old, inside, before.mono (max_le le_rfl (Nat.le_of_not_le further))⟩

theorem Backed.answered {r status ts : Json} {count : Nat} (backed : Backed nodeId receipts name mark)
    (member : r ∈ receipts)
    (confirms : isOneOf status terminalSuccess = true → Confirms nodeId name r count) :
    Backed nodeId receipts name (mark.answered status ts count) := by
  unfold Mark.answered
  split
  · rename_i terminal
    exact backed.settle member (confirms terminal)
  · split <;> exact backed

theorem Backed.replay {r status ts : Json} {count : Nat} (backed : Backed nodeId receipts name mark)
    (member : r ∈ receipts)
    (confirms : isOneOf status terminalSuccess = true → Confirms nodeId name r count) :
    Backed nodeId receipts name (mark.replay status ts count) := by
  have tried : Backed nodeId receipts name (mark.attempt count) := backed
  unfold Mark.replay
  simp only
  split
  · rename_i terminal
    exact tried.settle member (confirms terminal)
  · split
    · exact tried
    · split <;> exact tried

end Backed

namespace AnchorScheduler

variable {Time : Type} {crypto : Crypto} {clock : Clock Time}

theorem replayLog_backed {nodeId : Str} {names : List Str} {receipts rest : List Json} {marks later : Str → Mark}
    (inside : ∀ r ∈ rest, r ∈ receipts) (backed : ∀ name, Backed nodeId receipts name (marks name))
    (made : replayLog nodeId names marks rest = .ok later) :
    ∀ name, Backed nodeId receipts name (later name) := by
  induction rest generalizing marks with
  | nil =>
    obtain rfl := Except.ok.inj made
    exact backed
  | cons r rest ih =>
    have others : ∀ r ∈ rest, r ∈ receipts := fun r member => inside r (List.mem_cons_of_mem _ member)
    simp only [replayLog, bind, Py.bind_ok] at made
    obtain ⟨node, nodeRead, made⟩ := made
    split at made
    · exact ih others backed made
    · rename_i own
      obtain rfl := not_not.mp own
      simp only [Py.bind_ok] at made
      obtain ⟨backend, backendRead, value, valueRead, count, counted, made⟩ := made
      rw [Py.unless_ok] at made
      obtain ⟨_, made⟩ := made
      split at made
      · rename_i named
        split at made
        · simp only [Py.bind_ok] at made
          obtain ⟨status, statusRead, ts, _, made⟩ := made
          refine ih others (fun name => ?_) made
          unfold changeMark
          split
          · rename_i same
            subst same
            refine (backed name).replay (inside r List.mem_cons_self) (fun terminal => ?_)
            refine ⟨nodeRead, backendRead, ⟨status, statusRead, terminal⟩, count, ?_, le_rfl⟩
            rw [valueRead]
            exact counted
          · exact backed name
        · exact ih others backed made
      · exact ih others backed made

theorem AnchorLog.add_receipts (log : AnchorLog) (r : Json) :
    (∀ old ∈ log.receipts, old ∈ (log.add r).1.receipts) ∧
      ((log.add r).2 = .ok () → r ∈ (log.add r).1.receipts) := by
  unfold AnchorLog.add
  split
  · exact ⟨fun _ member => member, nofun⟩
  · exact ⟨fun _ member => member, nofun⟩
  · simp only
    split
    · exact ⟨fun _ member => List.mem_append_left _ member, nofun⟩
    · exact ⟨fun _ member => List.mem_append_left _ member,
        fun _ => List.mem_append_right _ (List.mem_singleton_self r)⟩

def AllBacked (crypto : Crypto) (s : AnchorScheduler Time) : Prop :=
  ∀ name, Backed (s.host.chain.nodeId crypto) s.log.receipts name (s.marks name)

theorem receive_backed {s : AnchorScheduler Time} {backend : Str} {rec : Json} {count : Nat}
    (backed : AllBacked crypto s) (honest : ∀ status, dotGet rec "status" = .ok status →
      isOneOf status terminalSuccess = true → Confirms (s.host.chain.nodeId crypto) backend rec count) :
    AllBacked crypto (s.receive backend rec count).1 := by
  obtain ⟨kept, taken⟩ := AnchorLog.add_receipts s.log rec
  have old (name : Str) : Backed (s.host.chain.nodeId crypto) (s.log.add rec).1.receipts name
      (s.marks name) := (backed name).mono kept
  have tried (name : Str) : Backed (s.host.chain.nodeId crypto) (s.log.add rec).1.receipts name
      (changeMark s.marks backend (fun mark => mark.attempt count) name) := by
    unfold changeMark
    split <;> exact old name
  rcases s.receive_cases backend rec count with ⟨e, made⟩ | ⟨e, made⟩ | ⟨status, ts, read, added, made⟩
  · rw [made]
    exact old
  · rw [made]
    exact tried
  · rw [made]
    intro name
    show Backed (s.host.chain.nodeId crypto) (s.log.add rec).1.receipts name
      (changeMark (changeMark s.marks backend (fun mark => mark.attempt count)) backend
        (fun mark => mark.answered status ts count) name)
    rw [changeMark]
    split
    · rename_i same
      subst same
      exact (tried name).answered (taken added) (honest status read)
    · exact tried name

section Submit

variable {count : Nat} {answers : Nat → Json}

theorem submitAll_backed (targets : List Str) {s : AnchorScheduler Time} (backed : AllBacked crypto s) (i : Nat)
    (honest : ∀ k backend status, targets[k]? = some backend → dotGet (answers (i + k)) "status" = .ok status →
      isOneOf status terminalSuccess = true →
        Confirms (s.host.chain.nodeId crypto) backend (answers (i + k)) count) :
    AllBacked crypto (submitAll count answers s i targets).1 := by
  induction targets generalizing s i with
  | nil => exact backed
  | cons backend rest ih =>
    have first := receive_backed backed (honest 0 backend · rfl)
    have moved := s.receive_moved backend (answers i) count
    rw [submitAll_cons]
    cases received : s.receive backend (answers i) count with
    | mk next out =>
      rw [Nat.add_zero, received] at first
      rw [received] at moved
      cases out with
      | error e => exact first
      | ok =>
        have later := ih first (i + 1) (fun k other status named read terminal => by
          rw [moved.host]
          have shift : i + 1 + k = i + (k + 1) := by omega
          rw [shift] at read ⊢
          exact honest (k + 1) other status named read terminal)
        simp only
        cases submitted : submitAll count answers next (i + 1) rest with
        | mk last out =>
          rw [submitted] at later
          cases out <;> exact later

end Submit

variable (Time) in
/-- A step of the node, or a scheduler built again: over the log it has, or over what is
read back from the journal. -/
inductive AnchorEvent where
  | act (action : AnchorAction Time)
  | rebuild (backends : List Str) (given : Option (List Str))
  | restart (path : Str) (backends : List Str) (given : Option (List Str))

variable (crypto clock) in
def live (s : AnchorScheduler Time) : AnchorEvent Time → AnchorScheduler Time
  | .act action => s.step crypto clock action
  | .rebuild backends given =>
    match make crypto clock s.host backends given s.log with
    | .ok later => later
    | .error _ => s
  | .restart path backends given =>
    match (AnchorLog.load path s.log.file).bind (make crypto clock s.host backends given) with
    | .ok later => later
    | .error _ => s

variable (crypto clock) in
/-- The answers that report a settled anchor name this node, the backend that was asked, and no
fewer records than were submitted. -/
def Honest (s : AnchorScheduler Time) : AnchorEvent Time → Prop
  | .act (.round now answers _ _) => ∀ i backend status, (s.targets clock now)[i]? = some backend →
      dotGet (answers i) "status" = .ok status → isOneOf status terminalSuccess = true →
        Confirms (s.host.chain.nodeId crypto) backend (answers i) s.host.chain.records.length
  | _ => True

theorem make_backed {host : Host} {backends : List Str} {given : Option (List Str)} {log : AnchorLog}
    {s : AnchorScheduler Time} (made : make crypto clock host backends given log = .ok s) :
    AllBacked crypto s := by
  unfold make at made
  split at made
  · cases made
  · simp only [bind, Py.bind_ok] at made
    obtain ⟨marks, replayed, made⟩ := made
    obtain rfl := Except.ok.inj made
    exact replayLog_backed (fun _ member => member) (fun _ => .inl ⟨rfl, rfl⟩) replayed

theorem AllBacked.append {s : AnchorScheduler Time} {host : Host} {call : AppendCall}
    (backed : AllBacked crypto s) (made : s.host.append crypto call = .ok host) (name : Str) :
    Backed (host.chain.nodeId crypto) s.log.receipts name (s.marks name) := by
  obtain ⟨record, chain, _⟩ := Host.append_adds made
  rw [chain]
  exact backed name

theorem live_backed {s : AnchorScheduler Time} {event : AnchorEvent Time} (backed : AllBacked crypto s)
    (honest : Honest crypto clock s event) : AllBacked crypto (s.live crypto clock event) := by
  cases event with
  | act action =>
    cases action with
    | append call =>
      simp only [live, step]
      split
      · rename_i host made
        exact backed.append made
      · exact backed
    | round now answers timestamp salt =>
      simp only [live, step]
      have moved := @gather_moved _ clock s now answers
      have kept : AllBacked crypto (s.gather clock now answers).1 :=
        submitAll_backed (s.targets clock now) (s := { s with lastAttempt := some now }) backed 0
          (fun k backend status named read terminal => by
            rw [Nat.zero_add] at read ⊢
            exact honest k backend status named read terminal)
      rcases @anchorRound_cases _ crypto clock s now answers timestamp salt with same | ⟨retry, made⟩ |
        ⟨retry, receipts, host, appends, made⟩
      · rw [same]
        exact backed
      · rw [made]
        exact kept
      · obtain ⟨call, _, appended⟩ := appends.appended
        rw [made]
        exact kept.append appended
  | rebuild backends given =>
    simp only [live]
    split
    · rename_i later made
      exact make_backed made
    · exact backed
  | restart path backends given =>
    simp only [live]
    split
    · rename_i later made
      rw [Py.bind_ok] at made
      obtain ⟨log, _, made⟩ := made
      exact make_backed made
    · exact backed

variable {Lag : Type}

/-- A green light rests on a receipt of every required backend that covers all records of work. -/
def GreenRests (crypto : Crypto) (lags : LagClock Lag) (s : AnchorScheduler Time) : Prop :=
  ∀ status snap, s.anchorStatus crypto = .ok status → anchorFacts lags status = .ok snap →
    (evaluateAnchoring .none snap).state = .ready → ∀ name ∈ s.required,
      ∃ r ∈ s.log.receipts, ∃ count, Confirms (s.host.chain.nodeId crypto) name r count ∧
        ∀ i record, s.host.chain.records[i]? = some record → isNews record = true → i < count

theorem old_after {records : List Json} {after i : Nat} {record : Json}
    (none_new : hasNews records after = false) (found : records[i]? = some record)
    (new : isNews record = true) : i < after := by
  by_contra beyond
  have inside : record ∈ records.drop after := by
    have shifted : (records.drop after)[i - after]? = some record := by
      rw [List.getElem?_drop, ← found]
      congr 1
      omega
    exact List.mem_of_getElem? shifted
  rw [hasNews, List.any_eq_false] at none_new
  exact none_new record inside new

theorem get?_perBackend {s : AnchorScheduler Time} {name : Str} {status : BackendStatus}
    (found : Dict.get? (s.backends.eraseDups.map (fun name => (name, s.backendStatus name))) name = some status) :
    status = s.backendStatus name := by
  obtain ⟨other, _, same⟩ := List.mem_map.mp (Dict.mem_of_get? found)
  obtain ⟨rfl, rfl⟩ := Prod.mk.inj same
  rfl

theorem green_rests {lags : LagClock Lag} {s : AnchorScheduler Time} (backed : AllBacked crypto s) :
    GreenRests crypto lags s := by
  intro status snap reported converted ready name member
  simp only [anchorStatus, bind, Py.bind_ok] at reported
  obtain ⟨_, _, _, _, reported⟩ := reported
  obtain rfl := Except.ok.inj reported
  obtain ⟨facts, _, _, required⟩ := anchorFacts_ok converted
  obtain ⟨_, all⟩ := evaluate_ready ready
  have green := all name (by rw [required]; exact member)
  rcases get?_converted facts name with ⟨_, absent⟩ | ⟨status, f, found, held, made⟩
  · rw [requiredState, absent] at green
    cases green
  · rw [requiredState, held] at green
    obtain ⟨never, custody, behind⟩ := backend_ready.mp green
    obtain ⟨neverSame, custodySame, behindSame⟩ := backendFactsOf_ok made
    obtain rfl := get?_perBackend found
    have succeeded : (s.marks name).lastSuccess ≠ .null := by
      rw [never] at neverSame
      exact of_decide_eq_false neverSame.symm
    have settled : (s.marks name).custody ≤ (s.marks name).covered := by
      rw [custody] at custodySame
      exact Nat.le_of_not_lt (of_decide_eq_false custodySame.symm)
    have caught_up : hasNews s.host.chain.records (s.marks name).covered = false := by
      rw [behind] at behindSame
      have outside : name ∉ s.behind s.host.chain.records := of_decide_eq_false behindSame.symm
      have same : s.submitted name = (s.marks name).covered := max_eq_left settled
      rw [← same]
      by_contra news
      exact outside (List.mem_filter.mpr ⟨member, by simpa using news⟩)
    rcases backed name with ⟨none_yet, _⟩ | ⟨r, inside, confirms⟩
    · exact absurd none_yet succeeded
    · exact ⟨r, inside, _, confirms, fun i record found new => old_after caught_up found new⟩

/-- In every state of a run with honest answers green rests on receipts; and in any, the state says
nothing about a backend that is not required. -/
theorem no_false_green (lags : LagClock Lag) :
    (∀ (host : Host) (backends : List Str) (given : Option (List Str)) (s : AnchorScheduler Time),
      make crypto clock host backends given {} = .ok s → ∀ events : List (AnchorEvent Time),
        Run.Along (live crypto clock) (Honest crypto clock) s events →
          GreenRests crypto lags (Run.run (live crypto clock) s events)) ∧
    ∀ (policy : AnchorPolicy Lag) (status other : AnchorStatus) (snap otherSnap : AnchorSnapshot Lag),
      status.externalConfigured = other.externalConfigured →
      status.requiredBackends = other.requiredBackends →
      (∀ name ∈ status.requiredBackends,
        Dict.get? status.perBackend name = Dict.get? other.perBackend name) →
      anchorFacts lags status = .ok snap → anchorFacts lags other = .ok otherSnap →
        (evaluateAnchoring policy snap).state = (evaluateAnchoring policy otherSnap).state := by
  constructor
  · intro host backends given s made events along
    have kept : ∀ (later : AnchorScheduler Time) (event : AnchorEvent Time), AllBacked crypto later →
        Honest crypto clock later event → AllBacked crypto (later.live crypto clock event) :=
      fun _ _ backed honest => live_backed backed honest
    exact green_rests (Run.invariant kept (make_backed made) along)
  · intro policy status other snap otherSnap external required same converted otherConverted
    exact state_of_required external required same converted otherConverted

section Sample

def noLag : LagClock Nat where
  since := fun _ => .ok 0
  longest := max

def receiptOf (nodeId name : Str) (count : Nat) : Json :=
  .obj [("backend", .str name), ("node", .str nodeId), ("root", .str "r"), ("count", .int count),
    ("status", .str "recorded"), ("ts", .int 1)]

theorem confirms_receiptOf (nodeId name : Str) (count : Nat) :
    Confirms nodeId name (receiptOf nodeId name count) count :=
  ⟨rfl, rfl, ⟨.str "recorded", rfl, by decide⟩, count, rfl, le_rfl⟩

def honestAnswers (s : AnchorScheduler Nat) (i : Nat) : Json :=
  receiptOf (s.host.chain.nodeId .sample) ((s.backends[i]?).getD []) s.host.chain.records.length

theorem sampleScheduler_news : sampleScheduler.substantive = true := by decide +kernel

theorem no_false_green_sample : GreenRests .sample noLag (Run.run (live .sample minutes) sampleScheduler
    [.act (.round 100 (honestAnswers sampleScheduler) "t" []), .rebuild ["ots-calendar"] none]) := by
  refine (no_false_green noLag).1 workedHost _ none sampleScheduler sampleScheduler_made _
    ⟨fun i backend status named _ _ => ?_, trivial, trivial⟩
  rw [targets_fresh sampleScheduler_news] at named
  rw [honestAnswers, named]
  exact confirms_receiptOf _ _ _

/-- Green, while every receipt states a count of 0. -/
def greenOnZero (s : AnchorScheduler Nat) : Bool :=
  match s.anchorStatus .sample with
  | .error _ => false
  | .ok status =>
    match anchorFacts noLag status with
    | .error _ => false
    | .ok snap => decide ((evaluateAnchoring .none snap).state = .ready) &&
      s.required.contains (Str.ofString "ots-calendar") &&
      s.log.receipts.all (fun r => decide ((getDefault r "count" (.int 0)).bind pyInt = .ok 0)) &&
      (s.host.chain.records.head?).any isNews

theorem not_rests_of_greenOnZero {s : AnchorScheduler Nat} (shown : greenOnZero s = true) :
    ¬GreenRests .sample noLag s := by
  intro rests
  unfold greenOnZero at shown
  split at shown
  · cases shown
  · rename_i status reported
    split at shown
    · cases shown
    · rename_i snap converted
      simp only [Bool.and_eq_true, decide_eq_true_eq, List.contains_iff_mem, List.all_eq_true] at shown
      obtain ⟨⟨⟨ready, required⟩, counts⟩, worked⟩ := shown
      obtain ⟨r, member, count, confirms, covers⟩ := rests status snap reported converted ready _ required
      obtain ⟨stated, read, reaches⟩ := confirms.reaches
      obtain rfl := Except.ok.inj ((counts r member).symm.trans read)
      obtain ⟨record, first, new⟩ := (Option.any_eq_true _ _).mp worked
      have covered := covers 0 record (by rw [← List.head?_eq_getElem?]; exact first) new
      exact absurd (covered.trans_le reaches) (lt_irrefl 0)

/-- A backend whose answer states another node and a count of 0 turns the light green. -/
theorem false_green : greenOnZero (Run.run (live .sample minutes) sampleScheduler
      [.act (.round 100 (fun _ => receiptOf "node:other" "ots-calendar" 0) "t" [])]) = true ∧
    ¬GreenRests .sample noLag (Run.run (live .sample minutes) sampleScheduler
      [.act (.round 100 (fun _ => receiptOf "node:other" "ots-calendar" 0) "t" [])]) := by
  have shown : greenOnZero (Run.run (live .sample minutes) sampleScheduler
      [.act (.round 100 (fun _ => receiptOf "node:other" "ots-calendar" 0) "t" [])]) = true := by
    decide +kernel
  exact ⟨shown, not_rests_of_greenOnZero shown⟩

end Sample

end AnchorScheduler

end JJDai
