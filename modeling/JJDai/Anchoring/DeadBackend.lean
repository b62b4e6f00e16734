import JJDai.Anchoring.Restart
import JJDai.Primitive.DurableText

/-! A round in which `submit` may raise: what one dead backend does to the others. -/

namespace JJDai

open PyText

/-- An answer that the log takes: a dict with the fields of a receipt, whose strings encode. -/
structure Receipt where
  fields : Dict Str Json
  complete : AnchorLog.missingFields (.obj fields) = .ok []
  plain : ∀ text ∈ texts (.obj fields), encodable text

def Receipt.json (r : Receipt) : Json := .obj r.fields

def Receipt.status (r : Receipt) : Json := (Dict.get? r.fields "status").getD .null

theorem Receipt.added (r : Receipt) (log : AnchorLog) :
    ∃ file, log.add r.json = ({ receipts := log.receipts ++ [r.json], file }, .ok ()) := by
  have kept : ∀ text ∈ texts (.obj [("kind", .str "ANCHOR_RECEIPT"), ("receipt", r.json)]), encodable text := by
    have fixed : ∀ text ∈ ([("kind"), ("ANCHOR_RECEIPT"), ("receipt")] : List Str), encodable text := by decide
    intro text member
    simp only [texts, textsFields, List.mem_cons, List.mem_append, List.not_mem_nil, or_false] at member
    rcases member with rfl | rfl | rfl | inside
    · exact fixed _ (by simp)
    · exact fixed _ (by simp)
    · exact fixed _ (by simp)
    · exact r.plain text inside
  obtain ⟨file, made⟩ := Py.exists_of_isOk ((durableAppend_isOk log.file _).mpr kept)
  refine ⟨file, ?_⟩
  have complete : AnchorLog.missingFields r.json = .ok [] := r.complete
  simp only [AnchorLog.add, complete, made]

namespace AnchorScheduler

variable {Time : Type}

/-- What a round did: the scheduler after it, the backends it contacted, and what it returned. -/
structure Round (Time : Type) where
  after : AnchorScheduler Time
  contacted : List Str
  result : Py RoundResult

/-- The loop of a round over its targets when `submit` may raise. -/
def askAll (count : Nat) (answers : Nat → Py Receipt) :
    AnchorScheduler Time → Nat → List Str → AnchorScheduler Time × List Str × Py (List Json)
  | s, _, [] => (s, [], .ok [])
  | s, i, backend :: rest =>
    match answers i with
    | .error e => (s, [backend], .error e)
    | .ok r =>
      match s.receive backend r.json count with
      | (s, .error e) => (s, [backend], .error e)
      | (s, .ok ()) =>
        match askAll count answers s (i + 1) rest with
        | (s, asked, .error e) => (s, backend :: asked, .error e)
        | (s, asked, .ok receipts) => (s, backend :: asked, .ok (r.json :: receipts))

variable (crypto : Crypto) (clock : Clock Time)

structure Runs (s : AnchorScheduler Time) (now : Time) (root : Json) : Prop where
  rooted : Replication.chainRoot crypto s.host.chain = .ok root
  records : s.host.chain.records.length ≠ 0
  due : (s.substantive || s.retryDue clock now) = true

/-- `_anchor_round` when `submit` may raise. -/
def roundOver (s : AnchorScheduler Time) (now : Time) (answers : Nat → Py Receipt) (timestamp : Str) (salt : Bytes) :
    Round Time :=
  match Replication.chainRoot crypto s.host.chain with
  | .error e => ⟨s, [], .error e⟩
  | .ok root =>
    let records := s.host.chain.records
    let count := records.length
    if count = 0 ∨ ¬(s.substantive || s.retryDue clock now) then ⟨s, [], .ok .skipped⟩
    else
      match askAll count answers { s with lastAttempt := some now } 0 (s.targets clock now) with
      | (t, asked, .error e) => ⟨t, asked, .error e⟩
      | (t, asked, .ok receipts) =>
        let nextRetry := if t.behind records ≠ [] then clock.later now else clock.zero
        let ended := { t with nextRetry }.conclude crypto count root s.substantive receipts timestamp salt
        ⟨ended.1, asked, ended.2⟩

/-- The answers with a failed receipt in the place of each exception. -/
def standIn (failed : Nat → Receipt) (answers : Nat → Py Receipt) (i : Nat) : Receipt :=
  match answers i with
  | .ok r => r
  | .error _ => failed i

/-- The watermarks that a receipt moves, at the count of the round. -/
structure Updated (mark : Mark) (status : Json) (count : Nat) : Prop where
  attempted : count ≤ mark.attempted
  covered : isOneOf status terminalSuccess = true → count ≤ mark.covered
  custody : isOneOf status terminalSuccess = true ∨ isOneOf status custodyStates = true → count ≤ mark.custody

/-- What a round owes the backends that answered, whatever the others did. -/
structure Heard (failed : Nat → Receipt) (s : AnchorScheduler Time) (now : Time) (answers : Nat → Py Receipt)
    (timestamp : Str) (salt : Bytes) : Prop where
  contacted : (s.roundOver crypto clock now answers timestamp salt).contacted = s.targets clock now
  logged : ∀ i name r, (s.targets clock now)[i]? = some name → answers i = .ok r →
    r.json ∈ (s.roundOver crypto clock now answers timestamp salt).after.log.receipts
  marks : ∀ i name r, (s.targets clock now)[i]? = some name → answers i = .ok r →
    Updated ((s.roundOver crypto clock now answers timestamp salt).after.marks name) r.status s.host.chain.records.length
  record : (s.roundOver crypto clock now answers timestamp salt).after.host =
    (s.anchorRound crypto clock now (fun i => (standIn failed answers i).json) timestamp salt).1.host
  retry : (s.roundOver crypto clock now answers timestamp salt).after.nextRetry =
    (s.anchorRound crypto clock now (fun i => (standIn failed answers i).json) timestamp salt).1.nextRetry

variable {crypto} {clock}

/-- What is known of the scheduler after some answers. -/
structure Later (s later : AnchorScheduler Time) : Prop where
  host : later.host = s.host
  retry : later.nextRetry = s.nextRetry
  receipts : ∀ r ∈ s.log.receipts, r ∈ later.log.receipts
  marks : ∀ name, (s.marks name).Grows (later.marks name)

theorem Later.refl (s : AnchorScheduler Time) : Later s s := ⟨rfl, rfl, fun _ member => member, fun _ => Mark.Grows.rfl⟩

theorem Later.trans {a b c : AnchorScheduler Time} (first : Later a b) (second : Later b c) : Later a c where
  host := second.host.trans first.host
  retry := second.retry.trans first.retry
  receipts r member := second.receipts r (first.receipts r member)
  marks name := (first.marks name).trans (second.marks name)

theorem Updated.grows {mark later : Mark} {status : Json} {count : Nat} (updated : Updated mark status count)
    (grown : mark.Grows later) : Updated later status count where
  attempted := updated.attempted.trans grown.attempted
  covered settled := (updated.covered settled).trans grown.covered
  custody held := (updated.custody held).trans grown.custody

theorem updated_answered (mark : Mark) (status ts : Json) (count : Nat) :
    Updated ((mark.attempt count).answered status ts count) status count := by
  have tried : count ≤ (mark.attempt count).attempted := le_max_right _ _
  have grown := Mark.grows_answered (mark.attempt count) status ts count
  refine ⟨tried.trans grown.attempted, ?_, ?_⟩
  · intro settled
    rw [Mark.answered, if_pos settled]
    exact le_max_right _ _
  · intro held
    unfold Mark.answered
    by_cases settled : isOneOf status terminalSuccess = true
    · rw [if_pos settled]
      exact le_max_right _ _
    · rw [if_neg settled, if_pos (held.resolve_left settled)]
      exact le_max_right _ _

theorem receive_receipt (s : AnchorScheduler Time) (name : Str) (r : Receipt) (count : Nat) :
    ∃ later, s.receive name r.json count = (later, .ok ()) ∧ Later s later ∧ r.json ∈ later.log.receipts ∧
      Updated (later.marks name) r.status count := by
  obtain ⟨file, added⟩ := r.added s.log
  have status : dotGet r.json "status" = .ok r.status := rfl
  have ts : dotGet r.json "ts" = .ok ((Dict.get? r.fields "ts").getD .null) := rfl
  have made : s.receive name r.json count = ({ s with
      log := { receipts := s.log.receipts ++ [r.json], file }
      marks := changeMark (changeMark s.marks name (fun mark => mark.attempt count)) name
        (fun mark => mark.answered r.status ((Dict.get? r.fields "ts").getD .null) count) }, .ok ()) := by
    simp only [receive, added, status, ts, bind, Except.bind, pure, Except.pure]
  refine ⟨_, made, ⟨rfl, rfl, fun other member => List.mem_append_left _ member, fun other => ?_⟩,
    List.mem_append_right _ (List.mem_singleton_self _), ?_⟩
  · exact (grows_change (fun mark => mark.grows_attempt count) other).trans
      (grows_change (fun mark => mark.grows_answered _ _ count) other)
  · simp only [changeMark_self]
    exact updated_answered _ _ _ _

section Loop

variable {count : Nat} {answers : Nat → Py Receipt} {rs : Nat → Receipt}

theorem submitAll_receipts (targets : List Str) (s : AnchorScheduler Time) (i : Nat) :
    ∃ later, submitAll count (fun j => (rs j).json) s i targets =
        (later, .ok ((List.range' i targets.length).map (fun j => (rs j).json))) ∧ Later s later ∧
      ∀ k name, targets[k]? = some name →
        (rs (i + k)).json ∈ later.log.receipts ∧ Updated (later.marks name) (rs (i + k)).status count := by
  induction targets generalizing s i with
  | nil => exact ⟨s, rfl, Later.refl s, fun k name named => by cases named⟩
  | cons backend rest ih =>
    obtain ⟨next, received, moved, logged, updated⟩ := s.receive_receipt backend (rs i) count
    obtain ⟨last, taken, onward, each⟩ := ih next (i + 1)
    refine ⟨last, ?_, moved.trans onward, ?_⟩
    · simp only [submitAll, received, taken, List.length_cons, List.range'_succ, List.map_cons]
    · intro k name named
      cases k with
      | zero =>
        obtain rfl := Option.some.inj named
        exact ⟨onward.receipts _ logged, updated.grows (onward.marks _)⟩
      | succ k =>
        have later := each k name (by simpa using named)
        rwa [Nat.add_right_comm] at later

theorem askAll_answered {targets : List Str} {s : AnchorScheduler Time} {i : Nat}
    (answered : ∀ k < targets.length, answers (i + k) = .ok (rs (i + k))) :
    askAll count answers s i targets = ((submitAll count (fun j => (rs j).json) s i targets).1, targets,
      (submitAll count (fun j => (rs j).json) s i targets).2) := by
  induction targets generalizing s i with
  | nil => rfl
  | cons backend rest ih =>
    have first : answers i = .ok (rs i) := answered 0 (Nat.succ_pos _)
    obtain ⟨next, received, _⟩ := s.receive_receipt backend (rs i) count
    obtain ⟨last, taken, _⟩ := @submitAll_receipts _ count rs rest next (i + 1)
    have others := @ih next (i + 1) (by
      intro k inside
      have later := answered (k + 1) (Nat.succ_lt_succ inside)
      rwa [← Nat.add_assoc, Nat.add_right_comm] at later)
    simp only [askAll, submitAll, first, received, others, taken]

theorem askAll_stops {targets : List Str} {s : AnchorScheduler Time} {i k : Nat} {e : PyErr}
    (inside : k < targets.length) (before : ∀ j < k, answers (i + j) = .ok (rs (i + j)))
    (raised : answers (i + k) = .error e) : askAll count answers s i targets =
      ((submitAll count (fun j => (rs j).json) s i (targets.take k)).1, targets.take (k + 1), .error e) := by
  induction targets generalizing s i k with
  | nil => cases inside
  | cons backend rest ih =>
    cases k with
    | zero =>
      rw [Nat.add_zero] at raised
      simp [askAll, submitAll, raised]
    | succ k =>
      have first : answers i = .ok (rs i) := before 0 (Nat.succ_pos _)
      obtain ⟨next, received, _⟩ := s.receive_receipt backend (rs i) count
      obtain ⟨last, taken, _⟩ := @submitAll_receipts _ count rs (rest.take k) next (i + 1)
      have others := @ih next (i + 1) k (Nat.lt_of_succ_lt_succ inside) (by
        intro j within
        have later := before (j + 1) (Nat.succ_lt_succ within)
        rwa [← Nat.add_assoc, Nat.add_right_comm] at later) (by
        rwa [← Nat.add_assoc, Nat.add_right_comm] at raised)
      simp only [askAll, submitAll, first, received, others, taken, List.take_succ_cons]

end Loop

section Round

variable {s : AnchorScheduler Time} {now : Time} {root : Json} {failed : Nat → Receipt} {answers : Nat → Py Receipt}
  {timestamp : Str} {salt : Bytes}

variable (clock) in
/-- The scheduler and the receipts when every target has answered, the dead ones with a failure. -/
def answered (s : AnchorScheduler Time) (now : Time) (rs : Nat → Receipt) : AnchorScheduler Time × Py (List Json) :=
  s.gather clock now (fun i => (rs i).json)

variable (crypto clock) in
/-- A bare retry that settles nothing, or a record that the chain refuses; and the next retry
is already set to the time that the round would set. -/
structure Idle (s : AnchorScheduler Time) (now : Time) (root : Json) (rs : Nat → Receipt) (timestamp : Str)
    (salt : Bytes) : Prop where
  quiet : (s.substantive = false ∧ ∀ i < (s.targets clock now).length, isOneOf (rs i).status terminalSuccess = false) ∨
    ∀ receipts call, (s.answered clock now rs).2 = .ok receipts →
      (s.answered clock now rs).1.external s.host.chain.records.length root receipts timestamp salt = .ok call →
        (s.host.append crypto call).isOk = false
  retry : (if (s.answered clock now rs).1.behind s.host.chain.records ≠ [] then clock.later now else clock.zero) =
    s.nextRetry

theorem gather_receipts (rs : Nat → Receipt) : ∃ later, s.answered clock now rs =
      (later, .ok ((List.range' 0 (s.targets clock now).length).map (fun j => (rs j).json))) ∧
    later.host = s.host ∧ later.nextRetry = s.nextRetry ∧
    ∀ k name, (s.targets clock now)[k]? = some name →
      (rs k).json ∈ later.log.receipts ∧ Updated (later.marks name) (rs k).status s.host.chain.records.length := by
  obtain ⟨later, taken, moved, each⟩ := @submitAll_receipts _ s.host.chain.records.length rs
    (s.targets clock now) { s with lastAttempt := some now } 0
  refine ⟨later, taken, moved.host, moved.retry, fun k name named => ?_⟩
  have found := each k name named
  rwa [Nat.zero_add] at found

theorem anchorRound_runs (runs : Runs crypto clock s now root) (rs : Nat → Receipt) {later : AnchorScheduler Time}
    {receipts : List Json} (made : s.answered clock now rs = (later, .ok receipts)) :
    s.anchorRound crypto clock now (fun i => (rs i).json) timestamp salt =
      { later with nextRetry := if later.behind s.host.chain.records ≠ [] then clock.later now else clock.zero }.conclude
        crypto s.host.chain.records.length root s.substantive receipts timestamp salt := by
  have passes : ¬(s.host.chain.records.length = 0 ∨ ¬(s.substantive || s.retryDue clock now)) := by
    rw [not_or, not_not]
    exact ⟨runs.records, runs.due⟩
  unfold answered at made
  simp only [anchorRound, runs.rooted, if_neg passes, made]

theorem roundOver_answered (runs : Runs crypto clock s now root) {rs : Nat → Receipt}
    (all : ∀ i < (s.targets clock now).length, answers i = .ok (rs i)) :
    (s.roundOver crypto clock now answers timestamp salt).after =
        (s.anchorRound crypto clock now (fun i => (rs i).json) timestamp salt).1 ∧
      (s.roundOver crypto clock now answers timestamp salt).contacted = s.targets clock now := by
  have passes : ¬(s.host.chain.records.length = 0 ∨ ¬(s.substantive || s.retryDue clock now)) := by
    rw [not_or, not_not]
    exact ⟨runs.records, runs.due⟩
  obtain ⟨later, made, _⟩ := @gather_receipts _ clock s now rs
  have asked := @askAll_answered _ s.host.chain.records.length answers rs (s.targets clock now)
    { s with lastAttempt := some now } 0 (fun k inside => by rw [Nat.zero_add]; exact all k inside)
  rw [anchorRound_runs runs rs made]
  unfold answered gather at made
  rw [made] at asked
  simp only [roundOver, runs.rooted, if_neg passes, asked, and_self]

theorem roundOver_stops (runs : Runs crypto clock s now root) {rs : Nat → Receipt} {k : Nat} {e : PyErr}
    (inside : k < (s.targets clock now).length) (before : ∀ j < k, answers j = .ok (rs j)) (raised : answers k = .error e) :
    (s.roundOver crypto clock now answers timestamp salt).contacted = (s.targets clock now).take (k + 1) ∧
    (s.roundOver crypto clock now answers timestamp salt).after.host = s.host ∧
    (s.roundOver crypto clock now answers timestamp salt).after.nextRetry = s.nextRetry ∧
    ∀ j < k, ∀ name, (s.targets clock now)[j]? = some name →
      (rs j).json ∈ (s.roundOver crypto clock now answers timestamp salt).after.log.receipts ∧
        Updated ((s.roundOver crypto clock now answers timestamp salt).after.marks name) (rs j).status
          s.host.chain.records.length := by
  have passes : ¬(s.host.chain.records.length = 0 ∨ ¬(s.substantive || s.retryDue clock now)) := by
    rw [not_or, not_not]
    exact ⟨runs.records, runs.due⟩
  have asked := @askAll_stops _ s.host.chain.records.length answers rs (s.targets clock now)
    { s with lastAttempt := some now } 0 k e inside (fun j small => by rw [Nat.zero_add]; exact before j small)
    (by rw [Nat.zero_add]; exact raised)
  obtain ⟨later, taken, moved, each⟩ := @submitAll_receipts _ s.host.chain.records.length rs
    ((s.targets clock now).take k) { s with lastAttempt := some now } 0
  rw [taken] at asked
  have shape : s.roundOver crypto clock now answers timestamp salt = ⟨later, (s.targets clock now).take (k + 1), .error e⟩ := by
    simp only [roundOver, runs.rooted, if_neg passes, asked]
  rw [shape]
  refine ⟨rfl, moved.host, moved.retry, fun j small name named => ?_⟩
  have found := each j name (by rw [List.getElem?_take, if_pos small]; exact named)
  rwa [Nat.zero_add] at found

theorem hasTerminal_receipts (rs : List Receipt) :
    hasTerminal (rs.map Receipt.json) = .ok (rs.any (fun r => isOneOf r.status terminalSuccess)) := by
  induction rs with
  | nil => rfl
  | cons r rest ih =>
    have status : dotGet r.json "status" = .ok r.status := rfl
    unfold hasTerminal at ih ⊢
    simp only [List.map_cons, List.anyM, status, bind, Except.bind, pure, Except.pure, List.any_cons] at ih ⊢
    cases isOneOf r.status terminalSuccess with
    | true => rfl
    | false => simpa using ih

/-- The end of a round touches the chain unless there is nothing to record or the record is refused. -/
theorem conclude_host {u : AnchorScheduler Time} {held : Host} (kept : u.host = held) (count : Nat)
    (substantive : Bool) (rs : List Receipt) :
    (u.conclude crypto count root substantive (rs.map Receipt.json) timestamp salt).1.nextRetry = u.nextRetry ∧
    ((u.conclude crypto count root substantive (rs.map Receipt.json) timestamp salt).1.host = held ↔
      (substantive = false ∧ ∀ r ∈ rs, isOneOf r.status terminalSuccess = false) ∨
        ∀ call, u.external count root (rs.map Receipt.json) timestamp salt = .ok call →
          (held.append crypto call).isOk = false) := by
  subst kept
  simp only [conclude, hasTerminal_receipts, bind, Except.bind]
  have settled : rs.any (fun r => isOneOf r.status terminalSuccess) = false ↔
      ∀ r ∈ rs, isOneOf r.status terminalSuccess = false := by
    simp
  by_cases bare : substantive = false ∧ ∀ r ∈ rs, isOneOf r.status terminalSuccess = false
  · have stop : (!rs.any (fun r => isOneOf r.status terminalSuccess) && !substantive) = true := by
      rw [settled.mpr bare.2, bare.1]
      rfl
    rw [if_pos stop]
    exact ⟨rfl, iff_of_true rfl (.inl bare)⟩
  · have goes : ¬(!rs.any (fun r => isOneOf r.status terminalSuccess) && !substantive) = true := by
      intro stop
      rw [Bool.and_eq_true, Bool.not_eq_true', Bool.not_eq_true'] at stop
      exact bare ⟨stop.2, settled.mp stop.1⟩
    rw [if_neg goes]
    cases made : u.external count root (rs.map Receipt.json) timestamp salt with
    | error e =>
      exact ⟨rfl, iff_of_true rfl (.inr (fun call other => by cases other))⟩
    | ok call =>
      cases appended : u.host.append crypto call with
      | error e =>
        refine ⟨by simp only [appended], iff_of_true (by simp only [appended]) (.inr ?_)⟩
        intro other same
        obtain rfl := Except.ok.inj same
        rw [appended]
        rfl
      | ok host =>
        refine ⟨by simp only [appended]; rfl, iff_of_false ?_ ?_⟩
        · simp only [appended, pure, Except.pure]
          intro same
          obtain ⟨record, grown, _⟩ := Host.append_adds appended
          rw [same] at grown
          have records := congrArg (fun chain : WitnessChain => chain.records.length) grown
          simp at records
        · intro either
          cases either with
          | inl none_left => exact bare none_left
          | inr refused =>
            have taken := refused call rfl
            rw [appended] at taken
            cases taken

theorem idle_iff (runs : Runs crypto clock s now root) (rs : Nat → Receipt) :
    Idle crypto clock s now root rs timestamp salt ↔
      (s.anchorRound crypto clock now (fun i => (rs i).json) timestamp salt).1.host = s.host ∧
        (s.anchorRound crypto clock now (fun i => (rs i).json) timestamp salt).1.nextRetry = s.nextRetry := by
  obtain ⟨later, made, host, _⟩ := @gather_receipts _ clock s now rs
  have receipts : (List.range' 0 (s.targets clock now).length).map (fun j => (rs j).json) =
      ((List.range' 0 (s.targets clock now).length).map rs).map Receipt.json := by
    rw [List.map_map]
    rfl
  rw [receipts] at made
  rw [anchorRound_runs runs rs made]
  obtain ⟨retry, chain⟩ := @conclude_host _ crypto root timestamp salt { later with
    nextRetry := if later.behind s.host.chain.records ≠ [] then clock.later now else clock.zero } s.host host
    s.host.chain.records.length s.substantive ((List.range' 0 (s.targets clock now).length).map rs)
  rw [retry]
  rw [chain]
  constructor
  · intro idle
    refine ⟨?_, ?_⟩
    · cases idle.quiet with
      | inl bare =>
        refine .inl ⟨bare.1, fun r member => ?_⟩
        obtain ⟨j, inside, rfl⟩ := List.mem_map.mp member
        exact bare.2 j (by simpa using inside)
      | inr refused =>
        refine .inr (fun call external => ?_)
        exact refused _ call (by rw [made]) (by rw [made]; exact external)
    · have same := idle.retry
      rw [made] at same
      exact same
  · intro both
    obtain ⟨quiet, same⟩ := both
    refine ⟨?_, by rw [made]; exact same⟩
    cases quiet with
    | inl bare =>
      exact .inl ⟨bare.1, fun i inside => bare.2 _ (List.mem_map_of_mem (by simpa using inside))⟩
    | inr refused =>
      refine .inr (fun receipts call gathered external => ?_)
      rw [made] at gathered external
      obtain rfl := Except.ok.inj gathered
      exact refused call external

theorem standIn_answered {i : Nat} {r : Receipt} (answer : answers i = .ok r) : standIn failed answers i = r := by
  rw [standIn, answer]

theorem answer_standIn {i : Nat} (answered : (answers i).isOk = true) : answers i = .ok (standIn failed answers i) := by
  cases answer : answers i with
  | ok r => rw [standIn_answered answer]
  | error e =>
    rw [answer] at answered
    cases answered

/-- The targets that answer are heard, and chain and next retry are those of a round in which the
dead ones had answered, exactly when no target raises, or only the last one does in a round
that touches neither. -/
theorem round_heard_iff (runs : Runs crypto clock s now root) :
    Heard crypto clock failed s now answers timestamp salt ↔
      (∀ i < (s.targets clock now).length, (answers i).isOk = true) ∨
        ∃ k, (s.targets clock now).length = k + 1 ∧ (∀ i < k, (answers i).isOk = true) ∧ (answers k).isOk = false ∧
          Idle crypto clock s now root (standIn failed answers) timestamp salt := by
  constructor
  · intro heard
    by_cases all : ∀ i < (s.targets clock now).length, (answers i).isOk = true
    · exact .inl all
    · right
      have exists_dead : ∃ i, i < (s.targets clock now).length ∧ ¬(answers i).isOk = true := by
        simpa using all
      obtain ⟨inside, dead⟩ := Nat.find_spec exists_dead
      have before : ∀ j < Nat.find exists_dead, (answers j).isOk = true := by
        intro j small
        by_contra raised
        exact Nat.find_min exists_dead small ⟨small.trans inside, raised⟩
      generalize Nat.find exists_dead = k at inside dead before
      obtain ⟨e, raised⟩ : ∃ e, answers k = .error e := by
        cases answer : answers k with
        | error e => exact ⟨e, rfl⟩
        | ok r =>
          rw [answer] at dead
          exact absurd rfl dead
      obtain ⟨contacted, host, retry, _⟩ := @roundOver_stops _ crypto clock s now root answers timestamp salt runs
        (standIn failed answers) k e inside (fun j small => answer_standIn (before j small)) raised
      have whole := congrArg List.length (contacted.symm.trans heard.contacted)
      rw [List.length_take] at whole
      refine ⟨k, by omega, before, by rw [raised]; rfl, (idle_iff runs _).mpr ⟨?_, ?_⟩⟩
      · exact heard.record.symm.trans host
      · exact heard.retry.symm.trans retry
  · intro either
    cases either with
    | inl all =>
      obtain ⟨after, contacted⟩ := @roundOver_answered _ crypto clock s now root answers timestamp salt runs
        (standIn failed answers) (fun i inside => answer_standIn (all i inside))
      obtain ⟨later, made, _, _, each⟩ := @gather_receipts _ clock s now (standIn failed answers)
      have kept : ∀ i name r, (s.targets clock now)[i]? = some name → answers i = .ok r →
          r.json ∈ later.log.receipts ∧ Updated (later.marks name) r.status s.host.chain.records.length := by
        intro i name r named answer
        have found := each i name named
        rwa [standIn_answered answer] at found
      have moved := @anchorRound_runs _ crypto clock s now root timestamp salt runs _ _ _ made
      have same (u : AnchorScheduler Time) (count : Nat) (substantive : Bool) (receipts : List Json) :
          (u.conclude crypto count root substantive receipts timestamp salt).1.log = u.log ∧
            (u.conclude crypto count root substantive receipts timestamp salt).1.marks = u.marks := by
        unfold conclude
        simp only
        split <;> exact ⟨rfl, rfl⟩
      refine ⟨contacted, ?_, ?_, by rw [after], by rw [after]⟩
      · intro i name r named answer
        rw [after, moved, (same _ _ _ _).1]
        exact (kept i name r named answer).1
      · intro i name r named answer
        rw [after, moved, (same _ _ _ _).2]
        exact (kept i name r named answer).2
    | inr last =>
      obtain ⟨k, length, before, dead, idle⟩ := last
      obtain ⟨e, raised⟩ : ∃ e, answers k = .error e := by
        cases answer : answers k with
        | error e => exact ⟨e, rfl⟩
        | ok r =>
          rw [answer] at dead
          cases dead
      obtain ⟨contacted, host, retry, each⟩ := @roundOver_stops _ crypto clock s now root answers timestamp salt runs
        (standIn failed answers) k e (by omega) (fun j small => answer_standIn (before j small)) raised
      obtain ⟨chain, time⟩ := (idle_iff runs _).mp idle
      have kept : ∀ i name r, (s.targets clock now)[i]? = some name → answers i = .ok r →
          r.json ∈ (s.roundOver crypto clock now answers timestamp salt).after.log.receipts ∧
            Updated ((s.roundOver crypto clock now answers timestamp salt).after.marks name) r.status
              s.host.chain.records.length := by
        intro i name r named answer
        obtain ⟨inside, _⟩ := List.getElem?_eq_some_iff.mp named
        have small : i < k := by
          have different : i ≠ k := by
            rintro rfl
            rw [answer] at raised
            cases raised
          omega
        have found := each i small name named
        rwa [standIn_answered answer] at found
      refine ⟨?_, fun i name r named answer => (kept i name r named answer).1,
        fun i name r named answer => (kept i name r named answer).2, host.trans chain.symm, retry.trans time.symm⟩
      rw [contacted, ← length, List.take_length]

end Round

section Sample

def sampleReceipt (name status : Str) (complete : AnchorLog.missingFields (receiptWith [] name status 1) = .ok [])
    (plain : ∀ text ∈ texts (receiptWith [] name status 1), encodable text) : Receipt where
  fields := _
  complete := complete
  plain := plain

def localReceipt : Receipt := sampleReceipt "local" "recorded" (by decide) (by decide)

def calendarFailure : Receipt := sampleReceipt "ots-calendar" "failed" (by decide) (by decide)

/-- A chain with one record, and a calendar that is asked before the local file. -/
def calendarFirst : AnchorScheduler Nat :=
  { sampleScheduler with backends := ["ots-calendar", "local"], some_backend := List.cons_ne_nil _ _ }

/-- The first backend raises, as the calendar does on a broken reply; the second answers. -/
def calendarRaises (i : Nat) : Py Receipt :=
  if i = 0 then raise .valueError "IncompleteRead(0 bytes read)" else .ok localReceipt

theorem calendarFirst_facts :
    ((Replication.chainRoot .sample calendarFirst.host.chain).isOk = true ∧
      calendarFirst.host.chain.records.length ≠ 0 ∧
      (calendarFirst.substantive || calendarFirst.retryDue minutes 100) = true) ∧
    calendarFirst.targets minutes 100 = ["ots-calendar", "local"] ∧
    (calendarFirst.roundOver .sample minutes 100 calendarRaises "t" []).contacted = ["ots-calendar"] := by
  decide +kernel

theorem calendarFirst_runs : ∃ root, Runs .sample minutes calendarFirst 100 root := by
  obtain ⟨⟨rooted, records, due⟩, _⟩ := calendarFirst_facts
  obtain ⟨root, made⟩ := Py.exists_of_isOk rooted
  exact ⟨root, made, records, due⟩

theorem round_heard_sample : ∃ root,
    Heard .sample minutes (fun _ => calendarFailure) calendarFirst 100 calendarRaises "t" [] ↔
      (∀ i < (calendarFirst.targets minutes 100).length, (calendarRaises i).isOk = true) ∨
        ∃ k, (calendarFirst.targets minutes 100).length = k + 1 ∧ (∀ i < k, (calendarRaises i).isOk = true) ∧
          (calendarRaises k).isOk = false ∧
          Idle .sample minutes calendarFirst 100 root (standIn (fun _ => calendarFailure) calendarRaises) "t" [] := by
  obtain ⟨root, runs⟩ := calendarFirst_runs
  exact ⟨root, round_heard_iff runs⟩

/-- The calendar raises, and the local file behind it is not asked. -/
theorem dead_backend_silences : (∃ root, Runs .sample minutes calendarFirst 100 root) ∧
    calendarFirst.targets minutes 100 = ["ots-calendar", "local"] ∧
    (calendarFirst.roundOver .sample minutes 100 calendarRaises "t" []).contacted = ["ots-calendar"] ∧
    ¬Heard .sample minutes (fun _ => calendarFailure) calendarFirst 100 calendarRaises "t" [] := by
  obtain ⟨_, targets, contacted⟩ := calendarFirst_facts
  refine ⟨calendarFirst_runs, targets, contacted, fun heard => ?_⟩
  have same := contacted.symm.trans (heard.contacted.trans targets)
  exact absurd same (by decide)

end Sample

end AnchorScheduler

end JJDai
