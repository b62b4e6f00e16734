import JJDai.Anchoring.Scheduler
import JJDai.Lib.Run
import Mathlib.Data.Finset.Card

/-! Anchoring does not feed on itself: rounds without news run out of records to append. -/

namespace JJDai

open PyText

variable {Time : Type} {crypto : Crypto} {clock : Clock Time}

theorem hasNews_anti {records : List Json} {after later : Nat} (order : after ≤ later)
    (news : hasNews records later = true) : hasNews records after = true := by
  obtain ⟨record, member, new⟩ := List.any_eq_true.mp news
  exact List.any_eq_true.mpr ⟨record, (List.drop_sublist_drop_left records order).subset member, new⟩

theorem hasNews_append {records : List Json} {record : Json} (old : isNews record = false) (after : Nat) :
    hasNews (records ++ [record]) after = hasNews records after := by
  rw [hasNews, hasNews, List.drop_append, List.any_append]
  cases shift : after - records.length with
  | zero => simp [old]
  | succ n => simp

theorem hasNews_length (records : List Json) {after : Nat} (all : records.length ≤ after) :
    hasNews records after = false := by
  rw [hasNews, List.drop_of_length_le all]
  rfl

namespace Mark

/-- What is settled is held, what is held was tried, and nothing beyond a length was. -/
structure Ordered (mark : Mark) (length : Nat) : Prop where
  covered : mark.covered ≤ mark.custody
  custody : mark.custody ≤ mark.attempted
  attempted : mark.attempted ≤ length

structure Grows (mark later : Mark) : Prop where
  covered : mark.covered ≤ later.covered
  custody : mark.custody ≤ later.custody
  attempted : mark.attempted ≤ later.attempted

theorem Grows.rfl {mark : Mark} : mark.Grows mark := ⟨le_rfl, le_rfl, le_rfl⟩

theorem Grows.trans {a b c : Mark} (first : a.Grows b) (second : b.Grows c) : a.Grows c where
  covered := first.covered.trans second.covered
  custody := first.custody.trans second.custody
  attempted := first.attempted.trans second.attempted

theorem grows_attempt (mark : Mark) (count : Nat) : mark.Grows (mark.attempt count) :=
  ⟨le_rfl, le_rfl, le_max_left _ _⟩

theorem grows_answered (mark : Mark) (status ts : Json) (count : Nat) :
    mark.Grows (mark.answered status ts count) := by
  unfold answered
  split
  · exact ⟨le_max_left _ _, le_max_left _ _, le_rfl⟩
  · split
    · exact ⟨le_rfl, le_max_left _ _, le_rfl⟩
    · exact ⟨le_rfl, le_rfl, le_rfl⟩

theorem Ordered.attempt {mark : Mark} {length count : Nat} (ordered : mark.Ordered length)
    (within : count ≤ length) : (mark.attempt count).Ordered length where
  covered := ordered.covered
  custody := ordered.custody.trans (le_max_left _ _)
  attempted := max_le ordered.attempted within

theorem Ordered.answered {mark : Mark} {length count : Nat} {status ts : Json}
    (ordered : mark.Ordered length) (tried : count ≤ mark.attempted) :
    (mark.answered status ts count).Ordered length := by
  unfold Mark.answered
  split
  · exact ⟨max_le_max ordered.covered le_rfl, max_le ordered.custody tried, ordered.attempted⟩
  · split
    · exact ⟨ordered.covered.trans (le_max_left _ _), max_le ordered.custody tried, ordered.attempted⟩
    · exact ⟨ordered.covered, ordered.custody, ordered.attempted⟩

theorem Ordered.mono {mark : Mark} {length longer : Nat} (ordered : mark.Ordered length)
    (grown : length ≤ longer) : mark.Ordered longer :=
  ⟨ordered.covered, ordered.custody, ordered.attempted.trans grown⟩

end Mark

theorem changeMark_self (marks : Str → Mark) (name : Str) (change : Mark → Mark) :
    changeMark marks name change name = change (marks name) := if_pos rfl

theorem changeMark_keeps {Good : Mark → Mark → Prop} {marks : Str → Mark} {name : Str}
    {change : Mark → Mark} (same : ∀ mark, Good mark mark) (changed : Good (marks name) (change (marks name)))
    (other : Str) : Good (marks other) (changeMark marks name change other) := by
  unfold changeMark
  split
  · rename_i equal
    rw [equal]
    exact changed
  · exact same _

namespace AnchorScheduler

theorem receive_cases (s : AnchorScheduler Time) (backend : Str) (rec : Json) (count : Nat) :
    (∃ e, s.receive backend rec count = ({ s with log := (s.log.add rec).1 }, .error e)) ∨
    (∃ e, s.receive backend rec count = ({ s with
      log := (s.log.add rec).1
      marks := changeMark s.marks backend (fun mark => mark.attempt count) }, .error e)) ∨
    ∃ status ts, dotGet rec "status" = .ok status ∧ (s.log.add rec).2 = .ok () ∧
      s.receive backend rec count = ({ s with
        log := (s.log.add rec).1
        marks := changeMark (changeMark s.marks backend (fun mark => mark.attempt count)) backend
          (fun mark => mark.answered status ts count) }, .ok ()) := by
  cases added : s.log.add rec with
  | mk log out =>
    cases out with
    | error e => exact .inl ⟨e, by rw [receive, added]⟩
    | ok =>
      right
      cases status : dotGet rec "status" with
      | error e => exact .inl ⟨e, by simp only [receive, added, status, bind, Except.bind]⟩
      | ok value =>
        cases ts : dotGet rec "ts" with
        | error e => exact .inl ⟨e, by simp only [receive, added, status, ts, bind, Except.bind]⟩
        | ok time =>
          refine .inr ⟨value, time, rfl, rfl, ?_⟩
          simp only [receive, added, status, ts, bind, Except.bind, pure, Except.pure]

/-- The same scheduler with marks that have only grown. -/
structure Moved (s later : AnchorScheduler Time) : Prop where
  host : later.host = s.host
  backends : later.backends = s.backends
  required : later.required = s.required
  marks : ∀ name, (s.marks name).Grows (later.marks name)

theorem Moved.trans {a b c : AnchorScheduler Time} (first : Moved a b) (second : Moved b c) :
    Moved a c where
  host := second.host.trans first.host
  backends := second.backends.trans first.backends
  required := second.required.trans first.required
  marks name := (first.marks name).trans (second.marks name)

theorem grows_change {marks : Str → Mark} {backend : Str} {change : Mark → Mark}
    (grows : ∀ mark : Mark, mark.Grows (change mark)) (name : Str) :
    (marks name).Grows (changeMark marks backend change name) :=
  changeMark_keeps (fun _ => Mark.Grows.rfl) (grows _) name

theorem receive_moved (s : AnchorScheduler Time) (backend : Str) (rec : Json) (count : Nat) :
    Moved s (s.receive backend rec count).1 := by
  rcases s.receive_cases backend rec count with ⟨e, made⟩ | ⟨e, made⟩ |
    ⟨status, ts, _, _, made⟩
  · rw [made]
    exact ⟨rfl, rfl, rfl, fun _ => Mark.Grows.rfl⟩
  · rw [made]
    exact ⟨rfl, rfl, rfl, grows_change (fun mark => mark.grows_attempt count)⟩
  · rw [made]
    exact ⟨rfl, rfl, rfl, fun name => (grows_change (fun mark => mark.grows_attempt count) name).trans
      (grows_change (fun mark => mark.grows_answered status ts count) name)⟩

theorem receive_ordered {s : AnchorScheduler Time} {count length : Nat} (within : count ≤ length)
    (ordered : ∀ name, (s.marks name).Ordered length) (backend : Str) (rec : Json) :
    ∀ name, ((s.receive backend rec count).1.marks name).Ordered length := by
  have tried (name : Str) :
      (changeMark s.marks backend (fun mark => mark.attempt count) name).Ordered length := by
    unfold changeMark
    split
    · exact (ordered name).attempt within
    · exact ordered name
  rcases s.receive_cases backend rec count with ⟨e, made⟩ | ⟨e, made⟩ |
    ⟨status, ts, _, _, made⟩
  · rw [made]
    exact ordered
  · rw [made]
    exact tried
  · rw [made]
    intro name
    show (changeMark (changeMark s.marks backend (fun mark => mark.attempt count)) backend
      (fun mark => mark.answered status ts count) name).Ordered length
    have now := tried name
    by_cases same : name = backend
    · subst same
      have reached : count ≤ (changeMark s.marks name (fun mark => mark.attempt count) name).attempted := by
        rw [changeMark_self]
        exact le_max_right _ _
      rw [changeMark_self]
      exact now.answered reached
    · rw [changeMark, if_neg same]
      exact now

/-- An answer that was taken counts as an attempt, and a terminal one covers the range. -/
theorem receive_reached {s : AnchorScheduler Time} {backend : Str} {rec : Json} {count : Nat}
    (taken : (s.receive backend rec count).2 = .ok ()) :
    count ≤ ((s.receive backend rec count).1.marks backend).attempted ∧
      ∃ status, dotGet rec "status" = .ok status ∧ (isOneOf status terminalSuccess = true →
        count ≤ ((s.receive backend rec count).1.marks backend).covered) := by
  rcases s.receive_cases backend rec count with ⟨e, made⟩ | ⟨e, made⟩ |
    ⟨status, ts, read, _, made⟩
  · rw [made] at taken
    cases taken
  · rw [made] at taken
    cases taken
  · have grown := Mark.grows_answered ((s.marks backend).attempt count) status ts count
    rw [made]
    simp only [changeMark_self]
    refine ⟨(le_max_right _ _).trans grown.attempted, status, read, fun terminal => ?_⟩
    rw [Mark.answered, if_pos terminal]
    exact le_max_right _ _

section Submit

variable {count : Nat} {answers : Nat → Json}

theorem submitAll_moved (targets : List Str) (s : AnchorScheduler Time) (i : Nat) :
    Moved s (submitAll count answers s i targets).1 := by
  induction targets generalizing s i with
  | nil => exact ⟨rfl, rfl, rfl, fun _ => Mark.Grows.rfl⟩
  | cons backend rest ih =>
    have first := s.receive_moved backend (answers i) count
    rw [submitAll_cons]
    cases received : s.receive backend (answers i) count with
    | mk next out =>
      rw [received] at first
      cases out with
      | error e => exact first
      | ok =>
        have later := first.trans (ih next (i + 1))
        simp only
        cases submitted : submitAll count answers next (i + 1) rest with
        | mk last out =>
          rw [submitted] at later
          cases out <;> exact later

theorem submitAll_ordered {length : Nat} (within : count ≤ length) (targets : List Str)
    {s : AnchorScheduler Time} (ordered : ∀ name, (s.marks name).Ordered length) (i : Nat) :
    ∀ name, ((submitAll count answers s i targets).1.marks name).Ordered length := by
  induction targets generalizing s i with
  | nil => exact ordered
  | cons backend rest ih =>
    have first := receive_ordered within ordered backend (answers i)
    rw [submitAll_cons]
    cases received : s.receive backend (answers i) count with
    | mk next out =>
      rw [received] at first
      cases out with
      | error e => exact first
      | ok =>
        have later := ih first (i + 1)
        simp only
        cases submitted : submitAll count answers next (i + 1) rest with
        | mk last out =>
          rw [submitted] at later
          cases out <;> exact later

/-- When every answer was taken, every target was tried, and a terminal answer covered its target. -/
theorem submitAll_reached {targets : List Str} {s : AnchorScheduler Time} {i : Nat}
    {receipts : List Json} (taken : (submitAll count answers s i targets).2 = .ok receipts) :
    (∀ name ∈ targets, count ≤ ((submitAll count answers s i targets).1.marks name).attempted) ∧
      (hasTerminal receipts = .ok true → ∃ name ∈ targets,
        count ≤ ((submitAll count answers s i targets).1.marks name).covered) := by
  induction targets generalizing s i receipts with
  | nil =>
    obtain rfl := Except.ok.inj taken
    exact ⟨nofun, nofun⟩
  | cons backend rest ih =>
    rw [submitAll_cons] at taken ⊢
    have reached := @receive_reached _ s backend (answers i) count
    cases received : s.receive backend (answers i) count with
    | mk next out =>
      rw [received] at reached taken
      cases out with
      | error e => cases taken
      | ok =>
        obtain ⟨tried, status, read, covered⟩ := reached rfl
        have moved := @submitAll_moved _ count answers rest next (i + 1)
        have later := @ih next (i + 1)
        simp only at taken ⊢
        cases submitted : submitAll count answers next (i + 1) rest with
        | mk last out =>
          rw [submitted] at moved later taken
          cases out with
          | error e => cases taken
          | ok others =>
            obtain rfl := Except.ok.inj taken
            obtain ⟨all, some_covered⟩ := later rfl
            constructor
            · intro name member
              rcases List.mem_cons.mp member with rfl | inside
              · exact tried.trans (moved.marks name).attempted
              · exact all name inside
            · intro terminal
              simp only [hasTerminal, List.anyM, read, bind, Except.bind, pure, Except.pure] at terminal
              cases settled : isOneOf status terminalSuccess with
              | true => exact ⟨backend, List.mem_cons_self, (covered settled).trans (moved.marks backend).covered⟩
              | false =>
                rw [settled] at terminal
                obtain ⟨name, inside, reached⟩ := some_covered terminal
                exact ⟨name, List.mem_cons_of_mem _ inside, reached⟩

end Submit

theorem Host.append_adds {host later : Host} {call : AppendCall}
    (made : host.append crypto call = .ok later) : ∃ record,
      later.chain = { host.chain with records := host.chain.records ++ [record] } ∧
        kindOf record = .str call.kind := by
  unfold Host.append at made
  split at made
  · cases made
  · rename_i appended added
    obtain rfl := Except.ok.inj made
    obtain ⟨same, kind, _⟩ := WitnessChain.append_adds added
    refine ⟨appended.record, same, ?_⟩
    rw [kindOf, kind]
    rfl

theorem gather_moved (s : AnchorScheduler Time) (now : Time) (answers : Nat → Json) :
    Moved s (s.gather clock now answers).1 := by
  have moved := @submitAll_moved _ s.host.chain.records.length answers (s.targets clock now)
    { s with lastAttempt := some now } 0
  exact ⟨moved.host, moved.backends, moved.required, moved.marks⟩

theorem targets_fresh {s : AnchorScheduler Time} (news : s.substantive = true) (now : Time) :
    s.targets clock now = s.backends := by
  rw [targets, news]
  simp

theorem targets_bare {s : AnchorScheduler Time} {now : Time} (old : s.substantive = false)
    (due : s.retryDue clock now = true) : ∀ name ∈ s.targets clock now,
      name ∈ s.behind s.host.chain.records := by
  intro name member
  rw [targets, old, due] at member
  simpa using (List.mem_filter.mp member).2

variable (crypto clock) in
structure Appends (s : AnchorScheduler Time) (now : Time) (answers : Nat → Json) (receipts : List Json)
    (host : Host) : Prop where
  taken : (s.gather clock now answers).2 = .ok receipts
  due : s.substantive = true ∨ s.retryDue clock now = true
  grounds : s.substantive = true ∨ hasTerminal receipts = .ok true
  appended : ∃ call, call.kind = Str.ofString "ANCHOR_EXTERNAL" ∧
    (s.gather clock now answers).1.host.append crypto call = .ok host

theorem anchorRound_cases (s : AnchorScheduler Time) (now : Time) (answers : Nat → Json)
    (timestamp : Str) (salt : Bytes) :
    (s.anchorRound crypto clock now answers timestamp salt).1 = s ∨
    (∃ retry, (s.anchorRound crypto clock now answers timestamp salt).1 =
      { (s.gather clock now answers).1 with nextRetry := retry }) ∨
    ∃ retry receipts host, Appends crypto clock s now answers receipts host ∧
      (s.anchorRound crypto clock now answers timestamp salt).1 =
        { (s.gather clock now answers).1 with nextRetry := retry, host := host } := by
  unfold anchorRound
  cases rooted : Replication.chainRoot crypto s.host.chain with
  | error e => exact .inl rfl
  | ok root =>
    simp only
    split
    · exact .inl rfl
    · right
      rename_i due
      have due : s.substantive = true ∨ s.retryDue clock now = true := by
        have some_due := not_not.mp (not_or.mp due).2
        simpa using some_due
      cases gathered : s.gather clock now answers with
      | mk next out =>
        cases out with
        | error e => exact .inl ⟨next.nextRetry, rfl⟩
        | ok receipts =>
          simp only [conclude]
          split
          · exact .inl ⟨_, rfl⟩
          · exact .inl ⟨_, rfl⟩
          · rename_i host ended
            right
            simp only [bind, Py.bind_ok] at ended
            obtain ⟨progressed, terminal, ended⟩ := ended
            split at ended
            · cases ended
            · rename_i idle
              simp only [Py.bind_ok] at ended
              obtain ⟨call, made, later, appended, ended⟩ := ended
              obtain rfl := Option.some.inj (Except.ok.inj ended)
              refine ⟨_, receipts, later, ⟨by rw [gathered], due, ?_, call, ?_, by rw [gathered]; exact appended⟩, rfl⟩
              · cases progressed with
                | true => exact .inr terminal
                | false => exact .inl (by simpa using idle)
              · simp only [external, bind, Py.bind_ok] at made
                obtain ⟨_, _, made⟩ := made
                rw [← Except.ok.inj made]

variable (Time) in
/-- An append of a record by the node, or a round. -/
inductive AnchorAction where
  | append (call : AppendCall)
  | round (now : Time) (answers : Nat → Json) (timestamp : Str) (salt : Bytes)

variable (crypto clock) in
def step (s : AnchorScheduler Time) : AnchorAction Time → AnchorScheduler Time
  | .append call =>
    match s.host.append crypto call with
    | .ok host => { s with host }
    | .error _ => s
  | .round now answers timestamp salt => (s.anchorRound crypto clock now answers timestamp salt).1

variable (crypto) in
/-- What is appended beside the rounds is bookkeeping, and no record of a round. -/
def Quiet (s : AnchorScheduler Time) : AnchorAction Time → Prop
  | .append call => ∀ host, s.host.append crypto call = .ok host →
      call.kind ∈ bookkeeping ∧ call.kind ≠ "ANCHOR_EXTERNAL"
  | .round _ _ _ _ => True

def externals (s : AnchorScheduler Time) : Nat :=
  s.host.chain.records.countP (fun record => kindOf record = .str "ANCHOR_EXTERNAL")

def pending (s : AnchorScheduler Time) : Finset Str :=
  s.required.toFinset.filter (fun name => hasNews s.host.chain.records (s.submitted name) = true)

/-- How many more records rounds can append before there is news again. -/
def budget (s : AnchorScheduler Time) : Nat :=
  (if s.substantive = true then 1 else 0) + s.pending.card

theorem isNews_bookkeeping {record : Json} {kind : Str} (read : kindOf record = .str kind)
    (own : kind ∈ bookkeeping) : isNews record = false := by
  rw [isNews, read, isOneOf, Bool.not_eq_false', List.any_eq_true]
  exact ⟨kind, own, decide_eq_true rfl⟩

theorem le_foldr_max {values : List Nat} {value : Nat} (member : value ∈ values) :
    value ≤ values.foldr max 0 := by
  induction values with
  | nil => cases member
  | cons first rest ih =>
    rcases List.mem_cons.mp member with rfl | later
    · exact le_max_left _ _
    · exact (ih later).trans (le_max_right _ _)

theorem attempted_le_max {s : AnchorScheduler Time} {name : Str} (member : name ∈ s.backends) :
    (s.marks name).attempted ≤ s.attemptedMax :=
  le_foldr_max (List.mem_map_of_mem member)

theorem Moved.attemptedMax {s later : AnchorScheduler Time} (moved : Moved s later) :
    s.attemptedMax ≤ later.attemptedMax := by
  have grows : ∀ names : List Str, (names.map (fun name => (s.marks name).attempted)).foldr max 0 ≤
      (names.map (fun name => (later.marks name).attempted)).foldr max 0 := by
    intro names
    induction names with
    | nil => exact le_rfl
    | cons name rest ih => exact max_le_max (moved.marks name).attempted ih
  rw [AnchorScheduler.attemptedMax, AnchorScheduler.attemptedMax, moved.backends]
  exact grows _

theorem Moved.submitted {s later : AnchorScheduler Time} (moved : Moved s later) (name : Str) :
    s.submitted name ≤ later.submitted name :=
  max_le_max (moved.marks name).covered (moved.marks name).custody

theorem Moved.pending {s later : AnchorScheduler Time} (moved : Moved s later) :
    later.pending ⊆ s.pending := by
  intro name member
  simp only [AnchorScheduler.pending, moved.required, moved.host, Finset.mem_filter] at member ⊢
  exact ⟨member.1, hasNews_anti (moved.submitted name) member.2⟩

theorem Moved.substantive {s later : AnchorScheduler Time} (moved : Moved s later)
    (news : later.substantive = true) : s.substantive = true := by
  rw [AnchorScheduler.substantive, moved.host] at news
  exact hasNews_anti moved.attemptedMax news

theorem Moved.budget {s later : AnchorScheduler Time} (moved : Moved s later) :
    later.budget ≤ s.budget := by
  have fewer := Finset.card_le_card moved.pending
  have older := moved.substantive
  unfold AnchorScheduler.budget
  split
  · rename_i news
    rw [if_pos (older news)]
    omega
  · omega

theorem budget_append {s later : AnchorScheduler Time} {record : Json} (old : isNews record = false)
    (records : later.host.chain.records = s.host.chain.records ++ [record])
    (marks : later.marks = s.marks) (backends : later.backends = s.backends)
    (required : later.required = s.required) : later.budget = s.budget := by
  have furthest : later.attemptedMax = s.attemptedMax := by
    rw [AnchorScheduler.attemptedMax, AnchorScheduler.attemptedMax, marks, backends]
  have pending : later.pending = s.pending := by
    rw [AnchorScheduler.pending, AnchorScheduler.pending, required]
    refine Finset.filter_congr (fun name _ => ?_)
    rw [records, hasNews_append old, AnchorScheduler.submitted, AnchorScheduler.submitted, marks]
  have news : later.substantive = s.substantive := by
    rw [substantive, substantive, records, hasNews_append old, furthest]
  rw [AnchorScheduler.budget, AnchorScheduler.budget, pending, news]

theorem Appends.budget {s : AnchorScheduler Time} {now : Time} {answers : Nat → Json}
    {receipts : List Json} {host : Host} (appends : Appends crypto clock s now answers receipts host) :
    (s.gather clock now answers).1.budget + 1 ≤ s.budget := by
  have moved := @gather_moved _ clock s now answers
  obtain ⟨tried, settled⟩ := submitAll_reached appends.taken
  rw [← gather] at tried settled
  generalize (s.gather clock now answers).1 = next at moved tried settled ⊢
  by_cases news : s.substantive = true
  · have used : next.substantive = false := by
      obtain ⟨name, member⟩ := List.exists_mem_of_ne_nil _ s.some_backend
      have reached := tried name (by rw [targets_fresh news]; exact member)
      rw [substantive, moved.host]
      refine hasNews_length _ (reached.trans (attempted_le_max ?_))
      rw [moved.backends]
      exact member
    have fewer := Finset.card_le_card moved.pending
    rw [AnchorScheduler.budget, AnchorScheduler.budget, if_pos news,
      if_neg (by rw [used]; exact Bool.false_ne_true)]
    omega
  · have old : s.substantive = false := by simpa using news
    obtain ⟨name, member, covered⟩ := settled (appends.grounds.resolve_left news)
    obtain ⟨required, behind⟩ := List.mem_filter.mp
      (targets_bare old (appends.due.resolve_left news) name member)
    have strict : next.pending ⊂ s.pending := by
      refine Finset.ssubset_iff_subset_ne.mpr ⟨moved.pending, fun same => ?_⟩
      have inside : name ∈ s.pending := Finset.mem_filter.mpr ⟨List.mem_toFinset.mpr required, behind⟩
      rw [← same] at inside
      have again := (Finset.mem_filter.mp inside).2
      have beyond : s.host.chain.records.length ≤ next.submitted name := covered.trans (le_max_left _ _)
      rw [moved.host, hasNews_length _ beyond] at again
      cases again
    have fewer := Finset.card_lt_card strict
    rw [AnchorScheduler.budget, AnchorScheduler.budget, if_neg news, if_neg (fun still => news (moved.substantive still))]
    omega

theorem step_budget {s : AnchorScheduler Time} {action : AnchorAction Time} (quiet : Quiet crypto s action) :
    (s.step crypto clock action).required = s.required ∧
      (s.step crypto clock action).externals + (s.step crypto clock action).budget ≤
        s.externals + s.budget := by
  cases action with
  | append call =>
    simp only [step]
    split
    · rename_i host made
      obtain ⟨own, other⟩ := quiet host made
      obtain ⟨record, chain, kind⟩ := Host.append_adds made
      have records := congrArg WitnessChain.records chain
      refine ⟨rfl, ?_⟩
      have same := @budget_append _ s { s with host } record (isNews_bookkeeping kind own) records rfl rfl rfl
      rw [same, externals, externals, records, List.countP_append, List.countP_singleton, kind,
        if_neg (by simpa using other), Nat.add_zero]
    · exact ⟨rfl, le_rfl⟩
  | round now answers timestamp salt =>
    simp only [step]
    have moved := @gather_moved _ clock s now answers
    have kept : (s.gather clock now answers).1.externals = s.externals := by
      rw [externals, externals, moved.host]
    rcases @anchorRound_cases _ crypto clock s now answers timestamp salt with same | ⟨retry, made⟩ |
      ⟨retry, receipts, host, appends, made⟩
    · rw [same]
      exact ⟨rfl, le_rfl⟩
    · rw [made]
      exact ⟨moved.required, Nat.add_le_add kept.le moved.budget⟩
    · obtain ⟨call, kind, appended⟩ := appends.appended
      obtain ⟨record, chain, named⟩ := Host.append_adds appended
      have records := congrArg WitnessChain.records chain
      rw [kind] at named
      have used := appends.budget
      rw [made]
      refine ⟨moved.required, ?_⟩
      have same := @budget_append _ (s.gather clock now answers).1
        { (s.gather clock now answers).1 with nextRetry := retry, host := host } record
        (isNews_bookkeeping named (by decide)) records rfl rfl rfl
      have one : externals { (s.gather clock now answers).1 with nextRetry := retry, host := host } =
          (s.gather clock now answers).1.externals + 1 := by
        rw [externals, externals, records, List.countP_append, List.countP_singleton, named,
          if_pos (by simp)]
      rw [same, one, kept]
      omega

theorem step_ordered {s : AnchorScheduler Time} (action : AnchorAction Time)
    (ordered : ∀ name, (s.marks name).Ordered s.host.chain.records.length) :
    ∀ name, ((s.step crypto clock action).marks name).Ordered
      (s.step crypto clock action).host.chain.records.length := by
  cases action with
  | append call =>
    simp only [step]
    split
    · rename_i host made
      obtain ⟨record, chain, _⟩ := Host.append_adds made
      have records := congrArg WitnessChain.records chain
      intro name
      refine (ordered name).mono ?_
      rw [records, List.length_append]
      exact Nat.le_add_right _ _
    · exact ordered
  | round now answers timestamp salt =>
    simp only [step]
    have moved := @gather_moved _ clock s now answers
    have kept := @submitAll_ordered _ s.host.chain.records.length answers _ le_rfl (s.targets clock now)
      { s with lastAttempt := some now } ordered 0
    rw [← gather] at kept
    rcases @anchorRound_cases _ crypto clock s now answers timestamp salt with same | ⟨retry, made⟩ |
      ⟨retry, receipts, host, appends, made⟩
    · rw [same]
      exact ordered
    · rw [made]
      simp only [moved.host]
      exact kept
    · obtain ⟨call, _, appended⟩ := appends.appended
      obtain ⟨record, chain, _⟩ := Host.append_adds appended
      have records := congrArg WitnessChain.records chain
      rw [made]
      intro name
      refine (kept name).mono ?_
      rw [records, moved.host, List.length_append]
      exact Nat.le_add_right _ _

theorem budget_le (s : AnchorScheduler Time) : s.budget ≤ 1 + s.required.toFinset.card := by
  have some_required := Finset.card_filter_le s.required.toFinset
    (fun name => hasNews s.host.chain.records (s.submitted name) = true)
  unfold budget pending
  split <;> omega

/-- Without news, rounds append at most one record and one more for each required backend; and
the watermarks of every backend stay in order within the chain. -/
theorem anchoring_winds_down :
    (∀ (s : AnchorScheduler Time) (actions : List (AnchorAction Time)),
      Run.Along (step crypto clock) (Quiet crypto) s actions →
        (Run.run (step crypto clock) s actions).externals ≤
          s.externals + (1 + s.required.toFinset.card)) ∧
    ∀ (host : Host) (backends : List Str) (given : Option (List Str)) (s : AnchorScheduler Time),
      make crypto clock host backends given {} = .ok s → ∀ (actions : List (AnchorAction Time)) (name : Str),
        ((Run.run (step crypto clock) s actions).marks name).Ordered
          (Run.run (step crypto clock) s actions).host.chain.records.length := by
  constructor
  · intro s actions along
    have kept : ∀ (later : AnchorScheduler Time) (action : AnchorAction Time),
        later.externals + later.budget ≤ s.externals + s.budget → Quiet crypto later action →
          (later.step crypto clock action).externals + (later.step crypto clock action).budget ≤
            s.externals + s.budget :=
      fun _ _ good quiet => (step_budget quiet).2.trans good
    have bounded := Run.invariant kept le_rfl along
    have limit := s.budget_le
    omega
  · intro host backends given s made actions
    have fresh : ∀ name, (s.marks name).Ordered s.host.chain.records.length := by
      unfold make at made
      split at made
      · cases made
      · simp only [bind, Py.bind_ok, replayLog] at made
        obtain ⟨marks, empty, made⟩ := made
        obtain rfl := Except.ok.inj empty
        obtain rfl := Except.ok.inj made
        exact fun name => ⟨le_rfl, le_rfl, Nat.zero_le _⟩
    have kept : ∀ (later : AnchorScheduler Time) (action : AnchorAction Time),
        (∀ name, (later.marks name).Ordered later.host.chain.records.length) → True →
          ∀ name, ((later.step crypto clock action).marks name).Ordered
            (later.step crypto clock action).host.chain.records.length :=
      fun _ action good _ => step_ordered action good
    exact Run.invariant_of_forall kept fresh (fun _ _ => trivial)

section Sample

def minutes : Clock Nat where
  zero := 0
  reached := fun now next => next ≤ now
  later := fun now => now + 60

def emptyHost : Host := ⟨⟨.sample 1, []⟩, nofun⟩

def workedHost : Host := ((emptyHost.append .sample { kind := "INFER" }).toOption).getD emptyHost

def sampleScheduler : AnchorScheduler Nat where
  host := workedHost
  backends := ["local", "ots-calendar"]
  some_backend := List.cons_ne_nil _ _
  required := requiredBackends ["local", "ots-calendar"] none
  log := {}
  marks := fun _ => {}
  nextRetry := minutes.zero

theorem sampleScheduler_made :
    make .sample minutes workedHost ["local", "ots-calendar"] none {} = .ok sampleScheduler := rfl

def answer (status : Str) : Json :=
  .obj [("backend", .str "ots-calendar"), ("root", .str "r"), ("count", .int 1), ("status", .str status),
    ("ts", .int 1)]

def pendingThenSettled : List (AnchorAction Nat) :=
  [.round 100 (fun _ => answer "pending") "t" [], .round 200 (fun _ => answer "confirmed") "t" []]

theorem anchoring_winds_down_sample :
    (Run.run (step .sample minutes) sampleScheduler pendingThenSettled).externals ≤
        sampleScheduler.externals + (1 + sampleScheduler.required.toFinset.card) ∧
      ∀ name, ((Run.run (step .sample minutes) sampleScheduler pendingThenSettled).marks name).Ordered
        (Run.run (step .sample minutes) sampleScheduler pendingThenSettled).host.chain.records.length :=
  ⟨anchoring_winds_down.1 sampleScheduler pendingThenSettled ⟨trivial, trivial, trivial⟩,
    anchoring_winds_down.2 workedHost _ none sampleScheduler sampleScheduler_made pendingThenSettled⟩

end Sample

end AnchorScheduler

end JJDai
