import JJDai.Kernel.Karma

/-! The log of the action organ: when each intent has its own outcome, and the
pending intents are those that have none. -/

namespace JJDai.Karma

open PyText Canonical

variable {crypto : Crypto} {sandbox : Sandbox} {organ : Organ} {call : Call} {around : Around}

theorem intentOf_intent {intent : Event} (made : intentOf crypto sandbox around call = .ok intent) :
    intent.isIntent = true := by
  simp only [intentOf, bind, Py.bind_ok] at made
  obtain ⟨params, _, made⟩ := made
  split at made
  · cases made
  · obtain ⟨data, _, rest⟩ := Py.bind_ok.mp made
    obtain rfl := Except.ok.inj rest
    rfl

theorem outcomeEvent_ok {action hash : Str} {result : ActionResult} {outcome : Event}
    (made : outcomeEvent crypto around action hash result = .ok outcome) :
    outcome.isIntent = false ∧ outcome.actionHash = hash := by
  simp only [outcomeEvent, bind, Py.bind_ok] at made
  obtain ⟨_, _, _, _, rest⟩ := made
  obtain rfl := Except.ok.inj rest
  exact ⟨rfl, rfl⟩

theorem outcomeEvent_made {action hash : Str} {result : ActionResult} (stdout : (encode result.stdout).isOk = true)
    (stderr : (encode result.stderr).isOk = true) : ∃ outcome, outcomeEvent crypto around action hash result = .ok outcome := by
  obtain ⟨out, outRead⟩ := Py.exists_of_isOk stdout
  obtain ⟨err, errRead⟩ := Py.exists_of_isOk stderr
  refine ⟨.outcome around.ended action hash result (H_hex crypto out) (H_hex crypto err), ?_⟩
  simp only [outcomeEvent, outRead, errRead, bind, Except.bind, pure, Except.pure]

theorem outcomeOf_ok {hash : Str} {outcome : Event} {answer : Py ActionResult}
    (made : outcomeOf crypto sandbox around call hash = .ok (outcome, answer)) :
    outcome.isIntent = false ∧ outcome.actionHash = hash := by
  unfold outcomeOf at made
  cases performed : call.perform crypto sandbox around.os with
  | ok result =>
    simp only [performed, bind, Py.bind_ok] at made
    obtain ⟨event, built, rest⟩ := made
    obtain ⟨rfl, _⟩ := Prod.mk.inj (Except.ok.inj rest)
    exact outcomeEvent_ok built
  | error e =>
    simp only [performed] at made
    split at made
    · obtain ⟨rfl, _⟩ := Prod.mk.inj (Except.ok.inj made)
      exact ⟨rfl, rfl⟩
    · split at made
      · simp only [bind, Py.bind_ok] at made
        obtain ⟨event, built, rest⟩ := made
        obtain ⟨rfl, _⟩ := Prod.mk.inj (Except.ok.inj rest)
        exact outcomeEvent_ok built
      · cases made

theorem outcomeOf_made (finishes : Finishes crypto sandbox call around) (hash : Str) :
    ∃ outcome answer, outcomeOf crypto sandbox around call hash = .ok (outcome, answer) := by
  unfold outcomeOf
  cases performed : call.perform crypto sandbox around.os with
  | ok result =>
    obtain ⟨stdout, stderr⟩ := finishes.prints result performed
    obtain ⟨event, built⟩ := @outcomeEvent_made crypto around call.action hash result stdout stderr
    exact ⟨event, .ok result, by simp only [built, bind, Except.bind, pure, Except.pure]⟩
  | error e =>
    dsimp only
    rcases finishes.raises e performed with escape | isolation | ⟨os, told⟩
    · exact ⟨_, _, if_pos (.inl escape)⟩
    · exact ⟨_, _, if_pos (.inr isolation)⟩
    · obtain ⟨event, built⟩ := @outcomeEvent_made crypto around call.action hash
        { action := call.action, ok := false, exitCode := -1, stdout := [], stderr := e.text } rfl told
      refine ⟨event, .ok { action := call.action, ok := false, exitCode := -1, stdout := [], stderr := e.text }, ?_⟩
      simp only [os, reduceCtorEq, or_self, if_false, if_true, built, bind, Except.bind, pure, Except.pure]

theorem emit_taken (taken : ∀ event, around.journal event = .ok () ∧ around.witness event = .ok ()) (id : Nat)
    (event : Event) : organ.emit around id event =
      ({ organ with log := organ.log ++ [(id, event)], journal := organ.journal ++ [(id, event)] }, .ok ()) := by
  simp only [Organ.emit, (taken event).1, (taken event).2]

theorem act_adds (finishes : Finishes crypto sandbox call around) :
    (organ.act crypto sandbox around call).1 = { organ with calls := organ.calls + 1 } ∨
      ∃ intent outcome, intentOf crypto sandbox around call = .ok intent ∧ outcome.isIntent = false ∧
        outcome.actionHash = intent.actionHash ∧ (organ.act crypto sandbox around call).1 =
          { log := organ.log ++ [(organ.calls, intent), (organ.calls, outcome)],
            journal := organ.journal ++ [(organ.calls, intent), (organ.calls, outcome)], calls := organ.calls + 1 } := by
  unfold Organ.act
  cases made : intentOf crypto sandbox around call with
  | error e => exact .inl rfl
  | ok intent =>
    obtain ⟨outcome, answer, ended⟩ := outcomeOf_made finishes intent.actionHash
    obtain ⟨ends, same⟩ := outcomeOf_ok ended
    refine .inr ⟨intent, outcome, rfl, ends, same, ?_⟩
    simp only [emit_taken finishes.taken, ended, List.append_assoc, List.cons_append, List.nil_append]

/-- Every intent is followed by its outcome, or is left alone. -/
inductive Paired : List (Nat × Event) → Prop where
  | nil : Paired []
  | lone {log : List (Nat × Event)} {id : Nat} {intent : Event} (before : Paired log)
      (fresh : ∀ entry ∈ log, entry.1 ≠ id) (starts : intent.isIntent = true) : Paired (log ++ [(id, intent)])
  | pair {log : List (Nat × Event)} {id : Nat} {intent outcome : Event} (before : Paired log)
      (fresh : ∀ entry ∈ log, entry.1 ≠ id) (starts : intent.isIntent = true) (ends : outcome.isIntent = false)
      (same : outcome.actionHash = intent.actionHash) : Paired (log ++ [(id, intent), (id, outcome)])

theorem Paired.take {log : List (Nat × Event)} (paired : Paired log) (n : Nat) : Paired (log.take n) := by
  induction paired with
  | nil => simpa using Paired.nil
  | @lone log id intent before fresh starts ih =>
    rw [List.take_append]
    cases gap : n - log.length with
    | zero => simpa using ih
    | succ k =>
      rw [List.take_of_length_le (by omega : log.length ≤ n), List.take_of_length_le (by simp)]
      exact .lone before fresh starts
  | @pair log id intent outcome before fresh starts ends same ih =>
    rw [List.take_append]
    match gap : n - log.length with
    | 0 => simpa using ih
    | 1 =>
      rw [List.take_of_length_le (by omega : log.length ≤ n)]
      exact .lone before fresh starts
    | k + 2 =>
      rw [List.take_of_length_le (by omega : log.length ≤ n), List.take_of_length_le (by simp)]
      exact .pair before fresh starts ends same

theorem Paired.same {log : List (Nat × Event)} (paired : Paired log) {id : Nat} {intent outcome : Event}
    (started : (id, intent) ∈ log) (ended : (id, outcome) ∈ log)
    (ends : outcome.isIntent = false) : outcome.actionHash = intent.actionHash := by
  induction paired with
  | nil => cases started
  | @lone log last other before fresh starts' ih =>
    rw [List.mem_append, List.mem_singleton, Prod.mk.injEq] at started ended
    rcases ended with ended | ⟨rfl, rfl⟩
    · rcases started with started | ⟨rfl, rfl⟩
      · exact ih started ended
      · exact absurd rfl (fresh _ ended)
    · rw [starts'] at ends
      cases ends
  | @pair log last first second before fresh starts' ends' same ih =>
    rw [List.mem_append, List.mem_pair, Prod.mk.injEq, Prod.mk.injEq] at started ended
    rcases ended with ended | ⟨rfl, rfl⟩ | ⟨rfl, rfl⟩
    · rcases started with started | ⟨rfl, _⟩ | ⟨rfl, _⟩
      · exact ih started ended
      · exact absurd rfl (fresh _ ended)
      · exact absurd rfl (fresh _ ended)
    · rw [starts'] at ends
      cases ends
    · rcases started with started | ⟨_, rfl⟩ | ⟨_, rfl⟩
      · exact absurd rfl (fresh _ started)
      · exact same
      · rfl

theorem answered_iff {log : List (Nat × Event)} {id : Nat} :
    answered log id = true ↔ ∃ outcome, (id, outcome) ∈ log ∧ outcome.isIntent = false := by
  simp only [answered, List.any_eq_true, Bool.and_eq_true, decide_eq_true_eq, Bool.not_eq_true', Prod.exists]
  constructor
  · intro found
    obtain ⟨_, outcome, member, rfl, ends⟩ := found
    exact ⟨outcome, member, ends⟩
  · intro found
    obtain ⟨outcome, member, ends⟩ := found
    exact ⟨id, outcome, member, rfl, ends⟩

theorem mem_unanswered {log : List (Nat × Event)} {id : Nat} {intent : Event} : (id, intent) ∈ unanswered log ↔
    (id, intent) ∈ log ∧ intent.isIntent = true ∧ ∀ outcome, (id, outcome) ∈ log → outcome.isIntent = true := by
  have open_ : answered log id = false ↔ ∀ outcome, (id, outcome) ∈ log → outcome.isIntent = true := by
    rw [← Bool.not_eq_true, answered_iff]
    simp
  simp only [unanswered, List.mem_filter, Bool.and_eq_true, Bool.not_eq_true', open_]

theorem unanswered_append {log later : List (Nat × Event)} {id : Nat} {intent : Event}
    (others : ∀ entry ∈ later, entry.1 ≠ id) (waiting : (id, intent) ∈ unanswered log) :
    (id, intent) ∈ unanswered (log ++ later) := by
  rw [mem_unanswered] at waiting ⊢
  obtain ⟨member, starts, alone⟩ := waiting
  refine ⟨List.mem_append_left _ member, starts, fun outcome found => ?_⟩
  rcases List.mem_append.mp found with before | after
  · exact alone outcome before
  · exact absurd rfl (others _ after)

theorem unanswered_front {log later : List (Nat × Event)} {id : Nat} {intent : Event} (member : (id, intent) ∈ log)
    (waiting : (id, intent) ∈ unanswered (log ++ later)) : (id, intent) ∈ unanswered log := by
  rw [mem_unanswered] at waiting ⊢
  exact ⟨member, waiting.2.1, fun outcome found => waiting.2.2 outcome (List.mem_append_left _ found)⟩

theorem Paired.cut {log : List (Nat × Event)} (paired : Paired log) {n id : Nat} {intent : Event}
    (waiting : (id, intent) ∈ unanswered (log.take n)) :
    (id, intent) ∈ unanswered log ∨ ∃ front, log.take n = front ++ [(id, intent)] := by
  induction paired with
  | nil => simp [unanswered] at waiting
  | @lone log last other before fresh starts ih =>
    rw [List.take_append] at waiting ⊢
    cases gap : n - log.length with
    | zero =>
      simp only [gap, List.take_zero, List.append_nil] at waiting ⊢
      have member := List.mem_of_mem_take (mem_unanswered.mp waiting).1
      exact (ih waiting).imp_left (unanswered_append (by simpa using (fresh _ member).symm))
    | succ k =>
      rw [List.take_of_length_le (by omega : log.length ≤ n), gap, List.take_of_length_le (by simp)] at waiting
      exact .inl waiting
  | @pair log last first second before fresh starts ends same ih =>
    rw [List.take_append] at waiting ⊢
    match gap : n - log.length with
    | 0 =>
      simp only [gap, List.take_zero, List.append_nil] at waiting ⊢
      have member := List.mem_of_mem_take (mem_unanswered.mp waiting).1
      exact (ih waiting).imp_left (unanswered_append (by simpa using (fresh _ member).symm))
    | 1 =>
      have whole : log.take n = log := List.take_of_length_le (by omega)
      simp only [gap, whole, List.take_succ_cons, List.take_zero] at waiting ⊢
      rcases List.mem_append.mp (mem_unanswered.mp waiting).1 with member | here
      · exact .inl (unanswered_append (by simpa using (fresh _ member).symm) (unanswered_front member waiting))
      · exact .inr ⟨log, by rw [List.mem_singleton.mp here]⟩
    | k + 2 =>
      rw [List.take_of_length_le (by omega : log.length ≤ n), gap, List.take_of_length_le (by simp)] at waiting
      exact .inl waiting

structure Good (organ : Organ) : Prop where
  durable : organ.journal = organ.log
  paired : Paired organ.log
  numbered : ∀ entry ∈ organ.log, entry.1 < organ.calls
  apart : ∀ entry ∈ unanswered organ.log, ∀ outcome ∈ organ.log, outcome.2.isIntent = false →
    outcome.2.actionHash ≠ entry.2.actionHash

theorem Good.exact (good : Good organ) : Exact organ := by
  have agrees : ∀ entry ∈ organ.log,
      (entry.2.isIntent && !((organ.events.filter (fun e => !e.isIntent)).map Event.actionHash).contains entry.2.actionHash) =
        (entry.2.isIntent && !answered organ.log entry.1) := by
    intro entry member
    obtain ⟨id, event⟩ := entry
    cases starts : event.isIntent with
    | false => rfl
    | true =>
      rw [Bool.true_and, Bool.true_and]
      congr 1
      rw [Bool.eq_iff_iff, List.contains_iff_mem, answered_iff]
      constructor
      · intro matched
        obtain ⟨other, found, same⟩ := List.mem_map.mp matched
        obtain ⟨listed, ends⟩ := List.mem_filter.mp found
        obtain ⟨⟨owner, outcome⟩, logged, rfl⟩ := List.mem_map.mp listed
        have closes : outcome.isIntent = false := by simpa using ends
        by_contra alone
        have waiting : (id, event) ∈ unanswered organ.log := by
          rw [mem_unanswered]
          refine ⟨member, starts, fun later found => ?_⟩
          by_contra closed
          exact alone ⟨later, found, by simpa using closed⟩
        exact good.apart _ waiting _ logged closes same
      · intro own
        obtain ⟨outcome, logged, ends⟩ := own
        have same := good.paired.same member logged ends
        refine List.mem_map.mpr ⟨outcome, List.mem_filter.mpr ⟨List.mem_map.mpr ⟨_, logged, rfl⟩, by simpa using ends⟩, same⟩
  have lifted : organ.events.filter (fun e => e.isIntent &&
      !((organ.events.filter (fun e => !e.isIntent)).map Event.actionHash).contains e.actionHash) =
      (organ.log.filter (fun entry => entry.2.isIntent &&
        !((organ.events.filter (fun e => !e.isIntent)).map Event.actionHash).contains entry.2.actionHash)).map (·.2) := by
    rw [Organ.events, List.filter_map]
    rfl
  rw [Exact, pendingIntents, lifted, unanswered, List.filter_congr agrees]

theorem fresh_of_numbered (numbered : ∀ entry ∈ organ.log, entry.1 < organ.calls) :
    ∀ entry ∈ organ.log, entry.1 ≠ organ.calls := fun entry member => (numbered entry member).ne

theorem good_call (good : Good organ) (careful : Careful crypto sandbox organ (.call call around)) :
    Good (organ.act crypto sandbox around call).1 ∧ Settles organ (organ.act crypto sandbox around call).1 := by
  obtain ⟨finishes, fresh⟩ := careful
  rcases @act_adds crypto sandbox organ call around finishes with quiet | ⟨intent, outcome, made, ends, same, added⟩
  · rw [quiet]
    refine ⟨⟨good.durable, good.paired, fun entry member => ?_, good.apart⟩, .inl rfl⟩
    exact (good.numbered entry member).trans (Nat.lt_succ_self _)
  · have starts := intentOf_intent made
    have unused := fresh_of_numbered good.numbered
    rw [added]
    refine ⟨⟨by rw [good.durable], .pair good.paired unused starts ends same, ?_, ?_⟩,
      .inr ⟨intent, outcome, starts, ends, same, rfl⟩⟩
    · intro entry member
      rcases List.mem_append.mp member with before | here
      · exact (good.numbered entry before).trans (Nat.lt_succ_self _)
      · simp only [List.mem_pair] at here
        rcases here with rfl | rfl <;> exact Nat.lt_succ_self _
    · intro entry waiting other logged closes
      obtain ⟨id, event⟩ := entry
      obtain ⟨member, opens, alone⟩ := mem_unanswered.mp waiting
      have before : (id, event) ∈ organ.log := by
        rcases List.mem_append.mp member with before | here
        · exact before
        · simp only [List.mem_pair, Prod.mk.injEq] at here
          rcases here with ⟨rfl, rfl⟩ | ⟨rfl, rfl⟩
          · have closed := alone outcome (by simp)
            rw [ends] at closed
            cases closed
          · rw [ends] at opens
            cases opens
      have old := unanswered_front before waiting
      rcases List.mem_append.mp logged with earlier | here
      · exact good.apart _ old _ earlier closes
      · simp only [List.mem_pair] at here
        rcases here with rfl | rfl
        · rw [starts] at closes
          cases closes
        · intro hash
          exact fresh intent made _ old (hash.symm.trans same)

theorem good_restart (good : Good organ) {kept : Nat} (careful : Careful crypto sandbox organ (.restart kept)) :
    Good (organ.rebuilt kept) := by
  rw [Organ.rebuilt, good.durable]
  rw [Careful, good.durable] at careful
  refine ⟨rfl, good.paired.take kept, fun entry member => good.numbered entry (List.mem_of_mem_take member), ?_⟩
  intro entry waiting other logged closes
  obtain ⟨id, event⟩ := entry
  rcases good.paired.cut waiting with before | ⟨front, last⟩
  · exact good.apart _ before _ (List.mem_of_mem_take logged) closes
  · dsimp only at logged
    rw [last, List.mem_append, List.mem_singleton] at logged
    rcases logged with earlier | rfl
    · exact careful front id event last (mem_unanswered.mp waiting).2.1 _ earlier
    · rw [(mem_unanswered.mp waiting).2.1] at closes
      cases closes

variable (crypto sandbox)

theorem good_step {move : Move} (good : Good organ) (careful : Careful crypto sandbox organ move) :
    Good (step crypto sandbox organ move) := by
  cases move with
  | call call around => exact (good_call good careful).1
  | restart kept => exact good_restart good careful

theorem good_start : Good {} where
  durable := rfl
  paired := .nil
  numbered := by simp
  apart := by simp

/-- In a careful run each call leaves an outcome after its intent, and in every state
the pending intents are those without an outcome of their own. -/
theorem intents_have_their_outcomes {moves : List Move}
    (careful : Run.Along (step crypto sandbox) (Careful crypto sandbox) {} moves) :
    Run.Along (step crypto sandbox) (Leaves crypto sandbox) {} moves ∧
      ∀ front, front <+: moves → Exact (Run.run (step crypto sandbox) {} front) := by
  constructor
  · have settles : ∀ {organ moves}, Good organ → Run.Along (step crypto sandbox) (Careful crypto sandbox) organ moves →
        Run.Along (step crypto sandbox) (Leaves crypto sandbox) organ moves := by
      intro organ moves good careful
      induction moves generalizing organ with
      | nil => trivial
      | cons move rest ih =>
        refine ⟨?_, ih (good_step crypto sandbox good careful.1) careful.2⟩
        cases move with
        | call call around => exact (good_call good careful.1).2
        | restart kept => trivial
    exact settles good_start careful
  · intro front reached
    obtain ⟨back, rfl⟩ := reached
    have kept : ∀ organ move, Good organ → Careful crypto sandbox organ move → Good (step crypto sandbox organ move) :=
      fun _ _ good careful => good_step crypto sandbox good careful
    exact (Run.invariant kept good_start (Run.along_append.mp careful).1).exact

def sampleSandbox : Sandbox where
  beingId := "b"
  root := "/w"
  maxOutput := 8

/-- Every path is the workspace, which is empty, and a file reads as given. -/
def sampleOs (text : Py Str) : Os where
  realpath _ := .ok "/w"
  makeParent _ := .ok ()
  write _ _ := .ok ()
  read _ _ := text
  listdir _ := .ok []
  remove _ := .ok ()
  spawn _ _ := .ok { action := "shell", ok := true, exitCode := 0, stdout := [], stderr := [] }

def sampleAround : Around where
  os := sampleOs (.ok "x")

def sampleUndecodable : Around where
  os := sampleOs (raise .unicodeDecodeError)

theorem finishes_of_printed (printed : ((call.perform crypto sandbox around.os).toOption.any
      (fun result => (encode result.stdout).isOk && (encode result.stderr).isOk)) = true)
    (taken : ∀ event, around.journal event = .ok () ∧ around.witness event = .ok ()) :
    Finishes crypto sandbox call around := by
  cases performed : call.perform crypto sandbox around.os with
  | error e => simp [performed, Except.toOption] at printed
  | ok result =>
    simp only [performed, Except.toOption, Option.any_some, Bool.and_eq_true] at printed
    constructor
    · intro e failed
      rw [performed] at failed
      cases failed
    · intro other same
      rw [performed] at same
      obtain rfl := Except.ok.inj same
      exact printed
    · exact taken

/-- A listing, a stop between its two events, and a read. -/
theorem intents_have_their_outcomes_sample :
    Run.Along (step Crypto.sample sampleSandbox) (Leaves Crypto.sample sampleSandbox) {}
      [.call (.fsList ".") sampleAround, .restart 1, .call (.fsRead "a") sampleAround] ∧
    ∀ front, front <+: [.call (.fsList ".") sampleAround, .restart 1, .call (.fsRead "a") sampleAround] →
      Exact (Run.run (step Crypto.sample sampleSandbox) {} front) := by
  have lists : Finishes Crypto.sample sampleSandbox (.fsList ".") sampleAround :=
    finishes_of_printed _ _ (by decide +kernel) (fun _ => ⟨rfl, rfl⟩)
  have reads : Finishes Crypto.sample sampleSandbox (.fsRead "a") sampleAround :=
    finishes_of_printed _ _ (by decide +kernel) (fun _ => ⟨rfl, rfl⟩)
  have differ : (unanswered (step Crypto.sample sampleSandbox (step Crypto.sample sampleSandbox {}
      (.call (.fsList ".") sampleAround)) (.restart 1)).log).all (fun entry =>
        (intentOf Crypto.sample sampleSandbox sampleAround (.fsRead "a")).toOption.all
          (fun intent => decide (entry.2.actionHash ≠ intent.actionHash))) = true := by decide +kernel
  apply intents_have_their_outcomes
  refine ⟨⟨lists, fun _ _ entry waiting => by cases waiting⟩, ?_, ⟨reads, ?_⟩, trivial⟩
  · intro front id intent cut _ entry earlier
    have short := congrArg List.length cut
    rw [List.length_append, List.length_singleton, List.length_take] at short
    have empty : front = [] := List.eq_nil_of_length_eq_zero (by omega)
    rw [empty] at earlier
    cases earlier
  · intro intent made entry waiting
    have apart := List.all_eq_true.mp differ entry waiting
    simpa [made, Except.toOption] using apart

/-- A file that cannot be decoded leaves an intent alone, and a repeated listing
hides the one that was interrupted. -/
theorem intents_without_outcomes :
    ¬Settles {} (({} : Organ).act Crypto.sample sampleSandbox sampleUndecodable (.fsRead "a")).1 ∧
      ¬Exact (Run.run (step Crypto.sample sampleSandbox) {}
        [.call (.fsList ".") sampleAround, .restart 1, .call (.fsList ".") sampleAround]) := by
  constructor
  · intro settles
    have alone : (({} : Organ).act Crypto.sample sampleSandbox sampleUndecodable (.fsRead "a")).1.log.length = 1 := by
      decide +kernel
    rcases settles with quiet | ⟨_, _, _, _, _, added⟩
    · rw [quiet] at alone
      cases alone
    · rw [added] at alone
      cases alone
  · intro same
    have lengths : (pendingIntents (Run.run (step Crypto.sample sampleSandbox) {}
        [.call (.fsList ".") sampleAround, .restart 1, .call (.fsList ".") sampleAround]).events).length = 0 ∧
      (unanswered (Run.run (step Crypto.sample sampleSandbox) {}
        [.call (.fsList ".") sampleAround, .restart 1, .call (.fsList ".") sampleAround]).log).length = 1 := by
      decide +kernel
    have counted := congrArg List.length same
    rw [lengths.1, List.length_map, lengths.2] at counted
    cases counted

end JJDai.Karma
