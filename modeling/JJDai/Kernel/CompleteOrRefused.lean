import JJDai.Kernel.Capture
import JJDai.Kernel.ToolFaults

/-! When what a run of the wasm profile returns is the whole output of a child that ended by itself. -/

namespace JJDai.Isolation

open PyText Karma

/-- How the reads of a stream stop: at its end, or at an `OSError`. -/
inductive Closing where
  | eof | failed
  deriving DecidableEq

/-- What the reads of a stream give before they stop. -/
def written (s : Stream) : List Ready → Bytes
  | [] => []
  | .input _ :: rest => written s rest
  | .read stream result :: rest =>
    if stream = s then
      match result.getD [] with
      | [] => []
      | chunk => chunk ++ written s rest
    else written s rest

/-- How the reads of a stream stop, if they do before the deadline. -/
def closing (s : Stream) : List Ready → Option Closing
  | [] => none
  | .input _ :: rest => closing s rest
  | .read stream result :: rest =>
    if stream = s then
      match result with
      | none => some .failed
      | some [] => some .eof
      | some _ => closing s rest
    else closing s rest

theorem closing_append (s : Stream) (a b : List Ready) : closing s (a ++ b) = (closing s a).or (closing s b) := by
  induction a with
  | nil => rfl
  | cons ready rest ih =>
    cases ready with
    | input sent => exact ih
    | read stream result =>
      by_cases here : stream = s
      · simp only [List.cons_append, closing, if_pos here]
        rcases result with _ | _ | ⟨first, chunk⟩
        · rfl
        · rfl
        · exact ih
      · simp only [List.cons_append, closing, if_neg here]
        exact ih

theorem written_append (s : Stream) (a b : List Ready) :
    written s (a ++ b) = written s a ++ if closing s a = none then written s b else [] := by
  induction a with
  | nil => rfl
  | cons ready rest ih =>
    cases ready with
    | input sent => exact ih
    | read stream result =>
      by_cases here : stream = s
      · simp only [List.cons_append, written, closing, if_pos here]
        rcases result with _ | _ | ⟨first, chunk⟩
        · rfl
        · rfl
        · simp only [Option.getD_some, ih, List.append_assoc]
      · simp only [List.cons_append, written, closing, if_neg here]
        exact ih

theorem written_append_length_le (s : Stream) (a b : List Ready) : (written s a).length ≤ (written s (a ++ b)).length := by
  rw [written_append, List.length_append]
  exact Nat.le_add_right _ _

/-- The state of the loop after these keys. -/
structure Captured (cap : Nat) (events : List Ready) (c : Capture) : Prop where
  total : ∀ s, c.totals s = (written s events).length
  buf : ∀ s, c.bufs s = (written s events).take cap
  opened : ∀ s, c.opened s = decide (closing s events = none)
  flood : c.overflowed = true → ∃ s, cap < (written s events).length

theorem captured_start (cap : Nat) (input : Bytes) : Captured cap [] { pending := input } where
  total _ := rfl
  buf _ := List.take_nil.symm
  opened _ := rfl
  flood overflowed := nomatch overflowed

theorem cap_le_floodBudget (cap : Nat) : cap ≤ floodBudget cap := by
  unfold floodBudget
  omega

variable {cap : Nat} {events : List Ready} {c : Capture}

theorem Captured.input (captured : Captured cap events c) (sent : Option Nat) :
    Captured cap (events ++ [.input sent]) (c.step cap (.input sent)) := by
  have same : ∀ s, written s (events ++ [.input sent]) = written s events := by
    intro s
    rw [written_append]
    split <;> simp [written]
  have still : ∀ s, closing s (events ++ [.input sent]) = closing s events := by
    intro s
    rw [closing_append]
    exact Option.or_none
  cases sent <;> exact ⟨fun s => by rw [same]; exact captured.total s, fun s => by rw [same]; exact captured.buf s,
    fun s => by rw [still]; exact captured.opened s, fun flooded => by simp only [same]; exact captured.flood flooded⟩

theorem Captured.shut (captured : Captured cap events c) {stream : Stream} {result : Option Bytes}
    (open_ : closing stream events = none) (empty : result.getD [] = []) :
    Captured cap (events ++ [.read stream result])
      { c with opened := Function.update c.opened stream false } := by
  have same : ∀ s, written s (events ++ [.read stream result]) = written s events := by
    intro s
    rw [written_append]
    split
    · by_cases here : stream = s <;> simp [written, here, empty]
    · exact List.append_nil _
  refine ⟨?_, ?_, ?_, ?_⟩
  · intro s
    rw [same]
    exact captured.total s
  · intro s
    rw [same]
    exact captured.buf s
  · intro s
    by_cases here : s = stream
    · subst here
      dsimp only
      rw [Function.update_self, closing_append, open_]
      rcases result with _ | _ | ⟨first, chunk⟩
      · simp [closing]
      · simp [closing]
      · cases empty
    · dsimp only
      rw [Function.update_of_ne here, captured.opened s, closing_append]
      simp [closing, Ne.symm here]
  · intro flooded
    simp only [same]
    exact captured.flood flooded

theorem Captured.take (captured : Captured cap events c) {stream : Stream} {first : UInt8} {chunk : Bytes}
    (open_ : closing stream events = none) :
    Captured cap (events ++ [.read stream (some (first :: chunk))]) (c.take cap stream (first :: chunk)) := by
  have here : written stream (events ++ [.read stream (some (first :: chunk))]) = written stream events ++ first :: chunk := by
    rw [written_append, if_pos open_]
    simp [written]
  have other : ∀ s, s ≠ stream → written s (events ++ [.read stream (some (first :: chunk))]) = written s events := by
    intro s differs
    rw [written_append]
    split
    · simp [written, Ne.symm differs]
    · exact List.append_nil _
  refine ⟨?_, ?_, ?_, ?_⟩
  · intro s
    unfold Capture.take
    dsimp only
    by_cases same : s = stream
    · subst same
      rw [Function.update_self, here, List.length_append, captured.total]
    · rw [Function.update_of_ne same, other s same, captured.total]
  · intro s
    unfold Capture.take
    dsimp only
    by_cases same : s = stream
    · subst same
      have room : cap - ((written s events).take cap).length = cap - (written s events).length := by
        rw [List.length_take]
        omega
      rw [Function.update_self, here, captured.buf, room, List.take_append]
    · rw [Function.update_of_ne same, other s same, captured.buf]
  · intro s
    have still : closing s (events ++ [.read stream (some (first :: chunk))]) = closing s events := by
      rw [closing_append]
      by_cases same : stream = s <;> simp [closing, same]
    rw [still]
    exact captured.opened s
  · intro flooded
    rcases Bool.or_eq_true_iff.mp flooded with before | now
    · obtain ⟨s, more⟩ := captured.flood before
      exact ⟨s, Nat.lt_of_lt_of_le more (written_append_length_le s events _)⟩
    · refine ⟨stream, Nat.lt_of_le_of_lt (cap_le_floodBudget cap) ?_⟩
      rw [here, List.length_append, ← captured.total]
      exact of_decide_eq_true now

theorem Captured.step (captured : Captured cap events c) (ready : Ready) :
    Captured cap (events ++ [ready]) (c.step cap ready) := by
  cases ready with
  | input sent => exact captured.input sent
  | read stream result =>
    unfold Capture.step
    dsimp only
    by_cases open_ : closing stream events = none
    · have listened : c.opened stream = true := by rw [captured.opened stream, decide_eq_true open_]
      rw [if_pos listened]
      rcases result with _ | _ | ⟨first, chunk⟩
      · exact captured.shut open_ rfl
      · exact captured.shut open_ rfl
      · exact captured.take open_
    · have deaf : ¬c.opened stream = true := by
        rw [captured.opened stream]
        exact fun listened => open_ (of_decide_eq_true listened)
      rw [if_neg deaf]
      -- The keys of a stream that was closed are not reported any more.
      have same : ∀ s, written s (events ++ [.read stream result]) = written s events := by
        intro s
        rw [written_append]
        split
        · rename_i listening
          have differs : ¬stream = s := fun here => open_ (here ▸ listening)
          simp [written, differs]
        · exact List.append_nil _
      have still : ∀ s, closing s (events ++ [.read stream result]) = closing s events := by
        intro s
        rw [closing_append]
        by_cases here : stream = s
        · subst here
          obtain ⟨how, stopped⟩ := Option.ne_none_iff_exists'.mp open_
          rw [stopped]
          rfl
        · simp [closing, here]
      exact ⟨fun s => by rw [same]; exact captured.total s, fun s => by rw [same]; exact captured.buf s,
        fun s => by rw [still]; exact captured.opened s, fun flooded => by simp only [same]; exact captured.flood flooded⟩

theorem Captured.round (captured : Captured cap events c) (round : List Ready) :
    Captured cap (events ++ round) (round.foldl (Capture.step cap) c) := by
  induction round generalizing events c with
  | nil =>
    rw [List.append_nil]
    exact captured
  | cons ready rest ih =>
    have next := ih (captured.step ready)
    rwa [List.append_assoc] at next

theorem Captured.loop (captured : Captured cap events c) (calm : c.overflowed = false) (rounds : List (List Ready)) :
    ∃ seen unseen, rounds.flatten = seen ++ unseen ∧ Captured cap (events ++ seen) (Capture.loop cap rounds c).1 ∧
      ((Capture.loop cap rounds c).1.overflowed = true ∨ unseen = [] ∨ ∀ s, closing s (events ++ seen) ≠ none) := by
  induction rounds generalizing events c with
  | nil =>
    refine ⟨[], [], rfl, ?_, .inr (.inl rfl)⟩
    rw [List.append_nil]
    unfold Capture.loop
    split <;> exact captured
  | cons round rest ih =>
    unfold Capture.loop
    split
    · have after := captured.round round
      dsimp only
      split
      · rename_i flooded
        exact ⟨round, rest.flatten, rfl, after, .inl flooded⟩
      · rename_i still
        obtain ⟨seen, unseen, same, ends, why⟩ := ih after (Bool.not_eq_true _ ▸ still)
        rw [List.append_assoc] at ends why
        exact ⟨round ++ seen, unseen, by rw [List.flatten_cons, same, List.append_assoc], ends, why⟩
    · rename_i shut
      refine ⟨[], _, rfl, ?_, .inr (.inr ?_)⟩
      · rw [List.append_nil]
        exact captured
      · rw [List.append_nil]
        rw [Bool.or_eq_true, captured.opened, captured.opened, not_or] at shut
        intro s
        cases s with
        | out => exact fun none_yet => shut.1 (decide_eq_true none_yet)
        | err => exact fun none_yet => shut.2 (decide_eq_true none_yet)

theorem loop_captures (cap : Nat) (input : Bytes) (rounds : List (List Ready)) :
    (Capture.loop cap rounds { pending := input }).1.overflowed = true ∧ (∃ s, cap < (written s rounds.flatten).length) ∨
      (Capture.loop cap rounds { pending := input }).1.overflowed = false ∧
        Captured cap rounds.flatten (Capture.loop cap rounds { pending := input }).1 := by
  obtain ⟨seen, unseen, same, ends, why⟩ := (captured_start cap input).loop rfl rounds
  rw [List.nil_append] at ends why
  cases flooded : (Capture.loop cap rounds { pending := input }).1.overflowed with
  | true =>
    obtain ⟨s, more⟩ := ends.flood flooded
    rw [same]
    exact .inl ⟨rfl, s, Nat.lt_of_lt_of_le more (written_append_length_le s seen unseen)⟩
  | false =>
    refine .inr ⟨rfl, ?_⟩
    rcases why.resolve_left (by rw [flooded]; exact Bool.false_ne_true) with rfl | stopped
    · rwa [same, List.append_nil]
    · have all : ∀ s, written s (seen ++ unseen) = written s seen := by
        intro s
        rw [written_append, if_neg (stopped s), List.append_nil]
      have ended : ∀ s, closing s (seen ++ unseen) = closing s seen := by
        intro s
        obtain ⟨how, found⟩ := Option.ne_none_iff_exists'.mp (stopped s)
        rw [closing_append, found]
        rfl
      rw [same]
      exact ⟨fun s => by rw [all]; exact ends.total s, fun s => by rw [all]; exact ends.buf s,
        fun s => by rw [ended]; exact ends.opened s, fun more => by rw [flooded] at more; cases more⟩

/-- The reads of both streams stop at their ends, and nothing ends the child but itself. -/
structure Whole (child : Child) : Prop where
  ends : ∀ s, closing s child.rounds.flatten = some .eof
  itself : ∃ code, child.ending = .itself code

def totalWritten (child : Child) : Nat :=
  (written .out child.rounds.flatten).length + (written .err child.rounds.flatten).length

/-- A result with any output holds the whole output of a child that ended by itself, within the limit. -/
def CompleteOrRefused (limits : Toolset.Limits) (launch : Launch) (r : ActionResult) : Prop :=
  r.stdout ≠ [] ∨ r.stderr ≠ [] →
    ∃ child, launch = .started child ∧ Whole child ∧ r.stdout = decodeReplace (written .out child.rounds.flatten) ∧
      r.stderr = decodeReplace (written .err child.rounds.flatten) ∧ totalWritten child ≤ limits.outputBytes

/-- What a launch must be for that: a whole run, or one whose output is empty, more than the limit, or
names a breach. -/
inductive Settled (lower : Str → Str) (limits : Toolset.Limits) : Launch → Prop where
  | whole {child : Child} (whole : Whole child) : Settled lower limits (.started child)
  | silent {child : Child} (nothing : ∀ s, written s child.rounds.flatten = []) : Settled lower limits (.started child)
  | excessive {child : Child} (more : limits.outputBytes < totalWritten child) : Settled lower limits (.started child)
  | breach {child : Child}
      (named : classifyRuntimeBreach lower (decodeReplace (written .err child.rounds.flatten)) ≠ none) :
      Settled lower limits (.started child)
  | refused {text : Str} {duration : PyFloat} (unseen : text = [] ∨ classifyRuntimeBreach lower text ≠ none) :
      Settled lower limits (.refused text duration)
  | raises {e : PyErr} : Settled lower limits (.raises e)

variable {lower : Str → Str} {tool : Str} {limits : Toolset.Limits} {child : Child} {timedOut : Bool}

theorem result_emitted : emittedOf (c.result cap child timedOut) "out" = .ok (c.totals .out) ∧
    emittedOf (c.result cap child timedOut) "err" = .ok (c.totals .err) := by
  constructor <;> rfl

def Breaks (lower : Str → Str) (limits : Toolset.Limits) (r : ActionResult) (c : Capture) : Prop :=
  classifyRuntimeBreach lower r.stderr ≠ none ∨ r.truncated = true ∨
    limits.outputBytes < (c.totals .out : Int) + c.totals .err

theorem judge_breaks (broken : Breaks lower limits (c.result cap child timedOut) c) :
    ∃ r, judge lower tool limits (c.result cap child timedOut) = .ok r ∧ r.stdout = [] ∧ r.stderr = [] := by
  unfold judge
  cases named : classifyRuntimeBreach lower (c.result cap child timedOut).stderr with
  | some breach => exact ⟨_, rfl, rfl, rfl⟩
  | none =>
    have passed := broken.resolve_left (fun breach => breach named)
    simp only [result_emitted.1, result_emitted.2, bind, ok_bind, if_pos passed]
    exact ⟨_, rfl, rfl, rfl⟩

theorem judge_keeps (sound : ¬Breaks lower limits (c.result cap child timedOut) c) :
    judge lower tool limits (c.result cap child timedOut) = .ok (c.result cap child timedOut) := by
  obtain ⟨unnamed, within⟩ := not_or.mp sound
  unfold judge
  rw [not_not.mp unnamed]
  simp only [result_emitted.1, result_emitted.2, bind, ok_bind, if_neg within]
  rfl

/-- The sandbox's result under the judgement of the profile. -/
def judged (lower : Str → Str) (tool : Str) (limits : Toolset.Limits) (input : Bytes) (launch : Launch) : Py ActionResult :=
  (spawn limits.outputBytes.toNat input launch).bind (judge lower tool limits)

variable {input : Bytes}

theorem judged_excessive (more : limits.outputBytes < totalWritten child) :
    ∃ r, judged lower tool limits input (.started child) = .ok r ∧ r.stdout = [] ∧ r.stderr = [] := by
  apply judge_breaks
  rcases loop_captures limits.outputBytes.toNat input child.rounds with ⟨flooded, _⟩ | ⟨_, captured⟩
  · refine .inr (.inl ?_)
    simp only [Capture.result, flooded, Bool.or_true]
  · refine .inr (.inr ?_)
    rw [captured.total, captured.total]
    exact more

theorem captured_within (positive : 0 < limits.outputBytes) (within : totalWritten child ≤ limits.outputBytes) :
    (Capture.loop limits.outputBytes.toNat child.rounds { pending := input }).1.overflowed = false ∧
      ∀ s, (Capture.loop limits.outputBytes.toNat child.rounds { pending := input }).1.bufs s =
          written s child.rounds.flatten ∧
        (Capture.loop limits.outputBytes.toNat child.rounds { pending := input }).1.totals s =
          (written s child.rounds.flatten).length := by
  have fits : ∀ s, (written s child.rounds.flatten).length ≤ limits.outputBytes.toNat := by
    intro s
    unfold totalWritten at within
    cases s <;> omega
  rcases loop_captures limits.outputBytes.toNat input child.rounds with ⟨_, s, more⟩ | ⟨calm, captured⟩
  · exact absurd (fits s) (Nat.not_le_of_lt more)
  · refine ⟨calm, fun s => ⟨?_, captured.total s⟩⟩
    rw [captured.buf, List.take_of_length_le (fits s)]

theorem judged_within (positive : 0 < limits.outputBytes) (within : totalWritten child ≤ limits.outputBytes) :
    (classifyRuntimeBreach lower (decodeReplace (written .err child.rounds.flatten)) ≠ none →
      ∃ r, judged lower tool limits input (.started child) = .ok r ∧ r.stdout = [] ∧ r.stderr = []) ∧
    (classifyRuntimeBreach lower (decodeReplace (written .err child.rounds.flatten)) = none →
      ∃ r, judged lower tool limits input (.started child) = .ok r ∧
        r.stdout = decodeReplace (written .out child.rounds.flatten) ∧
        r.stderr = decodeReplace (written .err child.rounds.flatten)) := by
  obtain ⟨calm, all⟩ := @captured_within limits child input positive within
  have stderr : ∀ c : Capture, ∀ t, (c.result limits.outputBytes.toNat child t).stderr = decodeReplace (c.bufs .err) :=
    fun _ _ => rfl
  constructor
  · intro named
    refine judge_breaks (.inl ?_)
    rwa [stderr, (all .err).1]
  · intro unnamed
    have sound : ¬Breaks lower limits
        ((Capture.loop limits.outputBytes.toNat child.rounds { pending := input }).1.result limits.outputBytes.toNat child
          (Capture.loop limits.outputBytes.toNat child.rounds { pending := input }).2)
        (Capture.loop limits.outputBytes.toNat child.rounds { pending := input }).1 := by
      rintro (breach | cut | more)
      · rw [stderr, (all .err).1] at breach
        exact breach unnamed
      · simp [Capture.result, calm, (all .out).1, (all .out).2, (all .err).1, (all .err).2] at cut
      · rw [(all .out).2, (all .err).2] at more
        exact absurd within (not_le.mpr more)
    refine ⟨_, judge_keeps sound, ?_, ?_⟩
    · simp only [Capture.result, (all .out).1]
    · simp only [Capture.result, (all .err).1]

theorem judged_refused {text : Str} {duration : PyFloat} (positive : 0 < limits.outputBytes) :
    ∃ r, judged lower tool limits input (.refused text duration) = .ok r ∧ r.stdout = [] ∧
      r.stderr = if classifyRuntimeBreach lower text = none then text else [] := by
  have within : ¬(false = true ∨ limits.outputBytes < 0 + 0) := by
    simp only [Bool.false_eq_true, false_or, add_zero, not_lt]
    exact positive.le
  simp only [judged, spawn, pure, Except.pure, ok_bind, judge]
  cases named : classifyRuntimeBreach lower text with
  | some breach => exact ⟨_, rfl, rfl, rfl⟩
  | none =>
    refine ⟨{ action := "shell", ok := false, exitCode := 127, stdout := [], stderr := text, duration }, ?_, rfl, rfl⟩
    have counted : ∀ stream, emittedOf
        { action := "shell", ok := false, exitCode := 127, stdout := [], stderr := text, duration } stream = .ok 0 :=
      fun _ => rfl
    simp only [counted, bind, ok_bind, if_neg within]

theorem settled_iff (positive : 0 < limits.outputBytes) (launch : Launch) :
    (∀ r, judged lower tool limits input launch = .ok r → CompleteOrRefused limits launch r) ↔
      Settled lower limits launch := by
  cases launch with
  | raises e => exact ⟨fun _ => .raises, fun _ r returned => nomatch returned⟩
  | refused text duration =>
    obtain ⟨r, returned, quiet, said⟩ := @judged_refused lower tool limits input text duration positive
    constructor
    · intro complete
      refine .refused ?_
      by_contra shown
      obtain ⟨some_text, unnamed⟩ := not_or.mp shown
      rw [if_pos (not_not.mp unnamed)] at said
      obtain ⟨child, started, _⟩ := complete r returned (.inr (said ▸ some_text))
      cases started
    · intro settled other same output
      cases settled with
      | refused unseen =>
        obtain rfl := Except.ok.inj (returned.symm.trans same)
        rcases output with out | err
        · exact absurd quiet out
        · refine absurd (said.trans ?_) err
          rcases unseen with rfl | named
          · exact ite_self _
          · exact if_neg named
  | started child =>
    by_cases more : limits.outputBytes < totalWritten child
    · obtain ⟨r, returned, quiet⟩ := @judged_excessive lower tool limits child input more
      refine ⟨fun _ => .excessive more, fun _ other same output => ?_⟩
      obtain rfl := Except.ok.inj (returned.symm.trans same)
      rcases output with out | err
      · exact absurd quiet.1 out
      · exact absurd quiet.2 err
    · obtain ⟨discards, keeps⟩ := @judged_within lower tool limits child input positive (not_lt.mp more)
      by_cases unnamed : classifyRuntimeBreach lower (decodeReplace (written .err child.rounds.flatten)) = none
      · obtain ⟨r, returned, out, err⟩ := keeps unnamed
        constructor
        · intro complete
          by_cases nothing : ∀ s, written s child.rounds.flatten = []
          · exact .silent nothing
          · have output : r.stdout ≠ [] ∨ r.stderr ≠ [] := by
              rw [out, err, ne_eq, ne_eq, decodeReplace_eq_nil, decodeReplace_eq_nil, ← not_and_or]
              intro both
              refine nothing fun s => ?_
              cases s
              · exact both.1
              · exact both.2
            obtain ⟨same, started, whole, _⟩ := complete r returned output
            obtain rfl := Launch.started.inj started
            exact .whole whole
        · intro settled other same output
          obtain rfl := Except.ok.inj (returned.symm.trans same)
          cases settled with
          | whole whole => exact ⟨child, rfl, whole, out, err, not_lt.mp more⟩
          | silent nothing =>
            rw [out, err, nothing, nothing] at output
            exact absurd rfl (output.elim id id)
          | excessive excess => exact absurd excess more
          | breach named => exact absurd unnamed named
      · obtain ⟨r, returned, quiet⟩ := discards unnamed
        refine ⟨fun _ => .breach unnamed, fun _ other same output => ?_⟩
        obtain rfl := Except.ok.inj (returned.symm.trans same)
        rcases output with out | err
        · exact absurd quiet.1 out
        · exact absurd quiet.2 err

theorem positiveLimit_pos {fields : Dict Str Json} {field : Str} {value : Int}
    (read : Toolset.positiveLimit fields field = .ok value) : 0 < value := by
  unfold Toolset.positiveLimit at read
  split at read
  · split at read
    · rename_i positive
      obtain rfl := Except.ok.inj read
      exact positive
    · cases read
  · cases read

theorem checkLimitsDeclared_pos {value : Json} (checked : Toolset.checkLimitsDeclared value = .ok limits) :
    0 < limits.outputBytes := by
  unfold Toolset.checkLimitsDeclared at checked
  split at checked
  · simp only [bind, Py.bind_ok, Py.unless_ok] at checked
    obtain ⟨_, _, _, _, _, _, _, _, outputBytes, declared, _, _, made⟩ := checked
    obtain rfl := Except.ok.inj made
    exact positiveLimit_pos declared
  · cases checked

variable {crypto : Crypto} {profile : Profile} {host : Host} {sandbox : Sandbox} {os : Os}

theorem limitsFor_pos (read : limitsFor crypto profile host tool = .ok limits) : 0 < limits.outputBytes := by
  simp only [limitsFor, bind, Py.bind_ok] at read
  obtain ⟨tools, _, read⟩ := read
  split at read
  · split at read
    · obtain ⟨value, _, checked⟩ := Py.bind_ok.mp read
      exact checkLimitsDeclared_pos checked
    · exact checkLimitsDeclared_pos read
  · exact checkLimitsDeclared_pos read

theorem prepare_pos {cwd : Option Str} {argv cmd : List Str}
    (prepared : prepare crypto profile host sandbox os cwd argv = .ok (tool, cmd, limits)) : 0 < limits.outputBytes := by
  cases argv with
  | nil => cases prepared
  | cons first args =>
    simp only [prepare, bind, Py.bind_ok] at prepared
    obtain ⟨_, _, prepared⟩ := prepared
    obtain ⟨_, prepared⟩ := Py.unless_ok.mp prepared
    obtain ⟨_, _, prepared⟩ := Py.bind_ok.mp prepared
    obtain ⟨_, _, prepared⟩ := Py.bind_ok.mp prepared
    obtain ⟨found, declared, prepared⟩ := Py.bind_ok.mp prepared
    obtain ⟨_, _, made⟩ := Py.bind_ok.mp prepared
    obtain rfl := (Prod.mk.inj (Prod.mk.inj (Except.ok.inj made)).2).2
    exact limitsFor_pos declared

theorem run_of_prepare {cwd : Option Str} {argv cmd : List Str} {launch : List Str → Launch}
    (prepared : prepare crypto profile host sandbox os cwd argv = .ok (tool, cmd, limits)) :
    run crypto profile host sandbox os argv cwd input launch = judged host.lower tool limits input (launch cmd) := by
  simp only [run, prepared, bind, ok_bind]
  rfl

/-- A run of a tool returns its whole output or none, exactly where the launch is a settled one. -/
theorem run_complete_iff (crypto : Crypto) (profile : Profile) (host : Host) (sandbox : Sandbox) (os : Os)
    (argv : List Str) (cwd : Option Str) (input : Bytes) (launch : List Str → Launch) :
    (∀ r, run crypto profile host sandbox os argv cwd input launch = .ok r →
      ∃ tool cmd limits, prepare crypto profile host sandbox os cwd argv = .ok (tool, cmd, limits) ∧
        CompleteOrRefused limits (launch cmd) r) ↔
      ∀ tool cmd limits, prepare crypto profile host sandbox os cwd argv = .ok (tool, cmd, limits) →
        Settled host.lower limits (launch cmd) := by
  constructor
  · intro complete tool cmd limits prepared
    apply (@settled_iff host.lower tool limits input (prepare_pos prepared) (launch cmd)).mp
    intro r returned
    rw [← run_of_prepare prepared] at returned
    obtain ⟨_, _, _, again, held⟩ := complete r returned
    obtain ⟨rfl, rest⟩ := Prod.mk.inj (Except.ok.inj (prepared.symm.trans again))
    obtain ⟨rfl, rfl⟩ := Prod.mk.inj rest
    exact held
  · intro settled r returned
    cases prepared : prepare crypto profile host sandbox os cwd argv with
    | error e =>
      simp only [run, prepared, bind, Except.bind] at returned
      cases returned
    | ok found =>
      obtain ⟨tool, cmd, limits⟩ := found
      rw [run_of_prepare prepared] at returned
      exact ⟨tool, cmd, limits, rfl,
        (settled_iff (prepare_pos prepared) (launch cmd)).mpr (settled tool cmd limits prepared) r returned⟩

theorem runtimeReady_of {error : Str} {tools : Dict Str Json} (found : (host.which profile.wasmtime).isNone = false)
    (supports : (runtimeSupportsLimits profile host).1 = true) (there : host.present (manifestPath profile host) = true)
    (loaded : loadToolset crypto profile host = .ok (error, tools)) (some_tool : tools ≠ []) :
    runtimeReady crypto profile host = .ok (true, []) := by
  unfold runtimeReady
  simp only [found, supports, there, loaded, bind, ok_bind, Bool.false_eq_true, if_false, Bool.true_eq_false, Bool.not_true,
    if_neg some_tool]
  rfl

theorem prepare_of {cwd : Option Str} {workdir module_ : Str} {args : List Str}
    (ready : runtimeReady crypto profile host = .ok (true, [])) (confined : workdirOf sandbox os cwd = .ok workdir)
    (resolved : moduleFor crypto profile host tool = .ok (.ok module_)) (declared : limitsFor crypto profile host tool = .ok limits)
    {cmd : List Str} (built : cmd = [profile.wasmtime, "run", "-W", "fuel=" ++ intText limits.fuel, "-W",
      "max-memory-size=" ++ intText limits.guestMemoryBytes, module_, "--"] ++ args)
    (clear : checkNoPreopens cmd = .ok ()) :
    prepare crypto profile host sandbox os cwd (tool :: args) = .ok (tool, cmd, limits) := by
  subst built
  simp only [prepare, ready, confined, wasmArgv, resolved, declared, clear, bind, ok_bind, Bool.not_true, Bool.false_eq_true,
    if_false]
  rfl

def sampleSandbox : Sandbox where
  beingId := "b"
  root := "/w"
  maxOutput := 64000

def sampleOs : Os where
  realpath path := .ok path
  makeParent _ := .ok ()
  write _ _ := .ok ()
  read _ _ := .ok []
  listdir _ := .ok []
  remove _ := .ok ()
  spawn _ _ := raise .osError

/-- A child that writes one byte and is still running at the deadline. -/
def lateChild : Child where
  rounds := [[.read .out (some [0x70])]]
  ending := .itself 0

def sampleLimits : Toolset.Limits where
  fuel := 1
  guestMemoryBytes := 1
  hostMemoryBytes := 2
  outputBytes := 8

theorem limitsFor_of {tools : Dict Str Json} {fields : Dict Str Json} (loaded : toolset crypto profile host = .ok tools)
    (found : Dict.get? tools tool = some (.obj fields)) (some_field : truthy (.obj fields) = true)
    (declared : Toolset.checkLimitsDeclared ((Dict.get? fields "limits").getD .null) = .ok limits) :
    limitsFor crypto profile host tool = .ok limits := by
  simp only [limitsFor, loaded, found, some_field, dotGet, declared, bind, ok_bind, if_true]

def sampleFields : Dict Str Json :=
  [("effect_class", .str "pure"), ("limits", .obj [("fuel", .int 1), ("guest_memory_bytes", .int 1),
    ("host_memory_bytes", .int 2), ("output_bytes", .int 8)]), ("module", .str "m.wasm"), ("recipe_hash", .str "r"),
    ("sha256", .str (H_hex Crypto.sample WasmPure.header))]

def sampleCmd : List Str :=
  ["wasmtime", "run", "-W", "fuel=" ++ intText 1, "-W", "max-memory-size=" ++ intText 1, "/t/m.wasm", "--"]

theorem sample_runs :
    moduleOf Crypto.sample sampleProfile (sampleHost sampleGood) "t" sampleFields = .ok (.ok "/t/m.wasm") ∧
      Toolset.checkLimitsDeclared ((Dict.get? sampleFields "limits").getD .null) = .ok sampleLimits ∧
      (runtimeSupportsLimits sampleProfile (sampleHost sampleGood)).1 = true ∧ checkNoPreopens sampleCmd = .ok () := by
  decide +kernel

theorem sample_prepared : prepare Crypto.sample sampleProfile (sampleHost sampleGood) sampleSandbox sampleOs none ["t"] =
    .ok ("t", sampleCmd, sampleLimits) := by
  obtain ⟨resolved, declared, supports, clear⟩ := sample_runs
  have loaded : toolset Crypto.sample sampleProfile (sampleHost sampleGood) = .ok [("t", .obj sampleFields)] :=
    toolset_of_load (sample_toolset sample_loads.1)
  have ready := runtimeReady_of rfl supports rfl (sample_toolset sample_loads.1) (List.cons_ne_nil _ _)
  exact prepare_of ready rfl ((moduleFor_of loaded rfl).trans resolved) (limitsFor_of loaded rfl rfl declared) rfl clear

/-- What a child wrote before the deadline comes back as its output. -/
theorem partial_output_returned : ¬∀ r, run Crypto.sample sampleProfile (sampleHost sampleGood) sampleSandbox sampleOs
    ["t"] none [] (fun _ => .started lateChild) = .ok r →
      ∃ tool cmd limits, prepare Crypto.sample sampleProfile (sampleHost sampleGood) sampleSandbox sampleOs none ["t"] =
        .ok (tool, cmd, limits) ∧ CompleteOrRefused limits (.started lateChild) r := by
  intro complete
  have unnamed : classifyRuntimeBreach (sampleHost sampleGood).lower
      (decodeReplace (written .err lateChild.rounds.flatten)) = none := by decide
  have within : totalWritten lateChild ≤ sampleLimits.outputBytes := by decide
  obtain ⟨_, keeps⟩ := @judged_within (sampleHost sampleGood).lower "t" sampleLimits lateChild [] (by decide) within
  obtain ⟨r, returned, out, _⟩ := keeps unnamed
  obtain ⟨_, _, _, _, held⟩ := complete r ((run_of_prepare sample_prepared).trans returned)
  have output : r.stdout ≠ [] := by
    rw [out]
    decide
  obtain ⟨child, same, whole, _⟩ := held (.inl output)
  obtain rfl := Launch.started.inj same
  exact absurd (whole.ends .out) (by decide)

end JJDai.Isolation
