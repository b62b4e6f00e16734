import JJDai.Challenge.Deeds

/-! The phases of a round over whole runs: commits before reveals, reveals before the
resolution, and an outcome of exactly the reveals that were accepted. -/

namespace JJDai.Challenge

open PyText Canonical

inductive Event where
  | committed (key : Json)
  | revealed (key : Json) (name : Str) (reveal : Reveal)
  | resolved (key : Json) (summary : Summary)

def Event.key : Event → Json
  | .committed key => key
  | .revealed key _ _ => key
  | .resolved key _ => key

/-- No commit after a reveal of the round, and no reveal after its resolution. -/
def Event.Before : Event → Event → Prop
  | .revealed key _ _, .committed other => key ≠ other
  | .resolved key _, .revealed other _ _ => key ≠ other
  | _, _ => True

instance : DecidableRel Event.Before
  | .revealed key _ _, .committed other => inferInstanceAs (Decidable (key ≠ other))
  | .resolved key _, .revealed other _ _ => inferInstanceAs (Decidable (key ≠ other))
  | .committed _, _ => .isTrue trivial
  | .revealed .., .revealed .. => .isTrue trivial
  | .revealed .., .resolved .. => .isTrue trivial
  | .resolved .., .committed _ => .isTrue trivial
  | .resolved .., .resolved .. => .isTrue trivial

def acceptReveal (key : Json) (reveals : Dict Str Reveal) : Event → Dict Str Reveal
  | .revealed other name reveal => if other = key then Dict.set reveals name reveal else reveals
  | _ => reveals

def accepted (key : Json) (events : List Event) : Dict Str Reveal :=
  events.foldl (acceptReveal key) []

/-- A state with what has been accepted so far and the latest reading of the clock. -/
structure Watched (Time : Type) where
  state : State Time
  events : List Event := []
  clock : Option Time := none

variable {Time : Type} [LinearOrder Time] (crypto : Crypto) (setting : Setting Time)

/-- What a call adds to the accepted events. A round counts as resolved once `resolve`
has its summary, even where the record is refused. -/
def observe (state : State Time) (circumstance : Circumstance Time) : Call → List Event
  | .commit roundId verifier commitment =>
    if (invoke crypto setting state circumstance (.commit roundId verifier commitment)).2.isOk then
      [.committed roundId.comparisonKey]
    else []
  | .reveal roundId (.str name) verdict salt =>
    if (invoke crypto setting state circumstance (.reveal roundId (.str name) verdict salt)).2.isOk then
      [.revealed roundId.comparisonKey name ⟨verdict, salt⟩]
    else []
  | .resolve roundId =>
    match resolve crypto state circumstance.now roundId with
    | .ok (summary, _) => [.resolved roundId.comparisonKey summary]
    | .error _ => []
  | _ => []

def watch (watched : Watched Time) (action : Action Time) : Watched Time :=
  match action with
  | .call circumstance call => {
      state := step crypto setting watched.state action
      events := watched.events ++ observe crypto setting watched.state circumstance call
      clock := some circumstance.now }
  | .record _ _ => { watched with state := step crypto setting watched.state action }

def Forward (watched : Watched Time) : Action Time → Prop
  | .call circumstance _ => ∀ t, watched.clock = some t → t ≤ circumstance.now
  | .record _ _ => True

instance (watched : Watched Time) : (action : Action Time) → Decidable (Forward watched action)
  | .call circumstance _ =>
    inferInstanceAs (Decidable (∀ t, watched.clock = some t → t ≤ circumstance.now))
  | .record _ _ => .isTrue trivial

/-- A reveal that opens its commitment in time comes after the commit deadline and its
record gets onto the chain; a round is not resolved at its very deadline. -/
def Phased (watched : Watched Time) : Action Time → Prop
  | .call circumstance (.reveal roundId verifier verdict salt) => ∀ key round name,
      judge crypto watched.state circumstance.now roundId verifier verdict salt =
        .ok (.opened key round name) →
      round.commitDeadline < circumstance.now ∧ circumstance.written ∧
        (watched.state.chain.append crypto (recordCall
          (publish key round roundId name verdict salt).digest circumstance.salt)).isOk
  | .call circumstance (.resolve roundId) => ∀ key round, Found watched.state roundId key round →
      round.resolved = none → circumstance.now ≠ round.revealDeadline
  | _ => True

def phasedTest (watched : Watched Time) : Action Time → Bool
  | .call circumstance (.reveal roundId verifier verdict salt) =>
    match judge crypto watched.state circumstance.now roundId verifier verdict salt with
    | .ok (.opened key round name) => decide (round.commitDeadline < circumstance.now) &&
        circumstance.written && (watched.state.chain.append crypto (recordCall
          (publish key round roundId name verdict salt).digest circumstance.salt)).isOk
    | _ => true
  | .call circumstance (.resolve roundId) =>
    match findRound watched.state roundId with
    | .ok round => round.resolved.isSome || decide (circumstance.now ≠ round.revealDeadline)
    | .error _ => true
  | _ => true

theorem phasedTest_iff (watched : Watched Time) (action : Action Time) :
    phasedTest crypto watched action = true ↔ Phased crypto watched action := by
  cases action with
  | record call other => simp [phasedTest, Phased]
  | call circumstance call =>
    cases call with
    | reveal roundId verifier verdict salt =>
      simp only [phasedTest, Phased]
      split
      · rename_i key round name judged
        constructor
        · intro passed _ _ _ same
          obtain ⟨rfl, rfl, rfl⟩ := Judgement.opened.inj (Except.ok.inj (judged.symm.trans same))
          simpa [and_assoc] using passed
        · intro phased
          simpa [and_assoc] using phased key round name judged
      · rename_i other
        exact ⟨fun _ key round name same => absurd same (other key round name), fun _ => rfl⟩
    | resolve roundId =>
      simp only [phasedTest, Phased]
      split
      · rename_i round found
        constructor
        · intro passed key other held pending
          obtain rfl := Except.ok.inj (found.symm.trans held.ok)
          simpa [pending] using passed
        · intro phased
          cases resolved : round.resolved with
          | some summary => rfl
          | none =>
            obtain ⟨key, keyed, _⟩ := Py.bind_ok.mp found
            simpa using phased key round (found_of_ok keyed found) resolved
      · rename_i e missing
        exact ⟨fun _ key round found => (by cases missing.symm.trans found.ok), fun _ => rfl⟩
    | _ => simp [phasedTest, Phased]

instance (watched : Watched Time) (action : Action Time) : Decidable (Phased crypto watched action) :=
  decidable_of_iff _ (phasedTest_iff crypto watched action)

/-- The accepted events stand in the order of the phases, and each outcome is the tally of
the reveals accepted over the whole run. -/
structure InOrder (watched : Watched Time) : Prop where
  phases : watched.events.Pairwise Event.Before
  outcomes : ∀ key summary, .resolved key summary ∈ watched.events →
    ∃ round, Dict.get? watched.state.rounds key = some round ∧
      ∃ roundId seats, tally crypto roundId seats (accepted key watched.events) (fraudsters round) =
        .ok summary

/-- Where a round stands, told from the events and the clock. -/
structure Tracked (events : List Event) (clock : Option Time) (key : Json) (round : Round Time) :
    Prop where
  reveals : round.reveals = accepted key events
  closed : ∀ name reveal, .revealed key name reveal ∈ events →
    ∃ t, clock = some t ∧ round.commitDeadline < t
  answered : ∀ summary, .resolved key summary ∈ events → round.resolved = some summary
  settled : ∀ summary, round.resolved = some summary →
    (∃ t, clock = some t ∧ round.revealDeadline < t) ∧
      ∃ roundId seats, tally crypto roundId seats round.reveals (fraudsters round) = .ok summary

structure Sequenced (watched : Watched Time) : Prop where
  phases : watched.events.Pairwise Event.Before
  rounds : ∀ key round, Dict.get? watched.state.rounds key = some round →
    Tracked crypto watched.events watched.clock key round
  known : ∀ event ∈ watched.events, (Dict.get? watched.state.rounds event.key).isSome

variable {crypto} {setting} {events : List Event} {clock : Option Time} {key : Json}
  {round : Round Time}

theorem accepted_append (key : Json) (events : List Event) (event : Event) :
    accepted key (events ++ [event]) = acceptReveal key (accepted key events) event := by
  simp [accepted]

theorem accepted_of_absent (absent : ∀ event ∈ events, event.key ≠ key) : accepted key events = [] := by
  induction events using List.reverseRecOn with
  | nil => rfl
  | append_singleton front event ih =>
    rw [accepted_append, ih (fun other member => absent other (by simp [member]))]
    have other := absent event (by simp)
    cases event with
    | revealed stored name reveal => exact if_neg other
    | _ => rfl

theorem Tracked.later (tracked : Tracked crypto events clock key round) {now : Time}
    (forward : ∀ t, clock = some t → t ≤ now) : Tracked crypto events (some now) key round where
  reveals := tracked.reveals
  closed name reveal member := by
    obtain ⟨t, reading, before⟩ := tracked.closed name reveal member
    exact ⟨now, rfl, before.trans_le (forward t reading)⟩
  answered := tracked.answered
  settled summary resolved := by
    obtain ⟨⟨t, reading, before⟩, tallied⟩ := tracked.settled summary resolved
    exact ⟨⟨now, rfl, before.trans_le (forward t reading)⟩, tallied⟩

theorem Tracked.other (tracked : Tracked crypto events clock key round) {event : Event}
    (other : event.key ≠ key ∨ ∃ stored, event = .committed stored) :
    Tracked crypto (events ++ [event]) clock key round where
  reveals := by
    rw [accepted_append, tracked.reveals]
    rcases other with other | ⟨_, rfl⟩
    · cases event with
      | revealed stored name reveal => exact (if_neg other).symm
      | _ => rfl
    · rfl
  closed name reveal member := by
    rcases List.mem_append.mp member with member | member
    · exact tracked.closed name reveal member
    · obtain rfl := List.mem_singleton.mp member
      rcases other with other | ⟨_, same⟩
      · exact absurd rfl other
      · cases same
  answered summary member := by
    rcases List.mem_append.mp member with member | member
    · exact tracked.answered summary member
    · obtain rfl := List.mem_singleton.mp member
      rcases other with other | ⟨_, same⟩
      · exact absurd rfl other
      · cases same
  settled := tracked.settled

theorem Tracked.pending (tracked : Tracked crypto events clock key round) {now : Time}
    (forward : ∀ t, clock = some t → t ≤ now) (inTime : ¬round.revealDeadline < now) :
    round.resolved = none := by
  cases resolved : round.resolved with
  | none => rfl
  | some summary =>
    obtain ⟨⟨t, reading, before⟩, _⟩ := tracked.settled summary resolved
    exact absurd (before.trans_le (forward t reading)) inTime

omit [LinearOrder Time] in
theorem key_of_found {state : State Time} {roundId : Json} (found : Found state roundId key round) :
    roundId.comparisonKey = key := by
  have keyed := found.keyed
  simp only [roundKey, bind, Py.unless_ok] at keyed
  exact Except.ok.inj keyed.2

variable {watched : Watched Time} {now : Time}

theorem Sequenced.tick (sequenced : Sequenced crypto watched)
    (forward : ∀ t, watched.clock = some t → t ≤ now) :
    Sequenced crypto { watched with clock := some now } where
  phases := sequenced.phases
  rounds key round found := (sequenced.rounds key round found).later forward
  known := sequenced.known

theorem Sequenced.put (sequenced : Sequenced crypto watched)
    (forward : ∀ t, watched.clock = some t → t ≤ now) {stored : Json} {value : Round Time}
    (chain : WitnessChain) (slashed : List Str) (new : Option Event)
    (here : ∀ event ∈ new, event.key = stored)
    (tracked : Tracked crypto (watched.events ++ new.toList) (some now) stored value)
    (phases : ∀ event ∈ new, ∀ earlier ∈ watched.events, earlier.Before event) :
    Sequenced crypto {
      state := ⟨chain, Dict.set watched.state.rounds stored value, slashed⟩
      events := watched.events ++ new.toList
      clock := some now } := by
  refine ⟨?_, ?_, ?_⟩
  · rw [List.pairwise_append]
    refine ⟨sequenced.phases, by cases new <;> simp, fun earlier before event member => ?_⟩
    exact phases event (by simpa using member) earlier before
  · intro key round found
    rw [Dict.get?_set] at found
    split at found
    · rename_i same
      obtain rfl := Option.some.inj found
      exact same ▸ tracked
    · rename_i different
      have before := (sequenced.rounds key round found).later forward
      cases new with
      | none => simpa using before
      | some event =>
        exact before.other (Or.inl (fun same => different ((here event rfl).symm.trans same)))
  · intro event member
    rw [Dict.get?_set]
    split
    · rfl
    · rename_i different
      rcases List.mem_append.mp member with member | member
      · exact sequenced.known event member
      · exact absurd (here event (by simpa using member)).symm different

theorem Sequenced.quiet (sequenced : Sequenced crypto watched)
    {circumstance : Circumstance Time} (forward : ∀ t, watched.clock = some t → t ≤ circumstance.now)
    {deed : Deed Time} {outcome : State Time × Py Json}
    (performed : Performed crypto watched.state circumstance deed outcome)
    (stored : Tracked crypto watched.events (some circumstance.now) deed.key deed.round)
    (later : ∀ index, Tracked crypto watched.events (some circumstance.now) deed.key (deed.later index)) :
    Sequenced crypto ⟨outcome.1, watched.events, some circumstance.now⟩ := by
  cases performed with
  | stopped e =>
    simpa using sequenced.put forward watched.state.chain watched.state.slashed none (by simp)
      (by simpa using stored) (by simp)
  | completed appended =>
    simpa using sequenced.put forward appended.chain (watched.state.slashed ++ deed.slash) none (by simp)
      (by simpa using later _) (by simp)

theorem Tracked.congr {other : Round Time} (tracked : Tracked crypto events clock key round)
    (commitDeadline : other.commitDeadline = round.commitDeadline)
    (revealDeadline : other.revealDeadline = round.revealDeadline)
    (reveals : other.reveals = round.reveals) (frauds : other.frauds = round.frauds)
    (resolved : other.resolved = round.resolved) : Tracked crypto events clock key other where
  reveals := by rw [reveals, tracked.reveals]
  closed := by rw [commitDeadline]; exact tracked.closed
  answered := by rw [resolved]; exact tracked.answered
  settled := by
    rw [resolved, revealDeadline, reveals]
    simp only [fraudsters, frauds]
    exact tracked.settled

theorem observe_refused {state : State Time} {circumstance : Circumstance Time} {call : Call}
    (refused : (invoke crypto setting state circumstance call).2.isOk = false)
    (other : ∀ roundId, call ≠ .resolve roundId) :
    observe crypto setting state circumstance call = [] := by
  cases call with
  | commit roundId verifier commitment => simp [observe, refused]
  | reveal roundId verifier verdict salt => cases verifier <;> simp_all [observe]
  | resolve roundId => exact absurd rfl (other roundId)
  | _ => rfl

theorem sequenced_deed {circumstance : Circumstance Time} {call : Call} {deed : Deed Time}
    {outcome : State Time × Py Json} (sequenced : Sequenced crypto watched)
    (decided : Decided crypto setting watched.state circumstance.now call deed)
    (performed : Performed crypto watched.state circumstance deed outcome)
    (happened : invoke crypto setting watched.state circumstance call = outcome)
    (forward : ∀ t, watched.clock = some t → t ≤ circumstance.now)
    (phased : Phased crypto watched (.call circumstance call)) :
    Sequenced crypto ⟨outcome.1, watched.events ++ observe crypto setting watched.state circumstance call,
      some circumstance.now⟩ := by
  have held : ∀ {roundId key round}, Found watched.state roundId key round →
      Tracked crypto watched.events (some circumstance.now) key round :=
    fun found => (sequenced.rounds _ _ found.held).later forward
  cases decided with
  | @opened roundId transcript key eligible k round keyed unused fresh =>
    have absent : ∀ event ∈ watched.events, event.key ≠ key := by
      rintro event member rfl
      have present := sequenced.known event member
      rw [unused] at present
      cases present
    have blank : Tracked crypto watched.events (some circumstance.now) key round := {
      reveals := by rw [fresh.reveals, accepted_of_absent absent]
      closed := fun name reveal member => absurd rfl (absent _ member)
      answered := fun summary member => absurd rfl (absent _ member)
      settled := fun summary resolved => by rw [fresh.resolved] at resolved; cases resolved }
    simpa [observe] using sequenced.quiet forward performed blank (fun _ => blank)
  | seatRefused found =>
    simpa [observe] using sequenced.quiet forward performed (held found) (fun _ => held found)
  | @seated roundId key round name proof seat won found =>
    have after : ∀ index, Tracked crypto watched.events (some circumstance.now) key
        ((seatDeed crypto key round roundId name seat won).later index) := by
      intro index
      simp only [seatDeed]
      split
      · exact (held found).congr rfl rfl rfl rfl rfl
      · exact held found
    simpa [observe] using sequenced.quiet forward performed (held found) after
  | commitRefused found =>
    have refused : outcome.2.isOk = false := by cases performed <;> rfl
    rw [observe_refused (by rw [happened, refused]) (by simp), List.append_nil]
    exact sequenced.quiet forward performed (held found) (fun _ => held found)
  | late found =>
    have refused : outcome.2.isOk = false := by cases performed <;> rfl
    rw [observe_refused (by rw [happened, refused]) (by simp), List.append_nil]
    exact sequenced.quiet forward performed (held found) (fun _ => held found)
  | @mismatched roundId key round name verdict salt com expect found _ inTime =>
    have refused : outcome.2.isOk = false := by cases performed <;> rfl
    rw [observe_refused (by rw [happened, refused]) (by simp), List.append_nil]
    have pending := (sequenced.rounds _ _ found.held).pending forward inTime
    have accused : Tracked crypto watched.events (some circumstance.now) key
        { round with frauds := round.frauds ++
          [⟨roundId, name, com.index, com.commitment, verdict, salt, expect, circumstance.now⟩] } := {
      reveals := (held found).reveals
      closed := (held found).closed
      answered := (held found).answered
      settled := fun summary resolved => by cases pending.symm.trans resolved }
    exact sequenced.quiet forward performed accused (fun _ => accused)
  | @committed roundId key round name commitment found seated free inTime =>
    cases performed with
    | stopped e =>
      rw [observe_refused (by rw [happened]; rfl) (by simp)]
      have same : Tracked crypto (watched.events ++ []) (some circumstance.now) key round := by
        rw [List.append_nil]
        exact held found
      exact sequenced.put forward watched.state.chain watched.state.slashed none (by simp) same (by simp)
    | completed appended =>
      have observed : observe crypto setting watched.state circumstance
          (.commit roundId (.str name) commitment) = [.committed key] := by
        simp only [observe, happened, key_of_found found]
        rfl
      rw [observed]
      have committed : Tracked crypto watched.events (some circumstance.now) key
          ((commitDeed key round roundId name commitment).later watched.state.chain.records.length) :=
        (held found).congr rfl rfl rfl rfl rfl
      refine sequenced.put forward appended.chain _ (some (.committed key)) (by rintro event (_ | _); rfl)
        (committed.other (Or.inr ⟨key, rfl⟩)) ?_
      rintro event (_ | _) earlier member
      cases earlier with
      | revealed other stored reveal =>
        rintro rfl
        obtain ⟨t, reading, before⟩ := (sequenced.rounds _ _ found.held).closed stored reveal member
        exact inTime (before.trans_le (forward t reading))
      | _ => trivial
  | @published roundId key round name verdict salt found inTime judged =>
    obtain ⟨open_, written, recorded⟩ := phased key round name judged
    have pending := (sequenced.rounds _ _ found.held).pending forward inTime
    cases performed with
    | stopped e refused =>
      exact absurd ⟨fun logs => (by cases logs), written, recorded⟩ refused
    | completed appended =>
      have observed : observe crypto setting watched.state circumstance
          (.reveal roundId (.str name) verdict salt) = [.revealed key name ⟨verdict, salt⟩] := by
        simp only [observe, happened, key_of_found found]
        rfl
      rw [observed]
      refine sequenced.put forward appended.chain _ (some (.revealed key name ⟨verdict, salt⟩))
        (by rintro event (_ | _); rfl) ?_ ?_
      · refine ⟨?_, fun _ _ _ => ⟨_, rfl, open_⟩, fun summary member => ?_, fun summary resolved => ?_⟩
        · simp only [Option.toList_some, accepted_append, acceptReveal, if_true, publish,
            (held found).reveals]
        · rcases List.mem_append.mp member with member | member
          · cases pending.symm.trans ((held found).answered summary member)
          · simp at member
        · cases pending.symm.trans resolved
      · rintro event (_ | _) earlier member
        cases earlier with
        | resolved other summary =>
          rintro rfl
          cases pending.symm.trans ((held found).answered summary member)
        | _ => trivial
  | @resolved roundId key round summary found pending due tallied answers =>
    have after : round.revealDeadline < circumstance.now :=
      lt_of_le_of_ne (not_lt.mp due) (Ne.symm (phased key round found pending))
    have observed : observe crypto setting watched.state circumstance (.resolve roundId) =
        [.resolved key summary] := by
      simp only [observe, answers, key_of_found found]
    have settled : Tracked crypto (watched.events ++ [.resolved key summary]) (some circumstance.now)
        key { round with resolved := some summary } := by
      refine ⟨?_, fun name reveal member => ?_, fun other member => ?_, ?_⟩
      · simp only [accepted_append, acceptReveal, (held found).reveals]
      · rcases List.mem_append.mp member with member | member
        · exact (held found).closed name reveal member
        · simp at member
      · rcases List.mem_append.mp member with member | member
        · cases pending.symm.trans ((held found).answered other member)
        · obtain ⟨_, rfl⟩ := Event.resolved.inj (List.mem_singleton.mp member)
          rfl
      · rintro other resolved
        obtain rfl := Option.some.inj resolved
        exact ⟨⟨_, rfl, after⟩, roundId, _, tallied⟩
    rw [observed]
    have later : ∀ event ∈ some (Event.resolved key summary), ∀ earlier ∈ watched.events,
        earlier.Before event := by
      rintro event (_ | _) earlier member
      cases earlier <;> trivial
    cases performed with
    | stopped e =>
      exact sequenced.put forward watched.state.chain watched.state.slashed (some (.resolved key summary))
        (by rintro event (_ | _); rfl) settled later
    | completed appended =>
      exact sequenced.put forward appended.chain _ (some (.resolved key summary)) (by rintro event (_ | _); rfl)
        settled later

theorem resolve_again {state : State Time} {roundId : Json} {summary : Summary}
    (answers : resolve crypto state now roundId = .ok (summary, none)) :
    ∃ key round, Found state roundId key round ∧ round.resolved = some summary := by
  simp only [resolve, bind, Py.bind_ok] at answers
  obtain ⟨key, keyed, round, found, answers⟩ := answers
  refine ⟨key, round, found_of_ok keyed found, ?_⟩
  cases resolved : round.resolved with
  | some before =>
    simp only [resolved] at answers
    obtain ⟨rfl, _⟩ := Prod.mk.inj (Except.ok.inj answers)
    rfl
  | none =>
    simp only [resolved, Py.unless_ok, Py.bind_ok] at answers
    obtain ⟨_, _, _, answers⟩ := answers
    cases answers

theorem Tracked.again (tracked : Tracked crypto events clock key round) {summary : Summary}
    (resolved : round.resolved = some summary) :
    Tracked crypto (events ++ [.resolved key summary]) clock key round where
  reveals := by simp only [accepted_append, acceptReveal, tracked.reveals]
  closed name reveal member := by
    rcases List.mem_append.mp member with member | member
    · exact tracked.closed name reveal member
    · simp at member
  answered other member := by
    rcases List.mem_append.mp member with member | member
    · exact tracked.answered other member
    · obtain ⟨_, rfl⟩ := Event.resolved.inj (List.mem_singleton.mp member)
      exact resolved
  settled := tracked.settled

theorem sequenced_watch {action : Action Time} (sequenced : Sequenced crypto watched)
    (forward : Forward watched action) (phased : Phased crypto watched action) :
    Sequenced crypto (watch crypto setting watched action) := by
  cases action with
  | record call other =>
    have rounds : (step crypto setting watched.state (.record call other)).rounds =
        watched.state.rounds := by
      simp only [step]
      split <;> rfl
    refine ⟨sequenced.phases, ?_, ?_⟩
    · simp only [watch, rounds]
      exact sequenced.rounds
    · simp only [watch, rounds]
      exact sequenced.known
  | call circumstance call =>
    simp only [watch, step]
    cases decided : decideCall crypto setting watched.state circumstance.now call with
    | error e =>
      have happened : invoke crypto setting watched.state circumstance call = (watched.state, .error e) := by
        simp only [invoke, decided]
      have silent : observe crypto setting watched.state circumstance call = [] := by
        cases call with
        | resolve roundId =>
          simp only [decideCall, bind] at decided
          cases answers : resolve crypto watched.state circumstance.now roundId with
          | error e => simp only [observe, answers]
          | ok answer =>
            obtain ⟨summary, _ | deed⟩ := answer <;> simp [answers, Except.bind, pure, Except.pure] at decided
        | _ => exact observe_refused (by rw [happened]; rfl) (by simp)
      rw [happened, silent, List.append_nil]
      exact sequenced.tick forward
    | ok result =>
      cases result with
      | inr deed =>
        have happened : invoke crypto setting watched.state circumstance call =
            perform crypto watched.state circumstance deed := by
          simp only [invoke, decided]
        rw [happened]
        exact sequenced_deed sequenced (decided_of_ok decided) (performed ..) happened forward phased
      | inl answer =>
        have happened : invoke crypto setting watched.state circumstance call = (watched.state, .ok answer) := by
          simp only [invoke, decided]
        rw [happened]
        cases call with
        | claimSeat roundId verifier proof =>
          simpa [observe] using sequenced.tick forward
        | resolve roundId =>
          simp only [decideCall, bind, Py.bind_ok] at decided
          obtain ⟨⟨summary, _ | deed⟩, answers, same⟩ := decided
          · obtain ⟨key, round, found, resolved⟩ := resolve_again answers
            have observed : observe crypto setting watched.state circumstance (.resolve roundId) =
                [.resolved key summary] := by
              simp only [observe, answers, key_of_found found]
            rw [observed]
            have again := sequenced.put forward watched.state.chain watched.state.slashed
              (some (.resolved key summary)) (by rintro event (_ | _); rfl)
              (((sequenced.rounds _ _ found.held).later forward).again resolved) (by
                rintro event (_ | _) earlier member
                cases earlier <;> trivial)
            rwa [Dict.set_same found.held] at again
          · cases same
        | _ =>
          simp only [decideCall, bind, Py.bind_ok] at decided
          obtain ⟨deed, _, same⟩ := decided
          cases same

theorem inOrder_of_sequenced (sequenced : Sequenced crypto watched) : InOrder crypto watched where
  phases := sequenced.phases
  outcomes key summary member := by
    obtain ⟨round, found⟩ := Option.isSome_iff_exists.mp (sequenced.known _ member)
    have tracked := sequenced.rounds key round found
    obtain ⟨_, roundId, seats, tallied⟩ := tracked.settled summary (tracked.answered summary member)
    exact ⟨round, found, roundId, seats, tracked.reveals ▸ tallied⟩

/-- In a run whose reveals come after the commit deadline and reach the chain, and whose
resolutions come after the reveal deadline, the phases keep their order. -/
theorem phases_in_order {crypto : Crypto} {setting : Setting Time} {start : State Time}
    (fresh : start.rounds = []) {actions : List (Action Time)}
    (along : Run.Along (watch crypto setting)
      (fun watched action => Forward watched action ∧ Phased crypto watched action)
      { state := start } actions) :
    InOrder crypto (Run.run (watch crypto setting) { state := start } actions) := by
  have begins : Sequenced crypto ({ state := start } : Watched Time) :=
    ⟨List.Pairwise.nil, by simp [fresh], by simp⟩
  have kept : ∀ watched action, Sequenced crypto watched →
      Forward watched action ∧ Phased crypto watched action →
      Sequenced crypto (watch crypto setting watched action) :=
    fun _ _ sequenced allowed => sequenced_watch sequenced allowed.1 allowed.2
  exact inOrder_of_sequenced (Run.invariant kept begins along)

/-- The commitment to an empty verdict in the round "r". -/
def sealFor (name : Str) : Json :=
  match makeCommitment Crypto.sample (.str "r") (.str name) (.obj []) (.str "0") with
  | .ok hash => .str hash
  | .error _ => .null

def opensSample : Action Nat :=
  .call { now := 0 } (.openRound (.str "r") (.str "t") [("v", .str "aa"), ("u", .str "bb")] 2)

def commitsSample (now : Nat) (name : Str) : Action Nat :=
  .call { now := now } (.commit (.str "r") (.str name) (sealFor name))

def revealsSample (now : Nat) (name : Str) : Action Nat :=
  .call { now := now } (.reveal (.str "r") (.str name) (.obj []) (.str "0"))

def orderedSample : List (Action Nat) :=
  [opensSample, .call { now := 1 } (.claimSeat (.str "r") (.str "v") (.str "aa")),
    commitsSample 2 "v", revealsSample 40 "v", .call { now := 61 } (.resolve (.str "r"))]

/-- A reveal while the commit window is open, and then another verifier's commit. -/
def disorderedSample : List (Action Nat) :=
  [opensSample, .call { now := 1 } (.claimSeat (.str "r") (.str "v") (.str "aa")),
    .call { now := 1 } (.claimSeat (.str "r") (.str "u") (.str "bb")), commitsSample 2 "v",
    revealsSample 3 "v", commitsSample 4 "u"]

private theorem orders_told :
    Run.Along (watch Crypto.sample .sample)
      (fun watched action => Forward watched action ∧ Phased Crypto.sample watched action)
      { state := sampleState } orderedSample ∧
    Run.Along (watch Crypto.sample .sample) Forward { state := sampleState } disorderedSample ∧
    ¬(Run.run (watch Crypto.sample .sample) { state := sampleState } disorderedSample).events.Pairwise
      Event.Before := by
  decide +kernel

theorem phases_in_order_sample : InOrder Crypto.sample
    (Run.run (watch Crypto.sample .sample) { state := sampleState }
      [opensSample, .call { now := 1 } (.claimSeat (.str "r") (.str "v") (.str "aa")),
        commitsSample 2 "v", revealsSample 40 "v", .call { now := 61 } (.resolve (.str "r"))]) :=
  phases_in_order rfl orders_told.1

theorem phases_not_in_order : ¬ ∀ actions : List (Action Nat),
    Run.Along (watch Crypto.sample .sample) Forward { state := sampleState } actions →
      InOrder Crypto.sample (Run.run (watch Crypto.sample .sample) { state := sampleState } actions) := by
  intro always
  obtain ⟨_, forward, apart⟩ := orders_told
  exact apart (always disorderedSample forward).phases

end JJDai.Challenge
