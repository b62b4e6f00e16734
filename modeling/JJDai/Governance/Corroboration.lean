import JJDai.Governance.Erasure

/-! Corroboration and what speaks against it: what `state` says of a being, and what
`verify` and `resolve_challenge` answer. -/

namespace JJDai.Containment

open PyText

variable {Time : Type} (crypto : Crypto) (setting : Setting Time) (circumstance : Circumstance Time)
  (world : World Time)

def stateOf (being : Str) : Phase :=
  match Dict.get? world.cases being with
  | some case => case.phase
  | none => .active

def settledState (case : Case Time) : Phase :=
  if case.phase ≠ .contained ∧ case.phase ≠ .corroborated then case.phase
  else if case.unsupported then .released
  else if setting.quorum ≤ case.qualifiedSupporters.length ∧ standingChallenges case = [] then .corroborated
  else .contained

/-- The being and the state in the answer of `verify` and of `resolve_challenge`. -/
def answerOf : Call → Option (Str × Phase)
  | .verify being verifier =>
    (Dict.get? world.cases being).map (fun case =>
      (being, settledState setting (case.apply (finding setting circumstance being verifier case))))
  | .resolveChallenge being cid upheld =>
    (Dict.get? world.cases being).map (fun case =>
      (being, settledState setting (case.apply (.resolveChallenge (circumstance.now 0) being cid upheld))))
  | _ => none

/-- An answer that is returned gives the state that the being is in then. -/
def Truthful (world : World Time) : Action Time → Prop
  | .call circumstance call => Returns crypto setting circumstance world call →
      ∀ being phase, answerOf setting circumstance world call = some (being, phase) →
        stateOf (step crypto setting world (.call circumstance call)) being = phase
  | _ => True

/-- No challenge stands against a corroborated being. -/
def Undisputed (world : World Time) : Prop :=
  ∀ being case, Dict.get? world.cases being = some case → case.phase = .corroborated →
    standingChallenges case = []

/-- A corroborated being is not challenged, and none of its challenges is upheld. -/
def Unopposed (world : World Time) : Action Time → Prop
  | .call _ (.challenge being _ _ _) => stateOf world being ≠ .corroborated
  | .call _ (.resolveChallenge being cid upheld) => upheld = true →
      ∀ case, Dict.get? world.cases being = some case → case.phase = .corroborated →
        Dict.get? case.challenges cid = none
  | _ => True

/-- A corroborated case has its quorum, and no challenge stands. -/
def Steady (quorum : Int) (case : Case Time) : Prop :=
  case.phase = .corroborated → quorum ≤ case.qualifiedSupporters.length ∧ standingChallenges case = []

structure Calm (quorum : Int) (world : World Time) : Prop where
  replayed : replay world.journal = .ok world.cases
  steady : ∀ being case, Dict.get? world.cases being = some case → Steady quorum case

variable {crypto} {setting} {circumstance} {world} {being : Str} {case : Case Time}

theorem stateOf_found (found : Dict.get? world.cases being = some case) : stateOf world being = case.phase := by
  simp only [stateOf, found]

theorem standingChallenges_eq_nil :
    standingChallenges case = [] ↔ ∀ entry ∈ case.challenges, entry.2.standing = false := by
  simp [standingChallenges, Dict.keys]

theorem standing_verify (case : Case Time) (t : Time) (being verifier : Str) (supported verifierQualified : Bool) :
    standingChallenges (case.apply (.verify t being verifier supported verifierQualified)) =
      standingChallenges case := by
  simp only [Case.apply]
  split <;> rfl

/-- A ruling leaves no challenge standing that did not stand before, unless it upholds one. -/
theorem standing_ruled (t : Time) {cid : Str} {upheld : Bool} (undisputed : standingChallenges case = [])
    (lost : upheld = true → Dict.get? case.challenges cid = none) :
    standingChallenges (case.apply (.resolveChallenge t being cid upheld)) = [] := by
  simp only [Case.apply]
  cases held : Dict.get? case.challenges cid with
  | none => exact undisputed
  | some challenge =>
    cases upheld with
    | true =>
      have absent := lost rfl
      rw [held] at absent
      cases absent
    | false =>
      rw [standingChallenges_eq_nil] at undisputed ⊢
      intro entry member
      rcases Dict.mem_set member with rfl | member
      · rfl
      · exact undisputed entry member

theorem Steady.verified {quorum : Int} (steady : Steady quorum case) (t : Time) (being verifier : Str)
    (supported verifierQualified : Bool) :
    Steady quorum (case.apply (.verify t being verifier supported verifierQualified)) := by
  intro corroborated
  rw [phase_verify] at corroborated
  obtain ⟨enough, undisputed⟩ := steady corroborated
  have grown := supporters_verify case (.verify t being verifier supported verifierQualified) rfl
  constructor
  · omega
  · rw [standing_verify, undisputed]

theorem Steady.ruled {quorum : Int} (steady : Steady quorum case) (t : Time) (being : Str) {cid : Str} {upheld : Bool}
    (lost : upheld = true → case.phase = .corroborated → Dict.get? case.challenges cid = none) :
    Steady quorum (case.apply (.resolveChallenge t being cid upheld)) := by
  intro corroborated
  rw [phase_ruled] at corroborated
  obtain ⟨enough, undisputed⟩ := steady corroborated
  have grown := supporters_verify case (.resolveChallenge t being cid upheld) rfl
  constructor
  · omega
  · exact standing_ruled t undisputed (fun upholds => lost upholds corroborated)

theorem steady_settled {front : List (Write Time)} (starts : front <+: settle setting circumstance being case)
    (steady : Steady setting.quorum case) :
    Steady setting.quorum ((front.filterMap Write.event?).foldl Case.apply case) := by
  unfold settle at starts
  split at starts
  · obtain rfl := List.prefix_nil.mp starts
    exact steady
  · split at starts
    · rcases events_releaseFalse starts with ⟨quiet, _⟩ | released
      · rw [quiet]
        exact steady
      · rw [released]
        exact fun corroborated => nomatch corroborated
    · split at starts
      · rename_i converged
        split at starts
        · rcases List.prefix_cons_iff.mp starts with rfl | ⟨tail, rfl, rest⟩
          · exact steady
          · obtain rfl := List.prefix_nil.mp rest
            exact fun _ => converged
        · obtain rfl := List.prefix_nil.mp starts
          exact steady
      · obtain rfl := List.prefix_nil.mp starts
        exact steady

theorem settle_state (steady : Steady setting.quorum case) :
    (((settle setting circumstance being case).filterMap Write.event?).foldl Case.apply case).phase =
      settledState setting case := by
  unfold settle settledState
  split
  · rfl
  · rename_i held
    have held : case.phase = .contained ∨ case.phase = .corroborated := by
      by_cases contained : case.phase = .contained
      · exact Or.inl contained
      · exact Or.inr (not_not.mp (fun other => held ⟨contained, other⟩))
    split
    · rcases events_releaseFalse (List.prefix_refl (releaseFalse setting circumstance being case)) with ⟨_, empty⟩ | released
      · cases empty
      · rw [released]
        rfl
    · split
      · split
        · rfl
        · rename_i corroborated
          exact not_not.mp corroborated
      · rename_i unconverged
        rcases held with contained | corroborated
        · exact contained
        · exact absurd (steady corroborated) unconverged

theorem calm_write {quorum : Int} {list : List (Write Time)} (calm : Calm quorum world)
    (found : Dict.get? world.cases being = some case) (own : ∀ event, .event event ∈ list → event.being = being)
    (steady : Steady quorum ((list.filterMap Write.event?).foldl Case.apply case)) :
    Calm quorum (world.write being case list) where
  replayed := replay_write calm.replayed found own
  steady := cases_set calm.steady steady

theorem calm_acts {call : Call} {list : List (Write Time)} (calm : Calm setting.quorum world)
    (unopposed : Unopposed world (.call circumstance call)) (opened : Opened world being case)
    (acts : Acts setting circumstance being case call list) :
    Calm setting.quorum (world.write being case (circumstance.made list)) := by
  have steady := calm.steady being case opened.found
  refine calm_write calm opened.found
    (fun event member => acts.own ((made_front circumstance _).subset member)) ?_
  cases acts with
  | verify =>
    rw [made_later, events_cons, List.foldl_cons]
    exact steady_settled (later_front ..) (steady.verified _ _ _ _ _)
  | resolveChallenge =>
    rw [made_later, events_cons, List.foldl_cons]
    exact steady_settled (later_front ..) (steady.ruled _ _ (fun upholds => unopposed upholds case opened.found))
  | challenge =>
    rw [made_singleton]
    have other : stateOf world being ≠ .corroborated := unopposed
    rw [stateOf_found opened.found] at other
    exact fun corroborated => absurd corroborated other
  | _ =>
    rw [made_singleton]
    exact fun corroborated => nomatch corroborated

theorem calm_step {action : Action Time} (calm : Calm setting.quorum world) (unopposed : Unopposed world action) :
    Calm setting.quorum (step crypto setting world action) := by
  refine step_kept calm ?_ ?_ ?_ ?_
  · intro cases replayed
    obtain rfl := Except.ok.inj (calm.replayed.symm.trans replayed)
    exact calm
  · exact fun _ _ => ⟨calm.replayed, calm.steady⟩
  · intro event before ordered _ applied
    refine ⟨replay_snoc calm.replayed applied, cases_set calm.steady ?_⟩
    cases ordered
    exact fun corroborated => nomatch corroborated
  · rintro circumstance call being case list rfl opened acts
    exact calm_acts calm unopposed opened acts

theorem truthful_step {action : Action Time} (calm : Calm setting.quorum world) (unopposed : Unopposed world action) :
    Truthful crypto setting world action := by
  cases action with
  | restart => trivial
  | slash slash other => trivial
  | call circumstance call =>
    rintro ⟨list, written, uncut⟩ being phase answered
    have planned := planned_of_ok written
    cases planned with
    | contain => cases answered
    | stays => cases answered
    | acts opened acts =>
      rename_i about case
      rw [step_acts written opened acts, uncut]
      cases acts with
      | verify =>
        simp only [answerOf, opened.found, Option.map_some, Option.some.injEq, Prod.mk.injEq] at answered
        obtain ⟨rfl, rfl⟩ := answered
        rw [stateOf_found (Dict.get?_set_self _ _ _), events_cons, List.foldl_cons]
        exact settle_state ((calm.steady _ _ opened.found).verified _ _ _ _ _)
      | resolveChallenge =>
        simp only [answerOf, opened.found, Option.map_some, Option.some.injEq, Prod.mk.injEq] at answered
        obtain ⟨rfl, rfl⟩ := answered
        rw [stateOf_found (Dict.get?_set_self _ _ _), events_cons, List.foldl_cons]
        exact settle_state ((calm.steady _ _ opened.found).ruled _ _ (fun upholds => unopposed upholds _ opened.found))
      | _ => cases answered

/-- While no corroborated being is opposed, no challenge stands against one, and every
answer gives the being's state. -/
theorem corroboration_undisputed {actions : List (Action Time)}
    (unopposed : Run.Along (step crypto setting) Unopposed {} actions) :
    Undisputed (Run.run (step crypto setting) {} actions) ∧
      Run.Along (step crypto setting) (Truthful crypto setting) {} actions := by
  have calm : Calm setting.quorum ({} : World Time) := ⟨rfl, fun _ _ found => nomatch found⟩
  constructor
  · have final := Run.invariant (fun _ _ => calm_step) calm unopposed
    exact fun being case found corroborated => (final.steady being case found corroborated).2
  · exact Run.along_of_invariant (fun _ _ => calm_step) (fun _ _ => truthful_step) calm unopposed

def sampleChallenge : Action Nat := .call (.sample true none) (.challenge "b" "c" "misread" "alt_account")

theorem corroboration_undisputed_sample :
    Undisputed (Run.run (step Crypto.sample .sample) {} [sampleContain, sampleChallenge, sampleVerify "v" true none]) ∧
      Run.Along (step Crypto.sample .sample) (Truthful Crypto.sample .sample) {}
        [sampleContain, sampleChallenge, sampleVerify "v" true none] := by
  have contained : stateOf (step Crypto.sample .sample {} sampleContain) "b" ≠ .corroborated := by
    decide +kernel
  exact corroboration_undisputed ⟨trivial, contained, trivial, trivial⟩

/-- A challenge of a being that is corroborated. -/
def disputedWorld : World Nat :=
  Run.run (step Crypto.sample .sample) {} [sampleContain, sampleVerify "v" true none, sampleChallenge]

/-- The challenge stands and the being is still corroborated, and the next verifier is
told that it is only contained. -/
theorem corroboration_disputed :
    ¬ Undisputed disputedWorld ∧ ¬ Truthful Crypto.sample .sample disputedWorld (sampleVerify "w" true none) := by
  constructor
  · intro undisputed
    have standing : (Dict.get? disputedWorld.cases "b").map (fun case =>
        (case.phase, (standingChallenges case).length)) = some (.corroborated, 1) := by
      decide +kernel
    obtain ⟨case, found, told⟩ := Option.map_eq_some_iff.mp standing
    obtain ⟨corroborated, one⟩ := Prod.mk.inj told
    rw [undisputed "b" case found corroborated] at one
    cases one
  · intro truthful
    have written : (writes Crypto.sample .sample (.sample true none) disputedWorld (.verify "b" (some "w"))).isOk = true := by
      decide +kernel
    obtain ⟨list, written⟩ := Py.exists_of_isOk written
    have told : answerOf .sample (.sample true none) disputedWorld (.verify "b" (some "w")) = some (Str.ofString "b", Phase.contained) := by
      decide +kernel
    have stays : stateOf (step Crypto.sample .sample disputedWorld (sampleVerify "w" true none)) "b" = .corroborated := by
      decide +kernel
    have answered := truthful ⟨list, written, rfl⟩ "b" .contained told
    cases stays.symm.trans answered

end JJDai.Containment
