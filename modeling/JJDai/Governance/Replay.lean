import JJDai.Governance.Containment

/-! What a case holds, told from the events of its being. -/

namespace JJDai.Containment

open PyText History

variable {Time : Type}

def ofBeing (being : Str) (events : List (Event Time)) : List (Event Time) :=
  events.filter (fun event => event.being = being)

def Event.isContain : Event Time → Bool
  | .contain .. => true
  | _ => false

/-- The events that start the verification anew. -/
def Event.reopens : Event Time → Bool
  | .contain .. => true
  | .rehabilitate .. => true
  | _ => false

def Event.initiator? : Event Time → Option Str
  | .contain _ _ initiator _ _ _ _ _ => some initiator
  | _ => none

def Event.findingOf (name : Str) : Event Time → Option Bool
  | .verify _ _ verifier supported _ => if verifier = name then some supported else none
  | _ => none

/-- A supported finding of the verifier, who was qualified. -/
def Event.supports (name : Str) : Event Time → Bool
  | .verify _ _ verifier supported verifierQualified =>
    verifier = name && supported && verifierQualified
  | _ => false

def Event.raises (cid : Str) : Event Time → Bool
  | .challenge _ _ other _ _ _ => other = cid
  | _ => false

def Event.ruling (cid : Str) : Event Time → Option Bool
  | .resolveChallenge _ _ other upheld => if other = cid then some upheld else none
  | _ => none

/-- Whether a challenge stands: one that was raised does, unless the latest ruling since
was that it falls. -/
def standingOf (cid : Str) (log : List (Event Time)) : Option Bool :=
  if log.any (Event.raises cid) then
    some ((latest (Event.ruling cid) (since (Event.raises cid) log)).getD true)
  else none

structure Reflects (log : List (Event Time)) (case : Case Time) : Prop where
  verifications : ∀ name, Dict.get? case.verifications name =
    latest (Event.findingOf name) (since Event.reopens log)
  supporters : ∀ name, name ∈ case.qualifiedSupporters ↔
    ∃ event ∈ since Event.reopens log, event.supports name
  distinct : case.qualifiedSupporters.Nodup
  keyed : (Dict.keys case.verifications).Nodup
  challenges : ∀ cid, (Dict.get? case.challenges cid).map Challenge.standing =
    standingOf cid (since Event.isContain log)
  initiator : case.initiator = latest Event.initiator? log

variable {log : List (Event Time)} {case : Case Time} {event : Event Time}

theorem standingOf_snoc (cid : Str) (log : List (Event Time)) (event : Event Time) :
    standingOf cid (log ++ [event]) =
      if event.raises cid then some true
      else (standingOf cid log).map (fun standing => ((event.ruling cid).getD standing)) := by
  by_cases raised : event.raises cid
  · simp [standingOf, since_snoc, raised]
  · simp only [standingOf, since_snoc, raised, Bool.false_eq_true, if_false, List.any_append,
      List.any_cons, List.any_nil, Bool.or_false, latest_snoc]
    split
    · cases event.ruling cid with
      | none => simp
      | some upheld => simp
    · rfl

theorem reflects_contain (before : Case Time) (contains : event.isContain) :
    Reflects (log ++ [event]) (before.apply event) := by
  cases event with
  | contain t being initiator evidenceRefs reason topic initiatorQualified provisionalLowTrust =>
    constructor
    · simp [Case.apply, since_snoc, Event.reopens]
    · simp [Case.apply, since_snoc, Event.reopens]
    · simp [Case.apply]
    · simp [Case.apply, Dict.keys]
    · simp [Case.apply, since_snoc, Event.isContain, standingOf]
    · simp [Case.apply, latest_snoc, Event.initiator?]
  | _ => cases contains

theorem findings_snoc (kept : event.reopens = false) (name : Str) :
    latest (Event.findingOf name) (since Event.reopens (log ++ [event])) =
      (event.findingOf name).or (latest (Event.findingOf name) (since Event.reopens log)) := by
  rw [since_snoc, kept, if_neg Bool.false_ne_true, latest_snoc]

theorem supporters_snoc (kept : event.reopens = false) (name : Str) :
    (∃ other ∈ since Event.reopens (log ++ [event]), other.supports name) ↔
      (∃ other ∈ since Event.reopens log, other.supports name) ∨ event.supports name := by
  rw [since_snoc, kept, if_neg Bool.false_ne_true]
  simp only [List.mem_append, List.mem_singleton, or_and_right, exists_or, exists_eq_left]

theorem challenges_snoc (kept : event.isContain = false) (cid : Str) :
    standingOf cid (since Event.isContain (log ++ [event])) =
      if event.raises cid then some true
      else (standingOf cid (since Event.isContain log)).map
        (fun standing => (event.ruling cid).getD standing) := by
  rw [since_snoc, kept, if_neg Bool.false_ne_true, standingOf_snoc]

theorem challenges_kept (kept : event.isContain = false) {cid : Str} (silent : event.raises cid = false)
    (unruled : event.ruling cid = none) :
    standingOf cid (since Event.isContain (log ++ [event])) =
      standingOf cid (since Event.isContain log) := by
  rw [challenges_snoc kept, silent, unruled]
  cases standingOf cid (since Event.isContain log) with
  | none => rfl
  | some standing => rfl

theorem initiator_snoc (kept : event.isContain = false) :
    latest Event.initiator? (log ++ [event]) = latest Event.initiator? log := by
  rw [latest_snoc]
  cases event with
  | contain => cases kept
  | _ => rfl

theorem Reflects.moved (reflects : Reflects log case) {after : Case Time}
    (kept : event.reopens = false) (started : event.isContain = false)
    (quiet : ∀ name, event.findingOf name = none ∧ event.supports name = false ∧
      event.raises name = false ∧ event.ruling name = none)
    (verifications : after.verifications = case.verifications)
    (supporters : after.qualifiedSupporters = case.qualifiedSupporters)
    (challenges : after.challenges = case.challenges) (initiator : after.initiator = case.initiator) :
    Reflects (log ++ [event]) after where
  verifications name := by
    rw [findings_snoc kept, (quiet name).1, verifications, reflects.verifications]
    rfl
  supporters name := by
    rw [supporters_snoc kept, (quiet name).2.1, supporters, reflects.supporters]
    simp
  distinct := supporters ▸ reflects.distinct
  keyed := verifications ▸ reflects.keyed
  challenges cid := by
    rw [challenges_kept started (quiet cid).2.2.1 (quiet cid).2.2.2, challenges, reflects.challenges]
  initiator := by
    rw [initiator_snoc started, initiator, reflects.initiator]

theorem Reflects.verified (reflects : Reflects log case) (t : Time) (being verifier : Str)
    (supported verifierQualified : Bool) :
    Reflects (log ++ [.verify t being verifier supported verifierQualified])
      (case.apply (.verify t being verifier supported verifierQualified)) where
  verifications name := by
    rw [findings_snoc rfl, ← reflects.verifications]
    have stored : (case.apply (.verify t being verifier supported verifierQualified)).verifications =
        Dict.set case.verifications verifier supported := by
      simp only [Case.apply]
      split <;> rfl
    rw [stored, Dict.get?_set, Event.findingOf]
    split <;> simp
  supporters name := by
    rw [supporters_snoc rfl, ← reflects.supporters]
    simp only [Case.apply, Event.supports]
    split
    · rename_i supports
      simp only [Bool.and_eq_true] at supports
      simp [supports.1, supports.2, List.mem_insert_iff, eq_comm, or_comm]
    · rename_i unsupported
      simp only [Bool.and_eq_true, not_and] at unsupported
      simp only [Bool.and_eq_true, and_assoc]
      constructor
      · exact Or.inl
      · rintro (member | ⟨_, supports, qualified⟩)
        · exact member
        · exact absurd qualified (unsupported supports)
  distinct := by
    simp only [Case.apply]
    split
    · exact reflects.distinct.insert
    · exact reflects.distinct
  keyed := by
    simp only [Case.apply]
    split <;> exact Dict.nodup_set reflects.keyed _ _
  challenges cid := by
    rw [challenges_kept rfl rfl rfl, ← reflects.challenges]
    simp only [Case.apply]
    split <;> rfl
  initiator := by
    rw [initiator_snoc rfl, ← reflects.initiator]
    simp only [Case.apply]
    split <;> rfl

theorem Reflects.challenged (reflects : Reflects log case) (t : Time)
    (being cid challenger claim kind : Str) :
    Reflects (log ++ [.challenge t being cid challenger claim kind])
      (case.apply (.challenge t being cid challenger claim kind)) where
  verifications name := by
    rw [findings_snoc rfl]
    exact reflects.verifications name
  supporters name := by
    rw [supporters_snoc rfl, ← reflects.supporters]
    simp [Case.apply, Event.supports]
  distinct := reflects.distinct
  keyed := reflects.keyed
  challenges other := by
    by_cases same : cid = other
    · rw [challenges_snoc rfl]
      simp [Case.apply, Event.raises, same]
    · rw [challenges_kept rfl (by simpa [Event.raises] using same) rfl, ← reflects.challenges]
      simp only [Case.apply, Dict.get?_set_ne _ same]
  initiator := by
    rw [initiator_snoc rfl]
    exact reflects.initiator

theorem Reflects.ruled (reflects : Reflects log case) (t : Time) (being cid : Str) (upheld : Bool) :
    Reflects (log ++ [.resolveChallenge t being cid upheld])
      (case.apply (.resolveChallenge t being cid upheld)) where
  verifications name := by
    rw [findings_snoc rfl]
    simp only [Case.apply]
    split <;> exact reflects.verifications name
  supporters name := by
    rw [supporters_snoc rfl]
    simp only [Case.apply]
    split <;> simpa [Event.supports] using reflects.supporters name
  distinct := by
    simp only [Case.apply]
    split <;> exact reflects.distinct
  keyed := by
    simp only [Case.apply]
    split <;> exact reflects.keyed
  challenges other := by
    by_cases same : cid = other
    · rw [challenges_snoc rfl, ← reflects.challenges]
      simp only [Case.apply, Event.raises, Event.ruling, same, if_true]
      cases found : Dict.get? case.challenges other with
      | none => simp [found]
      | some challenge => simp
    · rw [challenges_kept rfl rfl (by simp [Event.ruling, same]), ← reflects.challenges]
      simp only [Case.apply]
      split
      · simp only [Dict.get?_set_ne _ same]
      · rfl
  initiator := by
    rw [initiator_snoc rfl]
    simp only [Case.apply]
    split <;> exact reflects.initiator

theorem Reflects.reopened (reflects : Reflects log case) (t : Time) (being guardian : Str) :
    Reflects (log ++ [.rehabilitate t being guardian]) (case.apply (.rehabilitate t being guardian)) where
  verifications := by simp [Case.apply, since_snoc, Event.reopens]
  supporters := by simp [Case.apply, since_snoc, Event.reopens]
  distinct := List.nodup_nil
  keyed := List.nodup_nil
  challenges cid := by
    rw [challenges_kept rfl rfl rfl, ← reflects.challenges]
    rfl
  initiator := by
    rw [initiator_snoc rfl]
    exact reflects.initiator

theorem Reflects.snoc (reflects : Reflects log case) (event : Event Time) :
    Reflects (log ++ [event]) (case.apply event) := by
  cases event with
  | contain => exact reflects_contain case rfl
  | verify t being verifier supported verifierQualified => exact reflects.verified ..
  | challenge t being cid challenger claim kind => exact reflects.challenged ..
  | resolveChallenge t being cid upheld => exact reflects.ruled ..
  | rehabilitate t being guardian => exact reflects.reopened ..
  | corroborate t being =>
    exact reflects.moved rfl rfl (fun _ => ⟨rfl, rfl, rfl, rfl⟩) rfl rfl rfl rfl
  | release t being grounds slashTarget =>
    exact reflects.moved rfl rfl (fun _ => ⟨rfl, rfl, rfl, rfl⟩) rfl rfl rfl rfl
  | proposeErasure t being proposer =>
    exact reflects.moved rfl rfl (fun _ => ⟨rfl, rfl, rfl, rfl⟩) rfl rfl rfl rfl

variable {cases after : Dict Str (Case Time)}

theorem applyEvent_ok (applied : applyEvent cases event = .ok after) :
    ∃ before, after = Dict.set cases event.being (before.apply event) ∧
      (Dict.get? cases event.being = some before ∨ event.isContain) := by
  unfold applyEvent at applied
  split at applied
  · exact ⟨{}, (Except.ok.inj applied).symm, Or.inr rfl⟩
  · rename_i before found
    exact ⟨before, (Except.ok.inj applied).symm, Or.inl found⟩
  · cases applied

theorem applyEvent_found {case : Case Time} (found : Dict.get? cases event.being = some case) :
    applyEvent cases event = .ok (Dict.set cases event.being (case.apply event)) := by
  cases event with
  | _ => simp only [applyEvent, found]; rfl

theorem replay_snoc {events : List (Event Time)} (replayed : replay events = .ok cases)
    (applied : applyEvent cases event = .ok after) : replay (events ++ [event]) = .ok after := by
  rw [replay, List.foldlM_append]
  rw [replay] at replayed
  simp only [replayed, bind, Except.bind, List.foldlM_cons, List.foldlM_nil, applied]
  rfl

theorem ofBeing_snoc (being : Str) (events : List (Event Time)) (event : Event Time) :
    ofBeing being (events ++ [event]) =
      if event.being = being then ofBeing being events ++ [event] else ofBeing being events := by
  by_cases same : event.being = being
  · simp [ofBeing, same]
  · simp [ofBeing, same]

theorem reflects_of_replay {events : List (Event Time)} (replayed : replay events = .ok cases)
    {being : Str} {case : Case Time} (found : Dict.get? cases being = some case) :
    Reflects (ofBeing being events) case := by
  induction events using List.reverseRecOn generalizing cases being case with
  | nil =>
    obtain rfl := Except.ok.inj replayed
    cases found
  | append_singleton front event ih =>
    rw [replay, List.foldlM_append] at replayed
    obtain ⟨before, earlier, applied⟩ := Py.bind_ok.mp replayed
    simp only [List.foldlM_cons, List.foldlM_nil, bind_pure] at applied
    obtain ⟨old, rfl, known⟩ := applyEvent_ok applied
    rw [ofBeing_snoc]
    rw [Dict.get?_set] at found
    split at found
    · rename_i same
      obtain rfl := Option.some.inj found
      rw [if_pos same]
      rcases known with known | contains
      · exact (ih earlier (same ▸ known)).snoc event
      · exact reflects_contain old contains
    · rename_i different
      rw [if_neg different]
      exact ih earlier found

end JJDai.Containment
