import JJDai.Governance.Calls

/-! The price of a false containment: its initiator is slashed once, and the being is let
go. -/

namespace JJDai.Containment

open PyText History

variable {Time : Type} (crypto : Crypto) (setting : Setting Time)

/-- A slash that is due to the initiator of a false containment. -/
structure Debt where
  initiator : Str
  being : Str
  deriving DecidableEq

/-- The debt of a release after the events before it. -/
def debtOf (before : List (Event Time)) : Event Time → List Debt
  | .release _ being grounds _ =>
    if grounds = triggerUnsupported then
      ((latest Event.initiator? (ofBeing being before)).map (fun initiator => ⟨initiator, being⟩)).toList
    else []
  | _ => []

def owedFrom (before : List (Event Time)) : List (Event Time) → List Debt
  | [] => []
  | event :: rest => debtOf before event ++ owedFrom (before ++ [event]) rest

/-- What the containment journal says is due. -/
def owed (journal : List (Event Time)) : List Debt := owedFrom [] journal

def Slash.debt? (slash : Slash Time) : Option Debt :=
  (causeOf slash.reason).map (fun being => ⟨slash.objectId, being⟩)

/-- What the registry's journal says is paid. -/
def paid (slashes : List (Slash Time)) : List Debt := slashes.filterMap Slash.debt?

def Event.disputes : Event Time → Bool
  | .verify _ _ _ supported _ => !supported
  | _ => false

/-- A finding of the being's episode does not support its containment. -/
def disputed (log : List (Event Time)) : Bool := (since Event.isContain log).any Event.disputes

def Case.owes (case : Case Time) : Bool :=
  (case.phase = .contained || case.phase = .corroborated) && case.unsupported

/-- No release is cut off from its slash, no finding against a case is made while its
erasure is pending, and none that waits for its release is taken back. -/
def Redresses (world : World Time) : Action Time → Prop
  | .call circumstance (.verify being verifier) => ∀ case, Dict.get? world.cases being = some case →
      let after := case.apply (finding setting circumstance being verifier case)
      (case.owes → after.owes) ∧ (after.owes → circumstance.cut ≠ some 1) ∧
        (case.phase = .pendingGuardian → circumstance.resolve case.evidenceRefs = true)
  | .call circumstance (.resolveChallenge being _ _) => ∀ case,
      Dict.get? world.cases being = some case → case.owes → circumstance.cut ≠ some 1
  | .call _ (.rehabilitate being _) => ∀ case, Dict.get? world.cases being = some case →
      case.owes = false
  | .call _ (.proposeErasure being _) => ∀ case, Dict.get? world.cases being = some case →
      case.phase = .corroborated → standingChallenges case = [] → case.unsupported = false
  | _ => True

instance (world : World Time) : (action : Action Time) → Decidable (Redresses setting world action)
  | .call circumstance (.verify being verifier) =>
    inferInstanceAs (Decidable (∀ case ∈ Dict.get? world.cases being,
      (case.owes → (case.apply (finding setting circumstance being verifier case)).owes) ∧
        ((case.apply (finding setting circumstance being verifier case)).owes →
          circumstance.cut ≠ some 1) ∧
        (case.phase = .pendingGuardian → circumstance.resolve case.evidenceRefs = true)))
  | .call circumstance (.resolveChallenge being _ _) =>
    inferInstanceAs (Decidable (∀ case ∈ Dict.get? world.cases being,
      case.owes → circumstance.cut ≠ some 1))
  | .call _ (.rehabilitate being _) =>
    inferInstanceAs (Decidable (∀ case ∈ Dict.get? world.cases being, case.owes = false))
  | .call _ (.proposeErasure being _) =>
    inferInstanceAs (Decidable (∀ case ∈ Dict.get? world.cases being,
      case.phase = .corroborated → standingChallenges case = [] → case.unsupported = false))
  | .call _ (.contain ..) => .isTrue trivial
  | .call _ (.challenge ..) => .isTrue trivial
  | .call _ (.expireProvisional _) => .isTrue trivial
  | .restart => .isTrue trivial
  | .slash _ _ => .isTrue trivial

def Call.settles (being : Str) : Call → Bool
  | .verify other _ => other = being
  | .resolveChallenge other _ _ => other = being
  | _ => false

/-- Each false containment is paid for once, and a settling call that returns leaves no
disputed being contained. -/
structure Redressed (actions : List (Action Time)) : Prop where
  paid : paid (Run.run (step crypto setting) {} actions).slashes =
    owed (Run.run (step crypto setting) {} actions).journal
  released : ∀ front circumstance call being, actions = front ++ [.call circumstance call] →
    call.settles being → Returns crypto setting circumstance (Run.run (step crypto setting) {} front) call →
    disputed (ofBeing being (Run.run (step crypto setting) {} actions).journal) →
    isContained (Run.run (step crypto setting) {} actions) being = false

variable {crypto} {setting} {circumstance : Circumstance Time} {world : World Time} {being : Str}
  {case : Case Time}

theorem owedFrom_append (before front back : List (Event Time)) :
    owedFrom before (front ++ back) = owedFrom before front ++ owedFrom (before ++ front) back := by
  induction front generalizing before with
  | nil => simp [owedFrom]
  | cons event rest ih => simp [owedFrom, ih]

theorem owed_snoc (journal : List (Event Time)) (event : Event Time) :
    owed (journal ++ [event]) = owed journal ++ debtOf journal event := by
  rw [owed, owedFrom_append]
  simp [owedFrom, owed]

theorem causeOf_falseContainment (being : Str) : causeOf (falseContainment being) = some being := by
  simp [causeOf, falseContainment]

theorem disputed_snoc {log : List (Event Time)} {event : Event Time} (kept : event.isContain = false) :
    disputed (log ++ [event]) = (disputed log || event.disputes) := by
  rw [disputed, since_snoc, kept, if_neg Bool.false_ne_true]
  simp [disputed]

structure Sound (world : World Time) : Prop where
  replayed : replay world.journal = .ok world.cases
  paid : paid world.slashes = owed world.journal
  initiators : ∀ being case, Dict.get? world.cases being = some case →
    ∃ name, case.initiator = some name ∧ name ≠ []
  waiting : ∀ being case, Dict.get? world.cases being = some case → case.phase.isContained →
    disputed (ofBeing being world.journal) → case.owes

theorem initiator_apply (case : Case Time) {event : Event Time} (kept : event.isContain = false) :
    (case.apply event).initiator = case.initiator := by
  cases event with
  | contain => cases kept
  | verify =>
    simp only [Case.apply]
    split <;> rfl
  | resolveChallenge =>
    simp only [Case.apply]
    split <;> rfl
  | _ => rfl

theorem sound_event {event : Event Time} (sound : Sound world)
    (found : Dict.get? world.cases being = some case) (about : event.being = being)
    (kept : event.isContain = false) (free : debtOf world.journal event = [])
    (waits : (case.apply event).phase.isContained →
      disputed (ofBeing being world.journal) || event.disputes → (case.apply event).owes) :
    Sound (world.write being case [.event event]) := by
  have own : ∀ other, Write.event other ∈ [Write.event event] → other.being = being := by
    intro other member
    obtain rfl := Write.event.inj (List.mem_singleton.mp member)
    exact about
  refine ⟨replay_write sound.replayed found own, ?_, ?_, ?_⟩
  · have journal : (world.write being case [.event event]).journal = world.journal ++ [event] := rfl
    rw [journal, owed_snoc, free, List.append_nil, ← sound.paid]
    simp [World.write, List.filterMap_cons, Write.slash?]
  · intro other after held
    simp only [World.write, Dict.get?_set] at held
    split at held
    · obtain rfl := Option.some.inj held
      obtain ⟨name, initiates, named⟩ := sound.initiators being case found
      exact ⟨name, (initiator_apply case kept).trans initiates, named⟩
    · exact sound.initiators other after held
  · intro other after held contained dispute
    have journal : (world.write being case [.event event]).journal = world.journal ++ [event] := rfl
    rw [journal, ofBeing_snoc] at dispute
    simp only [World.write, Dict.get?_set] at held
    split at held
    · rename_i same
      obtain rfl := Option.some.inj held
      rw [if_pos (about.trans same), disputed_snoc kept, ← same] at dispute
      exact waits contained dispute
    · rename_i different
      rw [if_neg (about ▸ different)] at dispute
      exact sound.waiting other after held contained dispute

theorem owes_iff : case.owes ↔
    (case.phase = .contained ∨ case.phase = .corroborated) ∧ case.unsupported := by
  simp [Case.owes]

theorem sound_released (sound : Sound world) (found : Dict.get? world.cases being = some case)
    (registry : setting.registry) :
    Sound (world.write being case (releaseFalse setting circumstance being case)) := by
  obtain ⟨name, initiates, named⟩ := sound.initiators being case found
  have reflects := reflects_of_replay sound.replayed found
  have own : ∀ event, .event event ∈ releaseFalse setting circumstance being case →
      event.being = being :=
    fun event member => own_of_releaseFalse member
  have list : releaseFalse setting circumstance being case =
      [.event (.release (circumstance.now 1) being triggerUnsupported case.initiator), .slash {
        t := circumstance.now 2, objectId := name, reason := falseContainment being
        penaltyMult := if case.provisionalLowTrust then setting.lowTrustMult
          else .float (.finite (.ofDigits false 1 0)) }] := by
    simp [releaseFalse, initiates, registry, named]
  refine ⟨replay_write sound.replayed found own, ?_, ?_, ?_⟩
  · rw [list]
    have due : debtOf world.journal (.release (circumstance.now 1) being triggerUnsupported case.initiator) =
        [⟨name, being⟩] := by
      simp [debtOf, ← reflects.initiator, initiates]
    simp only [World.write, List.filterMap_cons, List.filterMap_nil, Write.event?, Write.slash?]
    rw [owed_snoc, due, ← sound.paid]
    simp [paid, Slash.debt?, causeOf_falseContainment]
  · intro other after held
    rw [list] at held
    simp only [World.write, Dict.get?_set] at held
    split at held
    · obtain rfl := Option.some.inj held
      exact ⟨name, initiates, named⟩
    · exact sound.initiators other after held
  · intro other after held contained dispute
    rw [list] at held dispute
    simp only [World.write, Dict.get?_set] at held
    split at held
    · obtain rfl := Option.some.inj held
      cases contained
    · rename_i different
      have journal : ofBeing other (world.journal ++
          [.release (circumstance.now 1) being triggerUnsupported case.initiator]) =
            ofBeing other world.journal := by
        rw [ofBeing_snoc]
        exact if_neg different
      simp only [World.write, List.filterMap_cons, List.filterMap_nil, Write.event?] at dispute
      rw [journal] at dispute
      exact sound.waiting other after held contained dispute

theorem write_nil (found : Dict.get? world.cases being = some case) :
    world.write being case [] = world := by
  simp [World.write, Dict.set_same found]

theorem later_two {list : List (Write Time)} (short : list.length ≤ 2)
    (uncut : circumstance.cut ≠ some 1) : circumstance.later list = [] ∨
      circumstance.later list = list := by
  unfold Circumstance.later
  cases cut : circumstance.cut with
  | none => exact Or.inr rfl
  | some n =>
    cases n with
    | zero => exact Or.inl rfl
    | succ n =>
      cases n with
      | zero => exact absurd cut uncut
      | succ n => exact Or.inr (List.take_of_length_le (by omega))

theorem length_releaseFalse : (releaseFalse setting circumstance being case).length ≤ 2 := by
  unfold releaseFalse
  split
  · split <;> simp
  · simp

theorem sound_settled (sound : Sound world) (found : Dict.get? world.cases being = some case)
    (registry : setting.registry) (uncut : case.owes → circumstance.cut ≠ some 1) :
    Sound (world.write being case (circumstance.later (settle setting circumstance being case))) := by
  have settling := settled setting circumstance being case
  generalize settle setting circumstance being case = list at settling
  have none_made := List.prefix_nil.mp (later_front circumstance ([] : List (Write Time)))
  cases settling with
  | outside =>
    rw [none_made, write_nil found]
    exact sound
  | stays =>
    rw [none_made, write_nil found]
    exact sound
  | corroborates contained supported quorum =>
    have books : Sound (world.write being case [.event (.corroborate (circumstance.now 1) being)]) := by
      refine sound_event sound found rfl rfl rfl (fun _ dispute => ?_)
      have owes := sound.waiting being case found (by rw [contained]; rfl) (by simpa [Event.disputes] using dispute)
      rw [(owes_iff.mp owes).2] at supported
      cases supported
    have starts : circumstance.later [Write.event (.corroborate (circumstance.now 1) being)] <+:
        [.event (.corroborate (circumstance.now 1) being)] := later_front ..
    rcases List.prefix_cons_iff.mp starts with none_left | ⟨tail, same, rest⟩
    · rw [none_left, write_nil found]
      exact sound
    · obtain rfl := List.prefix_nil.mp rest
      rw [same]
      exact books
  | releases held unsupported =>
    have owes : case.owes := owes_iff.mpr ⟨held, unsupported⟩
    rcases later_two length_releaseFalse (uncut owes) with none_left | all
    · rw [none_left, write_nil found]
      exact sound
    · rw [all]
      exact sound_released sound found registry

theorem owes_ruled (case : Case Time) (t : Time) (being cid : Str) (upheld : Bool) :
    (case.apply (.resolveChallenge t being cid upheld)).owes = case.owes := by
  rw [Case.owes, phase_ruled, unsupported_ruled, Case.owes]

theorem held_of_contained (contained : case.phase.isContained) (other : case.phase ≠ .pendingGuardian) :
    case.phase = .contained ∨ case.phase = .corroborated := by
  simp only [Phase.isContained, Bool.or_eq_true, decide_eq_true_eq] at contained
  rcases contained with held | pending
  · exact held
  · exact absurd pending other

theorem unsupported_of_against {t : Time} {verifier : Str} {verifierQualified : Bool} :
    (case.apply (.verify t being verifier false verifierQualified)).unsupported := by
  rw [Case.unsupported, verifications_verify, List.any_eq_true]
  exact ⟨(verifier, false), Dict.mem_of_get? (Dict.get?_set_self ..), rfl⟩

theorem sound_acts {call : Call} {list : List (Write Time)} (sound : Sound world)
    (registry : setting.registry) (redresses : Redresses setting world (.call circumstance call))
    (opened : Opened world being case) (acts : Acts setting circumstance being case call list) :
    Sound (world.write being case (circumstance.made list)) := by
  have found := opened.found
  have waits := sound.waiting being case found
  cases acts with
  | verify =>
    rename_i verifier
    obtain ⟨kept, uncut, pending⟩ := redresses case found
    rw [made_later, write_cons]
    refine sound_settled (sound_event sound found rfl rfl rfl ?_) (Dict.get?_set_self ..) registry uncut
    intro contained dispute
    have before : case.phase.isContained := (congrArg Phase.isContained (phase_verify ..)).symm.trans contained
    rcases (Bool.or_eq_true _ _).mp dispute with dispute | against
    · exact kept (waits before dispute)
    · have answer : circumstance.resolve case.evidenceRefs = false := by
        simpa [finding, Event.disputes] using against
      have held : case.phase = .contained ∨ case.phase = .corroborated := by
        refine held_of_contained before (fun open_pending => ?_)
        rw [pending open_pending] at answer
        cases answer
      rw [finding, answer]
      exact owes_iff.mpr ⟨(phase_verify case ..).symm ▸ held, unsupported_of_against⟩
  | resolveChallenge =>
    rename_i cid upheld
    rw [made_later, write_cons]
    have owes := owes_ruled case (circumstance.now 0) being cid upheld
    refine sound_settled (sound_event sound found rfl rfl rfl ?_) (Dict.get?_set_self ..) registry ?_
    · intro contained dispute
      rw [phase_ruled] at contained
      rw [owes]
      exact waits contained (by simpa [Event.disputes] using dispute)
    · rw [owes]
      exact redresses case found
  | challenge =>
    rw [made_singleton]
    exact sound_event sound found rfl rfl rfl (fun contained dispute =>
      waits contained (by simpa [Event.disputes] using dispute))
  | lapses =>
    rw [made_singleton]
    exact sound_event sound found rfl rfl rfl (fun contained => nomatch contained)
  | rehabilitate contained =>
    rw [made_singleton]
    refine sound_event sound found rfl rfl rfl (fun _ dispute => ?_)
    have owes := waits contained (by simpa [Event.disputes] using dispute)
    rw [redresses case found] at owes
    cases owes
  | proposeErasure corroborated undisputed =>
    rw [made_singleton]
    refine sound_event sound found rfl rfl rfl (fun _ dispute => ?_)
    have owes := waits (by rw [corroborated]; rfl) (by simpa [Event.disputes] using dispute)
    have supported := redresses case found corroborated undisputed
    rw [(owes_iff.mp owes).2] at supported
    cases supported

theorem sound_contain {event : Event Time} {before : Case Time} (sound : Sound world)
    (contains : event.isContain) (named : ∀ name, event.initiator? = some name → name ≠ [])
    (applied : applyEvent world.cases event = .ok (world.contain event before).cases) :
    Sound (world.contain event before) := by
  cases event with
  | contain t being initiator =>
    refine ⟨replay_snoc sound.replayed applied, ?_, ?_, ?_⟩
    · simp only [World.contain]
      rw [owed_snoc, ← sound.paid]
      simp [debtOf]
    · intro other after held
      simp only [World.contain, Dict.get?_set] at held
      split at held
      · obtain rfl := Option.some.inj held
        exact ⟨initiator, rfl, named initiator rfl⟩
      · exact sound.initiators other after held
    · intro other after held contained dispute
      simp only [World.contain, ofBeing_snoc] at dispute
      simp only [World.contain, Dict.get?_set] at held
      split at held
      · rename_i same
        rw [if_pos same, disputed, since_snoc] at dispute
        cases dispute
      · rename_i different
        rw [if_neg different] at dispute
        exact sound.waiting other after held contained dispute
  | _ => cases contains

theorem orSelf_named (named : setting.nodeId ≠ []) (given : Option Str) : orSelf setting given ≠ [] := by
  unfold orSelf
  split
  · split
    · exact named
    · assumption
  · exact named

theorem sound_step {action : Action Time} (registry : setting.registry) (named : setting.nodeId ≠ [])
    (sound : Sound world) (redresses : Redresses setting world action) :
    Sound (step crypto setting world action) := by
  refine step_kept sound ?_ ?_ ?_ ?_
  · intro cases replayed
    obtain rfl := Except.ok.inj (sound.replayed.symm.trans replayed)
    exact sound
  · intro slash other
    refine ⟨sound.replayed, ?_, sound.initiators, sound.waiting⟩
    rw [← sound.paid]
    simp [paid, Slash.debt?, other]
  · intro event before ordered _ applied
    refine sound_contain sound ordered.contains (fun name same => ?_) applied
    cases ordered
    obtain rfl := Option.some.inj same
    exact orSelf_named named _
  · rintro circumstance call being case list rfl opened acts
    exact sound_acts sound registry redresses opened acts

theorem owes_settled (setting : Setting Time) (circumstance : Circumstance Time) (being : Str)
    (case : Case Time) : (((settle setting circumstance being case).filterMap Write.event?).foldl
      Case.apply case).owes = false := by
  have settling := settled setting circumstance being case
  generalize settle setting circumstance being case = list at settling
  cases settling with
  | outside contained corroborated => simp [Case.owes, contained, corroborated]
  | stays supported => simp [Case.owes, supported]
  | corroborates contained supported =>
    simp only [events_cons, List.filterMap_nil, List.foldl_cons, List.foldl_nil, Case.owes]
    exact Bool.and_eq_false_iff.mpr (Or.inr supported)
  | releases =>
    rcases events_releaseFalse (List.prefix_refl _) with ⟨_, empty⟩ | released
    · cases empty
    · rw [released]
      rfl

theorem owes_returned {call : Call} (settles : call.settles being)
    (returns : Returns crypto setting circumstance world call) :
    ∃ after, Dict.get? (step crypto setting world (.call circumstance call)).cases being = some after ∧
      after.owes = false := by
  obtain ⟨list, written, complete⟩ := returns
  have planned := planned_of_ok written
  cases planned with
  | contain => cases settles
  | stays => cases settles
  | acts opened acts =>
    rw [step_acts written opened acts, complete]
    cases acts with
    | verify =>
      obtain rfl := of_decide_eq_true settles
      exact ⟨_, Dict.get?_set_self .., owes_settled ..⟩
    | resolveChallenge =>
      obtain rfl := of_decide_eq_true settles
      exact ⟨_, Dict.get?_set_self .., owes_settled ..⟩
    | _ => cases settles

end JJDai.Containment
