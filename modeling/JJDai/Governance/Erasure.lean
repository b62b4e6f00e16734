import JJDai.Governance.Calls

/-! The threshold of an erasure proposal: convergent findings, and nothing that speaks
against the case. -/

namespace JJDai.Containment

open PyText History

variable {Time : Type} (crypto : Crypto) (setting : Setting Time)

/-- What the events of a being must show before its erasure is proposed. -/
structure Threshold (quorum : Int) (log : List (Event Time)) : Prop where
  verifiers : ∃ names : List Str, names.Nodup ∧ quorum ≤ names.length ∧
    ∀ name ∈ names, ∃ event ∈ since Event.reopens log, event.supports name
  findings : ∀ name, latest (Event.findingOf name) (since Event.reopens log) ≠ some false
  challenges : ∀ cid, standingOf cid (since Event.isContain log) ≠ some true

def Event.proposes : Event Time → Bool
  | .proposeErasure .. => true
  | _ => false

/-- Every proposal on the journal met the threshold when it was made. -/
def Founded (quorum : Int) (journal : List (Event Time)) : Prop :=
  ∀ front event back, journal = front ++ event :: back → event.proposes →
    Threshold quorum (ofBeing event.being front)

/-- A finding that speaks against a corroborated case is not cut off from its release. -/
def Heard (world : World Time) : Action Time → Prop
  | .call circumstance (.verify being _) => ∀ case, Dict.get? world.cases being = some case →
      case.phase = .corroborated → circumstance.resolve case.evidenceRefs = false →
      circumstance.cut ≠ some 0
  | _ => True

/-- A corroborated case has its quorum, and no finding against it. -/
def Firm (quorum : Int) (case : Case Time) : Prop :=
  case.phase = .corroborated → case.unsupported = false ∧ quorum ≤ case.qualifiedSupporters.length

structure Guarded (quorum : Int) (world : World Time) : Prop where
  replayed : replay world.journal = .ok world.cases
  firm : ∀ being case, Dict.get? world.cases being = some case → Firm quorum case
  founded : Founded quorum world.journal

variable {crypto} {setting} {quorum : Int} {world : World Time} {being : Str} {case : Case Time}

theorem founded_snoc {journal : List (Event Time)} (founded : Founded quorum journal)
    {event : Event Time} (new : event.proposes → Threshold quorum (ofBeing event.being journal)) :
    Founded quorum (journal ++ [event]) := by
  intro front other back split proposes
  rcases List.eq_nil_or_concat back with rfl | ⟨middle, last, rfl⟩
  · obtain ⟨rfl, same⟩ := List.append_inj' split rfl
    obtain rfl := List.singleton_inj.mp same
    exact new proposes
  · have joined : journal ++ [event] = (front ++ other :: middle) ++ [last] := by simpa using split
    obtain ⟨same, _⟩ := List.append_inj' joined rfl
    exact founded front other middle same proposes

theorem founded_append {journal events : List (Event Time)} (founded : Founded quorum journal)
    (none_proposes : ∀ event ∈ events, event.proposes = false) :
    Founded quorum (journal ++ events) := by
  induction events using List.reverseRecOn with
  | nil => simpa using founded
  | append_singleton front last ih =>
    rw [← List.append_assoc]
    have quiet := none_proposes last (by simp)
    refine founded_snoc (ih (fun event member => none_proposes event (by simp [member]))) ?_
    rw [quiet]
    intro proposes
    cases proposes

theorem cases_set {P : Str → Case Time → Prop} {cases : Dict Str (Case Time)}
    (all : ∀ being case, Dict.get? cases being = some case → P being case) {moved : Str}
    {after : Case Time} (new : P moved after) (being : Str) (case : Case Time)
    (found : Dict.get? (Dict.set cases moved after) being = some case) : P being case := by
  rw [Dict.get?_set] at found
  split at found
  · rename_i same
    obtain rfl := Option.some.inj found
    exact same ▸ new
  · exact all being case found

theorem threshold_of_firm (guarded : Guarded quorum world) (found : Dict.get? world.cases being = some case)
    (corroborated : case.phase = .corroborated) (undisputed : standingChallenges case = []) :
    Threshold quorum (ofBeing being world.journal) := by
  have reflects := reflects_of_replay guarded.replayed found
  obtain ⟨supported, enough⟩ := guarded.firm being case found corroborated
  constructor
  · exact ⟨case.qualifiedSupporters, reflects.distinct, enough,
      fun name member => (reflects.supporters name).mp member⟩
  · intro name against
    rw [← reflects.verifications] at against
    have member := Dict.mem_of_get? against
    simp only [Case.unsupported, List.any_eq_false, Bool.not_eq_true'] at supported
    exact supported _ member rfl
  · intro cid stands
    rw [← reflects.challenges] at stands
    obtain ⟨challenge, held, standing⟩ := Option.map_eq_some_iff.mp stands
    have member := Dict.mem_of_get? held
    have listed : cid ∈ standingChallenges case :=
      List.mem_map.mpr ⟨(cid, challenge), List.mem_filter.mpr ⟨member, standing⟩, rfl⟩
    rw [undisputed] at listed
    cases listed

theorem supporters_verify (case : Case Time) (event : Event Time) (kept : event.reopens = false) :
    case.qualifiedSupporters.length ≤ (case.apply event).qualifiedSupporters.length := by
  cases event with
  | contain => cases kept
  | rehabilitate => cases kept
  | verify t being verifier supported verifierQualified =>
    simp only [Case.apply]
    split
    · rw [List.length_insert]
      split
      · exact Nat.le_refl _
      · exact Nat.le_succ _
    · exact Nat.le_refl _
  | resolveChallenge =>
    simp only [Case.apply]
    split <;> exact Nat.le_refl _
  | _ => exact Nat.le_refl _

variable {circumstance : Circumstance Time}

theorem unsupported_verify {t : Time} {verifier : Str} {verifierQualified : Bool}
    (unsupported : (case.apply (.verify t being verifier true verifierQualified)).unsupported) :
    case.unsupported := by
  rw [Case.unsupported, verifications_verify, List.any_eq_true] at unsupported
  obtain ⟨entry, member, against⟩ := unsupported
  rcases Dict.mem_set member with rfl | member
  · cases against
  · exact List.any_eq_true.mpr ⟨entry, member, against⟩

theorem firm_settled {front : List (Write Time)} (starts : front <+: settle setting circumstance being case)
    (kept : case.phase = .corroborated → setting.quorum ≤ case.qualifiedSupporters.length)
    (heard : case.phase = .corroborated → case.unsupported → front ≠ []) :
    Firm setting.quorum ((front.filterMap Write.event?).foldl Case.apply case) := by
  have settling := settled setting circumstance being case
  generalize settle setting circumstance being case = list at settling starts
  cases settling with
  | outside contained other =>
    obtain rfl := List.prefix_nil.mp starts
    exact fun corroborated => absurd corroborated other
  | stays supported =>
    obtain rfl := List.prefix_nil.mp starts
    exact fun corroborated => ⟨supported, kept corroborated⟩
  | corroborates contained supported quorum =>
    rcases List.prefix_cons_iff.mp starts with rfl | ⟨tail, rfl, rest⟩
    · intro corroborated
      cases contained.symm.trans corroborated
    · obtain rfl := List.prefix_nil.mp rest
      exact fun _ => ⟨supported, quorum⟩
  | releases held unsupported =>
    intro corroborated
    rcases events_releaseFalse starts with ⟨quiet, empty⟩ | released
    · rw [quiet] at corroborated
      exact absurd empty (heard corroborated unsupported)
    · rw [released] at corroborated
      cases corroborated

theorem settle_proposes {front : List (Write Time)}
    (starts : front <+: settle setting circumstance being case) {event : Event Time}
    (member : event ∈ front.filterMap Write.event?) : event.proposes = false := by
  have settling := settled setting circumstance being case
  generalize settle setting circumstance being case = list at settling starts
  cases settling with
  | outside =>
    obtain rfl := List.prefix_nil.mp starts
    cases member
  | stays =>
    obtain rfl := List.prefix_nil.mp starts
    cases member
  | corroborates =>
    rcases List.prefix_cons_iff.mp starts with rfl | ⟨tail, rfl, rest⟩
    · cases member
    · obtain rfl := List.prefix_nil.mp rest
      obtain rfl := List.mem_singleton.mp member
      rfl
  | releases =>
    rcases events_releaseFalse starts with ⟨quiet, _⟩ | released
    · rw [quiet] at member
      cases member
    · rw [released] at member
      obtain rfl := List.mem_singleton.mp member
      rfl

theorem guarded_write {list : List (Write Time)} (guarded : Guarded quorum world)
    (found : Dict.get? world.cases being = some case)
    (own : ∀ event, .event event ∈ list → event.being = being)
    (firm : Firm quorum ((list.filterMap Write.event?).foldl Case.apply case))
    (founded : Founded quorum (world.write being case list).journal) :
    Guarded quorum (world.write being case list) where
  replayed := replay_write guarded.replayed found own
  firm := cases_set guarded.firm firm
  founded := founded

theorem settle_unsupported (corroborated : case.phase = .corroborated) (unsupported : case.unsupported) :
    settle setting circumstance being case ≠ [] := by
  simp [settle, corroborated, unsupported, releaseFalse]

/-- What a call writes about an open case proposes an erasure only where the threshold is met. -/
theorem founded_acts {call : Call} {list : List (Write Time)} (guarded : Guarded setting.quorum world)
    (opened : Opened world being case) (acts : Acts setting circumstance being case call list) :
    Founded setting.quorum (world.write being case (circumstance.made list)).journal := by
  have settles : ∀ event after, event.proposes = false →
      Founded setting.quorum (world.write being case (circumstance.made
        (.event event :: settle setting circumstance being after))).journal := by
    intro event after quiet
    have starts := later_front circumstance (settle setting circumstance being after)
    rw [made_later]
    refine founded_append guarded.founded (fun other member => ?_)
    rw [events_cons] at member
    rcases List.mem_cons.mp member with rfl | member
    · exact quiet
    · exact settle_proposes starts member
  cases acts with
  | verify => exact settles _ _ rfl
  | resolveChallenge => exact settles _ _ rfl
  | proposeErasure corroborated undisputed =>
    rw [made_singleton]
    exact founded_snoc guarded.founded
      (fun _ => threshold_of_firm guarded opened.found corroborated undisputed)
  | _ =>
    rw [made_singleton]
    exact founded_snoc guarded.founded (fun proposes => nomatch proposes)

theorem guarded_acts {call : Call} {list : List (Write Time)} (guarded : Guarded setting.quorum world)
    (heard : Heard world (.call circumstance call)) (opened : Opened world being case)
    (acts : Acts setting circumstance being case call list) :
    Guarded setting.quorum (world.write being case (circumstance.made list)) := by
  have firm := guarded.firm being case opened.found
  have own : ∀ event, .event event ∈ circumstance.made list → event.being = being :=
    fun event member => acts.own ((made_front circumstance _).subset member)
  refine guarded_write guarded opened.found own ?_ ?_
  · cases acts with
    | verify =>
      rename_i verifier
      rw [made_later, events_cons, List.foldl_cons]
      refine firm_settled (later_front ..) ?_ ?_
      · intro corroborated
        rw [finding, phase_verify] at corroborated
        have before := (firm corroborated).2
        have grown := supporters_verify case (finding setting circumstance being verifier case) rfl
        omega
      · intro corroborated unsupported empty
        have before : case.phase = .corroborated := (phase_verify ..).symm.trans corroborated
        cases answer : circumstance.resolve case.evidenceRefs with
        | true =>
          rw [finding, answer] at unsupported
          have against := unsupported_verify unsupported
          rw [(firm before).1] at against
          cases against
        | false =>
          have releases := later_empty (heard case opened.found before answer) empty
          exact settle_unsupported corroborated unsupported releases
    | resolveChallenge =>
      rename_i cid upheld
      rw [made_later, events_cons, List.foldl_cons]
      refine firm_settled (later_front ..) ?_ ?_
      · intro corroborated
        rw [phase_ruled] at corroborated
        have before := (firm corroborated).2
        have grown := supporters_verify case
          (.resolveChallenge (circumstance.now 0) being cid upheld) rfl
        omega
      · intro corroborated unsupported
        rw [phase_ruled] at corroborated
        rw [unsupported_ruled, (firm corroborated).1] at unsupported
        cases unsupported
    | challenge =>
      rw [made_singleton]
      exact firm
    | lapses =>
      rw [made_singleton]
      exact fun corroborated => nomatch corroborated
    | rehabilitate =>
      rw [made_singleton]
      exact fun corroborated => nomatch corroborated
    | proposeErasure =>
      rw [made_singleton]
      exact fun corroborated => nomatch corroborated
  · exact founded_acts guarded opened acts

theorem guarded_step {action : Action Time} (guarded : Guarded setting.quorum world)
    (heard : Heard world action) : Guarded setting.quorum (step crypto setting world action) := by
  refine step_kept guarded ?_ ?_ ?_ ?_
  · intro cases replayed
    obtain rfl := Except.ok.inj (guarded.replayed.symm.trans replayed)
    exact guarded
  · exact fun _ _ => ⟨guarded.replayed, guarded.firm, guarded.founded⟩
  · intro event before ordered _ applied
    refine ⟨replay_snoc guarded.replayed applied, ?_, ?_⟩
    · refine cases_set guarded.firm ?_
      cases ordered
      exact fun corroborated => nomatch corroborated
    · refine founded_snoc guarded.founded ?_
      cases ordered
      exact fun proposes => nomatch proposes
  · rintro circumstance call being case list rfl opened acts
    exact guarded_acts guarded heard opened acts

def samplePropose : Action Nat := .call (.sample true none) (.proposeErasure "b" "p")

end JJDai.Containment
