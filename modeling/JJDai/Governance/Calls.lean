import JJDai.Governance.Replay

/-! What each call writes to the journals, wherever it is cut off. -/

namespace JJDai.Containment

open PyText History

variable {Time : Type} (crypto : Crypto) (setting : Setting Time) (circumstance : Circumstance Time)
  (world : World Time)

structure Opened (world : World Time) (being : Str) (case : Case Time) : Prop where
  found : Dict.get? world.cases being = some case
  active : case.phase ≠ .active

/-- The writes of a call about a being whose case is open. -/
inductive Acts (being : Str) (case : Case Time) : Call → List (Write Time) → Prop where
  | verify {verifier} : Acts being case (.verify being verifier)
      (.event (finding setting circumstance being verifier case) ::
        settle setting circumstance being (case.apply (finding setting circumstance being verifier case)))
  | challenge {challenger claim kind cid} : Acts being case (.challenge being challenger claim kind)
      [.event (.challenge (circumstance.now 1) being cid challenger claim kind)]
  | resolveChallenge {cid upheld} : Acts being case (.resolveChallenge being cid upheld)
      (.event (.resolveChallenge (circumstance.now 0) being cid upheld) ::
        settle setting circumstance being
          (case.apply (.resolveChallenge (circumstance.now 0) being cid upheld)))
  | lapses : Acts being case (.expireProvisional being)
      [.event (.release (circumstance.now 1) being "provisional_unverified" none)]
  | rehabilitate {guardian} (contained : case.phase.isContained) :
      Acts being case (.rehabilitate being guardian)
        [.event (.rehabilitate (circumstance.now 0) being guardian)]
  | proposeErasure {proposer} (corroborated : case.phase = .corroborated)
      (undisputed : standingChallenges case = []) :
      Acts being case (.proposeErasure being proposer)
        [.event (.proposeErasure (circumstance.now 0) being proposer)]

/-- The writes of each call, with what the call has checked. -/
inductive Planned : Call → List (Write Time) → Prop where
  | contain {being evidenceRefs reason topic initiator trusted event}
      (free : isContained world being = false)
      (made : event = .contain (circumstance.now 0) being (orSelf setting initiator) evidenceRefs reason
        topic trusted !trusted) :
      Planned (.contain being evidenceRefs reason topic initiator) [.event event]
  | stays {being} : Planned (.expireProvisional being) []
  | acts {being case call list} (opened : Opened world being case)
      (made : Acts setting circumstance being case call list) : Planned call list

variable {crypto} {setting} {circumstance} {world} {being : Str} {case : Case Time}

theorem opened_of_ok (required : require world being = .ok case) : Opened world being case := by
  unfold require at required
  split at required
  · cases required
  · rename_i other found
    split at required
    · cases required
    · rename_i active
      obtain rfl := Except.ok.inj required
      exact ⟨found, active⟩

theorem planned_of_ok {call : Call} {list : List (Write Time)}
    (written : writes crypto setting circumstance world call = .ok list) :
    Planned setting circumstance world call list := by
  cases call with
  | contain being evidenceRefs reason topic initiator =>
    simp only [writes, bind, Py.unless_ok] at written
    obtain ⟨free, made⟩ := written
    obtain rfl := Except.ok.inj made
    exact .contain (by simpa using free) rfl
  | verify being verifier =>
    simp only [writes, bind, Py.bind_ok] at written
    obtain ⟨case, required, made⟩ := written
    obtain rfl := Except.ok.inj made
    exact .acts (opened_of_ok required) .verify
  | challenge being challenger claim kind =>
    simp only [writes, bind, Py.bind_ok] at written
    obtain ⟨case, required, cid, _, made⟩ := written
    obtain rfl := Except.ok.inj made
    exact .acts (opened_of_ok required) .challenge
  | resolveChallenge being cid upheld =>
    simp only [writes, bind, Py.bind_ok] at written
    obtain ⟨case, required, made⟩ := written
    obtain rfl := Except.ok.inj made
    exact .acts (opened_of_ok required) .resolveChallenge
  | expireProvisional being =>
    simp only [writes, bind, Py.bind_ok] at written
    obtain ⟨case, required, made⟩ := written
    split at made
    · obtain rfl := Except.ok.inj made
      exact .stays
    · split at made
      · obtain rfl := Except.ok.inj made
        exact .stays
      · split at made
        · cases made
        · split at made
          · obtain rfl := Except.ok.inj made
            exact .stays
          · obtain rfl := Except.ok.inj made
            exact .acts (opened_of_ok required) .lapses
  | rehabilitate being guardian =>
    simp only [writes, bind, Py.bind_ok, Py.unless_ok] at written
    obtain ⟨case, required, contained, made⟩ := written
    obtain rfl := Except.ok.inj made
    exact .acts (opened_of_ok required) (.rehabilitate (by simpa using contained))
  | proposeErasure being proposer =>
    simp only [writes, bind, Py.bind_ok, Py.unless_ok] at written
    obtain ⟨case, required, corroborated, undisputed, made⟩ := written
    obtain rfl := Except.ok.inj made
    exact .acts (opened_of_ok required)
      (.proposeErasure (not_not.mp corroborated) (not_not.mp undisputed))

inductive Settled (setting : Setting Time) (circumstance : Circumstance Time) (being : Str)
    (case : Case Time) : List (Write Time) → Prop where
  | outside (phase : case.phase ≠ .contained) (other : case.phase ≠ .corroborated) :
      Settled setting circumstance being case []
  | stays (supported : case.unsupported = false) : Settled setting circumstance being case []
  | corroborates (contained : case.phase = .contained) (supported : case.unsupported = false)
      (quorum : setting.quorum ≤ case.qualifiedSupporters.length) :
      Settled setting circumstance being case [.event (.corroborate (circumstance.now 1) being)]
  | releases (held : case.phase = .contained ∨ case.phase = .corroborated)
      (unsupported : case.unsupported) :
      Settled setting circumstance being case (releaseFalse setting circumstance being case)

theorem settled (setting : Setting Time) (circumstance : Circumstance Time) (being : Str)
    (case : Case Time) : Settled setting circumstance being case
      (settle setting circumstance being case) := by
  unfold settle
  split
  · rename_i outside
    exact .outside outside.1 outside.2
  · rename_i held
    have held : case.phase = .contained ∨ case.phase = .corroborated := by
      by_cases contained : case.phase = .contained
      · exact Or.inl contained
      · exact Or.inr (not_not.mp (fun other => held ⟨contained, other⟩))
    split
    · rename_i unsupported
      exact .releases held unsupported
    · rename_i supported
      have supported : case.unsupported = false := by simpa using supported
      split
      · rename_i converged
        split
        · rename_i other
          exact .corroborates (held.resolve_right other) supported converged.1
        · exact .stays supported
      · exact .stays supported

theorem phase_verify (case : Case Time) (t : Time) (being verifier : Str)
    (supported verifierQualified : Bool) :
    (case.apply (.verify t being verifier supported verifierQualified)).phase = case.phase := by
  simp only [Case.apply]
  split <;> rfl

theorem phase_ruled (case : Case Time) (t : Time) (being cid : Str) (upheld : Bool) :
    (case.apply (.resolveChallenge t being cid upheld)).phase = case.phase := by
  simp only [Case.apply]
  split <;> rfl

theorem unsupported_ruled (case : Case Time) (t : Time) (being cid : Str) (upheld : Bool) :
    (case.apply (.resolveChallenge t being cid upheld)).unsupported = case.unsupported := by
  simp only [Case.apply]
  split <;> rfl

theorem verifications_verify (case : Case Time) (t : Time) (being verifier : Str)
    (supported verifierQualified : Bool) :
    (case.apply (.verify t being verifier supported verifierQualified)).verifications =
      Dict.set case.verifications verifier supported := by
  simp only [Case.apply]
  split <;> rfl

def Write.event? : Write Time → Option (Event Time)
  | .event made => some made
  | .slash _ => none

def Write.slash? : Write Time → Option (Slash Time)
  | .event _ => none
  | .slash made => some made

@[simp] theorem events_cons (event : Event Time) (rest : List (Write Time)) :
    (Write.event event :: rest).filterMap Write.event? = event :: rest.filterMap Write.event? := rfl

def World.write (world : World Time) (being : Str) (case : Case Time) (list : List (Write Time)) :
    World Time where
  cases := Dict.set world.cases being ((list.filterMap Write.event?).foldl Case.apply case)
  journal := world.journal ++ list.filterMap Write.event?
  slashes := world.slashes ++ list.filterMap Write.slash?

theorem foldlM_applyWrite {list : List (Write Time)} (found : Dict.get? world.cases being = some case)
    (own : ∀ event, .event event ∈ list → event.being = being) :
    list.foldlM applyWrite world = .ok (world.write being case list) := by
  induction list generalizing world case with
  | nil => simp [World.write, Dict.set_same found, pure, Except.pure]
  | cons write rest ih =>
    have later : ∀ event, .event event ∈ rest → event.being = being :=
      fun event member => own event (List.mem_cons_of_mem _ member)
    cases write with
    | event event =>
      have here : event.being = being := own event List.mem_cons_self
      have applied := applyEvent_found (here ▸ found)
      rw [here] at applied
      simp only [List.foldlM_cons, applyWrite, bind, applied, Except.bind, pure, Except.pure]
      rw [ih (Dict.get?_set_self _ _ _) later]
      simp [World.write, List.filterMap_cons, Write.event?, Write.slash?]
    | slash slash =>
      simp only [List.foldlM_cons, applyWrite, bind, Except.bind, pure, Except.pure]
      have after : List.foldlM applyWrite { world with slashes := world.slashes ++ [slash] } rest = _ :=
        ih found later
      rw [after]
      simp [World.write, List.filterMap_cons, Write.event?, Write.slash?]

theorem replay_write {list : List (Write Time)} (replayed : replay world.journal = .ok world.cases)
    (found : Dict.get? world.cases being = some case)
    (own : ∀ event, .event event ∈ list → event.being = being) :
    replay (world.write being case list).journal = .ok (world.write being case list).cases := by
  induction list using List.reverseRecOn with
  | nil => simpa [World.write, Dict.set_same found] using replayed
  | append_singleton front write ih =>
    have earlier := ih (fun event member => own event (List.mem_append_left _ member))
    cases write with
    | event event =>
      have here : event.being = being := own event (by simp)
      have stands : Dict.get? (world.write being case front).cases event.being =
          some ((front.filterMap Write.event?).foldl Case.apply case) := by
        rw [here]
        exact Dict.get?_set_self _ _ _
      have grown := replay_snoc earlier (applyEvent_found stands)
      simpa [World.write, List.filterMap_append, Write.event?, here] using grown
    | slash slash =>
      simpa [World.write, List.filterMap_append, List.filterMap_cons, Write.event?] using earlier

theorem write_cons (world : World Time) (being : Str) (case : Case Time) (event : Event Time)
    (rest : List (Write Time)) : world.write being case (.event event :: rest) =
      (world.write being case [.event event]).write being (case.apply event) rest := by
  simp [World.write, List.filterMap_cons, Write.event?, Write.slash?]

/-- What is made of the writes after the first. -/
def Circumstance.later (circumstance : Circumstance Time) (list : List (Write Time)) : List (Write Time) :=
  match circumstance.cut with
  | none => list
  | some n => list.take n

theorem made_later (circumstance : Circumstance Time) (write : Write Time) (rest : List (Write Time)) :
    circumstance.made (write :: rest) = write :: circumstance.later rest := by
  unfold Circumstance.made Circumstance.later
  cases circumstance.cut <;> rfl

theorem later_front (circumstance : Circumstance Time) (list : List (Write Time)) :
    circumstance.later list <+: list := by
  unfold Circumstance.later
  cases circumstance.cut with
  | none => exact List.prefix_refl _
  | some n => exact List.take_prefix _ _

theorem later_empty {list : List (Write Time)} (uncut : circumstance.cut ≠ some 0)
    (empty : circumstance.later list = []) : list = [] := by
  unfold Circumstance.later at empty
  cases cut : circumstance.cut with
  | none => simpa [cut] using empty
  | some n =>
    rw [cut] at empty uncut
    rcases List.take_eq_nil_iff.mp empty with zero | empty
    · exact absurd (congrArg some zero) uncut
    · exact empty

theorem made_singleton (circumstance : Circumstance Time) (write : Write Time) :
    circumstance.made [write] = [write] := by
  rw [made_later, List.prefix_nil.mp (later_front circumstance [])]

theorem made_front (circumstance : Circumstance Time) (list : List (Write Time)) :
    circumstance.made list <+: list := by
  unfold Circumstance.made
  cases circumstance.cut with
  | none => exact List.prefix_refl _
  | some n => exact List.take_prefix _ _

theorem own_of_releaseFalse {event : Event Time}
    (member : .event event ∈ releaseFalse setting circumstance being case) : event.being = being := by
  rcases List.mem_cons.mp member with same | member
  · obtain rfl := Write.event.inj same
    rfl
  · split at member
    · split at member
      · cases List.mem_singleton.mp member
      · cases member
    · cases member

theorem own_of_settled {list : List (Write Time)} (settled : Settled setting circumstance being case list)
    {event : Event Time} (member : .event event ∈ list) : event.being = being := by
  cases settled with
  | outside => cases member
  | stays => cases member
  | corroborates =>
    obtain rfl := Write.event.inj (List.mem_singleton.mp member)
    rfl
  | releases => exact own_of_releaseFalse member

theorem events_releaseFalse {front : List (Write Time)}
    (starts : front <+: releaseFalse setting circumstance being case) :
    front.filterMap Write.event? = [] ∧ front = [] ∨ front.filterMap Write.event? =
      [.release (circumstance.now 1) being triggerUnsupported case.initiator] := by
  rcases List.prefix_cons_iff.mp starts with rfl | ⟨tail, rfl, rest⟩
  · exact Or.inl ⟨rfl, rfl⟩
  · have quiet : tail.filterMap Write.event? = [] := by
      rw [List.filterMap_eq_nil_iff]
      intro write member
      have member := rest.subset member
      split at member
      · split at member
        · obtain rfl := List.mem_singleton.mp member
          rfl
        · cases member
      · cases member
    right
    rw [List.filterMap_cons, quiet]
    rfl

theorem Acts.own {call : Call} {list : List (Write Time)}
    (acts : Acts setting circumstance being case call list) {event : Event Time}
    (member : .event event ∈ list) : event.being = being := by
  cases acts with
  | verify =>
    rcases List.mem_cons.mp member with same | member
    · obtain rfl := Write.event.inj same
      rfl
    · exact own_of_settled (settled ..) member
  | resolveChallenge =>
    rcases List.mem_cons.mp member with same | member
    · obtain rfl := Write.event.inj same
      rfl
    · exact own_of_settled (settled ..) member
  | _ =>
    obtain rfl := Write.event.inj (List.mem_singleton.mp member)
    rfl

/-- The world with a new containment on the journal. -/
def World.contain (world : World Time) (event : Event Time) (before : Case Time) : World Time :=
  { world with
    cases := Dict.set world.cases event.being (before.apply event)
    journal := world.journal ++ [event] }

inductive Ordered (setting : Setting Time) : Action Time → Event Time → Prop where
  | contain {circumstance : Circumstance Time} {being evidenceRefs reason topic given trusted} :
      Ordered setting (.call circumstance (.contain being evidenceRefs reason topic given))
        (.contain (circumstance.now 0) being (orSelf setting given) evidenceRefs reason topic trusted !trusted)

theorem Ordered.contains {action : Action Time} {event : Event Time} (ordered : Ordered setting action event) :
    event.isContain := by
  cases ordered
  rfl

theorem applyEvent_contain {cases : Dict Str (Case Time)} {event : Event Time}
    (contains : event.isContain) :
    ∃ before : Case Time, applyEvent cases event = .ok (Dict.set cases event.being (before.apply event)) := by
  cases found : Dict.get? cases event.being with
  | some before => exact ⟨before, applyEvent_found found⟩
  | none =>
    cases event with
    | contain =>
      refine ⟨{}, ?_⟩
      simp only [applyEvent, found]
      rfl
    | _ => cases contains

theorem applyWrite_contain (world : World Time) {event : Event Time} (contains : event.isContain) :
    ∃ before, applyEvent world.cases event = .ok (world.contain event before).cases ∧
      applyWrite world (.event event) = .ok (world.contain event before) := by
  obtain ⟨before, applied⟩ := @applyEvent_contain _ world.cases event contains
  refine ⟨before, applied, ?_⟩
  simp only [applyWrite, bind, applied, Except.bind]
  rfl

theorem step_kept {Good : World Time → Prop} {action : Action Time} (good : Good world)
    (restarts : ∀ cases, replay world.journal = .ok cases → Good { world with cases := cases })
    (slashes : ∀ slash, causeOf slash.reason = none →
      Good { world with slashes := world.slashes ++ [slash] })
    (contains : ∀ event before, Ordered setting action event → isContained world event.being = false →
      applyEvent world.cases event = .ok (world.contain event before).cases →
      Good (world.contain event before))
    (acts : ∀ circumstance call being case list, action = .call circumstance call →
      Opened world being case → Acts setting circumstance being case call list →
      Good (world.write being case (circumstance.made list))) :
    Good (step crypto setting world action) := by
  cases action with
  | restart =>
    simp only [step]
    cases replayed : replay world.journal with
    | error e => exact good
    | ok cases => exact restarts cases replayed
  | slash slash other => exact slashes slash other
  | call circumstance call =>
    simp only [step, perform]
    cases written : writes crypto setting circumstance world call with
    | error e => exact good
    | ok list =>
      have planned := planned_of_ok written
      simp only [bind, Except.bind]
      cases planned with
      | stays =>
        rw [List.prefix_nil.mp (made_front circumstance [])]
        exact good
      | @contain being evidenceRefs reason topic initiator trusted event free same =>
        have ordered : Ordered setting (.call circumstance (.contain being evidenceRefs reason topic initiator)) event :=
          same ▸ .contain
        have about : event.being = being := same ▸ rfl
        obtain ⟨before, applied, written⟩ := applyWrite_contain world ordered.contains
        rw [made_singleton, List.foldlM_cons, written]
        exact contains event before ordered (about ▸ free) applied
      | acts opened acted =>
        rw [foldlM_applyWrite opened.found
          (fun event member => acted.own ((made_front circumstance _).subset member))]
        exact acts circumstance call _ _ _ rfl opened acted

theorem step_acts {call : Call} {list : List (Write Time)}
    (written : writes crypto setting circumstance world call = .ok list)
    (opened : Opened world being case) (acts : Acts setting circumstance being case call list) :
    step crypto setting world (.call circumstance call) =
      world.write being case (circumstance.made list) := by
  simp only [step, perform, written, bind, Except.bind]
  rw [foldlM_applyWrite opened.found
    (fun event member => acts.own ((made_front circumstance _).subset member))]

end JJDai.Containment
