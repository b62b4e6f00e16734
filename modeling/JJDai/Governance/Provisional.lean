import JJDai.Governance.Corroboration
import JJDai.Governance.FalseContainment

/-! Provisional containment: what becomes of an order whose initiator did not qualify. -/

namespace JJDai.Containment

open PyText History

variable {Time : Type} (crypto : Crypto) (setting : Setting Time)

/-- Whether the initiator of a containment qualified when it was ordered. -/
def Event.trusted? : Event Time → Option Bool
  | .contain _ _ _ _ _ _ initiatorQualified _ => some initiatorQualified
  | _ => none

def Event.startedAt? : Event Time → Option Time
  | .contain t .. => some t
  | _ => none

/-- A supported finding of a qualified verifier. -/
def Event.confirms : Event Time → Bool
  | .verify _ _ _ supported verifierQualified => supported && verifierQualified
  | _ => false

/-- The initiator of the being's episode did not qualify. -/
def lowTrust (log : List (Event Time)) : Bool := latest Event.trusted? log = some false

/-- A qualified supported finding is recorded in the being's episode. -/
def confirmed (log : List (Event Time)) : Bool := (since Event.isContain log).any Event.confirms

/-- What one step does to the episodes of initiators who did not qualify. -/
structure Treated (world : World Time) (action : Action Time) : Prop where
  dear : ∀ being t target events, lowTrust (ofBeing being world.journal) →
    (step crypto setting world action).journal = world.journal ++ events →
    .release t being triggerUnsupported target ∈ events → ∃ initiator slash,
      latest Event.initiator? (ofBeing being world.journal) = some initiator ∧
      (step crypto setting world action).slashes = world.slashes ++ [slash] ∧ slash.objectId = initiator ∧
      slash.reason = falseContainment being ∧ slash.penaltyMult = setting.lowTrustMult
  lapses : ∀ circumstance being start, action = .call circumstance (.expireProvisional being) →
    lowTrust (ofBeing being world.journal) → confirmed (ofBeing being world.journal) = false →
    stateOf world being = .contained → latest Event.startedAt? (ofBeing being world.journal) = some start →
    setting.expired start (circumstance.now 0) →
      (step crypto setting world action).journal = world.journal ++
        [.release (circumstance.now 1) being "provisional_unverified" none] ∧
      (step crypto setting world action).slashes = world.slashes ∧
      stateOf (step crypto setting world action) being = .released
  stands : ∀ circumstance being, action = .call circumstance (.expireProvisional being) →
    confirmed (ofBeing being world.journal) → step crypto setting world action = world

/-- An initiator has a name, and a release on an unsupported finding, in the episode of one who did not
qualify, is not cut off from its slash and comes before any qualified supported finding. -/
def Dear (world : World Time) : Action Time → Prop
  | .call _ (.contain _ _ _ _ initiator) => orSelf setting initiator ≠ []
  | .call circumstance (.verify being verifier) => ∀ case, Dict.get? world.cases being = some case →
      let event := finding setting circumstance being verifier case
      (case.apply event).owes → lowTrust (ofBeing being world.journal) → circumstance.cut ≠ some 0 →
        circumstance.cut ≠ some 1 ∧ confirmed (ofBeing being world.journal ++ [event]) = false
  | .call circumstance (.resolveChallenge being _ _) => ∀ case, Dict.get? world.cases being = some case →
      case.owes → lowTrust (ofBeing being world.journal) → circumstance.cut ≠ some 0 →
        circumstance.cut ≠ some 1 ∧ confirmed (ofBeing being world.journal) = false
  | _ => True

instance (world : World Time) : (action : Action Time) → Decidable (Dear setting world action)
  | .call _ (.contain _ _ _ _ initiator) => inferInstanceAs (Decidable (orSelf setting initiator ≠ []))
  | .call circumstance (.verify being verifier) =>
    inferInstanceAs (Decidable (∀ case ∈ Dict.get? world.cases being,
      (case.apply (finding setting circumstance being verifier case)).owes →
        lowTrust (ofBeing being world.journal) → circumstance.cut ≠ some 0 → circumstance.cut ≠ some 1 ∧
          confirmed (ofBeing being world.journal ++ [finding setting circumstance being verifier case]) = false))
  | .call circumstance (.resolveChallenge being _ _) =>
    inferInstanceAs (Decidable (∀ case ∈ Dict.get? world.cases being, case.owes →
      lowTrust (ofBeing being world.journal) → circumstance.cut ≠ some 0 → circumstance.cut ≠ some 1 ∧
        confirmed (ofBeing being world.journal) = false))
  | .call _ (.challenge ..) => .isTrue trivial
  | .call _ (.expireProvisional _) => .isTrue trivial
  | .call _ (.rehabilitate ..) => .isTrue trivial
  | .call _ (.proposeErasure ..) => .isTrue trivial
  | .restart => .isTrue trivial
  | .slash _ _ => .isTrue trivial

/-- The flag of a case, told from the events of its being. -/
structure Tracked (log : List (Event Time)) (case : Case Time) : Prop where
  flag : case.provisionalLowTrust = (lowTrust log && !confirmed log)
  supporters : case.qualifiedSupporters ≠ [] → confirmed log
  started : case.containedAt = latest Event.startedAt? log

variable {crypto} {setting} {circumstance : Circumstance Time} {world : World Time} {being : Str}
  {case : Case Time} {log : List (Event Time)} {event : Event Time}

theorem lowTrust_snoc (kept : event.isContain = false) : lowTrust (log ++ [event]) = lowTrust log := by
  rw [lowTrust, latest_snoc]
  cases event with
  | contain => cases kept
  | _ => rfl

theorem confirmed_snoc (kept : event.isContain = false) :
    confirmed (log ++ [event]) = (confirmed log || event.confirms) := by
  rw [confirmed, since_snoc, kept, if_neg Bool.false_ne_true]
  simp [confirmed]

theorem startedAt_snoc (kept : event.isContain = false) :
    latest Event.startedAt? (log ++ [event]) = latest Event.startedAt? log := by
  rw [latest_snoc]
  cases event with
  | contain => cases kept
  | _ => rfl

theorem Tracked.moved (tracked : Tracked log case) {after : Case Time} (kept : event.isContain = false)
    (quiet : event.confirms = false) (flag : after.provisionalLowTrust = case.provisionalLowTrust)
    (supporters : after.qualifiedSupporters = case.qualifiedSupporters ∨ after.qualifiedSupporters = [])
    (started : after.containedAt = case.containedAt) : Tracked (log ++ [event]) after where
  flag := by rw [lowTrust_snoc kept, confirmed_snoc kept, quiet, Bool.or_false, flag, tracked.flag]
  supporters some_left := by
    rw [confirmed_snoc kept, quiet, Bool.or_false]
    rcases supporters with same | empty
    · exact tracked.supporters (same ▸ some_left)
    · exact absurd empty some_left
  started := by rw [startedAt_snoc kept, started, tracked.started]

theorem Tracked.verified (tracked : Tracked log case) (t : Time) (being verifier : Str)
    (supported verifierQualified : Bool) :
    Tracked (log ++ [.verify t being verifier supported verifierQualified])
      (case.apply (.verify t being verifier supported verifierQualified)) := by
  cases confirms : supported && verifierQualified with
  | false =>
    refine tracked.moved rfl confirms ?_ (.inl ?_) ?_
    all_goals simp only [Case.apply, confirms, Bool.false_eq_true, if_false]
  | true =>
    have heard : confirmed (log ++ [.verify t being verifier supported verifierQualified]) := by
      rw [confirmed_snoc rfl, Event.confirms, confirms, Bool.or_true]
    refine ⟨?_, fun _ => heard, ?_⟩
    · simp [Case.apply, confirms, heard]
    · rw [startedAt_snoc rfl, ← tracked.started]
      simp [Case.apply, confirms]

theorem Tracked.snoc (tracked : Tracked log case) (kept : event.isContain = false) :
    Tracked (log ++ [event]) (case.apply event) := by
  cases event with
  | contain => cases kept
  | verify t being verifier supported verifierQualified => exact tracked.verified ..
  | resolveChallenge t being cid upheld =>
    refine tracked.moved rfl rfl ?_ (.inl ?_) ?_
    all_goals
      simp only [Case.apply]
      split <;> rfl
  | rehabilitate t being guardian => exact tracked.moved rfl rfl rfl (.inr rfl) rfl
  | _ => exact tracked.moved rfl rfl rfl (.inl rfl) rfl

theorem Tracked.append (tracked : Tracked log case) {events : List (Event Time)}
    (kept : ∀ event ∈ events, event.isContain = false) :
    Tracked (log ++ events) (events.foldl Case.apply case) := by
  induction events generalizing log case with
  | nil => simpa using tracked
  | cons event rest ih =>
    have first := tracked.snoc (kept event List.mem_cons_self)
    have later := ih first (fun other member => kept other (List.mem_cons_of_mem _ member))
    rwa [List.append_assoc] at later

theorem tracked_ordered {action : Action Time} (ordered : Ordered setting action event) (before : Case Time) :
    Tracked (log ++ [event]) (before.apply event) := by
  cases ordered with
  | contain =>
    rename_i trusted
    refine ⟨?_, ?_, ?_⟩
    · cases trusted <;> simp [Case.apply, lowTrust, confirmed, since_snoc, latest_snoc, Event.isContain, Event.trusted?]
    · simp [Case.apply]
    · simp [Case.apply, latest_snoc, Event.startedAt?]

structure Followed (world : World Time) : Prop where
  replayed : replay world.journal = .ok world.cases
  tracked : ∀ being case, Dict.get? world.cases being = some case → Tracked (ofBeing being world.journal) case

theorem ofBeing_append {journal events : List (Event Time)} (own : ∀ event ∈ events, event.being = being)
    (other : Str) : ofBeing other (journal ++ events) =
      if being = other then ofBeing other journal ++ events else ofBeing other journal := by
  rw [ofBeing, List.filter_append]
  split
  · rename_i same
    subst same
    rw [List.filter_eq_self.mpr (fun event member => decide_eq_true (own event member))]
    rfl
  · rename_i different
    rw [List.filter_eq_nil_iff.mpr (fun event member same => different ((own event member).symm.trans (of_decide_eq_true same))),
      List.append_nil]
    rfl

theorem followed_write {list : List (Write Time)} (followed : Followed world)
    (found : Dict.get? world.cases being = some case) (own : ∀ event, .event event ∈ list → event.being = being)
    (kept : ∀ event, .event event ∈ list → event.isContain = false) : Followed (world.write being case list) := by
  have written (event : Event Time) (member : event ∈ list.filterMap Write.event?) : .event event ∈ list := by
    obtain ⟨write, inside, shape⟩ := List.mem_filterMap.mp member
    cases write with
    | event other =>
      obtain rfl := Option.some.inj shape
      exact inside
    | slash => cases shape
  refine ⟨replay_write followed.replayed found own, ?_⟩
  intro other after held
  simp only [World.write] at held ⊢
  rw [ofBeing_append (fun event member => own event (written event member))]
  rw [Dict.get?_set] at held
  split at held
  · rename_i same
    obtain rfl := Option.some.inj held
    rw [if_pos same]
    exact (same ▸ followed.tracked being case found).append (fun event member => kept event (written event member))
  · rename_i different
    rw [if_neg different]
    exact followed.tracked other after held

theorem kept_of_settled {list : List (Write Time)} (settled : Settled setting circumstance being case list)
    (member : .event event ∈ list) : event.isContain = false := by
  cases settled with
  | outside => cases member
  | stays => cases member
  | corroborates =>
    obtain rfl := Write.event.inj (List.mem_singleton.mp member)
    rfl
  | releases =>
    rcases List.mem_cons.mp member with same | member
    · obtain rfl := Write.event.inj same
      rfl
    · split at member
      · split at member
        · cases List.mem_singleton.mp member
        · cases member
      · cases member

theorem Acts.kept {call : Call} {list : List (Write Time)} (acts : Acts setting circumstance being case call list)
    (member : .event event ∈ list) : event.isContain = false := by
  cases acts with
  | verify =>
    rcases List.mem_cons.mp member with same | member
    · obtain rfl := Write.event.inj same
      rfl
    · exact kept_of_settled (settled ..) member
  | resolveChallenge =>
    rcases List.mem_cons.mp member with same | member
    · obtain rfl := Write.event.inj same
      rfl
    · exact kept_of_settled (settled ..) member
  | _ =>
    obtain rfl := Write.event.inj (List.mem_singleton.mp member)
    rfl

theorem followed_step {action : Action Time} (followed : Followed world) :
    Followed (step crypto setting world action) := by
  refine step_kept followed ?_ ?_ ?_ ?_
  · intro cases replayed
    obtain rfl := Except.ok.inj (followed.replayed.symm.trans replayed)
    exact followed
  · exact fun _ _ => ⟨followed.replayed, followed.tracked⟩
  · intro event before ordered _ applied
    refine ⟨replay_snoc followed.replayed applied, ?_⟩
    intro other after held
    simp only [World.contain, ofBeing_snoc] at held ⊢
    rw [Dict.get?_set] at held
    split at held
    · rename_i same
      obtain rfl := Option.some.inj held
      rw [if_pos same]
      exact tracked_ordered ordered before
    · rename_i different
      rw [if_neg different]
      exact followed.tracked other after held
  · rintro circumstance call being case list rfl opened acts
    exact followed_write followed opened.found
      (fun event member => acts.own ((made_front circumstance _).subset member))
      (fun event member => acts.kept ((made_front circumstance _).subset member))

theorem unconfirmed_of_flag {case : Case Time} (tracked : Tracked log case) (low : lowTrust log)
    (free : confirmed log = false) : case.provisionalLowTrust = true ∧ case.qualifiedSupporters = [] := by
  refine ⟨by rw [tracked.flag, low, free]; rfl, ?_⟩
  by_contra some_left
  have heard := tracked.supporters some_left
  rw [free] at heard
  cases heard

theorem lapses_step (followed : Followed world) (low : lowTrust (ofBeing being world.journal))
    (free : confirmed (ofBeing being world.journal) = false) (contained : stateOf world being = .contained)
    {start : Time} (started : latest Event.startedAt? (ofBeing being world.journal) = some start)
    (late : setting.expired start (circumstance.now 0)) : ∃ case, Dict.get? world.cases being = some case ∧
      step crypto setting world (.call circumstance (.expireProvisional being)) =
        world.write being case [.event (.release (circumstance.now 1) being "provisional_unverified" none)] := by
  cases found : Dict.get? world.cases being with
  | none => simp [stateOf, found] at contained
  | some case =>
    rw [stateOf_found found] at contained
    obtain ⟨flag, nobody⟩ := unconfirmed_of_flag (followed.tracked being case found) low free
    have since := (followed.tracked being case found).started
    rw [started] at since
    have opened : Opened world being case := ⟨found, by rw [contained]; decide⟩
    have written : writes crypto setting circumstance world (.expireProvisional being) =
        .ok [.event (.release (circumstance.now 1) being "provisional_unverified" none)] := by
      simp [writes, require, found, contained, flag, nobody, since, late, bind, Except.bind, pure, Except.pure]
    refine ⟨case, rfl, ?_⟩
    rw [step_acts written opened .lapses, made_singleton]

theorem stands_step (followed : Followed world) (heard : confirmed (ofBeing being world.journal)) :
    step crypto setting world (.call circumstance (.expireProvisional being)) = world := by
  simp only [step, perform, writes, require]
  cases found : Dict.get? world.cases being with
  | none => rfl
  | some case =>
    have flag := (followed.tracked being case found).flag
    rw [heard, Bool.not_true, Bool.and_false] at flag
    by_cases active : case.phase = .active
    · simp [active, raise, bind, Except.bind]
    · have none_made := List.prefix_nil.mp (made_front circumstance ([] : List (Write Time)))
      simp [active, flag, none_made, bind, Except.bind, pure, Except.pure]

/-- Every case has an initiator with a name. -/
def Initiated (world : World Time) : Prop :=
  ∀ being case, Dict.get? world.cases being = some case → ∃ name, case.initiator = some name ∧ name ≠ []

theorem initiator_foldl {events : List (Event Time)} (kept : ∀ event ∈ events, event.isContain = false) :
    (events.foldl Case.apply case).initiator = case.initiator := by
  induction events generalizing case with
  | nil => rfl
  | cons event rest ih =>
    rw [List.foldl_cons, ih (fun other member => kept other (List.mem_cons_of_mem _ member)),
      initiator_apply case (kept event List.mem_cons_self)]

theorem initiated_step {action : Action Time} (followed : Followed world) (initiated : Initiated world)
    (dear : Dear setting world action) : Initiated (step crypto setting world action) := by
  refine step_kept initiated ?_ ?_ ?_ ?_
  · intro cases replayed
    obtain rfl := Except.ok.inj (followed.replayed.symm.trans replayed)
    exact initiated
  · exact fun _ _ => initiated
  · intro event before ordered _ applied
    refine cases_set initiated ?_
    cases ordered
    exact ⟨_, rfl, dear⟩
  · rintro circumstance call being case list rfl opened acts
    refine cases_set initiated ?_
    obtain ⟨name, initiates, named⟩ := initiated being case opened.found
    refine ⟨name, ?_, named⟩
    rw [initiator_foldl, initiates]
    intro event member
    obtain ⟨write, inside, shape⟩ := List.mem_filterMap.mp member
    cases write with
    | event other =>
      obtain rfl := Option.some.inj shape
      exact acts.kept ((made_front circumstance _).subset inside)
    | slash => cases shape

/-- A release in the episode of an initiator who did not qualify brings the dear slash. -/
theorem dear_settled (registry : setting.registry) (tracked : Tracked log case) {name : Str}
    (initiates : case.initiator = some name) (named : name ≠ []) (low : lowTrust log)
    (dear : case.owes → circumstance.cut ≠ some 0 → circumstance.cut ≠ some 1 ∧ confirmed log = false)
    {t : Time} {other : Str} {target : Option Str}
    (released : .release t other triggerUnsupported target ∈
      (circumstance.later (settle setting circumstance being case)).filterMap Write.event?) :
    other = being ∧ ∃ slash,
      (circumstance.later (settle setting circumstance being case)).filterMap Write.slash? = [slash] ∧
      slash.objectId = name ∧ slash.reason = falseContainment being ∧ slash.penaltyMult = setting.lowTrustMult := by
  have settling := settled setting circumstance being case
  generalize settle setting circumstance being case = list at settling released
  have none_made := List.prefix_nil.mp (later_front circumstance ([] : List (Write Time)))
  cases settling with
  | outside =>
    rw [none_made] at released
    cases released
  | stays =>
    rw [none_made] at released
    cases released
  | corroborates =>
    obtain ⟨write, inside, shape⟩ := List.mem_filterMap.mp released
    obtain rfl := List.mem_singleton.mp ((later_front circumstance _).subset inside)
    cases shape
  | releases held unsupported =>
    have begun : circumstance.cut ≠ some 0 := by
      intro cut
      rw [Circumstance.later, cut] at released
      cases released
    obtain ⟨uncut, free⟩ := dear (owes_iff.mpr ⟨held, unsupported⟩) begun
    obtain ⟨flag, _⟩ := unconfirmed_of_flag tracked low free
    have list : releaseFalse setting circumstance being case =
        [.event (.release (circumstance.now 1) being triggerUnsupported case.initiator), .slash {
          t := circumstance.now 2, objectId := name, reason := falseContainment being
          penaltyMult := setting.lowTrustMult }] := by
      simp [releaseFalse, initiates, registry, named, flag]
    have all : circumstance.later (releaseFalse setting circumstance being case) =
        releaseFalse setting circumstance being case := by
      rcases later_two length_releaseFalse uncut with none_left | all
      · rw [none_left] at released
        cases released
      · exact all
    rw [all, list] at released ⊢
    obtain ⟨_, rfl, _⟩ := Event.release.inj (List.mem_singleton.mp released)
    exact ⟨rfl, _, rfl, rfl, rfl, rfl⟩

/-- The writes of a call about an open case, and the slash that a release among them brings. -/
theorem dear_acts {call : Call} {list : List (Write Time)} (registry : setting.registry) (followed : Followed world)
    (initiated : Initiated world) (dear : Dear setting world (.call circumstance call)) (opened : Opened world being case)
    (acts : Acts setting circumstance being case call list) {t : Time} {other : Str} {target : Option Str}
    (low : lowTrust (ofBeing other world.journal))
    (released : .release t other triggerUnsupported target ∈ (circumstance.made list).filterMap Write.event?) :
    ∃ initiator slash, latest Event.initiator? (ofBeing other world.journal) = some initiator ∧
      (circumstance.made list).filterMap Write.slash? = [slash] ∧ slash.objectId = initiator ∧
      slash.reason = falseContainment other ∧ slash.penaltyMult = setting.lowTrustMult := by
  have tracked := followed.tracked being case opened.found
  have reflects := reflects_of_replay followed.replayed opened.found
  obtain ⟨name, initiates, named⟩ := initiated being case opened.found
  have settles (first : Event Time) (about : first.being = being) (kept : first.isContain = false)
      (ordinary : ∀ t other target, first ≠ .release t other triggerUnsupported target)
      (paid : (case.apply first).owes → lowTrust (ofBeing being world.journal) → circumstance.cut ≠ some 0 →
        circumstance.cut ≠ some 1 ∧ confirmed (ofBeing being world.journal ++ [first]) = false)
      (released : .release t other triggerUnsupported target ∈ (circumstance.made (.event first ::
        settle setting circumstance being (case.apply first))).filterMap Write.event?) :
      ∃ initiator slash, latest Event.initiator? (ofBeing other world.journal) = some initiator ∧
        (circumstance.made (.event first :: settle setting circumstance being (case.apply first))).filterMap
          Write.slash? = [slash] ∧ slash.objectId = initiator ∧
        slash.reason = falseContainment other ∧ slash.penaltyMult = setting.lowTrustMult := by
    have same : other = being := by
      obtain ⟨write, inside, shape⟩ := List.mem_filterMap.mp released
      cases write with
      | slash => cases shape
      | event event =>
        obtain rfl := Option.some.inj shape
        rcases List.mem_cons.mp ((made_front circumstance _).subset inside) with first | later
        · exact absurd (Write.event.inj first).symm (ordinary _ _ _)
        · exact own_of_settled (settled ..) later
    subst same
    rw [made_later] at released ⊢
    rw [events_cons] at released
    rcases List.mem_cons.mp released with this | later
    · exact absurd this.symm (ordinary _ _ _)
    · have after : (case.apply first).initiator = some name := (initiator_apply case kept).trans initiates
      obtain ⟨_, slash, slashed, object, reason, price⟩ := dear_settled registry (tracked.snoc kept) after named
        (by rw [lowTrust_snoc kept]; exact low) (fun owes => paid owes low) later
      exact ⟨name, slash, by rw [← reflects.initiator, initiates], slashed, object, reason, price⟩
  have single {event : Event Time} (ordinary : ∀ t other target, event ≠ .release t other triggerUnsupported target)
      (released : .release t other triggerUnsupported target ∈ (circumstance.made [.event event]).filterMap Write.event?) :
      False := by
    rw [made_singleton] at released
    exact ordinary _ _ _ (List.mem_singleton.mp released).symm
  cases acts with
  | verify => exact settles _ rfl rfl (by simp [finding]) (dear case opened.found) released
  | resolveChallenge =>
    rename_i cid upheld
    refine settles _ rfl rfl (by simp) (fun owes low begun => ?_) released
    rw [owes_ruled] at owes
    rw [confirmed_snoc rfl]
    simpa [Event.confirms] using dear case opened.found owes low begun
  | lapses =>
    refine (single (fun _ _ _ same => ?_) released).elim
    have grounds := (Event.release.inj same).2.2.1
    exact absurd grounds (by decide)
  | _ => exact (single (by simp) released).elim

theorem dear_step {action : Action Time} (registry : setting.registry) (followed : Followed world)
    (initiated : Initiated world) (dear : Dear setting world action) {being : Str} {t : Time} {target : Option Str}
    {events : List (Event Time)} (low : lowTrust (ofBeing being world.journal))
    (grown : (step crypto setting world action).journal = world.journal ++ events)
    (released : .release t being triggerUnsupported target ∈ events) : ∃ initiator slash,
      latest Event.initiator? (ofBeing being world.journal) = some initiator ∧
      (step crypto setting world action).slashes = world.slashes ++ [slash] ∧ slash.objectId = initiator ∧
      slash.reason = falseContainment being ∧ slash.penaltyMult = setting.lowTrustMult := by
  have still {after : World Time} (same : after.journal = world.journal) (grown : after.journal = world.journal ++ events) :
      False := by
    have empty := List.self_eq_append_right.mp (same.symm.trans grown)
    rw [empty] at released
    cases released
  revert grown
  refine @step_kept _ crypto setting world (fun after => after.journal = world.journal ++ events → ∃ initiator slash,
    latest Event.initiator? (ofBeing being world.journal) = some initiator ∧ after.slashes = world.slashes ++ [slash] ∧
    slash.objectId = initiator ∧ slash.reason = falseContainment being ∧ slash.penaltyMult = setting.lowTrustMult)
    action ?_ ?_ ?_ ?_ ?_
  · exact fun grown => (still rfl grown).elim
  · exact fun _ _ grown => (still rfl grown).elim
  · exact fun _ _ grown => (still rfl grown).elim
  · intro event before ordered _ _ grown
    obtain rfl := List.append_cancel_left grown
    cases ordered
    cases List.mem_singleton.mp released
  · rintro circumstance call other case list rfl opened acts grown
    obtain rfl := List.append_cancel_left grown
    obtain ⟨initiator, slash, started, slashed, rest⟩ :=
      dear_acts registry followed initiated dear opened acts low released
    exact ⟨initiator, slash, started, by rw [← slashed]; rfl, rest⟩

theorem treated_step {action : Action Time} (registry : setting.registry) (followed : Followed world)
    (initiated : Initiated world) (dear : Dear setting world action) : Treated crypto setting world action where
  dear _ _ _ _ low grown released := dear_step registry followed initiated dear low grown released
  lapses circumstance being start same low free contained started late := by
    subst same
    obtain ⟨case, found, moved⟩ := @lapses_step _ crypto setting circumstance world being followed low free contained _
      started late
    rw [moved]
    refine ⟨rfl, by simp [World.write, Write.slash?], ?_⟩
    rw [stateOf, World.write, Dict.get?_set_self]
    rfl
  stands circumstance being same heard := by
    subst same
    exact stands_step followed heard

/-- While initiators have names, and no release in the episode of one who did not qualify is cut off from its
slash or comes after a qualified supported finding, such an order lapses unless it is confirmed, and costs its
initiator the dear slash when it is false. -/
theorem provisional_dear {crypto : Crypto} {setting : Setting Time} (registry : setting.registry)
    {actions : List (Action Time)} (dear : Run.Along (step crypto setting) (Dear setting) {} actions) :
    Run.Along (step crypto setting) (Treated crypto setting) {} actions := by
  have start : Followed ({} : World Time) ∧ Initiated ({} : World Time) := ⟨⟨rfl, by simp⟩, by simp [Initiated]⟩
  have kept (world : World Time) (action : Action Time) (good : Followed world ∧ Initiated world)
      (dear : Dear setting world action) :
      Followed (step crypto setting world action) ∧ Initiated (step crypto setting world action) :=
    ⟨followed_step good.1, initiated_step good.1 good.2 dear⟩
  exact Run.along_of_invariant kept (fun _ _ good dear => treated_step registry good.1 good.2 dear) start dear

/-- A circumstance in which one node does not qualify. -/
def Circumstance.but (node : Str) (supported : Bool) : Circumstance Nat where
  now _ := 10
  resolve _ := supported
  qualifies other _ := other ≠ node

def sampleProvisional : Action Nat := .call (.but "i" true) (.contain "b" ["e"] "r" "global" (some "i"))

theorem provisional_dear_sample : Run.Along (step Crypto.sample .sample) (Treated Crypto.sample .sample) {}
    [sampleProvisional, sampleVerify "v" false none] :=
  provisional_dear rfl (by decide +kernel)

/-- A qualified finding first supports the order, another speaks against it, and the slash is the ordinary
one. -/
theorem provisional_cheap : ¬ ∀ actions : List (Action Nat),
    Run.Along (step Crypto.sample .sample) (Treated Crypto.sample .sample) {} actions := by
  intro always
  obtain ⟨_, _, treated, _⟩ := always [sampleProvisional, sampleVerify "v" true none, sampleVerify "w" false none]
  obtain ⟨_, slash, _, slashed, _, _, price⟩ := treated.dear "b" 10 (some "i")
    [.verify 10 "b" "w" false true, .release 10 "b" triggerUnsupported (some "i")] (by decide +kernel) (by decide +kernel)
    (by decide)
  have prices := congrArg (List.map Slash.penaltyMult) slashed
  rw [List.map_append, List.map_singleton, price] at prices
  revert prices
  decide +kernel

end JJDai.Containment
