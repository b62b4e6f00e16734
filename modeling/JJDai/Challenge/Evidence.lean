import JJDai.Challenge.Conviction

/-! Challenge events and their records: which rounds, reveals and frauds stand on the
chain, and which verifiers are slashed for them. -/

namespace JJDai.Challenge

open PyText Canonical

def challengeDigest : Json → Option (Dict Str Json)
  | .obj fields =>
    if Dict.get? fields "kind" = some (.str challengeKind) then
      match Dict.get? fields "semantic_digest" with
      | some (.obj digest) => some digest
      | _ => none
    else none
  | _ => none

def digests (records : List Json) : List (Dict Str Json) := records.filterMap challengeDigest

def hasPhase (phase : Str) (digest : Dict Str Json) : Bool :=
  decide (Dict.get? digest "phase" = some (.str phase))

structure OpenRecord (key : Json) (digest : Dict Str Json) : Prop where
  phase : hasPhase "open" digest
  round : (Dict.get? digest "round_id").map Json.comparisonKey = some key

structure RevealRecord (key : Json) (name : Str) (verdict : Json) (digest : Dict Str Json) : Prop where
  phase : hasPhase "reveal" digest
  round : (Dict.get? digest "round_id").map Json.comparisonKey = some key
  verifier : Dict.get? digest "verifier" = some (.str name)
  verdict : Dict.get? digest "verdict" = some verdict

theorem digests_challenge {crypto : Crypto} {chain : WitnessChain} {call : AppendCall}
    {appended : Appended} (made : chain.append crypto call = .ok appended)
    (challenge : call.kind = challengeKind) {held : Dict Str Json}
    (carried : call.semanticDigest = .obj held) :
    digests appended.chain.records = digests chain.records ++ [held] := by
  obtain ⟨grown, kind, digest⟩ := WitnessChain.append_adds made
  obtain ⟨fields, same⟩ := obj_of_subscript kind
  rw [same, subscript_obj] at kind digest
  rw [challenge] at kind
  rw [carried] at digest
  rw [grown, digests, List.filterMap_append, same]
  simp [challengeDigest, kind, digest, digests]

theorem digests_other {crypto : Crypto} {chain : WitnessChain} {call : AppendCall}
    {appended : Appended} (made : chain.append crypto call = .ok appended)
    (other : call.kind ≠ challengeKind) :
    digests appended.chain.records = digests chain.records := by
  obtain ⟨grown, kind, _⟩ := WitnessChain.append_adds made
  obtain ⟨fields, same⟩ := obj_of_subscript kind
  rw [same, subscript_obj] at kind
  rw [grown, digests, List.filterMap_append, same]
  simp [challengeDigest, kind, other, digests]

/-- A state with the reveals so far that did not open their commitment. -/
structure Audited (Time : Type) where
  state : State Time
  mismatches : List (Json × Fraud Time) := []

variable {Time : Type} [LT Time] [DecidableLT Time] (crypto : Crypto) (setting : Setting Time)

def mismatch (state : State Time) (now : Time) : Call → List (Json × Fraud Time)
  | .reveal roundId verifier verdict salt =>
    match judge crypto state now roundId verifier verdict salt with
    | .ok (.mismatched key _ fraud) => [(key, fraud)]
    | _ => []
  | _ => []

def audit (audited : Audited Time) (action : Action Time) : Audited Time where
  state := step crypto setting audited.state action
  mismatches := audited.mismatches ++
    match action with
    | .call circumstance call => mismatch crypto audited.state circumstance.now call
    | .record _ _ => []

/-- The writes of a deed's record succeed and the chain takes the record. -/
def Lands (state : State Time) (circumstance : Circumstance Time) (deed : Deed Time) : Prop :=
  (deed.logs → circumstance.logged) ∧ circumstance.written ∧
    (state.chain.append crypto (recordCall deed.digest circumstance.salt)).isOk

/-- A round that is opened, a reveal and a fraud get their records, and there is a registry
for the fraud. -/
def Recorded (audited : Audited Time) : Action Time → Prop
  | .call circumstance (.openRound roundId transcript eligible k) => ∀ deed,
      openRound crypto setting audited.state circumstance.now roundId transcript eligible k = .ok deed →
      Lands crypto audited.state circumstance deed
  | .call circumstance (.reveal roundId verifier verdict salt) =>
      (∀ key round name, judge crypto audited.state circumstance.now roundId verifier verdict salt =
          .ok (.opened key round name) →
        Lands crypto audited.state circumstance (publish key round roundId name verdict salt)) ∧
      ∀ key round fraud, judge crypto audited.state circumstance.now roundId verifier verdict salt =
          .ok (.mismatched key round fraud) →
        setting.registry ∧ Lands crypto audited.state circumstance (accuse setting key round fraud)
  | _ => True

instance (state : State Time) (circumstance : Circumstance Time) (deed : Deed Time) :
    Decidable (Lands crypto state circumstance deed) :=
  inferInstanceAs (Decidable (_ ∧ _ ∧ _))

def recordedTest (audited : Audited Time) : Action Time → Bool
  | .call circumstance (.openRound roundId transcript eligible k) =>
    match openRound crypto setting audited.state circumstance.now roundId transcript eligible k with
    | .ok deed => decide (Lands crypto audited.state circumstance deed)
    | .error _ => true
  | .call circumstance (.reveal roundId verifier verdict salt) =>
    match judge crypto audited.state circumstance.now roundId verifier verdict salt with
    | .ok (.opened key round name) =>
      decide (Lands crypto audited.state circumstance (publish key round roundId name verdict salt))
    | .ok (.mismatched key round fraud) => setting.registry &&
      decide (Lands crypto audited.state circumstance (accuse setting key round fraud))
    | _ => true
  | _ => true

theorem recordedTest_iff (audited : Audited Time) (action : Action Time) :
    recordedTest crypto setting audited action = true ↔ Recorded crypto setting audited action := by
  cases action with
  | record call other => simp [recordedTest, Recorded]
  | call circumstance call =>
    cases call with
    | openRound roundId transcript eligible k =>
      simp only [recordedTest, Recorded]
      cases made : openRound crypto setting audited.state circumstance.now roundId transcript eligible k with
      | error e => simp
      | ok deed => simp
    | reveal roundId verifier verdict salt =>
      simp only [recordedTest, Recorded]
      cases judged : judge crypto audited.state circumstance.now roundId verifier verdict salt with
      | error e => simp
      | ok judgement =>
        cases judgement with
        | late key round name => simp
        | mismatched key round fraud => simp [and_imp]
        | opened key round name => simp
    | _ => simp [recordedTest, Recorded]

instance (audited : Audited Time) (action : Action Time) :
    Decidable (Recorded crypto setting audited action) :=
  decidable_of_iff _ (recordedTest_iff crypto setting audited action)

def fraudsOf (key : Json) (mismatches : List (Json × Fraud Time)) : List (Fraud Time) :=
  mismatches.filterMap (fun entry => if entry.1 = key then some entry.2 else none)

/-- Every round is on the chain, every reveal that is held or counted is, and each mismatch
has one fraud entry, one fraud record and one slash. -/
structure Evidence (audited : Audited Time) : Prop where
  opened : ∀ key round, Dict.get? audited.state.rounds key = some round →
    ∃ digest ∈ digests audited.state.chain.records, OpenRecord key digest
  revealed : ∀ key round, Dict.get? audited.state.rounds key = some round →
    ∀ name reveal, Dict.get? round.reveals name = some reveal →
      ∃ digest ∈ digests audited.state.chain.records, RevealRecord key name reveal.verdict digest
  counted : ∀ key round, Dict.get? audited.state.rounds key = some round →
    ∀ summary, round.resolved = some summary → ∀ name ∈ summary.revealed,
      ∃ digest ∈ digests audited.state.chain.records, ∃ verdict, RevealRecord key name verdict digest
  frauds : ∀ key round, Dict.get? audited.state.rounds key = some round →
    round.frauds = fraudsOf key audited.mismatches
  known : ∀ entry ∈ audited.mismatches, (Dict.get? audited.state.rounds entry.1).isSome
  fraudRecords : ((digests audited.state.chain.records).filter (hasPhase "fraud")).map Json.obj =
    audited.mismatches.map (fun entry => fraudDigest setting entry.2)
  slashed : audited.state.slashed = audited.mismatches.map (fun entry => entry.2.verifier)

/-- What the chain and the mismatches hold of one round. -/
structure Noted (held : List (Dict Str Json)) (mismatches : List (Json × Fraud Time)) (key : Json)
    (round : Round Time) : Prop where
  opened : ∃ digest ∈ held, OpenRecord key digest
  revealed : ∀ name reveal, Dict.get? round.reveals name = some reveal →
    ∃ digest ∈ held, RevealRecord key name reveal.verdict digest
  counted : ∀ summary, round.resolved = some summary → ∀ name ∈ summary.revealed,
    ∃ digest ∈ held, ∃ verdict, RevealRecord key name verdict digest
  frauds : round.frauds = fraudsOf key mismatches

variable {crypto} {setting} {held more : List (Dict Str Json)} {mismatches : List (Json × Fraud Time)}
  {key : Json} {round : Round Time}

omit [LT Time] [DecidableLT Time] in
theorem Noted.grow (noted : Noted held mismatches key round) (grown : held ⊆ more) :
    Noted more mismatches key round where
  opened := by
    obtain ⟨digest, member, opens⟩ := noted.opened
    exact ⟨digest, grown member, opens⟩
  revealed name reveal found := by
    obtain ⟨digest, member, reveals⟩ := noted.revealed name reveal found
    exact ⟨digest, grown member, reveals⟩
  counted summary resolved name member := by
    obtain ⟨digest, stands, verdict, reveals⟩ := noted.counted summary resolved name member
    exact ⟨digest, grown stands, verdict, reveals⟩
  frauds := noted.frauds

omit [LT Time] [DecidableLT Time] in
theorem fraudsOf_append (key : Json) (mismatches : List (Json × Fraud Time)) (other : Json)
    (fraud : Fraud Time) : fraudsOf key (mismatches ++ [(other, fraud)]) =
      fraudsOf key mismatches ++ if other = key then [fraud] else [] := by
  by_cases same : other = key
  · simp [fraudsOf, same]
  · simp [fraudsOf, same]

omit [LT Time] [DecidableLT Time] in
theorem fraudsOf_absent (absent : ∀ entry ∈ mismatches, entry.1 ≠ key) :
    fraudsOf key mismatches = [] := by
  simpa [fraudsOf] using absent

theorem tally_revealed {roundId : Json} {seats : List Str} {reveals : Dict Str Reveal}
    {cheats : List Str} {summary : Summary}
    (tallied : tally crypto roundId seats reveals cheats = .ok summary) {name : Str}
    (counted : name ∈ summary.revealed) : ∃ reveal, Dict.get? reveals name = some reveal := by
  simp only [tally, bind, Py.bind_ok] at tallied
  obtain ⟨votes, _, made⟩ := tallied
  obtain rfl := Except.ok.inj made
  have valid : name ∈ Dict.keys (validReveals reveals cheats) := by
    simpa [sortStrs] using counted
  simp only [validReveals, Dict.keys, List.map_map, List.mem_map, List.mem_filter] at valid
  obtain ⟨entry, ⟨member, _⟩, rfl⟩ := valid
  have present : entry.1 ∈ Dict.keys reveals := List.mem_map_of_mem member
  exact Option.isSome_iff_exists.mp (Dict.mem_keys.mp present)

omit [LT Time] [DecidableLT Time] in
theorem Noted.act (noted : Noted held mismatches key round) {other : Round Time}
    (reveals : other.reveals = round.reveals) (resolved : other.resolved = round.resolved)
    (frauds : other.frauds = round.frauds) : Noted held mismatches key other where
  opened := noted.opened
  revealed := by
    rw [reveals]
    exact noted.revealed
  counted := by
    rw [resolved]
    exact noted.counted
  frauds := frauds.trans noted.frauds

omit [LT Time] [DecidableLT Time] in
theorem Noted.reveal (noted : Noted held mismatches key round) {name : Str} {verdict salt : Json}
    {digest : Dict Str Json} (record : RevealRecord key name verdict digest) :
    Noted (held ++ [digest]) mismatches key
      { round with reveals := Dict.set round.reveals name ⟨verdict, salt⟩ } where
  opened := (noted.grow (List.subset_append_left held [digest])).opened
  revealed other reveal found := by
    rw [Dict.get?_set] at found
    split at found
    · rename_i same
      obtain rfl := Option.some.inj found
      exact ⟨digest, List.mem_append_right _ (List.mem_singleton_self _), same ▸ record⟩
    · exact (noted.grow (List.subset_append_left held [digest])).revealed other reveal found
  counted := (noted.grow (List.subset_append_left held [digest])).counted
  frauds := noted.frauds

omit [LT Time] [DecidableLT Time] in
theorem Noted.settle (noted : Noted held mismatches key round) {summary : Summary}
    (counted : ∀ {name}, name ∈ summary.revealed → ∃ reveal, Dict.get? round.reveals name = some reveal) :
    Noted held mismatches key { round with resolved := some summary } where
  opened := noted.opened
  revealed := noted.revealed
  counted other same name member := by
    obtain rfl := Option.some.inj same
    obtain ⟨reveal, found⟩ := counted member
    obtain ⟨digest, stands, reveals⟩ := noted.revealed name reveal found
    exact ⟨digest, stands, reveal.verdict, reveals⟩
  frauds := noted.frauds

omit [LT Time] [DecidableLT Time] in
theorem key_of_keyed {roundId : Json} (keyed : roundKey roundId = .ok key) :
    roundId.comparisonKey = key := by
  simp only [roundKey, bind, Py.unless_ok] at keyed
  exact Except.ok.inj keyed.2

variable {audited : Audited Time}

omit [LT Time] [DecidableLT Time] in
theorem Evidence.noted (evidence : Evidence setting audited)
    (found : Dict.get? audited.state.rounds key = some round) :
    Noted (digests audited.state.chain.records) audited.mismatches key round where
  opened := evidence.opened key round found
  revealed := evidence.revealed key round found
  counted := evidence.counted key round found
  frauds := evidence.frauds key round found

omit [LT Time] [DecidableLT Time] in
theorem evidence_of_noted
    (noted : ∀ key round, Dict.get? audited.state.rounds key = some round →
      Noted (digests audited.state.chain.records) audited.mismatches key round)
    (known : ∀ entry ∈ audited.mismatches, (Dict.get? audited.state.rounds entry.1).isSome)
    (fraudRecords : ((digests audited.state.chain.records).filter (hasPhase "fraud")).map Json.obj =
      audited.mismatches.map (fun entry => fraudDigest setting entry.2))
    (slashed : audited.state.slashed = audited.mismatches.map (fun entry => entry.2.verifier)) :
    Evidence setting audited where
  opened key round found := (noted key round found).opened
  revealed key round found := (noted key round found).revealed
  counted key round found := (noted key round found).counted
  frauds key round found := (noted key round found).frauds
  known := known
  fraudRecords := fraudRecords
  slashed := slashed

omit [LT Time] [DecidableLT Time] in
theorem isSome_set {rounds : Dict Json (Round Time)} {other : Json}
    (present : (Dict.get? rounds other).isSome) (key : Json) (round : Round Time) :
    (Dict.get? (Dict.set rounds key round) other).isSome := by
  rw [Dict.get?_set]
  split
  · rfl
  · exact present

omit [LT Time] [DecidableLT Time] in
/-- A deed that accuses nobody keeps the evidence, given what it stores before its record
and after. -/
theorem evidence_performed {circumstance : Circumstance Time} {deed : Deed Time}
    {outcome : State Time × Py Json} (evidence : Evidence setting audited)
    (performed : Performed crypto audited.state circumstance deed outcome)
    (stored : ¬Lands crypto audited.state circumstance deed →
      Noted (digests audited.state.chain.records) audited.mismatches deed.key deed.round)
    {fields : Dict Str Json} (digest : deed.digest = .obj fields)
    (peaceful : hasPhase "fraud" fields = false) (free : deed.slash = [])
    (later : ∀ index, Noted (digests audited.state.chain.records ++ [fields]) audited.mismatches
      deed.key (deed.later index)) :
    Evidence setting ⟨outcome.1, audited.mismatches⟩ := by
  have old : ∀ key round, Dict.get? audited.state.rounds key = some round → _ :=
    fun _ _ => evidence.noted
  cases performed with
  | stopped e refused =>
    exact evidence_of_noted (rounds_set old (stored refused))
      (fun entry member => isSome_set (evidence.known entry member) _ _) evidence.fraudRecords
      evidence.slashed
  | completed appended logged written recorded =>
    have grown := digests_challenge recorded rfl digest
    refine evidence_of_noted ?_ ?_ ?_ ?_
    · dsimp only
      rw [grown]
      exact rounds_set (fun key round found => (old key round found).grow (by simp)) (later _)
    · exact fun entry member => isSome_set (evidence.known entry member) _ _
    · dsimp only
      rw [grown, List.filter_append, List.map_append, evidence.fraudRecords]
      simp [peaceful]
    · simpa [free] using evidence.slashed

theorem found_of_mismatched {state : State Time} {now : Time} {roundId verifier verdict salt : Json}
    {fraud : Fraud Time} (judged : judge crypto state now roundId verifier verdict salt =
      .ok (.mismatched key round fraud)) : Found state roundId key round := by
  simp only [judge, bind, Py.bind_ok] at judged
  obtain ⟨other, keyed, stored, found, looked, lookedUp, judged⟩ := judged
  have found := found_of_ok keyed found
  cases looked with
  | none => cases judged
  | some entry =>
    dsimp only at judged
    split at judged
    · cases judged
    · obtain ⟨expect, _, judged⟩ := Py.bind_ok.mp judged
      split at judged
      · obtain ⟨rfl, rfl, rfl⟩ := Judgement.mismatched.inj (Except.ok.inj judged)
        exact found
      · cases judged

omit [LT Time] [DecidableLT Time] in
theorem evidence_accused {circumstance : Circumstance Time} {fraud : Fraud Time}
    (evidence : Evidence setting audited) (held : Dict.get? audited.state.rounds key = some round)
    (registry : setting.registry)
    (lands : Lands crypto audited.state circumstance (accuse setting key round fraud)) :
    Evidence setting ⟨(perform crypto audited.state circumstance (accuse setting key round fraud)).1,
      audited.mismatches ++ [(key, fraud)]⟩ := by
  have done := performed crypto audited.state circumstance (accuse setting key round fraud)
  generalize perform crypto audited.state circumstance (accuse setting key round fraud) = outcome
    at done ⊢
  cases done with
  | stopped e refused => exact absurd lands refused
  | completed appended logged written recorded =>
    have grown := digests_challenge recorded rfl rfl
    have more : digests audited.state.chain.records ⊆ digests appended.chain.records := by
      rw [grown]
      exact List.subset_append_left _ _
    refine evidence_of_noted ?_ ?_ ?_ ?_
    · intro other stored found
      dsimp only at found ⊢
      rw [Dict.get?_set] at found
      split at found
      · rename_i same
        obtain rfl := Option.some.inj found
        obtain rfl : key = other := same
        have before := (evidence.noted held).grow more
        refine ⟨before.opened, before.revealed, before.counted, ?_⟩
        rw [fraudsOf_append, if_pos rfl, ← before.frauds]
        rfl
      · rename_i different
        have different : key ≠ other := different
        have before := (evidence.noted found).grow more
        refine ⟨before.opened, before.revealed, before.counted, ?_⟩
        rw [fraudsOf_append, if_neg different, List.append_nil]
        exact before.frauds
    · intro entry member
      rcases List.mem_append.mp member with member | member
      · exact isSome_set (evidence.known entry member) _ _
      · obtain rfl := List.mem_singleton.mp member
        simp [accuse]
    · dsimp only
      rw [grown, List.filter_append, List.map_append, evidence.fraudRecords, List.map_append]
      rfl
    · simpa [accuse, registry] using evidence.slashed

/-- A call whose reveal does not open its commitment is an accusation; no other call is. -/
theorem mismatch_cases (crypto : Crypto) (setting : Setting Time) (state : State Time)
    (circumstance : Circumstance Time) (call : Call) :
    mismatch crypto state circumstance.now call = [] ∨
      ∃ roundId verifier verdict salt key round fraud,
        call = .reveal roundId verifier verdict salt ∧
        judge crypto state circumstance.now roundId verifier verdict salt =
          .ok (.mismatched key round fraud) ∧
        mismatch crypto state circumstance.now call = [(key, fraud)] ∧
        invoke crypto setting state circumstance call =
          perform crypto state circumstance (accuse setting key round fraud) := by
  cases call with
  | reveal roundId verifier verdict salt =>
    simp only [mismatch]
    split
    · rename_i key round fraud judged
      refine Or.inr ⟨_, _, _, _, key, round, fraud, rfl, judged, rfl, ?_⟩
      simp only [invoke, decideCall, reveal, bind, judged, Except.bind]
      rfl
    · exact Or.inl rfl
  | _ => exact Or.inl rfl

omit [LT Time] [DecidableLT Time] in
theorem evidence_other (evidence : Evidence setting audited) {call : AppendCall} {appended : Appended}
    (other : call.kind ≠ challengeKind)
    (made : audited.state.chain.append crypto call = .ok appended) :
    Evidence setting ⟨{ audited.state with chain := appended.chain }, audited.mismatches⟩ := by
  have same := digests_other made other
  refine evidence_of_noted ?_ evidence.known ?_ evidence.slashed
  · dsimp only
    rw [same]
    exact fun _ _ => evidence.noted
  · dsimp only
    rw [same]
    exact evidence.fraudRecords

theorem evidence_decided {circumstance : Circumstance Time} {call : Call} {deed : Deed Time}
    {outcome : State Time × Py Json} (evidence : Evidence setting audited)
    (recorded : Recorded crypto setting audited (.call circumstance call))
    (quiet : mismatch crypto audited.state circumstance.now call = [])
    (decided : Decided crypto setting audited.state circumstance.now call deed)
    (performed : Performed crypto audited.state circumstance deed outcome) :
    Evidence setting ⟨outcome.1, audited.mismatches⟩ := by
  have old : ∀ {roundId key round}, Found audited.state roundId key round →
      Noted (digests audited.state.chain.records) audited.mismatches key round :=
    fun found => evidence.noted found.held
  have later : ∀ {roundId key round} fields, Found audited.state roundId key round →
      Noted (digests audited.state.chain.records ++ [fields]) audited.mismatches key round :=
    fun _ found => (old found).grow (List.subset_append_left _ _)
  cases decided with
  | @opened roundId transcript key eligible k round keyed unused fresh _ _ answers =>
    refine evidence_performed evidence performed (absurd (recorded _ answers)) rfl rfl rfl
      (fun _ => ⟨⟨_, List.mem_append_right _ (List.mem_singleton_self _), rfl, ?_⟩, ?_, ?_, ?_⟩)
    · exact congrArg some (key_of_keyed keyed)
    · simp [openDeed, fresh.reveals]
    · simp [openDeed, fresh.resolved]
    · simp only [openDeed, fresh.frauds]
      refine (fraudsOf_absent (fun entry member same => ?_)).symm
      have present := evidence.known entry member
      simp only [same, unused] at present
      cases present
  | seatRefused found =>
    exact evidence_performed evidence performed (fun _ => old found) rfl rfl rfl (fun _ => later _ found)
  | commitRefused found =>
    exact evidence_performed evidence performed (fun _ => old found) rfl rfl rfl (fun _ => later _ found)
  | late found =>
    exact evidence_performed evidence performed (fun _ => old found) rfl rfl rfl (fun _ => later _ found)
  | seated found =>
    refine evidence_performed evidence performed (fun _ => old found) rfl rfl rfl (fun _ => ?_)
    simp only [seatDeed]
    split
    · exact (later _ found).act rfl rfl rfl
    · exact later _ found
  | committed found =>
    exact evidence_performed evidence performed (fun _ => old found) rfl rfl rfl
      (fun _ => (later _ found).act rfl rfl rfl)
  | mismatched found held inTime made differs judged =>
    simp only [mismatch, judged] at quiet
    cases quiet
  | published found inTime judged =>
    refine evidence_performed evidence performed (absurd (recorded.1 _ _ _ judged)) rfl rfl rfl
      (fun _ => (old found).reveal ⟨rfl, congrArg some (key_of_keyed found.keyed), rfl, rfl⟩)
  | resolved found pending due tallied =>
    exact evidence_performed evidence performed (fun _ => (old found).settle (tally_revealed tallied))
      rfl rfl rfl (fun _ => (later _ found).settle (tally_revealed tallied))

theorem evidence_step {action : Action Time} (evidence : Evidence setting audited)
    (recorded : Recorded crypto setting audited action) :
    Evidence setting (audit crypto setting audited action) := by
  have others : ∀ (call : AppendCall) appended, call.kind ≠ challengeKind →
      audited.state.chain.append crypto call = .ok appended →
      Evidence setting ⟨{ audited.state with chain := appended.chain }, audited.mismatches⟩ :=
    fun _ _ => evidence_other evidence
  have quiet : (∀ circumstance call, action = .call circumstance call →
        mismatch crypto audited.state circumstance.now call = []) →
      Evidence setting ⟨step crypto setting audited.state action, audited.mismatches⟩ := by
    intro quiet
    refine @step_kept _ _ _ crypto setting (fun state => Evidence setting ⟨state, audited.mismatches⟩)
      _ _ evidence ?_ others
    rintro circumstance call deed outcome rfl decided performed
    exact evidence_decided evidence recorded (quiet _ _ rfl) decided performed
  cases action with
  | record call other =>
    simp only [audit, List.append_nil]
    exact quiet (fun _ _ same => by cases same)
  | call circumstance call =>
    rcases mismatch_cases crypto setting audited.state circumstance call with
      none_made | ⟨_, _, _, _, key, round, fraud, rfl, judged, made, invoked⟩
    · simp only [audit, none_made, List.append_nil]
      refine quiet (fun other call same => ?_)
      obtain ⟨rfl, rfl⟩ := Action.call.inj same
      exact none_made
    · simp only [audit, step, made, invoked]
      obtain ⟨registry, lands⟩ := recorded.2 _ _ _ judged
      exact evidence_accused evidence (found_of_mismatched judged).held registry lands

omit [LT Time] [DecidableLT Time] in
theorem evidence_of_starts {state : State Time} (starts : Starts state) :
    Evidence setting ⟨state, []⟩ := by
  have blank : digests state.chain.records = [] := by
    rw [digests, List.filterMap_eq_nil_iff]
    intro record member
    obtain ⟨fields, rfl, other⟩ := starts.records record member
    simp [challengeDigest, other]
  refine evidence_of_noted ?_ (by simp) ?_ starts.slashed
  · simp [starts.rounds]
  · simp [blank]

/-- While every event gets its record, what takes effect is what is witnessed. -/
theorem effective_iff_witnessed {crypto : Crypto} {setting : Setting Time} {start : State Time}
    (starts : Starts start) {actions : List (Action Time)}
    (recorded : Run.Along (audit crypto setting) (Recorded crypto setting) ⟨start, []⟩ actions) :
    Evidence setting (Run.run (audit crypto setting) ⟨start, []⟩ actions) :=
  Run.invariant (fun _ _ => evidence_step) (evidence_of_starts starts) recorded

theorem effective_iff_witnessed_sample : Evidence .sample
    (Run.run (audit Crypto.sample .sample) ⟨sampleState, []⟩ (samplePlays.map Play.action)) :=
  effective_iff_witnessed starts_sample (by decide +kernel)

/-- A round is kept although the chain has refused its transcript. -/
theorem effective_unwitnessed : ¬ ∀ actions : List (Action Nat),
    Evidence .sample (Run.run (audit Crypto.sample .sample) ⟨sampleState, []⟩ actions) := by
  intro always
  have evidence := always [.call { now := 0 } (.openRound (.str "r1") (.str "free text") [("v", .str "aa")] 1)]
  have kept : (Dict.get? (Run.run (audit Crypto.sample .sample) ⟨sampleState, []⟩
      [.call { now := 0 } (.openRound (.str "r1") (.str "free text") [("v", .str "aa")] 1)]).state.rounds
        (.str "r1")).isSome = true := by
    decide +kernel
  have unrecorded : (digests (Run.run (audit Crypto.sample .sample) ⟨sampleState, []⟩
      [.call { now := 0 } (.openRound (.str "r1") (.str "free text") [("v", .str "aa")]
        1)]).state.chain.records).length = 0 := by
    decide +kernel
  obtain ⟨round, found⟩ := Option.isSome_iff_exists.mp kept
  obtain ⟨digest, member, _⟩ := evidence.opened _ round found
  rw [List.length_eq_zero_iff.mp unrecorded] at member
  cases member

end JJDai.Challenge
