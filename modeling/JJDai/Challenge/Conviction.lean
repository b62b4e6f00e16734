import JJDai.Challenge.Deeds

/-! Who can be convicted by a challenge round: by an entry of its fraud list, by a
slash, or offline by an accusation against the chain. -/

namespace JJDai.Challenge

open PyText Canonical

variable {Time : Type} (crypto : Crypto) (setting : Setting Time)

/-- A `ChallengeRound` just made, on a chain without challenge records. -/
structure Starts (state : State Time) : Prop where
  rounds : state.rounds = []
  slashed : state.slashed = []
  records : ∀ record ∈ state.chain.records, ∃ fields, record = .obj fields ∧
    Dict.get? fields "kind" ≠ some (.str challengeKind)

/-- Nothing convicts the verifier: no fraud entry, no slash, no accusation. -/
structure NeverConvicted (name : Str) (state : State Time) : Prop where
  frauds : ∀ key round, Dict.get? state.rounds key = some round →
    ∀ fraud ∈ round.frauds, fraud.verifier ≠ name
  slashed : name ∉ state.slashed
  accused : ∀ (fraud : Dict Str Json) reason, Dict.get? fraud "verifier" = some (.str name) →
    verifyFraudProof crypto fraud state.chain.records ≠ .ok (true, reason)
  acquitted : ∀ fraud : Dict Str Json, Dict.get? fraud "verifier" = some (.str name) →
    (Dict.get? fraud "round_id").isSome →
    ∃ reason, verifyFraudProof crypto fraud state.chain.records = .ok (false, reason)

/-- A commit that names the verifier finds its seat held and free of a commitment, the
window open, and the chain ready for its record. -/
def Seals [LT Time] (name : Str) (state : State Time) : Action Time → Prop
  | .call circumstance (.commit roundId verifier commitment) =>
    verifier = .str name ∧ ∃ key round, Found state roundId key round ∧
      (Dict.get? round.seats name).isSome ∧ Dict.get? round.commits name = none ∧
      ¬round.commitDeadline < circumstance.now ∧ circumstance.written ∧
      (state.chain.append crypto (recordCall (commitDeed key round roundId name commitment).digest
        circumstance.salt)).isOk
  | _ => False

/-- A round in which the verifier has no commitment and no fraud. -/
structure Clear (name : Str) (commits : Dict Str Commit) (frauds : List (Fraud Time)) : Prop where
  commits : Dict.get? commits name = none
  frauds : ∀ fraud ∈ frauds, fraud.verifier ≠ name

/-- A record that is not a commitment of the verifier. -/
def Innocent (name : Str) (record : Json) : Prop :=
  ∃ fields, record = .obj fields ∧ (Dict.get? fields "kind" = some (.str challengeKind) →
    ∃ phase rest, Dict.get? fields "semantic_digest" = some (.obj (("phase", .str phase) :: rest)) ∧
      (phase = "commit" → Dict.get? rest "verifier" ≠ some (.str name)))

structure Unsealed (name : Str) (state : State Time) : Prop where
  rounds : ∀ key round, Dict.get? state.rounds key = some round →
    Clear name round.commits round.frauds
  slashed : name ∉ state.slashed
  records : ∀ record ∈ state.chain.records, Innocent name record

variable {crypto} {setting} {name : Str} {state : State Time}

theorem unsealed_of_starts (starts : Starts state) : Unsealed name state where
  rounds := by simp [starts.rounds]
  slashed := by simp [starts.slashed]
  records record member := by
    obtain ⟨fields, rfl, other⟩ := starts.records record member
    exact ⟨fields, rfl, fun kind => absurd kind other⟩

theorem innocent_append {chain : WitnessChain} {call : AppendCall} {appended : Appended}
    (made : chain.append crypto call = .ok appended)
    (all : ∀ record ∈ chain.records, Innocent name record)
    (new : call.kind = challengeKind → ∃ phase rest,
      call.semanticDigest = .obj (("phase", .str phase) :: rest) ∧
        (phase = "commit" → Dict.get? rest "verifier" ≠ some (.str name))) :
    ∀ record ∈ appended.chain.records, Innocent name record := by
  obtain ⟨grown, kind, digest⟩ := WitnessChain.append_adds made
  intro record member
  rw [grown] at member
  rcases List.mem_append.mp member with member | member
  · exact all record member
  · obtain rfl := List.mem_singleton.mp member
    obtain ⟨fields, same⟩ := obj_of_subscript kind
    rw [same] at kind digest ⊢
    rw [subscript_obj] at kind digest
    refine ⟨fields, rfl, fun challenge => ?_⟩
    obtain ⟨phase, rest, made, other⟩ := new (Json.str.inj (Option.some.inj (kind.symm.trans challenge)))
    exact ⟨phase, rest, by rw [digest, made], other⟩

variable [LT Time] [DecidableLT Time]

theorem clear_of_decided {now : Time} {call : Call} {deed : Deed Time}
    (decided : Decided crypto setting state now call deed)
    (clear : ∀ key round, Dict.get? state.rounds key = some round →
      Clear name round.commits round.frauds) :
    Clear name deed.round.commits deed.round.frauds ∧ name ∉ deed.slash ∧
      ((∀ rest, deed.digest = .obj (("phase", .str "commit") :: rest) →
          Dict.get? rest "verifier" ≠ some (.str name)) →
        ∀ index, Clear name (deed.later index).commits (deed.later index).frauds) := by
  obtain ⟨stored, slashed, later⟩ := ledgers_of_decided (P := fun _ => Clear name)
    (Q := fun other => other ≠ name) decided clear (fun _ => ⟨rfl, by simp⟩) (by
      intro key round roundId other com expect verdict salt _ found held _ _
      have different : other ≠ name := by
        rintro rfl
        rw [(clear key round found.held).commits] at held
        cases held
      refine ⟨different, (clear key round found.held).commits, fun fraud member => ?_⟩
      rcases List.mem_append.mp member with member | member
      · exact (clear key round found.held).frauds fraud member
      · obtain rfl := List.mem_singleton.mp member
        exact different)
  refine ⟨stored, fun member => slashed name member rfl, fun stranger index => later index ?_⟩
  rintro key round roundId other commitment _ rfl found
  have different : other ≠ name := by
    rintro rfl
    exact stranger _ rfl rfl
  refine ⟨?_, (clear key round found.held).frauds⟩
  rw [Dict.get?_set_ne _ different]
  exact (clear key round found.held).commits

theorem phase_of_decided {now : Time} {call : Call} {deed : Deed Time}
    (decided : Decided crypto setting state now call deed) :
    ∃ phase rest, deed.digest = .obj (("phase", .str phase) :: rest) ∧
      (phase = "commit" → ∃ key round roundId other commitment,
        call = .commit roundId (.str other) commitment ∧ Found state roundId key round ∧
        (Dict.get? round.seats other).isSome ∧ Dict.get? round.commits other = none ∧
        ¬round.commitDeadline < now ∧ deed = commitDeed key round roundId other commitment ∧
        Dict.get? rest "verifier" = some (.str other)) := by
  cases decided with
  | committed found seated free inTime =>
    exact ⟨_, _, rfl, fun _ => ⟨_, _, _, _, _, rfl, found, seated, free, inTime, rfl, rfl⟩⟩
  | opened => exact ⟨_, _, rfl, fun same => absurd same (by decide)⟩
  | seatRefused => exact ⟨_, _, rfl, fun same => absurd same (by decide)⟩
  | seated => exact ⟨_, _, rfl, fun same => absurd same (by decide)⟩
  | commitRefused => exact ⟨_, _, rfl, fun same => absurd same (by decide)⟩
  | late => exact ⟨_, _, rfl, fun same => absurd same (by decide)⟩
  | mismatched => exact ⟨_, _, rfl, fun same => absurd same (by decide)⟩
  | published => exact ⟨_, _, rfl, fun same => absurd same (by decide)⟩
  | resolved => exact ⟨_, _, rfl, fun same => absurd same (by decide)⟩

theorem unsealed_step {action : Action Time} (unsealed : Unsealed name state)
    (stranger : ¬Seals crypto name state action) :
    Unsealed name (step crypto setting state action) := by
  refine step_kept unsealed ?_ ?_
  · rintro circumstance call deed outcome rfl decided performed
    obtain ⟨stored, unslashed, later⟩ := clear_of_decided decided unsealed.rounds
    cases performed with
    | stopped e =>
      exact ⟨rounds_set unsealed.rounds stored, unsealed.slashed, unsealed.records⟩
    | completed appended logged written recorded =>
      obtain ⟨phase, rest, digest, sealed⟩ := phase_of_decided decided
      have innocent : phase = "commit" → Dict.get? rest "verifier" ≠ some (.str name) := by
        intro commits named
        obtain ⟨key, round, roundId, other, commitment, rfl, found, seated, free, inTime, rfl, by_other⟩ :=
          sealed commits
        obtain rfl := Json.str.inj (Option.some.inj (by_other.symm.trans named))
        exact stranger ⟨rfl, key, round, found, seated, free, inTime, written, by rw [recorded]; rfl⟩
      have clear := later (fun other same => ?_) state.chain.records.length
      · refine ⟨rounds_set unsealed.rounds clear, ?_, ?_⟩
        · simpa using ⟨unsealed.slashed, unslashed⟩
        · exact innocent_append recorded unsealed.records (fun _ => ⟨phase, rest, digest, innocent⟩)
      · rw [digest] at same
        obtain ⟨first, rfl⟩ := List.cons.inj (Json.obj.inj same)
        exact innocent (Json.str.inj (Prod.mk.inj first).2)
  · intro call appended other made
    refine ⟨unsealed.rounds, unsealed.slashed, ?_⟩
    exact innocent_append made unsealed.records (fun same => absurd same other)

theorem namesCommit_innocent {fields fraud : Dict Str Json} (innocent : Innocent name (.obj fields))
    (named : Dict.get? fraud "verifier" = some (.str name)) {digest : Json}
    (held : digest = if truthy ((Dict.get? fields "semantic_digest").getD .null) then
      (Dict.get? fields "semantic_digest").getD .null else .obj []) :
    namesCommit (.obj fields) digest fraud = .ok false ∨
      Dict.get? fraud "round_id" = none ∧ ∃ e, namesCommit (.obj fields) digest fraud = .error e := by
  obtain ⟨_, same, innocent⟩ := innocent
  obtain rfl := Json.obj.inj same
  by_cases challenge : Dict.get? fields "kind" = some (.str challengeKind)
  · obtain ⟨phase, rest, digested, stranger⟩ := innocent challenge
    obtain rfl : digest = .obj (("phase", .str phase) :: rest) := by
      rw [held, digested]
      rfl
    by_cases commits : phase = "commit"
    · subst commits
      have other : ¬Json.pyEq ((Dict.get? rest "verifier").getD .null) (.str name) := by
        intro equal
        rw [Json.pyEq_str, Option.getD_eq_iff] at equal
        rcases equal with found | ⟨_, absent⟩
        · exact stranger rfl found
        · cases absent
      cases round : Dict.get? fraud "round_id" with
      | none =>
        refine Or.inr ⟨rfl, ⟨.keyError, "round_id"⟩, ?_⟩
        simp [namesCommit, challenge, subscript, round, bind, Except.bind, raise]
      | some roundId =>
        left
        simp [namesCommit, challenge, subscript, round, named, bind, Except.bind, other, pure,
          Except.pure]
    · left
      simp [namesCommit, challenge, commits, bind, Except.bind, pure, Except.pure]
  · left
    have other : (Dict.get? fields "kind").getD .null ≠ .str challengeKind := by
      intro equal
      rw [Option.getD_eq_iff] at equal
      rcases equal with found | ⟨_, absent⟩
      · exact challenge found
      · cases absent
    simp [namesCommit, other, bind, Except.bind, pure, Except.pure]

theorem acquits_of_innocent {records : List Json} (innocent : ∀ record ∈ records, Innocent name record)
    {fraud : Dict Str Json} (named : Dict.get? fraud "verifier" = some (.str name)) :
    (∀ reason, verifyFraudProof crypto fraud records ≠ .ok (true, reason)) ∧
      ((Dict.get? fraud "round_id").isSome →
        ∃ reason, verifyFraudProof crypto fraud records = .ok (false, reason)) := by
  have answers : (∃ reason, verifyFraudProof crypto fraud records = .ok (false, reason)) ∨
      Dict.get? fraud "round_id" = none ∧ ∃ e, verifyFraudProof crypto fraud records = .error e := by
    by_cases type : (Dict.get? fraud "type").getD .null = .str mismatchType
    · unfold verifyFraudProof
      simp only [type, ne_eq, not_true_eq_false, if_false]
      split
      · exact Or.inl ⟨_, rfl⟩
      · rename_i record found
        obtain ⟨index, _, found⟩ := Option.bind_eq_some_iff.mp found
        split at found
        · obtain ⟨fields, rfl, clean⟩ := innocent record (List.mem_of_getElem? found)
          simp only [dotGet_obj, bind, Except.bind]
          rcases namesCommit_innocent ⟨fields, rfl, clean⟩ named rfl with other | ⟨absent, e, raised⟩
          · rw [other]
            exact Or.inl ⟨_, rfl⟩
          · rw [raised]
            exact Or.inr ⟨absent, e, rfl⟩
        · cases found
    · left
      exact ⟨_, by simp only [verifyFraudProof, if_pos type]; rfl⟩
  constructor
  · intro reason convicted
    rcases answers with ⟨_, refuted⟩ | ⟨_, e, raised⟩
    · cases refuted.symm.trans convicted
    · cases raised.symm.trans convicted
  · intro present
    rcases answers with refuted | ⟨absent, _⟩
    · exact refuted
    · simp [absent] at present

/-- What a verifier means to reveal in a round. -/
structure Opening where
  roundId : Json
  verdict : Json
  salt : Json

def Opening.commitment (crypto : Crypto) (name : Str) (opening : Opening) : Py Str :=
  makeCommitment crypto opening.roundId (.str name) opening.verdict opening.salt

/-- Commits and reveals that name the verifier carry its own opening of the round. -/
def Follows (crypto : Crypto) (name : Str) (plan : Json → Opening) : Action Time → Prop
  | .call _ (.commit roundId verifier commitment) => verifier = .str name →
      ∀ key, roundKey roundId = .ok key →
        ∃ hash, (plan key).commitment crypto name = .ok hash ∧ commitment = .str hash
  | .call _ (.reveal roundId verifier verdict salt) => verifier = .str name →
      ∀ key, roundKey roundId = .ok key → plan key = ⟨roundId, verdict, salt⟩
  | _ => True

omit [LT Time] [DecidableLT Time] in
theorem neverConvicted_of_unsealed (unsealed : Unsealed name state) :
    NeverConvicted crypto name state where
  frauds key round found := (unsealed.rounds key round found).frauds
  slashed := unsealed.slashed
  accused _ _ named := (acquits_of_innocent unsealed.records named).1 _
  acquitted _ named := (acquits_of_innocent unsealed.records named).2

/-- In a run that never seals a verdict in the verifier's name, nothing ever convicts it. -/
theorem never_convicted {crypto : Crypto} {setting : Setting Time} {name : Str} {start : State Time}
    (starts : Starts start) {actions : List (Action Time)}
    (strangers : Run.Along (step crypto setting) (fun state action => ¬Seals crypto name state action)
      start actions) :
    NeverConvicted crypto name (Run.run (step crypto setting) start actions) :=
  neverConvicted_of_unsealed (Run.invariant (fun _ _ unsealed stranger => unsealed_step unsealed stranger)
    (unsealed_of_starts starts) strangers)

theorem starts_sample : Starts sampleState := ⟨rfl, rfl, by simp [sampleState]⟩

def sampleOpen : Action Nat :=
  .call { now := 0 } (.openRound (.str "r1") (.str "t1") [("v", .str "aa"), ("u", .str "bb")] 2)

def sampleSeat (name proof : Str) : Action Nat :=
  .call { now := 1 } (.claimSeat (.str "r1") (.str name) (.str proof))

theorem never_convicted_sample : NeverConvicted Crypto.sample "v"
    (Run.run (step Crypto.sample .sample) sampleState
      [sampleOpen, sampleSeat "v" "aa", sampleSeat "u" "bb",
        .call { now := 2 } (.commit (.str "r1") (.str "u") (.str "00")),
        .call { now := 3 } (.reveal (.str "r1") (.str "v") (.obj []) (.str "00"))]) :=
  never_convicted starts_sample
    ⟨id, id, id, fun sealing => absurd sealing.1 (by decide), id, trivial⟩

/-- An action with whether the verifier takes it itself. -/
structure Play (Time : Type) where
  own : Bool
  action : Action Time

/-- The round in which the verifier itself commits. -/
def Play.commits (name : Str) (play : Play Time) : Option Json :=
  match play.action with
  | .call _ (.commit roundId verifier _) =>
    if play.own && verifier = .str name then some roundId.comparisonKey else none
  | _ => none

/-- The verifier follows the protocol; the others do what they like. -/
structure Honest (crypto : Crypto) (name : Str) (plan : Json → Opening) (plays : List (Play Time)) :
    Prop where
  seats : ∀ play ∈ plays, ∀ circumstance roundId proof,
    play.action = .call circumstance (.claimSeat roundId (.str name) proof) → play.own
  follows : ∀ play ∈ plays, play.own → Follows crypto name plan play.action
  once : (plays.filterMap (Play.commits name)).Nodup

def sampleOpening : Opening := ⟨.str "r1", .obj [], .str "00"⟩

def sampleCommitment : Str :=
  match sampleOpening.commitment Crypto.sample "v" with
  | .ok hash => hash
  | .error _ => []

/-- Another caller reveals in the name of a verifier that has sealed its verdict. -/
def samplePlays : List (Play Nat) :=
  [⟨false, sampleOpen⟩, ⟨true, sampleSeat "v" "aa"⟩,
    ⟨true, .call { now := 2 } (.commit (.str "r1") (.str "v") (.str sampleCommitment))⟩,
    ⟨false, .call { now := 3 } (.reveal (.str "r1") (.str "v") (.obj []) (.str "11"))⟩]

theorem honest_convicted : ¬ ∀ (plan : Json → Opening) (plays : List (Play Nat)),
    Honest Crypto.sample "v" plan plays → NeverConvicted Crypto.sample "v"
      (Run.run (step Crypto.sample .sample) sampleState (plays.map Play.action)) := by
  intro always
  have hashed : sampleOpening.commitment Crypto.sample "v" = .ok sampleCommitment := by decide +kernel
  have honest : Honest Crypto.sample "v" (fun _ => sampleOpening) samplePlays := by
    constructor
    · intro play member circumstance roundId proof same
      simp only [samplePlays, List.mem_cons, List.not_mem_nil, or_false] at member
      rcases member with rfl | rfl | rfl | rfl
      · cases same
      · rfl
      · cases same
      · cases same
    · intro play member own
      simp only [samplePlays, List.mem_cons, List.not_mem_nil, or_false] at member
      rcases member with rfl | rfl | rfl | rfl
      · cases own
      · trivial
      · exact fun _ _ _ => ⟨sampleCommitment, hashed, rfl⟩
      · cases own
    · decide +kernel
  have accused : (Dict.get? (Run.run (step Crypto.sample .sample) sampleState
      (samplePlays.map Play.action)).rounds (.str "r1")).map
        (fun round => round.frauds.map Fraud.verifier) = some [Str.ofString "v"] := by
    decide +kernel
  obtain ⟨round, found, named⟩ := Option.map_eq_some_iff.mp accused
  obtain ⟨fraud, member, same⟩ := List.mem_map.mp (named ▸ List.mem_singleton_self (Str.ofString "v"))
  exact (always _ _ honest).frauds _ round found fraud member same

end JJDai.Challenge
