import JJDai.Challenge.Conviction

/-! What `resolve` answers: how the seats are divided, and when the verdict is that of a
majority of the valid reveals. -/

namespace JJDai.Challenge

open PyText Canonical

variable {Time : Type} (crypto : Crypto)

def counted (round : Round Time) : Dict Str Json := validReveals round.reveals (fraudsters round)

/-- Those that revealed the same verdict, as canonical bytes. -/
def agreeing (valid : Dict Str Json) (verdict : Json) : Dict Str Json :=
  valid.filter (fun entry => (canonical entry.2).toOption = (canonical verdict).toOption)

/-- More than half of the valid reveals are of the verdict. -/
def Majority (valid : Dict Str Json) (verdict : Json) : Prop := valid.length < 2 * (agreeing valid verdict).length

/-- A summary that resolves the round gives the verdict of a majority. -/
def ByMajority (valid : Dict Str Json) (summary : Summary) : Prop :=
  ∀ verdict, Dict.get? summary.outcome "status" = some (.str "resolved") →
    Dict.get? summary.outcome "verdict" = some verdict → Majority valid verdict

/-- Nobody revealed, or more than half revealed the same. -/
def HasMajority (valid : Dict Str Json) : Prop := valid = [] ∨ ∃ entry ∈ valid, Majority valid entry.2

/-- Two verdicts that differ have the same hash. -/
def Collides (valid : Dict Str Json) : Prop :=
  ∃ a ∈ valid, ∃ b ∈ valid, ∃ dataA dataB, canonical a.2 = .ok dataA ∧ canonical b.2 = .ok dataB ∧
    dataA ≠ dataB ∧ H_hex crypto dataA = H_hex crypto dataB

/-- Every seat is in exactly one of the three. -/
structure Divided (summary : Summary) : Prop where
  covered : ∀ name, name ∈ summary.seats ↔
    name ∈ summary.revealed ∨ name ∈ summary.abstained ∨ name ∈ summary.frauds
  revealed_abstained : summary.revealed.Disjoint summary.abstained
  revealed_frauds : summary.revealed.Disjoint summary.frauds
  abstained_frauds : summary.abstained.Disjoint summary.frauds

variable {crypto}

def ballotKey (crypto : Crypto) (verdict : Json) : Option Str := (canonical verdict).toOption.map (H_hex crypto)

theorem ballotKey_ok {verdict : Json} {data : Bytes} (canon : canonical verdict = .ok data) :
    ballotKey crypto verdict = some (H_hex crypto data) := by
  rw [ballotKey, canon]
  rfl

/-- The votes of the verdicts that were cast so far. -/
structure Counts (crypto : Crypto) (cast : Dict Str Json) (votes : Dict Str (Json × List Str)) : Prop where
  unique : (Dict.keys votes).Nodup
  grouped : ∀ key verdict voters, Dict.get? votes key = some (verdict, voters) →
    (∃ entry ∈ cast, entry.2 = verdict) ∧ ballotKey crypto verdict = some key ∧
      voters.length = (cast.filter (fun entry => ballotKey crypto entry.2 = some key)).length
  complete : ∀ entry ∈ cast, ∃ data vote, canonical entry.2 = .ok data ∧
    Dict.get? votes (H_hex crypto data) = some vote

/-- A verdict is counted when the group of its key is stored with one voter for each verdict of that key. -/
theorem Counts.store {cast : Dict Str Json} {votes : Dict Str (Json × List Str)} {entry : Str × Json} {data : Bytes}
    (counts : Counts crypto cast votes) (canon : canonical entry.2 = .ok data) {verdict : Json} {voters : List Str}
    (first : ∃ old ∈ cast ++ [entry], old.2 = verdict) (firstKey : ballotKey crypto verdict = some (H_hex crypto data))
    (many : voters.length =
      (cast.filter (fun old => ballotKey crypto old.2 = some (H_hex crypto data))).length + 1) :
    Counts crypto (cast ++ [entry]) (Dict.set votes (H_hex crypto data) (verdict, voters)) := by
  have keyed : ballotKey crypto entry.2 = some (H_hex crypto data) := ballotKey_ok canon
  refine ⟨Dict.nodup_set counts.unique _ _, ?_, ?_⟩
  · intro key other others found
    rw [Dict.get?_set] at found
    split at found
    · rename_i same
      obtain ⟨rfl, rfl⟩ := Prod.mk.inj (Option.some.inj found)
      refine ⟨first, same ▸ firstKey, ?_⟩
      rw [List.filter_append, List.length_append, many, ← same]
      simp [keyed]
    · rename_i different
      obtain ⟨⟨old, member, same⟩, oldKey, length⟩ := counts.grouped _ _ _ found
      refine ⟨⟨old, List.mem_append_left _ member, same⟩, oldKey, ?_⟩
      rw [List.filter_append, length]
      simp [keyed, different]
  · intro old member
    rcases List.mem_append.mp member with member | member
    · obtain ⟨oldData, vote, oldCanon, found⟩ := counts.complete old member
      refine ⟨oldData, if H_hex crypto data = H_hex crypto oldData then (verdict, voters) else vote, oldCanon, ?_⟩
      rw [Dict.get?_set]
      split
      · rfl
      · exact found
    · obtain rfl := List.mem_singleton.mp member
      exact ⟨data, _, canon, Dict.get?_set_self _ _ _⟩

theorem Counts.cast {cast : Dict Str Json} {votes after : Dict Str (Json × List Str)} {entry : Str × Json}
    (counts : Counts crypto cast votes) (casts : castVote crypto votes entry = .ok after) :
    Counts crypto (cast ++ [entry]) after := by
  simp only [castVote, bind, Py.bind_ok] at casts
  obtain ⟨data, canon, made⟩ := casts
  cases held : Dict.get? votes (H_hex crypto data) with
  | some vote =>
    obtain ⟨verdict, voters⟩ := vote
    simp only [held] at made
    obtain rfl := Except.ok.inj made
    obtain ⟨⟨old, member, same⟩, firstKey, many⟩ := counts.grouped _ _ _ held
    refine counts.store canon ⟨old, List.mem_append_left _ member, same⟩ firstKey ?_
    rw [List.length_append, many, List.length_singleton]
  | none =>
    simp only [held] at made
    obtain rfl := Except.ok.inj made
    have absent : cast.filter (fun other => ballotKey crypto other.2 = some (H_hex crypto data)) = [] := by
      apply List.filter_eq_nil_iff.mpr
      intro other member same
      obtain ⟨otherData, vote, otherCanon, found⟩ := counts.complete other member
      rw [ballotKey_ok otherCanon] at same
      rw [Option.some.inj (of_decide_eq_true same), held] at found
      cases found
    refine counts.store canon ⟨entry, by simp, rfl⟩ (ballotKey_ok canon) ?_
    rw [absent, List.length_nil, List.length_singleton]

theorem counts_foldlM {cast rest : Dict Str Json} {votes after : Dict Str (Json × List Str)}
    (counts : Counts crypto cast votes) (folded : rest.foldlM (castVote crypto) votes = .ok after) :
    Counts crypto (cast ++ rest) after := by
  induction rest generalizing cast votes with
  | nil =>
    obtain rfl := Except.ok.inj folded
    simpa using counts
  | cons entry rest ih =>
    simp only [List.foldlM_cons, bind, Py.bind_ok] at folded
    obtain ⟨next, casts, folded⟩ := folded
    have later := ih (counts.cast casts) folded
    simpa using later

theorem counts_votes {valid : Dict Str Json} {votes : Dict Str (Json × List Str)}
    (folded : valid.foldlM (castVote crypto) [] = .ok votes) : Counts crypto valid votes := by
  have blank : Counts crypto [] [] :=
    ⟨List.nodup_nil, fun _ _ _ found => (nomatch found), fun _ member => (nomatch member)⟩
  exact counts_foldlM blank folded

theorem bestVote_foldl (vote : Json × List Str) (rest : List (Json × List Str)) :
    ∃ best ∈ vote :: rest, bestVote (vote :: rest) = some best ∧
      ∀ other ∈ vote :: rest, other.2.length ≤ best.2.length := by
  induction rest generalizing vote with
  | nil => exact ⟨vote, List.mem_singleton_self _, rfl, by simp⟩
  | cons next rest ih =>
    obtain ⟨best, member, kept, most⟩ := ih (if betterVote vote next then next else vote)
    refine ⟨best, ?_, kept, ?_⟩
    · rcases List.mem_cons.mp member with rfl | later
      · split
        · exact List.mem_cons_of_mem _ List.mem_cons_self
        · exact List.mem_cons_self
      · exact List.mem_cons_of_mem _ (List.mem_cons_of_mem _ later)
    · have first := most _ List.mem_cons_self
      have both : vote.2.length ≤ best.2.length ∧ next.2.length ≤ best.2.length := by
        by_cases better : betterVote vote next = true
        · rw [if_pos better] at first
          have atMost : vote.2.length ≤ next.2.length := by
            simp only [betterVote, Bool.or_eq_true, Bool.and_eq_true, decide_eq_true_eq] at better
            omega
          exact ⟨atMost.trans first, first⟩
        · rw [if_neg better] at first
          have atMost : next.2.length ≤ vote.2.length := by
            simp only [betterVote, Bool.or_eq_true, decide_eq_true_eq, not_or] at better
            omega
          exact ⟨first, atMost.trans first⟩
      intro other among
      rcases List.mem_cons.mp among with rfl | among
      · exact both.1
      · rcases List.mem_cons.mp among with rfl | among
        · exact both.2
        · exact most other (List.mem_cons_of_mem _ among)

theorem agreeing_eq {valid : Dict Str Json} {votes : Dict Str (Json × List Str)} (counts : Counts crypto valid votes)
    (apart : ¬ Collides crypto valid) {entry : Str × Json} (member : entry ∈ valid) {key : Str}
    (keyed : ballotKey crypto entry.2 = some key) :
    valid.filter (fun other => ballotKey crypto other.2 = some key) = agreeing valid entry.2 := by
  obtain ⟨data, _, canon, _⟩ := counts.complete entry member
  rw [ballotKey_ok canon] at keyed
  obtain rfl := Option.some.inj keyed
  apply List.filter_congr
  intro other among
  obtain ⟨otherData, _, otherCanon, _⟩ := counts.complete other among
  rw [ballotKey_ok otherCanon, otherCanon, canon]
  apply decide_eq_decide.mpr
  constructor
  · intro same
    by_cases equal : otherData = data
    · rw [equal]
    · exact absurd ⟨other, among, entry, member, otherData, data, otherCanon, canon, equal, Option.some.inj same⟩ apart
  · intro same
    rw [Option.some.inj same]

theorem tally_outcome {roundId : Json} {seats : List Str} {reveals : Dict Str Reveal} {cheats : List Str}
    {summary : Summary} (tallied : tally crypto roundId seats reveals cheats = .ok summary) :
    ∃ votes, Counts crypto (validReveals reveals cheats) votes ∧
      ((votes = [] ∧ Dict.get? summary.outcome "status" = some (.str "unresolved")) ∨
        ∃ best, best ∈ votes.map Prod.snd ∧ (∀ other ∈ votes.map Prod.snd, other.2.length ≤ best.2.length) ∧
          Dict.get? summary.outcome "status" = some (.str "resolved") ∧
          Dict.get? summary.outcome "verdict" = some best.1) := by
  simp only [tally, bind, Py.bind_ok] at tallied
  obtain ⟨votes, folded, made⟩ := tallied
  obtain rfl := Except.ok.inj made
  refine ⟨votes, counts_votes folded, ?_⟩
  cases votes with
  | nil => exact Or.inl ⟨rfl, rfl⟩
  | cons vote rest =>
    obtain ⟨best, member, kept, most⟩ := bestVote_foldl vote.2 (rest.map Prod.snd)
    refine Or.inr ⟨best, member, most, ?_, ?_⟩
    · simp only [List.map_cons, kept]
      rfl
    · simp only [List.map_cons, kept]
      rfl

theorem byMajority_of_tally {roundId : Json} {seats : List Str} {reveals : Dict Str Reveal} {cheats : List Str}
    {summary : Summary} (tallied : tally crypto roundId seats reveals cheats = .ok summary) :
    Collides crypto (validReveals reveals cheats) ∨
      (ByMajority (validReveals reveals cheats) summary ↔ HasMajority (validReveals reveals cheats)) := by
  by_cases apart : Collides crypto (validReveals reveals cheats)
  · exact Or.inl apart
  · right
    obtain ⟨votes, counts, outcome⟩ := tally_outcome tallied
    rcases outcome with ⟨rfl, status⟩ | ⟨best, member, most, status, verdict⟩
    · constructor
      · intro _
        left
        apply List.eq_nil_iff_forall_not_mem.mpr
        intro entry member
        obtain ⟨_, _, _, found⟩ := counts.complete entry member
        cases found
      · intro _ verdict resolved
        rw [status] at resolved
        cases resolved
    · obtain ⟨⟨key, vote⟩, kept, rfl⟩ := List.mem_map.mp member
      obtain ⟨⟨first, among, same⟩, keyed, many⟩ :=
        counts.grouped key vote.1 vote.2 (Dict.get?_of_mem counts.unique kept)
      rw [← same] at keyed
      rw [agreeing_eq counts apart among keyed, same] at many
      have majority : ByMajority (validReveals reveals cheats) summary ↔
          Majority (validReveals reveals cheats) vote.1 := by
        constructor
        · exact fun by_majority => by_majority vote.1 status verdict
        · intro more other _ told
          obtain rfl := Option.some.inj (verdict.symm.trans told)
          exact more
      rw [majority]
      constructor
      · exact fun more => Or.inr ⟨first, among, same ▸ more⟩
      · rintro (empty | ⟨entry, present, more⟩)
        · rw [empty] at among
          cases among
        · obtain ⟨data, ⟨shared, voters⟩, canon, found⟩ := counts.complete entry present
          have at_most := most (shared, voters) (List.mem_map.mpr ⟨_, Dict.mem_of_get? found, rfl⟩)
          obtain ⟨_, _, length⟩ := counts.grouped _ _ _ found
          rw [agreeing_eq counts apart present (ballotKey_ok canon)] at length
          rw [Majority] at more ⊢
          rw [← many]
          rw [← length] at more
          exact more.trans_le (Nat.mul_le_mul_left 2 at_most)

/-- Who commits holds a seat, and who reveals or is accused has committed. -/
structure Seated (round : Round Time) : Prop where
  committed : ∀ name, (Dict.get? round.commits name).isSome → (Dict.get? round.seats name).isSome
  revealed : ∀ name, (Dict.get? round.reveals name).isSome → (Dict.get? round.commits name).isSome
  accused : ∀ fraud ∈ round.frauds, (Dict.get? round.commits fraud.verifier).isSome

theorem mem_sortStrs {name : Str} {names : List Str} : name ∈ sortStrs names ↔ name ∈ names :=
  List.mem_insertionSort _

theorem mem_keys_valid {reveals : Dict Str Reveal} {cheats : List Str} {name : Str} :
    name ∈ Dict.keys (validReveals reveals cheats) ↔ name ∈ Dict.keys reveals ∧ name ∉ cheats := by
  simp only [validReveals, Dict.keys, List.map_map, List.mem_map, List.mem_filter, decide_eq_true_eq]
  constructor
  · rintro ⟨entry, ⟨member, kept⟩, rfl⟩
    exact ⟨⟨entry, member, rfl⟩, kept⟩
  · rintro ⟨⟨entry, member, rfl⟩, kept⟩
    exact ⟨entry, ⟨member, kept⟩, rfl⟩

theorem Seated.divided {round : Round Time} (seated : Seated round) {roundId : Json} {summary : Summary}
    (tallied : tally crypto roundId (Dict.keys round.seats) round.reveals (fraudsters round) = .ok summary) :
    Divided summary := by
  simp only [tally, bind, Py.bind_ok] at tallied
  obtain ⟨votes, _, made⟩ := tallied
  obtain rfl := Except.ok.inj made
  constructor
  · intro name
    simp only [mem_sortStrs, List.mem_filter, decide_eq_true_eq, mem_keys_valid]
    constructor
    · intro sits
      by_cases cheats : name ∈ fraudsters round
      · exact Or.inr (Or.inr cheats)
      · by_cases revealed : name ∈ Dict.keys round.reveals
        · exact Or.inl ⟨revealed, cheats⟩
        · exact Or.inr (Or.inl ⟨sits, fun both => revealed both.1, cheats⟩)
    · rintro (⟨revealed, _⟩ | ⟨sits, _⟩ | cheats)
      · exact Dict.mem_keys.mpr (seated.committed name (seated.revealed name (Dict.mem_keys.mp revealed)))
      · exact sits
      · obtain ⟨fraud, member, rfl⟩ := List.mem_map.mp cheats
        exact Dict.mem_keys.mpr (seated.committed _ (seated.accused fraud member))
  · intro name revealed abstained
    simp only [mem_sortStrs, List.mem_filter, decide_eq_true_eq] at revealed abstained
    exact abstained.2.1 revealed
  · intro name revealed cheats
    simp only [mem_sortStrs, mem_keys_valid] at revealed
    exact revealed.2 cheats
  · intro name abstained cheats
    simp only [mem_sortStrs, List.mem_filter, decide_eq_true_eq] at abstained
    exact abstained.2.2 cheats

theorem isSome_get?_set {κ : Type u} {ν : Type v} [DecidableEq κ] {d : Dict κ ν} {key other : κ} {value : ν}
    (held : (Dict.get? d other).isSome) : (Dict.get? (Dict.set d key value) other).isSome := by
  rw [Dict.get?_set]
  split
  · rfl
  · exact held

theorem Seated.seat {round : Round Time} (seated : Seated round) (name : Str) (seat : Seat) :
    Seated { round with seats := Dict.set round.seats name seat } :=
  ⟨fun other held => isSome_get?_set (seated.committed other held), seated.revealed, seated.accused⟩

theorem Seated.commit {round : Round Time} (seated : Seated round) {name : Str}
    (sits : (Dict.get? round.seats name).isSome) (commit : Commit) :
    Seated { round with commits := Dict.set round.commits name commit } := by
  refine ⟨?_, fun other held => isSome_get?_set (seated.revealed other held),
    fun fraud member => isSome_get?_set (seated.accused fraud member)⟩
  intro other held
  rw [Dict.get?_set] at held
  split at held
  · rename_i same
    exact same ▸ sits
  · exact seated.committed other held

theorem Seated.reveal {round : Round Time} (seated : Seated round) {name : Str}
    (committed : (Dict.get? round.commits name).isSome) (reveal : Reveal) :
    Seated { round with reveals := Dict.set round.reveals name reveal } := by
  refine ⟨seated.committed, ?_, seated.accused⟩
  intro other held
  rw [Dict.get?_set] at held
  split at held
  · rename_i same
    exact same ▸ committed
  · exact seated.revealed other held

theorem Seated.accuse {round : Round Time} (seated : Seated round) {fraud : Fraud Time}
    (committed : (Dict.get? round.commits fraud.verifier).isSome) :
    Seated { round with frauds := round.frauds ++ [fraud] } := by
  refine ⟨seated.committed, seated.revealed, ?_⟩
  intro other member
  rcases List.mem_append.mp member with member | member
  · exact seated.accused other member
  · exact List.mem_singleton.mp member ▸ committed

/-- The round, as it was tallied to the summary. -/
structure Tallied (crypto : Crypto) (round : Round Time) (summary : Summary) : Prop where
  seated : Seated round
  tallied : tally crypto summary.roundId (Dict.keys round.seats) round.reveals (fraudsters round) = .ok summary

/-- What is kept of a round: who sits in it, and who was told its summary. -/
structure Remembered (Told : Json → Summary → Prop) (key : Json) (round : Round Time) : Prop where
  seated : Seated round
  resolved : ∀ summary, round.resolved = some summary → Told key summary

variable [LT Time] [DecidableLT Time] {setting : Setting Time} {state : State Time}

theorem commits_of_opened {now : Time} {roundId verifier verdict salt key : Json} {round : Round Time} {name : Str}
    (judged : judge crypto state now roundId verifier verdict salt = .ok (.opened key round name)) :
    (Dict.get? round.commits name).isSome := by
  simp only [judge, bind, Py.bind_ok] at judged
  obtain ⟨other, _, held, _, looked, lookedUp, judged⟩ := judged
  cases looked with
  | none => cases judged
  | some entry =>
    obtain ⟨who, com⟩ := entry
    obtain ⟨_, found⟩ := lookupId_some lookedUp
    dsimp only at judged
    split at judged
    · cases judged
    · obtain ⟨expect, _, judged⟩ := Py.bind_ok.mp judged
      split at judged
      · cases judged
      · obtain ⟨_, rfl, rfl⟩ := Judgement.opened.inj (Except.ok.inj judged)
        rw [found]
        rfl

theorem remembered_decided {Told : Json → Summary → Prop} {now : Time} {call : Call} {deed : Deed Time}
    (decided : Decided crypto setting state now call deed)
    (all : ∀ key round, Dict.get? state.rounds key = some round → Remembered Told key round)
    (told : ∀ key round summary, Dict.get? state.rounds key = some round → Tallied crypto round summary →
      Told key summary) :
    Remembered Told deed.key deed.round ∧ ∀ index, Remembered Told deed.key (deed.later index) := by
  cases decided with
  | @opened roundId transcript key eligible k round keyed unused fresh =>
    have here : Remembered Told key round := by
      refine ⟨⟨?_, ?_, ?_⟩, ?_⟩
      · simp [fresh.commits]
      · simp [fresh.reveals]
      · simp [fresh.frauds]
      · simp [fresh.resolved]
    exact ⟨here, fun _ => here⟩
  | seatRefused found => exact ⟨all _ _ found.held, fun _ => all _ _ found.held⟩
  | commitRefused found => exact ⟨all _ _ found.held, fun _ => all _ _ found.held⟩
  | late found => exact ⟨all _ _ found.held, fun _ => all _ _ found.held⟩
  | seated found =>
    have old := all _ _ found.held
    refine ⟨old, fun _ => ?_⟩
    simp only [seatDeed]
    split
    · exact ⟨old.seated.seat _ _, old.resolved⟩
    · exact old
  | committed found sits =>
    have old := all _ _ found.held
    exact ⟨old, fun _ => ⟨old.seated.commit sits _, old.resolved⟩⟩
  | @mismatched roundId key round name verdict salt com expect found held =>
    have old := all _ _ found.held
    have committed : (Dict.get? round.commits name).isSome := by
      rw [held]
      rfl
    have after : Seated { round with
        frauds := round.frauds ++ [⟨roundId, name, com.index, com.commitment, verdict, salt, expect, now⟩] } :=
      old.seated.accuse committed
    exact ⟨⟨after, old.resolved⟩, fun _ => ⟨after, old.resolved⟩⟩
  | published found inTime judged =>
    have old := all _ _ found.held
    have after := old.seated.reveal (commits_of_opened judged)
    exact ⟨⟨after _, old.resolved⟩, fun _ => ⟨after _, old.resolved⟩⟩
  | @resolved roundId key round summary found pending due tallied =>
    have old := all _ _ found.held
    have named : summary.roundId = roundId := by
      simp only [tally, bind, Py.bind_ok] at tallied
      obtain ⟨_, _, made⟩ := tallied
      exact (Except.ok.inj made) ▸ rfl
    have here : Remembered Told key { round with resolved := some summary } := by
      refine ⟨⟨old.seated.committed, old.seated.revealed, old.seated.accused⟩, ?_⟩
      intro other same
      obtain rfl := Option.some.inj same
      exact told key round summary found.held ⟨old.seated, named ▸ tallied⟩
    exact ⟨here, fun _ => here⟩

variable (crypto setting) in
/-- In a state that the run went through, the round was tallied to the summary. -/
def ToldIn (start : State Time) (actions : List (Action Time)) (key : Json) (summary : Summary) : Prop :=
  ∃ front round, front <+: actions ∧
    Dict.get? (Run.run (step crypto setting) start front).rounds key = some round ∧ Tallied crypto round summary

theorem remembered_run {start : State Time} (empty : start.rounds = []) (actions : List (Action Time)) :
    ∀ key round, Dict.get? (Run.run (step crypto setting) start actions).rounds key = some round →
      Remembered (ToldIn crypto setting start actions) key round := by
  induction actions using List.reverseRecOn with
  | nil =>
    intro key round held
    rw [Run.run_nil, empty] at held
    cases held
  | append_singleton front action ih =>
    have grown : ∀ key round, Dict.get? (Run.run (step crypto setting) start front).rounds key = some round →
        Remembered (ToldIn crypto setting start (front ++ [action])) key round := by
      intro key round held
      refine ⟨(ih key round held).seated, fun summary resolved => ?_⟩
      obtain ⟨earlier, old, starts, found, tallied⟩ := (ih key round held).resolved summary resolved
      exact ⟨earlier, old, starts.trans (List.prefix_append ..), found, tallied⟩
    have told : ∀ key round summary,
        Dict.get? (Run.run (step crypto setting) start front).rounds key = some round → Tallied crypto round summary →
          ToldIn crypto setting start (front ++ [action]) key summary :=
      fun key round summary held tallied => ⟨front, round, List.prefix_append .., held, tallied⟩
    rw [Run.run_append, Run.run_cons, Run.run_nil]
    refine @step_kept _ _ _ crypto setting (fun state => ∀ key round, Dict.get? state.rounds key = some round →
      Remembered (ToldIn crypto setting start (front ++ [action])) key round) _ _ grown ?_ ?_
    · intro circumstance call deed outcome _ decided performs
      obtain ⟨before, after⟩ := remembered_decided decided grown told
      cases performs with
      | stopped => exact rounds_set grown before
      | completed => exact rounds_set grown (after _)
    · exact fun _ _ _ _ => grown

variable (crypto setting) in
/-- What `resolve` answers was tallied in a state of the run, in the present one when the
round was pending. The seats are divided; and apart from colliding verdicts, the answer is
a majority's exactly when the valid reveals have one. -/
def Accounted (start : State Time) (actions : List (Action Time)) (roundId : Json) (summary : Summary)
    (deed : Option (Deed Time)) : Prop :=
  ∃ front key round, front <+: actions ∧ (deed.isSome → front = actions) ∧
    Found (Run.run (step crypto setting) start front) roundId key round ∧
    tally crypto summary.roundId (Dict.keys round.seats) round.reveals (fraudsters round) = .ok summary ∧
    Divided summary ∧
    (Collides crypto (counted round) ∨ (ByMajority (counted round) summary ↔ HasMajority (counted round)))

theorem resolved_by_majority_iff {start : State Time} (starts : Starts start) (actions : List (Action Time))
    {now : Time} {roundId : Json} {summary : Summary} {deed : Option (Deed Time)}
    (resolves : resolve crypto (Run.run (step crypto setting) start actions) now roundId = .ok (summary, deed)) :
    Accounted crypto setting start actions roundId summary deed := by
  have told : ∃ front key round, front <+: actions ∧ (deed.isSome → front = actions) ∧
      Found (Run.run (step crypto setting) start front) roundId key round ∧ Tallied crypto round summary := by
    have remembered := @remembered_run _ crypto _ _ setting _ starts.rounds actions
    simp only [resolve, bind, Py.bind_ok] at resolves
    obtain ⟨key, keyed, round, found, resolves⟩ := resolves
    have found := found_of_ok keyed found
    cases settled : round.resolved with
    | some before =>
      simp only [settled] at resolves
      obtain ⟨rfl, rfl⟩ := Prod.mk.inj (Except.ok.inj resolves)
      obtain ⟨front, held, early, there, tallied⟩ := (remembered key round found.held).resolved _ settled
      exact ⟨front, key, held, early, fun impossible => (by cases impossible), ⟨keyed, there⟩, tallied⟩
    | none =>
      simp only [settled, Py.unless_ok, Py.bind_ok] at resolves
      obtain ⟨_, made, tallied, resolves⟩ := resolves
      obtain ⟨rfl, _⟩ := Prod.mk.inj (Except.ok.inj resolves)
      have named : made.roundId = roundId := by
        have shape := tallied
        simp only [tally, bind, Py.bind_ok] at shape
        obtain ⟨_, _, shape⟩ := shape
        exact (Except.ok.inj shape) ▸ rfl
      exact ⟨actions, key, round, List.prefix_refl _, fun _ => rfl, found,
        (remembered key round found.held).seated, named ▸ tallied⟩
  obtain ⟨front, key, round, early, present, found, tallied⟩ := told
  exact ⟨front, key, round, early, present, found, tallied.tallied, tallied.seated.divided tallied.tallied,
    byMajority_of_tally tallied.tallied⟩

theorem resolved_by_majority_iff_sample : ∃ summary deed,
    resolve Crypto.sample (Run.run (step Crypto.sample .sample) sampleState [sampleOpen]) 61 (.str "r1") =
        .ok (summary, deed) ∧
      Accounted Crypto.sample .sample sampleState [sampleOpen] (.str "r1") summary deed := by
  have answers : (resolve Crypto.sample (Run.run (step Crypto.sample .sample) sampleState [sampleOpen]) 61
      (.str "r1")).isOk = true := by
    decide +kernel
  obtain ⟨⟨summary, deed⟩, resolves⟩ := Py.exists_of_isOk answers
  exact ⟨summary, deed, resolves, resolved_by_majority_iff starts_sample [sampleOpen] resolves⟩

def passes (ok : Bool) : Json := .obj [("pass", .bool ok)]

def sealed (name : Str) (ok : Bool) : Json :=
  match makeCommitment Crypto.sample (.str "r1") (.str name) (passes ok) (.str "0") with
  | .ok hash => .str hash
  | .error _ => .null

/-- Two verifiers, and a verdict from each. -/
def tied : State Nat :=
  Run.run (step Crypto.sample .sample) sampleState [sampleOpen, sampleSeat "v" "aa", sampleSeat "u" "bb",
    .call { now := 2 } (.commit (.str "r1") (.str "v") (sealed "v" true)),
    .call { now := 3 } (.commit (.str "r1") (.str "u") (sealed "u" false)),
    .call { now := 40 } (.reveal (.str "r1") (.str "v") (passes true) (.str "0")),
    .call { now := 41 } (.reveal (.str "r1") (.str "u") (passes false) (.str "0"))]

/-- The round, the outcome's status and its verdict. -/
def outcomeOf (state : State Nat) : Option (Dict Str Json × Option Json × Option Json) := do
  let round ← Dict.get? state.rounds (.str "r1")
  let (summary, _) ← (resolve Crypto.sample state 61 (.str "r1")).toOption
  return (counted round, Dict.get? summary.outcome "status", Dict.get? summary.outcome "verdict")

def tiedVotes : Dict Str Json := [("v", passes true), ("u", passes false)]

/-- The verdict of one of the two is returned. -/
theorem tie_resolved : ∃ round summary deed,
    Dict.get? tied.rounds (.str "r1") = some round ∧ resolve Crypto.sample tied 61 (.str "r1") = .ok (summary, deed) ∧
      ¬ Collides Crypto.sample (counted round) ∧ ¬ ByMajority (counted round) summary := by
  have told : outcomeOf tied = some (tiedVotes, some (.str "resolved"), some (passes true)) := by
    decide +kernel
  simp only [outcomeOf, Option.bind_eq_bind, Option.bind_eq_some_iff] at told
  obtain ⟨round, held, ⟨summary, deed⟩, resolves, told⟩ := told
  obtain ⟨cast, rest⟩ := Prod.mk.inj (Option.some.inj told)
  obtain ⟨status, verdict⟩ := Prod.mk.inj rest
  have resolves : resolve Crypto.sample tied 61 (.str "r1") = .ok (summary, deed) := by
    cases answered : resolve Crypto.sample tied 61 (.str "r1") with
    | error e =>
      rw [answered] at resolves
      cases resolves
    | ok answer =>
      rw [answered] at resolves
      rw [Option.some.inj resolves]
  refine ⟨round, summary, deed, held, resolves, ?_, fun majority => ?_⟩
  · rw [cast]
    rintro ⟨a, memberA, b, memberB, dataA, dataB, canonA, canonB, differ, same⟩
    have apart : ∀ a ∈ tiedVotes, ∀ b ∈ tiedVotes,
        (canonical a.2).toOption.map (H_hex Crypto.sample) = (canonical b.2).toOption.map (H_hex Crypto.sample) →
          (canonical a.2).toOption = (canonical b.2).toOption := by
      decide +kernel
    have equal := apart a memberA b memberB
    rw [canonA, canonB] at equal
    exact differ (Option.some.inj (equal (congrArg some same)))
  · have few := majority (passes true) status verdict
    rw [cast] at few
    revert few
    rw [Majority]
    decide +kernel

end JJDai.Challenge
