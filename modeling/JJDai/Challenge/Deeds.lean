import JJDai.Challenge.Round
import JJDai.Lib.Run

/-! Every deed a call can amount to, and what performing one changes. -/

namespace JJDai.Challenge

open PyText Canonical

variable {Time : Type} [LT Time] [DecidableLT Time] (crypto : Crypto) (setting : Setting Time)

structure Found (state : State Time) (roundId key : Json) (round : Round Time) : Prop where
  keyed : roundKey roundId = .ok key
  held : Dict.get? state.rounds key = some round

structure Fresh (round : Round Time) : Prop where
  seats : round.seats = []
  commits : round.commits = []
  reveals : round.reveals = []
  frauds : round.frauds = []
  resolved : round.resolved = none

/-- The deeds of each call, with what the call has checked. -/
inductive Decided (state : State Time) (now : Time) : Call → Deed Time → Prop where
  | opened {roundId transcript key eligible k round} (keyed : roundKey roundId = .ok key)
      (unused : Dict.get? state.rounds key = none) (fresh : Fresh round)
      (commitDeadline : round.commitDeadline = setting.commitDeadline now)
      (revealDeadline : round.revealDeadline = setting.revealDeadline now)
      (answers : openRound crypto setting state now roundId transcript eligible k =
        .ok (openDeed crypto setting key roundId round)) :
      Decided state now (.openRound roundId transcript eligible k) (openDeed crypto setting key roundId round)
  | seatRefused {roundId key round name proof rest text} (found : Found state roundId key round) :
      Decided state now (.claimSeat roundId (.str name) proof)
        (refusal key round (("phase", .str "seat_refused") :: rest) text)
  | seated {roundId key round name proof seat won} (found : Found state roundId key round) :
      Decided state now (.claimSeat roundId (.str name) proof)
        (seatDeed crypto key round roundId name seat won)
  | commitRefused {roundId key round name commitment rest text} (found : Found state roundId key round) :
      Decided state now (.commit roundId (.str name) commitment)
        (refusal key round (("phase", .str "double_commit_refused") :: rest) text)
  | committed {roundId key round name commitment} (found : Found state roundId key round)
      (seated : (Dict.get? round.seats name).isSome) (free : Dict.get? round.commits name = none)
      (inTime : ¬round.commitDeadline < now) :
      Decided state now (.commit roundId (.str name) commitment)
        (commitDeed key round roundId name commitment)
  | late {roundId key round name verdict salt rest text} (found : Found state roundId key round) :
      Decided state now (.reveal roundId (.str name) verdict salt)
        (refusal key round (("phase", .str "late_reveal_refused") :: rest) text)
  | mismatched {roundId key round name verdict salt com expect} (found : Found state roundId key round)
      (held : Dict.get? round.commits name = some com) (inTime : ¬round.revealDeadline < now)
      (made : makeCommitment crypto roundId (.str name) verdict salt = .ok expect)
      (differs : com.commitment ≠ .str expect)
      (judged : judge crypto state now roundId (.str name) verdict salt = .ok (.mismatched key round
        ⟨roundId, name, com.index, com.commitment, verdict, salt, expect, now⟩)) :
      Decided state now (.reveal roundId (.str name) verdict salt)
        (accuse setting key round ⟨roundId, name, com.index, com.commitment, verdict, salt, expect, now⟩)
  | published {roundId key round name verdict salt} (found : Found state roundId key round)
      (inTime : ¬round.revealDeadline < now)
      (judged : judge crypto state now roundId (.str name) verdict salt = .ok (.opened key round name)) :
      Decided state now (.reveal roundId (.str name) verdict salt)
        (publish key round roundId name verdict salt)
  | resolved {roundId key round summary} (found : Found state roundId key round)
      (pending : round.resolved = none) (due : ¬now < round.revealDeadline)
      (tallied : tally crypto roundId (Dict.keys round.seats) round.reveals (fraudsters round) =
        .ok summary)
      (answers : resolve crypto state now roundId =
        .ok (summary, some (resolveDeed key round summary))) :
      Decided state now (.resolve roundId) (resolveDeed key round summary)

variable {crypto} {setting} {state : State Time} {now : Time}

omit [LT Time] [DecidableLT Time] in
theorem found_of_ok {roundId key : Json} {round : Round Time} (keyed : roundKey roundId = .ok key)
    (found : findRound state roundId = .ok round) : Found state roundId key round := by
  simp only [findRound, bind, keyed, Except.bind] at found
  split at found
  · rename_i held
    obtain rfl := Except.ok.inj found
    exact ⟨keyed, held⟩
  · cases found

omit [LT Time] [DecidableLT Time] in
theorem Found.ok {roundId key : Json} {round : Round Time} (found : Found state roundId key round) :
    findRound state roundId = .ok round := by
  simp only [findRound, bind, found.keyed, Except.bind, found.held]
  rfl

theorem lookupId_some {d : Dict Str ν} {verifier : Json} {name : Str} {value : ν}
    (found : lookupId d verifier = .ok (some (name, value))) :
    verifier = .str name ∧ Dict.get? d name = some value := by
  cases verifier with
  | str other =>
    simp only [lookupId, hashable, Bool.not_true, Bool.false_eq_true, if_false, pure, Except.pure,
      Except.ok.injEq, Option.map_eq_some_iff] at found
    obtain ⟨held, present, same⟩ := found
    obtain ⟨rfl, rfl⟩ := Prod.mk.inj same
    exact ⟨rfl, present⟩
  | _ => cases found

theorem decided_openRound {roundId transcript : Json} {eligible : Dict Str Json} {k : Int}
    {deed : Deed Time} (decided : openRound crypto setting state now roundId transcript eligible k =
      .ok deed) : Decided crypto setting state now (.openRound roundId transcript eligible k) deed := by
  have answers := decided
  simp only [openRound, bind, Py.bind_ok, Py.unless_ok] at decided
  obtain ⟨key, keyed, unused, _, _, alpha, _, made⟩ := decided
  obtain rfl := Except.ok.inj made
  refine .opened keyed ?_ ⟨rfl, rfl, rfl, rfl, rfl⟩ rfl rfl answers
  simpa using unused

theorem decided_claimSeat {roundId verifier proof : Json} {deed : Deed Time}
    (decided : claimSeat crypto setting state roundId verifier proof = .ok (some deed)) :
    Decided crypto setting state now (.claimSeat roundId verifier proof) deed := by
  simp only [claimSeat, bind, Py.bind_ok] at decided
  obtain ⟨key, keyed, round, found, looked, lookedUp, decided⟩ := decided
  have found := found_of_ok keyed found
  cases looked with
  | none => cases decided
  | some entry =>
    obtain ⟨name, pub⟩ := entry
    obtain ⟨rfl, _⟩ := lookupId_some lookedUp
    dsimp only at decided
    split at decided
    · cases decided
    · split at decided
      · split at decided
        · cases decided
        · obtain ⟨detail, _, made⟩ := Py.bind_ok.mp decided
          obtain rfl := Option.some.inj (Except.ok.inj made)
          exact .seatRefused found
      · obtain ⟨won, _, made⟩ := Py.bind_ok.mp decided
        obtain rfl := Option.some.inj (Except.ok.inj made)
        exact .seated found

theorem decided_commit {roundId verifier commitment : Json} {deed : Deed Time}
    (decided : commit state now roundId verifier commitment = .ok deed) :
    Decided crypto setting state now (.commit roundId verifier commitment) deed := by
  simp only [commit, bind, Py.bind_ok] at decided
  obtain ⟨key, keyed, round, found, looked, lookedUp, decided⟩ := decided
  have found := found_of_ok keyed found
  cases looked with
  | none => cases decided
  | some entry =>
    obtain ⟨name, seat⟩ := entry
    obtain ⟨rfl, seated⟩ := lookupId_some lookedUp
    simp only [Py.unless_ok] at decided
    obtain ⟨inTime, decided⟩ := decided
    split at decided
    · obtain rfl := Except.ok.inj decided
      exact .commitRefused found
    · rename_i free
      obtain rfl := Except.ok.inj decided
      exact .committed found (by rw [seated]; rfl) (by simpa using free) inTime

theorem decided_reveal {roundId verifier verdict salt : Json} {deed : Deed Time}
    (decided : reveal crypto setting state now roundId verifier verdict salt = .ok deed) :
    Decided crypto setting state now (.reveal roundId verifier verdict salt) deed := by
  simp only [reveal, bind, Py.bind_ok] at decided
  obtain ⟨judgement, judged, decided⟩ := decided
  have made := judged
  simp only [judge, bind, Py.bind_ok] at made
  obtain ⟨key, keyed, round, found, looked, lookedUp, made⟩ := made
  have found := found_of_ok keyed found
  cases looked with
  | none => cases made
  | some entry =>
    obtain ⟨name, com⟩ := entry
    obtain ⟨rfl, held⟩ := lookupId_some lookedUp
    dsimp only at made
    split at made
    · obtain rfl := Except.ok.inj made
      obtain rfl := Except.ok.inj decided
      exact .late found
    · rename_i inTime
      obtain ⟨expect, recomputed, made⟩ := Py.bind_ok.mp made
      split at made
      · rename_i differs
        obtain rfl := Except.ok.inj made
        obtain rfl := Except.ok.inj decided
        exact .mismatched found held inTime recomputed differs judged
      · obtain rfl := Except.ok.inj made
        obtain rfl := Except.ok.inj decided
        exact .published found inTime judged

theorem decided_resolve {roundId : Json} {summary : Summary} {deed : Deed Time}
    (decided : resolve crypto state now roundId = .ok (summary, some deed)) :
    Decided crypto setting state now (.resolve roundId) deed := by
  have answers := decided
  simp only [resolve, bind, Py.bind_ok] at decided
  obtain ⟨key, keyed, round, found, decided⟩ := decided
  have found := found_of_ok keyed found
  cases settled : round.resolved with
  | some before =>
    simp only [settled] at decided
    cases decided
  | none =>
    simp only [settled, Py.unless_ok, Py.bind_ok] at decided
    obtain ⟨due, made, tallied, decided⟩ := decided
    obtain ⟨rfl, same⟩ := Prod.mk.inj (Except.ok.inj decided)
    obtain rfl := Option.some.inj same
    exact .resolved found settled due tallied answers

theorem decided_of_ok {call : Call} {deed : Deed Time}
    (decided : decideCall crypto setting state now call = .ok (.inr deed)) :
    Decided crypto setting state now call deed := by
  cases call with
  | openRound roundId transcript eligible k =>
    simp only [decideCall, bind, Py.bind_ok] at decided
    obtain ⟨other, made, same⟩ := decided
    obtain rfl := Sum.inr.inj (Except.ok.inj same)
    exact decided_openRound made
  | claimSeat roundId verifier proof =>
    simp only [decideCall, bind, Py.bind_ok] at decided
    obtain ⟨other, made, same⟩ := decided
    cases other with
    | none => cases same
    | some other =>
      obtain rfl := Sum.inr.inj (Except.ok.inj same)
      exact decided_claimSeat made
  | commit roundId verifier commitment =>
    simp only [decideCall, bind, Py.bind_ok] at decided
    obtain ⟨other, made, same⟩ := decided
    obtain rfl := Sum.inr.inj (Except.ok.inj same)
    exact decided_commit made
  | reveal roundId verifier verdict salt =>
    simp only [decideCall, bind, Py.bind_ok] at decided
    obtain ⟨other, made, same⟩ := decided
    obtain rfl := Sum.inr.inj (Except.ok.inj same)
    exact decided_reveal made
  | resolve roundId =>
    simp only [decideCall, bind, Py.bind_ok] at decided
    obtain ⟨⟨summary, other⟩, made, same⟩ := decided
    cases other with
    | none => cases same
    | some other =>
      obtain rfl := Sum.inr.inj (Except.ok.inj same)
      exact decided_resolve made

/-- What the commitments and frauds of every round have, those of the rounds a deed stores
have, given what a new fraud and a new commitment bring. -/
theorem ledgers_of_decided {P : Json → Dict Str Commit → List (Fraud Time) → Prop} {Q : Str → Prop}
    {call : Call} {deed : Deed Time} (decided : Decided crypto setting state now call deed)
    (all : ∀ key round, Dict.get? state.rounds key = some round → P key round.commits round.frauds)
    (blank : ∀ key, P key [] [])
    (accused : ∀ key round roundId name com expect verdict salt,
      call = .reveal roundId (.str name) verdict salt → Found state roundId key round →
      Dict.get? round.commits name = some com →
      makeCommitment crypto roundId (.str name) verdict salt = .ok expect →
      com.commitment ≠ .str expect → Q name ∧ P key round.commits
        (round.frauds ++ [⟨roundId, name, com.index, com.commitment, verdict, salt, expect, now⟩])) :
    P deed.key deed.round.commits deed.round.frauds ∧ (∀ name ∈ deed.slash, Q name) ∧
      ∀ index, (∀ key round roundId name commitment, call = .commit roundId (.str name) commitment →
          deed = commitDeed key round roundId name commitment → Found state roundId key round →
          P key (Dict.set round.commits name ⟨commitment, index⟩) round.frauds) →
        P deed.key (deed.later index).commits (deed.later index).frauds := by
  cases decided with
  | @opened roundId transcript key eligible k round keyed unused fresh =>
    have here : P key round.commits round.frauds := by
      rw [fresh.commits, fresh.frauds]
      exact blank key
    exact ⟨here, by simp [openDeed], fun _ _ => here⟩
  | seatRefused found => exact ⟨all _ _ found.held, by simp [refusal], fun _ _ => all _ _ found.held⟩
  | commitRefused found => exact ⟨all _ _ found.held, by simp [refusal], fun _ _ => all _ _ found.held⟩
  | late found => exact ⟨all _ _ found.held, by simp [refusal], fun _ _ => all _ _ found.held⟩
  | seated found =>
    have old := all _ _ found.held
    refine ⟨old, by simp [seatDeed], fun _ _ => ?_⟩
    simp only [seatDeed]
    split <;> exact old
  | committed found =>
    exact ⟨all _ _ found.held, by simp [commitDeed], fun index new => new _ _ _ _ _ rfl rfl found⟩
  | mismatched found held inTime made differs =>
    obtain ⟨charged, after⟩ := accused _ _ _ _ _ _ _ _ rfl found held made differs
    refine ⟨after, ?_, fun _ _ => after⟩
    intro name member
    simp only [accuse] at member
    split at member
    · obtain rfl := List.mem_singleton.mp member
      exact charged
    · cases member
  | published found =>
    have old := all _ _ found.held
    exact ⟨old, by simp [publish], fun _ _ => old⟩
  | resolved found =>
    have old := all _ _ found.held
    exact ⟨old, by simp [resolveDeed], fun _ _ => old⟩

def recordCall (digest : Json) (salt : Bytes) : AppendCall where
  kind := challengeKind
  request := .obj []
  semanticDigest := digest
  requestSalt := salt

/-- The deed's round is stored; then either the call raises, or the record stands at the
end of the chain and the rest follows. -/
inductive Performed (crypto : Crypto) (state : State Time) (circumstance : Circumstance Time)
    (deed : Deed Time) : State Time × Py Json → Prop where
  | stopped (e : PyErr) (refused : ¬((deed.logs → circumstance.logged) ∧ circumstance.written ∧
        (state.chain.append crypto (recordCall deed.digest circumstance.salt)).isOk)) :
      Performed crypto state circumstance deed
        ({ state with rounds := Dict.set state.rounds deed.key deed.round }, .error e)
  | completed (appended : Appended) (logged : deed.logs → circumstance.logged)
      (written : circumstance.written)
      (recorded : state.chain.append crypto (recordCall deed.digest circumstance.salt) = .ok appended) :
      Performed crypto state circumstance deed
        ({ chain := appended.chain
           rounds := Dict.set state.rounds deed.key (deed.later state.chain.records.length)
           slashed := state.slashed ++ deed.slash }, deed.answer state.chain.records.length)

omit [LT Time] [DecidableLT Time] in
theorem performed (crypto : Crypto) (state : State Time) (circumstance : Circumstance Time)
    (deed : Deed Time) : Performed crypto state circumstance deed
      (perform crypto state circumstance deed) := by
  obtain ⟨now, written, logged, salt⟩ := circumstance
  by_cases lost : (deed.logs && !logged) = true
  · have stays : perform crypto state ⟨now, written, logged, salt⟩ deed =
        ({ state with rounds := Dict.set state.rounds deed.key deed.round }, raise .osError) := by
      simp only [perform, if_pos lost]
    rw [stays]
    refine .stopped _ ?_
    rintro ⟨kept, _⟩
    simp only [Bool.and_eq_true, Bool.not_eq_true'] at lost
    exact absurd (kept lost.1) (by simp [lost.2])
  · cases recorded : state.chain.append crypto (recordCall deed.digest salt) with
    | error e =>
      have stays : perform crypto state ⟨now, written, logged, salt⟩ deed =
          ({ state with rounds := Dict.set state.rounds deed.key deed.round }, .error e) := by
        simp only [perform, if_neg lost, witness, ← recordCall.eq_1, recorded]
      rw [stays]
      refine .stopped e ?_
      simp [recorded, Except.isOk, Except.toBool]
    | ok appended =>
      have index : appended.chain.records.length - 1 = state.chain.records.length := by
        rw [(WitnessChain.append_adds recorded).1]
        simp
      cases written with
      | false =>
        have stays : perform crypto state ⟨now, false, logged, salt⟩ deed =
            ({ state with rounds := Dict.set state.rounds deed.key deed.round }, raise .osError) := by
          simp only [perform, if_neg lost, witness, ← recordCall.eq_1, recorded]
          rfl
        rw [stays]
        exact .stopped _ (by simp)
      | true =>
        have goes : perform crypto state ⟨now, true, logged, salt⟩ deed =
            ({ chain := appended.chain
               rounds := Dict.set state.rounds deed.key (deed.later state.chain.records.length)
               slashed := state.slashed ++ deed.slash },
              deed.answer state.chain.records.length) := by
          simp only [perform, if_neg lost, witness, ← recordCall.eq_1, recorded, if_true, index,
            Dict.set_set]
        rw [goes]
        exact .completed appended (by simpa using lost) rfl recorded

theorem step_kept {Good : State Time → Prop} {state : State Time} {action : Action Time}
    (good : Good state)
    (deeds : ∀ circumstance call deed outcome, action = .call circumstance call →
      Decided crypto setting state circumstance.now call deed →
      Performed crypto state circumstance deed outcome → Good outcome.1)
    (records : ∀ call appended, call.kind ≠ challengeKind →
      state.chain.append crypto call = .ok appended → Good { state with chain := appended.chain }) :
    Good (step crypto setting state action) := by
  cases action with
  | call circumstance call =>
    simp only [step, invoke]
    cases decided : decideCall crypto setting state circumstance.now call with
    | error e => exact good
    | ok result =>
      cases result with
      | inl answer => exact good
      | inr deed =>
        exact deeds circumstance call deed _ rfl (decided_of_ok decided)
          (performed crypto state circumstance deed)
  | record call other =>
    simp only [step]
    cases made : state.chain.append crypto call with
    | error e => exact good
    | ok appended => exact records call appended other made

omit [LT Time] [DecidableLT Time] in
theorem rounds_set {P : Json → Round Time → Prop} {rounds : Dict Json (Round Time)}
    (all : ∀ key round, Dict.get? rounds key = some round → P key round) {stored : Json}
    {value : Round Time} (new : P stored value) (key : Json) (round : Round Time)
    (found : Dict.get? (Dict.set rounds stored value) key = some round) : P key round := by
  rw [Dict.get?_set] at found
  split at found
  · rename_i same
    obtain rfl := Option.some.inj found
    exact same ▸ new
  · exact all key round found

end JJDai.Challenge
