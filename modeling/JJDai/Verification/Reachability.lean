import JJDai.Lib.Nucleus
import JJDai.Primitive.Durable

/-! `score` of `adapters.backends.sglang` and `adapters.backends.dwarfstar`: the verifier replays
the tokens and says of each whether the committed sampling could give it. -/

namespace JJDai.Reachability

open PyText Nucleus

universe u

inductive EngineError where
  | sglangError (text : Str)
  | dwarfStarError (text : Str)
  | keyError
  | indexError
  deriving DecidableEq

structure Message where
  role : Str
  content : Str

/-- The committed sampling parameters that the request names. -/
structure Sampling (K : Type u) where
  temperature : Option K := none
  topP : Option K := none
  topK : Option Int := none

structure Verdict (K : Type u) where
  ok : Bool
  reachable : List Bool
  minMargin : K
  verifierFp : Str
  determinism : Str
  note : Str

/-- One position of a server's report: log-probabilities with their tokens. -/
abbrev Candidates (K : Type u) := List (K × Str)

def _prompt (messages : List Message) : Str :=
  joinWith "\n" (messages.map fun m => m.role ++ Str.ofString ": " ++ m.content) ++ Str.ofString "\nassistant:"

def wordCount (text : Str) : Nat := (text.splitOnP Durable.isSpace).countP (fun word => !word.isEmpty)

def forced (messages : List Message) (tokens : List Str) : Str :=
  _prompt messages ++ Str.ofString " " ++ joinWith " " tokens

section Replay

variable {K : Type u} [Field K] [LinearOrder K] (exp : K → K) (sampling : Sampling K)

/-- `{t: math.exp(lp) for lp, t in cands}`. -/
def probabilities (cands : Candidates K) : Dict Str K := Dict.update [] (cands.map fun c => (c.2, exp c.1))

/-- The probabilities over their sum, or as they are where that is zero. -/
def normalised (probs : Dict Str K) : Dict Str K :=
  let z := if mass probs = 0 then 1 else mass probs
  probs.map fun entry => (entry.1, entry.2 / z)

def Before (a b : Str × K) : Prop := b.2 < a.2 ∨ b.2 = a.2 ∧ a.1 ≤ b.1

instance : DecidableRel (Before (K := K)) := fun _ _ => inferInstanceAs (Decidable (_ ∨ _))

/-- The tokens that the committed sampling can give, with their probabilities. -/
def nucleusOf (probs : Dict Str K) : List (Str × K) :=
  let ordered := cut (sampling.topK.getD 0) (probs.insertionSort Before)
  -- A temperature of zero is the greedy choice: the first token alone.
  if sampling.temperature.getD 0 ≤ 0 then ordered.take 1 else upTo (sampling.topP.getD 1) 0 ordered

section Numerals

local instance ten_numeral : Nat.AtLeastTwo 10 := ⟨by decide⟩

/-- One step of the loop: whether the token was reachable, and the least margin so far. -/
def position (tok : Str) (cands : Candidates K) (state : List Bool × K) : Except EngineError (List Bool × K) :=
  let probs := normalised (probabilities exp cands)
  let nucleus := nucleusOf sampling probs
  if tok ∈ nucleus.map Prod.fst then
    match Dict.get? probs tok, nucleus.getLast? with
    | none, _ => .error .keyError
    | some _, none => .error .indexError
    | some p, some floor => .ok (state.1 ++ [true], min state.2 (p - floor.2 + 1 / 10 ^ 12))
  else .ok (state.1 ++ [false], state.2)

end Numerals

def replay : List Str → List (Candidates K) → List Bool × K → Except EngineError (List Bool × K)
  | [], _, state => .ok state
  | _ :: _, [], _ => .error .indexError
  | tok :: rest, cands :: top, state => do
    let state ← position exp sampling tok cands state
    replay rest top state

variable (round : K → Nat → K)

def verdict (fingerprint determinism : Str) (tokens : List Str) (state : List Bool × K) : Verdict K :=
  let allOk := state.1.all id && state.1.length == tokens.length
  { ok := allOk
    reachable := state.1
    minMargin := round (if allOk then state.2 else 0) 6
    verifierFp := fingerprint
    determinism := determinism
    note := if allOk then [] else Str.ofString "unreachable token at pos " ++ natText (state.1.idxOf false) }

def judge (short : EngineError) (fingerprint determinism : Str) (tokens : List Str)
    (top : Option (List (Candidates K))) : Except EngineError (Verdict K) :=
  match top with
  | none => .error short
  | some top =>
    if top.length < tokens.length then .error short
    else do
      let state ← replay exp sampling tokens top ([], 1)
      return verdict round fingerprint determinism tokens state

end Replay

structure SGLangEngine where
  fingerprint : Str
  adapterPaths : Dict Str Str := []
  determinismLevel : Str := Str.ofString "attested"

structure DwarfStarEngine where
  fingerprint : Str
  determinismLevel : Str := Str.ofString "attested"
  supportsLogprobs : Bool := false

/-- The body of `/generate`, whose `max_new_tokens` is 0 and `return_logprob` true. -/
structure GenerateBody where
  text : Str
  logprobStartLen : Nat
  topLogprobsNum : Nat
  loraPath : Option Str

/-- The body of `/v1/generate`, whose `n_predict` is 0. -/
structure ForcedBody where
  prompt : Str
  logprobs : Nat
  logprobStart : Nat

/-- How many candidates a position of the report has. -/
def topLogprobs : Nat := 16

section Score

variable {K : Type u} [Field K] [LinearOrder K] (exp : K → K) (round : K → Nat → K)

/-- `post` reads `input_top_logprobs` of the reply's `meta_info`. -/
def SGLangEngine.score (engine : SGLangEngine) (post : GenerateBody → Except EngineError (Option (List (Candidates K))))
    (messages : List Message) (tokens : List Str) (sampling : Sampling K) (adapterIds : List Str) :
    Except EngineError (Verdict K) := do
  let top ← post
    { text := forced messages tokens
      logprobStartLen := wordCount (_prompt messages)
      topLogprobsNum := topLogprobs
      loraPath := adapterIds.head?.map fun id => (Dict.get? engine.adapterPaths id).getD id }
  judge exp sampling round (.sglangError (Str.ofString "server returned no/short input_top_logprobs"))
    engine.fingerprint engine.determinismLevel tokens top

/-- `post` reads `top_logprobs` of the reply. -/
def DwarfStarEngine.score (engine : DwarfStarEngine)
    (post : ForcedBody → Except EngineError (Option (List (Candidates K)))) (messages : List Message)
    (tokens : List Str) (sampling : Sampling K) (adapterIds : List Str) : Except EngineError (Verdict K) :=
  if adapterIds ≠ [] then .error (.dwarfStarError (Str.ofString "Profile B: no adapters (see generate())."))
  else if engine.supportsLogprobs = false then
    .error (.dwarfStarError (Str.ofString ("this DwarfStar build exposes no forced-continuation " ++
      "logprobs; verifier role unavailable — use a peer verifier node (/v1/score on a Tier-2 or CPU-reproducible " ++
      "node).")))
  else do
    let top ← post
      { prompt := forced messages tokens
        logprobs := topLogprobs
        logprobStart := wordCount (_prompt messages) }
    judge exp sampling round (.dwarfStarError (Str.ofString "server returned no/short top_logprobs"))
      engine.fingerprint engine.determinismLevel tokens top

end Score

section Marks

variable {K : Type u} [Field K] [LinearOrder K] (exp : K → K) (sampling : Sampling K)

def marks (tok : Str) (cands : Candidates K) : Bool :=
  tok ∈ (nucleusOf sampling (normalised (probabilities exp cands))).map Prod.fst

theorem nucleusOf_subset {probs : Dict Str K} {entry : Str × K} (member : entry ∈ nucleusOf sampling probs) :
    entry ∈ probs := by
  unfold nucleusOf at member
  dsimp only at member
  have sorted : ∀ {other : Str × K}, other ∈ cut (sampling.topK.getD 0) (probs.insertionSort Before) → other ∈ probs :=
    fun held => (List.mem_insertionSort _).mp (cut_subset held)
  split at member
  · exact sorted (List.mem_of_mem_take member)
  · exact sorted (upTo_subset member)

theorem position_ok (tok : Str) (cands : Candidates K) (state : List Bool × K) :
    ∃ margin, position exp sampling tok cands state = .ok (state.1 ++ [marks exp sampling tok cands], margin) := by
  unfold position marks
  dsimp only
  generalize normalised (probabilities exp cands) = probs
  by_cases reached : tok ∈ (nucleusOf sampling probs).map Prod.fst
  · rw [if_pos reached, decide_eq_true reached]
    obtain ⟨entry, member, named⟩ := List.mem_map.mp reached
    have known : tok ∈ Dict.keys probs := by
      rw [← named]
      exact List.mem_map_of_mem (nucleusOf_subset sampling member)
    obtain ⟨p, looked⟩ := Option.isSome_iff_exists.mp (Dict.mem_keys.mp known)
    obtain ⟨floor, last⟩ := Option.isSome_iff_exists.mp (List.getLast?_isSome.mpr (List.ne_nil_of_mem member))
    rw [looked, last]
    exact ⟨_, rfl⟩
  · rw [if_neg reached, decide_eq_false reached]
    exact ⟨_, rfl⟩

theorem replay_ok (tokens : List Str) {top : List (Candidates K)} (state : List Bool × K)
    (long : tokens.length ≤ top.length) :
    ∃ margin, replay exp sampling tokens top state =
      .ok (state.1 ++ List.zipWith (marks exp sampling) tokens top, margin) := by
  induction tokens generalizing top state with
  | nil => exact ⟨state.2, by rw [replay, List.zipWith_nil_left, List.append_nil]⟩
  | cons tok rest ih =>
    cases top with
    | nil => exact absurd long (Nat.not_succ_le_zero _)
    | cons cands top =>
      obtain ⟨margin, stepped⟩ := position_ok exp sampling tok cands state
      obtain ⟨final, rest_ok⟩ := ih (state.1 ++ [marks exp sampling tok cands], margin) (Nat.le_of_succ_le_succ long)
      refine ⟨final, ?_⟩
      rw [replay, stepped]
      refine rest_ok.trans ?_
      rw [List.zipWith_cons_cons, List.append_assoc, List.singleton_append]

theorem judge_ok (round : K → Nat → K) (short : EngineError) (fingerprint determinism : Str) {tokens : List Str}
    {top : List (Candidates K)} (long : tokens.length ≤ top.length) :
    ∃ v, judge exp sampling round short fingerprint determinism tokens (some top) = .ok v ∧
      v.reachable = List.zipWith (marks exp sampling) tokens top := by
  obtain ⟨margin, ran⟩ := replay_ok exp sampling tokens (([], 1) : List Bool × K) long
  refine ⟨verdict round fingerprint determinism tokens (List.zipWith (marks exp sampling) tokens top, margin), ?_, rfl⟩
  unfold judge
  dsimp only
  rw [if_neg (not_lt.mpr long), ran]
  rfl

end Marks

end JJDai.Reachability
