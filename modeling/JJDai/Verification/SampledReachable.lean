import JJDai.Lib.LastWrite
import JJDai.Verification.Reachability
import Mathlib.Analysis.SpecialFunctions.Pow.Real

/-! The tokens that a sampler at a committed temperature can emit, and which of them the replay
marks reachable: the replay ranks the sixteen reported tokens by their probabilities at
temperature one. -/

namespace JJDai.Reachability

open PyText Nucleus

/-- The probabilities of a vocabulary at one position. -/
structure Distribution where
  entries : List (Str × ℝ)
  distinct : (entries.map Prod.fst).Nodup
  positive : ∀ entry ∈ entries, 0 < entry.2
  total : mass entries = 1

/-- The committed parameters of a sampler, and whether it takes the nucleus of the renormalised cut. -/
structure Sampler where
  temperature : ℝ
  warm : 0 < temperature
  topP : ℝ
  topK : Int
  renormalises : Bool

namespace Distribution

variable (d : Distribution)

/-- The vocabulary in an order of decreasing probability. -/
def Ranking (ranked : List (Str × ℝ)) : Prop := ranked.Perm d.entries ∧ Ranked ranked

noncomputable def weights : List ℝ := (d.entries.map Prod.snd).insertionSort (fun a b => b ≤ a)

/-- What a server reports that knows the sixteen most likely tokens. -/
def Reports (report : Candidates ℝ) : Prop :=
  ∃ ranked, d.Ranking ranked ∧ report.Perm ((ranked.take topLogprobs).map fun entry => (Real.log entry.2, entry.1))

end Distribution

namespace Sampler

variable (s : Sampler) (d : Distribution)

/-- The request names the parameters of the sampler, or leaves out what is the default. -/
def Commits (sampling : Sampling ℝ) : Prop :=
  sampling.temperature.getD 0 = s.temperature ∧ sampling.topP.getD 1 = s.topP ∧ sampling.topK.getD 0 = s.topK

/-- The sum of the scaled probabilities before they are normalised. -/
noncomputable def partition : ℝ := (d.entries.map fun entry => entry.2 ^ (1 / s.temperature)).sum

/-- A probability at the temperature of the sampler. -/
noncomputable def scale (p : ℝ) : ℝ := p ^ (1 / s.temperature) / s.partition d

/-- The share of the nucleus, of the whole or of the cut. -/
noncomputable def bound (scaled : List ℝ) : ℝ := s.topP * (if s.renormalises then (cut s.topK scaled).sum else 1)

/-- The token is in the smallest nucleus of the cut, for an order by scaled probability. -/
def CanEmit (tok : Str) : Prop :=
  ∃ ranked scaled : List (Str × ℝ), ranked.Perm d.entries ∧ scaled = ranked.map (fun entry => (entry.1, s.scale d entry.2)) ∧
    Ranked scaled ∧ tok ∈ (upTo (s.bound (scaled.map Prod.snd)) 0 (cut s.topK scaled)).map Prod.fst

/-- Every token that the sampler can emit at a position is marked reachable there. -/
def Judged (score : Sampling ℝ → List Str → List (Candidates ℝ) → Except EngineError (Verdict ℝ)) : Prop :=
  ∀ sampling tokens top, s.Commits sampling → tokens.length ≤ top.length →
    ∃ v, score sampling tokens top = .ok v ∧ ∀ (i : Nat) tok report, tokens[i]? = some tok → top[i]? = some report →
      d.Reports report → s.CanEmit d tok → v.reachable[i]? = some true

/-- Where the scaled weights before a rank leave room in the sampler's nucleus, the unscaled ones of the sixteen
first leave room for every later rank of the same weight. -/
def Covered : Prop :=
  ∀ near far p, near ≤ far → d.weights[near]? = some p → d.weights[far]? = some p →
    Within s.topK (s.bound (d.weights.map (s.scale d))) (d.weights.map (s.scale d)) near →
      Within s.topK (s.topP * (d.weights.take topLogprobs).sum) (d.weights.take topLogprobs) far

end Sampler

theorem before_total (a b : Str × ℝ) : Before a b ∨ Before b a := by
  rcases lt_trichotomy a.2 b.2 with less | same | greater
  · exact Or.inr (Or.inl less)
  · rcases le_total a.1 b.1 with first | second
    · exact Or.inl (Or.inr ⟨same.symm, first⟩)
    · exact Or.inr (Or.inr ⟨same, second⟩)
  · exact Or.inl (Or.inl greater)

theorem before_trans {a b c : Str × ℝ} (first : Before a b) (second : Before b c) : Before a c := by
  rcases first with less | ⟨same, named⟩
  · rcases second with later | ⟨equal, _⟩
    · exact Or.inl (later.trans less)
    · exact Or.inl (equal ▸ less)
  · rcases second with later | ⟨equal, more⟩
    · exact Or.inl (same ▸ later)
    · exact Or.inr ⟨equal.trans same, named.trans more⟩

theorem before_le {a b : Str × ℝ} (before : Before a b) : b.2 ≤ a.2 := by
  rcases before with less | ⟨same, _⟩
  · exact less.le
  · exact same.le

namespace Distribution

variable {d : Distribution} {ranked : List (Str × ℝ)}

theorem ranked_weights : d.weights.Pairwise (fun a b => b ≤ a) := by
  have total : Std.Total (fun a b : ℝ => b ≤ a) := ⟨fun a b => le_total b a⟩
  have transitive : IsTrans ℝ (fun a b => b ≤ a) := ⟨fun a b c first second => second.trans first⟩
  exact List.pairwise_insertionSort _ _

theorem Ranking.weights (ranking : d.Ranking ranked) : ranked.map Prod.snd = d.weights := by
  have order : (ranked.map Prod.snd).Perm d.weights :=
    (ranking.1.map _).trans (List.perm_insertionSort _ _).symm
  exact List.Perm.eq_of_pairwise (fun _ _ _ _ below above => le_antisymm above below) ranking.2 ranked_weights order

theorem Ranking.distinct (ranking : d.Ranking ranked) : (ranked.map Prod.fst).Nodup :=
  (ranking.1.map _).nodup_iff.mpr d.distinct

theorem Ranking.positive (ranking : d.Ranking ranked) : ∀ entry ∈ ranked, 0 < entry.2 :=
  fun entry member => d.positive entry (ranking.1.mem_iff.mp member)

theorem Ranking.weight (ranking : d.Ranking ranked) {rank : Nat} {tok : Str} {p : ℝ}
    (placed : ranked[rank]? = some (tok, p)) : d.weights[rank]? = some p := by
  rw [← ranking.weights, List.getElem?_map, placed]
  rfl

theorem exists_ranking (d : Distribution) : ∃ ranked, d.Ranking ranked := by
  have total : Std.Total (fun a b : Str × ℝ => b.2 ≤ a.2) := ⟨fun a b => le_total b.2 a.2⟩
  have transitive : IsTrans (Str × ℝ) (fun a b => b.2 ≤ a.2) := ⟨fun a b c first second => second.trans first⟩
  refine ⟨d.entries.insertionSort (fun a b => b.2 ≤ a.2), List.perm_insertionSort _ _, ?_⟩
  exact List.pairwise_map.mpr (List.pairwise_insertionSort _ _)

theorem weights_nonneg : ∀ weight ∈ d.weights, 0 ≤ weight := by
  intro weight member
  obtain ⟨entry, present, rfl⟩ := List.mem_map.mp ((List.mem_insertionSort _).mp member)
  exact (d.positive entry present).le

theorem nonempty (d : Distribution) : d.entries ≠ [] := by
  intro empty
  have total := d.total
  rw [empty] at total
  exact zero_ne_one total

theorem reported_pos (d : Distribution) : 0 < (d.weights.take topLogprobs).sum := by
  obtain ⟨ranked, ranking⟩ := d.exists_ranking
  rw [← ranking.weights, ← List.map_take]
  apply List.sum_pos
  · intro weight member
    obtain ⟨entry, present, rfl⟩ := List.mem_map.mp member
    exact ranking.positive entry (List.mem_of_mem_take present)
  · intro empty
    rw [List.map_eq_nil_iff, List.take_eq_nil_iff] at empty
    rcases empty with none_reported | none_ranked
    · exact absurd none_reported (by decide)
    · subst none_ranked
      exact d.nonempty ranking.1.nil_eq.symm

end Distribution

namespace Sampler

variable {s : Sampler} {d : Distribution} {ranked : List (Str × ℝ)}

theorem partition_pos (s : Sampler) (d : Distribution) : 0 < s.partition d := by
  apply List.sum_pos
  · intro weight member
    obtain ⟨entry, present, rfl⟩ := List.mem_map.mp member
    exact Real.rpow_pos_of_pos (d.positive entry present) _
  · intro empty
    exact d.nonempty (List.map_eq_nil_iff.mp empty)

theorem scale_le_iff {p q : ℝ} (first : 0 < p) (second : 0 < q) : s.scale d p ≤ s.scale d q ↔ p ≤ q := by
  unfold scale
  rw [div_le_div_iff_of_pos_right (s.partition_pos d)]
  exact Real.rpow_le_rpow_iff first.le second.le (one_div_pos.mpr s.warm)

theorem ranked_scaled_iff (order : ranked.Perm d.entries) :
    Ranked (ranked.map fun entry => (entry.1, s.scale d entry.2)) ↔ Ranked ranked := by
  unfold Ranked
  rw [List.map_map, List.pairwise_map, List.pairwise_map]
  apply List.Pairwise.iff_of_mem
  intro a b first second
  exact scale_le_iff (d.positive b (order.mem_iff.mp second)) (d.positive a (order.mem_iff.mp first))

theorem scaled_weights (ranking : d.Ranking ranked) :
    (ranked.map fun entry => (entry.1, s.scale d entry.2)).map Prod.snd = d.weights.map (s.scale d) := by
  rw [← ranking.weights, List.map_map, List.map_map]
  rfl

theorem canEmit_iff {tok : Str} : s.CanEmit d tok ↔
    ∃ ranked rank p, d.Ranking ranked ∧ ranked[rank]? = some (tok, p) ∧
      Within s.topK (s.bound (d.weights.map (s.scale d))) (d.weights.map (s.scale d)) rank := by
  have placed_iff : ∀ {ranked rank p}, d.Ranking ranked → ranked[rank]? = some (tok, p) →
      (tok ∈ (upTo (s.bound (d.weights.map (s.scale d))) 0
        (cut s.topK (ranked.map fun entry => (entry.1, s.scale d entry.2)))).map Prod.fst ↔
        Within s.topK (s.bound (d.weights.map (s.scale d))) (d.weights.map (s.scale d)) rank) := by
    intro ranked rank p ranking placed
    have names : (ranked.map fun entry => (entry.1, s.scale d entry.2)).map Prod.fst = ranked.map Prod.fst := by
      rw [List.map_map]
      rfl
    rw [← scaled_weights ranking]
    refine @mem_nucleus_iff _ _ _ _ _ _ _ _ rank (tok, s.scale d p) ?_ ?_ ?_
    · intro entry member
      obtain ⟨original, present, rfl⟩ := List.mem_map.mp member
      exact (div_pos (Real.rpow_pos_of_pos (ranking.positive original present) _) (s.partition_pos d)).le
    · rw [names]
      exact ranking.distinct
    · rw [List.getElem?_map, placed]
      rfl
  constructor
  · intro ⟨ranked, scaled, order, made, sorted, held⟩
    subst made
    have ranking : d.Ranking ranked := ⟨order, (ranked_scaled_iff order).mp sorted⟩
    rw [scaled_weights ranking] at held
    obtain ⟨entry, inside, named⟩ := List.mem_map.mp held
    obtain ⟨original, present, rfl⟩ := List.mem_map.mp (cut_subset (upTo_subset inside))
    obtain ⟨rank, placed⟩ := List.getElem?_of_mem present
    have here : ranked[rank]? = some (tok, original.2) := by rw [placed, ← named]
    exact ⟨ranked, rank, original.2, ranking, here, (placed_iff ranking here).mp held⟩
  · intro ⟨ranked, rank, p, ranking, placed, within⟩
    refine ⟨ranked, _, ranking.1, rfl, (ranked_scaled_iff ranking.1).mpr ranking.2, ?_⟩
    rw [scaled_weights ranking]
    exact (placed_iff ranking placed).mpr within

end Sampler

section Report

variable {d : Distribution} {report : Candidates ℝ}

theorem probabilities_report {ranked : List (Str × ℝ)} (ranking : d.Ranking ranked)
    (order : report.Perm ((ranked.take topLogprobs).map fun entry => (Real.log entry.2, entry.1))) :
    (probabilities Real.exp report).Perm (ranked.take topLogprobs) := by
  have read : (report.map fun c => (c.2, Real.exp c.1)).Perm (ranked.take topLogprobs) := by
    refine (order.map _).trans (List.Perm.of_eq ?_)
    rw [List.map_map]
    refine (List.map_congr_left fun entry member => ?_).trans (List.map_id _)
    show (entry.1, Real.exp (Real.log entry.2)) = entry
    rw [Real.exp_log (ranking.positive entry (List.mem_of_mem_take member))]
  have unique : (Dict.keys ([] ++ report.map fun c => (c.2, Real.exp c.1))).Nodup :=
    (read.map _).nodup_iff.mpr (ranking.distinct.sublist ((List.take_sublist _ _).map _))
  unfold probabilities
  rw [Dict.update_of_nodup unique]
  exact read

/-- The sorted probabilities of a report, before they are divided by their sum, start a ranking of the vocabulary. -/
theorem report_ranking (reported : d.Reports report) : ∃ first rest,
    d.Ranking (first ++ rest) ∧ first.length = (d.weights.take topLogprobs).length ∧
      (normalised (probabilities Real.exp report)).insertionSort Before =
        first.map fun entry => (entry.1, entry.2 / (d.weights.take topLogprobs).sum) := by
  obtain ⟨ranked, ranking, order⟩ := reported
  have read := probabilities_report ranking order
  have weights : (ranked.take topLogprobs).map Prod.snd = d.weights.take topLogprobs := by
    rw [← ranking.weights, List.map_take]
  have total : mass (probabilities Real.exp report) = (d.weights.take topLogprobs).sum := by
    rw [← weights]
    exact (read.map Prod.snd).sum_eq
  have positive := d.reported_pos
  have made : normalised (probabilities Real.exp report) =
      (probabilities Real.exp report).map fun entry => (entry.1, entry.2 / (d.weights.take topLogprobs).sum) := by
    unfold normalised
    dsimp only
    rw [total, if_neg positive.ne']
  generalize (d.weights.take topLogprobs).sum = z at positive made ⊢
  have sorted_perm : ((normalised (probabilities Real.exp report)).insertionSort Before).Perm
      ((probabilities Real.exp report).map fun entry => (entry.1, entry.2 / z)) := by
    rw [made]
    exact List.perm_insertionSort _ _
  have sorted : ((normalised (probabilities Real.exp report)).insertionSort Before).Pairwise Before := by
    have total : Std.Total (Before (K := ℝ)) := ⟨before_total⟩
    have transitive : IsTrans (Str × ℝ) Before := ⟨fun a b c => before_trans⟩
    exact List.pairwise_insertionSort _ _
  generalize (normalised (probabilities Real.exp report)).insertionSort Before = ordered at sorted_perm sorted
  have back : ∀ items : List (Str × ℝ),
      (items.map fun entry => (entry.1, entry.2 / z)).map (fun entry => (entry.1, entry.2 * z)) = items := by
    intro items
    rw [List.map_map]
    refine (List.map_congr_left fun entry _ => ?_).trans (List.map_id _)
    show (entry.1, entry.2 / z * z) = entry
    rw [div_mul_cancel₀ _ positive.ne']
  have taken : (ordered.map fun entry => (entry.1, entry.2 * z)).Perm (ranked.take topLogprobs) := by
    have order := sorted_perm.map fun entry => (entry.1, entry.2 * z)
    rw [back] at order
    exact order.trans read
  refine ⟨ordered.map (fun entry => (entry.1, entry.2 * z)), ranked.drop topLogprobs, ⟨?_, ?_⟩, ?_, ?_⟩
  · exact ((taken.append_right _).trans (List.Perm.of_eq (List.take_append_drop _ _))).trans ranking.1
  · have split := ranking.2
    rw [← List.take_append_drop topLogprobs ranked, Ranked, List.map_append, List.pairwise_append] at split
    rw [Ranked, List.map_append, List.pairwise_append]
    refine ⟨?_, split.2.1, ?_⟩
    · rw [List.map_map, List.pairwise_map]
      refine sorted.imp fun {a b} before => ?_
      exact mul_le_mul_of_nonneg_right (before_le before) positive.le
    · intro a first
      exact split.2.2 a ((taken.map _).mem_iff.mp first)
  · rw [taken.length_eq, ← weights, List.length_map]
  · rw [List.map_map]
    symm
    refine (List.map_congr_left fun entry _ => ?_).trans (List.map_id _)
    show (entry.1, entry.2 * z / z) = entry
    rw [mul_div_cancel_right₀ _ positive.ne']

/-- The replay marks the ranks whose unscaled weights leave room in the nucleus of the reported ones. -/
theorem marks_report {s : Sampler} {sampling : Sampling ℝ} (committed : s.Commits sampling) (reported : d.Reports report) :
    ∃ ranked, d.Ranking ranked ∧ ∀ rank tok p, ranked[rank]? = some (tok, p) →
      (marks Real.exp sampling tok report = true ↔
        Within s.topK (s.topP * (d.weights.take topLogprobs).sum) (d.weights.take topLogprobs) rank) := by
  obtain ⟨first, rest, ranking, long, ordered⟩ := report_ranking reported
  refine ⟨first ++ rest, ranking, ?_⟩
  intro rank tok p placed
  obtain ⟨temperature, topP, topK⟩ := committed
  have positive := d.reported_pos
  have weights : first.map Prod.snd = d.weights.take topLogprobs := by
    have all := ranking.weights
    rw [List.map_append] at all
    have start : d.weights.take topLogprobs = d.weights.take first.length := by
      rw [long, List.length_take, ← List.take_eq_take_min]
    rw [start, ← all, List.take_left' (List.length_map _)]
  generalize (d.weights.take topLogprobs).sum = z at positive ordered ⊢
  have names : (first.map fun entry => (entry.1, entry.2 / z)).map Prod.fst = first.map Prod.fst := by
    rw [List.map_map]
    rfl
  unfold marks nucleusOf
  dsimp only
  rw [temperature, topP, topK, ordered, if_neg (not_le.mpr s.warm), decide_eq_true_iff]
  have distinct := ranking.distinct
  rw [List.map_append] at distinct
  by_cases inside : rank < first.length
  · rw [List.getElem?_append_left inside] at placed
    rw [← within_div positive, ← weights, List.map_map]
    refine (@mem_nucleus_iff _ _ _ _ _ _ _ _ rank (tok, p / z) ?_ ?_ ?_).trans ?_
    · intro entry member
      obtain ⟨original, present, rfl⟩ := List.mem_map.mp member
      exact (div_pos (ranking.positive original (List.mem_append_left _ present)) positive).le
    · rw [names]
      exact (List.nodup_append.mp distinct).1
    · rw [List.getElem?_map, placed]
      rfl
    · rw [List.map_map]
      rfl
  · rw [List.getElem?_append_right (not_lt.mp inside)] at placed
    have later : tok ∈ rest.map Prod.fst := List.mem_map_of_mem (List.mem_of_getElem? placed)
    constructor
    · intro marked
      obtain ⟨entry, held, named⟩ := List.mem_map.mp marked
      obtain ⟨original, present, rfl⟩ := List.mem_map.mp (cut_subset (upTo_subset held))
      have earlier : tok ∈ first.map Prod.fst := by
        rw [← named]
        show original.1 ∈ first.map Prod.fst
        exact List.mem_map_of_mem present
      exact absurd rfl ((List.nodup_append.mp distinct).2.2 _ earlier _ later)
    · intro within
      have short : (cut s.topK (d.weights.take topLogprobs)).length ≤ first.length := by
        rw [long, cut_eq_take]
        exact List.length_take_le' _ _
      exact absurd (lt_of_lt_of_le within.1 short) inside

end Report

section Judged

variable {s : Sampler} {d : Distribution}

theorem marks_of_canEmit {sampling : Sampling ℝ} {report : Candidates ℝ} {tok : Str} (covered : s.Covered d)
    (committed : s.Commits sampling) (reported : d.Reports report) (emitted : s.CanEmit d tok) :
    marks Real.exp sampling tok report = true := by
  obtain ⟨sampled, near, p, sampled_ranking, at_near, within⟩ := Sampler.canEmit_iff.mp emitted
  obtain ⟨ranked, ranking, marked⟩ := marks_report committed reported
  have present : (tok, p) ∈ ranked :=
    ranking.1.mem_iff.mpr (sampled_ranking.1.mem_iff.mp (List.mem_of_getElem? at_near))
  obtain ⟨rank, placed⟩ := List.getElem?_of_mem present
  apply (marked rank tok p placed).mpr
  have nonneg : ∀ weight ∈ d.weights.take topLogprobs, 0 ≤ weight :=
    fun weight member => Distribution.weights_nonneg weight (List.mem_of_mem_take member)
  rcases le_total near rank with before | after
  · exact covered near rank p before (sampled_ranking.weight at_near) (ranking.weight placed) within
  · exact within_of_le nonneg after
      (covered near near p (le_refl near) (sampled_ranking.weight at_near) (sampled_ranking.weight at_near) within)

theorem exists_unmarked {near far : Nat} {p : ℝ} {sampling : Sampling ℝ} {report : Candidates ℝ}
    (committed : s.Commits sampling) (reported : d.Reports report) (at_near : d.weights[near]? = some p)
    (at_far : d.weights[far]? = some p)
    (within : Within s.topK (s.bound (d.weights.map (s.scale d))) (d.weights.map (s.scale d)) near)
    (beyond : ¬Within s.topK (s.topP * (d.weights.take topLogprobs).sum) (d.weights.take topLogprobs) far) :
    ∃ tok, s.CanEmit d tok ∧ marks Real.exp sampling tok report ≠ true := by
  obtain ⟨ranked, ranking, marked⟩ := marks_report committed reported
  have entry_at : ∀ {rank : Nat}, d.weights[rank]? = some p → ∃ tok, ranked[rank]? = some (tok, p) := by
    intro rank weighed
    rw [← ranking.weights, List.getElem?_map] at weighed
    obtain ⟨entry, placed, same⟩ := Option.map_eq_some_iff.mp weighed
    exact ⟨entry.1, by rw [placed, ← same]⟩
  obtain ⟨first, first_at⟩ := entry_at at_near
  obtain ⟨tok, tok_at⟩ := entry_at at_far
  obtain ⟨swapped, order, sorted, placed⟩ := swap_places ranking.2 first_at tok_at rfl
  refine ⟨tok, Sampler.canEmit_iff.mpr ⟨swapped, near, p, ⟨order.trans ranking.1, sorted⟩, placed, within⟩, ?_⟩
  intro mark
  exact beyond ((marked far tok p tok_at).mp mark)

theorem exists_report (d : Distribution) : ∃ report, d.Reports report := by
  obtain ⟨ranked, ranking⟩ := d.exists_ranking
  exact ⟨_, ranked, ranking, List.Perm.refl _⟩

theorem exists_committed (s : Sampler) : ∃ sampling, s.Commits sampling :=
  ⟨⟨some s.temperature, some s.topP, some s.topK⟩, rfl, rfl, rfl⟩

/-- The shared replay marks what the sampler can emit exactly where its ranks are covered. -/
theorem judge_judged_iff (round : ℝ → Nat → ℝ) (short : EngineError) (fingerprint determinism : Str) :
    s.Judged d (fun sampling tokens top =>
      judge Real.exp sampling round short fingerprint determinism tokens (some top)) ↔ s.Covered d := by
  constructor
  · intro judged near far p _ at_near at_far within
    by_contra beyond
    obtain ⟨report, reported⟩ := exists_report d
    obtain ⟨sampling, committed⟩ := exists_committed s
    obtain ⟨tok, emitted, unmarked⟩ := exists_unmarked committed reported at_near at_far within beyond
    obtain ⟨v, returned, seen⟩ := judged sampling [tok] [report] committed (le_refl 1)
    have long : [tok].length ≤ [report].length := le_refl 1
    obtain ⟨other, again, reachable⟩ := judge_ok Real.exp sampling round short fingerprint determinism long
    obtain rfl := Except.ok.inj (returned.symm.trans again)
    have marked := seen 0 tok report rfl rfl reported emitted
    rw [reachable] at marked
    exact unmarked (Option.some.inj marked)
  · intro covered sampling tokens top committed long
    obtain ⟨v, returned, reachable⟩ := judge_ok Real.exp sampling round short fingerprint determinism long
    refine ⟨v, returned, ?_⟩
    intro i tok report token_at report_at reported emitted
    rw [reachable, List.getElem?_zipWith_eq_some]
    exact ⟨tok, report, token_at, report_at, marks_of_canEmit covered committed reported emitted⟩

/-- Both engines mark every token that the sampler can emit exactly where, for every rank that the scaled weights
leave in the sampler's nucleus, the unscaled weights of the sixteen first leave the later ranks of its weight. -/
theorem score_judged_iff (s : Sampler) (d : Distribution) (round : ℝ → Nat → ℝ) (sglang : SGLangEngine)
    (dwarfstar : DwarfStarEngine) (messages : List Message) (adapterIds : List Str) :
    (s.Judged d (fun sampling tokens top => sglang.score Real.exp round (fun _ => .ok (some top)) messages tokens
      sampling adapterIds) ↔ s.Covered d) ∧
    (s.Judged d (fun sampling tokens top => { dwarfstar with supportsLogprobs := true }.score Real.exp round
      (fun _ => .ok (some top)) messages tokens sampling []) ↔ s.Covered d) := by
  constructor
  · exact judge_judged_iff round _ sglang.fingerprint sglang.determinismLevel
  · exact judge_judged_iff round _ dwarfstar.fingerprint dwarfstar.determinismLevel

end Judged

section Sample

section Numerals

local instance two_weight : Nat.AtLeastTwo 2 := ⟨by decide⟩

local instance three_weight : Nat.AtLeastTwo 3 := ⟨by decide⟩

local instance five_weight : Nat.AtLeastTwo 5 := ⟨by decide⟩

local instance sixteen_weight : Nat.AtLeastTwo 16 := ⟨by decide⟩

/-- A sampler at temperature two that keeps six tenths. -/
noncomputable def warmSampler : Sampler where
  temperature := 2
  warm := by norm_num
  topP := 3 / 5
  topK := 0
  renormalises := false

/-- Two tokens of probabilities 0.64 and 0.36. -/
noncomputable def twoTokens : Distribution where
  entries := [(Str.ofString "a", 16 / 25), (Str.ofString "b", 9 / 25)]
  distinct := by decide
  positive := by
    intro entry member
    rcases List.mem_cons.mp member with rfl | later
    · norm_num
    · rw [List.mem_singleton.mp later]
      norm_num
  total := by
    rw [mass_cons, mass_cons]
    norm_num [mass]

end Numerals

theorem twoTokens_weights : twoTokens.weights = [16 / 25, 9 / 25] := by
  have ranking : twoTokens.Ranking twoTokens.entries := by
    refine ⟨List.Perm.refl _, List.pairwise_cons.mpr ⟨?_, List.pairwise_singleton _ _⟩⟩
    intro weight member
    rw [List.mem_singleton.mp member]
    norm_num
  exact ranking.weights.symm

theorem warmSampler_scale : warmSampler.scale twoTokens (16 / 25) = 4 / 7 := by
  have root : ∀ {x y : ℝ}, 0 ≤ y → y * y = x → x ^ (1 / warmSampler.temperature) = y := by
    intro x y nonneg square
    have half : (1 / warmSampler.temperature : ℝ) = 1 / 2 := rfl
    rw [half, ← Real.sqrt_eq_rpow, ← square, Real.sqrt_mul_self nonneg]
  have first : (16 / 25 : ℝ) ^ (1 / warmSampler.temperature) = 4 / 5 := root (by norm_num) (by norm_num)
  have second : (9 / 25 : ℝ) ^ (1 / warmSampler.temperature) = 3 / 5 := root (by norm_num) (by norm_num)
  have sum : warmSampler.partition twoTokens =
      (16 / 25 : ℝ) ^ (1 / warmSampler.temperature) + ((9 / 25 : ℝ) ^ (1 / warmSampler.temperature) + 0) := rfl
  unfold Sampler.scale
  rw [sum, first, second]
  norm_num

theorem warmSampler_uncovered : ¬warmSampler.Covered twoTokens := by
  intro covered
  have within := covered 1 1 (9 / 25) (le_refl 1) (by rw [twoTokens_weights]; rfl) (by rw [twoTokens_weights]; rfl)
  rw [twoTokens_weights] at within
  have room : Within warmSampler.topK
      (warmSampler.bound ([16 / 25, 9 / 25].map (warmSampler.scale twoTokens)))
      ([16 / 25, 9 / 25].map (warmSampler.scale twoTokens)) 1 := by
    refine ⟨Nat.one_lt_two, Or.inr ?_⟩
    show warmSampler.scale twoTokens (16 / 25) + 0 < 3 / 5 * 1
    rw [warmSampler_scale]
    norm_num
  rcases (within room).2 with first | below
  · exact absurd first Nat.one_ne_zero
  · have short : (16 / 25 + 0 : ℝ) < 3 / 5 * (16 / 25 + (9 / 25 + 0)) := below
    norm_num at short

/-- The second token can be emitted, and neither engine marks it reachable. -/
theorem warm_token_unmarked :
    ¬warmSampler.Judged twoTokens (fun sampling tokens top => ({ fingerprint := [] } : SGLangEngine).score Real.exp
        (fun x _ => x) (fun _ => .ok (some top)) [] tokens sampling []) ∧
      ¬warmSampler.Judged twoTokens (fun sampling tokens top =>
        ({ fingerprint := [], supportsLogprobs := true } : DwarfStarEngine).score Real.exp (fun x _ => x)
          (fun _ => .ok (some top)) [] tokens sampling []) := by
  constructor
  · intro judged
    exact warmSampler_uncovered ((judge_judged_iff (fun x _ => x) _ [] _).mp judged)
  · intro judged
    exact warmSampler_uncovered ((judge_judged_iff (fun x _ => x) _ [] _).mp judged)

end Sample

end JJDai.Reachability
