import JJDai.Reputation.History

/-! Where no verdict counts against the evidence, every weight is defined and bounded. -/

namespace JJDai.Reputation

open PyText Shrinkage

namespace Registry

variable {params : Params ℝ} {registry : Registry ℝ}

theorem raw_nonneg (sound : params.Sound) (sane : registry.Sane) (objectId : Str) (now : ℝ) {n p : ℝ}
    (passed : 0 ≤ p) (evident : 0 ≤ n) : 0 ≤ registry.raw params objectId now n p := by
  have gate := (@gate_bounds params registry sound.toDefined objectId).1
  have kept := (slashFactor_bounds sound sane.unspent objectId now).1
  have rated := rate_nonneg sound.weighted sound.least passed evident
  have credited := @credit_nonneg params.gamma _ _ sound.saturates evident
  exact mul_nonneg (mul_nonneg (mul_nonneg gate kept) rated) credited

theorem factors_bounded (sound : params.Sound) (sane : registry.Sane) (objectId : Str) (now : ℝ) {sums : Sums ℝ}
    (passed : 0 ≤ sums.pEff) (evident : 0 ≤ sums.nEff) :
    ∃ c, registry.factors .real params sums objectId now = .ok c ∧ 0 ≤ c.w ∧ c.w ≤ params.wMax := by
  obtain ⟨avgMargin, computed⟩ := @factors_ok params registry sound.toDefined sums evident objectId now
  have least := raw_nonneg sound sane objectId now passed evident
  exact ⟨_, computed, le_min sound.clips least, min_le_left _ _⟩

theorem weight_bounded (sound : params.Sound) (sane : registry.Sane) (topic objectId scope : Str) (now : ℝ) :
    ∃ w, registry.weight .real params topic objectId scope now = .ok w ∧ 0 ≤ w ∧ w ≤ params.wMax := by
  have rows := sane.rows_sane topic scope objectId
  have evident := @evidence_nonneg params _ rows now
  have passed := @passes_nonneg params _ rows now
  have least := raw_nonneg sound sane objectId now passed evident
  exact ⟨_, weight_eq sound.toDefined evident, le_min sound.clips least, min_le_left _ _⟩

theorem generalWeight_bounded (sound : params.Sound) (sane : registry.Sane) (objectId : Str) (now : ℝ) :
    ∃ w, registry.generalWeight .real params objectId now = .ok w ∧ 0 ≤ w ∧ w ≤ params.wMax := by
  have rows := sane.rowsFor_sane objectId
  let sums := sumsOf .real params now (registry.rowsFor objectId)
  obtain ⟨c, computed, bounds⟩ := @factors_bounded params registry sound sane objectId now { sums with mNum := 0, mDen := 0 }
    ((passes_nonneg rows now).trans_eq (sumsOf_pEff now).symm) ((evidence_nonneg rows now).trans_eq (sumsOf_nEff now).symm)
  refine ⟨c.w, ?_, bounds⟩
  unfold generalWeight generalComponents
  rw [computed]
  rfl

theorem containWeight_bounded (sound : params.Sound) (sane : registry.Sane) (objectId topic : Str) (now : ℝ) :
    ∃ w, registry.containWeight .real params objectId topic now = .ok w ∧ 0 ≤ w ∧ w ≤ params.wMax := by
  obtain ⟨floor, general, floorLeast, _⟩ := generalWeight_bounded sound sane objectId now
  obtain ⟨expert, special, expertLeast, _⟩ := weight_bounded sound sane topic objectId globalScope now
  have bonus : 0 ≤ params.containTopicGain * expert := mul_nonneg sound.gains expertLeast
  refine ⟨min params.wMax (floor + params.containTopicGain * expert), ?_, ?_, min_le_left _ _⟩
  · unfold containWeight
    rw [general, special]
    rfl
  · exact le_min sound.clips (add_nonneg floorLeast bonus)

/-- All the weights and the slash factor of an object at a time are defined and within their
bounds. -/
def Bounded (params : Params ℝ) (registry : Registry ℝ) (topic objectId scope : Str) (now : ℝ) : Prop :=
  (∃ w, registry.weight .real params topic objectId scope now = .ok w ∧ 0 ≤ w ∧ w ≤ params.wMax) ∧
    (∃ w, registry.generalWeight .real params objectId now = .ok w ∧ 0 ≤ w ∧ w ≤ params.wMax) ∧
    (∃ w, registry.containWeight .real params objectId topic now = .ok w ∧ 0 ≤ w ∧ w ≤ params.wMax) ∧
    0 ≤ registry.slashFactor params objectId now ∧ registry.slashFactor params objectId now ≤ 1

theorem weights_bounded (sound : params.Sound) {events : List (Event ℝ)} (counts : ∀ event ∈ events, event.Counts)
    (topic objectId scope : Str) (now : ℝ) : (replay .real params events).Bounded params topic objectId scope now := by
  have sane := sane_replay sound counts
  refine ⟨weight_bounded sound sane topic objectId scope now, generalWeight_bounded sound sane objectId now, ?_, ?_⟩
  · exact containWeight_bounded sound sane objectId topic now
  · exact slashFactor_bounds sound sane.unspent objectId now

theorem weights_bounded_sample :
    (replay .real .standard [.verdict 0 "sort" globalScope "m1" true none 0, .slash 1 "m1" "" 5]).Bounded .standard
      "sort" "m1" globalScope 2 := by
  apply weights_bounded standard_sound
  intro event member
  rcases List.mem_cons.mp member with rfl | later
  · exact le_refl (0 : ℝ)
  · rw [List.mem_singleton.mp later]
    trivial

theorem factors_undefined {sums : Sums ℝ} (negative : sums.nEff < 0) (objectId : Str) (now : ℝ) (c : Components ℝ) :
    registry.factors .real .standard sums objectId now ≠ .ok c := by
  intro computed
  obtain ⟨r, _, computed⟩ := Py.bind_ok.mp computed
  obtain ⟨power, powered, _⟩ := Py.bind_ok.mp computed
  have fractional : ¬ ∃ n : ℤ, Params.standard.gamma = n := by
    rintro ⟨n, half⟩
    have twice : (1 : ℝ) = (2 * n : ℤ) := by
      push_cast
      rw [← half]
      norm_num [Params.standard]
    have odd : (1 : ℤ) = 2 * n := by exact_mod_cast twice
    omega
  simp only [Arithmetic.real, realPower, if_pos (And.intro negative fractional)] at powered
  cases powered

noncomputable def negativeVerdict : Event ℝ := .verdict 0 "sort" globalScope "m1" true none (-1)

theorem negative_unbounded :
    ¬ ∀ (events : List (Event ℝ)) (topic objectId scope : Str) (now : ℝ),
      (replay .real .standard events).Bounded .standard topic objectId scope now := by
  intro bounded
  obtain ⟨w, computed, _⟩ := (bounded [negativeVerdict] "sort" "m1" globalScope 0).1
  obtain ⟨c, factored, _⟩ := Py.bind_ok.mp computed
  refine factors_undefined ?_ _ _ c factored
  rw [sumsOf_nEff, rows_replay]
  have single : [negativeVerdict].filterMap (Event.row? ("sort", globalScope, "m1")) = [⟨0, -1, 1, none⟩] := by
    simp [negativeVerdict, Event.row?]
  rw [single]
  norm_num [evidence, Row.decayed, Arithmetic.real]

end Registry

end JJDai.Reputation

/-! The direction in which one verdict moves a weight. -/

namespace JJDai.Reputation

open PyText Shrinkage

namespace Registry

variable {params : Params ℝ} {registry : Registry ℝ}

noncomputable def record (params : Params ℝ) (registry : Registry ℝ) (t : ℝ) (topic objectId : Str) (ok : Bool)
    (margin : Option ℝ) (difficulty : ℝ) (scope : Str) : Registry ℝ :=
  registry.apply .real params (.verdict t topic scope objectId ok margin difficulty)

/-- What is left of a verdict's difficulty at a time. -/
noncomputable def remainder (params : Params ℝ) (difficulty t now : ℝ) : ℝ :=
  difficulty * Real.exp (-params.lam * max 0 (now - t))

theorem rows_record (t : ℝ) (topic objectId : Str) (ok : Bool) (margin : Option ℝ) (difficulty : ℝ) (scope : Str) :
    (registry.record params t topic objectId ok margin difficulty scope).rows topic scope objectId =
      registry.rows topic scope objectId ++ [⟨t, difficulty, if ok then 1 else 0, margin⟩] := by
  unfold record
  rw [rows_apply]
  simp [Event.row?]

theorem evidence_record (t : ℝ) (topic objectId : Str) (ok : Bool) (margin : Option ℝ) (difficulty : ℝ)
    (scope : Str) (now : ℝ) :
    evidence params now ((registry.record params t topic objectId ok margin difficulty scope).rows topic scope objectId) =
      evidence params now (registry.rows topic scope objectId) + remainder params difficulty t now := by
  rw [rows_record, evidence_snoc]
  rfl

theorem passes_record (t : ℝ) (topic objectId : Str) (ok : Bool) (margin : Option ℝ) (difficulty : ℝ)
    (scope : Str) (now : ℝ) :
    passes params now ((registry.record params t topic objectId ok margin difficulty scope).rows topic scope objectId) =
      passes params now (registry.rows topic scope objectId) + if ok then remainder params difficulty t now else 0 := by
  rw [rows_record, passes_snoc]
  cases ok
  · simp
  · simp only [if_true, mul_one]
    rfl

theorem weight_record (defined : params.Defined) {t difficulty now : ℝ} {topic objectId scope : Str} {ok : Bool}
    {margin : Option ℝ} {n p : ℝ}
    (whole : n = evidence params now (registry.rows topic scope objectId) + remainder params difficulty t now)
    (part : p = passes params now (registry.rows topic scope objectId) + if ok then remainder params difficulty t now else 0)
    (evident : 0 ≤ n) :
    (registry.record params t topic objectId ok margin difficulty scope).weight .real params topic objectId scope now =
      .ok (min params.wMax (registry.raw params objectId now n p)) := by
  have counted := @evidence_record params registry t topic objectId ok margin difficulty scope now
  have passed := @passes_record params registry t topic objectId ok margin difficulty scope now
  rw [weight_eq defined (by rw [counted, ← whole]; exact evident), counted, passed, ← whole, ← part]
  rfl

theorem weight_elsewhere {t difficulty : ℝ} {topic topic' objectId objectId' scope scope' : Str} {ok : Bool}
    {margin : Option ℝ} (other : (topic', scope', objectId') ≠ (topic, scope, objectId)) (now : ℝ) :
    (registry.record params t topic' objectId' ok margin difficulty scope').weight .real params topic objectId scope now =
      registry.weight .real params topic objectId scope now := by
  have kept : (registry.record params t topic' objectId' ok margin difficulty scope').rows topic scope objectId =
      registry.rows topic scope objectId := by
    unfold record
    rw [rows_apply]
    simp [Event.row?, other]
  unfold weight components
  rw [kept]
  rfl

/-- Failing by `extra` units cannot raise the weight: it is clipped already, or there is nothing
to multiply, or the credit grows by no more than the evidence. -/
def Settled (params : Params ℝ) (registry : Registry ℝ) (objectId : Str) (now n p extra : ℝ) : Prop :=
  params.wMax ≤ registry.raw params objectId now n p ∨
    registry.gate params objectId * registry.slashFactor params objectId now = 0 ∨
    params.kappa * params.c0 + p = 0 ∨
    credit params.gamma params.eRef (n + extra) * (params.kappa + n) ≤
      credit params.gamma params.eRef n * (params.kappa + (n + extra))

theorem raw_eq (objectId : Str) (now n p : ℝ) :
    registry.raw params objectId now n p =
      registry.gate params objectId * registry.slashFactor params objectId now *
        (rate params.kappa params.c0 n p * credit params.gamma params.eRef n) :=
  mul_assoc _ _ _

theorem raw_passed_le (sound : params.Sound) (sane : registry.Sane) (objectId : Str) (now : ℝ) {n p extra : ℝ}
    (passed : 0 ≤ p) (within : p ≤ n) (more : 0 ≤ extra) :
    registry.raw params objectId now n p ≤ registry.raw params objectId now (n + extra) (p + extra) := by
  have evident : 0 ≤ n := passed.trans within
  have gate := (@gate_bounds params registry sound.toDefined objectId).1
  have kept := (slashFactor_bounds sound sane.unspent objectId now).1
  have rated := rate_pass sound.weighted sound.most within evident more
  have credited := @credit_mono params.gamma params.eRef n extra sound.growing sound.saturates evident more
  rw [raw_eq, raw_eq]
  refine mul_le_mul_of_nonneg_left (mul_le_mul rated credited ?_ ?_) (mul_nonneg gate kept)
  · exact credit_nonneg sound.saturates evident
  · exact rate_nonneg sound.weighted sound.least (by linarith) (by linarith)

theorem raw_failed_le_iff (sound : params.Sound) (sane : registry.Sane) (objectId : Str) (now : ℝ) {n p extra : ℝ}
    (passed : 0 ≤ p) (evident : 0 ≤ n) (more : 0 ≤ extra) :
    registry.raw params objectId now (n + extra) p ≤ registry.raw params objectId now n p ↔
      registry.gate params objectId * registry.slashFactor params objectId now = 0 ∨
        params.kappa * params.c0 + p = 0 ∨
        credit params.gamma params.eRef (n + extra) * (params.kappa + n) ≤
          credit params.gamma params.eRef n * (params.kappa + (n + extra)) := by
  have gate := (@gate_bounds params registry sound.toDefined objectId).1
  have kept := (slashFactor_bounds sound sane.unspent objectId now).1
  rw [raw_eq, raw_eq]
  rcases (mul_nonneg gate kept).eq_or_lt with zero | standing
  · simp [← zero]
  · rw [mul_le_mul_iff_right₀ standing, or_iff_right standing.ne']
    exact rate_credit_le_iff sound.weighted sound.least passed evident more

theorem clipped_le_iff {top before after : ℝ} : min top after ≤ min top before ↔ top ≤ before ∨ after ≤ before :=
  le_min_iff.trans ((and_iff_right (min_le_left _ _)).trans min_le_iff)

/-- Recording a pass never lowers the weight, and recording a failure raises it exactly where
the shrunk rate loses less than the credit gains, which takes little evidence. -/
theorem verdict_moves_weight (sound : params.Sound) {events : List (Event ℝ)}
    (graded : ∀ event ∈ events, event.Graded) (topic scope objectId : Str) (t now difficulty : ℝ)
    (margin : Option ℝ) (positive : 0 < difficulty) :
    let registry := replay .real params events
    let n := evidence params now (registry.rows topic scope objectId)
    let p := passes params now (registry.rows topic scope objectId)
    ∃ before passed failed,
      registry.weight .real params topic objectId scope now = .ok before ∧
      (registry.record params t topic objectId true margin difficulty scope).weight .real params topic objectId scope now =
        .ok passed ∧
      (registry.record params t topic objectId false margin difficulty scope).weight .real params topic objectId scope now =
        .ok failed ∧
      before ≤ passed ∧
      (failed ≤ before ↔ registry.Settled params objectId now n p (remainder params difficulty t now)) ∧
      (params.gamma * (params.kappa + n) ≤ n → failed ≤ before) ∧
      ∀ topic' scope' ok, (topic', scope') ≠ (topic, scope) →
        (registry.record params t topic' objectId ok margin difficulty scope').weight .real params topic objectId scope now =
          .ok before := by
  intro registry n p
  have sane : registry.Sane := sane_replay sound (fun event member => (graded event member).counts)
  have rows := sane.rows_sane topic scope objectId
  have passed : 0 ≤ p := passes_nonneg rows now
  have within : p ≤ n := passes_le_evidence rows now
  have evident : 0 ≤ n := passed.trans within
  have more : 0 ≤ remainder params difficulty t now := mul_nonneg positive.le (Real.exp_pos _).le
  have failing : min params.wMax (registry.raw params objectId now (n + remainder params difficulty t now) p) ≤
        min params.wMax (registry.raw params objectId now n p) ↔
      registry.Settled params objectId now n p (remainder params difficulty t now) :=
    clipped_le_iff.trans (or_congr_right (raw_failed_le_iff sound sane objectId now passed evident more))
  refine ⟨_, _, _, weight_eq sound.toDefined evident, weight_record sound.toDefined rfl rfl (add_nonneg evident more),
    weight_record sound.toDefined rfl (add_zero p).symm (add_nonneg evident more), ?_, failing, ?_, ?_⟩
  · exact min_le_min_left _ (raw_passed_le sound sane objectId now passed within more)
  · intro beyond
    refine failing.mpr (Or.inr (Or.inr (Or.inr ?_)))
    exact credit_slower sound.weighted sound.growing sound.concave sound.saturates evident beyond more
  · intro topic' scope' ok other
    have apart : (topic', scope', objectId) ≠ (topic, scope, objectId) := by
      intro same
      cases same
      exact other rfl
    exact (weight_elsewhere apart now).trans (weight_eq sound.toDefined evident)

theorem verdict_moves_weight_sample :
    Event.Graded (.verdict 0 "sort" globalScope "m1" true none 1) ∧
      ∃ before passed : ℝ, before ≤ passed ∧
        (replay .real .standard [.verdict 0 "sort" globalScope "m1" true none 1]).weight .real .standard
          "sort" "m1" globalScope 1 = .ok before ∧
        ((replay .real .standard [.verdict 0 "sort" globalScope "m1" true none 1]).record .standard
          1 "sort" "m1" true none 1 globalScope).weight .real .standard "sort" "m1" globalScope 1 = .ok passed := by
  have graded : Event.Graded (.verdict 0 "sort" globalScope "m1" true none 1) := one_pos
  obtain ⟨before, passed, failed, first, second, _, raised, _⟩ := verdict_moves_weight standard_sound
    (List.forall_mem_singleton.mpr graded) "sort" globalScope "m1" 1 1 1 none one_pos
  exact ⟨graded, before, passed, raised, first, second⟩

theorem raw_untouched (defined : params.Defined) {objectId : Str} (unslashed : Dict.get? registry.slashes objectId = none)
    (unstaked : Dict.get? registry.stakes objectId = none) (now n p : ℝ) :
    registry.raw params objectId now n p = rate params.kappa params.c0 n p * credit params.gamma params.eRef n := by
  have open_ : registry.gate params objectId = 1 := by
    unfold gate
    simp [unstaked, defined.staked.not_ge, div_self defined.staked.ne']
  have whole : registry.slashFactor params objectId now = 1 := by
    unfold slashFactor
    rw [unslashed]
  rw [raw_eq, open_, whole, one_mul, one_mul]

theorem weight_fresh (defined : params.Defined) (topic objectId scope : Str) (now : ℝ) :
    (replay .real params []).weight .real params topic objectId scope now =
      .ok (min params.wMax (rate params.kappa params.c0 0 0 * credit params.gamma params.eRef 0)) := by
  have none : evidence params now ((replay .real params []).rows topic scope objectId) = 0 := rfl
  rw [weight_eq defined none.ge, raw_untouched defined rfl rfl]
  rfl

theorem weight_first (defined : params.Defined) (topic objectId scope : Str) (ok : Bool) {difficulty : ℝ}
    (positive : 0 < difficulty) :
    ((replay .real params []).record params 0 topic objectId ok none difficulty scope).weight .real params
        topic objectId scope 0 =
      .ok (min params.wMax (rate params.kappa params.c0 difficulty (if ok then difficulty else 0) *
        credit params.gamma params.eRef difficulty)) := by
  have left : remainder params difficulty 0 0 = difficulty := by simp [remainder]
  rw [weight_record (n := difficulty) (p := if ok then difficulty else 0) defined ?_ ?_ positive.le]
  · rw [raw_untouched defined rfl rfl]
  · rw [left]
    simp [replay, Registry.rows, evidence]
  · rw [left]
    simp [replay, Registry.rows, passes]

/-- A prior above one, which no rate of passes can be. -/
noncomputable def overconfident : Params ℝ := { Params.standard with c0 := 3, gamma := 0 }

theorem overconfident_defined : overconfident.Defined := by
  refine ⟨?_, ?_, ?_, ?_⟩ <;> norm_num [overconfident, Params.standard]

/-- A failure lifts a fresh object off zero, and under a prior above one a pass lowers it. -/
theorem verdict_moves_weight_backwards :
    (¬ ∀ (events : List (Event ℝ)), (∀ event ∈ events, event.Graded) →
      ∀ (topic objectId scope : Str) (t now difficulty : ℝ) (margin : Option ℝ) (before failed : ℝ), 0 < difficulty →
        (replay .real .standard events).weight .real .standard topic objectId scope now = .ok before →
        ((replay .real .standard events).record .standard t topic objectId false margin difficulty scope).weight
          .real .standard topic objectId scope now = .ok failed → failed ≤ before) ∧
    ¬ ∀ (params : Params ℝ) (events : List (Event ℝ)), (∀ event ∈ events, event.Graded) →
      ∀ (topic objectId scope : Str) (t now difficulty : ℝ) (margin : Option ℝ) (before passed : ℝ), 0 < difficulty →
        (replay .real params events).weight .real params topic objectId scope now = .ok before →
        ((replay .real params events).record params t topic objectId true margin difficulty scope).weight
          .real params topic objectId scope now = .ok passed → before ≤ passed := by
  constructor
  · intro lowers
    have lower := lowers [] (List.forall_mem_nil _) "sort" "m1" globalScope 0 0 1 none _ _ one_pos
      (weight_fresh standard_sound.toDefined _ _ _ _) (weight_first standard_sound.toDefined _ _ _ _ one_pos)
    norm_num [Params.standard, rate, credit] at lower
  · intro raises
    have higher := raises overconfident [] (List.forall_mem_nil _) "sort" "m1" globalScope 0 0 4 none _ _ four_pos
      (weight_fresh overconfident_defined _ _ _ _) (weight_first overconfident_defined _ _ _ _ four_pos)
    norm_num [overconfident, Params.standard, rate, credit] at higher

end Registry

end JJDai.Reputation
