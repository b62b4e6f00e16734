import JJDai.Lib.Shrinkage
import JJDai.Reputation.Registry

/-! The registry over the real numbers: what the sums and the factors of a weight are. -/

namespace JJDai.Reputation

open PyText Shrinkage

/-- `x ** y`: a negative number has no fractional power that can be compared, and zero no
negative one. -/
noncomputable def realPower (x y : ℝ) : Py ℝ :=
  open Classical in
  if x < 0 ∧ ¬ ∃ n : ℤ, y = n then raise .typeError
  else if x = 0 ∧ y < 0 then raise .zeroDivisionError
  else return x ^ y

/-- Halves are rounded to the even neighbour. -/
noncomputable def roundHalfEven (x : ℝ) : ℤ :=
  open Classical in
  if x - ⌊x⌋ = 1 / 2 then (if Even ⌊x⌋ then ⌊x⌋ else ⌊x⌋ + 1) else ⌊x + 1 / 2⌋

noncomputable def Arithmetic.real : Arithmetic ℝ where
  literal digits places := digits / 10 ^ places
  divide a b := open Classical in if b = 0 then raise .zeroDivisionError else return a / b
  power := realPower
  exp := Real.exp
  log := Real.log
  round x places := roundHalfEven (x * 10 ^ places) / 10 ^ places

/-- Parameters with which the formula is defined on all evidence. -/
structure Params.Defined (params : Params ℝ) : Prop where
  weighted : 0 < params.kappa
  growing : 0 ≤ params.gamma
  saturates : 0 < params.eRef
  staked : 0 < params.stakeRef

/-- Parameters in the ranges that the formula is meant for. -/
structure Params.Sound (params : Params ℝ) : Prop extends Params.Defined params where
  least : 0 ≤ params.c0
  most : params.c0 ≤ 1
  concave : params.gamma ≤ 1
  clips : 0 ≤ params.wMax
  recovers : 0 ≤ params.recovery
  gains : 0 ≤ params.containTopicGain

noncomputable def Params.standard : Params ℝ where
  lam := Real.log 2 / (7 * 86400)
  kappa := 4
  c0 := 1 / 2
  gamma := 1 / 2
  eRef := 4
  wMax := 95 / 100
  wMin := 5 / 100
  slashPenalty := 1 / 2
  recovery := 1 / 2 / (30 * 86400)
  beta := 1 / 2
  stakeRef := 1
  wContainMin := 2 / 10
  containTopicGain := 1 / 2

theorem standard_sound : Params.standard.Sound := by
  refine ⟨⟨?_, ?_, ?_, ?_⟩, ?_, ?_, ?_, ?_, ?_, ?_⟩ <;> norm_num [Params.standard]

variable {params : Params ℝ} {rows : List (Row ℝ)}

noncomputable def evidence (params : Params ℝ) (now : ℝ) (rows : List (Row ℝ)) : ℝ :=
  (rows.map (fun row => row.decayed .real params now)).sum

noncomputable def passes (params : Params ℝ) (now : ℝ) (rows : List (Row ℝ)) : ℝ :=
  (rows.map (fun row => row.decayed .real params now * row.passed)).sum

theorem foldl_sums (now : ℝ) (start : Sums ℝ) :
    (rows.foldl (Sums.add .real params now) start).nEff = start.nEff + evidence params now rows ∧
      (rows.foldl (Sums.add .real params now) start).pEff = start.pEff + passes params now rows := by
  induction rows generalizing start with
  | nil => simp [evidence, passes]
  | cons row rest ih =>
    obtain ⟨whole, passed⟩ := ih (start.add .real params now row)
    rw [List.foldl_cons, whole, passed]
    simp only [Sums.add, evidence, passes, List.map_cons, List.sum_cons]
    constructor <;> ring

theorem sumsOf_nEff (now : ℝ) : (sumsOf .real params now rows).nEff = evidence params now rows := by
  simpa [sumsOf] using (@foldl_sums params rows now ⟨0, 0, 0, 0⟩).1

theorem sumsOf_pEff (now : ℝ) : (sumsOf .real params now rows).pEff = passes params now rows := by
  simpa [sumsOf] using (@foldl_sums params rows now ⟨0, 0, 0, 0⟩).2

theorem evidence_snoc (now : ℝ) (row : Row ℝ) :
    evidence params now (rows ++ [row]) = evidence params now rows + row.decayed .real params now := by
  simp [evidence]

theorem passes_snoc (now : ℝ) (row : Row ℝ) :
    passes params now (rows ++ [row]) = passes params now rows + row.decayed .real params now * row.passed := by
  simp [passes]

/-- A verdict that counts for nothing at least, and passes whole or not at all. -/
structure Row.Sane (row : Row ℝ) : Prop where
  difficulty : 0 ≤ row.difficulty
  passed : row.passed = 0 ∨ row.passed = 1

theorem Row.Sane.decayed {row : Row ℝ} (sane : row.Sane) (params : Params ℝ) (now : ℝ) :
    0 ≤ row.decayed .real params now :=
  mul_nonneg sane.difficulty (Real.exp_pos _).le

theorem evidence_nonneg (sane : ∀ row ∈ rows, row.Sane) (now : ℝ) : 0 ≤ evidence params now rows := by
  apply List.sum_nonneg
  intro value member
  obtain ⟨row, among, rfl⟩ := List.mem_map.mp member
  exact (sane row among).decayed params now

theorem passes_nonneg (sane : ∀ row ∈ rows, row.Sane) (now : ℝ) : 0 ≤ passes params now rows := by
  apply List.sum_nonneg
  intro value member
  obtain ⟨row, among, rfl⟩ := List.mem_map.mp member
  have part := (sane row among).decayed params now
  rcases (sane row among).passed with failed | passed
  · simp [failed]
  · simpa [passed] using part

theorem passes_le_evidence (sane : ∀ row ∈ rows, row.Sane) (now : ℝ) :
    passes params now rows ≤ evidence params now rows := by
  apply List.sum_le_sum
  intro row among
  have part := (sane row among).decayed params now
  rcases (sane row among).passed with failed | passed
  · simpa [failed] using part
  · simp [passed]

namespace Registry

variable {registry : Registry ℝ}

/-- What the slashes of a registry keep: none of them has gone below zero. -/
def Unspent (registry : Registry ℝ) : Prop :=
  ∀ objectId base last, Dict.get? registry.slashes objectId = some (base, last) → 0 ≤ base

theorem slashFactor_bounds (sound : params.Sound) (unspent : registry.Unspent) (objectId : Str) (now : ℝ) :
    0 ≤ registry.slashFactor params objectId now ∧ registry.slashFactor params objectId now ≤ 1 := by
  unfold slashFactor
  cases found : Dict.get? registry.slashes objectId with
  | none => exact ⟨zero_le_one, le_refl 1⟩
  | some slash =>
    obtain ⟨base, last⟩ := slash
    have least := unspent objectId base last found
    have regained : 0 ≤ params.recovery * max 0 (now - last) :=
      mul_nonneg sound.recovers (le_max_left _ _)
    exact ⟨le_min zero_le_one (add_nonneg least regained), min_le_left _ _⟩

/-- The stake gate, which is defined for every stake. -/
noncomputable def gate (params : Params ℝ) (registry : Registry ℝ) (objectId : Str) : ℝ :=
  open Classical in
  let stake := (Dict.get? registry.stakes objectId).getD params.stakeRef
  if stake ≤ 0 then 0 else min 1 ((stake / params.stakeRef) ^ params.beta)

theorem stakeGate_ok (defined : params.Defined) (objectId : Str) :
    registry.stakeGate .real params objectId = .ok (registry.gate params objectId) := by
  unfold stakeGate gate
  by_cases spent : (Dict.get? registry.stakes objectId).getD params.stakeRef ≤ 0
  · simp only [if_pos spent]
    rfl
  · have share : 0 < (Dict.get? registry.stakes objectId).getD params.stakeRef / params.stakeRef :=
      div_pos (lt_of_not_ge spent) defined.staked
    simp only [if_neg spent, Arithmetic.real, realPower, if_neg defined.staked.ne', bind, pure, Except.pure, Except.bind]
    rw [if_neg (fun negative => absurd share negative.1.not_gt), if_neg (fun zero => share.ne' zero.1)]

theorem gate_bounds (defined : params.Defined) (objectId : Str) :
    0 ≤ registry.gate params objectId ∧ registry.gate params objectId ≤ 1 := by
  unfold gate
  by_cases spent : (Dict.get? registry.stakes objectId).getD params.stakeRef ≤ 0
  · simp [spent]
  · have share : 0 ≤ (Dict.get? registry.stakes objectId).getD params.stakeRef / params.stakeRef :=
      (div_pos (lt_of_not_ge spent) defined.staked).le
    simp only [if_neg spent]
    exact ⟨le_min zero_le_one (Real.rpow_nonneg share _), min_le_left _ _⟩

/-- The weight on some evidence, before it is clipped. -/
noncomputable def raw (params : Params ℝ) (registry : Registry ℝ) (objectId : Str) (now n p : ℝ) : ℝ :=
  registry.gate params objectId * registry.slashFactor params objectId now * rate params.kappa params.c0 n p *
    credit params.gamma params.eRef n

theorem factors_ok (defined : params.Defined) (sums : Sums ℝ) (evident : 0 ≤ sums.nEff) (objectId : Str) (now : ℝ) :
    ∃ avgMargin, registry.factors .real params sums objectId now = .ok {
      nEff := sums.nEff, pEff := sums.pEff
      r := rate params.kappa params.c0 sums.nEff sums.pEff, e := credit params.gamma params.eRef sums.nEff
      s := registry.slashFactor params objectId now, g := registry.gate params objectId
      raw := registry.raw params objectId now sums.nEff sums.pEff
      w := min params.wMax (registry.raw params objectId now sums.nEff sums.pEff), avgMargin } := by
  have room : params.kappa + sums.nEff ≠ 0 := (add_pos_of_pos_of_nonneg defined.weighted evident).ne'
  have powered : Arithmetic.real.power sums.nEff params.gamma = .ok (sums.nEff ^ params.gamma) := by
    simp only [Arithmetic.real, realPower]
    rw [if_neg (fun negative => absurd evident negative.1.not_ge),
      if_neg (fun zero => absurd defined.growing zero.2.not_ge)]
    rfl
  have divided : ∀ a b : ℝ, b ≠ 0 → Arithmetic.real.divide a b = .ok (a / b) := by
    intro a b apart
    simp only [Arithmetic.real, if_neg apart]
    rfl
  unfold factors
  simp only [divided _ _ room, powered, divided _ _ defined.saturates.ne', stakeGate_ok defined, bind, Except.bind]
  by_cases empty : sums.mDen = 0
  · refine ⟨none, ?_⟩
    simp only [if_pos empty]
    rfl
  · refine ⟨some (sums.mNum / sums.mDen), ?_⟩
    simp only [if_neg empty, divided _ _ empty]
    rfl

theorem weight_eq (defined : params.Defined) {topic scope objectId : Str} {now : ℝ}
    (evident : 0 ≤ evidence params now (registry.rows topic scope objectId)) :
    registry.weight .real params topic objectId scope now =
      .ok (min params.wMax (registry.raw params objectId now
        (evidence params now (registry.rows topic scope objectId)) (passes params now (registry.rows topic scope objectId)))) := by
  rw [← sumsOf_nEff] at evident
  obtain ⟨avgMargin, computed⟩ := @factors_ok params registry defined _ evident objectId now
  unfold weight components
  rw [computed, ← sumsOf_nEff, ← sumsOf_pEff]
  rfl

end Registry

end JJDai.Reputation
