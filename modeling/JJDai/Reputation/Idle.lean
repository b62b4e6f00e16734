import JJDai.Reputation.Direction

/-! Weights while nothing happens. With the default constants decay moves a weight along a
curve: it lowers the credit of the evidence, and draws the rate towards the prior. -/

namespace JJDai.Reputation

open PyText Shrinkage

section Numerals

local instance two_numeral : Nat.AtLeastTwo 2 := ⟨by decide⟩

local instance four_numeral : Nat.AtLeastTwo 4 := ⟨by decide⟩

/-- The rate and the credit of some evidence under the default constants. -/
noncomputable def curve (n p : ℝ) : ℝ := rate 4 (1 / 2) n p * credit (1 / 2) 4 n

/-- The mixes of evidence and passes that the decay only lowers. -/
def Fading (n p : ℝ) : Prop :=
  (n < 12 ∧ 2 * n - 8 ≤ p * (n + 12)) ∨ (12 ≤ n ∧ n ≤ 16 ∧ n ≤ 18 * p) ∨ (16 < n ∧ n ≤ 2 * p)

/-- The slope of the curve between the squares of `s` and `t`, at a share of passes. -/
def sway (share s t : ℝ) : ℝ := 8 - 2 * (t * s) + 4 * share * (t ^ 2 + t * s + s ^ 2) + share * (t * s) ^ 2

end Numerals

theorem curve_square {t : ℝ} (positive : 0 ≤ t) (open_ : t ≤ 4) (p : ℝ) :
    curve (t ^ 2) p = (2 + p) * t / (4 * (4 + t ^ 2)) := by
  have root : (t ^ 2) ^ (1 / 2 : ℝ) = t := by
    rw [← Real.sqrt_eq_rpow, Real.sqrt_sq positive]
  have unsaturated : credit (1 / 2) 4 (t ^ 2) = t / 4 := by
    rw [credit, root]
    exact min_eq_right (by linarith)
  have room : (4 : ℝ) + t ^ 2 ≠ 0 := by positivity
  rw [curve, unsaturated, rate]
  field_simp
  ring

theorem curve_saturated {n : ℝ} (full : 16 ≤ n) (p : ℝ) : curve n p = (2 + p) / (4 + n) := by
  have root : (4 : ℝ) ≤ n ^ (1 / 2 : ℝ) := by
    rw [← Real.sqrt_eq_rpow]
    exact Real.le_sqrt_of_sq_le (by linarith)
  have saturated : credit (1 / 2) 4 n = 1 := min_eq_left ((one_le_div four_pos).mpr root)
  rw [curve, saturated, rate]
  norm_num

theorem curve_square_le_iff {share s t : ℝ} (positive : 0 ≤ s) (before : s < t) (open_ : t ≤ 4) :
    curve (s ^ 2) (share * s ^ 2) ≤ curve (t ^ 2) (share * t ^ 2) ↔ 0 ≤ sway share s t := by
  rw [curve_square positive (before.le.trans open_), curve_square (positive.trans before.le) open_,
    div_le_div_iff₀ (by positivity) (by positivity), ← sub_nonneg]
  have factored : (2 + share * t ^ 2) * t * (4 * (4 + s ^ 2)) - (2 + share * s ^ 2) * s * (4 * (4 + t ^ 2)) =
      4 * (t - s) * sway share s t := by
    unfold sway
    ring
  rw [factored]
  exact mul_nonneg_iff_of_pos_left (by linarith)

theorem sway_nonneg {share s t n : ℝ} (some_share : 0 ≤ share) (positive : 0 ≤ s) (before : s ≤ t) (within : t ^ 2 ≤ n)
    (steep : ∀ u, 0 ≤ u → u ≤ n → 0 ≤ 8 - 2 * u + share * (12 * u + u ^ 2)) : 0 ≤ sway share s t := by
  have product : t * s ≤ n := by nlinarith
  have least := steep (t * s) (mul_nonneg (positive.trans before) positive) product
  have apart : 0 ≤ share * (t - s) ^ 2 := mul_nonneg some_share (sq_nonneg _)
  unfold sway
  linarith

theorem steep_of_share {share : ℝ} (enough : 1 ≤ 18 * share) {u : ℝ} (positive : 0 ≤ u) :
    0 ≤ 8 - 2 * u + share * (12 * u + u ^ 2) := by
  have square := sq_nonneg (u - 12)
  nlinarith

theorem steep_of_end {share n : ℝ} (little : 18 * share ≤ 1) (short : n ≤ 12)
    (last : 0 ≤ 8 - 2 * n + share * (12 * n + n ^ 2)) {u : ℝ} (positive : 0 ≤ u) (within : u ≤ n) :
    0 ≤ 8 - 2 * u + share * (12 * u + u ^ 2) := by
  have rest : 0 ≤ n - u := sub_nonneg.mpr within
  have slope : 0 ≤ 2 - share * (12 + (n + u)) := by nlinarith
  nlinarith

theorem curve_grows {n share q r : ℝ} (some_share : 0 ≤ share) (evident : 0 ≤ n) (positive : 0 < r) (before : r ≤ q)
    (most : q ≤ 1) (short : n ≤ 16) (steep : ∀ u, 0 ≤ u → u ≤ n → 0 ≤ 8 - 2 * u + share * (12 * u + u ^ 2)) :
    curve (n * r) (share * (n * r)) ≤ curve (n * q) (share * (n * q)) := by
  have least : 0 ≤ n * r := mul_nonneg evident positive.le
  have ordered : n * r ≤ n * q := mul_le_mul_of_nonneg_left before evident
  have within : n * q ≤ n := mul_le_of_le_one_right evident most
  obtain same | apart := ordered.eq_or_lt
  · rw [same]
  · have squares : ∀ x : ℝ, 0 ≤ x → √x ^ 2 = x := fun x => Real.sq_sqrt
    have roots : √(n * r) < √(n * q) := Real.sqrt_lt_sqrt least apart
    have open_ : √(n * q) ≤ 4 := Real.sqrt_le_iff.mpr ⟨four_pos.le, by linarith⟩
    have slope := sway_nonneg some_share (Real.sqrt_nonneg _) roots.le
      ((squares _ (least.trans ordered)).le.trans within) steep
    have grows := (curve_square_le_iff (Real.sqrt_nonneg _) roots open_).mpr slope
    rwa [squares _ least, squares _ (least.trans ordered)] at grows

theorem rate_grows {n p q r : ℝ} (evident : 0 ≤ n) (many : n ≤ 2 * p) (positive : 0 < r) (before : r ≤ q) :
    rate 4 (1 / 2) (n * r) (p * r) ≤ rate 4 (1 / 2) (n * q) (p * q) := by
  have least : 0 ≤ n * r := mul_nonneg evident positive.le
  have ordered : n * r ≤ n * q := mul_le_mul_of_nonneg_left before evident
  rw [rate, rate, div_le_div_iff₀ (by linarith) (by linarith)]
  have gained : 0 ≤ (2 * p - n) * (q - r) := mul_nonneg (by linarith) (by linarith)
  linarith

theorem curve_grows_of_many {n p q r : ℝ} (evident : 0 ≤ n) (many : n ≤ 2 * p) (positive : 0 < r) (before : r ≤ q) :
    curve (n * r) (p * r) ≤ curve (n * q) (p * q) := by
  have least : 0 ≤ n * r := mul_nonneg evident positive.le
  have ordered : n * r ≤ n * q := mul_le_mul_of_nonneg_left before evident
  have credited := @credit_mono (1 / 2) 4 (n * r) (n * q - n * r) (by norm_num) four_pos least (by linarith)
  rw [add_sub_cancel] at credited
  have rated := @rate_nonneg 4 (1 / 2) (n * q) (p * q) four_pos (by norm_num) (by nlinarith) (least.trans ordered)
  exact mul_le_mul (rate_grows evident many positive before) credited (credit_nonneg four_pos least) rated

theorem curve_fades {n p q r : ℝ} (passed : 0 ≤ p) (within : p ≤ n) (fading : Fading n p) (positive : 0 < r)
    (before : r ≤ q) (most : q ≤ 1) : curve (n * r) (p * r) ≤ curve (n * q) (p * q) := by
  have evident : 0 ≤ n := passed.trans within
  obtain ⟨share, some_share, parted⟩ : ∃ share, 0 ≤ share ∧ p = share * n := by
    rcases evident.eq_or_lt with none | some_evidence
    · exact ⟨0, le_refl 0, by linarith⟩
    · exact ⟨p / n, div_nonneg passed evident, (div_mul_cancel₀ p some_evidence.ne').symm⟩
  have scaled : ∀ x : ℝ, p * x = share * (n * x) := fun x => by rw [parted, mul_assoc]
  rcases fading with ⟨short, last⟩ | ⟨_, short, enough⟩ | ⟨_, many⟩
  · rw [scaled, scaled]
    refine curve_grows some_share evident positive before most (by linarith) ?_
    intro u some_u upto
    rcases le_total 1 (18 * share) with enough | little
    · exact steep_of_share enough some_u
    · refine steep_of_end little short.le ?_ some_u upto
      rw [parted] at last
      linarith
  · rw [scaled, scaled]
    rcases evident.eq_or_lt with none | some_evidence
    · rw [← none, zero_mul, zero_mul]
    · refine curve_grows some_share evident positive before most short ?_
      have enough : 1 ≤ 18 * share := by
        rw [parted] at enough
        exact le_of_mul_le_mul_right (by linarith) some_evidence
      exact fun u some_u _ => steep_of_share enough some_u
  · exact curve_grows_of_many evident many positive before

theorem curve_lt_half {n p : ℝ} (passed : 0 ≤ p) (few : 2 * p < n) : curve n p < 1 / 2 := by
  have evident : 0 ≤ n := by linarith
  have low : rate 4 (1 / 2) n p < 1 / 2 := by
    rw [rate, div_lt_iff₀ (by linarith)]
    linarith
  have rated := @rate_nonneg 4 (1 / 2) n p four_pos (by norm_num) passed evident
  calc curve n p ≤ rate 4 (1 / 2) n p * 1 := mul_le_mul_of_nonneg_left credit_le_one rated
    _ < 1 / 2 := by rwa [mul_one]

theorem sway_neg {n p : ℝ} (passed : 0 ≤ p) (evident : 4 < n) (falls : 8 - 2 * n + p * (12 + n) < 0) :
    ∃ k, 0 < k ∧ k < 1 ∧ 8 - 2 * (n * k) + 4 * p * (1 + k + k ^ 2) + p * (n * k ^ 2) < 0 := by
  have some_evidence : 0 < n := by linarith
  have share : 0 ≤ p * (12 + n) := mul_nonneg passed (by linarith)
  have scaled : n * ((8 - 2 * n + p * (12 + n)) / (4 * n)) = (8 - 2 * n + p * (12 + n)) / 4 := by
    field_simp
  have least : -(1 / 2) ≤ (8 - 2 * n + p * (12 + n)) / (4 * n) := by
    rw [le_div_iff₀ (by linarith)]
    linarith
  have most : (8 - 2 * n + p * (12 + n)) / (4 * n) < 0 := div_neg_of_neg_of_pos falls (by linarith)
  refine ⟨1 + (8 - 2 * n + p * (12 + n)) / (4 * n), by linarith, by linarith, ?_⟩
  generalize (8 - 2 * n + p * (12 + n)) / (4 * n) = e at scaled least most
  have square : (1 + e) ^ 2 ≤ 1 := pow_le_one₀ (by linarith) (by linarith)
  have first : 4 * p * (1 + (1 + e) + (1 + e) ^ 2) ≤ 4 * p * 3 := mul_le_mul_of_nonneg_left (by linarith) (by linarith)
  have second : p * (n * (1 + e) ^ 2) ≤ p * (n * 1) :=
    mul_le_mul_of_nonneg_left (mul_le_mul_of_nonneg_left square some_evidence.le) passed
  linarith

theorem curve_dips {n p : ℝ} (passed : 0 ≤ p) (evident : 0 ≤ n) (short : n ≤ 16) (falls : 8 - 2 * n + p * (12 + n) < 0) :
    ∃ r, 0 < r ∧ r ≤ 1 ∧ curve n p < curve (n * r) (p * r) := by
  have above : 4 < n := by nlinarith
  have some_evidence : 0 < n := by linarith
  obtain ⟨k, positive, below, negative⟩ := sway_neg passed above falls
  have root : √n ^ 2 = n := Real.sq_sqrt evident
  have open_ : √n ≤ 4 := Real.sqrt_le_iff.mpr ⟨four_pos.le, by linarith⟩
  have some_root : 0 < √n := Real.sqrt_pos.mpr some_evidence
  have product : √n * (√n * k) = n * k := by rw [← mul_assoc, ← sq, root]
  have square : (√n * k) ^ 2 = n * k ^ 2 := by rw [mul_pow, root]
  have parted : p / n * n = p := div_mul_cancel₀ p some_evidence.ne'
  have slope : ¬ 0 ≤ sway (p / n) (√n * k) √n := by
    have expanded : sway (p / n) (√n * k) √n =
        8 - 2 * (n * k) + 4 * (p / n * n) * (1 + k + k ^ 2) + p / n * n * (n * k ^ 2) := by
      unfold sway
      rw [product, square, root]
      ring
    rw [expanded, parted]
    exact not_le.mpr negative
  refine ⟨k ^ 2, by positivity, pow_le_one₀ positive.le below.le, ?_⟩
  have dip := mt (curve_square_le_iff (mul_nonneg some_root.le positive.le)
    (mul_lt_of_lt_one_right some_root below) open_).mp slope
  rw [square, root, ← mul_assoc, parted] at dip
  exact not_le.mp dip

/-- Full credit hides what the evidence loses, while the rate is drawn up to the prior. -/
theorem curve_recovers {n p : ℝ} (full : 16 < n) (few : 2 * p < n) :
    ∃ r, 0 < r ∧ r ≤ 1 ∧ curve n p < curve (n * r) (p * r) := by
  have evident : 0 < n := by linarith
  have whole : n * (16 / n) = 16 := mul_div_cancel₀ 16 evident.ne'
  refine ⟨16 / n, by positivity, (div_le_one evident).mpr full.le, ?_⟩
  rw [whole, curve_saturated full.le, curve_saturated (le_refl 16), div_lt_div_iff₀ (by linarith) (by norm_num)]
  have lost : p * (16 / n) * n = 16 * p := by field_simp
  have gained : 0 < (n - 2 * p) * (1 - 16 / n) := by
    refine mul_pos (by linarith) (sub_pos.mpr ?_)
    exact (div_lt_one evident).mpr full
  nlinarith

theorem curve_rises {n p : ℝ} (passed : 0 ≤ p) (within : p ≤ n) (gaining : ¬ Fading n p) :
    ∃ q r, 0 < r ∧ r ≤ q ∧ q ≤ 1 ∧ curve (n * q) (p * q) < curve (n * r) (p * r) ∧ curve (n * q) (p * q) < 1 / 2 := by
  have evident : 0 ≤ n := passed.trans within
  simp only [Fading, not_or, not_and, not_le] at gaining
  obtain ⟨short, middle, long⟩ := gaining
  rcases lt_or_ge n 12 with early | later
  · have falls := short early
    obtain ⟨r, positive, below, dip⟩ := curve_dips passed evident (by linarith) (by linarith)
    refine ⟨1, r, positive, below, le_refl 1, by rwa [mul_one, mul_one], ?_⟩
    rw [mul_one, mul_one]
    exact curve_lt_half passed (by nlinarith)
  · rcases le_or_gt n 16 with open_ | full
    · have few := middle later open_
      have some_evidence : 0 < n := by linarith
      have whole : n * (12 / n) = 12 := mul_div_cancel₀ 12 some_evidence.ne'
      have some_passes : 0 ≤ p * (12 / n) := by positivity
      have part : p * (12 / n) * n = 12 * p := by field_simp
      have falls : 8 - 2 * 12 + p * (12 / n) * (12 + 12) < 0 := by nlinarith
      obtain ⟨r, positive, below, dip⟩ := curve_dips some_passes (by norm_num) (by norm_num) falls
      refine ⟨12 / n, 12 / n * r, by positivity, mul_le_of_le_one_right (by positivity) below,
        (div_le_one some_evidence).mpr later, ?_, ?_⟩
      · rwa [← mul_assoc, ← mul_assoc, whole]
      · rw [whole]
        exact curve_lt_half some_passes (by linarith)
    · have few := long full
      obtain ⟨r, positive, below, dip⟩ := curve_recovers full few
      refine ⟨1, r, positive, below, le_refl 1, by rwa [mul_one, mul_one], ?_⟩
      rw [mul_one, mul_one]
      exact curve_lt_half passed few

/-- What decay leaves of a unit of evidence after some time. -/
noncomputable def faded (since now : ℝ) : ℝ := Real.exp (-Params.standard.lam * (now - since))

theorem lam_pos : 0 < Params.standard.lam := div_pos (Real.log_pos one_lt_two) (by norm_num)

theorem faded_le_one {since now : ℝ} (later : since ≤ now) : faded since now ≤ 1 := by
  refine Real.exp_le_one_iff.mpr ?_
  have product := mul_nonneg lam_pos.le (sub_nonneg.mpr later)
  linarith

theorem faded_antitone {since t₁ t₂ : ℝ} (later : t₁ ≤ t₂) : faded since t₂ ≤ faded since t₁ := by
  refine Real.exp_le_exp.mpr ?_
  have product := mul_le_mul_of_nonneg_left (sub_le_sub_right later since) lam_pos.le
  linarith

theorem faded_reaches (since : ℝ) {q : ℝ} (positive : 0 < q) :
    faded since (since - Real.log q / Params.standard.lam) = q := by
  have exponent : -Params.standard.lam * (since - Real.log q / Params.standard.lam - since) = Real.log q := by
    have nonzero := lam_pos.ne'
    field_simp
    ring
  rw [faded, exponent, Real.exp_log positive]

theorem decayed_idle {row : Row ℝ} {since now : ℝ} (past : row.t ≤ since) (later : since ≤ now) :
    row.decayed .real .standard now = row.decayed .real .standard since * faded since now := by
  have split : Real.exp (-Params.standard.lam * (now - row.t)) =
      Real.exp (-Params.standard.lam * (since - row.t)) * faded since now := by
    rw [faded, ← Real.exp_add]
    congr 1
    ring
  simp only [Row.decayed, Arithmetic.real, max_eq_right (sub_nonneg.mpr past),
    max_eq_right (sub_nonneg.mpr (past.trans later)), split, mul_assoc]

section Rows

variable {rows : List (Row ℝ)} {since now : ℝ}

theorem evidence_idle (past : ∀ row ∈ rows, row.t ≤ since) (later : since ≤ now) :
    evidence .standard now rows = evidence .standard since rows * faded since now := by
  unfold evidence
  rw [← List.sum_map_mul_right]
  exact congrArg List.sum (List.map_congr_left fun row member => decayed_idle (past row member) later)

theorem passes_idle (past : ∀ row ∈ rows, row.t ≤ since) (later : since ≤ now) :
    passes .standard now rows = passes .standard since rows * faded since now := by
  unfold passes
  rw [← List.sum_map_mul_right]
  refine congrArg List.sum (List.map_congr_left fun row member => ?_)
  rw [decayed_idle (past row member) later, mul_right_comm]

end Rows

namespace Registry

variable {registry : Registry ℝ}

/-- The stake of an object, which is the reference where it was never set. -/
noncomputable def stakeOf (params : Params ℝ) (registry : Registry ℝ) (objectId : Str) : ℝ :=
  (Dict.get? registry.stakes objectId).getD params.stakeRef

theorem gate_zero_iff (objectId : Str) :
    registry.gate .standard objectId = 0 ↔ registry.stakeOf .standard objectId ≤ 0 := by
  unfold gate stakeOf
  by_cases spent : (Dict.get? registry.stakes objectId).getD Params.standard.stakeRef ≤ 0
  · simp [spent]
  · have share := div_pos (lt_of_not_ge spent) standard_sound.staked
    have powered := Real.rpow_pos_of_pos share Params.standard.beta
    simp only [spent, if_false, iff_false]
    exact (lt_min one_pos powered).ne'

theorem weight_idle {topic objectId scope : Str} {since now : ℝ} (sane : registry.Sane)
    (unslashed : Dict.get? registry.slashes objectId = none)
    (past : ∀ row ∈ registry.rows topic scope objectId, row.t ≤ since) (later : since ≤ now) :
    registry.weight .real .standard topic objectId scope now =
      .ok (min (95 / 100) (registry.gate .standard objectId *
        curve (evidence .standard since (registry.rows topic scope objectId) * faded since now)
          (passes .standard since (registry.rows topic scope objectId) * faded since now))) := by
  have evident := @evidence_nonneg .standard _ (sane.rows_sane topic scope objectId) now
  have whole : registry.slashFactor .standard objectId now = 1 := by
    unfold slashFactor
    rw [unslashed]
  rw [weight_eq standard_sound.toDefined evident, raw_eq, whole, mul_one, evidence_idle past later, passes_idle past later]
  rfl

/-- The weight of an idle object never rises. -/
def NeverGains (registry : Registry ℝ) (topic objectId scope : Str) (since : ℝ) : Prop :=
  ∀ t₁ t₂, since ≤ t₁ → t₁ ≤ t₂ → ∃ w₁ w₂,
    registry.weight .real .standard topic objectId scope t₁ = .ok w₁ ∧
    registry.weight .real .standard topic objectId scope t₂ = .ok w₂ ∧ w₂ ≤ w₁

section Rest

variable {topic objectId scope : Str} {since n p : ℝ}
variable (weighs : ∀ now, since ≤ now → registry.weight .real .standard topic objectId scope now =
  .ok (min (95 / 100) (registry.gate .standard objectId * curve (n * faded since now) (p * faded since now))))

include weighs

theorem neverGains_of_fading (passed : 0 ≤ p) (within : p ≤ n)
    (fades : registry.gate .standard objectId = 0 ∨ Fading n p) : registry.NeverGains topic objectId scope since := by
  intro t₁ t₂ first second
  refine ⟨_, _, weighs t₁ first, weighs t₂ (first.trans second), min_le_min_left _ ?_⟩
  rcases fades with closed | fading
  · rw [closed, zero_mul, zero_mul]
  · have gate := (@gate_bounds .standard registry standard_sound.toDefined objectId).1
    have falls := curve_fades passed within fading (Real.exp_pos _) (faded_antitone second) (faded_le_one first)
    exact mul_le_mul_of_nonneg_left falls gate

theorem fading_of_neverGains (passed : 0 ≤ p) (within : p ≤ n)
    (kept : registry.NeverGains topic objectId scope since) :
    registry.gate .standard objectId = 0 ∨ Fading n p := by
  by_contra gains
  obtain ⟨standing, gaining⟩ := not_or.mp gains
  obtain ⟨q, r, positive, before, most, rises, low⟩ := curve_rises passed within gaining
  have some_q : 0 < q := positive.trans_le before
  have bounds := @gate_bounds .standard registry standard_sound.toDefined objectId
  have gate := bounds.1.lt_of_ne (Ne.symm standing)
  have first : since ≤ since - Real.log q / Params.standard.lam := by
    have decayed := div_nonpos_of_nonpos_of_nonneg (Real.log_nonpos some_q.le most) lam_pos.le
    linarith
  have second : since - Real.log q / Params.standard.lam ≤ since - Real.log r / Params.standard.lam := by
    have decayed := div_le_div_of_nonneg_right (Real.log_le_log positive before) lam_pos.le
    linarith
  obtain ⟨w₁, w₂, weight₁, weight₂, lower⟩ := kept _ _ first second
  rw [weighs _ first, faded_reaches since some_q] at weight₁
  rw [weighs _ (first.trans second), faded_reaches since positive] at weight₂
  cases weight₁
  cases weight₂
  have unclipped : registry.gate .standard objectId * curve (n * q) (p * q) < 95 / 100 := by
    rcases le_total 0 (curve (n * q) (p * q)) with positive_curve | negative_curve
    · have scaled := mul_le_mul_of_nonneg_right bounds.2 positive_curve
      linarith
    · have scaled := mul_nonpos_of_nonneg_of_nonpos gate.le negative_curve
      linarith
  have higher := lt_min unclipped (mul_lt_mul_of_pos_left rises gate)
  exact absurd higher (lower.trans (min_le_right _ _)).not_gt

end Rest

/-- An idle object without a slash never gains weight exactly when its stake is spent or the
evidence that is left of its verdicts passes often enough for the credit to fall faster than
the rate recovers. -/
theorem idle_never_gains_iff {events : List (Event ℝ)} {since : ℝ} {objectId : Str}
    (past : ∀ event ∈ events, event.t ≤ since) (graded : ∀ event ∈ events, event.Graded)
    (unslashed : ∀ event ∈ events, ¬ event.Slashes objectId) (topic scope : Str) :
    (replay .real .standard events).NeverGains topic objectId scope since ↔
      (replay .real .standard events).stakeOf .standard objectId ≤ 0 ∨
        Fading (evidence .standard since (events.filterMap (Event.row? (topic, scope, objectId))))
          (passes .standard since (events.filterMap (Event.row? (topic, scope, objectId)))) := by
  have sane := sane_replay standard_sound (fun event member => (graded event member).counts)
  have rows := sane.rows_sane topic scope objectId
  have earlier : ∀ row ∈ (replay .real .standard events).rows topic scope objectId, row.t ≤ since := by
    intro row member
    rw [rows_replay] at member
    obtain ⟨event, among, found⟩ := List.mem_filterMap.mp member
    exact (Event.row?_t found).trans_le (past event among)
  have weighs := fun now later => @weight_idle _ topic objectId scope since now sane (slashes_replay unslashed) earlier later
  rw [← @rows_replay .standard, ← gate_zero_iff]
  constructor
  · exact fading_of_neverGains weighs (passes_nonneg rows since) (passes_le_evidence rows since)
  · exact neverGains_of_fading weighs (passes_nonneg rows since) (passes_le_evidence rows since)

theorem idle_never_gains_sample :
    (replay .real .standard [.verdict 0 "sort" globalScope "m1" true none 1]).NeverGains "sort" "m1" globalScope 0 := by
  have rows : [Event.verdict 0 "sort" globalScope "m1" true none 1].filterMap (Event.row? ("sort", globalScope, "m1")) =
      [⟨0, 1, 1, none⟩] := by
    simp [Event.row?]
  refine (idle_never_gains_iff ?_ ?_ ?_ "sort" globalScope).mpr (Or.inr (Or.inl ?_))
  · exact List.forall_mem_singleton.mpr (le_refl (0 : ℝ))
  · exact List.forall_mem_singleton.mpr one_pos
  · exact List.forall_mem_singleton.mpr not_false
  · rw [rows]
    norm_num [evidence, passes, Row.decayed, Arithmetic.real]

noncomputable def hardFailure : Event ℝ := .verdict 0 "sort" globalScope "m1" false none 64

/-- The weight rises from 2/68 to 2/20 while the object does nothing for two weeks. -/
theorem idle_gains :
    ¬ ∀ (events : List (Event ℝ)) (since : ℝ) (topic scope objectId : Str), (∀ event ∈ events, event.t ≤ since) →
      (∀ event ∈ events, event.Graded) → (∀ event ∈ events, ¬ event.Slashes objectId) →
      (replay .real .standard events).NeverGains topic objectId scope since := by
  intro never
  have past : ∀ event ∈ [hardFailure], event.t ≤ 0 := List.forall_mem_singleton.mpr (le_refl (0 : ℝ))
  have graded : ∀ event ∈ [hardFailure], event.Graded :=
    List.forall_mem_singleton.mpr (by norm_num [hardFailure, Event.Graded])
  have unslashed : ∀ event ∈ [hardFailure], ¬ event.Slashes "m1" := List.forall_mem_singleton.mpr not_false
  have kept := never [hardFailure] 0 "sort" globalScope "m1" past graded unslashed
  have rows : (replay .real .standard [hardFailure]).rows "sort" globalScope "m1" = [⟨0, 64, 0, none⟩] := by
    rw [rows_replay]
    simp [hardFailure, Event.row?]
  have whole : evidence .standard 0 [⟨0, 64, 0, none⟩] = 64 := by norm_num [evidence, Row.decayed, Arithmetic.real]
  have part : passes .standard 0 [⟨0, 64, 0, none⟩] = 0 := by norm_num [passes]
  have sane := sane_replay standard_sound (fun event member => (graded event member).counts)
  have weighs := fun now later => @weight_idle _ "sort" "m1" globalScope 0 now sane (slashes_replay unslashed)
    (by rw [rows]; exact List.forall_mem_singleton.mpr (le_refl (0 : ℝ))) later
  rw [rows, whole, part] at weighs
  rcases fading_of_neverGains weighs (le_refl 0) (by norm_num) kept with closed | fading
  · rw [gate_zero_iff] at closed
    norm_num [stakeOf, replay, hardFailure, Registry.apply, addRow, Params.standard] at closed
  · norm_num [Fading] at fading

end Registry

end JJDai.Reputation
