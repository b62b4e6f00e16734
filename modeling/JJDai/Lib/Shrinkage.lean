import Mathlib.Analysis.Convex.SpecificFunctions.Basic
import Mathlib.Analysis.SpecialFunctions.Pow.NNReal

/-! A pass rate that is shrunk towards a prior, and the sub-linear, saturating credit that
the amount of evidence earns. -/

namespace Shrinkage

/-- The rate of `p` passes in `n` units of evidence, with `kappa` units of the prior. -/
noncomputable def rate (kappa prior n p : ℝ) : ℝ := (kappa * prior + p) / (kappa + n)

/-- Full at `top ^ (1 / gamma)` units of evidence. -/
noncomputable def credit (gamma top n : ℝ) : ℝ := min 1 (n ^ gamma / top)

variable {kappa prior gamma top n p extra : ℝ}

theorem rate_nonneg (weighted : 0 < kappa) (least : 0 ≤ prior) (passes : 0 ≤ p) (some_evidence : 0 ≤ n) :
    0 ≤ rate kappa prior n p := by
  unfold rate
  positivity

theorem rate_pass (weighted : 0 < kappa) (most : prior ≤ 1) (within : p ≤ n) (evidence : 0 ≤ n) (more : 0 ≤ extra) :
    rate kappa prior n p ≤ rate kappa prior (n + extra) (p + extra) := by
  have shrunk : kappa * prior ≤ kappa := mul_le_of_le_one_right weighted.le most
  rw [rate, rate, div_le_div_iff₀ (by linarith) (by linarith)]
  nlinarith

theorem credit_nonneg (positive : 0 < top) (evidence : 0 ≤ n) : 0 ≤ credit gamma top n := by
  have powered := Real.rpow_nonneg evidence gamma
  exact le_min zero_le_one (div_nonneg powered positive.le)

theorem credit_le_one : credit gamma top n ≤ 1 := min_le_left _ _

theorem credit_mono (growing : 0 ≤ gamma) (positive : 0 < top) (evidence : 0 ≤ n) (more : 0 ≤ extra) :
    credit gamma top n ≤ credit gamma top (n + extra) := by
  have powered : n ^ gamma ≤ (n + extra) ^ gamma := Real.rpow_le_rpow evidence (by linarith) growing
  exact min_le_min_left 1 (div_le_div_of_nonneg_right powered positive.le)

/-- Beyond a threshold the credit of more evidence grows slower than the evidence does. -/
theorem credit_slower (weighted : 0 < kappa) (growing : 0 ≤ gamma) (concave : gamma ≤ 1) (positive : 0 < top)
    (some_evidence : 0 ≤ n) (beyond : gamma * (kappa + n) ≤ n) (more : 0 ≤ extra) :
    credit gamma top (n + extra) * (kappa + n) ≤ credit gamma top n * (kappa + (n + extra)) := by
  have room : 0 < kappa + n := by linarith
  rcases some_evidence.eq_or_lt with none | evidence
  · have flat : gamma = 0 := by
      rw [← none, add_zero] at beyond
      exact le_antisymm (nonpos_of_mul_nonpos_left beyond weighted) growing
    have constant : ∀ m : ℝ, credit gamma top m = credit gamma top 0 := by
      intro m
      simp [credit, flat]
    have unit : 0 ≤ credit gamma top 0 := credit_nonneg positive (le_refl 0)
    rw [constant (n + extra), constant n]
    exact mul_le_mul_of_nonneg_left (by linarith) unit
  rcases le_total 1 (n ^ gamma / top) with saturated | open_
  · have full : credit gamma top n = 1 := min_eq_left saturated
    have atMost : credit gamma top (n + extra) * (kappa + n) ≤ 1 * (kappa + n) :=
      mul_le_mul_of_nonneg_right credit_le_one room.le
    rw [full]
    linarith
  · have here : credit gamma top n = n ^ gamma / top := min_eq_right open_
    have share : 0 ≤ extra / n := div_nonneg more evidence.le
    have bernoulli : (1 + extra / n) ^ gamma ≤ 1 + gamma * (extra / n) :=
      rpow_one_add_le_one_add_mul_self (by linarith) growing concave
    have factored : (n + extra) ^ gamma = n ^ gamma * (1 + extra / n) ^ gamma := by
      rw [← Real.mul_rpow evidence.le (by linarith)]
      congr 1
      field_simp
    have base : 0 ≤ n ^ gamma / top := div_nonneg (Real.rpow_nonneg evidence.le gamma) positive.le
    have step : (1 + gamma * (extra / n)) * (kappa + n) ≤ kappa + (n + extra) := by
      have scaled : gamma * (kappa + n) * (extra / n) ≤ n * (extra / n) := mul_le_mul_of_nonneg_right beyond share
      have whole : n * (extra / n) = extra := by field_simp
      nlinarith
    calc credit gamma top (n + extra) * (kappa + n)
        ≤ (n + extra) ^ gamma / top * (kappa + n) := mul_le_mul_of_nonneg_right (min_le_right _ _) room.le
      _ = n ^ gamma / top * ((1 + extra / n) ^ gamma * (kappa + n)) := by rw [factored]; ring
      _ ≤ n ^ gamma / top * ((1 + gamma * (extra / n)) * (kappa + n)) :=
          mul_le_mul_of_nonneg_left (mul_le_mul_of_nonneg_right bernoulli room.le) base
      _ ≤ n ^ gamma / top * (kappa + (n + extra)) := mul_le_mul_of_nonneg_left step base
      _ = credit gamma top n * (kappa + (n + extra)) := by rw [here]

/-- More evidence without a pass does not raise the shrunk rate times the credit exactly when
there is no rate to lower, or the credit grows by no more than the evidence. -/
theorem rate_credit_le_iff (weighted : 0 < kappa) (least : 0 ≤ prior) (passed : 0 ≤ p) (evidence : 0 ≤ n)
    (more : 0 ≤ extra) :
    rate kappa prior (n + extra) p * credit gamma top (n + extra) ≤ rate kappa prior n p * credit gamma top n ↔
      kappa * prior + p = 0 ∨
        credit gamma top (n + extra) * (kappa + n) ≤ credit gamma top n * (kappa + (n + extra)) := by
  have room : 0 < kappa + n := by linarith
  have wider : 0 < kappa + (n + extra) := by linarith
  have total : 0 ≤ kappa * prior + p := by positivity
  have crossed : rate kappa prior (n + extra) p * credit gamma top (n + extra) ≤
        rate kappa prior n p * credit gamma top n ↔
      (kappa * prior + p) * (credit gamma top (n + extra) * (kappa + n)) ≤
        (kappa * prior + p) * (credit gamma top n * (kappa + (n + extra))) := by
    rw [rate, rate, div_mul_eq_mul_div, div_mul_eq_mul_div, div_le_div_iff₀ wider room, mul_assoc, mul_assoc]
  rw [crossed]
  rcases total.eq_or_lt with zero | some_rate
  · simp [← zero]
  · rw [mul_le_mul_iff_right₀ some_rate, or_iff_right some_rate.ne']

end Shrinkage
