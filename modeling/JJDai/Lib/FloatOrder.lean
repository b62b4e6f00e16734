import JJDai.Lib.NumberOrder
import Mathlib.Algebra.Order.Field.Rat
import Mathlib.Data.Prod.Lex
import Mathlib.Tactic.FieldSimp
import Mathlib.Tactic.Positivity

/-! Floats that are numbers are ordered as the rationals they are written as, between the
infinities. -/

namespace PyText

def Decimal.value (d : Decimal) : ℚ := (if d.negative then -(d.digits : ℚ) else d.digits) * 10 ^ d.exponent

theorem Decimal.scaled_value (d : Decimal) {unit : Int} (fits : unit ≤ d.exponent) :
    (d.scaled unit : ℚ) = d.value * 10 ^ (-unit) := by
  have power : (10 : ℚ) ^ (d.exponent - unit).toNat = 10 ^ d.exponent * 10 ^ (-unit) := by
    rw [← zpow_natCast, Int.toNat_of_nonneg (by omega), ← zpow_add₀ (by norm_num), sub_eq_add_neg]
  unfold scaled value
  cases d.negative
  · simp only [Bool.false_eq_true, if_false]
    push_cast
    rw [power, mul_assoc]
  · simp only [if_true]
    push_cast
    rw [power]
    ring

theorem Decimal.less_iff (a b : Decimal) : a.less b = true ↔ a.value < b.value := by
  have unit : (0 : ℚ) < 10 ^ (-min a.exponent b.exponent) := by positivity
  rw [less, decide_eq_true_iff, ← @Int.cast_lt ℚ, scaled_value a (min_le_left _ _), scaled_value b (min_le_right _ _)]
  exact mul_lt_mul_iff_left₀ unit

def Decimal.signedDigits (d : Decimal) : Int := if d.negative then -d.digits else d.digits

theorem Decimal.value_signed (d : Decimal) : d.value = d.signedDigits * (10 : ℚ) ^ d.exponent := by
  unfold value signedDigits
  cases d.negative <;> simp

theorem Decimal.natAbs_signed (d : Decimal) : d.signedDigits.natAbs = d.digits := by
  unfold signedDigits
  cases d.negative <;> simp

theorem Decimal.value_shift {a b : Decimal} (same : a.value = b.value) (low : a.exponent ≤ b.exponent) :
    a.signedDigits = b.signedDigits * 10 ^ (b.exponent - a.exponent).toNat := by
  have power : (10 : ℚ) ^ b.exponent = 10 ^ (b.exponent - a.exponent).toNat * 10 ^ a.exponent := by
    rw [← zpow_natCast, Int.toNat_of_nonneg (by omega), ← zpow_add₀ (by norm_num), sub_add_cancel]
  have unit : (10 : ℚ) ^ a.exponent ≠ 0 := by positivity
  rw [value_signed, value_signed, power, ← mul_assoc] at same
  exact_mod_cast mul_right_cancel₀ unit same

theorem Decimal.eq_of_value {a b : Decimal} (same : a.value = b.value) : a = b ∨ a.digits = 0 ∧ b.digits = 0 := by
  have below {a b : Decimal} (same : a.value = b.value) (low : a.exponent ≤ b.exponent) :
      a = b ∨ a.digits = 0 ∧ b.digits = 0 := by
    have shifted := value_shift same low
    have sizes := congrArg Int.natAbs shifted
    rw [Int.natAbs_mul, natAbs_signed, natAbs_signed, Int.natAbs_pow] at sizes
    by_cases zero : b.digits = 0
    · rw [zero, zero_mul] at sizes
      exact .inr ⟨sizes, zero⟩
    · refine .inl ?_
      have level : (b.exponent - a.exponent).toNat = 0 := by
        by_contra above
        obtain ⟨k, more⟩ := Nat.exists_eq_succ_of_ne_zero above
        have tail : a.digits % 10 = 0 := by
          rw [sizes, more, pow_succ, ← mul_assoc]
          exact Nat.mul_mod_left _ _
        cases a.reduced with
        | inl last => exact last tail
        | inr empty =>
          rw [empty.1] at sizes
          have positive : 0 < b.digits * (10 : Int).natAbs ^ (b.exponent - a.exponent).toNat := by positivity
          omega
      rw [level, pow_zero, mul_one] at shifted sizes
      have exponents : a.exponent = b.exponent := by omega
      obtain ⟨negative, digits, exponent, _⟩ := a
      obtain ⟨negative', digits', exponent', _⟩ := b
      simp only [signedDigits] at shifted exponents sizes zero
      subst exponents sizes
      cases negative <;> cases negative' <;> simp_all
  cases le_total a.exponent b.exponent with
  | inl low => exact below same low
  | inr high =>
    cases below same.symm high with
    | inl equal => exact .inl equal.symm
    | inr zeros => exact .inr zeros.symm

def PyFloat.rank : PyFloat → ℤ ×ₗ ℚ
  | .finite value => toLex (0, value.value)
  | .infinity negative => toLex (if negative then -1 else 1, 0)
  | .nan => toLex (0, 0)

theorem PyFloat.less_iff {a b : PyFloat} (left : a ≠ .nan) (right : b ≠ .nan) :
    a.less b = true ↔ a.rank < b.rank := by
  cases a with
  | nan => exact absurd rfl left
  | infinity negative =>
    cases b with
    | nan => exact absurd rfl right
    | infinity other => cases negative <;> cases other <;> simp [less, rank, Prod.Lex.toLex_lt_toLex]
    | finite b => cases negative <;> simp [less, rank, Prod.Lex.toLex_lt_toLex]
  | finite a =>
    cases b with
    | nan => exact absurd rfl right
    | infinity other => cases other <;> simp [less, rank, Prod.Lex.toLex_lt_toLex]
    | finite b => simpa [less, rank, Prod.Lex.toLex_lt_toLex] using Decimal.less_iff a b

def floatEq (a b : PyFloat) : Bool := decide (a ≠ .nan ∧ b ≠ .nan) && !a.less b && !b.less a

theorem floatEq_iff {a b : PyFloat} (left : a ≠ .nan) (right : b ≠ .nan) :
    floatEq a b = true ↔ a.rank = b.rank := by
  have forward := PyFloat.less_iff left right
  have backward := PyFloat.less_iff right left
  simp only [floatEq, left, right, ne_eq, not_false_eq_true, and_self, decide_true, Bool.true_and, Bool.and_eq_true,
    Bool.not_eq_true', ← Bool.not_eq_true, forward, backward, not_lt]
  constructor
  · rintro ⟨above, below⟩
    exact le_antisymm below above
  · intro same
    exact ⟨same.ge, same.le⟩

theorem PyFloat.eq_of_rank {a b : Decimal} (same : (PyFloat.finite a).rank = (PyFloat.finite b).rank) :
    a = b ∨ a.digits = 0 ∧ b.digits = 0 := by
  have values : a.value = b.value := by simpa [rank] using same
  exact Decimal.eq_of_value values

/-- `min` of some numbers keeps the first of the least. -/
def leastOf (first : PyFloat) (rest : List PyFloat) : PyFloat :=
  rest.foldl (fun least x => if x.less least then x else least) first

theorem leastOf_mem (first : PyFloat) (rest : List PyFloat) : leastOf first rest ∈ first :: rest := by
  induction rest generalizing first with
  | nil => exact List.mem_cons_self
  | cons x rest ih =>
    have inner := ih (if x.less first then x else first)
    unfold leastOf at inner ⊢
    rw [List.foldl_cons]
    cases List.mem_cons.mp inner with
    | inl start =>
      rw [start]
      by_cases below : x.less first <;> simp [below]
    | inr later => simp [later]

theorem leastOf_le {first : PyFloat} {rest : List PyFloat} (numbers : ∀ x ∈ first :: rest, x ≠ .nan) :
    ∀ x ∈ first :: rest, (leastOf first rest).rank ≤ x.rank := by
  induction rest generalizing first with
  | nil =>
    intro x member
    obtain rfl := List.mem_singleton.mp member
    exact le_refl _
  | cons y rest ih =>
    have left : y ≠ .nan := numbers y (by simp)
    have right : first ≠ .nan := numbers first List.mem_cons_self
    by_cases below : y.less first = true
    · have inner := @ih y (fun x member => numbers x (List.mem_cons_of_mem _ member))
      unfold leastOf at inner ⊢
      rw [List.foldl_cons, if_pos below]
      intro x member
      cases List.mem_cons.mp member with
      | inl here =>
        subst here
        exact (inner y List.mem_cons_self).trans ((PyFloat.less_iff left right).mp below).le
      | inr later => exact inner x later
    · have inner := @ih first (by
        intro x member
        apply numbers
        simp only [List.mem_cons] at member ⊢
        tauto)
      unfold leastOf at inner ⊢
      rw [List.foldl_cons, if_neg below]
      rw [PyFloat.less_iff left right, not_lt] at below
      intro x member
      simp only [List.mem_cons] at member inner
      rcases member with here | here | later
      · exact inner x (.inl here)
      · subst here
        exact (inner first (.inl rfl)).trans below
      · exact inner x (.inr later)

theorem leastOf_perm {first other : PyFloat} {rest others : List PyFloat}
    (order : (first :: rest).Perm (other :: others)) (numbers : ∀ x ∈ first :: rest, x ≠ .nan) :
    (leastOf first rest).rank = (leastOf other others).rank := by
  have numbers' : ∀ x ∈ other :: others, x ≠ .nan := fun x member => numbers x (order.mem_iff.mpr member)
  apply le_antisymm
  · exact leastOf_le numbers _ (order.mem_iff.mpr (leastOf_mem other others))
  · exact leastOf_le numbers' _ (order.mem_iff.mp (leastOf_mem first rest))

end PyText
