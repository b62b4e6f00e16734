import JJDai.Lib.Number
import Mathlib.Data.Nat.Digits.Defs

/-! The order of Python floats, and `float(n)` of an integer. -/

namespace PyText

/-- The number in units of `10 ^ unit`, for a unit no larger than its exponent. -/
def Decimal.scaled (d : Decimal) (unit : Int) : Int :=
  let magnitude : Int := d.digits * 10 ^ (d.exponent - unit).toNat
  if d.negative then -magnitude else magnitude

def Decimal.less (a b : Decimal) : Bool :=
  a.scaled (min a.exponent b.exponent) < b.scaled (min a.exponent b.exponent)

def PyFloat.less : PyFloat → PyFloat → Bool
  | .nan, _ => false
  | _, .nan => false
  | .infinity negative, .infinity other => negative && !other
  | .infinity negative, .finite _ => negative
  | .finite _, .infinity negative => !negative
  | .finite a, .finite b => a.less b

/-- The whole numbers of `count` digits and zeros on both sides of a number. -/
def around (n count : Nat) : List Nat :=
  let unit := 10 ^ ((Nat.digits 10 n).length - count)
  [n / unit * unit, (n / unit + 1) * unit]

/-- The shortest whole number that rounds to the same float, the nearest of them. -/
def shortest (rounded : Nat) : Nat :=
  let counts := (List.range 17).map (fun i => (around rounded (i + 1)).filter (fun n => round53 n = rounded))
  match counts.find? (fun found => found ≠ []) with
  | some (first :: rest) =>
    rest.foldl (fun best n => if n + best < 2 * rounded then n else best) first
  | _ => rounded

/-- `float(n)`; `none` stands for `OverflowError`. -/
def PyFloat.ofInt (n : Int) : Option PyFloat :=
  if n.natAbs < 2 ^ 53 then some (.finite (.ofDigits (decide (n < 0)) n.natAbs 0))
  else
    let rounded := round53 n.natAbs
    if rounded < 2 ^ 1024 then some (.finite (.ofDigits (decide (n < 0)) (shortest rounded) 0))
    else none

def PyFloat.exceeds (x : PyFloat) (n : Int) : Bool :=
  match x with
  | .nan => false
  | .infinity negative => !negative
  | .finite d =>
    match (PyFloat.finite d).toInt? with
    | some whole => n < whole
    | none => (Decimal.ofDigits (decide (n < 0)) n.natAbs 0).less d

def PyFloat.below (x : PyFloat) (n : Int) : Bool :=
  match x with
  | .nan => false
  | .infinity negative => negative
  | .finite d =>
    match (PyFloat.finite d).toInt? with
    | some whole => whole < n
    | none => d.less (Decimal.ofDigits (decide (n < 0)) n.natAbs 0)

theorem Decimal.strip_value (negative : Bool) {fuel digits : Nat} (enough : digits < fuel)
    (exponent : Nat) : ∃ shift : Nat, (strip negative fuel digits exponent).exponent = shift ∧
      (strip negative fuel digits exponent).digits * 10 ^ shift = digits * 10 ^ exponent ∧
      (strip negative fuel digits exponent).negative = negative := by
  induction fuel generalizing digits exponent with
  | zero => omega
  | succ fuel ih =>
    unfold strip
    split
    · rename_i tail
      split
      · rename_i zero
        exact ⟨0, rfl, by simp [zero], rfl⟩
      · rename_i positive
        obtain ⟨shift, power, value, sign⟩ := ih (show digits / 10 < fuel by omega) (exponent + 1)
        refine ⟨shift, by exact_mod_cast power, ?_, by exact_mod_cast sign⟩
        have whole : digits / 10 * 10 = digits := Nat.div_mul_cancel (Nat.dvd_of_mod_eq_zero tail)
        push_cast at value ⊢
        rw [value, pow_succ, ← whole]
        simp only [Nat.mul_div_cancel _ (by decide : 0 < 10)]
        ring
    · exact ⟨exponent, rfl, rfl, rfl⟩

theorem Decimal.ofDigits_scaled (negative : Bool) (digits : Nat) :
    0 ≤ (ofDigits negative digits 0).exponent ∧
      (ofDigits negative digits 0).scaled 0 = if negative then -(digits : Int) else digits := by
  obtain ⟨shift, power, value, sign⟩ := strip_value negative (Nat.lt_succ_self digits) 0
  have same : ofDigits negative digits 0 = strip negative digits.succ digits (0 : Nat) := rfl
  rw [pow_zero, mul_one] at value
  rw [same]
  generalize strip negative digits.succ digits (0 : Nat) = d at *
  refine ⟨by omega, ?_⟩
  unfold scaled
  rw [power, sign, sub_zero, Int.toNat_natCast, ← value]
  push_cast
  rfl

theorem Decimal.scaled_zero (d : Decimal) (unit : Nat) (fits : (unit : Int) ≤ d.exponent) :
    d.scaled 0 = d.scaled unit * 10 ^ unit := by
  have split : (d.exponent - 0).toNat = (d.exponent - unit).toNat + unit := by omega
  unfold scaled
  simp only [split, pow_add]
  split <;> ring

theorem Decimal.less_whole {a b : Decimal} (left : 0 ≤ a.exponent) (right : 0 ≤ b.exponent) :
    a.less b = decide (a.scaled 0 < b.scaled 0) := by
  obtain ⟨unit, common⟩ := Int.eq_ofNat_of_zero_le (le_min left right)
  have below : (unit : Int) ≤ a.exponent ∧ (unit : Int) ≤ b.exponent := by
    rw [← common]
    exact ⟨min_le_left _ _, min_le_right _ _⟩
  have positive : (0 : Int) < 10 ^ unit := by positivity
  rw [less, common, a.scaled_zero unit below.1, b.scaled_zero unit below.2]
  exact decide_eq_decide.mpr (mul_lt_mul_iff_left₀ positive).symm

theorem Decimal.ofDigits_less (m n : Nat) (negative : Bool) :
    ((ofDigits negative m 0).less (ofDigits false n 0) =
        decide ((if negative then -(m : Int) else m) < n)) ∧
      (ofDigits false n 0).less (ofDigits negative m 0) =
        decide ((n : Int) < if negative then -(m : Int) else m) := by
  obtain ⟨first, left⟩ := ofDigits_scaled negative m
  obtain ⟨second, right⟩ := ofDigits_scaled false n
  rw [less_whole first second, less_whole second first, left, right]
  exact ⟨rfl, rfl⟩

theorem half_round53 {n : Nat} (positive : n ≠ 0) : n ≤ 2 * round53 n := by
  have power : 2 ^ (Nat.log2 n - 52) ≤ n :=
    le_trans (Nat.pow_le_pow_right (by decide) (Nat.sub_le _ _)) (Nat.log2_self_le positive)
  have room : 0 < 2 ^ (Nat.log2 n - 52) := by positivity
  unfold round53
  simp only
  generalize 2 ^ (Nat.log2 n - 52) = unit at *
  have split := Nat.div_add_mod n unit
  have rest := Nat.mod_lt n room
  have kept : 1 ≤ n / unit := (Nat.one_le_div_iff room).mpr power
  have whole : unit ≤ n / unit * unit := Nat.le_mul_of_pos_left unit kept
  rw [mul_comm] at split
  split
  · rw [Nat.add_mul, one_mul]
    omega
  · omega

theorem half_around {n count candidate : Nat} (positive : n ≠ 0) (some_digit : count ≠ 0)
    (member : candidate ∈ around n count) : n ≤ 2 * candidate := by
  have power : 10 ^ ((Nat.digits 10 n).length - count) ≤ n := by
    have bound := Nat.base_pow_length_digits_le 10 n (by decide) positive
    have digits : (Nat.digits 10 n).length ≠ 0 := by
      rw [ne_eq, List.length_eq_zero_iff]
      exact Nat.digits_ne_nil_iff_ne_zero.mpr positive
    have less : 10 ^ ((Nat.digits 10 n).length - count + 1) ≤ 10 ^ (Nat.digits 10 n).length :=
      Nat.pow_le_pow_right (by decide) (by omega)
    rw [pow_succ] at less
    omega
  have room : 0 < 10 ^ ((Nat.digits 10 n).length - count) := by positivity
  unfold around at member
  simp only [List.mem_cons, List.not_mem_nil, or_false] at member
  generalize 10 ^ ((Nat.digits 10 n).length - count) = unit at *
  have split := Nat.div_add_mod n unit
  have rest := Nat.mod_lt n room
  have whole : unit ≤ n / unit * unit := Nat.le_mul_of_pos_left unit ((Nat.one_le_div_iff room).mpr power)
  rw [mul_comm] at split
  rcases member with rfl | rfl
  · omega
  · rw [Nat.add_mul, one_mul]
    omega

theorem half_shortest (rounded : Nat) (positive : rounded ≠ 0) : rounded ≤ 2 * shortest rounded := by
  unfold shortest
  simp only
  split
  · rename_i first rest found
    have member := List.mem_of_find?_eq_some found
    obtain ⟨i, _, shape⟩ := List.mem_map.mp member
    have all : ∀ n ∈ first :: rest, rounded ≤ 2 * n := by
      intro n inside
      rw [← shape] at inside
      exact half_around positive (Nat.succ_ne_zero i) (List.mem_filter.mp inside).1
    have best : ∀ (items : List Nat) (start : Nat), rounded ≤ 2 * start → (∀ n ∈ items, rounded ≤ 2 * n) →
        rounded ≤ 2 * items.foldl (fun best n => if n + best < 2 * rounded then n else best) start := by
      intro items
      induction items with
      | nil => exact fun start good _ => good
      | cons n items ih =>
        intro start good inside
        refine ih _ ?_ (fun m member => inside m (List.mem_cons_of_mem _ member))
        simp only
        split
        · exact inside n List.mem_cons_self
        · exact good
    exact best rest first (all first List.mem_cons_self)
      (fun n inside => all n (List.mem_cons_of_mem _ inside))
  · omega

theorem PyFloat.ofInt_within {n : Int} {x : PyFloat} {most : Nat} (small : most < 2 ^ 50)
    (made : ofInt n = some x) (low : (x.less (.finite (.ofDigits false 0 0))) = false)
    (high : PyFloat.less (.finite (.ofDigits false most 0)) x = false) :
    0 ≤ n ∧ n ≤ most := by
  unfold ofInt at made
  split at made
  · obtain rfl := Option.some.inj made
    have bounds := Decimal.ofDigits_less n.natAbs 0 (decide (n < 0))
    have above := Decimal.ofDigits_less n.natAbs most (decide (n < 0))
    simp only [less, bounds.1, above.2, decide_eq_false_iff_not, decide_eq_true_eq] at low high
    split at low <;> rename_i sign <;> simp only [sign, if_true, if_false] at high <;> omega
  · rename_i large
    simp only at made
    split at made
    · obtain rfl := Option.some.inj made
      have half := half_round53 (n := n.natAbs) (by omega)
      have digits := half_shortest (round53 n.natAbs) (by omega)
      have bounds := Decimal.ofDigits_less (shortest (round53 n.natAbs)) 0 (decide (n < 0))
      have above := Decimal.ofDigits_less (shortest (round53 n.natAbs)) most (decide (n < 0))
      simp only [less, bounds.1, above.2, decide_eq_false_iff_not, decide_eq_true_eq] at low high
      split at low <;> rename_i sign <;> simp only [sign, if_true, if_false] at high <;> omega
    · cases made

end PyText
