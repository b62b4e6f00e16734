import JJDai.Lib.Text

/-! Python `float` by the shortest decimal that `repr` prints for it. -/

namespace PyText

/-- A decimal in lowest terms: `digits * 10 ^ exponent`, no trailing zero digit. -/
structure Decimal where
  negative : Bool
  digits : Nat
  exponent : Int
  reduced : digits % 10 ≠ 0 ∨ digits = 0 ∧ exponent = 0
  deriving DecidableEq

/-- Drop trailing zero digits; `fuel` bounds their number. -/
def Decimal.strip (negative : Bool) : Nat → Nat → Int → Decimal
  | 0, _, _ => ⟨negative, 0, 0, .inr ⟨rfl, rfl⟩⟩
  | fuel + 1, digits, exponent =>
    if tail : digits % 10 = 0 then
      if digits = 0 then ⟨negative, 0, 0, .inr ⟨rfl, rfl⟩⟩
      else strip negative fuel (digits / 10) (exponent + 1)
    else ⟨negative, digits, exponent, .inl tail⟩

def Decimal.ofDigits (negative : Bool) (digits : Nat) (exponent : Int) : Decimal :=
  strip negative (digits + 1) digits exponent

private theorem strip_scale (d : Decimal) (zeros fuel : Nat)
    (enough : d.digits * 10 ^ zeros < fuel) :
    Decimal.strip d.negative fuel (d.digits * 10 ^ zeros) (d.exponent - zeros) = d := by
  obtain ⟨negative, digits, exponent, reduced⟩ := d
  obtain ⟨fuel, rfl⟩ : ∃ f, fuel = f + 1 := ⟨fuel - 1, by omega⟩
  rcases reduced with last | ⟨rfl, rfl⟩
  · have positive : digits ≠ 0 := by rintro rfl; simp at last
    induction zeros generalizing fuel with
    | zero =>
      rw [Decimal.strip, dif_neg (by simpa using last)]
      simp
    | succ zeros ih =>
      have grow : digits * 10 ^ (zeros + 1) = digits * 10 ^ zeros * 10 := by ring
      have some_left : digits * 10 ^ zeros ≠ 0 := by positivity
      simp only [grow] at enough ⊢
      rw [Decimal.strip, dif_pos (by omega), if_neg (by omega)]
      have shift : exponent - ((zeros + 1 : Nat) : Int) + 1 = exponent - zeros := by
        push_cast; ring
      simp only [shift, Nat.mul_div_cancel _ (by omega : 0 < 10)]
      obtain ⟨fuel, rfl⟩ : ∃ f, fuel = f + 1 := ⟨fuel - 1, by omega⟩
      exact ih fuel (by simp only; omega)
  · simp [Decimal.strip]

theorem Decimal.ofDigits_scale (d : Decimal) (zeros : Nat) :
    Decimal.ofDigits d.negative (d.digits * 10 ^ zeros) (d.exponent - zeros) = d :=
  strip_scale d zeros _ (Nat.lt_succ_self _)

inductive PyFloat where
  | finite (value : Decimal)
  | infinity (negative : Bool)
  | nan
  deriving DecidableEq

def PyFloat.zero : PyFloat := .finite ⟨false, 0, 0, .inr ⟨rfl, rfl⟩⟩

/-- Rounding of a whole number to 53 significant bits, ties to even. -/
def round53 (value : Nat) : Nat :=
  let shift := Nat.log2 value - 52
  let kept := value / 2 ^ shift
  let lost := value % 2 ^ shift
  if 2 ^ shift < 2 * lost ∨ (2 ^ shift = 2 * lost ∧ kept % 2 = 1) then (kept + 1) * 2 ^ shift
  else kept * 2 ^ shift

/-- The exact integer a float stands for, when it is one (`is_integer`, `int`). -/
def PyFloat.toInt? : PyFloat → Option Int
  | .finite value =>
    if 0 ≤ value.exponent then
      let whole : Int := round53 (value.digits * 10 ^ value.exponent.toNat)
      some (if value.negative then -whole else whole)
    else none
  | _ => none

end PyText
