import Mathlib.GroupTheory.OrderOfElement
import Mathlib.Tactic

/-! The twisted Edwards curve `-x² + y² = 1 + d x² y²` over a field: where the addition law has no exception, the
points are a commutative group, and a field of finitely many elements bounds how many there are. -/

namespace Edwards

universe u

/-- No denominator of the addition law vanishes. -/
class Complete (K : Type u) [Field K] (d : K) : Prop where
  two : (2 : K) ≠ 0
  root : ∃ i : K, i * i = -1
  nonsquare : ∀ r : K, r * r ≠ d

variable {K : Type u} [Field K] {d : K}

def OnCurve (d x y : K) : Prop := y * y - x * x = 1 + d * (x * x) * (y * y)

instance [DecidableEq K] (x y : K) : Decidable (OnCurve d x y) := inferInstanceAs (Decidable (_ = _))

variable (d) in
@[ext] structure Point where
  x : K
  y : K
  on : OnCurve d x y

/-- The product that is added to one and taken from it in the denominators. -/
def cross (d x₁ y₁ x₂ y₂ : K) : K := d * (x₁ * x₂) * (y₁ * y₂)

section
variable {x₁ y₁ x₂ y₂ x₃ y₃ : K} (on₁ : OnCurve d x₁ y₁) (on₂ : OnCurve d x₂ y₂) (on₃ : OnCurve d x₃ y₃)

include on₁ on₂

theorem cross_ne [complete : Complete K d] : cross d x₁ y₁ x₂ y₂ * cross d x₁ y₁ x₂ y₂ ≠ 1 := by
  intro unit
  obtain ⟨i, root⟩ := complete.root
  have squared (j : K) (root : j * j = -1) : d * (x₁ * y₁ * (j * x₂ + y₂)) ^ 2 =
      (j * x₁ + cross d x₁ y₁ x₂ y₂ * y₁) ^ 2 := by
    simp only [cross, OnCurve] at *
    grind
  have vanishes (j : K) (root : j * j = -1) : x₁ * y₁ * (j * x₂ + y₂) = 0 := by
    by_contra some
    refine complete.nonsquare ((j * x₁ + cross d x₁ y₁ x₂ y₂ * y₁) / (x₁ * y₁ * (j * x₂ + y₂))) ?_
    rw [div_mul_div_comm, div_eq_iff (mul_ne_zero some some), ← pow_two, ← pow_two, squared j root]
  have first := vanishes i root
  have second := vanishes (-i) (by rw [neg_mul_neg, root])
  have two := complete.two
  simp only [cross] at unit
  grind

theorem one_add_cross [Complete K d] : 1 + cross d x₁ y₁ x₂ y₂ ≠ 0 := by
  intro zero
  exact cross_ne on₁ on₂ (by linear_combination (cross d x₁ y₁ x₂ y₂ - 1) * zero)

theorem one_sub_cross [Complete K d] : 1 - cross d x₁ y₁ x₂ y₂ ≠ 0 := by
  intro zero
  exact cross_ne on₁ on₂ (by linear_combination (-cross d x₁ y₁ x₂ y₂ - 1) * zero)

theorem sum_on [Complete K d] : OnCurve d ((x₁ * y₂ + x₂ * y₁) / (1 + cross d x₁ y₁ x₂ y₂))
    ((y₁ * y₂ + x₁ * x₂) / (1 - cross d x₁ y₁ x₂ y₂)) := by
  have plus := one_add_cross on₁ on₂
  have minus := one_sub_cross on₁ on₂
  simp only [OnCurve] at on₁ on₂ ⊢
  field_simp
  simp only [cross]
  grind

include on₃

theorem assoc_x :
    ((x₁ * y₂ + x₂ * y₁) * (1 - cross d x₁ y₁ x₂ y₂) * y₃ + x₃ * (y₁ * y₂ + x₁ * x₂) * (1 + cross d x₁ y₁ x₂ y₂)) *
        ((1 + cross d x₂ y₂ x₃ y₃) * (1 - cross d x₂ y₂ x₃ y₃) +
          d * x₁ * y₁ * (x₂ * y₃ + x₃ * y₂) * (y₂ * y₃ + x₂ * x₃)) =
      (x₁ * (y₂ * y₃ + x₂ * x₃) * (1 + cross d x₂ y₂ x₃ y₃) + (x₂ * y₃ + x₃ * y₂) * (1 - cross d x₂ y₂ x₃ y₃) * y₁) *
        ((1 + cross d x₁ y₁ x₂ y₂) * (1 - cross d x₁ y₁ x₂ y₂) +
          d * x₃ * y₃ * (x₁ * y₂ + x₂ * y₁) * (y₁ * y₂ + x₁ * x₂)) := by
  simp only [OnCurve, cross] at *
  grind

theorem assoc_y :
    ((y₁ * y₂ + x₁ * x₂) * (1 + cross d x₁ y₁ x₂ y₂) * y₃ + (x₁ * y₂ + x₂ * y₁) * (1 - cross d x₁ y₁ x₂ y₂) * x₃) *
        ((1 + cross d x₂ y₂ x₃ y₃) * (1 - cross d x₂ y₂ x₃ y₃) -
          d * x₁ * y₁ * (x₂ * y₃ + x₃ * y₂) * (y₂ * y₃ + x₂ * x₃)) =
      (y₁ * (y₂ * y₃ + x₂ * x₃) * (1 + cross d x₂ y₂ x₃ y₃) + x₁ * (x₂ * y₃ + x₃ * y₂) * (1 - cross d x₂ y₂ x₃ y₃)) *
        ((1 + cross d x₁ y₁ x₂ y₂) * (1 - cross d x₁ y₁ x₂ y₂) -
          d * x₃ * y₃ * (x₁ * y₂ + x₂ * y₁) * (y₁ * y₂ + x₁ * x₂)) := by
  simp only [OnCurve, cross] at *
  grind

end

namespace Point

instance : Zero (Point d) := ⟨⟨0, 1, by simp [OnCurve]⟩⟩

instance : Neg (Point d) := ⟨fun p => ⟨-p.x, p.y, by simpa [OnCurve] using p.on⟩⟩

@[simp] theorem zero_x : (0 : Point d).x = 0 := rfl

@[simp] theorem zero_y : (0 : Point d).y = 1 := rfl

@[simp] theorem neg_x (p : Point d) : (-p).x = -p.x := rfl

@[simp] theorem neg_y (p : Point d) : (-p).y = p.y := rfl

variable [Complete K d]

instance : Add (Point d) := ⟨fun p q => ⟨_, _, sum_on p.on q.on⟩⟩

theorem add_x (p q : Point d) : (p + q).x = (p.x * q.y + q.x * p.y) / (1 + cross d p.x p.y q.x q.y) := rfl

theorem add_y (p q : Point d) : (p + q).y = (p.y * q.y + p.x * q.x) / (1 - cross d p.x p.y q.x q.y) := rfl

protected theorem add_comm (p q : Point d) : p + q = q + p := by
  ext
  · rw [add_x, add_x]
    simp only [cross]
    ring
  · rw [add_y, add_y]
    simp only [cross]
    ring

theorem cross_add (p q r : Point d) :
    cross d (p + q).x (p + q).y r.x r.y * ((1 + cross d p.x p.y q.x q.y) * (1 - cross d p.x p.y q.x q.y)) =
      d * r.x * r.y * (p.x * q.y + q.x * p.y) * (p.y * q.y + p.x * q.x) := by
  have plus := one_add_cross p.on q.on
  have minus := one_sub_cross p.on q.on
  rw [add_x, add_y]
  generalize cross d p.x p.y q.x q.y = inner at *
  simp only [cross]
  field_simp

/-- The denominators of three points added from the left. -/
def leftDen (sign : K) (p q r : Point d) : K :=
  (1 + cross d p.x p.y q.x q.y) * (1 - cross d p.x p.y q.x q.y) +
    sign * (d * r.x * r.y * (p.x * q.y + q.x * p.y) * (p.y * q.y + p.x * q.x))

theorem leftDen_eq (sign : K) (p q r : Point d) :
    leftDen sign p q r = (1 + cross d p.x p.y q.x q.y) * (1 - cross d p.x p.y q.x q.y) *
      (1 + sign * cross d (p + q).x (p + q).y r.x r.y) := by
  rw [leftDen, ← cross_add]
  ring

theorem leftDen_ne {sign : K} (unit : sign = 1 ∨ sign = -1) (p q r : Point d) : leftDen sign p q r ≠ 0 := by
  rw [leftDen_eq]
  refine mul_ne_zero (mul_ne_zero (one_add_cross p.on q.on) (one_sub_cross p.on q.on)) ?_
  rcases unit with rfl | rfl
  · rw [one_mul]
    exact one_add_cross (p + q).on r.on
  · rw [neg_one_mul, ← sub_eq_add_neg]
    exact one_sub_cross (p + q).on r.on

theorem add_add_x (p q r : Point d) : (p + q + r).x * leftDen 1 p q r =
    (p.x * q.y + q.x * p.y) * (1 - cross d p.x p.y q.x q.y) * r.y +
      r.x * (p.y * q.y + p.x * q.x) * (1 + cross d p.x p.y q.x q.y) := by
  have plus := one_add_cross p.on q.on
  have minus := one_sub_cross p.on q.on
  have outer := one_add_cross (p + q).on r.on
  rw [leftDen_eq, add_x (p + q) r, one_mul]
  generalize cross d (p + q).x (p + q).y r.x r.y = whole at *
  rw [add_x, add_y]
  generalize cross d p.x p.y q.x q.y = inner at *
  field_simp

theorem add_add_y (p q r : Point d) : (p + q + r).y * leftDen (-1) p q r =
    (p.y * q.y + p.x * q.x) * (1 + cross d p.x p.y q.x q.y) * r.y +
      (p.x * q.y + q.x * p.y) * (1 - cross d p.x p.y q.x q.y) * r.x := by
  have plus := one_add_cross p.on q.on
  have minus := one_sub_cross p.on q.on
  have outer := one_sub_cross (p + q).on r.on
  rw [leftDen_eq, add_y (p + q) r, neg_one_mul, ← sub_eq_add_neg]
  generalize cross d (p + q).x (p + q).y r.x r.y = whole at *
  rw [add_x, add_y]
  generalize cross d p.x p.y q.x q.y = inner at *
  field_simp

protected theorem add_assoc (p q r : Point d) : p + q + r = p + (q + r) := by
  rw [Point.add_comm p (q + r)]
  have same {a b den other : K} (first : den ≠ 0) (second : other ≠ 0) (cleared : a * den * other = b * other * den) :
      a = b := by
    refine mul_right_cancel₀ (mul_ne_zero first second) ?_
    rw [← mul_assoc, cleared]
    ring
  ext
  · refine same (leftDen_ne (.inl rfl) p q r) (leftDen_ne (.inl rfl) q r p) ?_
    rw [add_add_x, add_add_x]
    simp only [leftDen]
    linear_combination assoc_x p.on q.on r.on
  · refine same (leftDen_ne (.inr rfl) p q r) (leftDen_ne (.inr rfl) q r p) ?_
    rw [add_add_y, add_add_y]
    simp only [leftDen]
    linear_combination assoc_y p.on q.on r.on

protected theorem zero_add (p : Point d) : 0 + p = p := by
  ext
  · simp [add_x, cross]
  · simp [add_y, cross]

protected theorem neg_add_cancel (p : Point d) : -p + p = 0 := by
  have on := p.on
  have plus := one_add_cross p.on p.on
  ext
  · rw [add_x, neg_x, neg_y, zero_x, neg_mul, mul_comm p.x p.y, neg_add_eq_sub, mul_comm, sub_self, zero_div]
  · rw [add_y, neg_x, neg_y, zero_y, div_eq_one_iff_eq]
    · simp only [OnCurve, cross] at *
      linear_combination on
    · simp only [cross] at *
      convert plus using 1
      ring

instance : AddCommGroup (Point d) where
  add_assoc := Point.add_assoc
  zero_add := Point.zero_add
  add_zero p := (Point.add_comm p 0).trans (Point.zero_add p)
  add_comm := Point.add_comm
  neg_add_cancel := Point.neg_add_cancel
  nsmul := nsmulRec
  zsmul := zsmulRec

variable (d) in
theorem solvable (y : K) : 1 + d * (y * y) ≠ 0 := by
  have complete : Complete K d := inferInstance
  obtain ⟨i, root⟩ := complete.root
  intro zero
  by_cases flat : y = 0
  · simp [flat] at zero
  · refine complete.nonsquare (i / y) ?_
    rw [div_mul_div_comm, root, div_eq_iff (mul_ne_zero flat flat)]
    linear_combination -zero

theorem eq_or_neg {p q : Point d} (same : p.y = q.y) : p = q ∨ p = -q := by
  have squares : p.x * p.x = q.x * q.x := by
    have first := p.on
    have second := q.on
    simp only [OnCurve, same] at first second
    refine mul_right_cancel₀ (solvable d q.y) ?_
    linear_combination second - first
  rcases mul_self_eq_mul_self_iff.mp squares with equal | opposite
  · exact .inl (Point.ext equal same)
  · exact .inr (Point.ext opposite same)

omit [Complete K d] in
instance [Finite K] : Finite (Point d) := by
  refine Finite.of_injective (fun p : Point d => (p.x, p.y)) fun p q same => ?_
  exact Point.ext (Prod.mk.inj same).1 (Prod.mk.inj same).2

theorem card_le [Finite K] : Nat.card (Point d) ≤ 2 * Nat.card K := by
  classical
  have := Fintype.ofFinite K
  have := Fintype.ofFinite (Point d)
  rw [Nat.card_eq_fintype_card, Nat.card_eq_fintype_card, ← Finset.card_univ, ← Finset.card_univ]
  refine Finset.card_le_mul_card_image_of_maps_to (f := Point.y) (fun _ _ => Finset.mem_univ _) 2 fun y _ => ?_
  rcases (Finset.univ.filter (fun p : Point d => p.y = y)).eq_empty_or_nonempty with none | ⟨q, member⟩
  · simp [none]
  · have pair : Finset.univ.filter (fun p : Point d => p.y = y) ⊆ {q, -q} := by
      intro p found
      rw [Finset.mem_filter] at found member
      rw [Finset.mem_insert, Finset.mem_singleton]
      exact eq_or_neg (found.2.trans member.2.symm)
    exact (Finset.card_le_card pair).trans Finset.card_le_two

end Point

end Edwards
