import Mathlib.Algebra.BigOperators.Ring.List
import Mathlib.Algebra.Order.BigOperators.Group.List
import Mathlib.Algebra.Order.Field.Basic
import Mathlib.Data.List.Sort
import Mathlib.Tactic.Common
import Mathlib.Tactic.Abel

/-! Weighted items in order of weight: the cut to the first few, and the nucleus of the first
ones that together reach a bound. Which ranks the nucleus holds depends on the weights alone. -/

namespace Nucleus

universe u v w

variable {α : Type u} {K : Type v} [AddCommMonoid K] [LinearOrder K]

def mass (items : List (α × K)) : K := (items.map Prod.snd).sum

def Ranked (items : List (α × K)) : Prop := (items.map Prod.snd).Pairwise (fun a b => b ≤ a)

/-- The first `count` ones, or all where the count is not positive. -/
def cut {β : Type w} (count : Int) (items : List β) : List β :=
  if 0 < count then items.take count.toNat else items

/-- Items in order, the last one that with which the sum reaches the bound. -/
def upTo (bound : K) : K → List (α × K) → List (α × K)
  | _, [] => []
  | acc, item :: rest => item :: (if bound ≤ acc + item.2 then [] else upTo bound (acc + item.2) rest)

/-- The rank lies within the cut, and the weights before it stay below the bound. -/
def Within (count : Int) (bound : K) (weights : List K) (rank : Nat) : Prop :=
  rank < (cut count weights).length ∧ (rank = 0 ∨ (weights.take rank).sum < bound)

section Cut

variable {β : Type w} {count : Int} {items : List β}

theorem cut_subset {item : β} (member : item ∈ cut count items) : item ∈ items := by
  unfold cut at member
  split at member
  · exact List.mem_of_mem_take member
  · exact member

theorem cut_eq_take (count : Int) (items : List β) : cut count items = items.take (cut count items).length := by
  unfold cut
  split
  · rw [List.length_take, ← List.take_take, List.take_length]
  · rw [List.take_length]

theorem cut_map {γ : Type v} (f : β → γ) : cut count (items.map f) = (cut count items).map f := by
  unfold cut
  split
  · rw [List.map_take]
  · rfl

theorem length_cut_congr {γ : Type v} {other : List γ} (same : items.length = other.length) :
    (cut count items).length = (cut count other).length := by
  unfold cut
  split
  · rw [List.length_take, List.length_take, same]
  · exact same

end Cut

theorem upTo_subset {bound acc : K} {items : List (α × K)} {item : α × K} (member : item ∈ upTo bound acc items) :
    item ∈ items := by
  induction items generalizing acc with
  | nil => exact member
  | cons head rest ih =>
    rw [upTo] at member
    rcases List.mem_cons.mp member with rfl | later
    · exact List.mem_cons_self
    · split at later
      · exact absurd later List.not_mem_nil
      · exact List.mem_cons_of_mem _ (ih later)

omit [LinearOrder K] in
theorem mass_cons (item : α × K) (rest : List (α × K)) : mass (item :: rest) = item.2 + mass rest := by
  rw [mass, List.map_cons, List.sum_cons, mass]

section Ordered

variable [IsOrderedAddMonoid K]

theorem mass_nonneg {items : List (α × K)} (nonneg : ∀ item ∈ items, 0 ≤ item.2) : 0 ≤ mass items := by
  apply List.sum_nonneg
  intro weight member
  obtain ⟨item, present, rfl⟩ := List.mem_map.mp member
  exact nonneg item present

/-- An item is in the nucleus when nothing stands before it, or the weights before it stay below the bound. -/
theorem mem_upTo_iff {bound acc : K} {items : List (α × K)} {rank : Nat} {item : α × K}
    (nonneg : ∀ item ∈ items, 0 ≤ item.2) (apart : (items.map Prod.fst).Nodup) (placed : items[rank]? = some item) :
    item.1 ∈ (upTo bound acc items).map Prod.fst ↔ rank = 0 ∨ acc + mass (items.take rank) < bound := by
  induction items generalizing acc rank with
  | nil => cases placed
  | cons head rest ih =>
    rw [List.map_cons, List.nodup_cons] at apart
    cases rank with
    | zero =>
      rw [List.getElem?_cons_zero] at placed
      cases placed
      rw [upTo, List.map_cons]
      exact ⟨fun _ => Or.inl rfl, fun _ => List.mem_cons_self⟩
    | succ rank =>
      rw [List.getElem?_cons_succ] at placed
      have later : item ∈ rest := List.mem_of_getElem? placed
      have different : item.1 ≠ head.1 := by
        intro same
        exact apart.1 (same ▸ List.mem_map_of_mem later)
      have others : ∀ other ∈ rest, 0 ≤ other.2 := fun other member => nonneg other (List.mem_cons_of_mem _ member)
      rw [upTo, List.map_cons, List.mem_cons, List.take_succ_cons, mass_cons, ← add_assoc]
      have least : acc + head.2 ≤ acc + head.2 + mass (rest.take rank) :=
        le_add_of_nonneg_right (mass_nonneg fun other member => others other (List.mem_of_mem_take member))
      by_cases reached : bound ≤ acc + head.2
      · rw [if_pos reached]
        constructor
        · rintro (same | none_left)
          · exact absurd same different
          · exact absurd none_left List.not_mem_nil
        · rintro (first | below)
          · exact absurd first (Nat.succ_ne_zero rank)
          · exact absurd (reached.trans least) (not_le.mpr below)
      · rw [if_neg reached, ih others apart.2 placed]
        constructor
        · rintro (same | first | below)
          · exact absurd same different
          · subst first
            rw [List.take_zero]
            exact Or.inr (by simpa [mass] using not_le.mp reached)
          · exact Or.inr below
        · rintro (first | below)
          · exact absurd first (Nat.succ_ne_zero rank)
          · exact Or.inr (Or.inr below)

theorem mem_nucleus_iff {count : Int} {bound : K} {items : List (α × K)} {rank : Nat} {item : α × K} (nonneg : ∀ item ∈ items, 0 ≤ item.2)
    (apart : (items.map Prod.fst).Nodup) (placed : items[rank]? = some item) :
    item.1 ∈ (upTo bound 0 (cut count items)).map Prod.fst ↔ Within count bound (items.map Prod.snd) rank := by
  have lengths : (cut count (items.map Prod.snd)).length = (cut count items).length :=
    length_cut_congr (List.length_map _)
  unfold Within
  rw [lengths]
  by_cases inside : rank < (cut count items).length
  · have kept : (cut count items)[rank]? = some item := by
      rw [cut_eq_take, List.getElem?_take_of_lt inside, placed]
    have distinct : ((cut count items).map Prod.fst).Nodup := by
      rw [← cut_map]
      unfold cut
      split
      · exact apart.sublist (List.take_sublist _ _)
      · exact apart
    have before : (cut count items).take rank = items.take rank := by
      rw [cut_eq_take, List.take_take, min_eq_left inside.le]
    rw [mem_upTo_iff (fun other member => nonneg other (cut_subset member)) distinct kept, before, zero_add, mass,
      List.map_take]
    exact (and_iff_right inside).symm
  · constructor
    · intro member
      obtain ⟨other, held, same⟩ := List.mem_map.mp member
      have among := upTo_subset held
      rw [cut_eq_take] at among
      obtain ⟨place, bounded, at_place⟩ := List.mem_take_iff_getElem.mp among
      have rank_lt : rank < items.length := (List.getElem?_eq_some_iff.mp placed).1
      have place_lt : place < items.length := lt_of_lt_of_le bounded (min_le_right _ _)
      have equal : place = rank := by
        have injective := List.nodup_iff_injective_get.mp apart
        have positions := @injective ⟨place, by rwa [List.length_map]⟩ ⟨rank, by rwa [List.length_map]⟩ (by
          have at_rank := (List.getElem?_eq_some_iff.mp placed).2
          rw [List.get_eq_getElem, List.get_eq_getElem, List.getElem_map, List.getElem_map]
          rw [at_place, at_rank, same])
        exact Fin.mk.inj positions
      exact absurd (lt_of_lt_of_le bounded (min_le_left _ _)) (equal ▸ inside)
    · intro ⟨within, _⟩
      exact absurd within inside

theorem within_of_le {count : Int} {bound : K} {weights : List K} {low high : Nat} (nonneg : ∀ weight ∈ weights, 0 ≤ weight) (le : low ≤ high)
    (within : Within count bound weights high) : Within count bound weights low := by
  refine ⟨lt_of_le_of_lt le within.1, ?_⟩
  rcases within.2 with first | below
  · exact Or.inl (by omega)
  · right
    refine lt_of_le_of_lt ?_ below
    apply List.Sublist.sum_le_sum (List.take_sublist_take_left le)
    intro weight member
    exact nonneg weight (List.mem_of_mem_take member)

end Ordered

/-- Weights over a common divisor stay below a share as the weights stay below that share of the divisor. -/
theorem within_div {K : Type v} [Field K] [LinearOrder K] [IsStrictOrderedRing K] {count : Int} {share z : K}
    {weights : List K} {rank : Nat} (positive : 0 < z) :
    Within count share (weights.map (· / z)) rank ↔ Within count (share * z) weights rank := by
  unfold Within
  rw [length_cut_congr (List.length_map _), ← List.map_take, show (fun x : K => x / z) = fun x => x * z⁻¹ from
    funext fun x => div_eq_mul_inv x z, List.sum_map_mul_right, List.map_id', ← div_eq_mul_inv, div_lt_iff₀ positive]

section Rankings

variable {items other : List (α × K)}

omit [AddCommMonoid K] in
omit [AddCommMonoid K] in
theorem swap_places {near far : Nat} {first second : α × K} (ranked : Ranked items)
    (at_near : items[near]? = some first) (at_far : items[far]? = some second) (same : first.2 = second.2) :
    ∃ swapped : List (α × K), swapped.Perm items ∧ Ranked swapped ∧ swapped[near]? = some second := by
  obtain ⟨near_lt, near_eq⟩ := List.getElem?_eq_some_iff.mp at_near
  obtain ⟨far_lt, far_eq⟩ := List.getElem?_eq_some_iff.mp at_far
  refine ⟨(items.set near second).set far first, ?_, ?_, ?_⟩
  · have order := List.set_set_perm near_lt far_lt
    rwa [near_eq, far_eq] at order
  · have weights : ((items.set near second).set far first).map Prod.snd = items.map Prod.snd := by
      rw [List.map_set, List.map_set]
      apply List.ext_getElem?
      intro place
      rw [List.getElem?_set, List.getElem?_set, List.length_set, List.length_map]
      by_cases at_second : far = place
      · subst at_second
        rw [if_pos rfl, if_pos far_lt, List.getElem?_map, at_far, same]
        rfl
      · rw [if_neg at_second]
        by_cases at_first : near = place
        · subst at_first
          rw [if_pos rfl, if_pos near_lt, List.getElem?_map, at_near, ← same]
          rfl
        · rw [if_neg at_first]
    unfold Ranked
    rw [weights]
    exact ranked
  · rw [List.getElem?_set, List.length_set]
    by_cases coincide : far = near
    · subst coincide
      rw [if_pos rfl, if_pos far_lt]
      rw [at_near] at at_far
      exact at_far
    · rw [if_neg coincide, List.getElem?_set_self near_lt]

end Rankings

end Nucleus
