import JJDai.Lib.HashTreeComplete
import Mathlib.Data.Set.Function

/-! The walk from one leaf to the root: along the sided path of a position it ends in the root, and
no path ends there from another leaf. -/

namespace HashTree

variable (H : Bytes → Bytes)

/-- The walk over the remaining elements of a sided path; `none` when a side does not fit the
counters, or an element is left after they ran out. -/
def ascend (fn sn : Nat) (h : Bytes) : List (Bool × Bytes) → Option (Nat × Bytes)
  | [] => some (sn, h)
  | (left, c) :: rest =>
    if sn = 0 then none
    else if left then
      if fn % 2 = 1 ∨ fn = sn then
        let shifted := skipEven fn sn
        ascend (shifted.1 / 2) (shifted.2 / 2) (H (nodeInput c h)) rest
      else none
    else if fn % 2 = 1 ∨ fn = sn then none
    else ascend (fn / 2) (sn / 2) (H (nodeInput h c)) rest

def ascendInputs (fn sn : Nat) (h : Bytes) : List (Bool × Bytes) → List Bytes
  | [] => []
  | (left, c) :: rest =>
    if left then
      let shifted := skipEven fn sn
      nodeInput c h :: ascendInputs (shifted.1 / 2) (shifted.2 / 2) (H (nodeInput c h)) rest
    else nodeInput h c :: ascendInputs (fn / 2) (sn / 2) (H (nodeInput h c)) rest

theorem ascend_nil (fn sn : Nat) (h : Bytes) : ascend H fn sn h [] = some (sn, h) := rfl

theorem ascend_cons (fn sn : Nat) (h c : Bytes) (left : Bool) (rest : List (Bool × Bytes)) :
    ascend H fn sn h ((left, c) :: rest) =
      if sn = 0 then none
      else if left then
        if fn % 2 = 1 ∨ fn = sn then
          ascend H ((skipEven fn sn).1 / 2) ((skipEven fn sn).2 / 2) (H (nodeInput c h)) rest
        else none
      else if fn % 2 = 1 ∨ fn = sn then none
      else ascend H (fn / 2) (sn / 2) (H (nodeInput h c)) rest := rfl

theorem ascendInputs_cons (fn sn : Nat) (h c : Bytes) (left : Bool) (rest : List (Bool × Bytes)) :
    ascendInputs H fn sn h ((left, c) :: rest) =
      if left then
        nodeInput c h ::
          ascendInputs H ((skipEven fn sn).1 / 2) ((skipEven fn sn).2 / 2) (H (nodeInput c h)) rest
      else nodeInput h c :: ascendInputs H (fn / 2) (sn / 2) (H (nodeInput h c)) rest := rfl

theorem ascend_left {fn sn : Nat} (odd : fn % 2 = 1) (le : fn ≤ sn) (h c : Bytes) (rest : List (Bool × Bytes)) :
    ascend H fn sn h ((true, c) :: rest) = ascend H (fn / 2) (sn / 2) (H (nodeInput c h)) rest := by
  have positive : sn ≠ 0 := by omega
  simp only [ascend_cons, positive, if_false, if_true, odd, true_or, skipEven_odd odd]

theorem ascend_right {fn sn : Nat} (even : fn % 2 = 0) (lt : fn < sn) (h c : Bytes) (rest : List (Bool × Bytes)) :
    ascend H fn sn h ((false, c) :: rest) = ascend H (fn / 2) (sn / 2) (H (nodeInput h c)) rest := by
  have positive : sn ≠ 0 := by omega
  have side : ¬(fn % 2 = 1 ∨ fn = sn) := by omega
  simp only [ascend_cons, positive, if_false, side, Bool.false_eq_true]

theorem ascend_promote {fn : Nat} (positive : fn ≠ 0) (even : fn % 2 = 0) (h : Bytes) {path : List (Bool × Bytes)}
    (some_left : path ≠ []) : ascend H fn fn h path = ascend H (fn / 2) (fn / 2) h path := by
  have half : fn / 2 ≠ 0 := by omega
  match path with
  | [] => exact absurd rfl some_left
  | (left, c) :: rest =>
    simp only [ascend_cons, positive, half, if_false, or_true, if_true, skipEven_even positive even]

theorem ascendInputs_promote {fn : Nat} (positive : fn ≠ 0) (even : fn % 2 = 0) (h : Bytes) {left : Bool} {c : Bytes}
    {rest : List (Bool × Bytes)} (side : left = true) :
    ascendInputs H fn fn h ((left, c) :: rest) = ascendInputs H (fn / 2) (fn / 2) h ((left, c) :: rest) := by
  simp only [ascendInputs_cons, side, if_true, skipEven_even positive even]

theorem ascend_complete {trees : List Tree} {fn sn : Nat} (size : trees.length = sn + 1) (le : fn ≤ sn) :
    ascend H fn sn (digestAt H trees fn) ((sidedPath trees fn).map (fun step => (step.1, digest H step.2))) =
      some (0, digest H (join trees)) := by
  induction sn using Nat.strong_induction_on generalizing fn trees with
  | _ sn ih =>
    have up := length_pairUp trees
    rcases Nat.eq_zero_or_pos sn with rfl | positive
    · obtain rfl : fn = 0 := by omega
      obtain ⟨tree, rfl⟩ := List.length_eq_one_iff.mp size
      simp [sidedPath_small, ascend_nil, digestAt]
    · have above := @ih (sn / 2) (by omega) (pairUp trees) (fn / 2) (by omega) (by omega)
      rw [join_pairUp] at above
      rw [sidedPath_level (by omega), List.map_append, sidedSibling]
      rcases Nat.mod_two_eq_zero_or_one fn with even | odd
      · rw [if_neg (by omega)]
        rcases Nat.lt_or_eq_of_le le with lt | same
        · rw [if_pos (by omega), List.map_singleton, List.singleton_append, ascend_right H even lt]
          rw [digestAt_pair H (by omega), show 2 * (fn / 2) = fn by omega] at above
          exact above
        · subst same
          have some_left : (sidedPath (pairUp trees) (fn / 2)).map (fun step => (step.1, digest H step.2)) ≠ [] := by
            have path := @auditPath_ne_nil (pairUp trees) (by omega) (fn / 2)
            rw [← map_sidedPath] at path
            simpa using path
          rw [if_neg (by omega), List.map_nil, List.nil_append, ascend_promote H positive.ne' even _ some_left]
          rw [digestAt_last H (by omega), show 2 * (fn / 2) = fn by omega] at above
          exact above
      · rw [if_pos odd, List.map_singleton, List.singleton_append, ascend_left H odd le]
        rw [digestAt_pair H (by omega), show 2 * (fn / 2) + 1 = fn by omega,
          show 2 * (fn / 2) = fn - 1 by omega] at above
        exact above

section Sound

variable {H} {known : List Bytes} {width : Nat}

/-- A walk that ends in the root of a tree began at the tree's own node, whatever its path was. -/
theorem ascend_sound (apart : Set.InjOn H {b | b ∈ known}) (sized : ∀ b, (H b).length = width) {trees : List Tree}
    {fn sn : Nat} {h : Bytes} {path : List (Bool × Bytes)} (size : trees.length = sn + 1) (le : fn ≤ sn)
    (wide : h.length = width) (treeKnown : ∀ b ∈ inputs H (join trees), b ∈ known)
    (pathKnown : ∀ b ∈ ascendInputs H fn sn h path, b ∈ known)
    (ended : ascend H fn sn h path = some (0, digest H (join trees))) : h = digestAt H trees fn := by
  have own (i : Nat) : (digestAt H trees i).length = width := length_digest H sized _
  induction sn using Nat.strong_induction_on generalizing fn trees h path with
  | _ sn ih =>
    have up := length_pairUp trees
    match path with
    | [] =>
      simp only [ascend_nil, Option.some.injEq, Prod.mk.injEq] at ended
      obtain ⟨rfl, rfl⟩ := ended
      obtain rfl : fn = 0 := by omega
      obtain ⟨tree, rfl⟩ := List.length_eq_one_iff.mp size
      simp [digestAt]
    | (left, c) :: rest =>
      have positive : sn ≠ 0 := by
        rintro rfl
        simp [ascend_cons] at ended
      have higher {h' : Bytes} {path' : List (Bool × Bytes)} (wide' : h'.length = width)
          (known' : ∀ b ∈ ascendInputs H (fn / 2) (sn / 2) h' path', b ∈ known)
          (ended' : ascend H (fn / 2) (sn / 2) h' path' = some (0, digest H (join trees))) :
          h' = digestAt H (pairUp trees) (fn / 2) := by
        rw [← join_pairUp] at ended'
        exact ih (sn / 2) (by omega) (by omega) (by omega) wide' (by rwa [join_pairUp]) known' ended'
          (fun i => length_digest H sized _)
      rcases Nat.mod_two_eq_zero_or_one fn with even | odd
      · rcases Nat.lt_or_eq_of_le le with lt | same
        · cases left with
          | true =>
            have side : ¬(fn % 2 = 1 ∨ fn = sn) := by omega
            simp [ascend_cons, positive, side] at ended
          | false =>
            rw [ascend_right H even lt] at ended
            simp only [ascendInputs_cons, Bool.false_eq_true, if_false, List.mem_cons, forall_eq_or_imp] at pathKnown
            have above := higher (sized _) pathKnown.2 ended
            rw [digestAt_pair H (by omega), show 2 * (fn / 2) = fn by omega] at above
            have pair := treeKnown _ (nodeInput_mem_join H (i := fn / 2) (by omega))
            rw [show 2 * (fn / 2) = fn by omega] at pair
            have joined := nodeInput_inj (apart pathKnown.1 pair above)
            exact (List.append_inj joined (by rw [wide, own])).1
        · subst same
          have side : left = true := by
            cases left with
            | true => rfl
            | false => simp [ascend_cons, positive] at ended
          rw [ascend_promote H positive even _ (List.cons_ne_nil _ _)] at ended
          rw [ascendInputs_promote H positive even h side] at pathKnown
          have above := higher wide pathKnown ended
          rwa [digestAt_last H (by omega), show 2 * (fn / 2) = fn by omega] at above
      · cases left with
        | false => simp [ascend_cons, positive, odd] at ended
        | true =>
          rw [ascend_left H odd le] at ended
          simp only [ascendInputs_cons, if_true, skipEven_odd odd, List.mem_cons, forall_eq_or_imp] at pathKnown
          have above := higher (sized _) pathKnown.2 ended
          rw [digestAt_pair H (by omega), show 2 * (fn / 2) + 1 = fn by omega] at above
          have pair := treeKnown _ (nodeInput_mem_join H (i := fn / 2) (by omega))
          rw [show 2 * (fn / 2) + 1 = fn by omega] at pair
          have joined := nodeInput_inj (apart pathKnown.1 pair above)
          exact (List.append_inj' joined (by rw [wide, own])).2

end Sound

end HashTree
