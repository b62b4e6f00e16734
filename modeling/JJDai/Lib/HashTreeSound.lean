import JJDai.Lib.HashTree
import Mathlib.Data.Set.Function

/-! Soundness of the bottom-up walk: a walk that ends in two tree digests has
read the trees' own nodes, whatever the proof elements are and however wide. -/

namespace HashTree

section Sound

variable {H : Bytes → Bytes} {known : List Bytes} {width : Nat}

private theorem node_cancel (apart : Set.InjOn H {b | b ∈ known}) {a b c d : Bytes}
    (left : nodeInput a b ∈ known) (right : nodeInput c d ∈ known)
    (same : H (nodeInput a b) = H (nodeInput c d)) : a ++ b = c ++ d :=
  nodeInput_inj (apart left right same)

theorem root_sound (apart : Set.InjOn H {b | b ∈ known}) (sized : ∀ b, (H b).length = width)
    {old new : List Tree} (same : old.length = new.length)
    (oldKnown : ∀ b ∈ inputs H (join old), b ∈ known)
    (newKnown : ∀ b ∈ inputs H (join new), b ∈ known)
    (root : digest H (join old) = digest H (join new)) :
    ∀ i < old.length, digestAt H old i = digestAt H new i := by
  induction size : old.length using Nat.strong_induction_on generalizing old new with
  | _ size' ih =>
    subst size
    intro i inside
    by_cases small : old.length = 1
    · obtain ⟨a, rfl⟩ := List.length_eq_one_iff.mp small
      obtain ⟨b, rfl⟩ := List.length_eq_one_iff.mp (same.symm.trans small)
      obtain rfl : i = 0 := by omega
      simpa [digestAt] using root
    · have upOld := length_pairUp old
      have upNew := length_pairUp new
      have above : digestAt H (pairUp old) (i / 2) = digestAt H (pairUp new) (i / 2) :=
        ih (pairUp old).length (by omega) (by omega) (by rwa [join_pairUp]) (by rwa [join_pairUp])
          (by rwa [join_pairUp, join_pairUp]) rfl (i / 2) (by omega)
      by_cases paired : 2 * (i / 2) + 1 < old.length
      · rw [digestAt_pair H paired, digestAt_pair H (by omega)] at above
        have joined := node_cancel apart (oldKnown _ (nodeInput_mem_join H paired))
          (newKnown _ (nodeInput_mem_join H (by omega))) above
        obtain ⟨first, second⟩ := List.append_inj joined
          (by simp only [digestAt, length_digest H sized])
        rcases Nat.mod_two_eq_zero_or_one i with even | odd
        · rwa [show 2 * (i / 2) = i by omega] at first
        · rwa [show 2 * (i / 2) + 1 = i by omega] at second
      · rw [digestAt_last H (by omega), digestAt_last H (by omega)] at above
        rwa [show 2 * (i / 2) = i by omega] at above

/-- What the walk has pinned once it ends in the digests of both trees. With a
digest-wide `sr` both running values are the trees' own; while they are still
one proof element, the trees agree up to and including position `fn`. -/
structure Pinned (H : Bytes → Bytes) (width : Nat) (old new : List Tree) (fn : Nat)
    (fr sr : Bytes) : Prop where
  wide : sr.length = width → fr = digestAt H old fn ∧ sr = digestAt H new fn ∧
    ∀ i < fn, digestAt H old i = digestAt H new i
  fresh : fr = sr → ∀ i ≤ fn, digestAt H old i = digestAt H new i

private theorem agree_below (apart : Set.InjOn H {b | b ∈ known})
    (sized : ∀ b, (H b).length = width) {old new : List Tree} {bound : Nat}
    (oldRoom : 2 * bound ≤ old.length) (newRoom : 2 * bound ≤ new.length)
    (oldKnown : ∀ b ∈ inputs H (join old), b ∈ known)
    (newKnown : ∀ b ∈ inputs H (join new), b ∈ known)
    (above : ∀ i < bound, digestAt H (pairUp old) i = digestAt H (pairUp new) i) :
    ∀ i < 2 * bound, digestAt H old i = digestAt H new i := by
  intro i inside
  have up := above (i / 2) (by omega)
  rw [digestAt_pair H (by omega), digestAt_pair H (by omega)] at up
  have joined := node_cancel apart (oldKnown _ (nodeInput_mem_join H (by omega)))
    (newKnown _ (nodeInput_mem_join H (by omega))) up
  obtain ⟨first, second⟩ := List.append_inj joined
    (by simp only [digestAt, length_digest H sized])
  rcases Nat.mod_two_eq_zero_or_one i with even | odd
  · rwa [show 2 * (i / 2) = i by omega] at first
  · rwa [show 2 * (i / 2) + 1 = i by omega] at second

private theorem pinned_odd (apart : Set.InjOn H {b | b ∈ known})
    (sized : ∀ b, (H b).length = width) {old new : List Tree} {fn sn : Nat} {fr sr c : Bytes}
    (oldSize : old.length = fn + 1) (newSize : new.length = sn + 1) (le : fn ≤ sn)
    (odd : fn % 2 = 1)
    (oldKnown : ∀ b ∈ inputs H (join old), b ∈ known)
    (newKnown : ∀ b ∈ inputs H (join new), b ∈ known)
    (frKnown : nodeInput c fr ∈ known) (srKnown : nodeInput c sr ∈ known)
    (above : Pinned H width (pairUp old) (pairUp new) (fn / 2)
      (H (nodeInput c fr)) (H (nodeInput c sr))) :
    Pinned H width old new fn fr sr := by
  obtain ⟨frUp, srUp, below⟩ := above.wide (sized _)
  have agree := agree_below apart sized (by omega) (by omega) oldKnown newKnown below
  rw [digestAt_pair H (by omega)] at frUp srUp
  have frJoined := node_cancel apart frKnown
    (oldKnown _ (nodeInput_mem_join H (by omega))) frUp
  have srJoined := node_cancel apart srKnown
    (newKnown _ (nodeInput_mem_join H (by omega))) srUp
  rw [show 2 * (fn / 2) + 1 = fn by omega] at frJoined srJoined
  have oldWide (i) : (digestAt H old i).length = width := length_digest H sized _
  have newWide (i) : (digestAt H new i).length = width := length_digest H sized _
  constructor
  · intro srWide
    obtain ⟨cNew, srNew⟩ := List.append_inj' srJoined (by rw [srWide, newWide])
    have cWide : c.length = width := by rw [cNew, newWide]
    obtain ⟨cOld, frOld⟩ := List.append_inj frJoined (by rw [cWide, oldWide])
    refine ⟨frOld, srNew, ?_⟩
    intro i inside
    by_cases last : i = 2 * (fn / 2)
    · rw [last, ← cOld, ← cNew]
    · exact agree i (by omega)
  · intro same i inside
    rw [← same, frJoined] at srJoined
    obtain ⟨first, second⟩ := List.append_inj srJoined (by rw [oldWide, newWide])
    rcases Nat.lt_or_ge i (2 * (fn / 2)) with lower | upper
    · exact agree i lower
    · rcases (show i = 2 * (fn / 2) ∨ i = fn by omega) with rfl | rfl
      · exact first
      · exact second

private theorem pinned_even (apart : Set.InjOn H {b | b ∈ known})
    (sized : ∀ b, (H b).length = width) {old new : List Tree} {fn sn : Nat} {fr sr c : Bytes}
    (oldSize : old.length = fn + 1) (newSize : new.length = sn + 1) (lt : fn < sn)
    (even : fn % 2 = 0)
    (oldKnown : ∀ b ∈ inputs H (join old), b ∈ known)
    (newKnown : ∀ b ∈ inputs H (join new), b ∈ known)
    (srKnown : nodeInput sr c ∈ known)
    (above : Pinned H width (pairUp old) (pairUp new) (fn / 2) fr (H (nodeInput sr c))) :
    Pinned H width old new fn fr sr := by
  obtain ⟨frUp, srUp, below⟩ := above.wide (sized _)
  have agree := agree_below apart sized (by omega) (by omega) oldKnown newKnown below
  rw [digestAt_last H (by omega), show 2 * (fn / 2) = fn by omega] at frUp
  rw [digestAt_pair H (by omega)] at srUp
  have srJoined := node_cancel apart srKnown
    (newKnown _ (nodeInput_mem_join H (by omega))) srUp
  rw [show 2 * (fn / 2) = fn by omega] at srJoined
  have newWide (i) : (digestAt H new i).length = width := length_digest H sized _
  have pin (srWide : sr.length = width) : fr = digestAt H old fn ∧ sr = digestAt H new fn ∧
      ∀ i < fn, digestAt H old i = digestAt H new i := by
    obtain ⟨srNew, _⟩ := List.append_inj srJoined (by rw [srWide, newWide])
    exact ⟨frUp, srNew, fun i inside => agree i (by omega)⟩
  refine ⟨pin, ?_⟩
  intro same i inside
  have srWide : sr.length = width := by rw [← same, frUp]; exact length_digest H sized _
  obtain ⟨frOld, srNew, lower⟩ := pin srWide
  rcases Nat.lt_or_ge i fn with inner | outer
  · exact lower i inner
  · obtain rfl : i = fn := by omega
    rw [← frOld, ← srNew, same]

private theorem pinned_promote {old new : List Tree} {fn : Nat} {fr sr : Bytes}
    (apart : Set.InjOn H {b | b ∈ known}) (sized : ∀ b, (H b).length = width)
    (oldSize : old.length = fn + 1) (newSize : new.length = fn + 1) (even : fn % 2 = 0)
    (oldKnown : ∀ b ∈ inputs H (join old), b ∈ known)
    (newKnown : ∀ b ∈ inputs H (join new), b ∈ known)
    (above : Pinned H width (pairUp old) (pairUp new) (fn / 2) fr sr) :
    Pinned H width old new fn fr sr := by
  have oldLast : digestAt H (pairUp old) (fn / 2) = digestAt H old fn := by
    rw [digestAt_last H (by omega), show 2 * (fn / 2) = fn by omega]
  have newLast : digestAt H (pairUp new) (fn / 2) = digestAt H new fn := by
    rw [digestAt_last H (by omega), show 2 * (fn / 2) = fn by omega]
  constructor
  · intro srWide
    obtain ⟨frUp, srUp, below⟩ := above.wide srWide
    have agree := agree_below apart sized (by omega) (by omega) oldKnown newKnown below
    exact ⟨frUp.trans oldLast, srUp.trans newLast, fun i inside => agree i (by omega)⟩
  · intro same i inside
    have upper := above.fresh same
    have agree : ∀ i < 2 * (fn / 2), digestAt H old i = digestAt H new i :=
      agree_below apart sized (by omega) (by omega) oldKnown newKnown
        (fun i lower => upper i (by omega))
    rcases Nat.lt_or_ge i fn with inner | outer
    · exact agree i (by omega)
    · obtain rfl : i = fn := by omega
      rw [← oldLast, ← newLast]
      exact upper _ (le_refl _)

theorem climb_sound (apart : Set.InjOn H {b | b ∈ known}) (sized : ∀ b, (H b).length = width)
    {old new : List Tree} {fn sn : Nat} {fr sr : Bytes} {path : List Bytes}
    (oldSize : old.length = fn + 1) (newSize : new.length = sn + 1) (le : fn ≤ sn)
    (oldKnown : ∀ b ∈ inputs H (join old), b ∈ known)
    (newKnown : ∀ b ∈ inputs H (join new), b ∈ known)
    (pathKnown : ∀ b ∈ climbInputs H fn sn fr sr path, b ∈ known)
    (run : climb H fn sn fr sr path = some (0, digest H (join old), digest H (join new))) :
    Pinned H width old new fn fr sr := by
  induction sn using Nat.strong_induction_on generalizing fn fr sr path old new with
  | _ sn ih =>
    have upOld := length_pairUp old
    have upNew := length_pairUp new
    rcases Nat.eq_zero_or_pos sn with rfl | positive
    · obtain rfl : fn = 0 := by omega
      obtain ⟨a, rfl⟩ := List.length_eq_one_iff.mp oldSize
      obtain ⟨b, rfl⟩ := List.length_eq_one_iff.mp newSize
      cases path with
      | cons c rest => simp [climb] at run
      | nil =>
        simp only [climb, join_single, Option.some.injEq, Prod.mk.injEq, true_and] at run
        obtain ⟨rfl, rfl⟩ := run
        refine ⟨fun _ => ⟨rfl, rfl, fun i inside => by omega⟩, ?_⟩
        intro same i inside
        obtain rfl : i = 0 := by omega
        simpa [digestAt] using same
    · cases path with
      | nil => simp [climb, positive.ne'] at run
      | cons c rest =>
        rcases Nat.mod_two_eq_zero_or_one fn with even | odd
        · rcases Nat.lt_or_eq_of_le le with lt | same
          · rw [climb_even H even lt] at run
            rw [climbInputs_even H even lt] at pathKnown
            apply pinned_even apart sized oldSize newSize lt even oldKnown newKnown
              (pathKnown _ (List.mem_cons_self ..))
            exact ih (sn / 2) (by omega) (by omega) (by omega) (by omega) (by rwa [join_pairUp])
              (by rwa [join_pairUp]) (fun b member => pathKnown b (List.mem_cons_of_mem _ member))
              (by rwa [join_pairUp, join_pairUp])
          · subst same
            rw [climb_promote H positive.ne' even _ _ _ (by simp)] at run
            rw [climbInputs_promote H positive.ne' even] at pathKnown
            apply pinned_promote apart sized oldSize newSize even oldKnown newKnown
            exact ih (fn / 2) (by omega) (by omega) (by omega) (by omega) (by rwa [join_pairUp])
              (by rwa [join_pairUp]) pathKnown (by rwa [join_pairUp, join_pairUp])
        · rw [climb_odd H odd le] at run
          rw [climbInputs_odd H odd le] at pathKnown
          apply pinned_odd apart sized oldSize newSize le odd oldKnown newKnown
            (pathKnown (nodeInput c fr) (by simp)) (pathKnown (nodeInput c sr) (by simp))
          exact ih (sn / 2) (by omega) (by omega) (by omega) (by omega) (by rwa [join_pairUp])
            (by rwa [join_pairUp]) (fun b member => pathKnown b (List.mem_cons_of_mem _ (List.mem_cons_of_mem _ member)))
            (by rwa [join_pairUp, join_pairUp])

theorem climb_start_sound (apart : Set.InjOn H {b | b ∈ known})
    (sized : ∀ b, (H b).length = width)
    {old new : List Tree} {fn sn : Nat} {first : Bytes} {path : List Bytes}
    (oldSize : old.length = fn + 1) (newSize : new.length = sn + 1) (le : fn ≤ sn)
    (oldKnown : ∀ b ∈ inputs H (join old), b ∈ known)
    (newKnown : ∀ b ∈ inputs H (join new), b ∈ known)
    (pathKnown : ∀ b ∈ climbInputs H (skipOdd fn sn).1 (skipOdd fn sn).2 first first path,
      b ∈ known)
    (run : climb H (skipOdd fn sn).1 (skipOdd fn sn).2 first first path =
      some (0, digest H (join old), digest H (join new))) :
    ∀ i ≤ fn, digestAt H old i = digestAt H new i := by
  induction fn, sn using skipOdd.induct generalizing old new with
  | case1 fn sn odd ih =>
    have upOld := length_pairUp old
    have upNew := length_pairUp new
    rw [skipOdd, if_pos odd] at pathKnown run
    have above : ∀ i ≤ fn / 2, digestAt H (pairUp old) i = digestAt H (pairUp new) i :=
      ih (by omega) (by omega) (by omega) (by rwa [join_pairUp]) (by rwa [join_pairUp])
        pathKnown (by rwa [join_pairUp, join_pairUp])
    have agree : ∀ i < 2 * (fn / 2 + 1), digestAt H old i = digestAt H new i :=
      agree_below apart sized (by omega) (by omega) oldKnown newKnown
        (fun i inside => above i (by omega))
    exact fun i inside => agree i (by omega)
  | case2 fn sn even =>
    rw [skipOdd, if_neg even] at pathKnown run
    exact (climb_sound apart sized oldSize newSize le oldKnown newKnown pathKnown run).fresh rfl

end Sound

end HashTree
