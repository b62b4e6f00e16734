import JJDai.Lib.HashTreeInclusion
import JJDai.Lib.HashTreeUnique

/-! Which positions the sides of an audit path leave open: the counters are not told apart by the
sides alone, but for the empty path and a single right sibling. -/

namespace HashTree

/-- The counters `fn` and `sn` let a path with these sides through to the end. -/
def Fits (fn sn : Nat) : List Bool → Prop
  | [] => sn = 0
  | left :: rest =>
    sn ≠ 0 ∧
      if left then
        (fn % 2 = 1 ∨ fn = sn) ∧ Fits ((skipEven fn sn).1 / 2) ((skipEven fn sn).2 / 2) rest
      else ¬(fn % 2 = 1 ∨ fn = sn) ∧ Fits (fn / 2) (sn / 2) rest

/-- The last bit of the position that a side stands for. -/
def sideBit (left : Bool) : Nat := if left then 1 else 0

variable {fn sn : Nat} {left : Bool} {rest : List Bool}

/-- One level further down, the size is made odd and the side is the position's last bit. -/
theorem Fits.below (fits : Fits fn sn rest) :
    Fits (2 * fn + sideBit left) (2 * sn + 1) (left :: rest) := by
  refine ⟨by omega, ?_⟩
  cases left with
  | true =>
    have odd : (2 * fn + sideBit true) % 2 = 1 := by simp [sideBit]
    have half : (2 * fn + sideBit true) / 2 = fn := by simp only [sideBit, if_true]; omega
    have size : (2 * sn + 1) / 2 = sn := by omega
    rw [if_pos rfl, skipEven_odd odd, half, size]
    exact ⟨.inl odd, fits⟩
  | false =>
    have even : 2 * fn + sideBit false = 2 * fn := rfl
    have half : 2 * fn / 2 = fn := by omega
    have size : (2 * sn + 1) / 2 = sn := by omega
    rw [if_neg Bool.false_ne_true, even, half, size]
    exact ⟨by omega, fits⟩

/-- Two places, of trees of different sizes. -/
structure TwoPlaces (sides : List Bool) : Prop where
  apart : ∃ fn sn fn' sn', fn ≤ sn ∧ fn' ≤ sn' ∧ sn ≠ sn' ∧ Fits fn sn sides ∧ Fits fn' sn' sides

theorem TwoPlaces.below (places : TwoPlaces rest) : TwoPlaces (left :: rest) := by
  obtain ⟨fn, sn, fn', sn', le, le', different, fits, fits'⟩ := places.apart
  have bit : sideBit left ≤ 1 := by cases left <;> decide
  exact ⟨_, _, _, _, by omega, by omega, by omega, fits.below, fits'.below⟩

theorem twoPlaces_left : TwoPlaces [true] := by
  refine ⟨1, 1, 2, 2, le_refl _, le_refl _, by decide, ?_, ?_⟩
  · simp [Fits, skipEven_odd]
  · simp [Fits, skipEven_even, skipEven_odd]

/-- A right sibling on the second level leaves open whether the last leaf has a partner. -/
theorem twoPlaces_right : TwoPlaces [left, false] := by
  have one : Fits 0 1 [false] := by simp [Fits]
  refine ⟨2 * 0 + sideBit left, 2 * 1 + 1, sideBit left, 2, ?_, ?_, by decide, one.below, ?_⟩
  · cases left <;> decide
  · cases left <;> decide
  · cases left with
    | true => simp [Fits, sideBit, skipEven_odd]
    | false => simp [Fits, sideBit]

theorem twoPlaces (sides : List Bool) (some_there : sides ≠ []) (longer : sides ≠ [false]) : TwoPlaces sides := by
  induction sides with
  | nil => exact absurd rfl some_there
  | cons left rest ih =>
    match rest with
    | [] =>
      cases left with
      | true => exact twoPlaces_left
      | false => exact absurd rfl longer
    | [false] => exact twoPlaces_right
    | true :: more => exact (ih (List.cons_ne_nil _ _) (by simp)).below
    | false :: next :: more => exact (ih (List.cons_ne_nil _ _) (by simp)).below

theorem place_of_sides_iff (sides : List Bool) :
    (∀ fn sn fn' sn', fn ≤ sn → fn' ≤ sn' → Fits fn sn sides → Fits fn' sn' sides → fn = fn' ∧ sn = sn') ↔
      sides = [] ∨ sides = [false] := by
  constructor
  · intro unique
    by_contra long
    rw [not_or] at long
    obtain ⟨fn, sn, fn', sn', le, le', different, fits, fits'⟩ := (twoPlaces sides long.1 long.2).apart
    exact different (unique fn sn fn' sn' le le' fits fits').2
  · rintro (rfl | rfl) fn sn fn' sn' le le' fits fits'
    · simp only [Fits] at fits fits'
      omega
    · simp only [Fits, Bool.false_eq_true, if_false] at fits fits'
      omega

end HashTree

/-! Hash trees built level by level, in which the last node of an odd level is its own partner:
what their digest says of the leaves, and the paths that lead from a leaf to it. -/

namespace HashTree

/-- One level up: neighbours are paired, and a last tree without a partner with itself. -/
def pairDoubled : List Tree → List Tree
  | [] => []
  | [last] => [.node last last]
  | first :: second :: rest => .node first second :: pairDoubled rest

theorem length_pairDoubled (trees : List Tree) : (pairDoubled trees).length = (trees.length + 1) / 2 := by
  induction trees using pairDoubled.induct with
  | case1 => rfl
  | case2 last => simp [pairDoubled]
  | case3 first second rest ih =>
    simp only [pairDoubled, List.length_cons, ih]
    omega

def fill (trees : List Tree) : Tree :=
  match trees with
  | [] => .empty
  | [tree] => tree
  | first :: second :: rest =>
    fill (pairDoubled (first :: second :: rest))
termination_by trees.length
decreasing_by
  rw [length_pairDoubled]
  simp only [List.length_cons]
  omega

@[simp] theorem fill_nil : fill [] = .empty := by rw [fill]

@[simp] theorem fill_single (tree : Tree) : fill [tree] = tree := by rw [fill]

theorem fill_pairDoubled {trees : List Tree} (large : 2 ≤ trees.length) : fill (pairDoubled trees) = fill trees := by
  match trees, large with
  | first :: second :: rest, _ => rw [fill.eq_3]

theorem leaves_pairDoubled (trees : List Tree) :
    trees.flatMap Tree.leaves <+: (pairDoubled trees).flatMap Tree.leaves := by
  induction trees using pairDoubled.induct with
  | case1 => exact List.prefix_refl _
  | case2 last => simp [pairDoubled, Tree.leaves]
  | case3 first second rest ih =>
    simp only [pairDoubled, List.flatMap_cons, Tree.leaves, ← List.append_assoc]
    exact (List.prefix_append_right_inj _).mpr ih

theorem leaves_fill (trees : List Tree) : trees.flatMap Tree.leaves <+: (fill trees).leaves := by
  induction size : trees.length using Nat.strong_induction_on generalizing trees with
  | _ size' ih =>
    subst size
    match trees with
    | [] => exact List.nil_prefix
    | [tree] => simp
    | first :: second :: rest =>
      have shorter := length_pairDoubled (first :: second :: rest)
      rw [← fill_pairDoubled (by simp)]
      exact (leaves_pairDoubled _).trans (ih _ (by simp only [List.length_cons] at shorter ⊢; omega) _ rfl)

/-- The payloads of a list, and what the doubled nodes add to them. -/
def writtenOut (payloads : List Bytes) : List Bytes := (fill (payloads.map .leaf)).leaves

theorem prefix_writtenOut (payloads : List Bytes) : payloads <+: writtenOut payloads := by
  have start := leaves_fill (payloads.map .leaf)
  have own : (payloads.map Tree.leaf).flatMap Tree.leaves = payloads := by
    rw [List.flatMap_map]
    exact List.flatMap_singleton' payloads
  rwa [own] at start

theorem writtenOut_injective {first second : List Bytes} (same : writtenOut first = writtenOut second)
    (count : first.length = second.length) : first = second :=
  List.IsPrefix.eq_of_length ((List.prefix_of_prefix_length_le (prefix_writtenOut first)
    (same ▸ prefix_writtenOut second) count.le)) count

variable (H : Bytes → Bytes)

/-- The digest that the elements of a path lead to from `h`. -/
def rise (h : Bytes) : List (Bool × Bytes) → Bytes
  | [] => h
  | (left, c) :: rest => rise (if left then H (nodeInput c h) else H (nodeInput h c)) rest

/-- The partner of a place: its neighbour, or itself where there is none. -/
def partner (trees : List Tree) (i : Nat) : Tree :=
  if i % 2 = 1 then trees.getD (i - 1) .empty
  else if i + 1 < trees.length then trees.getD (i + 1) .empty else trees.getD i .empty

/-- The partners of a place on every level, and the side each is on. -/
def doubledPath (trees : List Tree) (i : Nat) : List (Bool × Tree) :=
  if trees.length < 2 then []
  else
    (decide (i % 2 = 1), partner trees i) :: doubledPath (pairDoubled trees) (i / 2)
termination_by trees.length
decreasing_by
  rw [length_pairDoubled]
  omega

theorem pairDoubled_getD {trees : List Tree} {i : Nat} (inside : 2 * i < trees.length) :
    (pairDoubled trees).getD i .empty = .node (trees.getD (2 * i) .empty) (partner trees (2 * i)) := by
  induction trees using pairDoubled.induct generalizing i with
  | case1 => cases inside
  | case2 last =>
    obtain rfl : i = 0 := by simpa using inside
    rfl
  | case3 first second rest ih =>
    cases i with
    | zero => simp [pairDoubled, partner]
    | succ i =>
      have place : 2 * (i + 1) = 2 * i + 1 + 1 := by omega
      have even : ¬(2 * i + 1 + 1) % 2 = 1 := by omega
      have below : ¬2 * i % 2 = 1 := by omega
      simp only [List.length_cons] at inside
      rw [pairDoubled, List.getD_cons_succ, ih (by omega), place]
      simp only [partner, even, below, if_false, List.getD_cons_succ, List.length_cons, Nat.add_lt_add_iff_right]

theorem pairDoubled_half {trees : List Tree} {i : Nat} (inside : i < trees.length) :
    (pairDoubled trees).getD (i / 2) .empty =
      if i % 2 = 1 then .node (partner trees i) (trees.getD i .empty)
      else .node (trees.getD i .empty) (partner trees i) := by
  rw [pairDoubled_getD (by omega)]
  by_cases odd : i % 2 = 1
  · have half : 2 * (i / 2) = i - 1 := by omega
    have even : ¬(i - 1) % 2 = 1 := by omega
    have there : i - 1 + 1 < trees.length := by omega
    have next : i - 1 + 1 = i := by omega
    rw [if_pos odd, half, partner, if_neg even, if_pos there, next, partner, if_pos odd]
  · rw [if_neg odd, show 2 * (i / 2) = i by omega]

theorem rise_doubledPath {trees : List Tree} {i : Nat} (inside : i < trees.length) :
    rise H (digest H (trees.getD i .empty)) ((doubledPath trees i).map (fun step => (step.1, digest H step.2))) =
      digest H (fill trees) := by
  induction size : trees.length using Nat.strong_induction_on generalizing trees i with
  | _ size' ih =>
    subst size
    rw [doubledPath]
    by_cases small : trees.length < 2
    · rw [if_pos small]
      match trees, small, inside with
      | [tree], _, inside =>
        obtain rfl : i = 0 := by simpa using inside
        simp [rise]
    · have shorter := length_pairDoubled trees
      rw [if_neg small, List.map_cons, rise, ← fill_pairDoubled (by omega),
        ← ih (pairDoubled trees).length (by omega) (by omega : i / 2 < _) rfl, pairDoubled_half inside]
      by_cases odd : i % 2 = 1
      · simp [odd, digest]
      · simp [odd, digest]

end HashTree
