import Mathlib.Data.List.Basic
import Mathlib.Data.List.GetD
import Mathlib.Tactic

/-! RFC 6962 hash trees over an arbitrary hash function: the split tree, its
level-by-level reading, and the digests of both. -/

namespace HashTree

abbrev Bytes := List UInt8

/-- Doubling search for the largest power of two strictly below `n`. -/
def splitFrom (k n : Nat) : Nat :=
  if 0 < k ∧ k * 2 < n then splitFrom (k * 2) n else k
termination_by n - k

/-- Largest power of two strictly below `n`, for `n ≥ 2`. -/
def split (n : Nat) : Nat := splitFrom 1 n

private theorem splitFrom_spec (k n : Nat) (positive : 0 < k) (below : k < n) :
    ∃ e, splitFrom k n = k * 2 ^ e ∧ k * 2 ^ e < n ∧ n ≤ k * 2 ^ (e + 1) := by
  induction k using splitFrom.induct n with
  | case1 k guard ih =>
    obtain ⟨e, value, lower, upper⟩ := ih (by omega) guard.2
    refine ⟨e + 1, ?_, ?_, ?_⟩
    · rw [splitFrom, if_pos guard, value]; ring
    · calc k * 2 ^ (e + 1) = k * 2 * 2 ^ e := by ring
        _ < n := lower
    · calc n ≤ k * 2 * 2 ^ (e + 1) := upper
        _ = k * 2 ^ (e + 1 + 1) := by ring
  | case2 k stop =>
    refine ⟨0, ?_, by simpa using below, ?_⟩
    · rw [splitFrom, if_neg stop]; simp
    · simp only [not_and, not_lt] at stop
      simpa using stop positive

theorem split_spec {n : Nat} (large : 2 ≤ n) :
    ∃ e, split n = 2 ^ e ∧ 2 ^ e < n ∧ n ≤ 2 ^ (e + 1) := by
  simpa [split] using splitFrom_spec 1 n (by omega) (by omega)

theorem split_pos {n : Nat} (large : 2 ≤ n) : 0 < split n := by
  obtain ⟨e, value, _, _⟩ := split_spec large
  rw [value]; positivity

theorem split_lt {n : Nat} (large : 2 ≤ n) : split n < n := by
  obtain ⟨e, value, lower, _⟩ := split_spec large
  rwa [value]

private theorem pow_bracket_unique {a b n : Nat} (lowA : 2 ^ a < n) (highA : n ≤ 2 ^ (a + 1))
    (lowB : 2 ^ b < n) (highB : n ≤ 2 ^ (b + 1)) : a = b := by
  have ab : a < b + 1 := (Nat.pow_lt_pow_iff_right (by omega : 1 < 2)).mp (lowA.trans_le highB)
  have ba : b < a + 1 := (Nat.pow_lt_pow_iff_right (by omega : 1 < 2)).mp (lowB.trans_le highA)
  omega

theorem split_eq_pow {n e : Nat} (low : 2 ^ e < n) (high : n ≤ 2 ^ (e + 1)) : split n = 2 ^ e := by
  have large : 2 ≤ n := by have := @Nat.one_le_two_pow e; omega
  obtain ⟨e', value, low', high'⟩ := split_spec large
  rw [value, pow_bracket_unique low' high' low high]

theorem split_half {n : Nat} (large : 3 ≤ n) : split n = 2 * split ((n + 1) / 2) := by
  obtain ⟨e, value, low, high⟩ := @split_spec n (by omega)
  cases e with
  | zero => simp at high; omega
  | succ e =>
    have half : split ((n + 1) / 2) = 2 ^ e := by
      apply split_eq_pow
      · have : 2 ^ (e + 1) = 2 * 2 ^ e := by ring
        omega
      · have : 2 ^ (e + 1 + 1) = 2 * 2 ^ (e + 1) := by ring
        omega
    rw [value, half]; ring

/-- A tree shape with leaf payloads; `empty` is the tree of no leaves. -/
inductive Tree where
  | empty
  | leaf (payload : Bytes)
  | node (left right : Tree)
  deriving DecidableEq

/-- The split tree over a list of subtrees. -/
def join (trees : List Tree) : Tree :=
  match trees with
  | [] => .empty
  | [tree] => tree
  | first :: second :: rest =>
    let whole := first :: second :: rest
    let k := split whole.length
    have lower : 0 < split whole.length := split_pos (by simp [whole])
    have upper : split whole.length < whole.length := split_lt (by simp [whole])
    .node (join (whole.take k)) (join (whole.drop k))
termination_by trees.length
decreasing_by
  all_goals simp_all [whole]; try omega

@[simp] theorem join_nil : join [] = .empty := by rw [join]

@[simp] theorem join_single (tree : Tree) : join [tree] = tree := by rw [join]

theorem join_split {trees : List Tree} (large : 2 ≤ trees.length) :
    join trees = .node (join (trees.take (split trees.length)))
      (join (trees.drop (split trees.length))) := by
  match trees, large with
  | first :: second :: rest, _ => rw [join]

/-- One level up: neighbours are paired and an odd last tree is promoted. -/
def pairUp : List Tree → List Tree
  | first :: second :: rest => .node first second :: pairUp rest
  | short => short

theorem length_pairUp (trees : List Tree) : (pairUp trees).length = (trees.length + 1) / 2 := by
  induction trees using pairUp.induct with
  | case1 first second rest ih => simp [pairUp, ih]; omega
  | case2 short notTwo =>
    match short, notTwo with
    | [], _ => simp [pairUp]
    | [_], _ => simp [pairUp]
    | first :: second :: rest, notTwo => exact (notTwo first second rest rfl).elim

theorem pairUp_append {front : List Tree} (even : front.length % 2 = 0) (back : List Tree) :
    pairUp (front ++ back) = pairUp front ++ pairUp back := by
  induction front using pairUp.induct with
  | case1 first second rest ih =>
    simp only [List.length_cons] at even
    simp [pairUp, ih (by omega)]
  | case2 short notTwo =>
    match short, notTwo with
    | [], _ => simp [pairUp]
    | [_], _ => simp at even
    | first :: second :: rest, notTwo => exact (notTwo first second rest rfl).elim

theorem pairUp_getD (trees : List Tree) (i : Nat) :
    (pairUp trees).getD i .empty =
      if 2 * i + 1 < trees.length
      then .node (trees.getD (2 * i) .empty) (trees.getD (2 * i + 1) .empty)
      else trees.getD (2 * i) .empty := by
  induction trees using pairUp.induct generalizing i with
  | case1 first second rest ih =>
    cases i with
    | zero => simp [pairUp]
    | succ i =>
      have shift : 2 * (i + 1) = 2 * i + 1 + 1 := by ring
      simp only [pairUp, List.getD_cons_succ, ih, shift, List.length_cons]
      congr 1
      simp
  | case2 short notTwo =>
    match short, notTwo with
    | [], _ => simp [pairUp]
    | [_], _ => cases i <;> simp [pairUp, Nat.mul_succ]
    | first :: second :: rest, notTwo => exact (notTwo first second rest rfl).elim

theorem join_pairUp (trees : List Tree) : join (pairUp trees) = join trees := by
  induction size : trees.length using Nat.strong_induction_on generalizing trees with
  | _ size' ih =>
    subst size
    match trees with
    | [] => rfl
    | [_] => rfl
    | [first, second] =>
      rw [@join_split [first, second] (by simp)]
      have one : split 2 = 1 := split_eq_pow (e := 0) (by omega) (by omega)
      simp [pairUp, one]
    | first :: second :: third :: rest =>
      generalize whole : first :: second :: third :: rest = trees at *
      have large : 3 ≤ trees.length := by subst whole; simp
      have half := split_half large
      have lower := @split_lt trees.length (by omega)
      have positive := @split_pos trees.length (by omega)
      have size := length_pairUp trees
      have frontSize : (pairUp (trees.take (split trees.length))).length =
          split ((trees.length + 1) / 2) := by
        rw [length_pairUp, List.length_take]; omega
      have divided : pairUp trees = pairUp (trees.take (split trees.length)) ++
          pairUp (trees.drop (split trees.length)) := by
        rw [← pairUp_append (by rw [List.length_take]; omega), List.take_append_drop]
      rw [@join_split (pairUp trees) (by omega), @join_split trees (by omega)]
      congr 1
      · rw [size, divided, ← frontSize, List.take_left]
        exact ih _ (by rw [List.length_take]; omega) _ rfl
      · rw [size, divided, ← frontSize, List.drop_left]
        exact ih _ (by rw [List.length_drop]; omega) _ rfl

end HashTree

/-! Digests of split trees and the bottom-up walk of RFC 6962 §2.1.4.2. The
hash is a parameter; collisions are only excluded on an explicit list of inputs. -/

namespace HashTree

variable (H : Bytes → Bytes)

def leafInput (payload : Bytes) : Bytes := 0 :: payload

def nodeInput (left right : Bytes) : Bytes := 1 :: (left ++ right)

def digest : Tree → Bytes
  | .empty => H []
  | .leaf payload => H (leafInput payload)
  | .node left right => H (nodeInput (digest left) (digest right))

/-- Every byte string hashed while computing a digest. -/
def inputs : Tree → List Bytes
  | .empty => [[]]
  | .leaf payload => [leafInput payload]
  | .node left right =>
    nodeInput (digest H left) (digest H right) :: (inputs left ++ inputs right)

/-- Shift both counters while the first is odd. -/
def skipOdd (fn sn : Nat) : Nat × Nat :=
  if fn % 2 = 1 then skipOdd (fn / 2) (sn / 2) else (fn, sn)
termination_by fn
decreasing_by omega

/-- Shift both counters while the first is even and not zero. -/
def skipEven (fn sn : Nat) : Nat × Nat :=
  if fn ≠ 0 ∧ fn % 2 = 0 then skipEven (fn / 2) (sn / 2) else (fn, sn)
termination_by fn
decreasing_by omega

/-- The walk over the remaining proof elements; `none` when an element is left
after the counters ran out. -/
def climb (fn sn : Nat) (fr sr : Bytes) : List Bytes → Option (Nat × Bytes × Bytes)
  | [] => some (sn, fr, sr)
  | c :: rest =>
    if sn = 0 then none
    else if fn % 2 = 1 ∨ fn = sn then
      let shifted := skipEven fn sn
      climb (shifted.1 / 2) (shifted.2 / 2) (H (nodeInput c fr)) (H (nodeInput c sr)) rest
    else climb (fn / 2) (sn / 2) fr (H (nodeInput sr c)) rest

def climbInputs (fn sn : Nat) (fr sr : Bytes) : List Bytes → List Bytes
  | [] => []
  | c :: rest =>
    if sn = 0 then []
    else if fn % 2 = 1 ∨ fn = sn then
      let shifted := skipEven fn sn
      nodeInput c fr :: nodeInput c sr ::
        climbInputs (shifted.1 / 2) (shifted.2 / 2) (H (nodeInput c fr)) (H (nodeInput c sr)) rest
    else nodeInput sr c :: climbInputs (fn / 2) (sn / 2) fr (H (nodeInput sr c)) rest

theorem skipEven_odd {fn : Nat} (odd : fn % 2 = 1) (sn : Nat) : skipEven fn sn = (fn, sn) := by
  rw [skipEven, if_neg (by omega)]

theorem skipEven_even {fn : Nat} (positive : fn ≠ 0) (even : fn % 2 = 0) (sn : Nat) :
    skipEven fn sn = skipEven (fn / 2) (sn / 2) := by
  rw [skipEven, if_pos ⟨positive, even⟩]

theorem climb_promote {fn : Nat} (positive : fn ≠ 0) (even : fn % 2 = 0)
    (fr sr : Bytes) (path : List Bytes) (some_left : path ≠ []) :
    climb H fn fn fr sr path = climb H (fn / 2) (fn / 2) fr sr path := by
  cases path with
  | nil => exact (some_left rfl).elim
  | cons c rest =>
    have half : fn / 2 ≠ 0 := by omega
    simp only [climb, positive, half, if_false, or_true, if_true, skipEven_even positive even]

theorem climbInputs_promote {fn : Nat} (positive : fn ≠ 0) (even : fn % 2 = 0)
    (fr sr : Bytes) (path : List Bytes) :
    climbInputs H fn fn fr sr path = climbInputs H (fn / 2) (fn / 2) fr sr path := by
  cases path with
  | nil => rfl
  | cons c rest =>
    have half : fn / 2 ≠ 0 := by omega
    simp only [climbInputs, positive, half, if_false, or_true, if_true,
      skipEven_even positive even]

theorem climb_odd {fn sn : Nat} (odd : fn % 2 = 1) (le : fn ≤ sn) (fr sr c : Bytes)
    (rest : List Bytes) :
    climb H fn sn fr sr (c :: rest) =
      climb H (fn / 2) (sn / 2) (H (nodeInput c fr)) (H (nodeInput c sr)) rest := by
  have positive : sn ≠ 0 := by omega
  simp only [climb, positive, if_false, odd, true_or, if_true, skipEven_odd odd]

theorem climb_even {fn sn : Nat} (even : fn % 2 = 0) (lt : fn < sn) (fr sr c : Bytes)
    (rest : List Bytes) :
    climb H fn sn fr sr (c :: rest) =
      climb H (fn / 2) (sn / 2) fr (H (nodeInput sr c)) rest := by
  have positive : sn ≠ 0 := by omega
  have side : ¬ (fn % 2 = 1 ∨ fn = sn) := by omega
  simp only [climb, positive, side, if_false]

theorem climbInputs_odd {fn sn : Nat} (odd : fn % 2 = 1) (le : fn ≤ sn) (fr sr c : Bytes)
    (rest : List Bytes) :
    climbInputs H fn sn fr sr (c :: rest) = nodeInput c fr :: nodeInput c sr ::
      climbInputs H (fn / 2) (sn / 2) (H (nodeInput c fr)) (H (nodeInput c sr)) rest := by
  have positive : sn ≠ 0 := by omega
  simp only [climbInputs, positive, if_false, odd, true_or, if_true, skipEven_odd odd]

theorem climbInputs_even {fn sn : Nat} (even : fn % 2 = 0) (lt : fn < sn) (fr sr c : Bytes)
    (rest : List Bytes) :
    climbInputs H fn sn fr sr (c :: rest) =
      nodeInput sr c :: climbInputs H (fn / 2) (sn / 2) fr (H (nodeInput sr c)) rest := by
  have positive : sn ≠ 0 := by omega
  have side : ¬ (fn % 2 = 1 ∨ fn = sn) := by omega
  simp only [climbInputs, positive, side, if_false]

def digestAt (trees : List Tree) (i : Nat) : Bytes := digest H (trees.getD i .empty)

theorem digestAt_pair {trees : List Tree} {i : Nat} (paired : 2 * i + 1 < trees.length) :
    digestAt H (pairUp trees) i =
      H (nodeInput (digestAt H trees (2 * i)) (digestAt H trees (2 * i + 1))) := by
  simp only [digestAt, pairUp_getD, if_pos paired, digest]

theorem digestAt_last {trees : List Tree} {i : Nat} (last : trees.length = 2 * i + 1) :
    digestAt H (pairUp trees) i = digestAt H trees (2 * i) := by
  simp only [digestAt, pairUp_getD, last, lt_irrefl, if_false]

theorem length_digest {width : Nat} (sized : ∀ b, (H b).length = width) (tree : Tree) :
    (digest H tree).length = width := by
  cases tree <;> simp [digest, sized]

theorem inputs_join {trees : List Tree} {tree : Tree} (member : tree ∈ trees) :
    ∀ b ∈ inputs H tree, b ∈ inputs H (join trees) := by
  induction size : trees.length using Nat.strong_induction_on generalizing trees with
  | _ size' ih =>
    subst size
    match trees, member with
    | [only], member =>
      rw [List.mem_singleton] at member
      subst member
      simp
    | first :: second :: rest, member =>
      generalize whole : first :: second :: rest = trees at *
      have large : 2 ≤ trees.length := by subst whole; simp
      have lower := split_pos large
      have upper := split_lt large
      intro b present
      rw [join_split large, inputs, List.mem_cons, List.mem_append]
      right
      rw [← List.take_append_drop (split trees.length) trees, List.mem_append] at member
      rcases member with left | right
      · exact .inl (ih _ (by rw [List.length_take]; omega) left rfl b present)
      · exact .inr (ih _ (by rw [List.length_drop]; omega) right rfl b present)

theorem nodeInput_mem_join {trees : List Tree} {i : Nat} (paired : 2 * i + 1 < trees.length) :
    nodeInput (digestAt H trees (2 * i)) (digestAt H trees (2 * i + 1)) ∈
      inputs H (join trees) := by
  have size := length_pairUp trees
  have inside : i < (pairUp trees).length := by omega
  have value : (pairUp trees)[i] =
      .node (trees.getD (2 * i) .empty) (trees.getD (2 * i + 1) .empty) := by
    have read := pairUp_getD trees i
    rwa [if_pos paired, List.getD_eq_getElem _ _ inside] at read
  rw [← join_pairUp]
  apply inputs_join H (List.getElem_mem inside)
  rw [value, inputs]
  exact List.mem_cons_self ..

theorem nodeInput_inj {a b c d : Bytes} (same : nodeInput a b = nodeInput c d) :
    a ++ b = c ++ d := by
  simpa [nodeInput] using same

end HashTree
