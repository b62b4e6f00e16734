import JJDai.Lib.HashTree
import Mathlib.Data.Set.Function

/-! A tree head determines the tree under it, its shape included: leaves, nodes
and the empty tree hash inputs of different forms. -/

namespace HashTree

variable {H : Bytes → Bytes} {known : List Bytes} {width : Nat}

def Tree.leaves : Tree → List Bytes
  | .empty => []
  | .leaf payload => [payload]
  | .node left right => left.leaves ++ right.leaves

theorem leaves_join (trees : List Tree) : (join trees).leaves = trees.flatMap Tree.leaves := by
  induction size : trees.length using Nat.strong_induction_on generalizing trees with
  | _ size' ih =>
    subst size
    match trees with
    | [] => rw [join_nil]; rfl
    | [tree] => simp
    | first :: second :: rest =>
      generalize whole : first :: second :: rest = trees at *
      have large : 2 ≤ trees.length := by subst whole; simp
      have lower := split_pos large
      have upper := split_lt large
      rw [join_split large, Tree.leaves, ih _ (by rw [List.length_take]; omega) _ rfl,
        ih _ (by rw [List.length_drop]; omega) _ rfl, ← List.flatMap_append, List.take_append_drop]

variable (H) in
def lastInput : Tree → Bytes
  | .empty => []
  | .leaf payload => leafInput payload
  | .node left right => nodeInput (digest H left) (digest H right)

theorem digest_eq (tree : Tree) : digest H tree = H (lastInput H tree) := by
  cases tree <;> rfl

theorem lastInput_mem (tree : Tree) : lastInput H tree ∈ inputs H tree := by
  cases tree <;> exact List.mem_cons_self

theorem lastInput_injective (apart : Set.InjOn H {b | b ∈ known}) {first second : Tree}
    (firstKnown : ∀ b ∈ inputs H first, b ∈ known) (secondKnown : ∀ b ∈ inputs H second, b ∈ known)
    (same : digest H first = digest H second) : lastInput H first = lastInput H second := by
  rw [digest_eq, digest_eq] at same
  exact apart (firstKnown _ (lastInput_mem first)) (secondKnown _ (lastInput_mem second)) same

theorem digest_injective (apart : Set.InjOn H {b | b ∈ known}) (sized : ∀ b, (H b).length = width)
    {first second : Tree} (firstKnown : ∀ b ∈ inputs H first, b ∈ known)
    (secondKnown : ∀ b ∈ inputs H second, b ∈ known) (same : digest H first = digest H second) :
    first = second := by
  induction first generalizing second with
  | empty =>
    have input := lastInput_injective apart firstKnown secondKnown same
    cases second with
    | empty => rfl
    | leaf payload => cases input
    | node left right => cases input
  | leaf payload =>
    have input := lastInput_injective apart firstKnown secondKnown same
    cases second with
    | empty => cases input
    | leaf other => rw [(List.cons.inj input).2]
    | node left right => cases input
  | node left right leftUnique rightUnique =>
    have input := lastInput_injective apart firstKnown secondKnown same
    cases second with
    | empty => cases input
    | leaf other => cases input
    | node left' right' =>
      obtain ⟨leftSame, rightSame⟩ := List.append_inj (nodeInput_inj input)
        (by rw [length_digest H sized, length_digest H sized])
      simp only [inputs, List.mem_cons, List.mem_append] at firstKnown secondKnown
      rw [leftUnique (fun b member => firstKnown b (.inr (.inl member)))
          (fun b member => secondKnown b (.inr (.inl member))) leftSame,
        rightUnique (fun b member => firstKnown b (.inr (.inr member)))
          (fun b member => secondKnown b (.inr (.inr member))) rightSame]

end HashTree
