import JJDai.Knowledge.RagStore
import JJDai.Primitive.PathPlaces

/-! `jjdai.merkle`, the tree with the last node doubled: its root and its proofs are those of the
doubled tree over the leaves. -/

namespace JJDai.Merkle

open PyText
open HashTree hiding Bytes

variable {crypto : Crypto}

/-- The digest of a tree, as the levels hold it. -/
def digestText (crypto : Crypto) (tree : Tree) : Str := toHex (digest crypto.H tree)

theorem parent_digest (left right : Tree) :
    parent crypto (digestText crypto left) (digestText crypto right) = .ok (digestText crypto (.node left right)) := by
  simp only [parent, digestText, bytesFromHex_toHex, bind, Except.bind, pure, Except.pure]
  rfl

theorem nextLevel_digests (trees : List Tree) :
    nextLevel crypto (trees.map (digestText crypto)) = .ok ((pairDoubled trees).map (digestText crypto)) := by
  induction trees using pairDoubled.induct with
  | case1 => rfl
  | case2 last =>
    simp only [List.map, nextLevel, parent_digest, pairDoubled, bind, Except.bind, pure, Except.pure]
  | case3 first second rest ih =>
    simp only [List.map, nextLevel, parent_digest, ih, pairDoubled, bind, Except.bind, pure, Except.pure]

theorem climb_digests {fuel : Nat} {trees : List Tree} (some_there : trees ≠ []) (enough : trees.length ≤ fuel) :
    climb crypto fuel (trees.map (digestText crypto)) = .ok (digestText crypto (fill trees)) := by
  induction fuel generalizing trees with
  | zero => exact absurd (List.length_eq_zero_iff.mp (Nat.le_zero.mp enough)) some_there
  | succ fuel ih =>
    match trees with
    | [only] => simp [climb, pure, Except.pure]
    | first :: second :: rest =>
      have shorter := length_pairDoubled (first :: second :: rest)
      have above := @nextLevel_digests crypto (first :: second :: rest)
      simp only [List.length_cons] at shorter enough
      rw [← fill_pairDoubled (by simp), ← ih (List.ne_nil_of_length_pos (by omega)) (by omega)]
      simp only [List.map] at above ⊢
      simp only [climb, above, bind, Except.bind]

theorem leaf_digests (leaves : List Bytes) :
    leaves.map (leaf crypto) = (leaves.map Tree.leaf).map (digestText crypto) := by
  rw [List.map_map]
  rfl

theorem merkleRoot_eq {leaves : List Bytes} (some_there : leaves ≠ []) :
    merkleRoot crypto leaves = .ok (digestText crypto (fill (leaves.map .leaf))) := by
  rw [merkleRoot, if_neg some_there, leaf_digests]
  exact climb_digests (by simpa using some_there) (by simp)

/-- One element of a proof of `merkle_proof`. -/
def stepText (crypto : Crypto) (step : Bool × Tree) : Str × Str := (sideText step.1, digestText crypto step.2)

theorem beside_partner {trees : List Tree} {i : Nat} (inside : i < trees.length) :
    let level := trees.map (digestText crypto)
    let padded := if level.length % 2 = 1 then level ++ level.getLast?.toList else level
    (if i % 2 = 0 then atIndex padded (i + 1) else atIndex padded (i - 1)) = .ok (digestText crypto (partner trees i)) := by
  intro level padded
  have held {place : Nat} (there : place < trees.length) :
      padded[place]? = some (digestText crypto (trees.getD place .empty)) := by
    have own : level[place]? = some (digestText crypto (trees.getD place .empty)) := by
      simp [level, there]
    simp only [padded]
    split
    · rw [List.getElem?_append_left (by simpa [level] using there), own]
    · exact own
  have place : ((i : Int) + 1).toNat = i + 1 := by omega
  by_cases even : i % 2 = 0
  · have odd : ¬i % 2 = 1 := by omega
    rw [if_pos even, partner, if_neg odd, atIndex_nonneg (by omega), place]
    by_cases next : i + 1 < trees.length
    · rw [if_pos next]
      exact held next
    · have size : trees.length = i + 1 := by omega
      have uneven : level.length % 2 = 1 := by simp only [level, List.length_map]; omega
      have whole : level.length = i + 1 := by simp only [level, List.length_map, size]
      have last : level.getLast? = some (digestText crypto (trees.getD i .empty)) := by
        rw [List.getLast?_eq_getElem?, whole]
        simp [level, inside]
      simp only [if_neg next, padded, if_pos uneven, last, Option.toList_some]
      rw [List.getElem?_append_right (by omega), whole]
      simp
  · have odd : i % 2 = 1 := by omega
    have before : ((i : Int) - 1).toNat = i - 1 := by omega
    rw [if_neg even, partner, if_pos odd, atIndex_nonneg (by omega), before]
    exact held (by omega)

theorem siblings_digests {fuel : Nat} {trees : List Tree} {i : Nat} (inside : i < trees.length)
    (enough : trees.length ≤ fuel) :
    siblings crypto fuel (trees.map (digestText crypto)) i = .ok ((doubledPath trees i).map (stepText crypto)) := by
  induction fuel generalizing trees i with
  | zero => omega
  | succ fuel ih =>
    rw [siblings, doubledPath, List.length_map]
    by_cases small : trees.length ≤ 1
    · rw [if_pos small, if_pos (by omega)]
      rfl
    · have shorter := length_pairDoubled trees
      have above := @ih (pairDoubled trees) (i / 2) (by omega) (by omega)
      have beside := @beside_partner crypto trees i inside
      simp only [List.length_map] at beside
      have large : ¬trees.length < 2 := by omega
      rw [if_neg small, if_neg large]
      rcases Nat.mod_two_eq_zero_or_one i with even | odd
      · rw [if_pos even] at beside
        have side : decide (i % 2 = 1) = false := by simp [even]
        simp only [if_pos even, bind, beside, ok_bind, nextLevel_digests, above, pure, Except.pure, List.map_cons, stepText,
          side, sideText, Bool.false_eq_true, if_false]
      · have uneven : ¬i % 2 = 0 := by omega
        rw [if_neg uneven] at beside
        have side : decide (i % 2 = 1) = true := by simp [odd]
        simp only [if_neg uneven, bind, beside, ok_bind, nextLevel_digests, above, pure, Except.pure, List.map_cons,
          stepText, side, sideText, if_true]

theorem merkleProof_eq {leaves : List Bytes} {i : Nat} (inside : i < leaves.length) :
    merkleProof crypto leaves i = .ok ((doubledPath (leaves.map .leaf) i).map (stepText crypto)) := by
  rw [merkleProof, if_pos inside, leaf_digests]
  exact siblings_digests (by simpa using inside) (by simp)

theorem foldPath_hex (h : Bytes) (path : List (Bool × Bytes)) :
    foldPath crypto (hexJson h) (path.map stepJson) = .ok (hexJson (rise crypto.H h path)) := by
  induction path generalizing h with
  | nil => rfl
  | cons step rest ih =>
    obtain ⟨left, c⟩ := step
    have unpacked : unpackPair (stepJson (left, c)) = .ok (.str (sideText left), hexJson c) := rfl
    rw [List.map_cons, foldPath]
    simp only [unpacked, bind, ok_bind, joinSibling, rise]
    cases left with
    | true =>
      have side : Json.str (sideText true) = .str "L" := rfl
      rw [if_pos side, node_hex, ok_bind, if_pos rfl]
      exact ih _
    | false =>
      have side : Json.str (sideText false) ≠ .str "L" := by decide
      rw [if_neg side, node_hex, ok_bind, if_neg Bool.false_ne_true]
      exact ih _

def pathJson (path : List (Str × Str)) : List Json := path.map (fun step => sided step.1 (.str step.2))

theorem merkleVerify_complete {leaves : List Bytes} {i : Nat} (inside : i < leaves.length) {path : List (Str × Str)}
    {root : Str} (proved : merkleProof crypto leaves i = .ok path) (rooted : merkleRoot crypto leaves = .ok root) :
    merkleVerify crypto leaves[i] (pathJson path) (.str root) = .ok true := by
  rw [merkleProof_eq inside] at proved
  rw [merkleRoot_eq (List.ne_nil_of_length_pos (by omega))] at rooted
  obtain rfl := Except.ok.inj proved
  obtain rfl := Except.ok.inj rooted
  have start : Json.str (leaf crypto leaves[i]) = hexJson (digest crypto.H ((leaves.map Tree.leaf).getD i .empty)) := by
    simp [inside, digest, leafInput, leaf, hexJson, H_hex]
  have elements : pathJson ((doubledPath (leaves.map .leaf) i).map (stepText crypto)) =
      ((doubledPath (leaves.map .leaf) i).map (fun step => (step.1, digest crypto.H step.2))).map stepJson := by
    rw [pathJson, List.map_map, List.map_map]
    rfl
  rw [merkleVerify, elements, start, foldPath_hex, rise_doubledPath crypto.H (by simpa using inside)]
  simp only [bind, ok_bind, digestText]
  rw [show Json.str (toHex (digest crypto.H (fill (leaves.map .leaf)))) =
    hexJson (digest crypto.H (fill (leaves.map .leaf))) from rfl, hmacEqual_hex]
  simp

end JJDai.Merkle
