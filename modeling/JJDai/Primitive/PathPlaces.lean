import JJDai.Lib.HashTreeSides
import JJDai.Primitive.Inclusion

/-! `jjdai.merkle`: at how many positions an audit path is accepted. -/

namespace JJDai.Merkle

open PyText
open HashTree hiding Bytes

variable (crypto : Crypto)

/-- One turn of the loop of `merkle_verify`. -/
def joinSibling (h side sib : Json) : Py Json :=
  if side = .str "L" then node crypto sib h else node crypto h sib

def foldPath (h : Json) : List Json → Py Json
  | [] => return h
  | item :: rest => do
    let (side, sib) ← unpackPair item
    let above ← joinSibling crypto h side sib
    foldPath above rest

def merkleVerify (leafBytes : Bytes) (proof : List Json) (root : Json) : Py Bool := do
  let h ← foldPath crypto (.str (leaf crypto leafBytes)) proof
  hmacEqual h root

/-- The sides that a path names, from the leaf up. -/
def pathSides (proof : List Json) : List Bool := proof.map (fun item => (decodedStep item).1)

variable {crypto}

/-- The loop of `mth_verify_inclusion` is that of `merkle_verify`, where the sides fit the counters. -/
theorem inclusionLoop_iff {fn sn : Nat} {h top : Json} {path : List Json} :
    inclusionLoop crypto fn sn h path = .ok (some (0, top)) ↔
      foldPath crypto h path = .ok top ∧ Fits fn sn (pathSides path) := by
  induction path generalizing fn sn h with
  | nil => simp [inclusionLoop, foldPath, pathSides, Fits, pure, Except.pure, and_comm]
  | cons item rest ih =>
    cases unpacked : unpackPair item with
    | error e => simp [inclusionLoop, foldPath, unpacked, bind, Except.bind]
    | ok pair =>
      obtain ⟨side, sib⟩ := pair
      have step : (decodedStep item).1 = decide (side = .str "L") := by simp only [decodedStep, unpacked]
      simp only [inclusionLoop, foldPath, unpacked, bind, ok_bind, pathSides, List.map_cons, Fits, step,
        decide_eq_true_eq]
      by_cases ended : sn = 0
      · simp [ended, pure, Except.pure]
      · by_cases side_left : side = .str "L"
        · by_cases fits : fn % 2 = 1 ∨ fn = sn
          · simp only [ended, side_left, fits, if_false, if_true, Py.bind_ok, joinSibling, ne_eq, not_false_eq_true,
              true_and]
            simp only [ih]
            constructor
            · rintro ⟨above, made, folded, later⟩
              exact ⟨⟨above, made, folded⟩, later⟩
            · rintro ⟨⟨above, made, folded⟩, later⟩
              exact ⟨above, made, folded, later⟩
          · simp [ended, side_left, fits, pure, Except.pure]
        · by_cases fits : fn % 2 = 1 ∨ fn = sn
          · simp [ended, side_left, fits, pure, Except.pure]
          · simp only [ended, side_left, fits, if_false, Py.bind_ok, joinSibling, ne_eq, not_false_eq_true, true_and]
            simp only [ih]
            constructor
            · rintro ⟨above, made, folded, later⟩
              exact ⟨⟨above, made, folded⟩, later⟩
            · rintro ⟨⟨above, made, folded⟩, later⟩
              exact ⟨above, made, folded, later⟩

/-- A path is accepted at the places that its sides fit, if it leads to the root at all. -/
theorem mthVerifyInclusion_true {x : Bytes} {index n : Int} {proof : List Json} {root : Json} :
    mthVerifyInclusion crypto x index n (.arr proof) root = .ok true ↔
      merkleVerify crypto x proof root = .ok true ∧ 0 ≤ index ∧ index < n ∧
        Fits index.toNat (n - 1).toNat (pathSides proof) := by
  by_cases bounds : 0 ≤ index ∧ index < n
  · have listed : pyList (.arr proof) = .ok proof := rfl
    simp only [mthVerifyInclusion, bounds, and_self, not_true_eq_false, if_false, listed, merkleVerify, bind, ok_bind,
      Py.bind_ok, true_and]
    constructor
    · rintro ⟨state, run, closed⟩
      obtain rfl := inclusionEnd_true closed
      obtain ⟨folded, fits⟩ := inclusionLoop_iff.mp run
      exact ⟨⟨root, folded, by simpa [inclusionEnd] using closed⟩, fits⟩
    · rintro ⟨⟨top, folded, same⟩, fits⟩
      exact ⟨_, inclusionLoop_iff.mpr ⟨folded, fits⟩, by simpa [inclusionEnd] using same⟩
  · simp only [mthVerifyInclusion, bounds, not_false_eq_true, if_true, pure, Except.pure, Except.ok.injEq,
      Bool.false_eq_true, false_iff]
    rintro ⟨_, lower, upper, _⟩
    exact bounds ⟨lower, upper⟩

/-- A path that leads to the root is accepted at one place only exactly when it is empty, or one
sibling on the right. -/
theorem inclusion_place_unique_iff (x : Bytes) (proof : List Json) (root : Str) :
    (∀ index n index' n' : Int, mthVerifyInclusion crypto x index n (.arr proof) (.str root) = .ok true →
      mthVerifyInclusion crypto x index' n' (.arr proof) (.str root) = .ok true → index = index' ∧ n = n') ↔
    (merkleVerify crypto x proof (.str root) = .ok true → pathSides proof = [] ∨ pathSides proof = [false]) := by
  simp only [mthVerifyInclusion_true]
  rw [← place_of_sides_iff]
  constructor
  · intro unique leads fn sn fn' sn' le le' fits fits'
    have place (fn sn : Nat) : ((sn : Int) + 1 - 1).toNat = sn := by omega
    obtain ⟨same, size⟩ := unique fn (sn + 1) fn' (sn' + 1) ⟨leads, by omega, by omega, by simpa [place fn] using fits⟩
      ⟨leads, by omega, by omega, by simpa [place fn'] using fits'⟩
    omega
  · rintro unique index n index' n' ⟨leads, lower, upper, fits⟩ ⟨_, lower', upper', fits'⟩
    obtain ⟨same, size⟩ := unique leads _ _ _ _ (by omega) (by omega) fits fits'
    omega

/-- The path of the second of two leaves is taken for that of the last of three. -/
theorem inclusion_place_replayed : ¬∀ (x : Bytes) (proof : List Json) (root : Str) (index n index' n' : Int),
    mthVerifyInclusion Crypto.sample x index n (.arr proof) (.str root) = .ok true →
    mthVerifyInclusion Crypto.sample x index' n' (.arr proof) (.str root) = .ok true → index = index' ∧ n = n' := by
  intro unique
  have twice := unique [2] [sided "L" (.str (leaf Crypto.sample [1]))]
    (H_hex Crypto.sample (1 :: (Crypto.sample.H [0, 1] ++ Crypto.sample.H [0, 2]))) 1 2 2 3 (by decide +kernel)
    (by decide +kernel)
  exact absurd twice.1 (by decide)

end JJDai.Merkle
