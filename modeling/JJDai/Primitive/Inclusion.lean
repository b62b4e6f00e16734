import JJDai.Lib.HashTreeInclusion
import JJDai.Primitive.Builtins
import JJDai.Primitive.Consistency

/-! `jjdai.merkle`: inclusion proofs. The path that is made for a leaf is accepted, and no path
lets another leaf pass at that position. -/

namespace JJDai.Merkle

open PyText
open HashTree hiding Bytes

variable (crypto : Crypto)

/-- One element of an audit path, `(side, sibling)`. -/
def sided (side : Str) (sibling : Json) : Json := .arr [.str side, sibling]

def mthInclusionFrom (leaves : List Bytes) (index : Nat) : Py (List Json) :=
  if small : leaves.length < 2 then return []
  else do
    let k := split leaves.length
    have lower : 0 < split leaves.length := split_pos (Nat.le_of_not_lt small)
    have upper : split leaves.length < leaves.length := split_lt (Nat.le_of_not_lt small)
    if index < k then
      let front ← mthInclusionFrom (leaves.take k) index
      return front ++ [sided "R" (← mthRoot crypto (leaves.drop k))]
    else
      let front ← mthInclusionFrom (leaves.drop k) (index - k)
      return front ++ [sided "L" (← mthRoot crypto (leaves.take k))]
termination_by leaves.length
decreasing_by
  all_goals simp_all; try omega

def mthInclusion (leaves : List Bytes) (index : Int) : Py (List Json) :=
  if 0 ≤ index ∧ index < leaves.length then mthInclusionFrom crypto leaves index.toNat
  else raise .indexError "leaf index out of range"

def unpackPair : Json → Py (Json × Json)
  | .arr [side, sib] => return (side, sib)
  | .str [side, sib] => return (.str [side], .str [sib])
  | .obj [(side, _), (sib, _)] => return (.str side, .str sib)
  | .arr _ | .str _ | .obj _ => raise .valueError
  | _ => raise .typeError

/-- The loop of `mth_verify_inclusion`; `none` is its `return False`. -/
def inclusionLoop (fn sn : Nat) (h : Json) : List Json → Py (Option (Nat × Json))
  | [] => return some (sn, h)
  | item :: rest => do
    let (side, sib) ← unpackPair item
    if sn = 0 then return none
    else if side = .str "L" then
      if fn % 2 = 1 ∨ fn = sn then
        let h ← node crypto sib h
        let shifted := skipEven fn sn
        inclusionLoop (shifted.1 / 2) (shifted.2 / 2) h rest
      else return none
    else if fn % 2 = 1 ∨ fn = sn then return none
    else do
      let h ← node crypto h sib
      inclusionLoop (fn / 2) (sn / 2) h rest

def inclusionEnd (root : Json) : Option (Nat × Json) → Py Bool
  | none => return false
  | some (sn, h) => if sn = 0 then hmacEqual h root else return false

def mthVerifyInclusion (leafBytes : Bytes) (index n : Int) (proof root : Json) : Py Bool :=
  if ¬(0 ≤ index ∧ index < n) then return false
  else do
    let path ← pyList proof
    inclusionEnd root (← inclusionLoop crypto index.toNat (n - 1).toNat (.str (leaf crypto leafBytes)) path)

def sideText (left : Bool) : Str := if left then "L" else "R"

def stepJson (step : Bool × Bytes) : Json := sided (sideText step.1) (hexJson step.2)

private theorem size_leafTrees (leaves : List Bytes) : (leafTrees leaves).length = leaves.length := by
  simp [leafTrees]

theorem mthInclusionFrom_eq (leaves : List Bytes) (index : Nat) :
    mthInclusionFrom crypto leaves index = .ok ((sidedPath (leafTrees leaves) index).map
      (fun step => stepJson (step.1, digest crypto.H step.2))) := by
  induction size : leaves.length using Nat.strong_induction_on generalizing leaves index with
  | _ size' ih =>
    subst size
    rw [mthInclusionFrom]
    by_cases small : leaves.length < 2
    · rw [dif_pos small, sidedPath_small (by rwa [size_leafTrees])]
      rfl
    · have lower := @split_pos leaves.length (by omega)
      have upper := @split_lt leaves.length (by omega)
      rw [dif_neg small]
      rcases Nat.lt_or_ge index (split leaves.length) with left | right
      · have front := ih _ (by rw [List.length_take]; omega) (leaves.take (split leaves.length)) index rfl
        rw [sidedPath_left (by rw [size_leafTrees]; omega) (by rwa [size_leafTrees]), size_leafTrees]
        simp only [if_pos left, front, mthRoot_eq, bind, Except.bind, pure, Except.pure, treeHead, leafTrees,
          List.map_append, List.map_take, List.map_drop, List.map_singleton, stepJson, sideText]
        rfl
      · have front := ih _ (by rw [List.length_drop]; omega) (leaves.drop (split leaves.length))
          (index - split leaves.length) rfl
        rw [sidedPath_right (by rw [size_leafTrees]; omega) (by rwa [size_leafTrees]), size_leafTrees]
        simp only [if_neg (Nat.not_lt.mpr right), front, mthRoot_eq, bind, Except.bind, pure, Except.pure, treeHead,
          leafTrees, List.map_append, List.map_take, List.map_drop, List.map_singleton, stepJson, sideText]
        rfl

theorem inclusionLoop_hex (fn sn : Nat) (h : Bytes) (path : List (Bool × Bytes)) :
    inclusionLoop crypto fn sn (hexJson h) (path.map stepJson) =
      .ok ((ascend crypto.H fn sn h path).map (fun state => (state.1, hexJson state.2))) := by
  induction path generalizing fn sn h with
  | nil => rfl
  | cons step rest ih =>
    obtain ⟨left, c⟩ := step
    have unpacked : unpackPair (stepJson (left, c)) = .ok (.str (sideText left), hexJson c) := rfl
    simp only [List.map_cons, inclusionLoop, ascend, unpacked, bind, Except.bind]
    by_cases ended : sn = 0
    · simp only [ended, if_true]
      rfl
    · cases left with
      | true =>
        have side : Json.str (sideText true) = .str "L" := rfl
        simp only [ended, if_false, side, if_true]
        split
        · rw [node_hex]
          exact ih ..
        · rfl
      | false =>
        have side : Json.str (sideText false) ≠ .str "L" := by decide
        simp only [ended, if_false, side, Bool.false_eq_true]
        split
        · rfl
        · rw [node_hex]
          exact ih ..

theorem mthVerifyInclusion_complete {leaves : List Bytes} {index : Nat} (inside : index < leaves.length) :
    ∃ proof : List Json, mthInclusion crypto leaves index = .ok proof ∧
      mthVerifyInclusion crypto leaves[index] index leaves.length (.arr proof) (hexJson (treeHead crypto leaves)) =
        .ok true := by
  have bounds : (0 : Int) ≤ index ∧ (index : Int) < leaves.length := by omega
  have counter : ((leaves.length : Int) - 1).toNat = leaves.length - 1 := by omega
  have size : (leafTrees leaves).length = leaves.length - 1 + 1 := by
    rw [size_leafTrees]
    omega
  have start : Json.str (leaf crypto leaves[index]) = hexJson (digestAt crypto.H (leafTrees leaves) index) := by
    simp [digestAt, leafTrees, digest, leafInput, leaf, hexJson, H_hex, inside]
  have run := @ascend_complete crypto.H (leafTrees leaves) index (leaves.length - 1) size (by omega)
  have walked := inclusionLoop_hex crypto index (leaves.length - 1) (digestAt crypto.H (leafTrees leaves) index)
    ((sidedPath (leafTrees leaves) index).map (fun step => (step.1, digest crypto.H step.2)))
  rw [run, List.map_map] at walked
  refine ⟨_, by rw [mthInclusion, if_pos bounds, Int.toNat_natCast, mthInclusionFrom_eq], ?_⟩
  simp only [mthVerifyInclusion, bounds, and_self, not_true_eq_false, if_false, pyList, counter, start,
    Int.toNat_natCast, bind, Except.bind, pure, Except.pure]
  rw [show (sidedPath (leafTrees leaves) index).map (fun step => stepJson (step.1, digest crypto.H step.2)) =
    (sidedPath (leafTrees leaves) index).map (stepJson ∘ fun step => (step.1, digest crypto.H step.2)) from rfl, walked]
  simp [inclusionEnd, hmacEqual_hex, treeHead]

/-- What one element says: its side, and the bytes its sibling decodes to. -/
def decodedStep (item : Json) : Bool × Bytes :=
  match unpackPair item with
  | .ok (side, sib) => (decide (side = .str "L"), decoded sib)
  | .error _ => (false, [])

/-- Every byte string hashed by the tree head and by the verification of `proof`. -/
def inclusionInputs (leaves : List Bytes) (x : Bytes) (index : Nat) (proof : List Json) : List Bytes :=
  inputs crypto.H (join (leafTrees leaves)) ++ leafInput x ::
    ascendInputs crypto.H index (leaves.length - 1) (crypto.H (leafInput x)) (proof.map decodedStep)

theorem inclusionLoop_decoded {fn sn k : Nat} {h : Json} {path : List Json} {root : Bytes}
    (run : inclusionLoop crypto fn sn h path = .ok (some (k, hexJson root))) :
    ascend crypto.H fn sn (decoded h) (path.map decodedStep) = some (k, root) := by
  induction path generalizing fn sn h with
  | nil =>
    simp only [inclusionLoop, pure, Except.pure, Except.ok.injEq, Option.some.injEq, Prod.mk.injEq] at run
    obtain ⟨rfl, rfl⟩ := run
    simp [ascend, decoded_hexJson]
  | cons item rest ih =>
    rw [inclusionLoop] at run
    obtain ⟨⟨side, sib⟩, unpacked, walked⟩ := Py.bind_ok.mp run
    have step : decodedStep item = (decide (side = .str "L"), decoded sib) := by
      simp only [decodedStep, unpacked]
    rw [List.map_cons, step]
    by_cases ended : sn = 0
    · simp [ended, pure, Except.pure] at walked
    · by_cases left : side = .str "L"
      · by_cases fits : fn % 2 = 1 ∨ fn = sn
        · simp only [ended, left, fits, if_false, if_true] at walked
          obtain ⟨above, made, climbed⟩ := Py.bind_ok.mp walked
          have reached := ih climbed
          rw [node_ok crypto made, decoded_hexJson] at reached
          simp only [ascend, ended, left, fits, if_false, if_true, decide_true]
          exact reached
        · simp [ended, left, fits, pure, Except.pure] at walked
      · by_cases fits : fn % 2 = 1 ∨ fn = sn
        · simp [ended, left, fits, pure, Except.pure] at walked
        · simp only [ended, left, fits, if_false] at walked
          obtain ⟨above, made, climbed⟩ := Py.bind_ok.mp walked
          have reached := ih climbed
          rw [node_ok crypto made, decoded_hexJson] at reached
          simp only [ascend, ended, left, fits, if_false, decide_false, Bool.false_eq_true]
          exact reached

theorem inclusionEnd_true {root : Json} {state : Option (Nat × Json)} (accepted : inclusionEnd root state = .ok true) :
    state = some (0, root) := by
  match state with
  | none => cases accepted
  | some (sn, h) =>
    simp only [inclusionEnd] at accepted
    split at accepted
    · rename_i zero
      rw [zero, hmacEqual_true accepted]
    · cases accepted

/-- An accepted path shows the leaf itself, unless two of the inputs it hashes share a digest. -/
theorem mthVerifyInclusion_leaf {leaves : List Bytes} {index : Nat} (inside : index < leaves.length) {x : Bytes}
    {proof : List Json} (apart : Set.InjOn crypto.H {b | b ∈ inclusionInputs crypto leaves x index proof})
    (accepted : mthVerifyInclusion crypto x index leaves.length (.arr proof) (hexJson (treeHead crypto leaves)) =
      .ok true) : x = leaves[index] := by
  have bounds : (0 : Int) ≤ index ∧ (index : Int) < leaves.length := by omega
  have counter : ((leaves.length : Int) - 1).toNat = leaves.length - 1 := by omega
  have start : Json.str (leaf crypto x) = hexJson (crypto.H (leafInput x)) := by
    simp [leafInput, leaf, hexJson, H_hex]
  simp only [mthVerifyInclusion, bounds, and_self, not_true_eq_false, if_false, pyList, counter, start,
    Int.toNat_natCast] at accepted
  obtain ⟨path, listed, walked⟩ := Py.bind_ok.mp accepted
  cases listed
  obtain ⟨state, run, closed⟩ := Py.bind_ok.mp walked
  rw [inclusionEnd_true closed] at run
  have climbed := inclusionLoop_decoded crypto run
  rw [decoded_hexJson] at climbed
  have treeKnown : ∀ b ∈ inputs crypto.H (join (leafTrees leaves)), b ∈ inclusionInputs crypto leaves x index proof :=
    fun b member => List.mem_append_left _ member
  have pathKnown : ∀ b ∈ ascendInputs crypto.H index (leaves.length - 1) (crypto.H (leafInput x)) (proof.map decodedStep),
      b ∈ inclusionInputs crypto leaves x index proof :=
    fun b member => List.mem_append_right _ (List.mem_cons_of_mem _ member)
  have size : (leafTrees leaves).length = leaves.length - 1 + 1 := by
    rw [size_leafTrees]
    omega
  have same := ascend_sound apart crypto.length_H size (by omega) (crypto.length_H _) treeKnown pathKnown climbed
  simp only [digestAt, leafTrees, List.getD_eq_getElem?_getD, List.getElem?_map, List.getElem?_eq_getElem inside,
    Option.map_some, Option.getD_some, digest] at same
  have own : leafInput x ∈ inclusionInputs crypto leaves x index proof :=
    List.mem_append_right _ List.mem_cons_self
  have kept : leafInput leaves[index] ∈ inclusionInputs crypto leaves x index proof :=
    treeKnown _ (inputs_join crypto.H (List.mem_map_of_mem (List.getElem_mem inside)) _ (by simp [inputs]))
  simpa [leafInput] using apart own kept same

/-- Inclusion proofs are complete and sound: the made path is accepted, and an accepted path shows
the leaf at that position or a collision of `H_hex`. -/
theorem mthVerifyInclusion_iff (leaves : List Bytes) (index : Nat) (inside : index < leaves.length) :
    (do
      let root ← mthRoot crypto leaves
      let proof ← mthInclusion crypto leaves index
      mthVerifyInclusion crypto leaves[index] index leaves.length (.arr proof) root) = .ok true ∧
    ∀ (x : Bytes) (proof : List Json),
      (do
        let root ← mthRoot crypto leaves
        mthVerifyInclusion crypto x index leaves.length (.arr proof) root) = .ok true →
      x = leaves[index] ∨
        ∃ a ∈ inclusionInputs crypto leaves x index proof, ∃ b ∈ inclusionInputs crypto leaves x index proof,
          a ≠ b ∧ H_hex crypto a = H_hex crypto b := by
  constructor
  · obtain ⟨proof, made, accepted⟩ := mthVerifyInclusion_complete crypto inside
    simp only [mthRoot_eq, made, bind, Except.bind]
    exact accepted
  · intro x proof accepted
    simp only [mthRoot_eq, bind, Except.bind] at accepted
    by_cases apart : Set.InjOn crypto.H {b | b ∈ inclusionInputs crypto leaves x index proof}
    · exact .inl (mthVerifyInclusion_leaf crypto inside apart accepted)
    · right
      simp only [Set.InjOn, Set.mem_ofPred_eq, not_forall] at apart
      obtain ⟨a, ha, b, hb, same, different⟩ := apart
      exact ⟨a, ha, b, hb, different, congrArg toHex same⟩

theorem mthVerifyInclusion_iff_sample :
    (do
      let root ← mthRoot Crypto.sample [[1], [2], [3]]
      let proof ← mthInclusion Crypto.sample [[1], [2], [3]] (2 : Nat)
      mthVerifyInclusion Crypto.sample [3] (2 : Nat) 3 (.arr proof) root) = .ok true :=
  (mthVerifyInclusion_iff Crypto.sample [[1], [2], [3]] 2 (by decide)).1

def wholeBelow (n : Json) : Option Int :=
  match asInt? n, n with
  | some size, _ => some (size - 1)
  | none, .float value => (value.toInt?.bind (fun size => PyFloat.ofInt (size - 1))).bind PyFloat.toInt?
  | none, _ => none

/-- The loop of `mth_verify_inclusion` when the index or the size is a float: its first turn ends
with an answer, or at an operator that floats do not have. -/
def floatLoop (index n h : Json) : List Json → Py (Option (Nat × Json))
  | [] => return if Json.pyEq n (.int 1) then some (0, h) else none
  | item :: _ => do
    let (side, sib) ← unpackPair item
    if Json.pyEq n (.int 1) then return none
    else
      match asInt? index with
      | none => raise .typeError
      | some fn =>
        if side = .str "L" then
          if fn % 2 = 1 ∨ some fn = wholeBelow n then do
            let _ ← node crypto sib h
            raise .typeError
          else return none
        else if fn % 2 = 1 ∨ some fn = wholeBelow n then return none
        else do
          let _ ← node crypto h sib
          raise .typeError

/-- `mth_verify_inclusion` on values of any type. -/
def mthVerifyInclusionOf (leafBytes : Bytes) (index n proof root : Json) : Py Bool := do
  if !(← atLeastNat index 0) then return false
  if !(← pyLess index n) then return false
  match asInt? index, asInt? n with
  | some i, some size => mthVerifyInclusion crypto leafBytes i size proof root
  | _, _ => do
    let path ← pyList proof
    inclusionEnd root (← floatLoop crypto index n (.str (leaf crypto leafBytes)) path)

/-- A value strictly between two neighbouring positions, the first two. -/
def Fraction (index : Json) : Prop := natLess 0 index = .ok true ∧ pyLess index (.int 1) = .ok true

theorem float_one {value : PyFloat} (whole : value.toInt? = some 1) : value = .finite (.ofDigits false 1 0) := by
  cases value with
  | nan => cases whole
  | infinity negative => cases whole
  | finite d =>
    obtain ⟨negative, digits, exponent, reduced⟩ := d
    simp only [PyFloat.toInt?] at whole
    split at whole
    · rename_i nonneg
      have number := Option.some.inj whole
      have size : round53 (digits * 10 ^ exponent.toNat) = 1 ∧ negative = false := by
        cases negative with
        | true =>
          simp only [if_true] at number
          omega
        | false =>
          simp only [Bool.false_eq_true, if_false] at number
          exact ⟨by omega, rfl⟩
      obtain ⟨rounded, rfl⟩ := size
      have one : digits * 10 ^ exponent.toNat = 1 := by
        generalize digits * 10 ^ exponent.toNat = value at rounded
        have positive : value ≠ 0 := by
          rintro rfl
          revert rounded
          decide
        have half := half_round53 positive
        have notTwo : value ≠ 2 := by
          rintro rfl
          revert rounded
          decide
        omega
      have digit : digits = 1 := Nat.eq_one_of_mul_eq_one_right one
      have power : exponent.toNat = 0 := by
        by_contra positive
        have unit : 10 ^ exponent.toNat = 1 := Nat.eq_one_of_mul_eq_one_left one
        exact absurd ((Nat.pow_eq_one.mp unit).resolve_left (by decide)) positive
      have zero : exponent = 0 := by omega
      subst digit zero
      rfl
    · cases whole

theorem below_one {n : Int} {x : PyFloat} (made : PyFloat.ofInt n = some x)
    (less : x.less (.finite (.ofDigits false 1 0)) = true) : n < 1 := by
  by_contra positive
  have sign : decide (n < 0) = false := decide_eq_false (by omega)
  unfold PyFloat.ofInt at made
  split at made
  · obtain rfl := Option.some.inj made
    have bounds := (Decimal.ofDigits_less n.natAbs 1 (decide (n < 0))).1
    rw [sign] at bounds less
    simp only [PyFloat.less, bounds, decide_eq_true_eq, Bool.false_eq_true, if_false] at less
    omega
  · rename_i large
    simp only at made
    split at made
    · obtain rfl := Option.some.inj made
      have half := half_round53 (n := n.natAbs) (by omega)
      have digits := half_shortest (round53 n.natAbs) (by omega)
      have bounds := (Decimal.ofDigits_less (shortest (round53 n.natAbs)) 1 (decide (n < 0))).1
      rw [sign] at bounds less
      simp only [PyFloat.less, bounds, decide_eq_true_eq, Bool.false_eq_true, if_false] at less
      omega
    · cases made

theorem pyLess_one {index n : Json} {positive : Bool} (one : Json.pyEq n (.int 1))
    (number : natLess 0 index = .ok positive) (less : pyLess index n = .ok true) :
    pyLess index (.int 1) = .ok true := by
  cases n with
  | int value =>
    obtain rfl := Json.int.inj one
    exact less
  | bool value =>
    cases value with
    | true =>
      cases index with
      | float x => exact less
      | int i => exact less
      | bool b => exact less
      | _ => cases number
    | false => cases Json.int.inj one
  | float value =>
    have whole : value.toInt? = some 1 := by
      simp only [Json.pyEq, Json.comparisonKey] at one
      split at one
      · rename_i found
        rw [found, Json.int.inj one]
      · cases one
    obtain rfl := float_one whole
    cases index with
    | float x => exact less
    | int i =>
      simp only [pyLess, asInt?, pure, Except.pure, Except.ok.injEq, Option.any_eq_true] at less
      obtain ⟨x, made, below⟩ := less
      have small := below_one made below
      simp [pyLess, asInt?, pure, Except.pure, small]
    | bool b =>
      simp only [pyLess, asInt?, pure, Except.pure, Except.ok.injEq, Option.any_eq_true] at less
      obtain ⟨x, made, below⟩ := less
      have small := below_one made below
      simp only [pyLess, asInt?, pure, Except.pure, decide_eq_true small]
    | _ => cases number
  | _ => cases one

theorem asInt_of_pyEq {n : Json} {size m : Int} (same : Json.pyEq (.int size) n) (number : asInt? n = some m) :
    m = size := by
  cases n with
  | int value =>
    obtain rfl := Option.some.inj number
    exact (Json.int.inj same).symm
  | bool value =>
    obtain rfl := Option.some.inj number
    cases value <;> exact (Json.int.inj same).symm
  | _ => cases number

theorem pyEq_of_asInt {index : Json} {i : Int} (number : asInt? index = some i) : Json.pyEq index (.int i) := by
  cases index with
  | int value =>
    obtain rfl := Option.some.inj number
    rfl
  | bool value =>
    obtain rfl := Option.some.inj number
    cases value <;> rfl
  | _ => cases number

theorem floatLoop_end {index n h root : Json} {path : List Json}
    (run : floatLoop crypto index n h path = .ok (some (0, root))) :
    path = [] ∧ Json.pyEq n (.int 1) ∧ h = root := by
  cases path with
  | nil =>
    by_cases one : Json.pyEq n (.int 1)
    · simp only [floatLoop, one, if_true, pure, Except.pure, Except.ok.injEq, Option.some.injEq, Prod.mk.injEq,
        true_and] at run
      exact ⟨rfl, one, run⟩
    · simp [floatLoop, one, pure, Except.pure] at run
  | cons item rest =>
    rw [floatLoop] at run
    obtain ⟨⟨side, sib⟩, _, run⟩ := Py.bind_ok.mp run
    by_cases one : Json.pyEq n (.int 1)
    · simp [one, pure, Except.pure] at run
    · cases number : asInt? index with
      | none => simp [one, number, raise] at run
      | some fn =>
        simp only [one, if_false, number] at run
        split at run <;> split at run
        · obtain ⟨_, _, failed⟩ := Py.bind_ok.mp run
          cases failed
        · cases run
        · cases run
        · obtain ⟨_, _, failed⟩ := Py.bind_ok.mp run
          cases failed

/-- A path accepted at a value that is no fraction is accepted at a position of the tree. -/
theorem mthVerifyInclusionOf_true {index n proof root : Json} {x : Bytes} {size : Nat} (whole : ¬Fraction index)
    (counted : Json.pyEq (.int size) n) (accepted : mthVerifyInclusionOf crypto x index n proof root = .ok true) :
    ∃ (place : Nat) (items : List Json), Json.pyEq index (.int place) ∧ place < size ∧ pyList proof = .ok items ∧
      mthVerifyInclusion crypto x place size (.arr items) root = .ok true := by
  simp only [mthVerifyInclusionOf, atLeastNat, bind, Py.bind_ok, pure, Except.pure, Except.ok.injEq] at accepted
  obtain ⟨lower, ⟨positive, above, rfl⟩, accepted⟩ := accepted
  split at accepted
  · cases accepted
  rename_i lowerHolds
  obtain ⟨inside, below, accepted⟩ := Py.bind_ok.mp accepted
  split at accepted
  · cases accepted
  rename_i insideHolds
  rw [Bool.not_eq_true', Bool.not_eq_false] at lowerHolds insideHolds
  subst insideHolds
  split at accepted
  · rename_i i m first second
    obtain rfl := asInt_of_pyEq counted second
    have bounds : 0 ≤ i ∧ i < (size : Int) := by
      by_contra outside
      simp [mthVerifyInclusion, outside, pure, Except.pure] at accepted
    obtain ⟨place, rfl⟩ := Int.eq_ofNat_of_zero_le bounds.1
    have listed := accepted
    simp only [mthVerifyInclusion, bounds, and_self, not_true_eq_false, if_false] at listed
    obtain ⟨items, list, _⟩ := Py.bind_ok.mp listed
    refine ⟨place, items, pyEq_of_asInt first, by omega, list, ?_⟩
    simp only [mthVerifyInclusion] at accepted ⊢
    rw [list] at accepted
    exact accepted
  · obtain ⟨path, list, walked⟩ := Py.bind_ok.mp accepted
    obtain ⟨state, run, closed⟩ := Py.bind_ok.mp walked
    rw [inclusionEnd_true closed] at run
    obtain ⟨rfl, one, rfl⟩ := floatLoop_end crypto run
    have single : size = 1 := by
      have same : ((size : Nat) : Int) = 1 := Json.int.inj (counted.trans one)
      omega
    subst single
    have zero : Json.pyEq index (.int 0) := by
      by_contra different
      simp only [different, decide_false, Bool.or_false, Nat.cast_zero] at lowerHolds
      rw [lowerHolds] at above
      exact whole ⟨above, pyLess_one one above below⟩
    refine ⟨0, [], zero, Nat.one_pos, list, ?_⟩
    have final : hmacEqual (.str (leaf crypto x)) (.str (leaf crypto x)) = .ok true := by
      rw [inclusionEnd_true closed] at closed
      exact closed
    simp [mthVerifyInclusion, pyList, inclusionLoop, inclusionEnd, final, bind, Except.bind, pure, Except.pure]

theorem Fraction.float {index : Json} (fraction : Fraction index) : ∃ x, index = .float x := by
  obtain ⟨positive, below⟩ := fraction
  cases index with
  | float x => exact ⟨x, rfl⟩
  | int i =>
    have lower := of_decide_eq_true (Except.ok.inj positive)
    have upper := of_decide_eq_true (Except.ok.inj below)
    simp only [Nat.cast_zero] at lower
    omega
  | bool b =>
    cases b with
    | true => exact absurd (Except.ok.inj below) (by decide)
    | false => exact absurd (Except.ok.inj positive) (by decide)
  | _ => cases positive

theorem Fraction.not_whole {index : Json} (fraction : Fraction index) (n : Int) : ¬Json.pyEq index (.int n) := by
  intro same
  obtain ⟨x, rfl⟩ := fraction.float
  obtain ⟨positive, below⟩ := fraction
  have whole : x.toInt? = some n := by
    simp only [Json.pyEq, Json.comparisonKey] at same
    split at same
    · rename_i found
      rw [found, Json.int.inj same]
    · cases same
  cases x with
  | nan => cases whole
  | infinity negative => cases whole
  | finite d =>
    simp only [natLess, whole, pure, Except.pure, Except.ok.injEq, decide_eq_true_eq, Nat.cast_zero] at positive
    have one : PyFloat.ofInt 1 = some (.finite (.ofDigits false 1 0)) := rfl
    simp only [pyLess, asInt?, one, Option.any_some, PyFloat.less, pure, Except.pure, Except.ok.injEq] at below
    simp only [PyFloat.toInt?] at whole
    split at whole
    · rename_i nonneg
      obtain ⟨exponent, scaled⟩ := Decimal.ofDigits_scaled false 1
      rw [Decimal.less_whole nonneg exponent, scaled, decide_eq_true_eq] at below
      have number := Option.some.inj whole
      simp only [Decimal.scaled, sub_zero] at below
      cases sign : d.negative with
      | true =>
        rw [sign, if_pos rfl] at number
        omega
      | false =>
        rw [sign, if_neg Bool.false_ne_true] at number below
        have zero : d.digits * 10 ^ d.exponent.toNat = 0 := by
          have small : ((d.digits * 10 ^ d.exponent.toNat : Nat) : Int) < 1 := by
            push_cast
            simpa using below
          omega
        rw [zero] at number
        have none_left : round53 0 = 0 := by decide
        rw [none_left] at number
        omega
    · cases whole

theorem mthVerifyInclusionOf_fraction {index : Json} (fraction : Fraction index) (x : Bytes) :
    mthVerifyInclusionOf crypto x index (.int 1) (.arr []) (hexJson (treeHead crypto [x])) = .ok true := by
  obtain ⟨value, rfl⟩ := fraction.float
  have lower : atLeastNat (.float value) 0 = .ok true := by
    simp only [atLeastNat, fraction.1, bind, Except.bind, Bool.true_or]
    rfl
  have head : hexJson (treeHead crypto [x]) = .str (leaf crypto x) := by
    simp [treeHead, leafTrees, digest, leafInput, leaf, hexJson, H_hex]
  have same : hmacEqual (.str (leaf crypto x)) (.str (leaf crypto x)) = .ok true := by
    rw [← head, hmacEqual_hex]
    simp
  simp [mthVerifyInclusionOf, lower, fraction.2, asInt?, pyList, floatLoop, inclusionEnd, head, same, bind, Except.bind,
    pure, Except.pure]

end JJDai.Merkle
