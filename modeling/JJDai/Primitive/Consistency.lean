import JJDai.Primitive.Merkle

/-! Consistency proofs link a tree head to its prefixes: an honest proof is
accepted, and no proof at all makes another history pass as an extension. -/

namespace JJDai.Merkle

open PyText
open HashTree hiding Bytes

variable (crypto : Crypto)

def hexJson (bytes : Bytes) : Json := .str (toHex bytes)

def leafTrees (leaves : List Bytes) : List Tree := leaves.map .leaf

/-- The tree head as a digest of the split tree over the leaves. -/
def treeHead (leaves : List Bytes) : Bytes := digest crypto.H (join (leafTrees leaves))

theorem node_hex (l r : Bytes) :
    node crypto (hexJson l) (hexJson r) = .ok (hexJson (crypto.H (nodeInput l r))) := by
  simp [node, hexJson, bytesFromHex_toHex, nodeInput, H_hex, bind, Except.bind, pure, Except.pure]

private theorem length_leafTrees (leaves : List Bytes) :
    (leafTrees leaves).length = leaves.length := by
  simp [leafTrees]

theorem treeHead_split {leaves : List Bytes} (large : 2 ≤ leaves.length) :
    treeHead crypto leaves = crypto.H (nodeInput
      (treeHead crypto (leaves.take (split leaves.length)))
      (treeHead crypto (leaves.drop (split leaves.length)))) := by
  rw [treeHead, join_split (by rwa [length_leafTrees]), digest, length_leafTrees]
  simp only [treeHead, leafTrees, List.map_take, List.map_drop]

theorem mthRoot_eq (leaves : List Bytes) :
    mthRoot crypto leaves = .ok (hexJson (treeHead crypto leaves)) := by
  induction size : leaves.length using Nat.strong_induction_on generalizing leaves with
  | _ size' ih =>
    subst size
    match leaves with
    | [] => rw [mthRoot]; simp [treeHead, leafTrees, digest, hexJson, H_hex]; rfl
    | [b] => rw [mthRoot]; simp [treeHead, leafTrees, digest, leafInput, leaf, hexJson, H_hex]; rfl
    | first :: second :: rest =>
      rw [mthRoot]
      generalize whole : first :: second :: rest = leaves at *
      have large : 2 ≤ leaves.length := by subst whole; simp
      have lower := split_pos large
      have upper := split_lt large
      have front := ih _ (by rw [List.length_take]; omega) (leaves.take (split leaves.length)) rfl
      have back := ih _ (by rw [List.length_drop]; omega) (leaves.drop (split leaves.length)) rfl
      simp only [front, back, bind, Except.bind, node_hex, treeHead_split crypto large]

theorem subproof_eq {m : Nat} {D : List Bytes} (complete : Bool) (positive : 0 < m)
    (le : m ≤ D.length) :
    subproof crypto m D complete =
      .ok ((HashTree.subproof m (leafTrees D) complete).map
        (fun tree => hexJson (digest crypto.H tree))) := by
  induction size : D.length using Nat.strong_induction_on generalizing m D complete with
  | _ size' ih =>
    subst size
    rw [subproof]
    rcases Nat.lt_or_eq_of_le le with proper | whole
    · have large : 2 ≤ D.length := by omega
      have lower := split_pos large
      have upper := split_lt large
      rw [if_neg (by omega), dif_neg (by omega)]
      rcases Nat.lt_or_ge (split D.length) m with right | left
      · have front := @ih (D.drop (split D.length)).length (by rw [List.length_drop]; omega)
          (m - split D.length) _ false (by omega) (by rw [List.length_drop]; omega) rfl
        rw [subproof_right (by rwa [length_leafTrees]) (by rwa [length_leafTrees])
          (by rwa [length_leafTrees]), length_leafTrees]
        simp only [if_neg (Nat.not_le.mpr right), front, mthRoot_eq, bind, Except.bind, pure,
          Except.pure, treeHead, leafTrees, List.map_append, List.map_take, List.map_drop,
          List.map_singleton]
      · have front := @ih (D.take (split D.length)).length (by rw [List.length_take]; omega)
          m _ complete positive (by rw [List.length_take]; omega) rfl
        rw [subproof_left (by rwa [length_leafTrees]) (by rwa [length_leafTrees]),
          length_leafTrees]
        simp only [if_pos left, front, mthRoot_eq, bind, Except.bind, pure,
          Except.pure, treeHead, leafTrees, List.map_append, List.map_take, List.map_drop,
          List.map_singleton]
    · subst whole
      have all := subproof_all (leafTrees D) complete
      rw [length_leafTrees] at all
      rw [if_pos rfl, all]
      cases complete <;>
        simp [mthRoot_eq, treeHead, bind, Except.bind, pure, Except.pure]

theorem verifyLoop_hex (fn sn : Nat) (fr sr : Bytes) (path : List Bytes) :
    verifyLoop crypto fn sn (hexJson fr) (hexJson sr) (path.map hexJson) =
      .ok ((HashTree.climb crypto.H fn sn fr sr path).map
        (fun state => (state.1, hexJson state.2.1, hexJson state.2.2))) := by
  induction path generalizing fn sn fr sr with
  | nil => rfl
  | cons c rest ih =>
    simp only [List.map_cons, verifyLoop, HashTree.climb]
    split
    · rfl
    · split
      · simp only [node_hex, bind, Except.bind]
        exact ih ..
      · simp only [node_hex, bind, Except.bind]
        exact ih ..

theorem hmacEqual_hex (a b : Bytes) :
    hmacEqual (hexJson a) (hexJson b) = .ok (decide (toHex a = toHex b)) := by
  simp [hmacEqual, hexJson, isAscii_toHex, pure, Except.pure]

private theorem hexJson_map (digests : List Bytes) :
    digests.map hexJson = (digests.map toHex).map Json.str := by
  simp [hexJson]

theorem verifyConsistency_walk {m n : Nat} (positive : 0 < m) (proper : m < n)
    (rootM rootN : Json) (proof : List Json) :
    verifyConsistency crypto m n rootM rootN (.arr proof) =
      match (if isPow2 m then rootM :: proof else proof) with
      | [] => .ok false
      | first :: rest => (verifyLoop crypto (skipOdd (m - 1) (n - 1)).1
          (skipOdd (m - 1) (n - 1)).2 first first rest).bind (verifyEnd rootM rootN) := by
  have different : (m : Int) ≠ n := by omega
  have inside : (0 : Int) < m ∧ (m : Int) < n := by omega
  have fn : ((m : Int) - 1).toNat = m - 1 := by omega
  have sn : ((n : Int) - 1).toNat = n - 1 := by omega
  simp only [verifyConsistency, different, if_false, inside, not_true_eq_false, and_self, pyList,
    Int.toNat_natCast, bind, Except.bind, fn, sn]
  rfl

theorem verifyConsistency_complete {leaves : List Bytes} {m : Nat} (positive : 0 < m)
    (le : m ≤ leaves.length) :
    ∃ proof : List Str, consistencyProof crypto leaves m = .ok (proof.map .str) ∧
      verifyConsistency crypto m leaves.length (hexJson (treeHead crypto (leaves.take m)))
        (hexJson (treeHead crypto leaves)) (.arr (proof.map .str)) = .ok true := by
  have inside : (0 : Int) < m ∧ (m : Int) ≤ leaves.length := by omega
  rcases Nat.lt_or_eq_of_le le with proper | rfl
  · have different : (m : Int) ≠ leaves.length := by omega
    have made := subproof_eq crypto true positive le
    obtain ⟨first, rest, start, run⟩ := @climb_start_complete crypto.H
      (leafTrees (leaves.take m)) (leafTrees leaves) (m - 1) (leaves.length - 1)
      (by rw [length_leafTrees, List.length_take]; omega) (by rw [length_leafTrees]; omega) (by omega)
      (by
        intro i small
        simp only [digestAt, leafTrees, List.map_take, List.getD_eq_getElem?_getD,
          List.getElem?_take, show i < m by omega, if_true])
    rw [show m - 1 + 1 = m by omega, startPath] at start
    refine ⟨((HashTree.subproof m (leafTrees leaves) true).map (digest crypto.H)).map toHex, ?_, ?_⟩
    · rw [consistencyProof, if_pos inside, if_neg different, Int.toNat_natCast, made, ← hexJson_map,
        List.map_map]
      rfl
    · have shape : (if isPow2 m then hexJson (treeHead crypto (leaves.take m)) ::
            ((HashTree.subproof m (leafTrees leaves) true).map (digest crypto.H)).map hexJson
          else ((HashTree.subproof m (leafTrees leaves) true).map (digest crypto.H)).map hexJson) =
          hexJson first :: rest.map hexJson := by
        have mapped := congrArg (List.map hexJson) start
        rw [List.map_cons] at mapped
        rw [← mapped]
        split <;> rfl
      rw [← hexJson_map, verifyConsistency_walk crypto positive proper, shape]
      simp [verifyLoop_hex, run, Except.bind, bind, verifyEnd, hmacEqual_hex, treeHead]
  · refine ⟨[], ?_, ?_⟩
    · rw [consistencyProof, if_pos inside, if_pos rfl]; rfl
    · simp [verifyConsistency, truthy, hmacEqual_hex]

/-- The proof that the code makes for a pair of prefixes is the one its verifier accepts. -/
theorem consistencyProof_accepted (leaves : List Bytes) (m : Int) (positive : 0 < m) (le : m ≤ leaves.length) :
    (do
      let rootM ← mthRoot crypto (leaves.take m.toNat)
      let rootN ← mthRoot crypto leaves
      let proof ← consistencyProof crypto leaves m
      verifyConsistency crypto m leaves.length rootM rootN (.arr proof)) = .ok true := by
  obtain ⟨size, rfl⟩ := Int.eq_ofNat_of_zero_le positive.le
  obtain ⟨proof, made, accepted⟩ := @verifyConsistency_complete crypto leaves size (by omega) (by omega)
  simp only [mthRoot_eq, made, Int.toNat_natCast, bind, Except.bind]
  exact accepted

theorem consistencyProof_accepted_sample :
    (do
      let rootM ← mthRoot Crypto.sample [[1], [2], [3]]
      let rootN ← mthRoot Crypto.sample [[1], [2], [3], [4], [5]]
      let proof ← consistencyProof Crypto.sample [[1], [2], [3], [4], [5]] 3
      verifyConsistency Crypto.sample 3 5 rootM rootN (.arr proof)) = .ok true :=
  consistencyProof_accepted Crypto.sample [[1], [2], [3], [4], [5]] 3 (by decide) (by decide)

/-- What `bytes.fromhex` reads, nothing when it raises. -/
def decoded (j : Json) : Bytes :=
  match bytesFromHex j with
  | .ok bytes => bytes
  | .error _ => []

/-- Every byte string hashed by the two tree heads and by the verification of `proof`. -/
def hashedInputs (A B : List Bytes) (proof : List Json) : List Bytes :=
  let path := if isPow2 A.length then hexJson (treeHead crypto A) :: proof else proof
  let start := skipOdd (A.length - 1) (B.length - 1)
  inputs crypto.H (join (leafTrees A)) ++ inputs crypto.H (join (leafTrees B)) ++
    match path with
    | [] => []
    | first :: rest => climbInputs crypto.H start.1 start.2 (decoded first) (decoded first)
        (rest.map decoded)

theorem node_ok {l r result : Json} (made : node crypto l r = .ok result) :
    result = hexJson (crypto.H (nodeInput (decoded l) (decoded r))) := by
  unfold node at made
  cases left : bytesFromHex l with
  | error e => simp [left, bind, Except.bind] at made
  | ok a =>
    cases right : bytesFromHex r with
    | error e => simp [left, right, bind, Except.bind] at made
    | ok b =>
      simp only [left, right, bind, Except.bind, pure, Except.pure, Except.ok.injEq] at made
      subst made
      simp [decoded, left, right, hexJson, H_hex, nodeInput]

theorem decoded_hexJson (bytes : Bytes) : decoded (hexJson bytes) = bytes := by
  simp [decoded, hexJson, bytesFromHex_toHex]

theorem verifyLoop_decoded {fn sn k : Nat} {fr sr : Json} {path : List Json} {F S : Bytes}
    (run : verifyLoop crypto fn sn fr sr path = .ok (some (k, hexJson F, hexJson S))) :
    HashTree.climb crypto.H fn sn (decoded fr) (decoded sr) (path.map decoded) = some (k, F, S) := by
  induction path generalizing fn sn fr sr with
  | nil =>
    simp only [verifyLoop, pure, Except.pure, Except.ok.injEq, Option.some.injEq,
      Prod.mk.injEq] at run
    obtain ⟨rfl, rfl, rfl⟩ := run
    simp [HashTree.climb, decoded_hexJson]
  | cons c rest ih =>
    simp only [List.map_cons, verifyLoop, HashTree.climb] at run ⊢
    split at run
    · cases run
    · rename_i more
      rw [if_neg more]
      split at run
      · rename_i side
        rw [if_pos side]
        cases left : node crypto c fr with
        | error e => simp [left, bind, Except.bind] at run
        | ok fr' =>
          cases right : node crypto c sr with
          | error e => simp [left, right, bind, Except.bind] at run
          | ok sr' =>
            simp only [left, right, bind, Except.bind] at run
            have climbed := ih run
            rw [node_ok crypto left, node_ok crypto right, decoded_hexJson, decoded_hexJson]
              at climbed
            exact climbed
      · rename_i side
        rw [if_neg side]
        cases right : node crypto sr c with
        | error e => simp [right, bind, Except.bind] at run
        | ok sr' =>
          simp only [right, bind, Except.bind] at run
          have climbed := ih run
          rw [node_ok crypto right, decoded_hexJson] at climbed
          exact climbed

theorem hmacEqual_true {a b : Json} (equal : hmacEqual a b = .ok true) : a = b := by
  unfold hmacEqual at equal
  split at equal
  · split at equal
    · simp only [pure, Except.pure, Except.ok.injEq, decide_eq_true_iff] at equal
      rw [equal]
    · cases equal
  · cases equal

theorem verifyEnd_true {rootM rootN : Json} {state : Option (Nat × Json × Json)}
    (accepted : verifyEnd rootM rootN state = .ok true) : state = some (0, rootM, rootN) := by
  match state with
  | none => cases accepted
  | some (sn, fr, sr) =>
    simp only [verifyEnd] at accepted
    split at accepted
    · rename_i zero
      cases equal : hmacEqual fr rootM with
      | error e => simp [equal, bind, Except.bind] at accepted
      | ok answer =>
        cases answer with
        | false => simp [equal, bind, Except.bind, pure, Except.pure] at accepted
        | true =>
          simp only [equal, bind, Except.bind, if_true] at accepted
          rw [zero, hmacEqual_true equal, hmacEqual_true accepted]
    · cases accepted

/-- A proof that links two tree heads links the histories, unless two of the
inputs it hashes share a digest. -/
theorem verifyConsistency_front {A B : List Bytes} {proof : List Json} (some_left : 0 < A.length)
    (le : A.length ≤ B.length)
    (apart : Set.InjOn crypto.H {b | b ∈ hashedInputs crypto A B proof})
    (accepted : verifyConsistency crypto A.length B.length (hexJson (treeHead crypto A))
      (hexJson (treeHead crypto B)) (.arr proof) = .ok true) : A = B.take A.length := by
  have sizeA := length_leafTrees A
  have sizeB := length_leafTrees B
  have knownA : ∀ b ∈ inputs crypto.H (join (leafTrees A)), b ∈ hashedInputs crypto A B proof :=
    fun b member => List.mem_append_left _ (List.mem_append_left _ member)
  have knownB : ∀ b ∈ inputs crypto.H (join (leafTrees B)), b ∈ hashedInputs crypto A B proof :=
    fun b member => List.mem_append_left _ (List.mem_append_right _ member)
  have agree : ∀ i < A.length,
      digestAt crypto.H (leafTrees A) i = digestAt crypto.H (leafTrees B) i := by
    rcases Nat.lt_or_eq_of_le le with proper | same
    · rw [verifyConsistency_walk crypto some_left proper] at accepted
      split at accepted
      · cases accepted
      · rename_i first rest path
        obtain ⟨state, run, closed⟩ := Py.bind_ok.mp accepted
        rw [verifyEnd_true closed] at run
        have climbed := verifyLoop_decoded crypto run
        have walked : ∀ b ∈ climbInputs crypto.H (skipOdd (A.length - 1) (B.length - 1)).1
            (skipOdd (A.length - 1) (B.length - 1)).2 (decoded first) (decoded first)
            (rest.map decoded), b ∈ hashedInputs crypto A B proof := by
          intro b member
          refine List.mem_append_right _ ?_
          simpa only [path] using member
        have pinned := climb_start_sound apart crypto.length_H (by omega) (by omega) (by omega)
          knownA knownB walked climbed
        exact fun i inside => pinned i (by omega)
    · have equal : treeHead crypto A = treeHead crypto B := by
        have reduced : verifyConsistency crypto A.length B.length (hexJson (treeHead crypto A))
            (hexJson (treeHead crypto B)) (.arr proof) = if truthy (.arr proof) then .ok false
              else hmacEqual (hexJson (treeHead crypto A)) (hexJson (treeHead crypto B)) := by
          simp only [verifyConsistency, same, if_true]
          rfl
        rw [reduced] at accepted
        split at accepted
        · cases accepted
        · have text := hmacEqual_true accepted
          exact toHex_injective (Json.str.inj text)
      exact fun i inside => root_sound apart crypto.length_H (by omega) knownA knownB equal i
        (by omega)
  apply List.ext_getElem
  · rw [List.length_take]; omega
  · intro i inA inB
    have inside : i < B.length := by omega
    have equal := agree i inA
    simp only [digestAt, leafTrees, List.getD_eq_getElem?_getD, List.getElem?_map,
      List.getElem?_eq_getElem inA, List.getElem?_eq_getElem inside, Option.map_some,
      Option.getD_some, digest] at equal
    have leafA : leafInput A[i] ∈ hashedInputs crypto A B proof :=
      knownA _ (inputs_join crypto.H (List.mem_map_of_mem (List.getElem_mem inA))
        _ (by simp [inputs]))
    have leafB : leafInput B[i] ∈ hashedInputs crypto A B proof :=
      knownB _ (inputs_join crypto.H (List.mem_map_of_mem (List.getElem_mem inside))
        _ (by simp [inputs]))
    rw [List.getElem_take]
    simpa [leafInput] using apart leafA leafB equal

/-- Consistency soundness: an accepted proof over the heads of `A` and `B` makes
`A` a prefix of `B`, or exhibits a collision of `H_hex`. -/
theorem verifyConsistency_sound (A B : List Bytes) (proof : List Str) (some_left : 0 < A.length)
    (le : A.length ≤ B.length)
    (accepted : (do
      let rootA ← mthRoot crypto A
      let rootB ← mthRoot crypto B
      verifyConsistency crypto A.length B.length rootA rootB (.arr (proof.map .str))) = .ok true) :
    A = B.take A.length ∨
      ∃ x ∈ hashedInputs crypto A B (proof.map .str), ∃ y ∈ hashedInputs crypto A B (proof.map .str),
        x ≠ y ∧ H_hex crypto x = H_hex crypto y := by
  simp only [mthRoot_eq, bind, Except.bind] at accepted
  by_cases apart : Set.InjOn crypto.H {b | b ∈ hashedInputs crypto A B (proof.map .str)}
  · exact .inl (verifyConsistency_front crypto some_left le apart accepted)
  · right
    simp only [Set.InjOn, Set.mem_ofPred_eq, not_forall] at apart
    obtain ⟨x, hx, y, hy, same, different⟩ := apart
    exact ⟨x, hx, y, hy, different, congrArg toHex same⟩

theorem verifyConsistency_sound_sample :
    ∃ proof : List Str, ([[1], [2]] : List Bytes) = List.take 2 [[1], [2], [3]] ∨
      ∃ x ∈ hashedInputs Crypto.sample [[1], [2]] [[1], [2], [3]] (proof.map .str),
        ∃ y ∈ hashedInputs Crypto.sample [[1], [2]] [[1], [2], [3]] (proof.map .str),
          x ≠ y ∧ H_hex Crypto.sample x = H_hex Crypto.sample y := by
  obtain ⟨proof, _, accepted⟩ := @verifyConsistency_complete Crypto.sample
    [[1], [2], [3]] 2 (by decide) (by decide)
  refine ⟨proof, verifyConsistency_sound Crypto.sample [[1], [2]] [[1], [2], [3]] proof
    (by decide) (by decide) ?_⟩
  simp only [mthRoot_eq, bind, Except.bind]
  exact accepted

end JJDai.Merkle
