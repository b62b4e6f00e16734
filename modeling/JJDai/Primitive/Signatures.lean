import JJDai.Primitive.PointBytes
import JJDai.Primitive.Sha512

/-! What a signing key signs and proves is accepted under its public key. -/

namespace JJDai.Ed25519

open PyText

theorem secretExpand_range (sha512 : Sha512) (seed : Bytes) :
    2 ^ 254 ≤ (secretExpand sha512 seed).1 ∧ (secretExpand sha512 seed).1 < 2 ^ 255 ∧
      (secretExpand sha512 seed).1 % 8 = 0 := by
  simp only [secretExpand]
  generalize fromBytes ((sha512.digest seed).take 32) = n
  have below : n &&& (2 ^ 254 - 8) < 2 ^ 254 := lt_of_le_of_lt Nat.and_le_right (by decide)
  have low : (n &&& (2 ^ 254 - 8)) % 8 = 0 := by
    have bits := @Nat.and_mod_two_pow n (2 ^ 254 - 8) 3
    rwa [show (2 ^ 254 - 8) % 2 ^ 3 = 0 from rfl, Nat.and_zero] at bits
  have sum : (n &&& (2 ^ 254 - 8)) ||| 2 ^ 254 = 2 ^ 254 + (n &&& (2 ^ 254 - 8)) := by
    have disjoint := Nat.shiftLeft_add_eq_or_of_lt below 1
    rw [Nat.shiftLeft_eq, one_mul] at disjoint
    rw [Nat.or_comm, disjoint]
  omega

theorem cofactor_smul {q : Curve} {n : Nat} (large : n % L ≠ 0) (base : q = n • basePoint) : 8 • q ≠ 0 := by
  rw [base, smul_smul, Ne, smul_base_eq_zero, ← Nat.dvd_iff_mod_eq_zero, prime_L.dvd_mul]
  rintro (divides | divides)
  · exact absurd (Nat.le_of_dvd (by decide) divides) (by decide)
  · exact large (Nat.dvd_iff_mod_eq_zero.mp divides)

/-- The clamped scalar is a multiple of eight and below eight times the order, which is odd, so it is no multiple of
the order. -/
theorem secretExpand_large (sha512 : Sha512) (seed : Bytes) : (secretExpand sha512 seed).1 % L ≠ 0 := by
  obtain ⟨least, below, low⟩ := secretExpand_range sha512 seed
  intro multiple
  obtain ⟨k, value⟩ := Nat.dvd_of_mod_eq_zero multiple
  rw [value] at least below low
  have odd : L % 8 = 5 := by decide
  have few : k < 8 := by
    by_contra many
    have most := Nat.mul_le_mul_left L (not_lt.mp many)
    exact absurd (lt_of_le_of_lt most below) (by decide)
  have some : k ≠ 0 := by
    rintro rfl
    exact absurd least (by decide)
  rw [Nat.mul_mod, odd] at low
  omega

theorem mod_smul {q : Curve} (cyclic : L • q = 0) (n : Nat) : (n % L) • q = n • q := by
  conv_rhs => rw [← Nat.mod_add_div n L, add_smul, mul_comm, mul_smul, cyclic, smul_zero, add_zero]

theorem fromBytes_scalar (n : Nat) : fromBytes (toBytes (n % L) 32) = n % L :=
  fromBytes_toBytes (lt_trans (Nat.mod_lt n prime_L.pos) (by decide))

variable (sha512 : Sha512) (sk : SigningKey)

namespace SigningKey

def point : Curve := sk.scalar sha512 • basePoint

theorem publicKey_eq : sk.publicKey sha512 = encode (sk.point sha512) :=
  compress_eq (pointMul_rep base_rep _)

theorem point_large : 8 • sk.point sha512 ≠ 0 := cofactor_smul (secretExpand_large sha512 sk.seed) rfl

theorem verify_sign {msg : Bytes} (some : sk.nonce sha512 msg ≠ 0) :
    verify sha512 (sk.publicKey sha512) msg (sk.sign sha512 msg) = true := by
  have nonce : sk.nonce sha512 msg % L ≠ 0 := by rwa [nonce, sha512ModL, Nat.mod_mod]
  have first : compress (pointMul (sk.nonce sha512 msg) base) = encode (sk.nonce sha512 msg • basePoint) :=
    compress_eq (pointMul_rep base_rep _)
  obtain ⟨A, readA, repA⟩ := decompressChecked_encode (sk.point_large sha512)
  obtain ⟨R, readR, repR⟩ := decompressChecked_encode (cofactor_smul nonce rfl)
  have below (n : Nat) : n % L < L := Nat.mod_lt n prime_L.pos
  have length : (encode (sk.nonce sha512 msg • basePoint)).length = 32 := length_encode _
  simp only [sign, first, publicKey_eq, verify, List.length_append, length_encode, length_toBytes,
    List.take_left' length, List.drop_left' length, readA, readR, fromBytes_scalar]
  rw [if_neg (by decide), if_neg (not_le.mpr (below _))]
  refine (pointEqual_iff (pointMul_rep (pointMul_rep base_rep _) 8)
    (pointMul_rep (pointAdd_rep repR (pointMul_rep repA _)) 8)).mpr ?_
  rw [mod_smul_base, add_smul, mul_smul, point]

end SigningKey

theorem vrfEncodeToCurve_rep {pk alpha : Bytes} {H : Coordinates} (found : vrfEncodeToCurve sha512 pk alpha = .ok H) :
    ∃ q, Rep H q ∧ L • q = 0 := by
  rw [vrfEncodeToCurve] at found
  split at found
  · cases found
  · next H' first =>
    obtain rfl : H' = H := Except.ok.inj found
    obtain ⟨ctr, _, tried⟩ := List.exists_of_findSome?_eq_some first
    simp only [vrfTry] at tried
    split at tried
    · cases tried
    · next C read =>
      obtain ⟨q, rep⟩ := decompress_rep read
      split at tried
      · cases tried
      · obtain rfl := Option.some.inj tried
        exact ⟨8 • q, pointMul_rep rep 8, L_smul_cofactor q⟩

theorem flatMap_compress {points : List Coordinates} {curve : List Curve} (reps : List.Forall₂ Rep points curve) :
    points.flatMap compress = curve.flatMap encode := by
  induction reps with
  | nil => rfl
  | cons rep _ ih => rw [List.flatMap_cons, List.flatMap_cons, ih, compress_eq rep]

theorem vrfChallenge_eq {points points' : List Coordinates} {curve : List Curve}
    (reps : List.Forall₂ Rep points curve) (reps' : List.Forall₂ Rep points' curve) :
    vrfChallenge sha512 points = vrfChallenge sha512 points' := by
  rw [vrfChallenge, vrfChallenge, flatMap_compress reps, flatMap_compress reps']

theorem vrfChallenge_lt (points : List Coordinates) : vrfChallenge sha512 points < 256 ^ 16 := by
  refine lt_of_lt_of_le (fromBytes_lt _) (Nat.pow_le_pow_right (by decide) ?_)
  rw [List.length_take]
  exact Nat.min_le_left _ _

/-- A proof, from the point, the challenge and the scalar in it. -/
def proofOf (gamma : Curve) (c s : Nat) : Bytes := encode gamma ++ toBytes c 16 ++ toBytes s 32

section
variable (gamma : Curve) (c s : Nat)

theorem length_proofOf : (proofOf gamma c s).length = 80 := by
  simp only [proofOf, List.length_append, length_encode, length_toBytes]

theorem take_proofOf : (proofOf gamma c s).take 32 = encode gamma := by
  rw [proofOf, List.append_assoc, List.take_left' (length_encode gamma)]

theorem challenge_proofOf : ((proofOf gamma c s).drop 32).take 16 = toBytes c 16 := by
  rw [proofOf, List.append_assoc, List.drop_left' (length_encode gamma), List.take_left' (length_toBytes c 16)]

theorem scalar_proofOf : ((proofOf gamma c s).drop 48).take 32 = toBytes s 32 := by
  have front : (encode gamma ++ toBytes c 16).length = 48 := by
    rw [List.length_append, length_encode, length_toBytes]
  rw [proofOf, List.drop_left' front, List.take_of_length_le (length_toBytes s 32).le]

end

theorem vrfVerify_answer {alpha : Bytes} {H : Coordinates} {q : Curve} {k c s : Nat}
    (found : vrfEncodeToCurve sha512 (sk.publicKey sha512) alpha = .ok H) (rep : Rep H q) (cyclic : L • q = 0)
    (fits : c < 256 ^ 16) (answer : s = (k + c * sk.scalar sha512) % L)
    (challenge : ∀ points, List.Forall₂ Rep points
      [sk.point sha512, q, sk.scalar sha512 • q, k • basePoint, k • q] → c = vrfChallenge sha512 points) :
    vrfVerify sha512 (sk.publicKey sha512) alpha (proofOf (sk.scalar sha512 • q) c s) =
      vrfProofToHash sha512 (proofOf (sk.scalar sha512 • q) c s) := by
  obtain ⟨Y, readY, repY⟩ := decompressChecked_encode (sk.point_large sha512)
  obtain ⟨Gamma, readGamma, repGamma⟩ := decompress_encode (sk.scalar sha512 • q)
  have large : isSmallOrder Y = false := by
    rw [← Bool.not_eq_true, isSmallOrder_iff repY]
    exact sk.point_large sha512
  have below : s < L := answer ▸ Nat.mod_lt _ prime_L.pos
  have number : fromBytes (toBytes s 32) = s := fromBytes_toBytes (below.trans (by decide))
  have first : s • basePoint + -(c • sk.point sha512) = k • basePoint := by
    rw [answer, mod_smul_base, SigningKey.point, add_smul, mul_smul, add_neg_cancel_right]
  have second : s • q + -(c • sk.scalar sha512 • q) = k • q := by
    rw [answer, mod_smul cyclic, add_smul, mul_smul, add_neg_cancel_right]
  have U := pointAdd_rep (pointMul_rep base_rep s) (pointNeg_rep (pointMul_rep repY c))
  have V := pointAdd_rep (pointMul_rep rep s) (pointNeg_rep (pointMul_rep repGamma c))
  rw [first] at U
  rw [second] at V
  have same := challenge _ (.cons repY (.cons rep (.cons repGamma (.cons U (.cons V .nil)))))
  rw [sk.publicKey_eq] at found ⊢
  simp only [vrfVerify, readY, large, length_proofOf, take_proofOf, readGamma, challenge_proofOf, scalar_proofOf,
    fromBytes_toBytes fits, number, found, not_le.mpr below, if_false, Bool.false_eq_true, not_true_eq_false, ne_eq]
  exact if_neg (not_not_intro same)

theorem vrfProofToHash_proofOf (gamma : Curve) (c s : Nat) :
    ∃ beta, vrfProofToHash sha512 (proofOf gamma c s) = .ok beta := by
  obtain ⟨Gamma, read, _⟩ := decompress_encode gamma
  rw [vrfProofToHash, if_neg (not_not_intro (length_proofOf gamma c s)), take_proofOf, read]
  exact ⟨_, rfl⟩

/-- For every seed: each message whose nonce is not zero is signed with what verifies, and each input that is hashed to
a point is proved with what verifies, to the hash of the proof. -/
theorem signatures_and_proofs_verify :
    (∀ msg, sk.nonce sha512 msg ≠ 0 → verify sha512 (sk.publicKey sha512) msg (sk.sign sha512 msg) = true) ∧
      ∀ alpha H, vrfEncodeToCurve sha512 (sk.publicKey sha512) alpha = .ok H →
        ∃ proof beta, vrfProve sha512 sk alpha = .ok proof ∧ vrfProofToHash sha512 proof = .ok beta ∧
          vrfVerify sha512 (sk.publicKey sha512) alpha proof = .ok beta := by
  refine ⟨fun msg some => sk.verify_sign sha512 some, ?_⟩
  intro alpha H found
  obtain ⟨q, rep, cyclic⟩ := vrfEncodeToCurve_rep sha512 found
  obtain ⟨Y, read, repY⟩ := decompress_encode (sk.point sha512)
  let x := sk.scalar sha512
  let k := fromBytes (sha512.digest (sk.noncePrefix sha512 ++ compress H)) % L
  let c := vrfChallenge sha512 [Y, H, pointMul x H, pointMul k base, pointMul k H]
  have reps := List.Forall₂.cons repY (.cons rep (.cons (pointMul_rep rep x)
    (.cons (pointMul_rep base_rep k) (.cons (pointMul_rep rep k) .nil))))
  have proved : vrfProve sha512 sk alpha = .ok (proofOf (x • q) c ((k + c * x) % L)) := by
    rw [vrfProve, found, sk.publicKey_eq, proofOf, ← compress_eq (pointMul_rep rep x)]
    simp only [read]
    rfl
  have accepted : vrfVerify sha512 (sk.publicKey sha512) alpha (proofOf (x • q) c ((k + c * x) % L)) =
      vrfProofToHash sha512 (proofOf (x • q) c ((k + c * x) % L)) :=
    vrfVerify_answer sha512 sk found rep cyclic (vrfChallenge_lt sha512 _) rfl
      (fun _ reps' => vrfChallenge_eq sha512 reps reps')
  obtain ⟨beta, hashed⟩ := vrfProofToHash_proofOf sha512 (x • q) c ((k + c * x) % L)
  exact ⟨_, beta, proved, hashed, accepted.trans hashed⟩

/-- The key of the first vector of the tests. -/
def vectorKey : SigningKey where
  seed := toBytes 0x607fae1c03ac3b701969327b69c54944c42cec92f44a84ba605afdef9db1619d 32
  length_seed := length_toBytes _ 32

theorem signatures_and_proofs_verify_vector :
    verify Ed25519.sha512 (vectorKey.publicKey Ed25519.sha512) [] (vectorKey.sign Ed25519.sha512 []) = true ∧
      ∃ proof beta, vrfProve Ed25519.sha512 vectorKey [] = .ok proof ∧
        vrfProofToHash Ed25519.sha512 proof = .ok beta ∧
        vrfVerify Ed25519.sha512 (vectorKey.publicKey Ed25519.sha512) [] proof = .ok beta := by
  obtain ⟨signed, proved⟩ := signatures_and_proofs_verify Ed25519.sha512 vectorKey
  refine ⟨signed [] (by decide +kernel), proved []
    ((vrfEncodeToCurve Ed25519.sha512 (vectorKey.publicKey Ed25519.sha512) []).toOption.getD identity) ?_⟩
  decide +kernel

example : vrfProve Ed25519.sha512 vectorKey [] =
    .ok (toBytes 0xee74edca7ca5f8263f726ff216ad01fcf67176473021a9d1cc79b03b002ba9456252b59066105786 40 ++
      toBytes 0x5785676ca28a526986d8310dbb0a16812abdab04f5da356e4a605b0f9d0d227979d471fed0b191b 40) := by
  decide +kernel

end JJDai.Ed25519
