import JJDai.Primitive.Signatures

/-! What leaves no choice: the bytes of a point, the scalar of a signature, the output of a proof. -/

namespace JJDai.Ed25519

open PyText

theorem recoverX_parity {y sign x : Int} (bit : sign = 0 ∨ sign = 1) (found : recoverX y sign = some x) :
    y < p ∧ (0 ≤ x ∧ x < p) ∧ x % 2 = sign := by
  have odd : p % 2 = 1 := by decide
  have large : 0 < p := by decide
  rw [recoverX] at found
  split at found
  · cases found
  rename_i small
  refine ⟨not_le.mp small, ?_⟩
  extract_lets x2 first candidate at found
  split at found
  · split at found
    · cases found
    · rename_i zero
      obtain rfl := Option.some.inj found
      exact ⟨⟨le_rfl, large⟩, (not_not.mp zero).symm⟩
  · rename_i some
    split at found
    · cases found
    · rename_i root
      have within : 0 ≤ candidate ∧ candidate < p := by
        unfold candidate
        split
        · exact ⟨Int.emod_nonneg _ large.ne', Int.emod_lt_of_pos _ large⟩
        · exact pow_range x2 _
      have positive : candidate ≠ 0 := by
        intro zero
        rw [zero, zero_mul, zero_sub, not_not, ← Int.dvd_iff_emod_eq_zero, dvd_neg] at root
        exact some (Int.eq_zero_of_dvd_of_nonneg_of_lt (Int.emod_nonneg _ large.ne') (Int.emod_lt_of_pos _ large) root)
      have chosen := Option.some.inj found
      split at chosen <;> omega

/-- A point that is read is written back as it was: no two byte strings are read as one point. -/
theorem decoding_canonical {s t : Bytes} {C D : Coordinates} (read : decompress s = some C)
    (read' : decompress t = some D) : compress C = s ∧ (pointEqual C D = true ↔ s = t) := by
  have back {s : Bytes} {C : Coordinates} (read : decompress s = some C) : compress C = s := by
    rw [decompress] at read
    split at read
    · cases read
    rename_i length
    obtain ⟨x, found, rfl⟩ := Option.map_eq_some_iff.mp read
    obtain ⟨below, ⟨least, most⟩, parity⟩ := recoverX_parity (by omega) found
    have bound : fromBytes s < 2 ^ 256 := by
      have := fromBytes_lt s
      rwa [not_not.mp length] at this
    have one : inv 1 = 1 := by
      refine eq_of_cast (pow_range 1 _) (by decide) ?_
      rw [cast_inv, Int.cast_one, inv_one]
    have whole : (fromBytes s % 2 ^ 255) ||| (x.toNat % 2) <<< 255 = fromBytes s := by
      rw [Nat.or_comm, ← Nat.shiftLeft_add_eq_or_of_lt (Nat.mod_lt _ (by decide)), Nat.shiftLeft_eq]
      omega
    simp only [compress, one, mul_one, Int.emod_eq_of_lt least most, Int.emod_eq_of_lt (Int.natCast_nonneg _) below,
      Int.toNat_natCast, whole]
    conv_rhs => rw [← toBytes_fromBytes s, not_not.mp length]
  obtain ⟨q, rep⟩ := decompress_rep read
  obtain ⟨r, rep'⟩ := decompress_rep read'
  refine ⟨back read, ?_⟩
  rw [pointEqual_iff rep rep', ← back read, ← back read', compress_eq rep, compress_eq rep', encode_injective.eq_iff]

theorem coprime_cofactor : Nat.gcd L 8 = 1 := by
  refine (Nat.Prime.coprime_iff_not_dvd prime_L).mpr fun divides => ?_
  exact absurd (Nat.le_of_dvd (by decide) divides) (by decide)

theorem smul_base_inj {m n : Nat} (same : 8 • m • basePoint = 8 • n • basePoint) (small : m < L) (small' : n < L) :
    m = n := by
  rw [smul_smul, smul_smul, nsmul_eq_nsmul_iff_modEq, addOrderOf_base] at same
  have equal := Nat.ModEq.cancel_left_of_coprime coprime_cofactor same
  exact Nat.ModEq.eq_of_lt_of_lt equal small small'

theorem decoding_canonical_base : ∃ C, decompress (encode basePoint) = some C ∧ compress C = encode basePoint ∧
    (pointEqual C C = true ↔ encode basePoint = encode basePoint) := by
  obtain ⟨C, read, _⟩ := decompress_encode basePoint
  exact ⟨C, read, decoding_canonical read read⟩

variable (sha512 : Sha512)

/-- Of an accepted signature the second half cannot be changed. -/
theorem signature_unique {pub msg sig sig' : Bytes} (valid : verify sha512 pub msg sig = true)
    (valid' : verify sha512 pub msg sig' = true) (same : sig.take 32 = sig'.take 32) : sig = sig' := by
  simp only [verify, ← same] at valid valid'
  split at valid
  · cases valid
  split at valid'
  · cases valid'
  rename_i shape shape'
  simp only [not_or, not_not] at shape shape'
  split at valid
  · rename_i A R readA readR
    simp only [readA, readR] at valid'
    obtain ⟨a, repA⟩ := decompress_rep (Option.filter_eq_some_iff.mp readA).1
    obtain ⟨r, repR⟩ := decompress_rep (Option.filter_eq_some_iff.mp readR).1
    split at valid
    · cases valid
    split at valid'
    · cases valid'
    rename_i below below'
    let sum := pointMul_rep (pointAdd_rep repR (pointMul_rep repA (sha512ModL sha512 (sig.take 32 ++ pub ++ msg)))) 8
    have first := (pointEqual_iff (pointMul_rep (pointMul_rep base_rep _) 8) sum).mp valid
    have second := (pointEqual_iff (pointMul_rep (pointMul_rep base_rep _) 8) sum).mp valid'
    have scalar := smul_base_inj (first.trans second.symm) (not_le.mp below) (not_le.mp below')
    have length : (sig.drop 32).length = (sig'.drop 32).length := by rw [List.length_drop, List.length_drop, shape.2, shape'.2]
    have rest : sig.drop 32 = sig'.drop 32 := by
      rw [← toBytes_fromBytes (sig.drop 32), ← toBytes_fromBytes (sig'.drop 32), scalar, length]
    rw [← List.take_append_drop 32 sig, same, rest, List.take_append_drop]
  · cases valid

theorem signature_unique_vector :
    verify Ed25519.sha512 (vectorKey.publicKey Ed25519.sha512) [] (vectorKey.sign Ed25519.sha512 []) = true ∧
      vectorKey.sign Ed25519.sha512 [] = vectorKey.sign Ed25519.sha512 [] := by
  have valid : verify Ed25519.sha512 (vectorKey.publicKey Ed25519.sha512) [] (vectorKey.sign Ed25519.sha512 []) = true :=
    SigningKey.verify_sign Ed25519.sha512 vectorKey (by decide +kernel)
  exact ⟨valid, signature_unique Ed25519.sha512 valid valid rfl⟩

/-- The subgroup of order `L` is generated by the base point: the quotient by it has order eight. -/
theorem exists_smul_base {q : Curve} (cyclic : L • q = 0) : ∃ n : Nat, q = n • basePoint := by
  let multiples := AddSubgroup.zmultiples basePoint
  have card : Nat.card (Curve ⧸ multiples) = 8 := by
    have product := multiples.card_mul_index
    rw [Nat.card_zmultiples, addOrderOf_base, card_curve, mul_comm] at product
    exact Nat.eq_of_mul_eq_mul_right prime_L.pos product
  have torsion : 8 • (q : Curve ⧸ multiples) = 0 := by
    rw [← card]
    exact card_nsmul_eq_zero'
  have killed : L • (q : Curve ⧸ multiples) = 0 := by
    rw [← QuotientAddGroup.mk_nsmul, cyclic, QuotientAddGroup.mk_zero]
  have order : addOrderOf (q : Curve ⧸ multiples) ∣ Nat.gcd 8 L :=
    Nat.dvd_gcd (addOrderOf_dvd_of_nsmul_eq_zero torsion) (addOrderOf_dvd_of_nsmul_eq_zero killed)
  rw [Nat.gcd_comm, coprime_cofactor, Nat.dvd_one, AddMonoid.addOrderOf_eq_one_iff,
    QuotientAddGroup.eq_zero_iff] at order
  obtain ⟨k, multiple⟩ := AddSubgroup.mem_zmultiples_iff.mp order
  have large : (L : Int) ≠ 0 := by decide
  refine ⟨(k % L).toNat, ?_⟩
  rw [← natCast_zsmul, Int.toNat_of_nonneg (Int.emod_nonneg k large), ← addOrderOf_base, mod_addOrderOf_zsmul, multiple]

theorem difference {G : Type} [AddCommGroup G] {a b : G} {s s' c c' : Nat}
    (same : s • a + -(c • b) = s' • a + -(c' • b)) : ((s : Int) - s') • a = ((c : Int) - c') • b := by
  rw [sub_smul, sub_smul, natCast_zsmul, natCast_zsmul, natCast_zsmul, natCast_zsmul, sub_eq_sub_iff_add_eq_add]
  rw [← sub_eq_add_neg, ← sub_eq_add_neg, sub_eq_sub_iff_add_eq_add] at same
  rw [same, add_comm]

/-- The points that the verifier hashes for the challenge `c` and the scalar `s` of a proof. -/
def vrfPoints (Y H Gamma : Coordinates) (c s : Nat) : List Coordinates :=
  [Y, H, Gamma, pointAdd (pointMul s base) (pointNeg (pointMul c Y)), pointAdd (pointMul s H) (pointNeg (pointMul c Gamma))]

theorem vrfPoints_rep {Y H Gamma : Coordinates} {y h gamma : Curve} (repY : Rep Y y) (repH : Rep H h)
    (rep : Rep Gamma gamma) (c s : Nat) : (vrfPoints Y H Gamma c s).map compress =
      [encode y, encode h, encode gamma, encode (s • basePoint + -(c • y)), encode (s • h + -(c • gamma))] := by
  simp only [vrfPoints, List.map_cons, List.map_nil, compress_eq repY, compress_eq repH, compress_eq rep,
    compress_eq (pointAdd_rep (pointMul_rep base_rep s) (pointNeg_rep (pointMul_rep repY c))),
    compress_eq (pointAdd_rep (pointMul_rep repH s) (pointNeg_rep (pointMul_rep rep c)))]

/-- For another output than the multiple of the hashed point that belongs to the key, no two challenges have the same
points. -/
theorem other_output_challenge {y h gamma : Curve} {n c c' s s' : Nat} (base_y : 8 • y = n • basePoint)
    (cyclic : L • h = 0) (other : 8 • gamma ≠ n • h) (small : c < 256 ^ 16) (small' : c' < 256 ^ 16)
    (first : s • basePoint + -(c • y) = s' • basePoint + -(c' • y)) (second : s • h + -(c • gamma) = s' • h + -(c' • gamma)) :
    c = c' := by
  by_contra different
  have scalars : ((s : Int) - s') • basePoint = ((c : Int) - c') • y := difference first
  have shared : ((s : Int) - s') • h = ((c : Int) - c') • gamma := difference second
  have congruent : (L : Int) ∣ 8 * ((s : Int) - s') - ((c : Int) - c') * n := by
    rw [← addOrderOf_base, addOrderOf_dvd_iff_zsmul_eq_zero, sub_smul, mul_smul, mul_smul, scalars, natCast_zsmul, ← base_y,
      ofNat_zsmul, smul_comm, sub_self]
  obtain ⟨k, quotient⟩ := congruent
  have killed : ((c : Int) - c') • (8 • gamma - n • h) = 0 := by
    calc ((c : Int) - c') • (8 • gamma - n • h)
        = 8 • ((c : Int) - c') • gamma - (((c : Int) - c') * n) • h := by
          rw [smul_sub, smul_comm, mul_smul, natCast_zsmul]
      _ = (8 * ((s : Int) - s') - ((c : Int) - c') * n) • h := by
          rw [← shared, sub_smul (8 * ((s : Int) - s')), mul_smul (8 : Int), ofNat_zsmul]
      _ = 0 := by rw [quotient, mul_comm, mul_smul, natCast_zsmul, cyclic, smul_zero]
  have torsion : (L : Int) • (8 • gamma - n • h) = 0 := by
    rw [smul_sub, natCast_zsmul, natCast_zsmul, L_smul_cofactor, smul_comm, cyclic, smul_zero, sub_zero]
  have order : addOrderOf (8 • gamma - n • h) ∣ Nat.gcd ((c : Int) - c').natAbs L := by
    refine Nat.dvd_gcd (Int.natCast_dvd.mp (addOrderOf_dvd_iff_zsmul_eq_zero.mpr killed)) ?_
    exact Int.natCast_dvd_natCast.mp (addOrderOf_dvd_iff_zsmul_eq_zero.mpr torsion)
  have coprime : Nat.gcd ((c : Int) - c').natAbs L = 1 := by
    rw [Nat.gcd_comm]
    refine (Nat.Prime.coprime_iff_not_dvd prime_L).mpr (fun divides => ?_)
    have bound : 256 ^ 16 ≤ L := by decide
    have least := Nat.le_of_dvd (by omega) divides
    omega
  rw [coprime, Nat.dvd_one, AddMonoid.addOrderOf_eq_one_iff, sub_eq_zero] at order
  exact other order

/-- What an accepted proof holds: the challenge it states is that of its points, and its point gives the output. -/
theorem vrfVerify_ok {pub alpha proof beta : Bytes} {H : Coordinates} (hashed : vrfEncodeToCurve sha512 pub alpha = .ok H)
    (accepted : vrfVerify sha512 pub alpha proof = .ok beta) :
    ∃ Y Gamma, decompress pub = some Y ∧ decompress (proof.take 32) = some Gamma ∧
      fromBytes ((proof.drop 32).take 16) = vrfChallenge sha512 (vrfPoints Y H Gamma
        (fromBytes ((proof.drop 32).take 16)) (fromBytes ((proof.drop 48).take 32))) ∧
      beta = sha512.digest (vrfSuite ++ [3] ++ compress (pointMul 8 Gamma) ++ [0]) := by
  rw [vrfVerify] at accepted
  split at accepted
  · cases accepted
  rename_i Y readY
  split at accepted
  · cases accepted
  split at accepted
  · cases accepted
  rename_i length
  split at accepted
  · cases accepted
  rename_i Gamma readG
  simp only [hashed] at accepted
  split at accepted
  · cases accepted
  change (if fromBytes ((proof.drop 32).take 16) ≠ vrfChallenge sha512 (vrfPoints Y H Gamma _ _) then _
    else vrfProofToHash sha512 proof) = .ok beta at accepted
  split at accepted
  · cases accepted
  rename_i stated
  rw [vrfProofToHash, if_neg length, readG] at accepted
  exact ⟨Y, Gamma, (Option.filter_eq_some_iff.mp readY).1, readG, not_not.mp stated, (Except.ok.inj accepted).symm⟩

/-- For every key and hashed point there are one output and, for what the verifier hashes, one challenge, both whatever
the hash function is: an accepted proof has that output, or its hash gave that challenge. -/
theorem vrf_other_output_one_challenge (pub : Bytes) (H : Coordinates) :
    ∃ (output : Bytes) (challenge : List Bytes → Nat), ∀ (sha512 : Sha512) (alpha proof beta : Bytes),
      vrfEncodeToCurve sha512 pub alpha = .ok H → vrfVerify sha512 pub alpha proof = .ok beta →
        beta = sha512.digest (vrfSuite ++ [3] ++ output ++ [0]) ∨
        ∃ Y Gamma, decompress pub = some Y ∧ decompress (proof.take 32) = some Gamma ∧
          let points := vrfPoints Y H Gamma (fromBytes ((proof.drop 32).take 16)) (fromBytes ((proof.drop 48).take 32))
          vrfChallenge sha512 points = challenge (points.map compress) := by
  by_cases sound : ∃ Y y h, decompress pub = some Y ∧ Rep Y y ∧ Rep H h ∧ L • h = 0
  · obtain ⟨Y, y, h, key, repY, repH, cyclic⟩ := sound
    obtain ⟨n, base_y⟩ := exists_smul_base (L_smul_cofactor y)
    let Answers (points : List Bytes) (c : Nat) : Prop := c < 256 ^ 16 ∧ ∃ Gamma gamma s, Rep Gamma gamma ∧
      8 • gamma ≠ n • h ∧ points = (vrfPoints Y H Gamma c s).map compress
    have unique {points : List Bytes} {c c' : Nat} (first : Answers points c) (second : Answers points c') : c = c' := by
      obtain ⟨small, _, gamma, s, rep, other, rfl⟩ := first
      obtain ⟨small', _, gamma', s', rep', _, same⟩ := second
      rw [vrfPoints_rep repY repH rep, vrfPoints_rep repY repH rep'] at same
      simp only [List.cons.injEq, encode_injective.eq_iff, true_and, and_true] at same
      obtain ⟨rfl, first, second⟩ := same
      exact other_output_challenge base_y cyclic other small small' first second
    classical
    refine ⟨encode (n • h), fun points => if answer : ∃ c, Answers points c then answer.choose else 0, ?_⟩
    intro sha512 alpha proof beta hashed accepted
    obtain ⟨Y', Gamma, key', read, stated, output⟩ := vrfVerify_ok sha512 hashed accepted
    obtain rfl := Option.some.inj (key.symm.trans key')
    obtain ⟨gamma, rep⟩ := decompress_rep read
    by_cases same : 8 • gamma = n • h
    · left
      rw [output, compress_eq (pointMul_rep rep 8), same]
    · right
      refine ⟨Y, Gamma, key, read, ?_⟩
      intro points
      have small : fromBytes ((proof.drop 32).take 16) < 256 ^ 16 :=
        (fromBytes_lt _).trans_le (Nat.pow_le_pow_right (by decide) (List.length_take_le _ _))
      have answers : Answers (points.map compress) (fromBytes ((proof.drop 32).take 16)) :=
        ⟨small, Gamma, gamma, _, rep, same, rfl⟩
      have some : ∃ c, Answers (points.map compress) c := ⟨_, answers⟩
      exact (stated.symm.trans (unique answers some.choose_spec)).trans (dif_pos some).symm
  · refine ⟨[], fun _ => 0, fun sha512 alpha proof beta hashed accepted => absurd ?_ sound⟩
    obtain ⟨Y, _, key, _⟩ := vrfVerify_ok sha512 hashed accepted
    obtain ⟨y, repY⟩ := decompress_rep key
    obtain ⟨h, repH, cyclic⟩ := vrfEncodeToCurve_rep sha512 hashed
    exact ⟨Y, y, h, key, repY, repH, cyclic⟩

end JJDai.Ed25519
