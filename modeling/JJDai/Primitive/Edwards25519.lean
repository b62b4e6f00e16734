import JJDai.Lib.TwistedEdwards
import JJDai.Primitive.Ed25519

/-! The curve edwards25519: its points are a group of order `8 * L`, the base point has the prime order `L`, and the
coordinates of `jjdai.crypto` add, multiply, compare, write and read them. -/

namespace JJDai.Ed25519

open Edwards

def certificate : List Pratt.Entry :=
  [⟨17, 3, [2, 2, 2, 2]⟩, ⟨3, 2, [2]⟩, ⟨7, 3, [2, 3]⟩, ⟨239, 7, [2, 7, 17]⟩, ⟨479, 13, [2, 239]⟩,
    ⟨32573, 2, [2, 2, 17, 479]⟩, ⟨65147, 2, [2, 32573]⟩, ⟨5, 2, [2, 2]⟩, ⟨11, 2, [2, 5]⟩,
    ⟨353, 3, [2, 2, 2, 2, 2, 11]⟩, ⟨487, 3, [2, 3, 3, 3, 3, 3]⟩, ⟨29, 2, [2, 2, 7]⟩, ⟨59, 2, [2, 29]⟩,
    ⟨57467, 2, [2, 59, 487]⟩, ⟨13, 2, [2, 2, 3]⟩, ⟨131, 2, [2, 5, 13]⟩, ⟨132049, 26, [2, 2, 2, 2, 3, 3, 7, 131]⟩,
    ⟨23, 5, [2, 11]⟩, ⟨3727, 3, [2, 3, 3, 3, 3, 23]⟩, ⟨43, 3, [2, 3, 7]⟩, ⟨1923133, 2, [2, 2, 3, 43, 3727]⟩,
    ⟨173, 2, [2, 2, 43]⟩, ⟨4153, 5, [2, 2, 2, 3, 173]⟩, ⟨41, 6, [2, 2, 2, 5]⟩, ⟨1723, 3, [2, 3, 7, 41]⟩,
    ⟨430751, 17, [2, 5, 5, 5, 1723]⟩, ⟨37, 2, [2, 2, 3, 3]⟩, ⟨223, 3, [2, 3, 37]⟩, ⟨53, 2, [2, 2, 13]⟩,
    ⟨107, 2, [2, 53]⟩, ⟨31, 3, [2, 3, 5]⟩, ⟨31757755568855353, 10, [2, 2, 2, 3, 31, 107, 223, 4153, 430751]⟩,
    ⟨83, 2, [2, 41]⟩, ⟨19, 2, [2, 3, 3]⟩, ⟨9463, 3, [2, 3, 19, 83]⟩, ⟨37853, 2, [2, 2, 9463]⟩, ⟨75707, 2, [2, 37853]⟩,
    ⟨2437, 2, [2, 2, 3, 7, 29]⟩, ⟨419, 2, [2, 11, 19]⟩, ⟨97, 5, [2, 2, 2, 2, 2, 3]⟩, ⟨569003, 2, [2, 7, 97, 419]⟩,
    ⟨2773320623, 5, [2, 2437, 569003]⟩, ⟨72106336199, 7, [2, 13, 2773320623]⟩, ⟨991, 6, [2, 3, 3, 5, 11]⟩,
    ⟨103, 5, [2, 3, 17]⟩, ⟨8574133, 2, [2, 2, 3, 7, 103, 991]⟩, ⟨127, 3, [2, 3, 3, 7]⟩, ⟨47, 5, [2, 23]⟩,
    ⟨1919519569386763, 2, [2, 3, 7, 19, 47, 47, 127, 8574133]⟩,
    ⟨75445702479781427272750846543864801, 7, [2, 2, 2, 2, 2, 3, 3, 5, 5, 75707, 72106336199, 1919519569386763]⟩,
    ⟨74058212732561358302231226437062788676166966415465897661863160754340907, 2, [2, 3, 353, 57467, 132049, 1923133, 31757755568855353, 75445702479781427272750846543864801]⟩,
    ⟨57896044618658097711785492504343953926634992332820282019728792003956564819949, 2, [2, 2, 3, 65147, 74058212732561358302231226437062788676166966415465897661863160754340907]⟩,
    ⟨34123, 2, [2, 3, 11, 11, 47]⟩, ⟨409477, 2, [2, 2, 3, 34123]⟩, ⟨14741173, 2, [2, 2, 3, 3, 409477]⟩,
    ⟨58964693, 2, [2, 2, 14741173]⟩, ⟨30703, 3, [2, 3, 7, 17, 43]⟩, ⟨17231, 13, [2, 5, 1723]⟩,
    ⟨137849, 3, [2, 2, 2, 17231]⟩, ⟨79, 3, [2, 3, 13]⟩, ⟨41081, 3, [2, 2, 2, 5, 13, 79]⟩, ⟨82163, 2, [2, 41081]⟩,
    ⟨67, 2, [2, 3, 11]⟩, ⟨22111, 6, [2, 3, 5, 11, 67]⟩, ⟨132667, 5, [2, 3, 22111]⟩,
    ⟨3044861653679985063343, 5, [2, 3, 11, 30703, 82163, 132667, 137849]⟩,
    ⟨198211423230930754013084525763697, 5, [2, 2, 2, 2, 3, 23, 58964693, 3044861653679985063343]⟩,
    ⟨113, 3, [2, 2, 2, 2, 7]⟩, ⟨2939, 2, [2, 13, 113]⟩, ⟨5879, 11, [2, 2939]⟩, ⟨307, 5, [2, 3, 3, 17]⟩,
    ⟨292386187, 2, [2, 3, 3, 3, 3, 307, 5879]⟩, ⟨73, 5, [2, 2, 2, 3, 3]⟩, ⟨213441916511, 13, [2, 5, 73, 292386187]⟩,
    ⟨2851, 2, [2, 3, 5, 5, 19]⟩, ⟨2551, 6, [2, 3, 5, 5, 17]⟩, ⟨1224481, 13, [2, 2, 2, 2, 2, 3, 5, 2551]⟩,
    ⟨3797, 2, [2, 2, 13, 73]⟩, ⟨531581, 2, [2, 2, 5, 7, 3797]⟩,
    ⟨1257559732178653, 2, [2, 2, 3, 7, 23, 531581, 1224481]⟩,
    ⟨4434155615661930479, 17, [2, 41, 43, 1257559732178653]⟩, ⟨1361, 3, [2, 2, 2, 2, 5, 17]⟩,
    ⟨172054593956031949258510691, 2, [2, 5, 1361, 2851, 4434155615661930479]⟩, ⟨269, 2, [2, 2, 67]⟩,
    ⟨19757330305831588566944191468367130476339, 2, [2, 269, 213441916511, 172054593956031949258510691]⟩,
    ⟨276602624281642239937218680557139826668747, 2, [2, 7, 19757330305831588566944191468367130476339]⟩,
    ⟨7237005577332262213973186563042994240857116359379907606001950938285454250989, 2, [2, 2, 3, 11, 198211423230930754013084525763697, 276602624281642239937218680557139826668747]⟩]

abbrev P : Nat := 2 ^ 255 - 19

theorem prime_P : P.Prime := @Pratt.prime_of_mem certificate P (by decide +kernel)

theorem prime_L : L.Prime := @Pratt.prime_of_mem certificate L (by decide +kernel)

instance : Fact P.Prime := ⟨prime_P⟩

abbrev Fp := ZMod P

theorem p_eq : p = (P : Int) := rfl

@[simp] theorem cast_mod (x : Int) : ((x % p : Int) : Fp) = x := by
  rw [p_eq, ZMod.intCast_mod]

theorem cast_pow (x : Int) (e : Nat) : ((pow x e : Int) : Fp) = (x : Fp) ^ e := by
  have positive : 0 ≤ x % p := Int.emod_nonneg x (by decide)
  have same : p.toNat = P := rfl
  rw [pow, Pratt.powMod_eq, same, Int.cast_natCast, ZMod.natCast_mod, Nat.cast_pow]
  congr 1
  rw [← Int.cast_natCast, Int.toNat_of_nonneg positive, cast_mod]

theorem cast_inv (x : Int) : ((inv x : Int) : Fp) = (x : Fp)⁻¹ := by
  rw [inv, cast_pow]
  by_cases zero : (x : Fp) = 0
  · rw [zero, inv_zero, zero_pow (by decide)]
  · refine eq_inv_of_mul_eq_one_left ?_
    rw [← pow_succ]
    exact ZMod.pow_card_sub_one_eq_one zero

theorem pow_range (x : Int) (e : Nat) : 0 ≤ pow x e ∧ pow x e < p := by
  have same : p.toNat = P := rfl
  have bound := Nat.mod_lt ((x % p).toNat ^ e) prime_P.pos
  rw [pow, Pratt.powMod_eq, same]
  exact ⟨Int.natCast_nonneg _, p_eq ▸ Int.ofNat_lt.mpr bound⟩

theorem eq_of_cast {a b : Int} (range : 0 ≤ a ∧ a < p) (range' : 0 ≤ b ∧ b < p) (same : (a : Fp) = b) : a = b := by
  rw [ZMod.intCast_eq_intCast_iff] at same
  have below : a % p = b % p := same
  rwa [Int.emod_eq_of_lt range.1 range.2, Int.emod_eq_of_lt range'.1 range'.2] at below

theorem cast_zero_iff (x : Int) : (x : Fp) = 0 ↔ x % p = 0 := by
  rw [ZMod.intCast_zmod_eq_zero_iff_dvd, Int.dvd_iff_emod_eq_zero, p_eq]

theorem sqrtM1_square : ((sqrtM1 : Int) : Fp) * sqrtM1 = -1 := by
  have zero := (cast_zero_iff (sqrtM1 * sqrtM1 + 1)).mpr (by decide +kernel)
  push_cast at zero
  exact eq_neg_of_add_eq_zero_left zero

/-- The halfway power of `d` is `-1`, so it has no root. -/
instance : Complete Fp (d : Fp) where
  two := by
    have some : (2 : Int) % p ≠ 0 := by decide
    have cast := (cast_zero_iff 2).not.mpr some
    exact_mod_cast cast
  root := ⟨_, sqrtM1_square⟩
  nonsquare := by
    intro r square
    have halfway : (d : Fp) ^ ((P - 1) / 2) = -1 := by
      have zero := (cast_zero_iff (pow d ((P - 1) / 2) + 1)).mpr (by decide +kernel)
      rw [Int.cast_add, cast_pow, Int.cast_one] at zero
      exact eq_neg_of_add_eq_zero_left zero
    have two : (2 : Fp) ≠ 0 := by
      have cast := (cast_zero_iff 2).not.mpr (by decide)
      exact_mod_cast cast
    have some : r ≠ 0 := by
      rintro rfl
      rw [← square, mul_zero, zero_pow (by decide)] at halfway
      simp at halfway
    rw [← square, ← pow_two, ← pow_mul, Nat.mul_div_cancel' (by decide +kernel), ZMod.pow_card_sub_one_eq_one some] at halfway
    exact two (by linear_combination halfway)

abbrev Curve := Edwards.Point ((d : Int) : Fp)

structure Rep (C : Coordinates) (q : Curve) : Prop where
  z : (C.Z : Fp) ≠ 0
  x : (C.X : Fp) = q.x * C.Z
  y : (C.Y : Fp) = q.y * C.Z
  t : (C.T : Fp) = q.x * q.y * C.Z

theorem identity_rep : Rep identity 0 := by
  constructor <;> simp [identity]

section
variable {C D : Coordinates} {q r : Curve} (first : Rep C q) (second : Rep D r)

include first

theorem pointNeg_rep : Rep (pointNeg C) (-q) := by
  obtain ⟨z, x, y, t⟩ := first
  constructor
  · exact z
  · simp only [pointNeg, cast_mod, Int.cast_neg, x, Point.neg_x]
    ring
  · exact y
  · simp only [pointNeg, cast_mod, Int.cast_neg, t, Point.neg_x, Point.neg_y]
    ring

include second

/-- `_point_add` is the addition of the curve: with `w` for `2 Z₁ Z₂`, its four products are `w` times the numerators
and denominators of the sum. -/
theorem pointAdd_rep : Rep (pointAdd C D) (q + r) := by
  obtain ⟨z, x, y, t⟩ := first
  obtain ⟨z', x', y', t'⟩ := second
  have plus := one_add_cross q.on r.on
  have minus := one_sub_cross q.on r.on
  have some : (2 * C.Z * D.Z : Fp) ≠ 0 := mul_ne_zero (mul_ne_zero (Complete.two d) z) z'
  have e : ((C.Y + C.X) * (D.Y + D.X) - (C.Y - C.X) * (D.Y - D.X) : Fp) =
      2 * C.Z * D.Z * (q.x * r.y + r.x * q.y) := by
    rw [x, y, x', y']
    ring
  have h : ((C.Y + C.X) * (D.Y + D.X) + (C.Y - C.X) * (D.Y - D.X) : Fp) =
      2 * C.Z * D.Z * (q.y * r.y + q.x * r.x) := by
    rw [x, y, x', y']
    ring
  have f : (2 * C.Z * D.Z - 2 * C.T * D.T * d : Fp) = 2 * C.Z * D.Z * (1 - cross (d : Fp) q.x q.y r.x r.y) := by
    rw [t, t', cross]
    ring
  have g : (2 * C.Z * D.Z + 2 * C.T * D.T * d : Fp) = 2 * C.Z * D.Z * (1 + cross (d : Fp) q.x q.y r.x r.y) := by
    rw [t, t', cross]
    ring
  constructor
  all_goals
    simp only [pointAdd, cast_mod, Int.cast_mul, Int.cast_add, Int.cast_sub, Int.cast_ofNat, e, h, f, g, Point.add_x,
      Point.add_y]
    generalize cross (d : Fp) q.x q.y r.x r.y = inner at *
  · exact mul_ne_zero (mul_ne_zero some minus) (mul_ne_zero some plus)
  all_goals field_simp

theorem pointEqual_iff : pointEqual C D = true ↔ q = r := by
  obtain ⟨z, x, y, _⟩ := first
  obtain ⟨z', x', y', _⟩ := second
  simp only [pointEqual, Bool.and_eq_true, decide_eq_true_eq, ← cast_zero_iff, Int.cast_sub, Int.cast_mul, x, x', y, y']
  constructor
  · rintro ⟨sameX, sameY⟩
    ext
    · refine mul_right_cancel₀ (mul_ne_zero z z') ?_
      linear_combination sameX
    · refine mul_right_cancel₀ (mul_ne_zero z z') ?_
      linear_combination sameY
  · rintro rfl
    constructor <;> ring

end

theorem pointMulFrom_rep {rounds s : Nat} (enough : s < 2 ^ rounds) {C D : Coordinates} {q r : Curve} (base : Rep C q)
    (sum : Rep D r) : Rep (pointMulFrom rounds s C D) (r + s • q) := by
  induction rounds generalizing s C D q r with
  | zero =>
    obtain rfl : s = 0 := by simpa using enough
    rw [zero_nsmul, add_zero]
    exact sum
  | succ rounds ih =>
    rw [pointMulFrom]
    split
    · next done =>
      rw [done, zero_nsmul, add_zero]
      exact sum
    · have half : s / 2 < 2 ^ rounds := by
        rw [pow_succ] at enough
        omega
      have doubled := pointAdd_rep base base
      have split := Nat.div_add_mod s 2
      split
      · next odd =>
        have value : r + s • q = r + q + (s / 2) • (q + q) := by
          conv_lhs => rw [← split, odd, add_nsmul, mul_nsmul, two_nsmul, one_nsmul]
          abel
        rw [value]
        exact ih half doubled (pointAdd_rep sum base)
      · next even =>
        have value : r + s • q = r + (s / 2) • (q + q) := by
          conv_lhs => rw [← split, Nat.mod_two_ne_one.mp even, add_zero, mul_nsmul, two_nsmul]
        rw [value]
        exact ih half doubled sum

theorem pointMul_rep {C : Coordinates} {q : Curve} (rep : Rep C q) (s : Nat) : Rep (pointMul s C) (s • q) := by
  have multiple := pointMulFrom_rep (@Nat.lt_log2_self s) rep identity_rep
  rwa [zero_add] at multiple

theorem isSmallOrder_iff {C : Coordinates} {q : Curve} (rep : Rep C q) : isSmallOrder C = true ↔ 8 • q = 0 :=
  pointEqual_iff (pointMul_rep rep 8) identity_rep

/-- The point of two integers that satisfy the equation. -/
def pointOf (x y : Int) (on : (y * y - x * x - (1 + d * (x * x) * (y * y))) % p = 0) : Curve where
  x := x
  y := y
  on := by
    have zero := (cast_zero_iff _).mpr on
    push_cast at zero
    exact sub_eq_zero.mp zero

theorem pointOf_rep {x y : Int} (on : (y * y - x * x - (1 + d * (x * x) * (y * y))) % p = 0) :
    Rep ⟨x, y, 1, x * y % p⟩ (pointOf x y on) := by
  constructor <;> simp [pointOf]

def basePoint : Curve := pointOf baseX baseY (by decide +kernel)

theorem base_rep : Rep base basePoint := pointOf_rep (by decide +kernel)

theorem L_smul_base : L • basePoint = 0 :=
  (pointEqual_iff (pointMul_rep base_rep L) identity_rep).mp (by decide +kernel)

theorem base_ne : basePoint ≠ 0 := by
  intro same
  have equal := (pointEqual_iff base_rep identity_rep).mpr same
  exact absurd equal (by decide +kernel)

theorem addOrderOf_base : addOrderOf basePoint = L := by
  have := Fact.mk prime_L
  exact addOrderOf_eq_prime L_smul_base base_ne

theorem smul_base_eq_zero {n : Nat} : n • basePoint = 0 ↔ n % L = 0 := by
  rw [← addOrderOf_dvd_iff_nsmul_eq_zero, addOrderOf_base, Nat.dvd_iff_mod_eq_zero]

theorem mod_smul_base (n : Nat) : (n % L) • basePoint = n • basePoint := by
  rw [← addOrderOf_base, mod_addOrderOf_nsmul]

def torsionX : Int := 14399317868200118260347934320527232580618823971194345261214217575416788799818

def torsionY : Int := 55188659117513257062467267217118295137698188065244968500265048394206261417927

def torsionPoint : Curve := pointOf torsionX torsionY (by decide +kernel)

theorem torsion_rep : Rep ⟨torsionX, torsionY, 1, torsionX * torsionY % p⟩ torsionPoint :=
  pointOf_rep (by decide +kernel)

theorem addOrderOf_torsion : addOrderOf torsionPoint = 2 ^ 3 := by
  have := Fact.mk Nat.prime_two
  refine addOrderOf_eq_prime_pow ?_ ?_
  · intro zero
    have equal := (pointEqual_iff (pointMul_rep torsion_rep (2 ^ 2)) identity_rep).mpr zero
    exact absurd equal (by decide +kernel)
  · exact (pointEqual_iff (pointMul_rep torsion_rep (2 ^ 3)) identity_rep).mp (by decide +kernel)

/-- Both orders divide the number of points, which is at most `2 * p` and so less than `16 * L`. -/
theorem card_curve : Nat.card Curve = 8 * L := by
  have torsion : 8 ∣ Nat.card Curve := by
    have divides := addOrderOf_dvd_natCard torsionPoint
    rwa [addOrderOf_torsion] at divides
  have cyclic : L ∣ Nat.card Curve := by
    have divides := addOrderOf_dvd_natCard basePoint
    rwa [addOrderOf_base] at divides
  have coprime : Nat.Coprime 8 L := by
    rw [show 8 = 2 ^ 3 from rfl]
    exact Nat.Coprime.pow_left 3 ((Nat.coprime_primes Nat.prime_two prime_L).mpr (by decide))
  obtain ⟨multiple, card⟩ := coprime.mul_dvd_of_dvd_of_dvd torsion cyclic
  have some : 0 < Nat.card Curve := Nat.card_pos
  have most : Nat.card Curve ≤ 2 * Nat.card Fp := Point.card_le
  rw [Nat.card_zmod] at most
  have few : 2 * P < 8 * L * 2 := by decide
  have single : multiple = 1 := by
    have upper : multiple < 2 := Nat.lt_of_mul_lt_mul_left (lt_of_le_of_lt (card ▸ most) few)
    rcases Nat.eq_zero_or_pos multiple with rfl | positive
    · omega
    · omega
  rw [card, single, mul_one]

theorem L_smul_cofactor (q : Curve) : L • 8 • q = 0 := by
  rw [smul_smul, mul_comm, ← card_curve]
  exact card_nsmul_eq_zero'

end JJDai.Ed25519
