import JJDai.Primitive.Edwards25519

/-! Points of edwards25519 as 32 bytes: what is written depends on the point alone, and is read back as it. -/

namespace JJDai.Ed25519

open PyText Edwards

@[simp] theorem length_toBytes (n length : Nat) : (toBytes n length).length = length := by simp [toBytes]

theorem toBytes_succ (n length : Nat) : toBytes n (length + 1) = UInt8.ofNat n :: toBytes (n / 256) length := by
  rw [toBytes, List.range_succ_eq_map, List.map_cons, List.map_map, pow_zero, Nat.div_one]
  congr 1
  refine List.map_congr_left fun i _ => ?_
  rw [Function.comp_apply, Nat.succ_eq_add_one, pow_succ', ← Nat.div_div_eq_div_mul]

theorem toBytes_fromBytes (data : Bytes) : toBytes (fromBytes data) data.length = data := by
  induction data with
  | nil => rfl
  | cons b rest ih =>
    have byte : b.toNat < 256 := b.toNat_lt
    have number : fromBytes (b :: rest) = b.toNat + 256 * fromBytes rest := rfl
    have high : fromBytes (b :: rest) / 256 = fromBytes rest := by omega
    have low : UInt8.ofNat (fromBytes (b :: rest)) = b := by
      apply UInt8.toNat_inj.mp
      rw [UInt8.toNat_ofNat', number]
      omega
    rw [List.length_cons, toBytes_succ, high, low, ih]

theorem fromBytes_toBytes {n length : Nat} (fits : n < 256 ^ length) : fromBytes (toBytes n length) = n := by
  induction length generalizing n with
  | zero =>
    obtain rfl : n = 0 := by simpa using fits
    rfl
  | succ length ih =>
    have rest := ih (n := n / 256) (by rw [pow_succ] at fits; omega)
    have low : (UInt8.ofNat n).toNat = n % 256 := by simp
    rw [toBytes_succ, fromBytes, List.foldr_cons, ← fromBytes, rest, low]
    omega

theorem fromBytes_lt (data : Bytes) : fromBytes data < 256 ^ data.length := by
  induction data with
  | nil => decide
  | cons b rest ih =>
    have byte : b.toNat < 256 := b.toNat_lt
    rw [fromBytes, List.foldr_cons, ← fromBytes, List.length_cons, pow_succ]
    omega

/-- The second coordinate, and the parity of the first one above it. -/
def encode (q : Curve) : Bytes := toBytes (q.y.val ||| (q.x.val % 2) <<< 255) 32

theorem val_lt (a : Fp) : a.val < P := ZMod.val_lt a

theorem toNat_mod {n : Int} {a : Fp} (same : (n : Fp) = a) : (n % p).toNat = a.val := by
  have value := ZMod.val_intCast (n := P) n
  rw [same] at value
  rw [p_eq, ← value, Int.toNat_natCast]

theorem compress_eq {C : Coordinates} {q : Curve} (rep : Rep C q) : compress C = encode q := by
  obtain ⟨z, x, y, _⟩ := rep
  have first : ((C.X * inv C.Z : Int) : Fp) = q.x := by
    rw [Int.cast_mul, cast_inv, x, mul_assoc, mul_inv_cancel₀ z, mul_one]
  have second : ((C.Y * inv C.Z : Int) : Fp) = q.y := by
    rw [Int.cast_mul, cast_inv, y, mul_assoc, mul_inv_cancel₀ z, mul_one]
  simp only [compress, toNat_mod first, toNat_mod second, encode]

def pointNumber (q : Curve) : Nat := q.y.val + q.x.val % 2 * 2 ^ 255

theorem encode_eq (q : Curve) : encode q = toBytes (pointNumber q) 32 := by
  have bound : q.y.val < 2 ^ 255 := (val_lt q.y).trans (by decide)
  rw [encode, pointNumber, Nat.or_comm, ← Nat.shiftLeft_add_eq_or_of_lt bound, Nat.shiftLeft_eq, Nat.add_comm]

/-- An integer below `p` whose square is that of a residue: with the parity of the residue it is its value. -/
theorem root_of_parity {x : Int} (range : 0 ≤ x ∧ x < p) {a : Fp} (some : a ≠ 0) (square : (x : Fp) * x = a * a) :
    (if x % 2 ≠ ((a.val % 2 : Nat) : Int) then p - x else x) = a.val := by
  have value : (((a.val : Nat) : Int) : Fp) = a := by rw [Int.cast_natCast, ZMod.natCast_zmod_val]
  have bound : ((a.val : Nat) : Int) < p := p_eq ▸ Int.ofNat_lt.mpr (val_lt a)
  have positive : 0 < ((a.val : Nat) : Int) := by
    have nonzero : a.val ≠ 0 := by rwa [Ne, ZMod.val_eq_zero]
    omega
  have odd : p % 2 = 1 := by decide
  rcases mul_self_eq_mul_self_iff.mp square with same | opposite
  · have equal : x = ((a.val : Nat) : Int) := eq_of_cast range ⟨by omega, bound⟩ (same.trans value.symm)
    rw [if_neg (by omega), equal]
  · have equal : x = p - ((a.val : Nat) : Int) := by
      refine eq_of_cast range ⟨by omega, by omega⟩ ?_
      have zero : ((p : Int) : Fp) = 0 := (cast_zero_iff p).mpr (Int.emod_self)
      rw [opposite, Int.cast_sub, zero, value, zero_sub]
    rw [if_pos (by omega), equal]
    omega

theorem candidate_root {x2 : Int} {a : Fp} (some : a ≠ 0) (square : (x2 : Fp) = a * a) :
    let first := pow x2 ((p + 3) / 8).toNat
    let x := if (first * first - x2) % p ≠ 0 then first * sqrtM1 % p else first
    (0 ≤ x ∧ x < p) ∧ (x : Fp) * x = a * a := by
  intro first x
  have fourth : ((first : Fp) * first) * (first * first) = (a * a) * (a * a) := by
    have unit : a ^ (P - 1) = 1 := ZMod.pow_card_sub_one_eq_one some
    have exponent : ((p + 3) / 8).toNat = (P + 3) / 8 := rfl
    have whole : 2 * ((P + 3) / 8 * 4) = P - 1 + 4 := by decide +kernel
    calc ((first : Fp) * first) * (first * first) = (first : Fp) ^ 4 := by ring
      _ = a ^ (2 * ((P + 3) / 8 * 4)) := by
        rw [cast_pow, square, exponent, ← pow_mul, ← pow_two, ← pow_mul]
      _ = (a * a) * (a * a) := by
        rw [whole, pow_add, unit]
        ring
  have test : (first * first - x2) % p = 0 ↔ (first : Fp) * first = a * a := by
    rw [← cast_zero_iff, Int.cast_sub, Int.cast_mul, square, sub_eq_zero]
  by_cases good : (first * first - x2) % p = 0
  · have chosen : x = first := if_neg (not_not_intro good)
    rw [chosen]
    exact ⟨pow_range x2 _, test.mp good⟩
  · have chosen : x = first * sqrtM1 % p := if_pos good
    have opposite : (first : Fp) * first = -(a * a) :=
      (mul_self_eq_mul_self_iff.mp fourth).resolve_left (fun same => good (test.mpr same))
    rw [chosen, cast_mod, Int.cast_mul]
    refine ⟨⟨Int.emod_nonneg _ (by decide), Int.emod_lt_of_pos _ (by decide)⟩, ?_⟩
    linear_combination ((sqrtM1 : Int) : Fp) * sqrtM1 * opposite - a * a * sqrtM1_square

theorem recoverX_eq (q : Curve) : recoverX (q.y.val : Nat) (q.x.val % 2 : Nat) = some ((q.x.val : Nat) : Int) := by
  have value : ((((q.y.val : Nat) : Int)) : Fp) = q.y := by rw [Int.cast_natCast, ZMod.natCast_zmod_val]
  have bound : ((q.y.val : Nat) : Int) < p := p_eq ▸ Int.ofNat_lt.mpr (val_lt q.y)
  have square : (((((q.y.val : Nat) : Int) * (q.y.val : Nat) - 1) *
      inv (d * (q.y.val : Nat) * (q.y.val : Nat) + 1) % p : Int) : Fp) = q.x * q.x := by
    have on := q.on
    have solvable := Point.solvable (d : Fp) q.y
    simp only [OnCurve] at on
    simp only [cast_mod, Int.cast_mul, Int.cast_sub, Int.cast_one, cast_inv, Int.cast_add, value]
    rw [← div_eq_mul_inv, div_eq_iff (by convert solvable using 1; ring)]
    linear_combination on
  rw [recoverX, if_neg (not_le.mpr bound)]
  extract_lets x2 first x
  have same : (x2 : Fp) = q.x * q.x := square
  have range : 0 ≤ x2 ∧ x2 < p := ⟨Int.emod_nonneg _ (by decide), Int.emod_lt_of_pos _ (by decide)⟩
  by_cases zero : q.x = 0
  · have none : x2 = 0 := eq_of_cast range (by decide) (by rw [same, zero, mul_zero, Int.cast_zero])
    rw [if_pos none, zero]
    simp
  · have some : x2 ≠ 0 := by
      intro none
      rw [none, Int.cast_zero] at same
      exact zero (mul_self_eq_zero.mp same.symm)
    obtain ⟨within, root⟩ := candidate_root zero same
    have passes : (x * x - x2) % p = 0 := by
      rw [← cast_zero_iff, Int.cast_sub, Int.cast_mul, same]
      exact sub_eq_zero.mpr root
    rw [if_neg some, if_neg (not_not_intro passes)]
    exact congrArg Option.some (root_of_parity within zero root)

theorem length_encode (q : Curve) : (encode q).length = 32 := length_toBytes _ 32

theorem decompress_encode (q : Curve) : ∃ C, decompress (encode q) = some C ∧ Rep C q := by
  have bound : q.y.val < 2 ^ 255 := (val_lt q.y).trans (by decide)
  have number : fromBytes (encode q) = pointNumber q := by
    rw [encode_eq]
    exact fromBytes_toBytes (by rw [pointNumber]; omega)
  have sign : pointNumber q / 2 ^ 255 % 2 = q.x.val % 2 := by
    rw [pointNumber]
    omega
  have low : pointNumber q % 2 ^ 255 = q.y.val := by
    rw [pointNumber]
    omega
  refine ⟨⟨(q.x.val : Nat), (q.y.val : Nat), 1, (q.x.val : Nat) * (q.y.val : Nat) % p⟩, ?_, ?_⟩
  · rw [decompress, if_neg (not_not_intro (length_encode q))]
    simp only [number, sign, low, recoverX_eq]
    rfl
  · constructor <;> simp

theorem Rep.unique {C : Coordinates} {q r : Curve} (first : Rep C q) (second : Rep C r) : q = r :=
  (pointEqual_iff first second).mp ((pointEqual_iff first first).mpr rfl)

theorem encode_injective : Function.Injective encode := by
  intro q r same
  obtain ⟨C, read, rep⟩ := decompress_encode q
  obtain ⟨D, again, rep'⟩ := decompress_encode r
  rw [same, again] at read
  obtain rfl := Option.some.inj read
  exact rep.unique rep'

theorem decompressChecked_encode {q : Curve} (large : 8 • q ≠ 0) :
    ∃ C, decompressChecked (encode q) = some C ∧ Rep C q := by
  obtain ⟨C, read, rep⟩ := decompress_encode q
  refine ⟨C, ?_, rep⟩
  have small : isSmallOrder C = false := by
    rw [← Bool.not_eq_true, isSmallOrder_iff rep]
    exact large
  rw [decompressChecked, read, Option.filter_some, small]
  rfl

theorem recoverX_on {y sign x : Int} (found : recoverX y sign = some x) : OnCurve (d : Fp) x y := by
  have square : (((y * y - 1) * inv (d * y * y + 1) % p : Int) : Fp) * (1 + d * (y * y)) = y * y - 1 := by
    have solvable := Point.solvable (d : Fp) (y : Fp)
    have order : ((d * y * y + 1 : Int) : Fp) = 1 + d * (y * y) := by
      push_cast
      ring
    rw [cast_mod, Int.cast_mul, cast_inv, order, mul_assoc, inv_mul_cancel₀ solvable]
    push_cast
    ring
  have on {x : Int} (root : (x : Fp) * x = ((y * y - 1) * inv (d * y * y + 1) % p : Int)) : OnCurve (d : Fp) x y := by
    rw [← root] at square
    simp only [OnCurve]
    linear_combination -square
  rw [recoverX] at found
  split at found
  · cases found
  · extract_lets x2 first candidate at found
    split at found
    · next none =>
      split at found
      · cases found
      · obtain rfl : 0 = x := Option.some.inj found
        exact on (by change _ = ((x2 : Int) : Fp); rw [none]; simp)
    · split at found
      · cases found
      · next passes =>
        have root : (candidate : Fp) * candidate = (x2 : Int) := by
          have zero := (cast_zero_iff _).mpr (not_not.mp passes)
          push_cast at zero
          exact sub_eq_zero.mp zero
        have chosen := Option.some.inj found
        split at chosen
        · rw [← chosen]
          refine on ?_
          have whole : ((p : Int) : Fp) = 0 := (cast_zero_iff p).mpr Int.emod_self
          rw [Int.cast_sub, whole, zero_sub, neg_mul_neg]
          exact root
        · rw [← chosen]
          exact on root

theorem decompress_rep {s : Bytes} {C : Coordinates} (read : decompress s = some C) : ∃ q, Rep C q := by
  rw [decompress] at read
  split at read
  · cases read
  · obtain ⟨x, found, rfl⟩ := Option.map_eq_some_iff.mp read
    refine ⟨⟨_, _, recoverX_on found⟩, ?_⟩
    constructor <;> simp

end JJDai.Ed25519
