import Mathlib.Data.List.GetD
import JJDai.Lib.Keccak
import JJDai.Primitive.PointBytes

/-! `core.anchoring_xmr`: `keccak256` on lanes, and the sponge it computes. -/

namespace JJDai.Xmr

open PyText Ed25519

def keccakRC : List Nat :=
  [0x0000000000000001, 0x0000000000008082, 0x800000000000808A, 0x8000000080008000, 0x000000000000808B,
    0x0000000080000001, 0x8000000080008081, 0x8000000000008009, 0x000000000000008A, 0x0000000000000088,
    0x0000000080008009, 0x000000008000000A, 0x000000008000808B, 0x800000000000008B, 0x8000000000008089,
    0x8000000000008003, 0x8000000000008002, 0x8000000000000080, 0x000000000000800A, 0x800000008000000A,
    0x8000000080008081, 0x8000000000008080, 0x0000000080000001, 0x8000000080008008]

def keccakRot : List (List Nat) :=
  [[0, 36, 3, 41, 18], [1, 44, 10, 45, 2], [62, 6, 43, 15, 61], [28, 55, 25, 21, 56], [27, 20, 39, 8, 14]]

def mask : Nat := 1 <<< 64 - 1

def rol (x n : Nat) : Nat :=
  let n := n % 64
  (x <<< n ||| x >>> (64 - n)) &&& mask

abbrev Lanes := List (List Nat)

namespace Lanes

def lane (a : Lanes) (x y : Nat) : Nat := (a.getD x []).getD y 0

def setLane (a : Lanes) (x y value : Nat) : Lanes := a.set x ((a.getD x []).set y value)

def build (f : Nat → Nat → Nat) : Lanes := (List.range 5).map fun x => (List.range 5).map (f x)

end Lanes

open Lanes

def theta (a : Lanes) : Lanes :=
  let c := (List.range 5).map fun x => lane a x 0 ^^^ lane a x 1 ^^^ lane a x 2 ^^^ lane a x 3 ^^^ lane a x 4
  let d := (List.range 5).map fun x => c.getD ((x + 4) % 5) 0 ^^^ rol (c.getD ((x + 1) % 5) 0) 1
  build fun x y => lane a x y ^^^ d.getD x 0

def rhoPi (a : Lanes) : Lanes :=
  ((List.range 5).product (List.range 5)).foldl (fun b (x, y) =>
    setLane b y ((2 * x + 3 * y) % 5) (rol (lane a x y) (lane keccakRot x y))) (build fun _ _ => 0)

/-- The bits of the second lane that are not in the first. -/
def andNot (u v : Nat) : Nat := v ^^^ (u &&& v)

def chi (b : Lanes) : Lanes :=
  build fun x y => lane b x y ^^^ andNot (lane b ((x + 1) % 5) y) (lane b ((x + 2) % 5) y)

def iota (rc : Nat) (a : Lanes) : Lanes := setLane a 0 0 (lane a 0 0 ^^^ rc)

def keccakF (a : Lanes) : Lanes := keccakRC.foldl (fun a rc => iota rc (chi (rhoPi (theta a)))) a

def rate : Nat := 136

def padded (data : Bytes) : Bytes :=
  data ++ [0x01] ++ List.replicate ((-(data.length : Int) - 2) % rate).toNat 0 ++ [0x80]

def absorbBlock (a : Lanes) (block : Bytes) : Lanes :=
  (List.range (rate / 8)).foldl (fun a i =>
    setLane a (i % 5) (i / 5) (lane a (i % 5) (i / 5) ^^^ fromBytes ((block.drop (8 * i)).take 8))) a

def absorb : Nat → Bytes → Lanes → Lanes
  | 0, _, a => a
  | blocks + 1, text, a => absorb blocks (text.drop rate) (keccakF (absorbBlock a (text.take rate)))

def digestOf (text : Bytes) : Bytes :=
  let a := absorb (text.length / rate) text (build fun _ _ => 0)
  (List.range 4).flatMap fun i => toBytes (lane a (i % 5) (i / 5)) 8

def keccak256 (data : Bytes) : Bytes := digestOf (padded data)

def Shaped (a : Lanes) : Prop := a.length = 5 ∧ ∀ x < 5, (a.getD x []).length = 5

structure Valid (a : Lanes) : Prop where
  shaped : Shaped a
  bound : ∀ x y : Fin 5, lane a x y < 2 ^ 64

@[simp] theorem lane_build (f : Nat → Nat → Nat) (x y : Fin 5) : lane (build f) x y = f x y := by
  fin_cases x <;> fin_cases y <;> rfl

theorem shaped_build (f : Nat → Nat → Nat) : Shaped (build f) := by
  refine ⟨rfl, fun x inside => ?_⟩
  interval_cases x <;> rfl

section
variable {a : Lanes} (shaped : Shaped a) {x y : Nat} (insideX : x < 5) (insideY : y < 5) (value : Nat)

include shaped insideX

theorem row_setLane (X : Nat) :
    (setLane a x y value).getD X [] = if x = X then (a.getD x []).set y value else a.getD X [] := by
  have length := shaped.1
  simp only [setLane, List.getD_eq_getElem?_getD, List.getElem?_set]
  split
  · next same =>
    subst same
    rw [if_pos (by omega), Option.getD_some]
  · rfl

theorem shaped_setLane : Shaped (setLane a x y value) := by
  refine ⟨(List.length_set ..).trans shaped.1, fun X inside => ?_⟩
  rw [row_setLane shaped insideX]
  split
  · rw [List.length_set]
    exact shaped.2 x insideX
  · exact shaped.2 X inside

include insideY

theorem lane_setLane (X Y : Nat) :
    lane (setLane a x y value) X Y = if x = X ∧ y = Y then value else lane a X Y := by
  have length := shaped.2 x insideX
  rw [lane, row_setLane shaped insideX]
  by_cases row : x = X
  · subst row
    by_cases column : y = Y
    · subst column
      rw [if_pos rfl, if_pos ⟨rfl, rfl⟩, List.getD_eq_getElem?_getD, List.getElem?_set_self (by omega),
        Option.getD_some]
    · rw [if_pos rfl, if_neg (fun both => column both.2), List.getD_eq_getElem?_getD, List.getElem?_set_ne column,
        ← List.getD_eq_getElem?_getD, lane]
  · rw [if_neg row, if_neg (fun both => row both.1), lane]

end

theorem foldl_setLane {item : Type} (items : List item) (x y : item → Nat) (f : item → Nat → Nat)
    (inside : ∀ i ∈ items, x i < 5 ∧ y i < 5) (once : items.Pairwise fun i j => ¬(x i = x j ∧ y i = y j))
    {a : Lanes} (shaped : Shaped a) :
    let out := items.foldl (fun a i => setLane a (x i) (y i) (f i (lane a (x i) (y i)))) a
    Shaped out ∧ (∀ i ∈ items, lane out (x i) (y i) = f i (lane a (x i) (y i))) ∧
      ∀ X Y, (∀ i ∈ items, ¬(x i = X ∧ y i = Y)) → lane out X Y = lane a X Y := by
  induction items generalizing a with
  | nil => exact ⟨shaped, by simp, fun _ _ _ => rfl⟩
  | cons i rest ih =>
    obtain ⟨insideX, insideY⟩ := inside i List.mem_cons_self
    obtain ⟨apart, once⟩ := List.pairwise_cons.mp once
    have written := lane_setLane shaped insideX insideY (f i (lane a (x i) (y i)))
    obtain ⟨shape, values, others⟩ := ih (fun j member => inside j (List.mem_cons_of_mem i member)) once
      (shaped_setLane shaped insideX (y := y i) (f i (lane a (x i) (y i))))
    refine ⟨shape, ?_, ?_⟩
    · intro j member
      rcases List.mem_cons.mp member with rfl | later
      · exact (others _ _ (fun k member same => apart k member ⟨same.1.symm, same.2.symm⟩)).trans
          ((written _ _).trans (if_pos ⟨rfl, rfl⟩))
      · exact (values j later).trans (congrArg (f j) ((written _ _).trans (if_neg (apart j later))))
    · intro X Y away
      exact (others X Y (fun k member => away k (List.mem_cons_of_mem i member))).trans
        ((written _ _).trans (if_neg (away i List.mem_cons_self)))

def bitState (a : Lanes) : Keccak.State := fun x y z => (lane a x y).testBit z

theorem mask_testBit (z : Fin 64) : mask.testBit z = true := by
  rw [show mask = 2 ^ 64 - 1 from rfl, Nat.testBit_two_pow_sub_one]
  exact decide_eq_true z.isLt

theorem rol_lt (x n : Nat) : rol x n < 2 ^ 64 := by
  exact lt_of_le_of_lt Nat.and_le_right (by decide)

theorem testBit_rol {x : Nat} (bound : x < 2 ^ 64) (n : Nat) (z : Fin 64) :
    (rol x n).testBit z = x.testBit (z - Fin.ofNat 64 n : Fin 64) := by
  have place : (z - Fin.ofNat 64 n : Fin 64).val = (64 - n % 64 + z) % 64 := by rw [Fin.sub_def, Fin.val_ofNat]
  have below := z.isLt
  rw [rol, Nat.testBit_and, mask_testBit, Bool.and_true, Nat.testBit_or, Nat.testBit_shiftLeft, Nat.testBit_shiftRight,
    place]
  by_cases left : n % 64 ≤ z
  · have out : x.testBit (64 - n % 64 + z) = false :=
      Nat.testBit_lt_two_pow (lt_of_lt_of_le bound (Nat.pow_le_pow_right (by decide) (by omega)))
    rw [out, Bool.or_false, decide_eq_true left, Bool.true_and,
      show (64 - n % 64 + z) % 64 = z - n % 64 by omega]
  · rw [decide_eq_false left, Bool.false_and, Bool.false_or, Nat.mod_eq_of_lt (a := 64 - n % 64 + z) (by omega)]

section
variable {a : Lanes} (valid : Valid a)

include valid

theorem theta_bits : bitState (theta a) = Keccak.theta (bitState a) ∧ Valid (theta a) := by
  let c (x : Fin 5) := lane a x 0 ^^^ lane a x 1 ^^^ lane a x 2 ^^^ lane a x 3 ^^^ lane a x 4
  have bound := valid.bound
  have column (x : Fin 5) : c x < 2 ^ 64 :=
    Nat.xor_lt_two_pow (Nat.xor_lt_two_pow (Nat.xor_lt_two_pow (Nat.xor_lt_two_pow (bound x 0) (bound x 1))
      (bound x 2)) (bound x 3)) (bound x 4)
  have value (x y : Fin 5) : lane (theta a) x y = lane a x y ^^^ (c (x - 1) ^^^ rol (c (x + 1)) 1) := by
    rw [theta, lane_build]
    fin_cases x <;> rfl
  refine ⟨?_, shaped_build _, ?_⟩
  · funext x y z
    simp only [bitState, value, Nat.testBit_xor, testBit_rol (column _), c]
    rfl
  · intro x y
    rw [value]
    exact Nat.xor_lt_two_pow (bound x y) (Nat.xor_lt_two_pow (column _) (rol_lt _ _))

theorem rhoPi_bits : bitState (rhoPi a) = Keccak.pi (Keccak.rho (bitState a)) ∧ Valid (rhoPi a) := by
  have offsets : ∀ x y : Fin 5, Fin.ofNat 64 (lane keccakRot x y) = Fin.ofNat 64 (Keccak.offset x y) := by decide
  have places : ∀ x y : Fin 5, ((x + 3 * y : Fin 5).val, x.val) ∈ (List.range 5).product (List.range 5) ∧
      (2 * (x + 3 * y : Fin 5).val + 3 * x.val) % 5 = y := by decide
  obtain ⟨shaped, values, _⟩ := foldl_setLane ((List.range 5).product (List.range 5)) (fun i => i.2)
    (fun i => (2 * i.1 + 3 * i.2) % 5) (fun i _ => rol (lane a i.1 i.2) (lane keccakRot i.1 i.2)) (by decide)
    (by decide) (shaped_build fun _ _ => 0)
  have value (x y : Fin 5) : lane (rhoPi a) x y =
      rol (lane a (x + 3 * y : Fin 5) x) (lane keccakRot (x + 3 * y : Fin 5) x) := by
    have written := values _ (places x y).1
    rwa [(places x y).2] at written
  refine ⟨?_, shaped, ?_⟩
  · funext x y z
    simp only [bitState, value, testBit_rol (valid.bound _ _), offsets]
    rfl
  · intro x y
    rw [value]
    exact rol_lt _ _

theorem chi_bits : bitState (chi a) = Keccak.chi (bitState a) ∧ Valid (chi a) := by
  have bound := valid.bound
  have next : ∀ x : Fin 5, (x.val + 1) % 5 = (x + 1 : Fin 5) ∧ (x.val + 2) % 5 = (x + 2 : Fin 5) := by decide
  have value (x y : Fin 5) : lane (chi a) x y =
      lane a x y ^^^ andNot (lane a (x + 1 : Fin 5) y) (lane a (x + 2 : Fin 5) y) := by
    rw [chi, lane_build, (next x).1, (next x).2]
  refine ⟨?_, shaped_build _, ?_⟩
  · funext x y z
    simp only [bitState, value, andNot, Nat.testBit_xor, Nat.testBit_and, Keccak.chi]
    generalize (lane a (x + 1 : Fin 5) y).testBit z = u
    cases u <;> simp
  · intro x y
    rw [value]
    exact Nat.xor_lt_two_pow (bound x y)
      (Nat.xor_lt_two_pow (bound _ y) (lt_of_le_of_lt Nat.and_le_right (bound _ y)))

theorem iota_bits {rc : Nat} (small : rc < 2 ^ 64) {index : Nat}
    (constant : ∀ z : Fin 64, rc.testBit z = Keccak.roundConstant index z) :
    bitState (iota rc a) = Keccak.iota index (bitState a) ∧ Valid (iota rc a) := by
  have value (x y : Fin 5) : lane (iota rc a) x y = if x = 0 ∧ y = 0 then lane a x y ^^^ rc else lane a x y := by
    have corner : ((0 = x.val ∧ 0 = y.val) : Prop) ↔ x = 0 ∧ y = 0 := by
      rw [Fin.ext_iff, Fin.ext_iff, eq_comm, @eq_comm _ 0 y.val]
      rfl
    rw [iota, lane_setLane valid.shaped (by decide) (by decide)]
    simp only [corner]
    split
    · next same => rw [same.1, same.2]; rfl
    · rfl
  refine ⟨?_, shaped_setLane valid.shaped (by decide) _, ?_⟩
  · funext x y z
    simp only [bitState, value, Keccak.iota]
    split
    · rw [Nat.testBit_xor, constant]
    · rfl
  · intro x y
    rw [value]
    split
    · exact Nat.xor_lt_two_pow (valid.bound x y) small
    · exact valid.bound x y

end

theorem round_bits {a : Lanes} (valid : Valid a) {index : Nat} (inside : index < 24) :
    let next := iota (keccakRC.getD index 0) (chi (rhoPi (theta a)))
    bitState next = Keccak.round (bitState a) index ∧ Valid next := by
  have constants : ∀ index < 24, keccakRC.getD index 0 < 2 ^ 64 ∧
      ∀ z : Fin 64, (keccakRC.getD index 0).testBit z = Keccak.roundConstant index z := by decide +kernel
  obtain ⟨small, constant⟩ := constants index inside
  obtain ⟨first, valid⟩ := theta_bits valid
  obtain ⟨second, valid⟩ := rhoPi_bits valid
  obtain ⟨third, valid⟩ := chi_bits valid
  obtain ⟨last, valid⟩ := iota_bits valid small constant
  refine ⟨?_, valid⟩
  rw [last, third, second, first, Keccak.round]

theorem keccakF_bits {a : Lanes} (valid : Valid a) :
    bitState (keccakF a) = Keccak.permutation (bitState a) ∧ Valid (keccakF a) := by
  have table : keccakRC = (List.range 24).map fun index => keccakRC.getD index 0 := by decide
  rw [keccakF, table, List.foldl_map, Keccak.permutation]
  have inside : ∀ index ∈ List.range 24, index < 24 := fun index => List.mem_range.mp
  generalize List.range 24 = indexes at inside ⊢
  induction indexes generalizing a with
  | nil => exact ⟨rfl, valid⟩
  | cons index rest ih =>
    obtain ⟨step, valid⟩ := round_bits valid (inside index List.mem_cons_self)
    obtain ⟨later, valid⟩ := ih valid (fun next member => inside next (List.mem_cons_of_mem index member))
    rw [List.foldl_cons, List.foldl_cons, ← step]
    exact ⟨later, valid⟩

/-- The bits of each byte, the lowest one first. -/
def toBits (data : Bytes) : List Bool := data.flatMap fun b => (List.range 8).map b.toNat.testBit

@[simp] theorem length_toBits (data : Bytes) : (toBits data).length = 8 * data.length := by
  simp [toBits, List.length_flatMap, Nat.mul_comm]

theorem toBits_append (first second : Bytes) : toBits (first ++ second) = toBits first ++ toBits second :=
  List.flatMap_append

theorem toBits_cons (b : UInt8) (rest : Bytes) :
    toBits (b :: rest) = (List.range 8).map b.toNat.testBit ++ toBits rest := rfl

theorem toBits_cut (count : Nat) (data : Bytes) :
    toBits (data.take count) = (toBits data).take (8 * count) ∧
      toBits (data.drop count) = (toBits data).drop (8 * count) := by
  rcases Nat.le_total count data.length with within | beyond
  · have split := toBits_append (data.take count) (data.drop count)
    rw [List.take_append_drop] at split
    have length : (toBits (data.take count)).length = 8 * count := by
      rw [length_toBits, List.length_take, Nat.min_eq_left within]
    rw [split, List.take_left' length, List.drop_left' length]
    exact ⟨rfl, rfl⟩
  · have short : (toBits data).length ≤ 8 * count := by
      rw [length_toBits]
      omega
    rw [List.take_of_length_le beyond, List.drop_of_length_le beyond, List.take_of_length_le short,
      List.drop_of_length_le short]
    exact ⟨rfl, rfl⟩

theorem testBit_fromBytes (data : Bytes) (z : Nat) : (fromBytes data).testBit z = (toBits data).getD z false := by
  induction data generalizing z with
  | nil => simp [fromBytes, toBits]
  | cons b rest ih =>
    have byte : b.toNat < 2 ^ 8 := b.toNat_lt
    have split : fromBytes (b :: rest) = 2 ^ 8 * fromBytes rest + b.toNat := by
      rw [fromBytes, List.foldr_cons, ← fromBytes]
      omega
    rw [split, Nat.testBit_two_pow_mul_add _ byte, ih, toBits_cons]
    split
    · next low =>
      rw [List.getD_append _ _ _ _ (by simpa using low)]
      simp [List.getD_eq_getElem?_getD, low]
    · next high =>
      rw [List.getD_append_right _ _ _ _ (by simpa using high)]
      simp

theorem toBits_toBytes (n length : Nat) : toBits (toBytes n length) = (List.range (8 * length)).map n.testBit := by
  induction length generalizing n with
  | zero => rfl
  | succ length ih =>
    have low : (List.range 8).map (UInt8.ofNat n).toNat.testBit = (List.range 8).map n.testBit := by
      refine List.map_congr_left fun z member => ?_
      have small : z < 8 := List.mem_range.mp member
      rw [UInt8.toNat_ofNat', Nat.testBit_mod_two_pow, decide_eq_true small, Bool.true_and]
    rw [toBytes_succ, toBits_cons, ih, low, show 8 * (length + 1) = 8 + 8 * length by ring,
      List.range_add, List.map_append, List.map_map]
    congr 1
    refine List.map_congr_left fun z _ => ?_
    rw [show n / 256 = n / 2 ^ 8 from rfl, Nat.testBit_div_two_pow, Function.comp_apply]
    congr 1
    omega

theorem absorbBlock_bits {a : Lanes} (valid : Valid a) {block : Bytes} (full : block.length = rate) :
    bitState (absorbBlock a block) = Keccak.addBlock (toBits block) (bitState a) ∧ Valid (absorbBlock a block) := by
  obtain ⟨shaped, values, others⟩ := foldl_setLane (List.range (rate / 8)) (fun i => i % 5) (fun i => i / 5)
    (fun i v => v ^^^ fromBytes ((block.drop (8 * i)).take 8)) (by decide) (by decide) valid.shaped
  have word (i : Nat) : fromBytes ((block.drop (8 * i)).take 8) < 2 ^ 64 := by
    have short : ((block.drop (8 * i)).take 8).length ≤ 8 := by
      rw [List.length_take]
      exact Nat.min_le_left _ _
    exact lt_of_lt_of_le (fromBytes_lt _) (show 256 ^ _ ≤ 256 ^ 8 from Nat.pow_le_pow_right (by decide) short)
  have value (x y : Fin 5) : lane (absorbBlock a block) x y =
      if 5 * y.val + x.val < 17 then lane a x y ^^^ fromBytes ((block.drop (8 * (5 * y.val + x.val))).take 8)
      else lane a x y := by
    have column : (5 * y.val + x.val) % 5 = x := by omega
    have row : (5 * y.val + x.val) / 5 = y := by omega
    split
    · next inside =>
      have written := values (5 * y.val + x.val) (List.mem_range.mpr inside)
      rwa [column, row] at written
    · next outside =>
      refine others x y fun i member same => outside ?_
      have small : i < 17 := List.mem_range.mp member
      omega
  refine ⟨?_, shaped, ?_⟩
  · funext x y z
    have below := z.isLt
    rw [bitState, value, Keccak.addBlock, bitState]
    split
    · rw [Nat.testBit_xor, testBit_fromBytes, (toBits_cut _ _).1, (toBits_cut _ _).2, List.getD_eq_getElem?_getD,
        List.getElem?_take_of_lt (by omega), List.getElem?_drop, ← List.getD_eq_getElem?_getD]
      congr 2
      ring
    · next outside =>
      have beyond : (toBits block).length ≤ 64 * (5 * y.val + x.val) + z := by
        rw [length_toBits, full, rate]
        omega
      rw [List.getD_eq_default _ _ beyond, Bool.xor_false]
  · intro x y
    rw [value]
    split
    · exact Nat.xor_lt_two_pow (valid.bound x y) (word _)
    · exact valid.bound x y

theorem absorb_bits {blocks : Nat} {text : Bytes} (full : text.length = rate * blocks) {a : Lanes} (valid : Valid a) :
    bitState (absorb blocks text a) = Keccak.absorb 1088 blocks (toBits text) (bitState a) ∧
      Valid (absorb blocks text a) := by
  induction blocks generalizing text a with
  | zero => exact ⟨rfl, valid⟩
  | succ blocks ih =>
    rw [Nat.mul_succ] at full
    have front : (text.take rate).length = rate := by
      rw [List.length_take]
      omega
    have back : (text.drop rate).length = rate * blocks := by
      rw [List.length_drop]
      omega
    obtain ⟨added, valid⟩ := absorbBlock_bits valid front
    obtain ⟨permuted, valid⟩ := keccakF_bits valid
    obtain ⟨later, valid⟩ := ih back valid
    refine ⟨?_, valid⟩
    rw [absorb, later, permuted, added, (toBits_cut _ _).1, (toBits_cut _ _).2, Keccak.absorb, rate]

theorem flatMap_range {item : Type} (rows columns : Nat) (f : Nat → Nat → item) :
    ((List.range rows).flatMap fun i => (List.range columns).map (f i)) =
      (List.range (rows * columns)).map fun j => f (j / columns) (j % columns) := by
  induction rows with
  | zero => simp
  | succ rows ih =>
    rw [List.range_succ, List.flatMap_append, ih, List.flatMap_singleton, Nat.succ_mul, List.range_add,
      List.map_append, List.map_map]
    congr 1
    refine List.map_congr_left fun k member => ?_
    have small : k < columns := List.mem_range.mp member
    rw [Function.comp_apply, Nat.mul_comm, Nat.mul_add_div (by omega), Nat.div_eq_of_lt small, Nat.add_zero,
      Nat.mul_add_mod, Nat.mod_eq_of_lt small]

theorem toBits_lanes (a : Lanes) :
    toBits ((List.range 4).flatMap fun i => toBytes (lane a (i % 5) (i / 5)) 8) =
      (Keccak.bits (bitState a)).take 256 := by
  have words : toBits ((List.range 4).flatMap fun i => toBytes (lane a (i % 5) (i / 5)) 8) =
      (List.range 4).flatMap fun i => (List.range 64).map (lane a (i % 5) (i / 5)).testBit := by
    rw [toBits, List.flatMap_assoc]
    exact List.flatMap_congr fun i _ => toBits_toBytes _ 8
  rw [words, flatMap_range, Keccak.bits, ← List.map_take, List.take_range]
  refine List.map_congr_left fun j member => ?_
  have small : j < 256 := List.mem_range.mp member
  rw [bitState, Fin.val_ofNat, Fin.val_ofNat, Fin.val_ofNat, show j / 320 % 5 = j / 64 / 5 by omega]

theorem digestOf_bits {text data : Bytes}
    (padding : toBits text = toBits data ++ Keccak.pad 1088 (toBits data).length) :
    toBits (digestOf text) = Keccak.sponge 1088 (toBits data) 256 := by
  have whole : rate ∣ text.length := by
    have length := congrArg List.length padding
    rw [List.length_append, length_toBits, length_toBits, Keccak.pad] at length
    simp only [List.length_append, List.length_replicate, List.length_singleton] at length
    rw [rate]
    omega
  have empty : Valid (build fun _ _ => 0) := ⟨shaped_build _, fun x y => by rw [lane_build]; decide⟩
  have start : bitState (build fun _ _ => 0) = fun _ _ _ => false := by
    funext x y z
    rw [bitState, lane_build, Nat.zero_testBit]
  obtain ⟨absorbed, _⟩ := absorb_bits (Nat.mul_div_cancel' whole).symm empty
  have blocks : (toBits text).length / 1088 = text.length / rate := by
    rw [length_toBits, rate]
    omega
  rw [Keccak.sponge, ← padding, blocks, ← start, ← absorbed, digestOf, toBits_lanes]
  simp only [Keccak.squeeze, Nat.reduceAdd, Nat.reduceDiv, Nat.reduceSub, List.append_nil, List.take_take]
  rfl

theorem toBits_padded (data : Bytes) :
    toBits (padded data) = toBits data ++
      ([true] ++ List.replicate (8 * ((-(data.length : Int) - 2) % rate).toNat + 14) false ++ [true]) := by
  have zeros (count : Nat) : toBits (List.replicate count 0) = List.replicate (8 * count) false := by
    induction count with
    | zero => rfl
    | succ count ih =>
      rw [List.replicate_succ, toBits_cons, ih, Nat.mul_succ, Nat.add_comm, List.replicate_add]
      rfl
  have first : toBits [0x01] = [true] ++ List.replicate 7 false := by decide
  have last : toBits [0x80] = List.replicate 7 false ++ [true] := by decide
  have count (n : Nat) : 8 * n + 14 = 7 + 8 * n + 7 := by omega
  rw [padded, toBits_append, toBits_append, toBits_append, first, last, zeros, count, List.replicate_add,
    List.replicate_add]
  simp only [List.append_assoc]

/-- The code writes the padding of the sponge unless a single byte would have to hold both of its ends. -/
theorem padded_iff (data : Bytes) :
    toBits (padded data) = toBits data ++ Keccak.pad 1088 (toBits data).length ↔ data.length % 136 ≠ 135 := by
  rw [toBits_padded, List.append_cancel_left_eq, Keccak.pad, length_toBits, rate]
  constructor
  · intro same
    have length := congrArg List.length same
    simp only [List.length_append, List.length_replicate, List.length_singleton] at length
    omega
  · intro apart
    congr 3
    omega

/-- The padding is that of the sponge unless one byte would have to hold both of its ends, and with it the digest is. -/
theorem keccak256_sponge (data : Bytes) :
    (toBits (padded data) = toBits data ++ Keccak.pad 1088 (toBits data).length ↔ data.length % 136 ≠ 135) ∧
      (data.length % 136 ≠ 135 → toBits (keccak256 data) = Keccak.sponge 1088 (toBits data) 256) :=
  ⟨padded_iff data, fun apart => digestOf_bits ((padded_iff data).mpr apart)⟩

theorem keccak256_sponge_empty : toBits (keccak256 []) = Keccak.sponge 1088 [] 256 :=
  (keccak256_sponge []).2 (by decide)

/-- Of 135 zero bytes another text is hashed, a block longer. -/
theorem keccak256_not_sponge :
    toBits (keccak256 (List.replicate 135 0)) ≠ Keccak.sponge 1088 (toBits (List.replicate 135 0)) 256 := by
  have padding : toBits (List.replicate 135 0 ++ [0x81]) =
      toBits (List.replicate 135 0) ++ Keccak.pad 1088 (toBits (List.replicate 135 0)).length := by decide +kernel
  rw [← digestOf_bits padding]
  decide +kernel

end JJDai.Xmr
