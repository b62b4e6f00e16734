import Mathlib.Data.Nat.Bitwise
import Mathlib.Tactic

/-! Unsigned LEB128 integers as byte strings. -/

namespace Leb128

/-- The bytes write the number: seven bits a byte, the lowest first, and the last byte alone has its
top bit clear. -/
inductive Leb : List UInt8 → Nat → Prop where
  | last {byte : UInt8} (ends : byte.toNat < 128) : Leb [byte] byte.toNat
  | more {byte : UInt8} {bytes : List UInt8} {n : Nat} (goes : 128 ≤ byte.toNat) (rest : Leb bytes n) :
      Leb (byte :: bytes) (byte.toNat - 128 + 128 * n)

/-- An integer of 32 bits, in five bytes at most. -/
def U32 (bytes : List UInt8) (n : Nat) : Prop := Leb bytes n ∧ bytes.length ≤ 5 ∧ n < 2 ^ 32

theorem Leb.length_pos {bytes : List UInt8} {n : Nat} (written : Leb bytes n) : 0 < bytes.length := by
  cases written <;> exact Nat.succ_pos _

theorem Leb.unique {a b x y : List UInt8} {n m : Nat} (one : Leb a n) (two : Leb b m) (same : a ++ x = b ++ y) :
    a = b ∧ n = m ∧ x = y := by
  induction one generalizing b m with
  | last ends =>
    cases two with
    | last => exact ⟨congrArg (· :: []) (List.cons.inj same).1, congrArg _ (List.cons.inj same).1,
        (List.cons.inj same).2⟩
    | more goes rest =>
      obtain rfl := (List.cons.inj same).1
      omega
  | more goes rest ih =>
    cases two with
    | last ends =>
      obtain rfl := (List.cons.inj same).1
      omega
    | more goes' rest' =>
      obtain ⟨rfl, later⟩ := List.cons.inj same
      obtain ⟨rfl, rfl, rfl⟩ := ih rest' later
      exact ⟨rfl, rfl, rfl⟩

theorem low_bits (n : Nat) : n &&& 0x7F = n % 128 := Nat.and_two_pow_sub_one_eq_mod n 7

theorem top_bit (byte : UInt8) : byte.toNat &&& 0x80 = 0 ↔ byte.toNat < 128 := by
  have all : ∀ n < 256, n &&& 0x80 = 0 ↔ n < 128 := by decide +kernel
  exact all _ byte.toNat_lt

theorem or_shift {result n shift : Nat} (below : result < 2 ^ shift) :
    result ||| n <<< shift = result + n * 2 ^ shift := by
  rw [Nat.or_comm, ← Nat.shiftLeft_add_eq_or_of_lt below, Nat.shiftLeft_eq, Nat.add_comm]

theorem or_shift_lt {result n shift : Nat} (below : result < 2 ^ shift) (small : n < 128) :
    result + n * 2 ^ shift < 2 ^ (shift + 7) := by
  have bound : n * 2 ^ shift + 2 ^ shift ≤ 128 * 2 ^ shift := by
    have := Nat.mul_le_mul_right (2 ^ shift) (Nat.succ_le_of_lt small)
    rwa [Nat.succ_mul] at this
  rw [pow_add]
  omega

end Leb128
