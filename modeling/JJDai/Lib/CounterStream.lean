import Mathlib.Data.List.Basic
import Mathlib.Tactic

/-! Encryption by exclusive or with a stream of blocks, one for each value of a counter. -/

namespace CounterStream

def xor (a b : List UInt8) : List UInt8 := List.zipWith (· ^^^ ·) a b

theorem xor_xor {a stream : List UInt8} (enough : a.length ≤ stream.length) : xor (xor a stream) stream = a := by
  induction a generalizing stream with
  | nil => rfl
  | cons byte rest ih =>
    cases stream with
    | nil => simp at enough
    | cons mask masks =>
      have later := @ih masks (by simpa using enough)
      have back : byte ^^^ mask ^^^ mask = byte := by rw [UInt8.xor_assoc, UInt8.xor_self, UInt8.xor_zero]
      exact congrArg₂ List.cons back later

theorem length_xor {a stream : List UInt8} (enough : a.length ≤ stream.length) : (xor a stream).length = a.length := by
  rw [xor, List.length_zipWith, min_eq_left enough]

theorem take_xor (a stream : List UInt8) (n : Nat) : (xor a stream).take n = xor (a.take n) (stream.take n) :=
  List.take_zipWith

section
variable (block : Nat → List UInt8) (size : Nat)

def blocks (count : Nat) : List UInt8 := (List.range count).flatMap block

/-- As many bytes as are asked for, out of as many blocks as that takes. -/
def stream (length : Nat) : List UInt8 := (blocks block ((length + (size - 1)) / size)).take length

end

variable {block : Nat → List UInt8} {size : Nat}

theorem length_blocks (sized : ∀ i, (block i).length = size) (count : Nat) :
    (blocks block count).length = count * size := by
  induction count with
  | zero => simp [blocks]
  | succ count ih =>
    rw [blocks, List.range_succ, List.flatMap_append, List.length_append, ← blocks, ih]
    simp [sized, Nat.succ_mul]

theorem blocks_add (few more : Nat) : ∃ rest, blocks block (few + more) = blocks block few ++ rest := by
  refine ⟨((List.range more).map (few + ·)).flatMap block, ?_⟩
  rw [blocks, List.range_add, List.flatMap_append]
  rfl

theorem covers (positive : 0 < size) (length : Nat) : length ≤ (length + (size - 1)) / size * size := by
  have split := Nat.div_add_mod (length + (size - 1)) size
  have small := Nat.mod_lt (length + (size - 1)) positive
  rw [mul_comm] at split
  omega

theorem length_stream (sized : ∀ i, (block i).length = size) (positive : 0 < size) (length : Nat) :
    (stream block size length).length = length := by
  rw [stream, List.length_take, length_blocks sized, min_eq_left (covers positive length)]

theorem take_stream (sized : ∀ i, (block i).length = size) (positive : 0 < size) {short long : Nat} (le : short ≤ long) :
    (stream block size long).take short = stream block size short := by
  have fewer : (short + (size - 1)) / size ≤ (long + (size - 1)) / size :=
    Nat.div_le_div_right (Nat.add_le_add_right le _)
  obtain ⟨more, count⟩ := Nat.exists_eq_add_of_le fewer
  obtain ⟨rest, begins⟩ := @blocks_add block ((short + (size - 1)) / size) more
  have room := covers positive short
  rw [← length_blocks sized] at room
  rw [stream, stream, List.take_take, min_eq_left le, count, begins, List.take_append_of_le_length room]

end CounterStream
