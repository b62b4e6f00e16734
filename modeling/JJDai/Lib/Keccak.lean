import Mathlib.Data.List.Basic
import Mathlib.Data.Fin.Basic
import Mathlib.Tactic

/-! The sponge over Keccak-f[1600], bit by bit: the five steps of a round on the three coordinates of the state, and the
padding rule `10*1`. -/

namespace Keccak

abbrev State := Fin 5 → Fin 5 → Fin 64 → Bool

def theta (A : State) : State :=
  let C x z := A x 0 z ^^ A x 1 z ^^ A x 2 z ^^ A x 3 z ^^ A x 4 z
  fun x y z => A x y z ^^ (C (x - 1) z ^^ C (x + 1) (z - 1))

/-- Where the walk over the lanes stands after so many steps. -/
def walk : Nat → Fin 5 × Fin 5
  | 0 => (1, 0)
  | t + 1 => ((walk t).2, 2 * (walk t).1 + 3 * (walk t).2)

def offset (x y : Fin 5) : Nat :=
  match (List.range 24).find? fun t => walk t = (x, y) with
  | some t => (t + 1) * (t + 2) / 2
  | none => 0

def rho (A : State) : State := fun x y z => A x y (z - Fin.ofNat 64 (offset x y))

def pi (A : State) : State := fun x y z => A (x + 3 * y) x z

def chi (A : State) : State := fun x y z => A x y z ^^ (!A (x + 1) y z && A (x + 2) y z)

/-- The register behind the round constants, after so many steps. -/
def register : Nat → List Bool
  | 0 => [true, false, false, false, false, false, false, false]
  | t + 1 =>
    match register t with
    | [a, b, c, d, e, f, g, h] => [h, a, b, c, d ^^ h, e ^^ h, f ^^ h, g]
    | other => other

def rc (t : Nat) : Bool := (register (t % 255)).headD false

/-- A bit of the constant of a round: those at `2 ^ j - 1` come from the register. -/
def roundConstant (round : Nat) (z : Fin 64) : Bool :=
  match (List.range 7).find? fun j => z.val + 1 = 2 ^ j with
  | some j => rc (j + 7 * round)
  | none => false

def iota (round : Nat) (A : State) : State :=
  fun x y z => if x = 0 ∧ y = 0 then A x y z ^^ roundConstant round z else A x y z

def round (A : State) (index : Nat) : State := iota index (chi (pi (rho (theta A))))

def permutation (A : State) : State := (List.range 24).foldl round A

def bits (A : State) : List Bool :=
  (List.range 1600).map fun i => A (Fin.ofNat 5 (i / 64)) (Fin.ofNat 5 (i / 320)) (Fin.ofNat 64 i)

/-- A block of bits, with zeros behind it, is added to the state. -/
def addBlock (block : List Bool) (A : State) : State :=
  fun x y z => A x y z ^^ block.getD (64 * (5 * y + x) + z) false

/-- One bit, the fewest zeros and another bit that fill up blocks of `rate` bits. -/
def pad (rate length : Nat) : List Bool :=
  [true] ++ List.replicate ((-(length : Int) - 2) % rate).toNat false ++ [true]

def absorb (rate : Nat) : Nat → List Bool → State → State
  | 0, _, A => A
  | blocks + 1, text, A => absorb rate blocks (text.drop rate) (permutation (addBlock (text.take rate) A))

def squeeze (rate : Nat) : Nat → State → List Bool
  | 0, _ => []
  | blocks + 1, A => (bits A).take rate ++ squeeze rate blocks (permutation A)

/-- So many bits of the sponge of a message. -/
def sponge (rate : Nat) (message : List Bool) (length : Nat) : List Bool :=
  let text := message ++ pad rate message.length
  (squeeze rate ((length + rate - 1) / rate) (absorb rate (text.length / rate) text fun _ _ _ => false)).take length

end Keccak
