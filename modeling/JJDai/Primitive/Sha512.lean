import JJDai.Primitive.Ed25519

/-! SHA-512 itself, on words below `2 ^ 64`; the constants are fractional parts of roots of the first primes. -/

namespace JJDai.Ed25519

open PyText

/-- The largest number with so many bits whose power is at most `n`, given its upper bits. -/
def rootFrom (power n : Nat) : Nat → Nat → Nat
  | 0, upper => upper
  | bit + 1, upper => rootFrom power n bit (if (upper + 2 ^ bit) ^ power ≤ n then upper + 2 ^ bit else upper)

def firstPrimes : List Nat :=
  [2, 3, 5, 7, 11, 13, 17, 19, 23, 29, 31, 37, 41, 43, 47, 53, 59, 61, 67, 71, 73, 79, 83, 89, 97, 101, 103, 107, 109,
    113, 127, 131, 137, 139, 149, 151, 157, 163, 167, 173, 179, 181, 191, 193, 197, 199, 211, 223, 227, 229, 233, 239,
    241, 251, 257, 263, 269, 271, 277, 281, 283, 293, 307, 311, 313, 317, 331, 337, 347, 349, 353, 359, 367, 373, 379,
    383, 389, 397, 401, 409]

def fraction (power q : Nat) : Nat := rootFrom power (q * 2 ^ (64 * power)) 70 0 % 2 ^ 64

def rotr (x n : Nat) : Nat := (x >>> n ||| x <<< (64 - n)) % 2 ^ 64

structure Words where
  a : Nat
  b : Nat
  c : Nat
  d : Nat
  e : Nat
  f : Nat
  g : Nat
  h : Nat

def Words.round (s : Words) (constant word : Nat) : Words :=
  let choice := s.g ^^^ (s.e &&& (s.f ^^^ s.g))
  let majority := (s.a &&& s.b) ^^^ (s.a &&& s.c) ^^^ (s.b &&& s.c)
  let first := s.h + (rotr s.e 14 ^^^ rotr s.e 18 ^^^ rotr s.e 41) + choice + constant + word
  let second := (rotr s.a 28 ^^^ rotr s.a 34 ^^^ rotr s.a 39) + majority
  ⟨(first + second) % 2 ^ 64, s.a, s.b, s.c, (s.d + first) % 2 ^ 64, s.e, s.f, s.g⟩

def Words.add (s t : Words) : Words :=
  let sum x y := (x + y) % 2 ^ 64
  ⟨sum s.a t.a, sum s.b t.b, sum s.c t.c, sum s.d t.d, sum s.e t.e, sum s.f t.f, sum s.g t.g, sum s.h t.h⟩

/-- The rounds of a block, with the last sixteen words of its schedule. -/
def rounds : List Nat → List Nat → Words → Words
  | [], _, s => s
  | _, [], s => s
  | constant :: constants, word :: window, s =>
    let at' i := (word :: window).getD i 0
    let early := rotr (at' 1) 1 ^^^ rotr (at' 1) 8 ^^^ (at' 1) >>> 7
    let late := rotr (at' 14) 19 ^^^ rotr (at' 14) 61 ^^^ (at' 14) >>> 6
    let next := (late + at' 9 + early + word) % 2 ^ 64
    rounds constants (window ++ [next]) (s.round constant word)

def bigEndian (data : Bytes) : Nat := data.foldl (fun n b => 256 * n + b.toNat) 0

def blocks : Nat → Bytes → Words → Words
  | 0, _, s => s
  | count + 1, data, s =>
    let window := (List.range 16).map fun i => bigEndian ((data.drop (8 * i)).take 8)
    blocks count (data.drop 128) (s.add (rounds (firstPrimes.map (fraction 3)) window s))

def hashOf (data : Bytes) : Words :=
  let padded := data ++ [0x80] ++ List.replicate ((239 - data.length % 128) % 128) 0 ++
    (toBytes (8 * data.length) 16).reverse
  let start i := fraction 2 (firstPrimes.getD i 0)
  blocks (padded.length / 128) padded ⟨start 0, start 1, start 2, start 3, start 4, start 5, start 6, start 7⟩

def sha512 : Sha512 where
  digest data :=
    let s := hashOf data
    [s.a, s.b, s.c, s.d, s.e, s.f, s.g, s.h].flatMap fun word => (toBytes word 8).reverse
  length_digest data := by simp [toBytes]

end JJDai.Ed25519
