import Mathlib.Data.List.Prime
import Mathlib.NumberTheory.LucasPrimality

/-! Powers modulo a number by repeated squaring, and certificates of primes that rest on them. -/

namespace Pratt

/-- `a ^ n % m` for an exponent of at most so many bits. -/
def powBits (m : Nat) : Nat → Nat → Nat → Nat
  | 0, _, _ => 1 % m
  | bits + 1, a, n =>
    let rest := powBits m bits (a * a % m) (n / 2)
    if n % 2 = 0 then rest else a * rest % m

def powMod (a n m : Nat) : Nat := powBits m (n.log2 + 1) a n

theorem powBits_eq (m : Nat) {bits n : Nat} (fits : n < 2 ^ bits) (a : Nat) : powBits m bits a n = a ^ n % m := by
  induction bits generalizing a n with
  | zero =>
    obtain rfl : n = 0 := by simpa using fits
    rfl
  | succ bits ih =>
    have half : n / 2 < 2 ^ bits := by
      rw [pow_succ] at fits
      omega
    have squared : (a * a % m) ^ (n / 2) % m = a ^ (2 * (n / 2)) % m := by
      rw [← Nat.pow_mod, ← pow_two, pow_mul]
    rw [powBits, ih half, squared]
    have split := Nat.div_add_mod n 2
    rcases Nat.mod_two_eq_zero_or_one n with even | odd
    · rw [if_pos even]
      rw [even, add_zero] at split
      rw [split]
    · rw [odd] at split
      rw [if_neg (by omega), Nat.mul_mod_mod, ← pow_succ', split]

theorem powMod_eq (a n m : Nat) : powMod a n m = a ^ n % m := powBits_eq m Nat.lt_log2_self a

/-- A prime with a generator of its units, and the prime factors of their number, each as often as it divides. -/
structure Entry where
  prime : Nat
  generator : Nat
  factors : List Nat

/-- Lucas's test, for an entry whose factors stand among the primes that are known. -/
def Entry.passes (known : List Nat) (entry : Entry) : Bool :=
  2 ≤ entry.prime && entry.factors.all (· ∈ known) && entry.factors.prod == entry.prime - 1 &&
    powMod entry.generator (entry.prime - 1) entry.prime == 1 &&
    entry.factors.all fun q => powMod entry.generator ((entry.prime - 1) / q) entry.prime != 1

/-- The numbers that a certificate adds to those that are known, if each entry passes when its turn comes. -/
def certified : List Nat → List Entry → Option (List Nat)
  | known, [] => some known
  | known, entry :: rest => if entry.passes known then certified (entry.prime :: known) rest else none

theorem power_one_iff {m : Nat} (two : 2 ≤ m) (a n : Nat) : (a : ZMod m) ^ n = 1 ↔ powMod a n m = 1 := by
  rw [powMod_eq, ← Nat.cast_pow, ← Nat.cast_one, ZMod.natCast_eq_natCast_iff', Nat.mod_eq_of_lt two]

theorem Entry.prime_of_passes {known : List Nat} (primes : ∀ q ∈ known, q.Prime) {entry : Entry}
    (passes : entry.passes known) : entry.prime.Prime := by
  simp only [Entry.passes, Bool.and_eq_true, decide_eq_true_eq, List.all_eq_true, beq_iff_eq, bne_iff_ne] at passes
  obtain ⟨⟨⟨⟨two, listed⟩, product⟩, full⟩, proper⟩ := passes
  refine lucas_primality entry.prime (entry.generator : ZMod entry.prime) ((power_one_iff two _ _).mpr full) ?_
  intro q prime divides
  rw [← product, Prime.dvd_prod_iff prime.prime] at divides
  obtain ⟨factor, member, divides⟩ := divides
  obtain rfl := (Nat.prime_dvd_prime_iff_eq prime (primes factor (listed factor member))).mp divides
  rw [Ne, power_one_iff two]
  exact proper q member

theorem prime_of_certified {known : List Nat} (primes : ∀ q ∈ known, q.Prime) {entries : List Entry} {out : List Nat}
    (certifies : certified known entries = some out) : ∀ q ∈ out, q.Prime := by
  induction entries generalizing known with
  | nil =>
    obtain rfl : known = out := Option.some.inj certifies
    exact primes
  | cons entry rest ih =>
    rw [certified] at certifies
    split at certifies
    · next passes => exact ih (List.forall_mem_cons.mpr ⟨entry.prime_of_passes primes passes, primes⟩) certifies
    · cases certifies

theorem prime_of_mem {entries : List Entry} {q : Nat} (member : q ∈ (certified [2] entries).getD []) : q.Prime := by
  cases certifies : certified [2] entries with
  | none => simp [certifies] at member
  | some out =>
    rw [certifies] at member
    exact prime_of_certified (by simp [Nat.prime_two]) certifies q member

end Pratt
