import JJDai.Lib.Pratt
import JJDai.Primitive.Python

/-! `jjdai.crypto`: Ed25519 and the VRF over it, with SHA-512 as a parameter. -/

namespace JJDai.Ed25519

open PyText

structure Sha512 where
  digest : Bytes → Bytes
  length_digest : ∀ data, (digest data).length = 64

def fromBytes (data : Bytes) : Nat := data.foldr (fun b n => b.toNat + 256 * n) 0

/-- `int.to_bytes(n, length, "little")` of a number that fits. -/
def toBytes (n length : Nat) : Bytes := (List.range length).map fun i => UInt8.ofNat (n / 256 ^ i)

def p : Int := 2 ^ 255 - 19

def L : Nat := 2 ^ 252 + 27742317777372353535851937790883648493

def pow (x : Int) (e : Nat) : Int := Pratt.powMod (x % p).toNat e p.toNat

def inv (x : Int) : Int := pow x (p - 2).toNat

def d : Int := -121665 * inv 121666 % p

def sqrtM1 : Int := pow 2 ((p - 1) / 4).toNat

/-- Extended homogeneous coordinates: `x = X / Z`, `y = Y / Z`, `x * y = T / Z`. -/
structure Coordinates where
  X : Int
  Y : Int
  Z : Int
  T : Int
  deriving DecidableEq

def pointAdd (P Q : Coordinates) : Coordinates :=
  let A := (P.Y - P.X) * (Q.Y - Q.X) % p
  let B := (P.Y + P.X) * (Q.Y + Q.X) % p
  let C := 2 * P.T * Q.T * d % p
  let D := 2 * P.Z * Q.Z % p
  let E := B - A
  let F := D - C
  let G := D + C
  let H := B + A
  ⟨E * F % p, G * H % p, F * G % p, E * H % p⟩

def identity : Coordinates := ⟨0, 1, 1, 0⟩

/-- The loop of `_point_mul`, for so many rounds. -/
def pointMulFrom : Nat → Nat → Coordinates → Coordinates → Coordinates
  | 0, _, _, Q => Q
  | rounds + 1, s, P, Q =>
    if s = 0 then Q
    else pointMulFrom rounds (s / 2) (pointAdd P P) (if s % 2 = 1 then pointAdd Q P else Q)

def pointMul (s : Nat) (P : Coordinates) : Coordinates := pointMulFrom (s.log2 + 1) s P identity

def pointEqual (P Q : Coordinates) : Bool :=
  (P.X * Q.Z - Q.X * P.Z) % p = 0 && (P.Y * Q.Z - Q.Y * P.Z) % p = 0

def pointNeg (P : Coordinates) : Coordinates := ⟨-P.X % p, P.Y, P.Z, -P.T % p⟩

def recoverX (y sign : Int) : Option Int :=
  if y ≥ p then none
  else
    let x2 := (y * y - 1) * inv (d * y * y + 1) % p
    if x2 = 0 then if sign ≠ 0 then none else some 0
    else
      let first := pow x2 ((p + 3) / 8).toNat
      let x := if (first * first - x2) % p ≠ 0 then first * sqrtM1 % p else first
      if (x * x - x2) % p ≠ 0 then none
      else some (if x % 2 ≠ sign then p - x else x)

def baseY : Int := 4 * inv 5 % p

/-- `_g_x`; the source takes it for granted that there is one. -/
def baseX : Int := (recoverX baseY 0).getD 0

def base : Coordinates := ⟨baseX, baseY, 1, baseX * baseY % p⟩

def compress (P : Coordinates) : Bytes :=
  let zinv := inv P.Z
  let x := P.X * zinv % p
  let y := P.Y * zinv % p
  toBytes (y.toNat ||| (x.toNat % 2) <<< 255) 32

def decompress (s : Bytes) : Option Coordinates :=
  if s.length ≠ 32 then none
  else
    let n := fromBytes s
    let sign : Nat := n / 2 ^ 255 % 2
    let y : Nat := n % 2 ^ 255
    (recoverX y sign).map fun x => ⟨x, y, 1, x * y % p⟩

def isSmallOrder (P : Coordinates) : Bool := pointEqual (pointMul 8 P) identity

def decompressChecked (s : Bytes) : Option Coordinates := (decompress s).filter fun P => !isSmallOrder P

variable (sha512 : Sha512)

def sha512ModL (s : Bytes) : Nat := fromBytes (sha512.digest s) % L

/-- The scalar, clamped, and the prefix of a seed. -/
def secretExpand (seed : Bytes) : Nat × Bytes :=
  let h := sha512.digest seed
  ((fromBytes (h.take 32) &&& (2 ^ 254 - 8)) ||| 2 ^ 254, h.drop 32)

/-- `SigningKey`: the seed, and what it is expanded to. -/
structure SigningKey where
  seed : Bytes
  length_seed : seed.length = 32

namespace SigningKey

variable (sk : SigningKey)

def scalar : Nat := (secretExpand sha512 sk.seed).1

def noncePrefix : Bytes := (secretExpand sha512 sk.seed).2

def publicKey : Bytes := compress (pointMul (sk.scalar sha512) base)

def nonce (msg : Bytes) : Nat := sha512ModL sha512 (sk.noncePrefix sha512 ++ msg)

def sign (msg : Bytes) : Bytes :=
  let r := sk.nonce sha512 msg
  let Rs := compress (pointMul r base)
  let k := sha512ModL sha512 (Rs ++ sk.publicKey sha512 ++ msg)
  let s := (r + k * sk.scalar sha512) % L
  Rs ++ toBytes s 32

end SigningKey

def verify (pub msg sig : Bytes) : Bool :=
  if pub.length ≠ 32 ∨ sig.length ≠ 64 then false
  else
    match decompressChecked pub, decompressChecked (sig.take 32) with
    | some A, some R =>
      let s := fromBytes (sig.drop 32)
      if s ≥ L then false
      else
        let k := sha512ModL sha512 (sig.take 32 ++ pub ++ msg)
        let sB := pointMul s base
        let kA := pointMul k A
        pointEqual (pointMul 8 sB) (pointMul 8 (pointAdd R kA))
    | _, _ => false

def vrfSuite : Bytes := [3]

def vrfTry (pk alpha : Bytes) (ctr : Nat) : Option Coordinates :=
  let hash := (sha512.digest (vrfSuite ++ [1] ++ pk ++ alpha ++ [UInt8.ofNat ctr] ++ [0])).take 32
  match decompress hash with
  | none => none
  | some P =>
    let H := pointMul 8 P
    if pointEqual H identity then none else some H

def vrfEncodeToCurve (pk alpha : Bytes) : Py Coordinates :=
  match (List.range 256).findSome? (vrfTry sha512 pk alpha) with
  | none => raise .valueError "VRF encode_to_curve: ctr overflow"
  | some H => return H

def vrfChallenge (points : List Coordinates) : Nat :=
  fromBytes ((sha512.digest (vrfSuite ++ [2] ++ points.flatMap compress ++ [0])).take 16)

def vrfProve (sk : SigningKey) (alpha : Bytes) : Py Bytes := do
  let x := sk.scalar sha512
  let H ← vrfEncodeToCurve sha512 (sk.publicKey sha512) alpha
  let hString := compress H
  let Gamma := pointMul x H
  let k := fromBytes (sha512.digest (sk.noncePrefix sha512 ++ hString)) % L
  match decompress (sk.publicKey sha512) with
  | none => raise .typeError
  | some Y =>
    let c := vrfChallenge sha512 [Y, H, Gamma, pointMul k base, pointMul k H]
    let s := (k + c * x) % L
    return compress Gamma ++ toBytes c 16 ++ toBytes s 32

def vrfProofToHash (pi : Bytes) : Py Bytes :=
  if pi.length ≠ 80 then raise .valueError "VRF proof must be 80 bytes"
  else
    match decompress (pi.take 32) with
    | none => raise .valueError "VRF proof: invalid Gamma"
    | some Gamma => return sha512.digest (vrfSuite ++ [3] ++ compress (pointMul 8 Gamma) ++ [0])

def vrfVerify (pub alpha proof : Bytes) : Py Bytes :=
  match decompressChecked pub with
  | none => raise .valueError "VRF verify: invalid public key encoding"
  | some Y =>
    if isSmallOrder Y then raise .valueError "VRF verify: small-order public key"
    else if proof.length ≠ 80 then raise .valueError "VRF verify: proof must be 80 bytes"
    else
      match decompress (proof.take 32) with
      | none => raise .valueError "VRF verify: invalid Gamma encoding"
      | some Gamma => do
        let c := fromBytes ((proof.drop 32).take 16)
        let s := fromBytes ((proof.drop 48).take 32)
        if s ≥ L then raise .valueError "VRF verify: s out of range"
        let H ← vrfEncodeToCurve sha512 pub alpha
        let U := pointAdd (pointMul s base) (pointNeg (pointMul c Y))
        let V := pointAdd (pointMul s H) (pointNeg (pointMul c Gamma))
        let c' := vrfChallenge sha512 [Y, H, Gamma, U, V]
        if c ≠ c' then raise .valueError "VRF verify: challenge mismatch"
        vrfProofToHash sha512 proof

end JJDai.Ed25519
