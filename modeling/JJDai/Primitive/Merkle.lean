import JJDai.Lib.HashTreeSound
import JJDai.Lib.HashTreeComplete
import JJDai.Primitive.Crypto
import JJDai.Primitive.Python

/-! `jjdai.merkle`, RFC 6962 part: tree heads, consistency proofs and their
verification, over hex digests as the source keeps them. -/

namespace JJDai.Merkle

open PyText
open HashTree hiding Bytes

variable (crypto : Crypto)

def leaf (b : Bytes) : Str := H_hex crypto (0 :: b)

/-- `_node`: both arguments are decoded from hex, left first. -/
def node (l r : Json) : Py Json := do
  let l ← bytesFromHex l
  let r ← bytesFromHex r
  return .str (H_hex crypto ([1] ++ l ++ r))

def mthRoot (leaves : List Bytes) : Py Json :=
  match leaves with
  | [] => return .str (H_hex crypto [])
  | [b] => return .str (leaf crypto b)
  | first :: second :: rest => do
    let leaves := first :: second :: rest
    let k := split leaves.length
    have lower : 0 < split leaves.length := split_pos (by simp [leaves])
    have upper : split leaves.length < leaves.length := split_lt (by simp [leaves])
    let left ← mthRoot (leaves.take k)
    let right ← mthRoot (leaves.drop k)
    node crypto left right
termination_by leaves.length
decreasing_by
  all_goals simp_all [leaves]; try omega

/-- `_subproof`, called with `0 < m <= len(D)` only; the second branch is the
stop that the other calls do not have. -/
def subproof (m : Nat) (D : List Bytes) (complete : Bool) : Py (List Json) :=
  if m = D.length then
    if complete then return [] else do return [← mthRoot crypto D]
  else if small : D.length < 2 then return []
  else do
    let k := split D.length
    have lower : 0 < split D.length := split_pos (by omega)
    have upper : split D.length < D.length := split_lt (by omega)
    if m ≤ k then
      let front ← subproof m (D.take k) complete
      return front ++ [← mthRoot crypto (D.drop k)]
    else
      let front ← subproof (m - k) (D.drop k) false
      return front ++ [← mthRoot crypto (D.take k)]
termination_by D.length
decreasing_by
  all_goals simp_all; try omega

def consistencyProof (leaves : List Bytes) (m : Int) : Py (List Json) :=
  if 0 < m ∧ m ≤ leaves.length then
    if m = leaves.length then return [] else subproof crypto m.toNat leaves true
  else raise .indexError "consistency: need 0 < m <= n"

/-- `hmac.compare_digest` on two values: ASCII strings only. -/
def hmacEqual (a b : Json) : Py Bool :=
  match a, b with
  | .str a, .str b => if isAscii a && isAscii b then return decide (a = b) else raise .typeError
  | _, _ => raise .typeError

/-- The loop of `verify_consistency` over `path[1:]`; `none` is its `return False`. -/
def verifyLoop (fn sn : Nat) (fr sr : Json) : List Json → Py (Option (Nat × Json × Json))
  | [] => return some (sn, fr, sr)
  | c :: rest =>
    if sn = 0 then return none
    else if fn % 2 = 1 ∨ fn = sn then do
      let fr ← node crypto c fr
      let sr ← node crypto c sr
      let shifted := skipEven fn sn
      verifyLoop (shifted.1 / 2) (shifted.2 / 2) fr sr rest
    else do
      let sr ← node crypto sr c
      verifyLoop (fn / 2) (sn / 2) fr sr rest

/-- `sn == 0 and hmac_equal(fr, root_m) and hmac_equal(sr, root_n)`. -/
def verifyEnd (rootM rootN : Json) : Option (Nat × Json × Json) → Py Bool
  | none => return false
  | some (sn, fr, sr) =>
    if sn = 0 then do
      if ← hmacEqual fr rootM then hmacEqual sr rootN else return false
    else return false

def verifyConsistency (m n : Int) (rootM rootN proof : Json) : Py Bool :=
  if m = n then
    if truthy proof then return false else hmacEqual rootM rootN
  else if ¬(0 < m ∧ m < n) then return false
  else do
    let path ← pyList proof
    let path := if isPow2 m.toNat then rootM :: path else path
    match path with
    | [] => return false
    | first :: rest =>
      let start := skipOdd (m - 1).toNat (n - 1).toNat
      verifyEnd rootM rootN (← verifyLoop crypto start.1 start.2 first first rest)

end JJDai.Merkle
