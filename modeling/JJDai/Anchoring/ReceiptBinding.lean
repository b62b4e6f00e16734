import JJDai.Anchoring.Keccak256

/-! `core.anchoring_xmr`: the address that a root derives, and the receipts that bind it. -/

namespace JJDai.Xmr

open PyText Ed25519

def scReduce32 (b : Bytes) : Nat := fromBytes b % L

def scBytes (s : Nat) : Bytes := toBytes s 32

structure Keys where
  spendSec : Str
  viewSec : Str
  spendPub : Str
  viewPub : Str

def keysFromRoot (rootHex : Str) : Py Keys := do
  let root ← bytesFromHex (.str rootHex)
  if root.length ≠ 32 then raise .xmrAnchorError "root must be 32 bytes of hex"
  let bSec := scReduce32 root
  let aSec := scReduce32 (keccak256 (scBytes bSec))
  return {
    spendSec := toHex (scBytes bSec)
    viewSec := toHex (scBytes aSec)
    spendPub := toHex (compress (pointMul bSec base))
    viewPub := toHex (compress (pointMul aSec base))
  }

def b58Alphabet : Str := "123456789ABCDEFGHJKLMNPQRSTUVWXYZabcdefghijkmnopqrstuvwxyz"

/-- The characters of a partial block, by its bytes. -/
def b58EncSizes : List Nat := [0, 2, 3, 5, 6, 7, 9, 10, 11]

def b58Digits : Nat → Nat → Str
  | 0, _ => []
  | count + 1, num => b58Alphabet.getD (num % 58) 0 :: b58Digits count (num / 58)

def b58EncodeBlock (block : Bytes) (outLen : Nat) : Str := (b58Digits outLen (fromBytes block.reverse)).reverse

def base58Xmr (data : Bytes) : Str :=
  (List.range ((data.length + 7) / 8)).flatMap fun i =>
    let block := (data.drop (8 * i)).take 8
    b58EncodeBlock block (if block.length = 8 then 11 else b58EncSizes.getD block.length 0)

/-- `_varint` of a number of so many septets at most. -/
def varintFrom : Nat → Nat → Bytes
  | 0, n => [UInt8.ofNat n]
  | septets + 1, n =>
    if n ≥ 0x80 then UInt8.ofNat (n &&& 0x7F ||| 0x80) :: varintFrom septets (n >>> 7) else [UInt8.ofNat n]

def varint (n : Nat) : Bytes := varintFrom n.log2 n

def networkPrefix : Dict Str Nat := [("mainnet", 18), ("testnet", 53), ("stagenet", 24)]

/-- The prefix of a network, if it is one of the three. -/
def prefixOf (network : Json) : Py Nat :=
  if !hashable network then raise .typeError
  else
    let unknown := raise .xmrAnchorError ("unknown network " ++ reprJson network)
    match network with
    | .str name => ((networkPrefix.get? name).map Except.ok).getD unknown
    | _ => unknown

def xmrAddressFromRoot (rootHex : Str) (network : Json) : Py Str := do
  let netPrefix ← prefixOf network
  let k ← keysFromRoot rootHex
  let spendPub ← bytesFromHex (.str k.spendPub)
  let viewPub ← bytesFromHex (.str k.viewPub)
  let payload := varint netPrefix ++ spendPub ++ viewPub
  let checksum := (keccak256 payload).take 4
  return base58Xmr (payload ++ checksum)

def xmrDerivation : Str := "jjdai-xmr-spendkey-v1"

def verifyReceiptBinding (rootHex : Str) (receipt : Dict Str Json) : Py (Bool × Str) :=
  match xmrAddressFromRoot rootHex ((receipt.get? "network").getD (.str "mainnet")) with
  | .error e => if e.kind = .xmrAnchorError then return (false, e.text) else .error e
  | .ok expect =>
    let derivation := (receipt.get? "derivation").getD .null
    if derivation ≠ .str xmrDerivation then return (false, "unknown derivation " ++ reprJson derivation)
    else if (receipt.get? "address").getD .null ≠ .str expect then
      return (false, "address does not derive from this root")
    else return (true, "ok")

@[simp] theorem length_b58Digits (count num : Nat) : (b58Digits count num).length = count := by
  induction count generalizing num with
  | zero => rfl
  | succ count ih => rw [b58Digits, List.length_cons, ih]

theorem b58Digits_inj {count n m : Nat} (small : n < 58 ^ count) (small' : m < 58 ^ count)
    (same : b58Digits count n = b58Digits count m) : n = m := by
  induction count generalizing n m with
  | zero => omega
  | succ count ih =>
    have letters : ∀ i < 58, ∀ j < 58, b58Alphabet.getD i 0 = b58Alphabet.getD j 0 → i = j := by decide +kernel
    rw [pow_succ] at small small'
    obtain ⟨first, rest⟩ := List.cons.inj same
    have low := letters (n % 58) (Nat.mod_lt _ (by decide)) (m % 58) (Nat.mod_lt _ (by decide)) first
    have high := ih (by omega) (by omega) rest
    omega

theorem b58EncodeBlock_inj {block block' : Bytes} {outLen : Nat} (lengths : block.length = block'.length)
    (room : 256 ^ block.length ≤ 58 ^ outLen) (same : b58EncodeBlock block outLen = b58EncodeBlock block' outLen) :
    block = block' := by
  have bound := fromBytes_lt block.reverse
  have bound' := fromBytes_lt block'.reverse
  rw [List.length_reverse] at bound bound'
  have number := b58Digits_inj (bound.trans_le room) (bound'.trans_le (lengths ▸ room)) (List.reverse_injective same)
  have read := toBytes_fromBytes block.reverse
  rw [number, List.length_reverse, lengths, ← List.length_reverse, toBytes_fromBytes] at read
  exact (List.reverse_injective read).symm

theorem base58Xmr_long {data : Bytes} (long : 8 ≤ data.length) :
    base58Xmr data = b58EncodeBlock (data.take 8) 11 ++ base58Xmr (data.drop 8) := by
  have count : (data.length + 7) / 8 = ((data.drop 8).length + 7) / 8 + 1 := by
    rw [List.length_drop]
    omega
  have full : (data.take 8).length = 8 := by
    rw [List.length_take]
    omega
  rw [base58Xmr, count, List.range_succ_eq_map, List.flatMap_cons, List.flatMap_map, base58Xmr]
  simp only [Nat.mul_zero, List.drop_zero, full, if_true, List.drop_drop, Nat.succ_eq_add_one, Nat.mul_succ,
    Nat.add_comm]

theorem base58Xmr_short {data : Bytes} (short : data.length < 8) :
    base58Xmr data = b58EncodeBlock data (b58EncSizes.getD data.length 0) := by
  rcases Nat.eq_zero_or_pos data.length with none | some
  · obtain rfl := List.length_eq_zero_iff.mp none
    rfl
  · have single : (data.length + 7) / 8 = 1 := by omega
    have whole : data.take 8 = data := List.take_of_length_le (by omega)
    rw [base58Xmr, single, List.range_one, List.flatMap_singleton]
    simp only [Nat.mul_zero, List.drop_zero, whole, if_neg (by omega : ¬data.length = 8)]

theorem length_b58EncodeBlock (block : Bytes) (outLen : Nat) : (b58EncodeBlock block outLen).length = outLen := by
  rw [b58EncodeBlock, List.length_reverse, length_b58Digits]

theorem b58EncSizes_fit : ∀ k < 8, b58EncSizes.getD k 0 < 11 ∧ 256 ^ k ≤ 58 ^ b58EncSizes.getD k 0 ∧
    ∀ k' < 8, b58EncSizes.getD k 0 = b58EncSizes.getD k' 0 → k = k' := by decide

theorem base58Xmr_short_ne_long {data data' : Bytes} (short : data.length < 8) (long : 8 ≤ data'.length) :
    base58Xmr data ≠ base58Xmr data' := by
  intro same
  have length := congrArg List.length same
  rw [base58Xmr_short short, base58Xmr_long long, List.length_append, length_b58EncodeBlock,
    length_b58EncodeBlock] at length
  have few := (b58EncSizes_fit data.length short).1
  omega

theorem base58Xmr_injective : Function.Injective base58Xmr := by
  intro data data' same
  induction blocks : data.length / 8 generalizing data data' with
  | zero =>
    have short : data.length < 8 := by omega
    rcases Nat.lt_or_ge data'.length 8 with short' | long'
    · rw [base58Xmr_short short, base58Xmr_short short'] at same
      have length := congrArg List.length same
      rw [length_b58EncodeBlock, length_b58EncodeBlock] at length
      obtain ⟨_, room, apart⟩ := b58EncSizes_fit data.length short
      have equal := apart data'.length short' length
      rw [← equal] at same
      exact b58EncodeBlock_inj equal room same
    · exact absurd same (base58Xmr_short_ne_long short long')
  | succ blocks ih =>
    have long : 8 ≤ data.length := by omega
    rcases Nat.lt_or_ge data'.length 8 with short' | long'
    · exact absurd same.symm (base58Xmr_short_ne_long short' long)
    · rw [base58Xmr_long long, base58Xmr_long long'] at same
      obtain ⟨first, rest⟩ := List.append_inj same (by rw [length_b58EncodeBlock, length_b58EncodeBlock])
      have full : (data.take 8).length = 8 := List.length_take_of_le long
      have full' : (data'.take 8).length = 8 := List.length_take_of_le long'
      have block := b58EncodeBlock_inj (full.trans full'.symm) (by rw [full]; decide) first
      have later := ih rest (by rw [List.length_drop]; omega)
      rw [← List.take_append_drop 8 data, block, later, List.take_append_drop]

def publicBytes (secret : Nat) : Bytes := compress (pointMul secret base)

theorem publicBytes_eq (secret : Nat) : publicBytes secret = Ed25519.encode (secret • basePoint) :=
  compress_eq (pointMul_rep base_rep secret)

/-- The payload of the address of a spend key. -/
def payloadOf (netPrefix bSec : Nat) : Bytes :=
  varint netPrefix ++ publicBytes bSec ++ publicBytes (scReduce32 (keccak256 (scBytes bSec)))

def addressOf (netPrefix bSec : Nat) : Str :=
  base58Xmr (payloadOf netPrefix bSec ++ (keccak256 (payloadOf netPrefix bSec)).take 4)

theorem xmrAddressFromRoot_eq {root : Bytes} (length : root.length = 32) (network : Json) :
    xmrAddressFromRoot (toHex root) network =
      (prefixOf network).bind fun netPrefix => .ok (addressOf netPrefix (scReduce32 root)) := by
  have keys : keysFromRoot (toHex root) = .ok {
      spendSec := toHex (scBytes (scReduce32 root))
      viewSec := toHex (scBytes (scReduce32 (keccak256 (scBytes (scReduce32 root)))))
      spendPub := toHex (publicBytes (scReduce32 root))
      viewPub := toHex (publicBytes (scReduce32 (keccak256 (scBytes (scReduce32 root))))) } := by
    rw [keysFromRoot, bytesFromHex_toHex]
    exact if_neg (not_not_intro length)
  rw [xmrAddressFromRoot, keys]
  refine congrArg (prefixOf network).bind (funext fun netPrefix => ?_)
  simp only [bind, Except.bind, bytesFromHex_toHex]
  rfl

theorem addressOf_inj {netPrefix n m : Nat} (same : addressOf netPrefix n = addressOf netPrefix m) : n % L = m % L := by
  have text := base58Xmr_injective same
  simp only [payloadOf, List.append_assoc, List.append_cancel_left_eq] at text
  simp only [publicBytes_eq] at text
  have point := encode_injective (List.append_inj text (by rw [length_encode, length_encode])).1
  have congruent := nsmul_eq_nsmul_iff_modEq.mp point
  rwa [addOrderOf_base] at congruent

theorem verifyReceiptBinding_iff {root : Bytes} (length : root.length = 32) (receipt : Dict Str Json) :
    verifyReceiptBinding (toHex root) receipt = .ok (true, "ok") ↔
      (receipt.get? "derivation").getD .null = .str xmrDerivation ∧
        ∃ netPrefix, prefixOf ((receipt.get? "network").getD (.str "mainnet")) = .ok netPrefix ∧
          (receipt.get? "address").getD .null = .str (addressOf netPrefix (scReduce32 root)) := by
  rw [verifyReceiptBinding, xmrAddressFromRoot_eq length]
  cases prefixOf ((receipt.get? "network").getD (.str "mainnet")) with
  | error e =>
    simp only [Except.bind, reduceCtorEq, false_and, exists_false, and_false, iff_false]
    split <;> simp [pure, Except.pure]
  | ok netPrefix =>
    simp only [Except.bind, Except.ok.injEq, exists_eq_left']
    split
    · next other => simp [pure, Except.pure, other]
    · next known =>
      split
      · next apart => simp [pure, Except.pure, apart]
      · next same => exact ⟨fun _ => ⟨not_not.mp known, not_not.mp same⟩, fun _ => rfl⟩

/-- The roots that a receipt binds are those that leave one remainder modulo the order of the group, and addresses tell
the bytes they are made of. -/
theorem receipt_binds_residue :
    (∀ receipt root root', root.length = 32 → root'.length = 32 →
      verifyReceiptBinding (toHex root) receipt = .ok (true, "ok") →
        (verifyReceiptBinding (toHex root') receipt = .ok (true, "ok") ↔
          fromBytes root' % L = fromBytes root % L)) ∧
      Function.Injective base58Xmr := by
  refine ⟨fun receipt root root' length length' bound => ?_, base58Xmr_injective⟩
  rw [verifyReceiptBinding_iff length']
  obtain ⟨derivation, netPrefix, network, address⟩ := (verifyReceiptBinding_iff length receipt).mp bound
  constructor
  · rintro ⟨_, netPrefix', network', address'⟩
    obtain rfl : netPrefix = netPrefix' := Except.ok.inj (network.symm.trans network')
    have same := addressOf_inj (Json.str.inj (address'.symm.trans address))
    rwa [scReduce32, scReduce32, Nat.mod_mod, Nat.mod_mod] at same
  · intro same
    refine ⟨derivation, netPrefix, network, ?_⟩
    rw [address, scReduce32, scReduce32, same]

def boundRoot : Bytes := toBytes 1 32

def congruentRoot : Bytes := toBytes (L + 1) 32

/-- The receipt of the first of the two roots. -/
def paymentReceipt : Dict Str Json :=
  [("derivation", .str xmrDerivation),
    ("address", .str ((xmrAddressFromRoot (toHex boundRoot) (.str "mainnet")).toOption.getD []))]

theorem paymentReceipt_binds : verifyReceiptBinding (toHex boundRoot) paymentReceipt = .ok (true, "ok") := by
  decide +kernel

theorem receipt_binds_residue_payment :
    (verifyReceiptBinding (toHex congruentRoot) paymentReceipt = .ok (true, "ok") ↔
        fromBytes congruentRoot % L = fromBytes boundRoot % L) ∧
      Function.Injective base58Xmr :=
  ⟨receipt_binds_residue.1 paymentReceipt boundRoot congruentRoot (by decide) (by decide) paymentReceipt_binds,
    receipt_binds_residue.2⟩

theorem two_roots_bound :
    boundRoot.length = 32 ∧ congruentRoot.length = 32 ∧ boundRoot ≠ congruentRoot ∧
      verifyReceiptBinding (toHex boundRoot) paymentReceipt = .ok (true, "ok") ∧
      verifyReceiptBinding (toHex congruentRoot) paymentReceipt = .ok (true, "ok") :=
  ⟨by decide, by decide, by decide +kernel, paymentReceipt_binds, by decide +kernel⟩

end JJDai.Xmr
