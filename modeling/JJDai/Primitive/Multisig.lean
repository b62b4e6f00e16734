import JJDai.Daemon.KeepAlive
import JJDai.Primitive.Signatures

/-! `multisig_verify`, which counts the texts under which keys have signed, and the keys that have signed. -/

namespace JJDai.Ed25519

open PyText
open Daemon.Http (asciiLower)

/-- `str.lower`: on ASCII it is the lowering of the letters, and no text is read as other bytes for it. -/
structure Lowering where
  lower : Str → Str
  lower_ascii : ∀ s, isAscii s = true → lower s = asciiLower s
  fromHex_lower : ∀ s, fromHex (lower s) = fromHex s

theorem hexValue_asciiLower (c : CodePoint) :
    let lowered := if 65 ≤ c.val ∧ c.val ≤ 90 then codePoint (c.val + 32) else c
    hexValue lowered = hexValue c ∧ isAsciiSpace lowered = isAsciiSpace c := by
  intro lowered
  by_cases upper : 65 ≤ c.val ∧ c.val ≤ 90
  · have value : lowered = codePoint (c.val + 32) := if_pos upper
    have bound : lowered.val = c.val + 32 := value ▸ Nat.mod_eq_of_lt (by omega)
    constructor
    · simp only [hexValue, bound]
      split_ifs <;> first | omega | rfl
    · simp only [isAsciiSpace, bound]
      grind
  · rw [show lowered = c from if_neg upper]
    exact ⟨rfl, rfl⟩

theorem fromHex_asciiLower (s : Str) : fromHex (asciiLower s) = fromHex s := by
  induction s using fromHex.induct with
  | case1 => rfl
  | case2 c _ | case3 c _ =>
    simp only [asciiLower, List.map_cons, List.map_nil, fromHex, (hexValue_asciiLower c).2]
  | case4 c d rest space ih =>
    rw [asciiLower, List.map_cons] at ih
    simp only [asciiLower, List.map_cons, fromHex, (hexValue_asciiLower c).2, space, if_true, ih]
  | case5 c d rest other _ _ _ _ _ _ ih | case6 c d rest other _ ih =>
    rw [asciiLower] at ih
    simp only [asciiLower, List.map_cons, fromHex, (hexValue_asciiLower c).2, other, if_false, Bool.false_eq_true,
      (hexValue_asciiLower c).1, (hexValue_asciiLower d).1, ih]

/-- The lowering of ASCII, which leaves other characters as they are. -/
def Lowering.ascii : Lowering := ⟨asciiLower, fun _ _ => rfl, fromHex_asciiLower⟩

structure MultisigPolicy where
  m : Int
  pubkeys : List Str

variable (sha512 : Sha512) (str : Lowering)

def multisigCollect (m : Int) (allowed : List Str) (message : Bytes) : List Str → List (Str × Str) → Bool
  | seen, [] => decide (seen.length ≥ m)
  | seen, (pubHex, sigHex) :: rest =>
    let pl := str.lower pubHex
    if pl ∉ allowed ∨ pl ∈ seen then multisigCollect m allowed message seen rest
    else
      match fromHex pl, fromHex sigHex with
      | some pub, some sig =>
        let seen := if verify sha512 pub message sig then pl :: seen else seen
        if seen.length ≥ m then true else multisigCollect m allowed message seen rest
      | _, _ => multisigCollect m allowed message seen rest

def multisigVerify (policy : MultisigPolicy) (message : Bytes) (sigs : List (Str × Str)) : Py Bool := do
  let allowed := (policy.pubkeys.map str.lower).dedup
  if policy.m < 1 ∨ policy.m > allowed.length then raise .valueError "multisig policy: need 1 <= m <= len(pubkeys)"
  return multisigCollect sha512 str policy.m allowed message [] sigs

/-- The signature of a pair verifies under its key. -/
def signs (message : Bytes) (pair : Str × Str) : Bool :=
  match fromHex pair.1, fromHex pair.2 with
  | some pub, some sig => verify sha512 pub message sig
  | _, _ => false

/-- The texts on a list under which a pair verifies. -/
def signedTexts (allowed : List Str) (message : Bytes) (sigs : List (Str × Str)) : Finset Str :=
  ((sigs.filter fun pair => str.lower pair.1 ∈ allowed && signs sha512 message pair).map
    fun pair => str.lower pair.1).toFinset

section
variable (policy : MultisigPolicy) (message : Bytes) (sigs : List (Str × Str))

def listedKeys : Finset Bytes := (policy.pubkeys.filterMap fromHex).toFinset

/-- The listed keys under which a pair verifies. -/
def signedKeys : Finset Bytes :=
  (listedKeys policy).filter fun key => ∃ pair ∈ sigs, fromHex pair.1 = some key ∧ signs sha512 message pair

def spellings : Finset Str := signedTexts sha512 str (policy.pubkeys.map str.lower) message sigs

/-- How many listed texts have signed beyond the first one of each key. -/
def surplus : Nat :=
  ∑ key ∈ signedKeys sha512 policy message sigs,
    (((spellings sha512 str policy message sigs).filter fun text => fromHex text = some key).card - 1)

/-- How many listed keys have signed under no text of theirs that is listed. -/
def missed : Nat :=
  ((signedKeys sha512 policy message sigs).filter fun key =>
    ∀ text ∈ spellings sha512 str policy message sigs, fromHex text ≠ some key).card

/-- The answer is that enough keys have signed. -/
def CountsKeys : Prop :=
  multisigVerify sha512 str policy message sigs = .ok true ↔
    policy.m ≤ (signedKeys sha512 policy message sigs).card

/-- What has signed twice, and what has been missed, leaves the threshold on one side. -/
def ThresholdKept : Prop :=
  policy.m ≤ (signedKeys sha512 policy message sigs).card ↔
    policy.m + missed sha512 str policy message sigs ≤
      (signedKeys sha512 policy message sigs).card + surplus sha512 str policy message sigs

end

theorem mem_signedTexts {allowed : List Str} {message : Bytes} {sigs : List (Str × Str)} {text : Str} :
    text ∈ signedTexts sha512 str allowed message sigs ↔
      text ∈ allowed ∧ ∃ pair ∈ sigs, str.lower pair.1 = text ∧ signs sha512 message pair = true := by
  simp only [signedTexts, List.mem_toFinset, List.mem_map, List.mem_filter, Bool.and_eq_true, decide_eq_true_eq]
  constructor
  · rintro ⟨pair, ⟨member, listed, signed⟩, rfl⟩
    exact ⟨listed, pair, member, rfl, signed⟩
  · rintro ⟨listed, pair, member, rfl, signed⟩
    exact ⟨pair, ⟨member, listed, signed⟩, rfl⟩

theorem signedTexts_cons (allowed : List Str) (message : Bytes) (pair : Str × Str) (rest : List (Str × Str)) :
    signedTexts sha512 str allowed message (pair :: rest) =
      if str.lower pair.1 ∈ allowed ∧ signs sha512 message pair = true then
        insert (str.lower pair.1) (signedTexts sha512 str allowed message rest)
      else signedTexts sha512 str allowed message rest := by
  rw [signedTexts, List.filter_cons]
  simp only [Bool.and_eq_true, decide_eq_true_eq]
  split
  · rw [List.map_cons, List.toFinset_cons, signedTexts]
  · rfl

theorem signs_eq {message : Bytes} {pair : Str × Str} :
    signs sha512 message pair =
      match fromHex (str.lower pair.1), fromHex pair.2 with
      | some pub, some sig => verify sha512 pub message sig
      | _, _ => false := by
  rw [signs, str.fromHex_lower]

theorem decide_enough {m : Int} {seen : List Str} (distinct : seen.Nodup) (enough : (seen.length : Int) ≥ m)
    (texts : Finset Str) : decide (m ≤ (seen.toFinset ∪ texts).card) = true := by
  have below := Finset.card_le_card (@Finset.subset_union_left _ _ seen.toFinset texts)
  rw [List.toFinset_card_of_nodup distinct] at below
  exact decide_eq_true (by omega)

/-- The loop counts the texts it has seen and those that are still to sign; leaving it early changes nothing. -/
theorem multisigCollect_eq (m : Int) (allowed : List Str) (message : Bytes) {seen : List Str} (distinct : seen.Nodup)
    (sigs : List (Str × Str)) :
    multisigCollect sha512 str m allowed message seen sigs =
      decide (m ≤ (seen.toFinset ∪ signedTexts sha512 str allowed message sigs).card) := by
  induction sigs generalizing seen with
  | nil =>
    rw [multisigCollect, show signedTexts sha512 str allowed message [] = ∅ from rfl, Finset.union_empty,
      List.toFinset_card_of_nodup distinct]
  | cons pair rest ih =>
    obtain ⟨pubHex, sigHex⟩ := pair
    have step := signedTexts_cons sha512 str allowed message (pubHex, sigHex) rest
    have signed := @signs_eq sha512 str message (pubHex, sigHex)
    rw [multisigCollect]
    simp only at step signed ⊢
    split
    · next skipped =>
      rw [ih distinct, step]
      split
      · next accepted =>
        have known : str.lower pubHex ∈ seen.toFinset :=
          List.mem_toFinset.mpr (skipped.resolve_left (not_not_intro accepted.1))
        rw [Finset.union_insert, Finset.insert_eq_of_mem (Finset.mem_union_left _ known)]
      · rfl
    · next fresh =>
      obtain ⟨listed, unseen⟩ := not_or.mp fresh
      split
      · next pub sig read readSig =>
        simp only [read, readSig] at signed
        split
        · next valid =>
          rw [if_pos ⟨not_not.mp listed, signed.trans valid⟩] at step
          have more : (str.lower pubHex :: seen).Nodup := List.nodup_cons.mpr ⟨unseen, distinct⟩
          have union : seen.toFinset ∪ signedTexts sha512 str allowed message ((pubHex, sigHex) :: rest) =
              (str.lower pubHex :: seen).toFinset ∪ signedTexts sha512 str allowed message rest := by
            rw [step, List.toFinset_cons, Finset.union_insert, Finset.insert_union]
          rw [union]
          split
          · next enough => rw [decide_enough more enough]
          · exact ih more
        · next invalid =>
          rw [if_neg (fun accepted => invalid (signed ▸ accepted.2))] at step
          rw [step]
          split
          · next enough => rw [decide_enough distinct enough]
          · exact ih distinct
      · next unread =>
        have invalid : signs sha512 message (pubHex, sigHex) = false := by
          rw [signed]
          split
          · next pub sig read readSig => exact (unread pub sig read readSig).elim
          · rfl
        rw [if_neg (fun accepted => by simp [invalid] at accepted)] at step
        rw [step]
        exact ih distinct

section
variable {policy : MultisigPolicy} (message : Bytes) (sigs : List (Str × Str))

theorem multisigVerify_eq (least : 1 ≤ policy.m) (most : policy.m ≤ (policy.pubkeys.map str.lower).dedup.length) :
    multisigVerify sha512 str policy message sigs =
      .ok (decide (policy.m ≤ (spellings sha512 str policy message sigs).card)) := by
  have count := multisigCollect_eq sha512 str policy.m (policy.pubkeys.map str.lower).dedup message List.nodup_nil sigs
  have texts : signedTexts sha512 str (policy.pubkeys.map str.lower).dedup message sigs =
      spellings sha512 str policy message sigs := by
    ext text
    rw [spellings, mem_signedTexts, mem_signedTexts, List.mem_dedup]
  rw [texts, List.toFinset_nil, Finset.empty_union] at count
  rw [multisigVerify, count]
  exact if_neg (by omega)

variable (policy) in
theorem listedKeys_card : (listedKeys policy).card ≤ (policy.pubkeys.map str.lower).dedup.length := by
  have cover : (listedKeys policy).map ⟨some, Option.some_injective _⟩ ⊆
      (policy.pubkeys.map str.lower).toFinset.image fromHex := by
    intro read member
    simp only [listedKeys, Finset.mem_map, List.mem_toFinset, List.mem_filterMap, Function.Embedding.coeFn_mk] at member
    obtain ⟨key, ⟨text, listed, same⟩, rfl⟩ := member
    refine Finset.mem_image.mpr ⟨str.lower text, ?_, (str.fromHex_lower text).trans same⟩
    exact List.mem_toFinset.mpr (List.mem_map_of_mem listed)
  calc (listedKeys policy).card = ((listedKeys policy).map ⟨some, Option.some_injective _⟩).card :=
        (Finset.card_map _).symm
    _ ≤ ((policy.pubkeys.map str.lower).toFinset.image fromHex).card := Finset.card_le_card cover
    _ ≤ (policy.pubkeys.map str.lower).toFinset.card := Finset.card_image_le
    _ = (policy.pubkeys.map str.lower).dedup.length := by rw [List.card_toFinset]

theorem mem_signedKeys {key : Bytes} : key ∈ signedKeys sha512 policy message sigs ↔
    (∃ text ∈ policy.pubkeys, fromHex text = some key) ∧
      ∃ pair ∈ sigs, fromHex pair.1 = some key ∧ signs sha512 message pair = true := by
  rw [signedKeys, Finset.mem_filter, listedKeys, List.mem_toFinset, List.mem_filterMap]

theorem fromHex_spelling {text : Str} (signed : text ∈ spellings sha512 str policy message sigs) :
    ∃ key ∈ signedKeys sha512 policy message sigs, fromHex text = some key := by
  obtain ⟨listed, pair, member, rfl, valid⟩ := (mem_signedTexts sha512 str).mp signed
  obtain ⟨original, inPolicy, same⟩ := List.mem_map.mp listed
  rw [str.fromHex_lower]
  cases read : fromHex pair.1 with
  | none => simp [signs, read] at valid
  | some key =>
    have listedKey : fromHex original = some key := by
      rw [← str.fromHex_lower, same, str.fromHex_lower, read]
    have signed := (mem_signedKeys sha512 message sigs).mpr
      ⟨⟨original, inPolicy, listedKey⟩, pair, member, read, valid⟩
    exact ⟨key, signed, rfl⟩

variable (policy) in
theorem spellings_card : (spellings sha512 str policy message sigs).card + missed sha512 str policy message sigs =
    (signedKeys sha512 policy message sigs).card + surplus sha512 str policy message sigs := by
  have fibers : (spellings sha512 str policy message sigs).card =
      ∑ key ∈ signedKeys sha512 policy message sigs,
        ((spellings sha512 str policy message sigs).filter fun text => fromHex text = some key).card := by
    rw [Finset.card_eq_sum_card_fiberwise (f := fromHex)
      (t := (signedKeys sha512 policy message sigs).map ⟨some, Option.some_injective _⟩), Finset.sum_map]
    · rfl
    · intro text signed
      obtain ⟨key, member, read⟩ := fromHex_spelling sha512 str message sigs signed
      exact Finset.mem_coe.mpr (Finset.mem_map.mpr ⟨key, member, read.symm⟩)
  rw [fibers, missed, surplus, Finset.card_filter, ← Finset.sum_add_distrib, Finset.card_eq_sum_ones,
    ← Finset.sum_add_distrib]
  refine Finset.sum_congr rfl fun key _ => ?_
  have none : ((spellings sha512 str policy message sigs).filter fun text => fromHex text = some key).card = 0 ↔
      ∀ text ∈ spellings sha512 str policy message sigs, fromHex text ≠ some key := by
    rw [Finset.card_eq_zero, Finset.filter_eq_empty_iff]
  split
  · next unsigned => rw [none.mpr unsigned]
  · next signed =>
    have some := none.not.mpr signed
    omega

theorem multisigVerify_congr {sigs sigs' : List (Str × Str)} (same : ∀ pair, pair ∈ sigs' ↔ pair ∈ sigs) :
    multisigVerify sha512 str policy message sigs' = multisigVerify sha512 str policy message sigs := by
  have texts (allowed : List Str) :
      signedTexts sha512 str allowed message sigs' = signedTexts sha512 str allowed message sigs := by
    ext text
    simp only [mem_signedTexts, same]
  rw [multisigVerify, multisigVerify]
  simp only [multisigCollect_eq sha512 str policy.m _ message List.nodup_nil, texts]

/-- Which pairs stand on the list decides, in whatever order and how often; and for a threshold within reach the answer
counts the keys exactly if the listed texts that have signed beyond one for each key, and the keys that have signed
under other texts only, leave the threshold on one side. -/
theorem multisigVerify_counts_keys (least : 1 ≤ policy.m) (most : policy.m ≤ (listedKeys policy).card) :
    (CountsKeys sha512 str policy message sigs ↔ ThresholdKept sha512 str policy message sigs) ∧
      ∀ sigs', (∀ pair, pair ∈ sigs' ↔ pair ∈ sigs) →
        multisigVerify sha512 str policy message sigs' = multisigVerify sha512 str policy message sigs := by
  refine ⟨?_, fun sigs' same => multisigVerify_congr sha512 str message same⟩
  have listed := listedKeys_card str policy
  have count := spellings_card sha512 str policy message sigs
  rw [CountsKeys, ThresholdKept, multisigVerify_eq sha512 str message sigs least (by omega), Except.ok.injEq,
    decide_eq_true_eq]
  omega

end

/-- Two keys, the first one listed twice, and both its texts signed under. -/
def respelledPolicy : MultisigPolicy where
  m := 2
  pubkeys :=
    [toHex (vectorKey.publicKey Ed25519.sha512), ch ' ' :: toHex (vectorKey.publicKey Ed25519.sha512),
      toHex (List.replicate 32 0)]

def respelledSigs : List (Str × Str) :=
  [(toHex (vectorKey.publicKey Ed25519.sha512), toHex (vectorKey.sign Ed25519.sha512 [])),
    (ch ' ' :: toHex (vectorKey.publicKey Ed25519.sha512), toHex (vectorKey.sign Ed25519.sha512 []))]

/-- One key makes up the threshold of two. -/
private theorem respelled_told :
    respelledPolicy.m ≤ (listedKeys respelledPolicy).card ∧
      multisigVerify Ed25519.sha512 .ascii respelledPolicy [] respelledSigs = .ok true ∧
      (signedKeys Ed25519.sha512 respelledPolicy [] respelledSigs).card = 1 := by
  decide +kernel

theorem multisigVerify_counts_keys_respelled :
    (CountsKeys Ed25519.sha512 .ascii respelledPolicy [] respelledSigs ↔
        ThresholdKept Ed25519.sha512 .ascii respelledPolicy [] respelledSigs) ∧
      ∀ sigs', (∀ pair, pair ∈ sigs' ↔ pair ∈ respelledSigs) →
        multisigVerify Ed25519.sha512 .ascii respelledPolicy [] sigs' =
          multisigVerify Ed25519.sha512 .ascii respelledPolicy [] respelledSigs :=
  multisigVerify_counts_keys Ed25519.sha512 .ascii [] respelledSigs (by decide) respelled_told.1

theorem one_key_counted_twice :
    1 ≤ respelledPolicy.m ∧ respelledPolicy.m ≤ (listedKeys respelledPolicy).card ∧
      ¬CountsKeys Ed25519.sha512 .ascii respelledPolicy [] respelledSigs := by
  obtain ⟨reached, accepted, single⟩ := respelled_told
  refine ⟨by decide, reached, ?_⟩
  rw [CountsKeys, single]
  exact fun law => absurd (law.mp accepted) (by decide)

theorem hexValue_lower {c : CodePoint} {n : Nat} (value : hexValue c = some n) :
    c.val < 128 ∧ (if 65 ≤ c.val ∧ c.val ≤ 90 then codePoint (c.val + 32) else c) = hexDigit n ∧ n < 16 := by
  have digits : ∀ n < 10, hexDigit n = codePoint (48 + n) := by decide
  have letters : ∀ n < 6, hexDigit (10 + n) = codePoint (97 + n) := by decide
  have self (k : Nat) (same : c.val = k) : codePoint k = c := Fin.ext (by rw [← same]; exact Nat.mod_eq_of_lt c.isLt)
  rw [hexValue] at value
  split at value
  · obtain rfl := Option.some.inj value
    refine ⟨by omega, ?_, by omega⟩
    rw [if_neg (by omega), digits _ (by omega), self _ (by omega)]
  · split at value
    · obtain rfl := Option.some.inj value
      refine ⟨by omega, ?_, by omega⟩
      rw [if_neg (by omega), show c.val - 87 = 10 + (c.val - 97) by omega, letters _ (by omega), self _ (by omega)]
    · split at value
      · obtain rfl := Option.some.inj value
        refine ⟨by omega, ?_, by omega⟩
        rw [if_pos (by omega), show c.val - 55 = 10 + (c.val - 65) by omega, letters _ (by omega)]
        congr 1
        omega
      · cases value

/-- Without whitespace, what is read as bytes is their hexadecimal text once it is lowered. -/
theorem lower_plain {text : Str} {key : Bytes} (plain : ∀ c ∈ text, isAsciiSpace c = false)
    (read : fromHex text = some key) : str.lower text = toHex key := by
  suffices both : isAscii text = true ∧ asciiLower text = toHex key by
    rw [str.lower_ascii text both.1, both.2]
  induction text using fromHex.induct generalizing key with
  | case1 =>
    obtain rfl := Option.some.inj read
    exact ⟨rfl, rfl⟩
  | case2 c space => simp [plain c (List.mem_singleton_self c)] at space
  | case3 c other => simp [fromHex, other] at read
  | case4 c d rest space ih => simp [plain c List.mem_cons_self] at space
  | case5 c d rest other high low bytes readRest readLow readHigh ih =>
    simp only [fromHex, other, readHigh, readLow, readRest, if_false, Bool.false_eq_true] at read
    obtain rfl := Option.some.inj read
    obtain ⟨ascii, same⟩ := ih (fun e member => plain e (by simp [member])) readRest
    obtain ⟨asciiC, digitC, smallC⟩ := hexValue_lower readHigh
    obtain ⟨asciiD, digitD, smallD⟩ := hexValue_lower readLow
    have byte : (UInt8.ofNat (16 * high + low)).toNat = 16 * high + low := by
      rw [UInt8.toNat_ofNat', Nat.mod_eq_of_lt (by omega)]
    have hex : toHex (UInt8.ofNat (16 * high + low) :: bytes) = hexDigit high :: hexDigit low :: toHex bytes := by
      rw [toHex, List.flatMap_cons, byte, show (16 * high + low) / 16 = high by omega,
        show (16 * high + low) % 16 = low by omega]
      rfl
    refine ⟨by simpa [isAscii, asciiC, asciiD] using ascii, ?_⟩
    rw [asciiLower, List.map_cons, List.map_cons, ← asciiLower, same, digitC, digitD, hex]
  | case6 c d rest other unread ih =>
    simp only [fromHex, other, if_false, Bool.false_eq_true] at read
    cases read

section
variable {policy : MultisigPolicy} (message : Bytes) (sigs : List (Str × Str))
  (plainSigs : ∀ pair ∈ sigs, ∀ c ∈ pair.1, isAsciiSpace c = false)

include plainSigs

theorem surplus_plain : surplus sha512 str policy message sigs = 0 := by
  refine Finset.sum_eq_zero fun key _ => Nat.sub_eq_zero_of_le ?_
  refine Finset.card_le_one.mpr fun a signed b signed' => ?_
  have single {text : Str} (member : text ∈ (spellings sha512 str policy message sigs).filter
      fun text => fromHex text = some key) : text = toHex key := by
    obtain ⟨signed, read⟩ := Finset.mem_filter.mp member
    obtain ⟨_, pair, inList, rfl, _⟩ := (mem_signedTexts sha512 str).mp signed
    exact lower_plain str (plainSigs pair inList) ((str.fromHex_lower pair.1).symm.trans read)
  rw [single signed, single signed']

variable (plainKeys : ∀ text ∈ policy.pubkeys, ∀ c ∈ text, isAsciiSpace c = false)

include plainKeys

theorem missed_plain : missed sha512 str policy message sigs = 0 := by
  rw [missed, Finset.card_eq_zero, Finset.filter_eq_empty_iff]
  intro key signed unsigned
  obtain ⟨⟨text, listed, read⟩, pair, member, readPair, valid⟩ := (mem_signedKeys sha512 message sigs).mp signed
  have same : str.lower text = str.lower pair.1 := by
    rw [lower_plain str (plainKeys text listed) read, lower_plain str (plainSigs pair member) readPair]
  refine unsigned (str.lower pair.1) ((mem_signedTexts sha512 str).mpr ⟨?_, pair, member, rfl, valid⟩) ?_
  · exact same ▸ List.mem_map_of_mem listed
  · rw [str.fromHex_lower, readPair]

/-- Where no key is written with whitespace in it, the answer is that enough of the listed keys have signed. -/
theorem multisigVerify_plain (least : 1 ≤ policy.m) (most : policy.m ≤ (listedKeys policy).card) :
    multisigVerify sha512 str policy message sigs =
      .ok (decide (policy.m ≤ (signedKeys sha512 policy message sigs).card)) := by
  have listed := listedKeys_card str policy
  have count := spellings_card sha512 str policy message sigs
  rw [missed_plain sha512 str message sigs plainSigs plainKeys, surplus_plain sha512 str message sigs plainSigs] at count
  rw [multisigVerify_eq sha512 str message sigs least (by omega), show (spellings sha512 str policy message sigs).card =
    (signedKeys sha512 policy message sigs).card by omega]

end

theorem toHex_plain (data : Bytes) : ∀ c ∈ toHex data, isAsciiSpace c = false := by
  intro c member
  obtain ⟨b, _, digit⟩ := List.mem_flatMap.mp member
  have byte : b.toNat < 256 := b.toNat_lt
  rcases List.mem_cons.mp digit with rfl | low
  · exact isAsciiSpace_hexDigit (by omega)
  · rw [List.mem_singleton.mp low]
    exact isAsciiSpace_hexDigit (by omega)

def plainPolicy : MultisigPolicy where
  m := 1
  pubkeys := [toHex (vectorKey.publicKey Ed25519.sha512)]

theorem multisigVerify_plain_once :
    multisigVerify Ed25519.sha512 .ascii plainPolicy [] (respelledSigs.take 1) =
      .ok (decide (plainPolicy.m ≤ (signedKeys Ed25519.sha512 plainPolicy [] (respelledSigs.take 1)).card)) := by
  have listed : listedKeys plainPolicy = {vectorKey.publicKey Ed25519.sha512} := by
    simp [listedKeys, plainPolicy, fromHex_toHex]
  refine multisigVerify_plain Ed25519.sha512 .ascii [] _ ?_ ?_ (by decide) (by rw [listed]; decide)
  · intro pair member
    rw [List.mem_singleton.mp member]
    exact toHex_plain _
  · intro text member
    rw [List.mem_singleton.mp member]
    exact toHex_plain _

end JJDai.Ed25519
