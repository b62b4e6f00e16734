import JJDai.Verification.CrossVerify
import JJDai.Verification.SealedVerdict

/-! What the re-audit binds: a record, a digest of a list, and no request. -/

namespace JJDai

open PyText Canonical

section Digest

theorem countP_joinWith (p : CodePoint → Bool) (separator : Str) {texts : List Str} (some_left : texts ≠ []) :
    (joinWith separator texts).countP p + separator.countP p =
      (texts.map (fun text => text.countP p + separator.countP p)).sum := by
  induction texts with
  | nil => exact absurd rfl some_left
  | cons text rest ih =>
    cases rest with
    | nil => simp [joinWith]
    | cons second rest =>
      have later := ih (List.cons_ne_nil _ _)
      rw [joinWith, List.countP_append, List.countP_append, List.map_cons, List.sum_cons, ← later]
      · ring
      · simp

theorem natText_injective {m n : Nat} (same : natText m = natText n) : m = n := by
  rw [← digitsValue_natText m, same, digitsValue_natText]

theorem semanticDigest_inj {a b : Str} :
    semanticDigest a = semanticDigest b ↔ ∀ i < 8, bucket a i = bucket b i := by
  have plain (text : Str) : ∀ part ∈ (List.range 8).map (fun i => natText (bucket text i)),
      ch ',' ∉ part := by
    intro part member inside
    obtain ⟨i, _, rfl⟩ := List.mem_map.mp member
    exact absurd (isDigit_natText _ _ inside) (by decide)
  constructor
  · intro same i small
    have parts := congrArg (splitAt (ch ',')) same
    rw [semanticDigest, semanticDigest, splitAt_joinWith (by simp) (plain a),
      splitAt_joinWith (by simp) (plain b)] at parts
    have entry := congrArg (fun texts => texts[i]?) parts
    simp only [List.getElem?_map, List.getElem?_range small, Option.map_some, Option.some.injEq] at entry
    exact natText_injective entry
  · intro same
    rw [semanticDigest, semanticDigest]
    congr 1
    exact List.map_congr_left (fun i member => congrArg natText (same i (List.mem_range.mp member)))

def bools (items : List Bool) : Json := .arr (items.map Json.bool)

def boolText (b : Bool) : Str := if b then "true" else "false"

theorem itemTexts_bools (items : List Bool) : itemTexts (items.map Json.bool) = items.map boolText := by
  induction items with
  | nil => rfl
  | cons b rest ih =>
    rw [List.map_cons, itemTexts, ih]
    cases b <;> rfl

theorem bucket_bools (items : List Bool) {i : Nat} (some_left : items ≠ []) :
    bucket (jsonText (bools items)) i + bucket ", " i =
      bucket "[]" i + (items.map (fun b => bucket (boolText b) i + bucket ", " i)).sum := by
  have texts : items.map boolText ≠ [] := by simpa using some_left
  have joined := countP_joinWith (fun c => c.val % 8 == i) (Str.ofString ", ") texts
  have brackets : Str.ofString "[]" = [ch '[', ch ']'] := rfl
  rw [List.map_map] at joined
  simp only [bools, jsonText, itemTexts_bools, bucket, List.countP_cons, List.countP_append,
    List.countP_nil, brackets] at joined ⊢
  simp only [Function.comp_def] at joined
  omega

theorem count_bucket (items : List Bool) (b : Bool) :
    bucket (jsonText (bools items)) (if b then 2 else 6) = items.count b := by
  have counted : ∀ l : List Bool,
      (l.map (fun b' => bucket (boolText b') (if b then 2 else 6) + bucket ", " (if b then 2 else 6))).sum =
        l.count b := by
    intro l
    have letters : ∀ b b' : Bool, bucket (boolText b') (if b then 2 else 6) +
        bucket ", " (if b then 2 else 6) = if b' == b then 1 else 0 := by decide
    induction l with
    | nil => rfl
    | cons b' rest ih => rw [List.map_cons, List.sum_cons, ih, letters, List.count_cons, add_comm]
  have frame : ∀ b : Bool, bucket ", " (if b then 2 else 6) = 0 ∧ bucket "[]" (if b then 2 else 6) = 0 := by
    decide
  by_cases empty : items = []
  · have bare : ∀ b : Bool, bucket (jsonText (bools [])) (if b then 2 else 6) = 0 := by decide
    rw [empty, bare, List.count_nil]
  · have whole := bucket_bools items (i := if b then 2 else 6) empty
    rw [counted, (frame b).1, (frame b).2] at whole
    omega

theorem digest_bools {items others : List Bool} :
    CrossVerifier.digest (bools items) = CrossVerifier.digest (bools others) ↔ items.Perm others := by
  rw [CrossVerifier.digest, CrossVerifier.digest, semanticDigest_inj]
  constructor
  · intro same
    refine List.perm_iff_count.mpr (fun b => ?_)
    rw [← count_bucket, ← count_bucket]
    cases b
    · exact same 6 (by decide)
    · exact same 2 (by decide)
  · intro order i _
    by_cases empty : items = []
    · rw [empty] at order ⊢
      rw [List.nil_perm.mp order]
    · have left := bucket_bools items (i := i) empty
      have right := bucket_bools others (i := i) (fun none_left => empty (List.perm_nil.mp (none_left ▸ order)))
      have sums := (order.map (fun b => bucket (boolText b) i + bucket ", " i)).sum_eq
      omega

end Digest

namespace CrossVerifier

variable {crypto : Crypto}

/-- A visit whose verdict `opened` counts: opened, if that is asked, and re-audited against the
record `found` of the chain `exported`. -/
structure Passes (crypto : Crypto) (binding : Bool) (request : Json) (replies : Replies)
    (nonces : NonceRegistry) (exported opened found : Json) : Prop where
  answered : ∃ reply verdict receipt seen, replies.score = .ok (200, reply) ∧
    pyContains "verdict" reply = .ok true ∧ subscript reply "verdict" = .ok verdict ∧
    dotGet reply "witness_receipt" = .ok receipt ∧
    openFirst crypto binding request verdict replies nonces = .ok (opened, seen) ∧
    reaudit crypto exported (if truthy receipt then receipt else .obj []) opened = .ok found
  fetched : replies.chain = .ok exported
  judged : ∃ ok, subscript opened "ok" = .ok ok
  named : ∃ node, subscript exported "node_id" = .ok node

theorem counted_iff_passes {binding : Bool} {request exported : Json} {url : Str} {replies : Replies}
    {nonces : NonceRegistry} : (∃ verifier ok minMargin node seen,
      auditPeer crypto binding request url replies nonces =
        .ok (.counted verifier ok minMargin node exported, seen)) ↔
      ∃ opened found, Passes crypto binding request replies nonces exported opened found := by
  constructor
  · rintro ⟨verifier, ok, minMargin, node, seen, made⟩
    simp only [auditPeer, bind, Py.bind_ok] at made
    obtain ⟨⟨status, reply⟩, answered, made⟩ := made
    split at made
    · cases made
    · rename_i fine
      obtain rfl := not_not.mp fine
      rw [Py.bind_ok] at made
      obtain ⟨held, contains, made⟩ := made
      split at made
      · cases made
      · rename_i present
        have present : held = true := by simpa using present
        simp only [Py.bind_ok] at made
        obtain ⟨verdict, read, receipt, receiptRead, made⟩ := made
        split at made
        · cases made
        · rename_i opened seen' first
          split at made
          · split at made <;> cases made
          · rename_i exported' found audited
            simp only [Py.bind_ok] at made
            obtain ⟨verdictOk, okRead, _, _, node, nodeRead, made⟩ := made
            obtain ⟨entry, _⟩ := Prod.mk.inj (Except.ok.inj made)
            obtain ⟨_, rfl, _, _, rfl⟩ := Audited.counted.inj entry
            simp only [Py.bind_ok] at audited
            obtain ⟨_, chain, _, audit, made⟩ := audited
            obtain ⟨rfl, rfl⟩ := Prod.mk.inj (Except.ok.inj made)
            exact ⟨opened, _, ⟨reply, verdict, receipt, seen', answered, present ▸ contains, read,
              receiptRead, first, audit⟩, chain, ⟨verdictOk, okRead⟩, node, nodeRead⟩
  · rintro ⟨opened, found, ⟨reply, verdict, receipt, seen, answered, contains, read, receiptRead, first,
      audited⟩, chain, ⟨ok, judged⟩, node, named⟩
    obtain ⟨fields, rfl⟩ := obj_of_subscript judged
    refine ⟨url, truthy ok, (Dict.get? fields "min_margin").getD (.float .zero), node, seen, ?_⟩
    simp only [auditPeer, answered, contains, read, receiptRead, first, chain, audited, judged,
      getDefault, bind, Except.bind]
    simp [named, pure, Except.pure]

theorem reaudit_ok {exported receipt verdict found : Json} :
    reaudit crypto exported receipt verdict = .ok found ↔ ∃ index reachable,
      getDefault receipt "index" (.int (-1)) = .ok index ∧
      rechainAndFind crypto exported index = .ok found ∧ subscript verdict "reachable" = .ok reachable ∧
      dotGet found "semantic_digest" = .ok (.str (digest reachable)) := by
  simp only [reaudit, bind, Py.bind_ok, Py.unless_ok, ne_eq, not_not, pure, Except.pure, Except.ok.injEq]
  constructor
  · rintro ⟨index, indexRead, record, made, reachable, read, digested, digestRead, rfl, rfl⟩
    exact ⟨index, reachable, indexRead, made, read, digestRead⟩
  · rintro ⟨index, reachable, indexRead, made, read, digestRead⟩
    exact ⟨index, indexRead, found, made, reachable, read, _, digestRead, rfl, rfl⟩

/-- A request that a sealed verdict can be opened against. -/
structure Openable (request : Dict Str Json) (nonce : Str) : Prop where
  expressible : Expressible (.obj request)
  least : 8 ≤ nonce.length
  most : nonce.length ≤ maxIdLen
  read : Dict.get? request "nonce" = some (.str nonce)

theorem checked_length {f : Field} (items : f.type = .list) {value : Json} {path : Str}
    {checked : List Json} (valid : f.validate value path = .ok (.arr checked)) {most : Nat}
    (limit : f.maxLen = some most) : checked.length ≤ most := by
  rcases Field.validate_ok.mp valid with ⟨_, _, shape⟩ | ⟨_, coerced, converted, holds, _, passed⟩
  · cases shape
  · rw [items] at holds
    cases coerced with
    | arr inner =>
      simp only [Field.checkValue, bind, validated_bind] at passed
      obtain ⟨_, size, passed⟩ := passed
      have bound := (Field.checkSize_ok.mp size).2 most limit
      cases each : f.item with
      | none =>
        rw [each] at passed
        obtain rfl := Json.arr.inj (Except.ok.inj passed)
        exact bound
      | some validate =>
        simp only [each, validated_bind] at passed
        obtain ⟨made, all, shape⟩ := passed
        obtain rfl := Json.arr.inj (Except.ok.inj shape)
        have same := (Field.mapM_items.mp all).length_eq
        rw [List.length_zipIdx] at same
        omega
    | _ => cases holds

theorem envelope_no_defaults : ∀ entry ∈ verdictEnvelope.fields, entry.2.default = none := by
  simp [verdictEnvelope]

/-- What opens says that its request can be opened against, and its list fits the limit. -/
theorem openable_of_open {request : Dict Str Json} {envelope pubkey opened : Json}
    {nonces : NonceRegistry} {seen : Option NonceRegistry}
    (made : openVerdict crypto envelope (.obj request) pubkey (some nonces) = .ok (opened, seen)) :
    (∃ nonce, Openable request nonce) ∧
      ∀ items, subscript opened "reachable" = .ok (.arr items) → items.length ≤ maxList := by
  cases validated : verdictEnvelope.validate envelope "VerdictEnvelope" with
  | error e =>
    simp only [openVerdict, validated] at made
    cases e <;> cases made
  | ok env =>
    obtain ⟨entries, out, rfl, rfl, _, collected⟩ := (Schema.validate_ok rfl).mp validated
    have names : (verdictEnvelope.fields.map Prod.fst).Nodup := by decide
    simp only [openVerdict, validated, bind, Py.bind_ok] at made
    obtain ⟨_, ⟨⟩, _, bound, pub, _, nodeId, _, made⟩ := made
    rw [Py.unless_ok] at made
    obtain ⟨_, made⟩ := made
    simp only [Py.bind_ok] at made
    obtain ⟨signed, _, data, _, sigText, _, sig, _, made⟩ := made
    rw [Py.unless_ok] at made
    obtain ⟨_, made⟩ := made
    simp only [Py.bind_ok] at made
    obtain ⟨contextHash, _, hash, hashed, made⟩ := made
    rw [Py.unless_ok] at made
    obtain ⟨_, made⟩ := made
    simp only [Py.bind_ok] at made
    obtain ⟨nonce, nonceRead, other, otherRead, made⟩ := made
    rw [Py.unless_ok] at made
    obtain ⟨same, made⟩ := made
    simp only [Py.bind_ok] at made
    obtain ⟨_, _, made⟩ := made
    obtain ⟨rfl, _⟩ := Prod.mk.inj (Except.ok.inj made)
    obtain rfl := not_not.mp same
    rw [dotGet_obj, Except.ok.injEq] at otherRead
    constructor
    · have member : (Str.ofString "nonce", ({
          type := .str, required := false, minLen := some 8, maxLen := some maxIdLen } : Field)) ∈
            verdictEnvelope.fields := by
        simp [verdictEnvelope]
      rcases Schema.collect_get collected envelope_no_defaults names member with
        ⟨_, _, absent⟩ | ⟨value, checked, _, valid, became⟩
      · rw [subscript_obj.mp nonceRead] at absent
        cases absent
      · obtain ⟨text, rfl, rfl, _, passed⟩ := (Field.validate_str rfl rfl).mp valid
        obtain ⟨least, most, _⟩ := Field.checkText_ok.mp passed
        obtain rfl := Option.some.inj ((subscript_obj.mp nonceRead).symm.trans became)
        exact ⟨text, contextHash_ok.mp ⟨hash, hashed⟩, least _ rfl, most _ rfl, some_of_getD otherRead (by simp)⟩
    · intro items reachable
      have member : (Str.ofString "reachable", ({
          type := .list, maxLen := some maxList, item := some (Field.validate { type := .bool }) } :
            Field)) ∈ verdictEnvelope.fields := by
        simp [verdictEnvelope]
      rcases Schema.collect_get collected envelope_no_defaults names member with
        ⟨_, _, absent⟩ | ⟨value, checked, _, valid, became⟩
      · rw [subscript_obj.mp reachable] at absent
        cases absent
      · obtain rfl := Option.some.inj ((subscript_obj.mp reachable).symm.trans became)
        exact checked_length rfl valid rfl

theorem openable_of_first {request : Dict Str Json} {verdict opened : Json} {replies : Replies}
    {nonces seen : NonceRegistry}
    (first : openFirst crypto true (.obj request) verdict replies nonces = .ok (opened, seen)) :
    (∃ nonce, Openable request nonce) ∧
      ∀ items, subscript opened "reachable" = .ok (.arr items) → items.length ≤ maxList := by
  simp only [openFirst, Bool.not_true, Bool.false_eq_true, if_false, bind, Py.bind_ok] at first
  obtain ⟨_, _, _, _, _, _, ⟨opened', seen⟩, opens, kept⟩ := first
  obtain ⟨rfl, _⟩ := Prod.mk.inj (Except.ok.inj kept)
  exact openable_of_open opens

def relabelled (request : Dict Str Json) : Dict Str Json :=
  Dict.set request "request_id"
    (.str (if Dict.get? request "request_id" = some (.str "a") then "b" else "a"))

theorem relabelled_ne (request : Dict Str Json) : relabelled request ≠ request := by
  intro same
  have read : Dict.get? (relabelled request) "request_id" = Dict.get? request "request_id" := by rw [same]
  rw [relabelled, Dict.get?_set_self] at read
  split at read
  · rename_i held
    rw [held] at read
    exact absurd (Json.str.inj (Option.some.inj read)) (by decide)
  · rename_i other
    exact other read.symm

theorem Openable.relabelled {request : Dict Str Json} {nonce : Str} (able : Openable request nonce) :
    Openable (relabelled request) nonce where
  expressible := by
    intro name member value read
    rw [subscript_obj, CrossVerifier.relabelled, Dict.get?_set] at read
    split at read
    · obtain rfl := Option.some.inj read
      split <;> exact (by decide)
    · exact able.expressible name member value (subscript_obj.mpr read)
  least := able.least
  most := able.most
  read := by
    have different : Str.ofString "request_id" ≠ Str.ofString "nonce" := by decide
    rw [CrossVerifier.relabelled, Dict.get?_set_ne _ different]
    exact able.read

/-- The verdict a peer seals for a list of its choice. -/
def chosenVerdict (items : List Bool) : Verdict where
  ok := true
  reachable := items
  minMargin := .zero
  verifierFp := "a"
  determinism := "attested"

theorem chosen_level (items : List Bool) : (chosenVerdict items).determinism ∈ determinismLevels :=
  List.mem_cons_self

theorem chosen_name (items : List Bool) : encodable (chosenVerdict items).verifierFp := rfl

theorem chosen_formed {items : List Bool} (fits : items.length ≤ maxList) :
    WellFormed (chosenVerdict items) where
  reachable := fits
  low := rfl
  high := rfl
  named := le_refl 1
  short := Nat.one_le_ofNat
  level := chosen_level items

/-- Replies that hand out a verdict, the index of its record, a key and a chain. -/
def presented (verdict index pubkey exported : Json) : Replies where
  score := .ok (200, .obj [("verdict", verdict), ("witness_receipt", .obj [("index", index)])])
  capabilities := .ok (.obj [("witness", .obj [("pubkey", pubkey)])])
  chain := .ok exported

theorem passes_of_presented {binding : Bool} {request : Dict Str Json} {nonces seen : NonceRegistry}
    {verdict index pubkey exported found opened ok node : Json}
    (judged : subscript opened "ok" = .ok ok) (named : subscript exported "node_id" = .ok node)
    (first : openFirst crypto binding (.obj request) verdict (presented verdict index pubkey exported)
      nonces = .ok (opened, seen))
    (audited : reaudit crypto exported (.obj [("index", index)]) opened = .ok found) :
    Passes crypto binding (.obj request) (presented verdict index pubkey exported) nonces exported
      opened found where
  answered := ⟨_, verdict, .obj [("index", index)], seen, rfl, rfl, rfl, rfl, first, audited⟩
  fetched := rfl
  judged := ⟨ok, judged⟩
  named := ⟨node, named⟩

/-- Any key can seal the verdict of its choice over a request that can be opened against. -/
theorem openFirst_chosen (lawful : crypto.Lawful) (sized : crypto.Sized) (sk : SigningKey)
    {request : Dict Str Json} {nonce : Str} (able : Openable request nonce) {items : List Bool}
    (fits : items.length ≤ maxList) (index exported : Json) : ∃ verdict,
      (∀ seen : NonceRegistry, (.str (canonicalNodeId crypto (sk.publicKey crypto)), .str nonce) ∉ seen →
        openFirst crypto true (.obj request) verdict
          (presented verdict index (.str (toHex (sk.publicKey crypto))) exported) seen =
            .ok (verdict, seen ++ [(.str (canonicalNodeId crypto (sk.publicKey crypto)), .str nonce)])) ∧
      subscript verdict "ok" = .ok (.bool true) ∧ subscript verdict "reachable" = .ok (bools items) ∧
      subscript verdict "min_margin" = .ok (.float .zero) := by
  obtain ⟨hash, hashed⟩ := (@contextHash_ok crypto request).mpr able.expressible
  have plain : encodable nonce := by
    have written := able.expressible "nonce" (by decide) _ (subscript_obj.mpr able.read)
    rwa [writable] at written
  have hex : encodable hash := by
    obtain ⟨text, rfl⟩ := contextHash_hash hashed
    exact encodable_toHex _
  obtain ⟨data, signed⟩ := Py.exists_of_isOk ((canonical_isOk
    (.obj (signedEntries (chosenVerdict items) (bindingOf crypto sk hash nonce)))).mpr
    ((writable_signed rfl (chosen_level items) (encodable_nodeId _ _) hex plain).mpr (chosen_name items)))
  have opens (seen : NonceRegistry) := @openVerdict_sealed _ _ _ _ _ _ lawful sized hashed able.read
    able.least able.most (chosen_formed fits) _ signed seen
  have carries := carries_envelope (chosenVerdict items) (bindingOf crypto sk hash nonce)
    (toHex (sk.sign crypto data))
  have read (entry : Str × Json) (member : entry ∈ signedEntries (chosenVerdict items)
      (bindingOf crypto sk hash nonce)) := subscript_obj.mpr (carries.signed entry member)
  refine ⟨_, ?_, read ("ok", .bool true) (by simp [signedEntries, chosenVerdict]),
    read ("reachable", bools items) (by simp [signedEntries, bools, chosenVerdict]),
    read ("min_margin", .float .zero) (by simp [signedEntries, chosenVerdict])⟩
  generalize Json.obj (envelopeEntries (chosenVerdict items) (bindingOf crypto sk hash nonce)
    (toHex (sk.sign crypto data))) = envelope at opens ⊢
  intro seen unused
  have first : openFirst crypto true (.obj request) envelope (presented envelope index
      (.str (toHex (sk.publicKey crypto))) exported) seen =
      (openVerdict crypto envelope (.obj request) (.str (toHex (sk.publicKey crypto))) (some seen)).bind
        (fun made => .ok (made.1, made.2.getD seen)) := rfl
  rw [first, opens seen unused]
  rfl

/-- A peer can answer any request it can be asked with any list that has the record's digest. -/
theorem passes_of_record (lawful : crypto.Lawful) (sized : crypto.Sized) {binding : Bool}
    {request : Dict Str Json} {exported found index node : Json} {items : List Bool}
    (named : subscript exported "node_id" = .ok node)
    (able : binding = true → (∃ nonce, Openable request nonce) ∧ items.length ≤ maxList)
    (made : rechainAndFind crypto exported index = .ok found)
    (bound : dotGet found "semantic_digest" = .ok (.str (digest (bools items)))) :
    ∃ replies nonces opened, Passes crypto binding (.obj request) replies nonces exported opened found ∧
      subscript opened "reachable" = .ok (bools items) := by
  have audited {opened : Json} (read : subscript opened "reachable" = .ok (bools items)) :
      reaudit crypto exported (.obj [("index", index)]) opened = .ok found :=
    reaudit_ok.mpr ⟨index, _, rfl, made, read, bound⟩
  cases binding with
  | false =>
    have read : subscript (.obj [("ok", .bool true), ("reachable", bools items)]) "reachable" =
        .ok (bools items) := rfl
    have first : openFirst crypto false (.obj request) (.obj [("ok", .bool true), ("reachable", bools items)])
        (presented (.obj [("ok", .bool true), ("reachable", bools items)]) index .null exported) [] =
        .ok (.obj [("ok", .bool true), ("reachable", bools items)], []) := rfl
    exact ⟨_, [], _, passes_of_presented rfl named first (audited read), read⟩
  | true =>
    obtain ⟨⟨nonce, able⟩, fits⟩ := able rfl
    obtain ⟨verdict, first, judged, read, _⟩ := openFirst_chosen lawful sized (.sample 1) able fits
      index exported
    exact ⟨_, [], verdict, passes_of_presented judged named (first [] List.not_mem_nil) (audited read), read⟩

/-- A record binds no request, and a list only up to its order. -/
theorem record_binds_no_request (lawful : crypto.Lawful) (sized : crypto.Sized) {binding : Bool}
    {request : Dict Str Json} {replies : Replies} {nonces : NonceRegistry}
    {exported opened found : Json} {items : List Bool}
    (passes : Passes crypto binding (.obj request) replies nonces exported opened found)
    (read : subscript opened "reachable" = .ok (bools items)) :
    (∃ other ≠ request, ∃ replies nonces opened,
      Passes crypto binding (.obj other) replies nonces exported opened found ∧
        subscript opened "reachable" = .ok (bools items)) ∧
      ∀ others : List Bool, (∃ replies nonces opened,
        Passes crypto binding (.obj request) replies nonces exported opened found ∧
          subscript opened "reachable" = .ok (bools others)) ↔ others.Perm items := by
  obtain ⟨⟨_, _, receipt, _, _, _, _, _, first, audited⟩, _, _, node, named⟩ := passes
  obtain ⟨index, reachable, _, made, same, bound⟩ := reaudit_ok.mp audited
  obtain rfl := Except.ok.inj (same.symm.trans read)
  have able : binding = true → (∃ nonce, Openable request nonce) ∧ items.length ≤ maxList := by
    rintro rfl
    obtain ⟨some_nonce, fits⟩ := openable_of_first first
    have short := fits _ read
    rw [List.length_map] at short
    exact ⟨some_nonce, short⟩
  constructor
  · refine ⟨relabelled request, relabelled_ne request, passes_of_record lawful sized named (fun hook => ?_)
      made bound⟩
    obtain ⟨⟨nonce, openable⟩, fits⟩ := able hook
    exact ⟨⟨nonce, openable.relabelled⟩, fits⟩
  · intro others
    constructor
    · rintro ⟨_, _, opened', ⟨⟨_, _, _, _, _, _, _, _, _, audited'⟩, _⟩, read'⟩
      obtain ⟨_, reachable', _, _, same', bound'⟩ := reaudit_ok.mp audited'
      obtain rfl := Except.ok.inj (same'.symm.trans read')
      exact digest_bools.mp (Json.str.inj (Except.ok.inj (bound'.symm.trans bound)))
    · intro order
      refine passes_of_record lawful sized named (fun hook => ?_) made (digest_bools.mpr order ▸ bound)
      obtain ⟨some_nonce, fits⟩ := able hook
      exact ⟨some_nonce, order.length_eq ▸ fits⟩

section OneRecord

variable (crypto)

def peerBody (items : List Bool) : Dict Str Json :=
  [("index", .int 0), ("prev_hash", .str genesis), ("semantic_digest", .str (digest (bools items)))]

def peerHash (items : List Bool) : Str :=
  H_hex crypto ((canonical (.obj (peerBody items))).toOption.getD [])

def peerRecord (sk : SigningKey) (items : List Bool) : Json :=
  .obj (peerBody items ++ ([("this_hash", .str (peerHash crypto items)),
    ("sig", .str (toHex (sk.sign crypto ((encode (peerHash crypto items)).toOption.getD []))))] :
      Dict Str Json))

/-- The export of a chain with one signed record, which has the digest of a list. -/
def peerExport (sk : SigningKey) (items : List Bool) : Json :=
  .obj [("node_id", .str (canonicalNodeId crypto (sk.publicKey crypto))),
    ("pubkey", .str (toHex (sk.publicKey crypto))), ("head", .str (peerHash crypto items)),
    ("records", .arr [peerRecord crypto sk items])]

end OneRecord

section Sample

def sampleExport : Json := peerExport .sample (.sample 2) [true, false]

def sampleRecord : Json := peerRecord .sample (.sample 2) [true, false]

def scoreFields : Dict Str Json :=
  match scoreRequest with
  | .obj fields => fields
  | _ => []

def peerVerdict (request : Dict Str Json) (items : List Bool) : Json :=
  ((sealVerdict .sample (chosenVerdict items) (.obj request) (.sample 1)).toOption).getD .null

def peerReplies (request : Dict Str Json) (items : List Bool) : Replies :=
  presented (peerVerdict request items) (.int 0) (.str (toHex ((SigningKey.sample 1).publicKey .sample)))
    sampleExport

/-- What evaluating the sample has to show. -/
def peerPasses (request : Dict Str Json) (items : List Bool) : Bool :=
  decide ((openFirst .sample true (.obj request) (peerVerdict request items)
      (peerReplies request items) []).toOption.map Prod.fst = some (peerVerdict request items) ∧
    reaudit .sample sampleExport (.obj [("index", .int 0)]) (peerVerdict request items) =
      .ok sampleRecord ∧
    subscript (peerVerdict request items) "ok" = .ok (.bool true) ∧
    subscript (peerVerdict request items) "reachable" = .ok (bools items))

theorem passes_of_peerPasses {request : Dict Str Json} {items : List Bool}
    (shown : peerPasses request items = true) :
    Passes .sample true (.obj request) (peerReplies request items) [] sampleExport
      (peerVerdict request items) sampleRecord ∧
    subscript (peerVerdict request items) "reachable" = .ok (bools items) := by
  obtain ⟨first, audited, judged, read⟩ := of_decide_eq_true shown
  cases opened : openFirst .sample true (.obj request) (peerVerdict request items)
      (peerReplies request items) [] with
  | error e =>
    rw [opened] at first
    cases first
  | ok made =>
    rw [opened] at first
    obtain ⟨verdict, seen⟩ := made
    obtain rfl := Option.some.inj first
    exact ⟨passes_of_presented judged rfl opened audited, read⟩

theorem peer_passes : peerPasses scoreFields [true, false] = true ∧ peerPasses scoreFields [false, true] = true ∧
    peerPasses (relabelled scoreFields) [true, false] = true := by
  decide +kernel

theorem record_binds_no_request_sample :
    (∃ other ≠ scoreFields, ∃ replies nonces opened,
      Passes .sample true (.obj other) replies nonces sampleExport opened sampleRecord ∧
        subscript opened "reachable" = .ok (bools [true, false])) ∧
      ∀ others : List Bool, (∃ replies nonces opened,
        Passes .sample true (.obj scoreFields) replies nonces sampleExport opened sampleRecord ∧
          subscript opened "reachable" = .ok (bools others)) ↔ others.Perm [true, false] :=
  record_binds_no_request Crypto.sample_lawful Crypto.sample_sized
    (passes_of_peerPasses peer_passes.1).1 (passes_of_peerPasses peer_passes.1).2

/-- One record passes for two lists and for two requests. -/
theorem one_record_passes_for_others :
    (Passes .sample true (.obj scoreFields) (peerReplies scoreFields [true, false]) [] sampleExport
        (peerVerdict scoreFields [true, false]) sampleRecord ∧
      subscript (peerVerdict scoreFields [true, false]) "reachable" = .ok (bools [true, false])) ∧
    (Passes .sample true (.obj scoreFields) (peerReplies scoreFields [false, true]) [] sampleExport
        (peerVerdict scoreFields [false, true]) sampleRecord ∧
      subscript (peerVerdict scoreFields [false, true]) "reachable" = .ok (bools [false, true])) ∧
    relabelled scoreFields ≠ scoreFields ∧
    Passes .sample true (.obj (relabelled scoreFields)) (peerReplies (relabelled scoreFields) [true, false])
      [] sampleExport (peerVerdict (relabelled scoreFields) [true, false]) sampleRecord :=
  ⟨passes_of_peerPasses peer_passes.1, passes_of_peerPasses peer_passes.2.1, by decide +kernel,
    (passes_of_peerPasses peer_passes.2.2).1⟩

end Sample

end CrossVerifier

end JJDai
