import Mathlib.Data.Finset.Card
import JJDai.Verification.ReAudit

/-! When a recorded pass rests on independent verifiers. -/

namespace JJDai

open PyText Canonical

namespace CrossVerifier

variable {crypto : Crypto}

section Definitions

variable (crypto)

/-- The id of the node whose key signs the chain of a passing verdict. -/
def Audited.signer? : Audited → Option Str
  | .counted _ true _ _ exported =>
    ((subscript exported "pubkey").bind bytesFromHex).toOption.map (canonicalNodeId crypto)
  | _ => none

/-- Enough distinct nodes other than the generator gave a verdict that passed. -/
def Independent (minVerifiers : Int) (generatorId : Str) (audited : List Audited) : Prop :=
  ∃ ids : List Str, ids.Nodup ∧ minVerifiers ≤ ids.length ∧
    ∀ id ∈ ids, id ≠ generatorId ∧ id ∈ audited.filterMap (Audited.signer? crypto)

/-- The keys under which the visited peers present their chains. -/
def Presents (replies : Nat → Replies) (pub : Nat → Bytes) : Prop :=
  ∀ visit exported text key, (replies visit).chain = .ok exported →
    subscript exported "pubkey" = .ok text → bytesFromHex text = .ok key → key = pub visit

/-- No visit leads to the generator's node, and no two lead to one node where two are needed. -/
structure Separate (minVerifiers : Int) (generatorId : Str) (visits : Nat) (pub : Nat → Bytes) :
    Prop where
  others : ∀ visit < visits, canonicalNodeId crypto (pub visit) ≠ generatorId
  distinct : 2 ≤ minVerifiers → ∀ visit later, visit < later → later < visits →
    canonicalNodeId crypto (pub visit) ≠ canonicalNodeId crypto (pub later)

end Definitions

theorem readable_of_rechain {exported index found : Json}
    (made : rechainAndFind crypto exported index = .ok found) :
    ∃ text key, subscript exported "pubkey" = .ok text ∧ bytesFromHex text = .ok key := by
  simp only [rechainAndFind, bind, Py.bind_ok] at made
  obtain ⟨text, read, key, decoded, _⟩ := made
  exact ⟨text, key, read, decoded⟩

theorem signer_of_counted {binding : Bool} {request minMargin node exported : Json} {url verifier : Str}
    {replies : Replies} {nonces seen : NonceRegistry} {pub : Bytes}
    (presents : ∀ exported text key, replies.chain = .ok exported →
      subscript exported "pubkey" = .ok text → bytesFromHex text = .ok key → key = pub)
    (made : auditPeer crypto binding request url replies nonces =
      .ok (.counted verifier true minMargin node exported, seen)) :
    Audited.signer? crypto (.counted verifier true minMargin node exported) =
      some (canonicalNodeId crypto pub) := by
  obtain ⟨opened, found, passes⟩ := counted_iff_passes.mp ⟨_, _, _, _, _, made⟩
  obtain ⟨_, _, _, _, _, _, _, _, _, audited⟩ := passes.answered
  obtain ⟨_, _, _, rechained, _⟩ := reaudit_ok.mp audited
  obtain ⟨text, key, read, decoded⟩ := readable_of_rechain rechained
  obtain rfl := presents _ _ _ passes.fetched read decoded
  rw [Audited.signer?, read, Except.bind, decoded]
  rfl

/-- A verdict that counted in the mode with the hook was for a request that can be opened against. -/
theorem openable_of_counted {request : Dict Str Json} {minMargin node exported : Json}
    {url verifier : Str} {replies : Replies} {nonces seen : NonceRegistry} {ok : Bool}
    (made : auditPeer crypto true (.obj request) url replies nonces =
      .ok (.counted verifier ok minMargin node exported, seen)) : ∃ nonce, Openable request nonce := by
  obtain ⟨opened, found, passes⟩ := counted_iff_passes.mp ⟨_, _, _, _, _, made⟩
  obtain ⟨_, verdict, _, seen, _, _, _, _, first, _⟩ := passes.answered
  exact (openable_of_first first).1

section Loop

variable {binding : Bool} {request : Json} {replies : Nat → Replies} {pub : Nat → Bytes}

theorem auditLoop_signers (presents : Presents replies pub) {urls : List Str} {visit : Nat}
    {nonces : NonceRegistry} {audited : List Audited}
    (made : auditLoop crypto binding request replies visit urls nonces = .ok audited) :
    (audited.filterMap (Audited.signer? crypto)).Sublist
        ((List.range' visit urls.length).map (fun visit => canonicalNodeId crypto (pub visit))) ∧
      (audited.filterMap (Audited.signer? crypto)).length = (audited.filterMap Audited.margin?).length := by
  induction urls generalizing visit nonces audited with
  | nil =>
    obtain rfl := Except.ok.inj made
    exact ⟨.slnil, rfl⟩
  | cons url rest ih =>
    simp only [auditLoop, bind, Py.bind_ok] at made
    obtain ⟨⟨entry, seen⟩, first, later, others, made⟩ := made
    obtain rfl := Except.ok.inj made
    obtain ⟨sub, size⟩ := ih others
    rw [List.length_cons, List.range'_succ, List.map_cons]
    cases entry with
    | discarded verifier reason => exact ⟨sub.cons _, size⟩
    | counted verifier ok minMargin node exported =>
      cases ok with
      | false => exact ⟨sub.cons _, size⟩
      | true =>
        have signer := signer_of_counted (fun exported text key => presents visit exported text key) first
        have kept : Audited.margin? (.counted verifier true minMargin node exported) = some minMargin := rfl
        rw [List.filterMap_cons_some signer, List.filterMap_cons_some kept]
        exact ⟨sub.cons_cons _, congrArg Nat.succ size⟩

theorem none_counted {request : Dict Str Json} (closed : ∀ nonce, ¬Openable request nonce)
    {urls : List Str} {visit : Nat} {nonces : NonceRegistry} {audited : List Audited}
    (made : auditLoop crypto true (.obj request) replies visit urls nonces = .ok audited) :
    audited.filterMap Audited.margin? = [] := by
  induction urls generalizing visit nonces audited with
  | nil =>
    obtain rfl := Except.ok.inj made
    rfl
  | cons url rest ih =>
    simp only [auditLoop, bind, Py.bind_ok] at made
    obtain ⟨⟨entry, seen⟩, first, later, others, made⟩ := made
    obtain rfl := Except.ok.inj made
    cases entry with
    | discarded verifier reason =>
      rw [List.filterMap_cons_none rfl]
      exact ih others
    | counted verifier ok minMargin node exported =>
      obtain ⟨nonce, able⟩ := openable_of_counted first
      exact absurd able (closed nonce)

end Loop

section Recorded

variable {binding : Bool} {minVerifiers : Int} {record : Bool → Json → Py Json}
  {generatorUrl generatorId : Str} {verifierUrls : List Str} {jiiRequest : Dict Str Json}
  {outputTokens : List Json} {replies : Nat → Replies} {nonces : NonceRegistry} {trace : Trace}
  {receipt : Json}

def asked (generatorUrl : Str) (verifierUrls : List Str) : List Str :=
  verifierUrls.filter (fun url => url ≠ generatorUrl)

theorem passed_of_recorded
    (made : verifyAndRecord crypto binding minVerifiers record generatorUrl verifierUrls jiiRequest
      outputTokens replies nonces = .ok trace) (recorded : trace.recorded = some (true, receipt)) :
    auditLoop crypto binding (.obj (Dict.set jiiRequest "tokens" (.arr outputTokens))) replies 0
        (asked generatorUrl verifierUrls) nonces = .ok trace.audited ∧
      minVerifiers ≤ (trace.audited.filterMap Audited.margin?).length := by
  simp only [verifyAndRecord, bind, Py.unless_ok, Py.bind_ok] at made
  obtain ⟨_, audited, looped, made⟩ := made
  split at made
  · split at made
    all_goals
      simp only [Py.bind_ok] at made
      obtain ⟨margin, _, receipt', _, made⟩ := made
      obtain rfl := Except.ok.inj made
      obtain ⟨passed, _⟩ := Prod.mk.inj (Option.some.inj recorded)
      exact ⟨looped, of_decide_eq_true passed⟩
  · obtain rfl := Except.ok.inj made
    cases recorded

theorem independent_of_separate {pub : Nat → Bytes} (presents : Presents replies pub)
    (separate : Separate crypto minVerifiers generatorId (asked generatorUrl verifierUrls).length pub)
    (made : verifyAndRecord crypto binding minVerifiers record generatorUrl verifierUrls jiiRequest
      outputTokens replies nonces = .ok trace) (recorded : trace.recorded = some (true, receipt)) :
    Independent crypto minVerifiers generatorId trace.audited := by
  obtain ⟨looped, enough⟩ := passed_of_recorded made recorded
  obtain ⟨sub, size⟩ := auditLoop_signers presents looped
  rw [← size] at enough
  have other (id : Str) (member : id ∈ trace.audited.filterMap (Audited.signer? crypto)) :
      id ≠ generatorId := by
    obtain ⟨visit, inside, rfl⟩ := List.mem_map.mp (sub.subset member)
    obtain ⟨i, small, rfl⟩ := List.mem_range'.mp inside
    exact separate.others _ (by omega)
  by_cases several : 2 ≤ minVerifiers
  · have unique : ((List.range' 0 (asked generatorUrl verifierUrls).length).map
        (fun visit => canonicalNodeId crypto (pub visit))).Nodup := by
      refine List.Nodup.map_on (fun visit inside later inside' same => ?_) List.nodup_range'
      obtain ⟨i, small, rfl⟩ := List.mem_range'.mp inside
      obtain ⟨j, small', rfl⟩ := List.mem_range'.mp inside'
      rcases lt_trichotomy (0 + 1 * i) (0 + 1 * j) with before | equal | after
      · exact absurd same (separate.distinct several _ _ before (by omega))
      · exact equal
      · exact absurd same.symm (separate.distinct several _ _ after (by omega))
    exact ⟨_, unique.sublist sub, enough, fun id member => ⟨other id member, member⟩⟩
  · cases passed : trace.audited.filterMap (Audited.signer? crypto) with
    | nil =>
      rw [passed] at enough
      exact ⟨[], List.nodup_nil, enough, nofun⟩
    | cons id rest =>
      refine ⟨[id], List.nodup_singleton id, by rw [List.length_singleton]; omega, fun other' member => ?_⟩
      obtain rfl := List.mem_singleton.mp member
      have inside : other' ∈ trace.audited.filterMap (Audited.signer? crypto) := by
        rw [passed]
        exact List.mem_cons_self
      exact ⟨other _ inside, inside⟩

end Recorded

section Staged

theorem canonical_peerBody : (canonical (.obj (peerBody [true]))).isOk = true := by decide +kernel

theorem rechain_peer (lawful : crypto.Lawful) (sk : SigningKey) :
    rechainAndFind crypto (peerExport crypto sk [true]) (.int 0) = .ok (peerRecord crypto sk [true]) := by
  obtain ⟨data, written⟩ := Py.exists_of_isOk canonical_peerBody
  have hash : peerHash crypto [true] = H_hex crypto data := by rw [peerHash, written]; rfl
  obtain ⟨signed, encoded⟩ : ∃ signed, encode (H_hex crypto data) = .ok signed :=
    Py.exists_of_isOk (by rw [encode_isOk]; exact encodable_toHex _)
  have verified : crypto.verify (sk.publicKey crypto) signed (sk.sign crypto signed) = true := lawful _ _
  have record : peerRecord crypto sk [true] = .obj (peerBody [true] ++
      ([("this_hash", .str (H_hex crypto data)), ("sig", .str (toHex (sk.sign crypto signed)))] :
        Dict Str Json)) := by
    rw [peerRecord, hash, encoded]
    rfl
  have body : unsignedRecord (peerBody [true] ++ ([("this_hash", .str (H_hex crypto data)),
      ("sig", .str (toHex (sk.sign crypto signed)))] : Dict Str Json)) = peerBody [true] := by
    rfl
  have loop : rechainLoop crypto (sk.publicKey crypto) (.int 0) 0 (.str genesis) none
      [peerRecord crypto sk [true]] = .ok (some (peerRecord crypto sk [true]), .str (H_hex crypto data)) := by
    have index : subscript (peerRecord crypto sk [true]) "index" = .ok (.int 0) := by rw [record]; rfl
    have prev : subscript (peerRecord crypto sk [true]) "prev_hash" = .ok (.str genesis) := by
      rw [record]; rfl
    have this : subscript (peerRecord crypto sk [true]) "this_hash" = .ok (.str (H_hex crypto data)) := by
      rw [record]; rfl
    have sig : subscript (peerRecord crypto sk [true]) "sig" =
        .ok (.str (toHex (sk.sign crypto signed))) := by
      rw [record]; rfl
    rw [record] at index prev this sig ⊢
    simp only [rechainLoop, index, prev, this, sig, body, written, encoded, verified, bytesFromHex_toHex,
      bind, Except.bind]
    simp [pure, Except.pure, Json.pyEq]
  have pubkey : subscript (peerExport crypto sk [true]) "pubkey" =
      .ok (.str (toHex (sk.publicKey crypto))) := rfl
  have records : subscript (peerExport crypto sk [true]) "records" =
      .ok (.arr [peerRecord crypto sk [true]]) := rfl
  have head : subscript (peerExport crypto sk [true]) "head" = .ok (.str (H_hex crypto data)) := by
    rw [← hash]
    rfl
  simp only [rechainAndFind, pubkey, records, head, pyList, bytesFromHex_toHex, loop, bind, Except.bind]
  simp [pure, Except.pure, Json.pyEq]

variable (crypto) in
/-- One visit that is answered with a verdict that counts, from any registry without its nonce. -/
structure Stage (binding : Bool) (request : Json) (sk sealer : SigningKey) (nonce : Str) (verdict : Json) :
    Prop where
  opens : ∀ seen : NonceRegistry,
    (binding = true → (.str (canonicalNodeId crypto (sealer.publicKey crypto)), .str nonce) ∉ seen) →
      openFirst crypto binding request verdict (presented verdict (.int 0)
        (.str (toHex (sealer.publicKey crypto))) (peerExport crypto sk [true])) seen =
        .ok (verdict, if binding then
          seen ++ [(.str (canonicalNodeId crypto (sealer.publicKey crypto)), .str nonce)] else seen)
  judged : subscript verdict "ok" = .ok (.bool true)
  reachable : subscript verdict "reachable" = .ok (bools [true])
  margin : getDefault verdict "min_margin" (.float .zero) = .ok (.float .zero)

theorem stage_of_openable (lawful : crypto.Lawful) (sized : crypto.Sized) {binding : Bool}
    {request : Dict Str Json} {nonce : Str} (able : binding = true → Openable request nonce)
    (sk sealer : SigningKey) : ∃ verdict, Stage crypto binding (.obj request) sk sealer nonce verdict := by
  cases binding with
  | false =>
    refine ⟨.obj [("ok", .bool true), ("reachable", bools [true])], ⟨fun seen _ => rfl, rfl, rfl, rfl⟩⟩
  | true =>
    obtain ⟨verdict, opens, judged, reachable, margin⟩ := openFirst_chosen lawful sized sealer (able rfl)
      (show [true].length ≤ maxList by decide) (.int 0) (peerExport crypto sk [true])
    refine ⟨verdict, ⟨fun seen unused => opens seen (unused rfl), judged, reachable, ?_⟩⟩
    obtain ⟨fields, rfl⟩ := obj_of_subscript margin
    rw [getDefault, subscript_obj.mp margin]
    rfl

theorem auditPeer_presented {binding : Bool} {request verdict opened index pubkey exported found node margin : Json}
    {ok : Bool} {url : Str} {nonces seen : NonceRegistry}
    (first : openFirst crypto binding request verdict (presented verdict index pubkey exported) nonces =
      .ok (opened, seen)) (audited : reaudit crypto exported (.obj [("index", index)]) opened = .ok found)
    (judged : subscript opened "ok" = .ok (.bool ok))
    (read : getDefault opened "min_margin" (.float .zero) = .ok margin)
    (named : subscript exported "node_id" = .ok node) :
    auditPeer crypto binding request url (presented verdict index pubkey exported) nonces =
      .ok (.counted url ok margin node exported, seen) := by
  have contains : pyContains "verdict" (.obj [("verdict", verdict),
      ("witness_receipt", .obj [("index", index)])]) = .ok true := rfl
  have held : subscript (.obj [("verdict", verdict), ("witness_receipt", .obj [("index", index)])])
      "verdict" = .ok verdict := rfl
  have receipt : dotGet (.obj [("verdict", verdict), ("witness_receipt", .obj [("index", index)])])
      "witness_receipt" = .ok (.obj [("index", index)]) := rfl
  have fetched : (presented verdict index pubkey exported).chain = .ok exported := rfl
  have answered : (presented verdict index pubkey exported).score = .ok (200, .obj [("verdict", verdict),
      ("witness_receipt", .obj [("index", index)])]) := rfl
  simp only [auditPeer, answered, contains, held, receipt, first, fetched, bind, Except.bind]
  simp [truthy, audited, judged, read, named, pure, Except.pure]

end Staged

section Attack

section Definitions

variable (crypto)

/-- Replies that pass at the visits of a set and are refused at the others. -/
def stagedReplies (keys sealers : Nat → SigningKey) (verdicts : Nat → Json) (chosen : Finset Nat)
    (visit : Nat) : Replies :=
  if visit ∈ chosen then
    presented (verdicts visit) (.int 0) (.str (toHex ((sealers visit).publicKey crypto)))
      (peerExport crypto (keys visit) [true])
  else ⟨.ok (500, .null), .ok .null, .ok (peerExport crypto (keys visit) [true])⟩

def stagedEntry (keys : Nat → SigningKey) (chosen : Finset Nat) (visit : Nat) (url : Str) : Audited :=
  if visit ∈ chosen then
    .counted url true (.float .zero) (.str (canonicalNodeId crypto ((keys visit).publicKey crypto)))
      (peerExport crypto (keys visit) [true])
  else .discarded url ("score status " ++ intText 500)

def stagedAudit (keys : Nat → SigningKey) (chosen : Finset Nat) (visit : Nat) (urls : List Str) :
    List Audited :=
  (urls.zipIdx visit).map (fun entry => stagedEntry crypto keys chosen entry.2 entry.1)

/-- Sealing keys with different ids, one a visit, that the registry has not seen. -/
structure FreshKeys (nonces : NonceRegistry) (visits : Nat) (sealers : Nat → SigningKey) : Prop where
  distinct : ∀ visit later, visit < later → later < visits →
    canonicalNodeId crypto ((sealers visit).publicKey crypto) ≠
      canonicalNodeId crypto ((sealers later).publicKey crypto)
  unseen : ∀ visit < visits, ∀ nonce,
    (.str (canonicalNodeId crypto ((sealers visit).publicKey crypto)), nonce) ∉ nonces

end Definitions

variable {binding : Bool} {request : Json} {keys sealers : Nat → SigningKey} {nonce : Str}
  {verdicts : Nat → Json} {chosen : Finset Nat}

theorem presents_staged : Presents (stagedReplies crypto keys sealers verdicts chosen)
    (fun visit => (keys visit).publicKey crypto) := by
  intro visit exported text key fetched read decoded
  have chain : (stagedReplies crypto keys sealers verdicts chosen visit).chain =
      .ok (peerExport crypto (keys visit) [true]) := by
    rw [stagedReplies]
    split <;> rfl
  obtain rfl := Except.ok.inj (chain.symm.trans fetched)
  obtain rfl := Except.ok.inj ((show _ = Except.ok (Json.str (toHex ((keys visit).publicKey crypto)))
    from rfl).symm.trans read)
  rw [bytesFromHex_toHex] at decoded
  exact (Except.ok.inj decoded).symm

theorem auditPeer_staged (lawful : crypto.Lawful) {visit : Nat}
    (stage : Stage crypto binding request (keys visit) (sealers visit) nonce (verdicts visit)) (url : Str)
    {nonces : NonceRegistry} (unused : binding = true →
      (.str (canonicalNodeId crypto ((sealers visit).publicKey crypto)), .str nonce) ∉ nonces) :
    ∃ seen, auditPeer crypto binding request url (stagedReplies crypto keys sealers verdicts chosen visit)
        nonces = .ok (stagedEntry crypto keys chosen visit url, seen) ∧
      ∀ used ∈ seen, used ∈ nonces ∨
        used = (.str (canonicalNodeId crypto ((sealers visit).publicKey crypto)), .str nonce) := by
  rw [stagedReplies, stagedEntry]
  by_cases member : visit ∈ chosen
  · rw [if_pos member, if_pos member]
    have audited : reaudit crypto (peerExport crypto (keys visit) [true]) (.obj [("index", .int 0)])
        (verdicts visit) = .ok (peerRecord crypto (keys visit) [true]) :=
      reaudit_ok.mpr ⟨.int 0, _, rfl, rechain_peer lawful _, stage.reachable, rfl⟩
    refine ⟨_, auditPeer_presented (stage.opens nonces unused) audited stage.judged stage.margin rfl, ?_⟩
    intro used inside
    split at inside
    · rcases List.mem_append.mp inside with before | last
      · exact .inl before
      · exact .inr (List.mem_singleton.mp last)
    · exact .inl inside
  · rw [if_neg member, if_neg member]
    exact ⟨nonces, rfl, fun used inside => .inl inside⟩

theorem auditLoop_staged (lawful : crypto.Lawful)
    (stage : ∀ visit, Stage crypto binding request (keys visit) (sealers visit) nonce (verdicts visit))
    {visits : Nat} (distinct : binding = true → ∀ visit later, visit < later → later < visits →
      canonicalNodeId crypto ((sealers visit).publicKey crypto) ≠
        canonicalNodeId crypto ((sealers later).publicKey crypto))
    {urls : List Str} {visit : Nat} (all : visit + urls.length ≤ visits) {nonces : NonceRegistry}
    (unused : binding = true → ∀ later, visit ≤ later → later < visits →
      (.str (canonicalNodeId crypto ((sealers later).publicKey crypto)), .str nonce) ∉ nonces) :
    auditLoop crypto binding request (stagedReplies crypto keys sealers verdicts chosen) visit urls nonces =
      .ok (stagedAudit crypto keys chosen visit urls) := by
  induction urls generalizing visit nonces with
  | nil => rfl
  | cons url rest ih =>
    rw [List.length_cons] at all
    obtain ⟨seen, made, grown⟩ := @auditPeer_staged crypto binding request keys sealers nonce verdicts
      chosen lawful visit (stage visit) url nonces (fun hook => unused hook visit le_rfl (by omega))
    have later := @ih (visit + 1) (by omega) seen (fun hook later after inside used => by
      rcases grown _ used with before | same
      · exact unused hook later (by omega) inside before
      · exact distinct hook visit later (by omega) inside (Json.str.inj (Prod.mk.inj same).1).symm)
    simp only [auditLoop, made, later, bind, Except.bind]
    rfl

theorem stagedAudit_counts (urls : List Str) (visit : Nat) :
    (stagedAudit crypto keys chosen visit urls).filterMap Audited.verdict =
        List.replicate ((List.range' visit urls.length).filter (· ∈ chosen)).length true ∧
      (stagedAudit crypto keys chosen visit urls).filterMap Audited.margin? =
        List.replicate ((List.range' visit urls.length).filter (· ∈ chosen)).length (.float .zero) := by
  induction urls generalizing visit with
  | nil => exact ⟨rfl, rfl⟩
  | cons url rest ih =>
    obtain ⟨verdicts, margins⟩ := ih (visit + 1)
    have step : stagedAudit crypto keys chosen visit (url :: rest) =
        stagedEntry crypto keys chosen visit url :: stagedAudit crypto keys chosen (visit + 1) rest := rfl
    rw [step, List.length_cons, List.range'_succ]
    by_cases member : visit ∈ chosen
    · rw [List.filter_cons_of_pos (by simpa using member), List.length_cons, List.replicate_succ,
        List.replicate_succ, ← verdicts, ← margins, stagedEntry, if_pos member]
      exact ⟨rfl, rfl⟩
    · rw [List.filter_cons_of_neg (by simpa using member), ← verdicts, ← margins, stagedEntry,
        if_neg member]
      exact ⟨rfl, rfl⟩

theorem stagedAudit_signers {urls : List Str} {visit : Nat} {id : Str}
    (member : id ∈ (stagedAudit crypto keys chosen visit urls).filterMap (Audited.signer? crypto)) :
    ∃ visit ∈ chosen, canonicalNodeId crypto ((keys visit).publicKey crypto) = id := by
  obtain ⟨entry, inside, signed⟩ := List.mem_filterMap.mp member
  obtain ⟨⟨url, visit⟩, _, rfl⟩ := List.mem_map.mp inside
  rw [stagedEntry] at signed
  by_cases passed : visit ∈ chosen
  · rw [if_pos passed] at signed
    have signer : Audited.signer? crypto (.counted url true (.float .zero)
        (.str (canonicalNodeId crypto ((keys visit).publicKey crypto)))
        (peerExport crypto (keys visit) [true])) =
        ((bytesFromHex (.str (toHex ((keys visit).publicKey crypto)))).toOption).map
          (canonicalNodeId crypto) := rfl
    rw [signer, bytesFromHex_toHex] at signed
    exact ⟨visit, passed, Option.some.inj signed⟩
  · rw [if_neg passed] at signed
    cases signed

theorem pyMin_replicate {value : Json} {result : Bool} (compared : pyLess value value = .ok result)
    (n : Nat) : pyMin value (List.replicate n value) = .ok value := by
  induction n with
  | zero => rfl
  | succ n ih =>
    rw [pyMin] at ih ⊢
    rw [List.replicate_succ, List.foldlM_cons]
    simp only [compared, bind, Except.bind, pure, Except.pure, ite_self]
    exact ih

theorem recorded_staged (lawful : crypto.Lawful) {generatorUrl : Str} {verifierUrls : List Str}
    {jiiRequest : Dict Str Json} {outputTokens : List Json} {nonces : NonceRegistry}
    (stage : ∀ visit, Stage crypto binding (.obj (Dict.set jiiRequest "tokens" (.arr outputTokens)))
      (keys visit) (sealers visit) nonce (verdicts visit))
    (fresh : binding = true → FreshKeys crypto nonces (asked generatorUrl verifierUrls).length sealers)
    (inside : chosen ⊆ Finset.range (asked generatorUrl verifierUrls).length) (some_left : chosen.Nonempty) :
    verifyAndRecord crypto binding chosen.card (fun _ _ => .ok .null) generatorUrl verifierUrls jiiRequest
      outputTokens (stagedReplies crypto keys sealers verdicts chosen) nonces =
      .ok ⟨(asked generatorUrl verifierUrls).length,
        stagedAudit crypto keys chosen 0 (asked generatorUrl verifierUrls), some (true, .null)⟩ := by
  have looped := @auditLoop_staged crypto binding _ keys sealers nonce verdicts chosen lawful stage
    _ (fun hook => (fresh hook).distinct) (asked generatorUrl verifierUrls) 0 (by omega) nonces
    (fun hook later _ small => (fresh hook).unseen later small _)
  have size : ((List.range' 0 (asked generatorUrl verifierUrls).length).filter (· ∈ chosen)).length =
      chosen.card := by
    rw [← List.toFinset_card_of_nodup (List.Nodup.filter _ List.nodup_range')]
    congr 1
    ext visit
    have small := @inside visit
    simp only [List.mem_toFinset, List.mem_filter, List.mem_range', decide_eq_true_eq,
      Finset.mem_range] at small ⊢
    constructor
    · rintro ⟨_, member⟩
      exact member
    · intro member
      exact ⟨⟨visit, small member, by omega⟩, member⟩
  obtain ⟨counted, margins⟩ := @stagedAudit_counts crypto keys chosen (asked generatorUrl verifierUrls) 0
  rw [size] at counted margins
  have peers : asked generatorUrl verifierUrls ≠ [] := by
    intro none_left
    rw [none_left] at inside
    obtain ⟨visit, member⟩ := some_left
    simpa using inside member
  have compared : pyLess (.float .zero) (.float .zero) = .ok (PyFloat.zero.less .zero) := by
    rw [pyLess]
    rfl
  obtain ⟨rest, count⟩ := Nat.exists_eq_succ_of_ne_zero (Finset.card_ne_zero.mpr some_left)
  have lowest : List.replicate chosen.card (Json.float .zero) =
      .float .zero :: List.replicate rest (.float .zero) := by
    rw [count, List.replicate_succ]
  rw [lowest] at margins
  have peers' : ¬verifierUrls.filter (fun url => decide (url ≠ generatorUrl)) = [] := peers
  have looped' : auditLoop crypto binding (.obj (Dict.set jiiRequest "tokens" (.arr outputTokens)))
      (stagedReplies crypto keys sealers verdicts chosen) 0
      (verifierUrls.filter (fun url => decide (url ≠ generatorUrl))) nonces =
      .ok (stagedAudit crypto keys chosen 0 (asked generatorUrl verifierUrls)) := looped
  simp only [verifyAndRecord, if_neg peers', looped', counted, margins, pyMin_replicate compared,
    bind, Except.bind]
  simp [count, asked, pure, Except.pure]

end Attack

theorem not_independent_staged {keys : Nat → SigningKey} {chosen : Finset Nat} {generatorId : Str}
    {urls : List Str} (shared : (∃ visit ∈ chosen,
        canonicalNodeId crypto ((keys visit).publicKey crypto) = generatorId) ∨
      ∃ visit ∈ chosen, ∃ later ∈ chosen, visit ≠ later ∧
        canonicalNodeId crypto ((keys visit).publicKey crypto) =
          canonicalNodeId crypto ((keys later).publicKey crypto)) :
    ¬Independent crypto chosen.card generatorId (stagedAudit crypto keys chosen 0 urls) := by
  rintro ⟨ids, unique, enough, each⟩
  have image : ids.toFinset ⊆ (chosen.image
      (fun visit => canonicalNodeId crypto ((keys visit).publicKey crypto))).erase generatorId := by
    intro id member
    obtain ⟨other, passed⟩ := each id (List.mem_toFinset.mp member)
    obtain ⟨visit, inside, rfl⟩ := stagedAudit_signers passed
    exact Finset.mem_erase.mpr ⟨other, Finset.mem_image_of_mem _ inside⟩
  have bound := Finset.card_le_card image
  rw [List.toFinset_card_of_nodup unique] at bound
  have size : (chosen.image (fun visit => canonicalNodeId crypto ((keys visit).publicKey crypto))).card ≤
      chosen.card := Finset.card_image_le
  rcases shared with ⟨visit, inside, generator⟩ | ⟨visit, inside, later, inside', different, same⟩
  · have less := Finset.card_erase_lt_of_mem (generator ▸ Finset.mem_image_of_mem
      (fun visit => canonicalNodeId crypto ((keys visit).publicKey crypto)) inside)
    omega
  · have less := Finset.card_erase_le (s := chosen.image
      (fun visit => canonicalNodeId crypto ((keys visit).publicKey crypto))) (a := generatorId)
    have strict : (chosen.image (fun visit => canonicalNodeId crypto ((keys visit).publicKey crypto))).card ≠
        chosen.card := fun equal => different (Finset.card_image_iff.mp equal inside inside' same)
    omega

/-- Every recorded pass rests on independent verifiers exactly if no pass can be recorded, none
is needed, or the URLs lead to separate nodes. -/
theorem independent_iff (lawful : crypto.Lawful) (sized : crypto.Sized) {binding : Bool}
    {minVerifiers : Int} {generatorUrl generatorId : Str} {verifierUrls : List Str}
    {jiiRequest : Dict Str Json} {outputTokens : List Json} {nonces : NonceRegistry}
    {keys sealers : Nat → SigningKey}
    (fresh : binding = true → FreshKeys crypto nonces (asked generatorUrl verifierUrls).length sealers) :
    (∀ record replies trace receipt, Presents replies (fun visit => (keys visit).publicKey crypto) →
      verifyAndRecord crypto binding minVerifiers record generatorUrl verifierUrls jiiRequest outputTokens
        replies nonces = .ok trace → trace.recorded = some (true, receipt) →
        Independent crypto minVerifiers generatorId trace.audited) ↔
      (asked generatorUrl verifierUrls).length < minVerifiers ∨ minVerifiers ≤ 0 ∨
        (binding = true ∧ ∀ nonce, ¬Openable (Dict.set jiiRequest "tokens" (.arr outputTokens)) nonce) ∨
        Separate crypto minVerifiers generatorId (asked generatorUrl verifierUrls).length
          (fun visit => (keys visit).publicKey crypto) := by
  constructor
  · intro always
    by_contra outside
    simp only [not_or, not_lt, not_le, not_and, not_forall, not_not] at outside
    obtain ⟨enough, some_needed, able, joined⟩ := outside
    obtain ⟨needed, rfl⟩ := Int.eq_ofNat_of_zero_le some_needed.le
    have able : ∃ nonce, binding = true →
        Openable (Dict.set jiiRequest "tokens" (.arr outputTokens)) nonce := by
      by_cases hook : binding = true
      · obtain ⟨nonce, open_⟩ := able hook
        exact ⟨nonce, fun _ => open_⟩
      · exact ⟨[], fun on => absurd on hook⟩
    obtain ⟨nonce, able⟩ := able
    choose verdicts stage using fun visit =>
      stage_of_openable lawful sized able (keys visit) (sealers visit)
    have attack (bad : Finset Nat) (inside : bad ⊆ Finset.range (asked generatorUrl verifierUrls).length)
        (few : bad.card ≤ needed) (shared : (∃ visit ∈ bad,
            canonicalNodeId crypto ((keys visit).publicKey crypto) = generatorId) ∨
          ∃ visit ∈ bad, ∃ later ∈ bad, visit ≠ later ∧
            canonicalNodeId crypto ((keys visit).publicKey crypto) =
              canonicalNodeId crypto ((keys later).publicKey crypto)) : False := by
      obtain ⟨chosen, more, within, size⟩ := Finset.exists_subsuperset_card_eq inside few
        (by rw [Finset.card_range]; omega)
      have some_left : chosen.Nonempty := by
        rw [← Finset.card_pos, size]
        omega
      have made := recorded_staged lawful stage fresh within some_left
      rw [size] at made
      have independent := always _ _ _ _ presents_staged made rfl
      rw [← size] at independent
      refine not_independent_staged ?_ independent
      rcases shared with ⟨visit, member, generator⟩ | ⟨visit, member, later, member', rest⟩
      · exact .inl ⟨visit, more member, generator⟩
      · exact .inr ⟨visit, more member, later, more member', rest⟩
    refine joined ⟨fun visit small generator => ?_, fun several visit later before small same => ?_⟩
    · exact attack {visit} (by simpa using small) (by rw [Finset.card_singleton]; omega)
        (.inl ⟨visit, Finset.mem_singleton_self visit, generator⟩)
    · refine attack {visit, later} (fun member inside => ?_)
        (by rw [Finset.card_pair before.ne]; omega)
        (.inr ⟨visit, Finset.mem_insert_self _ _, later,
          Finset.mem_insert_of_mem (Finset.mem_singleton_self _), before.ne, same⟩)
      rw [Finset.mem_range]
      rcases Finset.mem_insert.mp inside with rfl | last
      · exact before.trans small
      · rw [Finset.mem_singleton.mp last]
        exact small
  · rintro (few | none_needed | ⟨rfl, closed⟩ | separate) record replies trace receipt presents made recorded
    · obtain ⟨looped, enough⟩ := passed_of_recorded made recorded
      obtain ⟨sub, size⟩ := auditLoop_signers presents looped
      have bound := sub.length_le
      rw [List.length_map, List.length_range', size] at bound
      omega
    · exact ⟨[], List.nodup_nil, none_needed, nofun⟩
    · obtain ⟨looped, enough⟩ := passed_of_recorded made recorded
      rw [none_counted closed looped] at enough
      exact ⟨[], List.nodup_nil, enough, nofun⟩
    · exact independent_of_separate presents separate made recorded

section Sample

theorem fresh_sample : FreshKeys .sample [] (asked "http://g" ["http://a", "http://b"]).length
    (fun visit => .sample (UInt8.ofNat visit)) where
  distinct := by
    intro visit later before small
    have shown : canonicalNodeId .sample ((SigningKey.sample 0).publicKey .sample) ≠
        canonicalNodeId .sample ((SigningKey.sample 1).publicKey .sample) := by
      decide +kernel
    have size : (asked "http://g" ["http://a", "http://b"]).length = 2 := by decide
    obtain rfl : visit = 0 := by omega
    obtain rfl : later = 1 := by omega
    exact shown
  unseen := fun _ _ _ => List.not_mem_nil

theorem independent_iff_sample :
    (∀ record replies trace receipt, Presents replies (fun _ => (SigningKey.sample 2).publicKey .sample) →
      verifyAndRecord .sample true 2 record "http://g" ["http://a", "http://b"] scoreFields [.str "t3"]
        replies [] = .ok trace → trace.recorded = some (true, receipt) →
        Independent .sample 2 "node:g" trace.audited) ↔
      (asked "http://g" ["http://a", "http://b"]).length < (2 : Int) ∨ (2 : Int) ≤ 0 ∨
        (true = true ∧ ∀ nonce, ¬Openable (Dict.set scoreFields "tokens" (.arr [.str "t3"])) nonce) ∨
        Separate .sample 2 "node:g" (asked "http://g" ["http://a", "http://b"]).length
          (fun _ => (SigningKey.sample 2).publicKey .sample) :=
  independent_iff Crypto.sample_lawful Crypto.sample_sized (fun _ => fresh_sample)

/-- One node that answers under two spellings of its address makes up a quorum of two. -/
theorem one_node_makes_a_quorum : ∃ replies trace,
    Presents replies (fun _ => (SigningKey.sample 2).publicKey .sample) ∧
      verifyAndRecord .sample false 2 (fun _ _ => .ok .null) "http://g" ["http://a", "http://a/"] [] []
        replies [] = .ok trace ∧ trace.recorded = some (true, .null) ∧
      ¬Independent .sample 2 "node:g" trace.audited := by
  obtain ⟨verdict, stage⟩ := @stage_of_openable .sample Crypto.sample_lawful Crypto.sample_sized false
    (Dict.set [] "tokens" (.arr [])) [] nofun (.sample 2) (.sample 2)
  have made := @recorded_staged .sample false (fun _ => .sample 2) (fun _ => .sample 2) []
    (fun _ => verdict) {0, 1} Crypto.sample_lawful "http://g" ["http://a", "http://a/"] [] [] []
    (fun _ => stage) nofun (by decide) (by decide)
  have left : 0 ∈ ({0, 1} : Finset Nat) := Finset.mem_insert_self 0 {1}
  have right : 1 ∈ ({0, 1} : Finset Nat) := Finset.mem_insert_of_mem (Finset.mem_singleton_self 1)
  exact ⟨_, _, presents_staged, made, rfl,
    not_independent_staged (.inr ⟨0, left, 1, right, Nat.zero_ne_one, rfl⟩)⟩

end Sample

end CrossVerifier

end JJDai
