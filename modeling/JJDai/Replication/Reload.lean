import JJDai.Primitive.JournaledStore
import JJDai.Primitive.ReadBack
import JJDai.Replication.Peers
import JJDai.Replication.Segments
import JJDai.Replication.Session

/-! What verified before a write verifies again when it is read back, with its
keys in another order. -/

namespace JJDai.Replication

open PyText Canonical Merkle

variable {crypto : Crypto} {env : Json}

theorem readEnvelope_sortKeys (sound : env.valid) {body : Json} {pub sig : Bytes}
    (read : readEnvelope env = .ok (body, pub, sig)) :
    readEnvelope env.sortKeys = .ok (body.sortKeys, pub, sig) := by
  simp only [readEnvelope, bind, Py.bind_ok] at read ⊢
  obtain ⟨b, bodyRead, p, pubRead, pubBytes, pubHex, s, sigRead, sigBytes, sigHex, made⟩ := read
  obtain ⟨rfl, rfl, rfl⟩ := by simpa [pure, Except.pure] using made
  exact ⟨_, subscript_sortKeys sound bodyRead, _, subscript_sortKeys sound pubRead, _,
    bytesFromHex_sortKeys pubHex, _, subscript_sortKeys sound sigRead, _,
    bytesFromHex_sortKeys sigHex, rfl⟩

theorem valid_of_readEnvelope (sound : env.valid) {body : Json} {pub sig : Bytes}
    (read : readEnvelope env = .ok (body, pub, sig)) : body.valid :=
  valid_of_subscript sound (subscript_of_readEnvelope read)

theorem counted_sortedFields {fields : Dict Str Json} (sound : (Json.obj fields).valid) {key : Str}
    {count : Int} (counted : (Dict.get? fields key).bind asInt? = some count) :
    (Dict.get? (sortedFields fields) key).bind asInt? = some count := by
  obtain ⟨j, found, read⟩ := Option.bind_eq_some_iff.mp counted
  rw [get?_sortedFields sound found, Option.bind_some]
  cases j with
  | int value => exact read
  | bool value => exact read
  | _ => cases read

def SignedRoot.reloaded (root : SignedRoot crypto env) (sound : env.valid) :
    SignedRoot crypto env.sortKeys :=
  have valid := valid_of_readEnvelope sound root.read
  { body := sortedFields root.body
    pub := root.pub
    sig := root.sig
    count := root.count
    data := root.data
    read := by
      rw [readEnvelope_sortKeys sound root.read, Json.sortKeys_obj]; rfl
    kind := get?_sortedFields valid root.kind
    node := get?_sortedFields valid root.node
    counted := counted_sortedFields valid root.counted
    nonneg := root.nonneg
    text := by
      have text := canonical_sortKeys valid
      rw [Json.sortKeys_obj] at text
      exact text.trans root.text
    verified := root.verified }

def SignedClaim.reloaded (claim : SignedClaim crypto env) (sound : env.valid) :
    SignedClaim crypto env.sortKeys :=
  have valid := valid_of_readEnvelope sound claim.read
  { body := sortedFields claim.body
    pub := claim.pub
    sig := claim.sig
    old := claim.old
    new := claim.new
    data := claim.data
    read := by
      rw [readEnvelope_sortKeys sound claim.read, Json.sortKeys_obj]; rfl
    kind := get?_sortedFields valid claim.kind
    node := get?_sortedFields valid claim.node
    text := by
      have text := canonical_sortKeys valid
      rw [Json.sortKeys_obj] at text
      exact text.trans claim.text
    verified := claim.verified
    oldCounted := counted_sortedFields valid claim.oldCounted
    newCounted := counted_sortedFields valid claim.newCounted
    positive := claim.positive
    ordered := claim.ordered }

/-- A proof given as a dict is read by its keys, and they come back sorted. -/
def KeysSorted (proof : Json) : Prop :=
  ∀ fields, proof = .obj fields → fields.Pairwise (fun a b => a.1 ≤ b.1)

def AllStrings (items : List Json) : Prop := ∀ item ∈ items, ∃ s, item = .str s

theorem AllStrings.sortKeys {items : List Json} (strings : AllStrings items) :
    items.map Json.sortKeys = items := by
  refine (List.map_congr_left (fun item member => ?_)).trans (List.map_id items)
  obtain ⟨s, rfl⟩ := strings item member
  rfl

theorem pyList_sortKeys {proof : Json} {path : List Json} (sorted : KeysSorted proof)
    (strings : AllStrings path) (read : pyList proof = .ok path) :
    pyList proof.sortKeys = .ok path := by
  cases proof with
  | arr items =>
    obtain rfl := Except.ok.inj read
    rw [Json.sortKeys_arr, pyList, strings.sortKeys]
  | obj fields =>
    rw [← read, Json.sortKeys_obj, Json.sortEntries_map, Json.sortEntries_of_sorted (sorted fields rfl)]
    simp [pyList]
  | str s => exact read
  | _ => cases read

theorem node_strings {l r hash : Json} (made : node crypto l r = .ok hash) :
    (∃ s, l = .str s) ∧ ∃ s, r = .str s := by
  simp only [node, bind, Py.bind_ok] at made
  obtain ⟨left, leftRead, right, rightRead, _⟩ := made
  constructor
  · cases l with
    | str s => exact ⟨s, rfl⟩
    | _ => cases leftRead
  · cases r with
    | str s => exact ⟨s, rfl⟩
    | _ => cases rightRead

theorem verifyLoop_strings {fn sn : Nat} {fr sr : Json} {rest : List Json} {final : Nat × Json × Json}
    (run : verifyLoop crypto fn sn fr sr rest = .ok (some final)) :
    AllStrings rest ∧ (rest ≠ [] → ∃ s, sr = .str s) := by
  induction rest generalizing fn sn fr sr with
  | nil => exact ⟨fun _ member => (List.not_mem_nil member).elim, fun some_left => (some_left rfl).elim⟩
  | cons c rest ih =>
    have whole : (∃ s, c = .str s) → AllStrings rest → (∃ s, sr = .str s) →
        AllStrings (c :: rest) ∧ (c :: rest ≠ [] → ∃ s, sr = .str s) := by
      intro head others start
      refine ⟨fun item member => ?_, fun _ => start⟩
      rcases List.mem_cons.mp member with rfl | later
      · exact head
      · exact others item later
    rw [verifyLoop] at run
    split at run
    · cases run
    · split at run
      · simp only [bind, Py.bind_ok] at run
        obtain ⟨_, _, _, second, run⟩ := run
        obtain ⟨head, start⟩ := node_strings second
        exact whole head (ih run).1 start
      · simp only [bind, Py.bind_ok] at run
        obtain ⟨_, second, run⟩ := run
        obtain ⟨start, head⟩ := node_strings second
        exact whole head (ih run).1 start

theorem truthy_sortKeys (j : Json) : truthy j.sortKeys = truthy j := by
  cases j with
  | arr items =>
    rw [Json.sortKeys_arr]
    cases items <;> rfl
  | obj fields =>
    rw [Json.sortKeys_obj]
    have same := (Json.sortEntries_perm (fields.map (fun entry => (entry.1, entry.2.sortKeys)))).length_eq
    cases fields with
    | nil => rfl
    | cons entry rest =>
      cases sorted : Json.sortEntries ((entry :: rest).map (fun entry => (entry.1, entry.2.sortKeys))) with
      | nil =>
        rw [sorted] at same
        cases same
      | cons first later => rfl
  | _ => rfl

theorem hmacEqual_strings {a b : Json} (equal : hmacEqual a b = .ok true) :
    (∃ s, a = .str s) ∧ ∃ s, b = .str s := by
  unfold hmacEqual at equal
  split at equal
  · exact ⟨⟨_, rfl⟩, ⟨_, rfl⟩⟩
  · cases equal

theorem walk_strings {fn sn : Nat} {rootM rootN first : Json} {rest : List Json}
    {final : Option (Nat × Json × Json)} (run : verifyLoop crypto fn sn first first rest = .ok final)
    (accepted : verifyEnd rootM rootN final = .ok true) :
    AllStrings (first :: rest) ∧ (∃ s, rootM = .str s) ∧ ∃ s, rootN = .str s := by
  cases final with
  | none => cases accepted
  | some final =>
    obtain ⟨k, fr, sr⟩ := final
    simp only [verifyEnd] at accepted
    split at accepted
    · simp only [bind, Py.bind_ok] at accepted
      obtain ⟨equal, old, accepted⟩ := accepted
      cases equal with
      | false => cases accepted
      | true =>
        obtain ⟨⟨s, start⟩, rootM⟩ := hmacEqual_strings old
        obtain ⟨_, rootN⟩ := hmacEqual_strings accepted
        obtain ⟨others, head⟩ := verifyLoop_strings run
        refine ⟨fun item member => ?_, rootM, rootN⟩
        rcases List.mem_cons.mp member with rfl | later
        · cases rest with
          | nil =>
            obtain ⟨_, rfl, _⟩ := by simpa [verifyLoop, pure, Except.pure] using run
            exact ⟨s, start⟩
          | cons c rest => exact head (List.cons_ne_nil _ _)
        · exact others item later
    · cases accepted

theorem verifyConsistency_sortKeys {m n : Int} {rootM rootN proof : Json} (sorted : KeysSorted proof)
    (verified : verifyConsistency crypto m n rootM rootN proof = .ok true) :
    verifyConsistency crypto m n rootM.sortKeys rootN.sortKeys proof.sortKeys = .ok true := by
  unfold verifyConsistency at verified ⊢
  rw [truthy_sortKeys]
  split at verified
  · rename_i same
    rw [if_pos same]
    split at verified
    · cases verified
    · rename_i blank
      obtain ⟨⟨a, rfl⟩, ⟨b, rfl⟩⟩ := hmacEqual_strings verified
      rw [if_neg blank]
      exact verified
  · rename_i differ
    rw [if_neg differ]
    split at verified
    · cases verified
    · rename_i bounds
      rw [if_neg bounds]
      simp only [bind, Py.bind_ok] at verified ⊢
      obtain ⟨path, read, verified⟩ := verified
      split at verified
      · cases verified
      · rename_i first rest whole
        simp only [Py.bind_ok] at verified
        obtain ⟨final, run, accepted⟩ := verified
        obtain ⟨strings, ⟨a, rfl⟩, ⟨b, rfl⟩⟩ := walk_strings run accepted
        refine ⟨path, pyList_sortKeys sorted ?_ read, ?_⟩
        · intro item member
          refine strings item (whole ▸ ?_)
          split
          · exact List.mem_cons_of_mem _ member
          · exact member
        · simp only [Json.sortKeys, whole, Py.bind_ok]
          exact ⟨final, run, accepted⟩

theorem orList_sortKeys (value : Json) : orList value.sortKeys = (orList value).sortKeys := by
  unfold orList
  rw [truthy_sortKeys]
  split
  · rfl
  · rw [Json.sortKeys_arr]
    rfl

/-- A claim that was recorded is consistent again when it is read back, without
its pins. -/
theorem SignedClaim.reloaded_consistent (claim : SignedClaim crypto env) (sound : env.valid)
    (sorted : KeysSorted (fieldOf env "proof")) {oldEnv newEnv : Option Json} {reason : Str}
    (passed : claimVerdict crypto (.obj claim.body) claim.old claim.new oldEnv newEnv =
      .ok (.consistent, reason)) :
    verifyConsistencyEnvelope crypto env.sortKeys none none = .ok (.consistent, "ok") := by
  obtain ⟨_, _, oldRoot, newRoot, proof, oldRead, newRead, proofRead, verified⟩ :=
    claimVerdict_consistent passed
  have valid := valid_of_readEnvelope sound claim.read
  have field : fieldOf env "proof" = proof := by
    rw [claim.field]
    exact Except.ok.inj proofRead
  have proofBack : dotGet (.obj (sortedFields claim.body)) "proof" = .ok proof.sortKeys := by
    rw [dotGet_obj, sortedFields, Json.get?_sortKeys (Json.valid_obj.mp valid).1, ← Except.ok.inj proofRead]
    cases Dict.get? claim.body "proof" <;> rfl
  have proved := @verifyConsistency_sortKeys _ _ _ _ _ (orList proof) ?_ verified
  · have oldBack : subscript (.obj (sortedFields claim.body)) "old_root" = .ok oldRoot.sortKeys :=
      subscript_obj.mpr (get?_sortedFields valid (subscript_obj.mp oldRead))
    have newBack : subscript (.obj (sortedFields claim.body)) "new_root" = .ok newRoot.sortKeys :=
      subscript_obj.mpr (get?_sortedFields valid (subscript_obj.mp newRead))
    rw [(claim.reloaded sound).verdict]
    simp only [claimVerdict, checkPin, SignedClaim.reloaded, pure, Except.pure, bind, Except.bind,
      oldBack, newBack, proofBack, orList_sortKeys, proved, if_true]
  · intro fields same
    unfold orList at same
    split at same
    · exact sorted fields (field.trans same)
    · cases same

theorem getOrDict_sortKeys {j value : Json} {key : Str} (sound : j.valid)
    (read : getOrDict j key = .ok value) : getOrDict j.sortKeys key = .ok value.sortKeys := by
  cases j with
  | obj fields =>
    rw [getOrDict] at read
    rw [Json.sortKeys_obj, getOrDict, Json.get?_sortKeys (Json.valid_obj.mp sound).1,
      ← Except.ok.inj read]
    cases Dict.get? fields key <;> rfl
  | _ => cases read

theorem valid_of_getOrDict {j value : Json} {key : Str} (sound : j.valid)
    (read : getOrDict j key = .ok value) : value.valid := by
  cases j with
  | obj fields =>
    obtain rfl := Except.ok.inj read
    cases found : Dict.get? fields key with
    | none => rfl
    | some value => exact valid_of_get? sound found
  | _ => cases read

theorem verifyAdmittedRecord_sortKeys {bundle : Json} (sound : bundle.valid) {keys : List Str}
    {reason : Str} (accepted : verifyAdmittedRecord crypto bundle keys = .ok (true, reason)) :
    verifyAdmittedRecord crypto bundle.sortKeys keys = .ok (true, reason) := by
  simp only [verifyAdmittedRecord, bind, Py.bind_ok] at accepted ⊢
  obtain ⟨record, recordRead, admission, admissionRead, accepted⟩ := accepted
  refine ⟨_, getOrDict_sortKeys sound recordRead, _, getOrDict_sortKeys sound admissionRead, ?_⟩
  have recordSound := valid_of_getOrDict sound recordRead
  have admissionSound := valid_of_getOrDict sound admissionRead
  cases read : readBundle record admission with
  | error e =>
    simp only [read] at accepted
    split at accepted <;> cases accepted
  | ok parts =>
    obtain ⟨⟨rb, rpub, rsig⟩, ab, apub, asig⟩ := parts
    simp only [read, Py.bind_ok] at accepted
    simp only [readBundle, bind, Py.bind_ok] at read
    obtain ⟨_, rRead, _, aRead, same⟩ := read
    obtain ⟨rfl, rfl⟩ := Prod.mk.inj (Except.ok.inj same)
    have back : readBundle record.sortKeys admission.sortKeys =
        .ok ((rb.sortKeys, rpub, rsig), (ab.sortKeys, apub, asig)) := by
      simp only [readBundle, readEnvelope_sortKeys recordSound rRead,
        readEnvelope_sortKeys admissionSound aRead, bind, Except.bind, pure, Except.pure]
    have rbSound := valid_of_readEnvelope recordSound rRead
    have abSound := valid_of_readEnvelope admissionSound aRead
    simp only [guard_ok, Py.bind_ok, read_ok] at accepted
    obtain ⟨kind, akind, node, text, canon, signed, authority, known, peer, digest, atext, acanon,
      asigned⟩ := accepted
    simp only [back, guard_ok, Py.bind_ok, read_ok]
    exact ⟨dotGet_sortKeys rbSound kind, dotGet_sortKeys abSound akind, dotGet_sortKeys rbSound node,
      text, (canonical_sortKeys rbSound).trans canon, signed, dotGet_sortKeys abSound authority, known,
      dotGet_sortKeys abSound peer, dotGet_sortKeys abSound digest, atext,
      (canonical_sortKeys abSound).trans acanon, asigned⟩

theorem asInt_sortKeys (j : Json) : asInt? j.sortKeys = asInt? j := by
  cases j <;> simp [Json.sortKeys, asInt?]

theorem pyLen_sortKeys {j : Json} {n : Nat} (read : pyLen j = .ok n) : pyLen j.sortKeys = .ok n := by
  cases j with
  | arr items =>
    rw [← read, Json.sortKeys_arr]
    simp [pyLen]
  | obj fields =>
    rw [← read, Json.sortKeys_obj]
    simp [pyLen, (Json.sortEntries_perm _).length_eq]
  | str s => exact read
  | _ => cases read

theorem verifyRecords_sortKeys {pub : Bytes} {origin : Str} {i : Int} {prev prev' : Json}
    {items : List Json} (sound : ∀ item ∈ items, item.valid) (same : Json.pyEq prev prev')
    (verified : verifyRecords crypto pub origin i prev items = .ok none) :
    verifyRecords crypto pub origin i prev' (items.map Json.sortKeys) = .ok none := by
  induction items generalizing i prev prev' with
  | nil => rfl
  | cons rec rest ih =>
    have recSound := sound rec List.mem_cons_self
    have restSound : ∀ item ∈ rest, item.valid := fun item member =>
      sound item (List.mem_cons_of_mem _ member)
    simp only [List.map_cons, verifyRecords, bind, Py.bind_ok, guard_none, not_not] at verified ⊢
    obtain ⟨index, indexRead, number, node, nodeRead, named, prevHash, prevRead, chained, verified⟩ :=
      verified
    refine ⟨_, dotGet_sortKeys recSound indexRead, (Json.pyEq_sortKeys index).trans number, _,
      dotGet_sortKeys recSound nodeRead, by rw [named]; rfl, _, dotGet_sortKeys recSound prevRead,
      ((Json.pyEq_sortKeys prevHash).trans chained).trans same, ?_⟩
    cases rec with
    | obj fields =>
      simp only [Py.bind_ok, guard_none, not_not, Json.sortKeys_obj] at verified ⊢
      obtain ⟨text, canon, hash, hashRead, hashed, signed, encoded, sig, sigRead, verifies, later⟩ :=
        verified
      refine ⟨text, (canonical_unsigned recSound).trans canon, hash.sortKeys, ?_, by rw [hashed]; rfl, signed, encoded,
        sig, ?_, verifies, ih restSound (Json.pyEq.refl _) later⟩
      · have back := dotGet_sortKeys recSound hashRead
        rwa [Json.sortKeys_obj] at back
      · rw [Json.get?_sortKeys (Json.valid_obj.mp recSound).1]
        cases found : Dict.get? fields "sig" with
        | none => simpa [found] using sigRead
        | some value =>
          rw [found] at sigRead
          exact bytesFromHex_sortKeys sigRead
    | _ => cases verified

theorem verifyRecords_first {pub : Bytes} {origin : Str} {i : Int} {prev : Json} {items : List Json}
    (verified : verifyRecords crypto pub origin i prev items = .ok none) :
    ∀ item ∈ items, ∃ fields value, item = .obj fields ∧ Dict.get? fields "index" = some value := by
  induction items generalizing i prev with
  | nil => intro item member; cases member
  | cons rec rest ih =>
    simp only [verifyRecords, bind, Py.bind_ok, guard_none, not_not] at verified
    obtain ⟨index, indexRead, number, _, _, _, _, _, _, verified⟩ := verified
    cases rec with
    | obj fields =>
      simp only [Py.bind_ok, guard_none] at verified
      obtain ⟨_, _, _, _, _, _, _, _, _, _, later⟩ := verified
      intro item member
      rcases List.mem_cons.mp member with rfl | tail
      · cases found : Dict.get? fields "index" with
        | none =>
          rw [dotGet_obj, found] at indexRead
          obtain rfl := Except.ok.inj indexRead
          cases number
        | some value => exact ⟨fields, value, rfl, found⟩
      · exact ih later item tail
    | _ => cases verified

theorem readSegment_sortKeys (sound : env.valid) {body records : Json} {pub sig : Bytes}
    (read : readSegment env = .ok (body, records, pub, sig)) :
    readSegment env.sortKeys = .ok (body.sortKeys, records.sortKeys, pub, sig) := by
  simp only [readSegment, bind, Py.bind_ok] at read ⊢
  obtain ⟨b, bodyRead, r, recordsRead, p, pubRead, pubBytes, pubHex, s, sigRead, sigBytes, sigHex,
    made⟩ := read
  obtain ⟨rfl, rfl, rfl, rfl⟩ := by simpa [pure, Except.pure] using made
  exact ⟨_, subscript_sortKeys sound bodyRead, _, subscript_sortKeys sound recordsRead, _,
    subscript_sortKeys sound pubRead, _, bytesFromHex_sortKeys pubHex, _,
    subscript_sortKeys sound sigRead, _, bytesFromHex_sortKeys sigHex, rfl⟩

theorem subscript_of_readSegment {body records : Json} {pub sig : Bytes}
    (read : readSegment env = .ok (body, records, pub, sig)) :
    subscript env "body" = .ok body ∧ subscript env "records" = .ok records := by
  simp only [readSegment, bind, Py.bind_ok] at read
  obtain ⟨b, bodyRead, r, recordsRead, _, _, _, _, _, _, _, _, made⟩ := read
  obtain ⟨rfl, rfl, _⟩ := by simpa [pure, Except.pure] using made
  exact ⟨bodyRead, recordsRead⟩

theorem arr_of_verified {pub : Bytes} {origin : Str} {i : Int} {prev records : Json}
    {items : List Json} {length : Nat} (sized : pyLen records = .ok length) (some_left : 0 < length)
    (read : pyList records = .ok items)
    (verified : verifyRecords crypto pub origin i prev items = .ok none) : records = .arr items := by
  have indexed := verifyRecords_first verified
  cases records with
  | arr found => rw [Except.ok.inj read]
  | str s =>
    obtain rfl := Except.ok.inj sized
    obtain ⟨c, rest, rfl⟩ := List.exists_cons_of_ne_nil (List.ne_nil_of_length_pos some_left)
    obtain rfl := Except.ok.inj read
    obtain ⟨_, _, shape, _⟩ := indexed _ List.mem_cons_self
    cases shape
  | obj fields =>
    obtain rfl := Except.ok.inj sized
    obtain ⟨c, rest, rfl⟩ := List.exists_cons_of_ne_nil (List.ne_nil_of_length_pos some_left)
    obtain rfl := Except.ok.inj read
    obtain ⟨_, _, shape, _⟩ := indexed _ List.mem_cons_self
    cases shape
  | _ => cases read

/-- A verified segment as the store reads it. -/
structure SignedSegment (crypto : Crypto) (env : Json) where
  body : Dict Str Json
  items : List Json
  origin : Str
  bodyRead : subscript env "body" = .ok (.obj body)
  recordsRead : subscript env "records" = .ok (.arr items)
  node : Dict.get? body "node_id" = some (.str origin)
  indexed : ∀ item ∈ items, ∃ fields value, item = .obj fields ∧
    Dict.get? fields "index" = some value

theorem verifySegment_sortKeys (sound : env.valid) {reason : Str}
    (accepted : verifySegment crypto env = .ok (true, reason)) :
    Nonempty (SignedSegment crypto env) ∧ verifySegment crypto env.sortKeys = .ok (true, reason) := by
  unfold verifySegment at accepted ⊢
  cases read : readSegment env with
  | error e =>
    simp only [read] at accepted
    split at accepted <;> cases accepted
  | ok parts =>
    obtain ⟨body, records, pub, sig⟩ := parts
    obtain ⟨bodyRead, recordsRead⟩ := subscript_of_readSegment read
    have bodySound := valid_of_subscript sound bodyRead
    have recordsSound := valid_of_subscript sound recordsRead
    simp only [read, bind, Py.bind_ok, guard_ok, read_ok] at accepted
    obtain ⟨kind, node, text, canon, signed, start, startRead, stop, stopRead, accepted⟩ := accepted
    split at accepted
    · rename_i first last startInt stopInt
      simp only [Py.bind_ok, guard_ok, read_ok] at accepted
      obtain ⟨bounds, length, sized, counted, rtext, rcanon, hash, prev, prevRead, chained,
        items, itemsRead, result, verified, accepted⟩ := accepted
      cases result with
      | some _ => cases accepted
      | none =>
        have some_left : 0 < length := by omega
        obtain rfl := arr_of_verified sized some_left itemsRead verified
        obtain ⟨fields, rfl⟩ := obj_of_dotGet kind
        constructor
        · exact ⟨{ body := fields, items := items, origin := canonicalNodeId crypto pub
                   bodyRead := bodyRead, recordsRead := recordsRead
                   node := some_of_getD (Except.ok.inj node) (by simp)
                   indexed := verifyRecords_first verified }⟩
        · simp only [readSegment_sortKeys sound read, bind, Py.bind_ok, guard_ok, read_ok]
          refine ⟨dotGet_sortKeys bodySound kind, dotGet_sortKeys bodySound node, text,
            (canonical_sortKeys bodySound).trans canon, signed, _, dotGet_sortKeys bodySound startRead,
            _, dotGet_sortKeys bodySound stopRead, ?_⟩
          simp only [asInt_sortKeys, startInt, stopInt, Py.bind_ok, guard_ok, read_ok]
          refine ⟨bounds, length, pyLen_sortKeys sized, counted, rtext,
            (canonical_sortKeys recordsSound).trans rcanon, dotGet_sortKeys bodySound hash, _,
            dotGet_sortKeys bodySound prevRead, ?_, items.map Json.sortKeys, by simp [pyList], none,
            ?_, accepted⟩
          · rintro ⟨zero, other⟩
            refine chained ⟨zero, ?_⟩
            rintro rfl
            exact other rfl
          · exact verifyRecords_sortKeys (Json.valid_arr.mp recordsSound)
              (Json.pyEq_sortKeys prev).symm verified
    · cases accepted

end JJDai.Replication
