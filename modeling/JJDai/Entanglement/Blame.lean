import JJDai.Daemon.ReceiveRoot
import JJDai.Entanglement.Judgment
import JJDai.Primitive.CanonicalText
import JJDai.Primitive.ChainVerification

/-! What a cryptographic judgment rests on: entries that nobody has signed. -/

namespace JJDai.Entanglement

open PyText Canonical Replication

variable (crypto : Crypto)

/-- A record under its own hash, signed by a key. -/
def SignedBy (pub : Bytes) (fields : Dict Str Json) : Prop :=
  ∃ data signed sig, canonical (.obj (unsignedRecord fields)) = .ok data ∧
    Dict.get? fields "this_hash" = some (.str (H_hex crypto data)) ∧
    encode (H_hex crypto data) = .ok signed ∧
    bytesFromHex ((Dict.get? fields "sig").getD (.str [])) = .ok sig ∧
    crypto.verify pub signed sig = true

/-- A salt envelope that the issuer signed, with its own index after the checkpoint. -/
def SignedAfter (issuerId : Json) (checkpoint : Nat) (env : Json) : Prop :=
  verifySaltEnvelope crypto env = .ok (true, "ok") ∧
    ∃ body issuer index, subscript env "body" = .ok body ∧ subscript body "issuer_node" = .ok issuer ∧
      Json.pyEq issuer issuerId ∧ subscript body "issuer_index" = .ok index ∧
      natLess checkpoint index = .ok true

/-- A record that the origin signed, with a salt in its signed body that the issuer signed. -/
def Proves (pub : Bytes) (issuerId : Json) (checkpoint : Nat) (record : Json) : Prop :=
  ∃ fields, record = .obj fields ∧ SignedBy crypto pub fields ∧
    ∃ salts, beaconSalts (.obj (unsignedRecord fields)) = .ok salts ∧
      ∃ s ∈ salts, ∃ env, subscript s "envelope" = .ok env ∧
        SignedAfter crypto issuerId checkpoint env

def Side.chain (side : Side) (chainA chainB : Json) : Json :=
  match side with
  | .a => chainA
  | .b => chainB

/-- A cryptographic judgment against a side has a record of that side behind it. -/
def BlameSigned (chainA chainB issuerExport : Json) (agreedCount : Int) (agreedRootEnv : Json) : Prop :=
  ∀ judgment side,
    judgeDivergence crypto chainA chainB issuerExport agreedCount agreedRootEnv = .ok judgment →
    judgment.isCryptographic = true → judgment.anachronistic = some side →
    ∃ root : SignedRoot crypto agreedRootEnv, ∃ checkpoint records,
      agreedCheckpoint crypto issuerExport agreedCount agreedRootEnv = .ok (some checkpoint) ∧
      agreedRecords (side.chain chainA chainB) agreedCount = .ok records ∧
      ∃ record ∈ records, Proves crypto root.pub judgment.issuerNode checkpoint.index record

/-- An issuance after the checkpoint, in front of a readable record: any entry can name it. -/
def LaterIssuance (issuerExport : Json) (agreedCount : Int) (agreedRootEnv : Json) : Prop :=
  ∃ checkpoint records index record digest previous hash,
    0 < agreedCount ∧
    agreedCheckpoint crypto issuerExport agreedCount agreedRootEnv = .ok (some checkpoint) ∧
    getDefault issuerExport "records" (.arr []) = .ok (.arr records) ∧
    checkpoint.index < index ∧ records[index]? = some record ∧
    dotGet record "kind" = .ok (.str "SALT_ISSUE") ∧ dotGet record "semantic_digest" = .ok digest ∧
    (∃ fields, orDict digest = .obj fields) ∧
    records[index - 1]? = some previous ∧ subscript previous "this_hash" = .ok hash

/-- An export whose records the origin signed and whose entries repeat their envelopes. -/
def Checked (pub : Bytes) (records : List Json) : Prop :=
  ∀ record ∈ records, ∃ fields, record = .obj fields ∧ SignedBy crypto pub fields ∧
    ∀ salts, beaconSalts record = .ok salts → ∀ s ∈ salts, ∃ env body,
      subscript s "envelope" = .ok env ∧ subscript env "body" = .ok body ∧
      subscript s "issuer_node" = subscript body "issuer_node" ∧
      subscript s "issuer_index" = subscript body "issuer_index"

/-- An entry that the scan takes for a proof. -/
structure Flagged (issuerExport issuerId : Json) (checkpoint : Checkpoint) (s : Json) : Prop where
  node : ∃ issuer, subscript s "issuer_node" = .ok issuer ∧ Json.pyEq issuer issuerId
  accepted : ∃ why, verifyBeaconAgainstIssuer crypto (.obj [("salts", .arr [s])]) issuerExport =
    .ok (true, why)
  later : ∃ index, subscript s "issuer_index" = .ok index ∧ natLess checkpoint.index index = .ok true

variable {crypto}

theorem foldlM_appears {items : List α} {step : β → α → Py β} (Holds : β → Prop)
    {start final : β}
    (folded : items.foldlM step start = .ok final) (before : ¬Holds start) (after : Holds final) :
    ∃ item ∈ items, ∃ old new, step old item = .ok new ∧ ¬Holds old ∧ Holds new := by
  induction items generalizing start with
  | nil =>
    obtain rfl := Except.ok.inj folded
    exact absurd after before
  | cons item rest ih =>
    simp only [List.foldlM_cons, bind, Py.bind_ok] at folded
    obtain ⟨middle, first, later⟩ := folded
    by_cases here : Holds middle
    · exact ⟨item, List.mem_cons_self, start, middle, first, before, here⟩
    · obtain ⟨other, member, rest⟩ := ih later here
      exact ⟨other, List.mem_cons_of_mem _ member, rest⟩

variable {issuerExport issuerId rec s : Json} {checkpoint : Option Checkpoint} {agreedCount : Int}

theorem scanSalt_flags {old new : Scan}
    (scanned : scanSalt crypto issuerExport issuerId checkpoint rec old s = .ok new)
    (before : ¬old.proven ≠ []) (after : new.proven ≠ []) :
    ∃ found, checkpoint = some found ∧ Flagged crypto issuerExport issuerId found s := by
  simp only [scanSalt, bind, Py.bind_ok] at scanned
  obtain ⟨issuer, nodeRead, scanned⟩ := scanned
  split at scanned
  · obtain rfl := Except.ok.inj scanned
    exact absurd after before
  · rename_i same
    simp only [Py.bind_ok] at scanned
    obtain ⟨⟨ok, why⟩, accepted, scanned⟩ := scanned
    cases ok with
    | false =>
      obtain rfl := Except.ok.inj scanned
      exact absurd after before
    | true =>
      simp only [Bool.not_true, Bool.false_eq_true, if_false, Py.bind_ok] at scanned
      obtain ⟨index, indexRead, best, _, scanned⟩ := scanned
      cases checkpoint with
      | none =>
        obtain rfl := Except.ok.inj scanned
        exact absurd after before
      | some checkpoint =>
        simp only [Py.bind_ok] at scanned
        obtain ⟨later, compared, scanned⟩ := scanned
        cases later with
        | false =>
          obtain rfl := Except.ok.inj scanned
          exact absurd after before
        | true =>
          exact ⟨checkpoint, rfl, ⟨issuer, nodeRead, not_not.mp same⟩, ⟨why, accepted⟩, index, indexRead,
            compared⟩

theorem scanChain_flags {chain : Json} {scan : Scan}
    (scanned : scanChain crypto issuerExport issuerId checkpoint agreedCount chain = .ok scan)
    (proven : scan.proven ≠ []) :
    ∃ records found, agreedRecords chain agreedCount = .ok records ∧ checkpoint = some found ∧
      ∃ record ∈ records, ∃ salts, beaconSalts record = .ok salts ∧
        ∃ s ∈ salts, Flagged crypto issuerExport issuerId found s := by
  simp only [scanChain, bind, Py.bind_ok] at scanned
  obtain ⟨records, read, folded⟩ := scanned
  obtain ⟨record, member, old, new, step, before, after⟩ :=
    foldlM_appears (fun scan => scan.proven ≠ []) folded (by simp) proven
  simp only [scanRecord, bind, Py.bind_ok] at step
  obtain ⟨salts, saltsRead, inner⟩ := step
  obtain ⟨s, inside, _, _, turn, clear, flagged⟩ :=
    foldlM_appears (fun scan => scan.proven ≠ []) inner before after
  obtain ⟨found, same, flag⟩ := scanSalt_flags turn clear flagged
  exact ⟨records, found, read, same, record, member, salts, saltsRead, s, inside, flag⟩

theorem judge_cryptographic {chainA chainB agreedRootEnv : Json} {judgment : Judgment} {side : Side}
    (judged : judgeDivergence crypto chainA chainB issuerExport agreedCount agreedRootEnv = .ok judgment)
    (cryptographic : judgment.isCryptographic = true) (against : judgment.anachronistic = some side) :
    ∃ checkpoint records, dotGet issuerExport "node_id" = .ok judgment.issuerNode ∧
      agreedCheckpoint crypto issuerExport agreedCount agreedRootEnv = .ok (some checkpoint) ∧
      agreedRecords (side.chain chainA chainB) agreedCount = .ok records ∧
      ∃ record ∈ records, ∃ salts, beaconSalts record = .ok salts ∧
        ∃ s ∈ salts, Flagged crypto issuerExport judgment.issuerNode checkpoint s := by
  simp only [judgeDivergence, bind, Py.bind_ok] at judged
  obtain ⟨issuerId, named, checkpoint, agreed, a, scannedA, b, scannedB, judged⟩ := judged
  have found {chain : Json} {scan : Scan} {proof : ProvenRewrite} {more : List ProvenRewrite}
      (scanned : scanChain crypto issuerExport issuerId checkpoint agreedCount chain = .ok scan)
      (proven : scan.proven = proof :: more) :
      ∃ found records, checkpoint = some found ∧ agreedRecords chain agreedCount = .ok records ∧
        ∃ record ∈ records, ∃ salts, beaconSalts record = .ok salts ∧
          ∃ s ∈ salts, Flagged crypto issuerExport issuerId found s := by
    obtain ⟨records, found, read, same, rest⟩ := scanChain_flags scanned (by simp [proven])
    exact ⟨found, records, same, read, rest⟩
  split at judged
  · rename_i provenA _
    obtain rfl := Except.ok.inj judged
    obtain rfl := Option.some.inj against
    obtain ⟨_, records, same, read, rest⟩ := found scannedA provenA
    cases same
    exact ⟨_, records, named, agreed, read, rest⟩
  · rename_i _ provenB
    obtain rfl := Except.ok.inj judged
    obtain rfl := Option.some.inj against
    obtain ⟨_, records, same, read, rest⟩ := found scannedB provenB
    cases same
    exact ⟨_, records, named, agreed, read, rest⟩
  · simp only [Py.bind_ok] at judged
    obtain ⟨verdict, _, judged⟩ := judged
    obtain rfl := Except.ok.inj judged
    cases cryptographic

/-- An envelope that passes `verifySaltEnvelope`, as it was read. -/
structure SignedSalt (crypto : Crypto) (env : Json) where
  body : Dict Str Json
  pub : Bytes
  sig : Bytes
  data : Bytes
  read : readEnvelope env = .ok (.obj body, pub, sig)
  issuer : Dict.get? body "issuer_node" = some (.str (canonicalNodeId crypto pub))
  text : canonical (.obj body) = .ok data
  verified : crypto.verify pub (saltDomain ++ data) sig = true

theorem signedSalt_of_verifies {env : Json} {why : Str}
    (accepted : verifySaltEnvelope crypto env = .ok (true, why)) :
    Nonempty (SignedSalt crypto env) ∧ why = "ok" := by
  unfold verifySaltEnvelope at accepted
  cases read : readEnvelope env with
  | error e =>
    simp only [read] at accepted
    split at accepted <;> cases accepted
  | ok parts =>
    obtain ⟨body, pub, sig⟩ := parts
    simp only [read, bind, Py.bind_ok, guard_ok] at accepted
    obtain ⟨kind, kindRead, _, issuer, issuerRead, issuerSame, _, _, salt, _, _, _, _, data, text, verified,
      same⟩ := accepted
    obtain ⟨body, rfl⟩ := obj_of_dotGet kindRead
    obtain rfl := Except.ok.inj issuerRead
    refine ⟨⟨{
      body := body, pub := pub, sig := sig, data := data
      read := read
      issuer := (getD_null (by simp)).mp (not_not.mp issuerSame)
      text := text
      verified := by simpa using verified }⟩, ?_⟩
    exact (Prod.mk.inj (Except.ok.inj same)).2.symm

/-- An entry that passes names an issuance of the issuer's chain, in front of a readable record. -/
theorem checkIssuance_ok {recs : Json} {why : Str} {n : Nat} {index : Json}
    (checked : checkIssuance recs s = .ok (true, why)) (indexRead : subscript s "issuer_index" = .ok index)
    (later : natLess n index = .ok true) :
    ∃ records i record digest previous hash, recs = .arr records ∧ asInt? index = some i ∧ n < i ∧
      records[i.toNat]? = some record ∧ dotGet record "kind" = .ok (.str "SALT_ISSUE") ∧
      dotGet record "semantic_digest" = .ok digest ∧ (∃ fields, orDict digest = .obj fields) ∧
      records[(i - 1).toNat]? = some previous ∧ subscript previous "this_hash" = .ok hash := by
  simp only [checkIssuance, bind, Py.bind_ok, guard_ok, indexRead, Except.ok.injEq, exists_eq_left',
    not_not] at checked
  obtain ⟨_, _, _, _, _, record, found, _, kindRead, rfl, digest, digestRead, _, saltRead, _, _, _, same,
    matching, accepted, _⟩ := checked
  obtain rfl : same = true := by simpa using accepted
  obtain ⟨fields, rfl⟩ := obj_of_dotGet kindRead
  cases recs with
  | arr records =>
    cases number : asInt? index with
    | none => simp [pyIndex, number, raise] at found
    | some i =>
      simp only [pyIndex, number] at found
      have below : (n : Int) < i := by simpa [natLess_of_asInt number] using later
      have first : natLess 0 index = .ok true := by
        rw [natLess_of_asInt number]
        exact congrArg Except.ok (decide_eq_true (by omega))
      simp only [headMatches, bind, first, number, Except.bind, Bool.not_true, Bool.false_eq_true,
        if_false] at matching
      obtain ⟨previous, previousRead, matching⟩ := Py.bind_ok.mp matching
      obtain ⟨hash, hashRead, _⟩ := Py.bind_ok.mp matching
      simp only [pyIndex, asInt?] at previousRead
      exact ⟨records, i, .obj fields, digest, previous, hash, rfl, rfl, below,
        (atIndex_nonneg (by omega)).mp found, kindRead, digestRead, obj_of_dotGet saltRead,
        (atIndex_nonneg (by omega)).mp previousRead, hashRead⟩
  | str text =>
    simp only [pyIndex] at found
    split at found
    · simp only [Except.map] at found
      split at found <;> cases found
    · cases found
  | obj items =>
    cases index with
    | str key => cases later
    | _ =>
      simp only [pyIndex] at found
      split at found <;> cases found
  | _ => cases found

theorem verifyBeacon_ok {why : Str} {issuer : Json}
    (accepted : verifyBeaconAgainstIssuer crypto (.obj [("salts", .arr [s])]) issuerExport =
      .ok (true, why)) (nodeRead : subscript s "issuer_node" = .ok issuer)
    (named : dotGet issuerExport "node_id" = .ok issuerId) (same : Json.pyEq issuer issuerId) :
    ∃ env recs, subscript s "envelope" = .ok env ∧ verifySaltEnvelope crypto env = .ok (true, "ok") ∧
      getDefault issuerExport "records" (.arr []) = .ok recs ∧ checkIssuance recs s = .ok (true, why) := by
  simp only [verifyBeaconAgainstIssuer, bind, Py.bind_ok, named, Except.ok.injEq, exists_eq_left'] at accepted
  obtain ⟨recs, recsRead, entries, read, salts, listed, matching, filtered, accepted⟩ := accepted
  obtain rfl : .arr [s] = entries := Except.ok.inj read
  obtain rfl : [s] = salts := Except.ok.inj listed
  have kept : decide (Json.pyEq issuer issuerId) = true := decide_eq_true same
  simp only [List.filterM, List.filterAuxM, nodeRead, kept, bind, Except.bind, pure, Except.pure, cond_true,
    List.reverse_cons, List.reverse_nil, List.nil_append, Except.ok.injEq] at filtered
  subst filtered
  simp only [Py.bind_ok] at accepted
  obtain ⟨env, envRead, ⟨ok, reason⟩, verified, accepted⟩ := accepted
  obtain ⟨passed, accepted⟩ := guard_ok.mp accepted
  obtain rfl : ok = true := by simpa using passed
  obtain rfl := (signedSalt_of_verifies verified).2
  exact ⟨env, recs, envRead, verified, recsRead, accepted⟩

theorem agreedCheckpoint_root {agreedRootEnv : Json} {found : Checkpoint}
    (agreed : agreedCheckpoint crypto issuerExport agreedCount agreedRootEnv = .ok (some found)) :
    ∃ root : SignedRoot crypto agreedRootEnv, root.count = agreedCount ∧
      findIssuerCheckpoint issuerExport (.str root.origin) agreedCount
        ((Dict.get? root.body "root").getD .null) = .ok (some found) := by
  unfold agreedCheckpoint at agreed
  split at agreed
  · cases agreed
  · simp only [bind, Py.bind_ok] at agreed
    obtain ⟨⟨ok, why⟩, verified, rb, bodyRead, agreed⟩ := agreed
    cases ok with
    | false => cases agreed
    | true =>
      obtain ⟨root⟩ := signedRoot_of_verifies verified
      have body := subscript_of_readEnvelope root.read
      obtain ⟨fields, rfl⟩ := obj_of_subscript body
      simp only [getDefault, subscript_obj.mp body, Option.getD_some, pure, Except.pure, Except.ok.injEq]
        at bodyRead
      subst bodyRead
      obtain ⟨value, counted, number⟩ := Option.bind_eq_some_iff.mp root.counted
      simp only [Bool.not_true, Bool.false_eq_true, if_false, dotGet_obj, counted, Option.getD_some,
        Except.bind] at agreed
      split at agreed
      · cases agreed
      · rename_i same
        have equal := (pyEq_asInt number (rfl : asInt? (.int agreedCount) = some agreedCount)).mp
          (not_not.mp same)
        simp only [subscript_obj.mpr root.node] at agreed
        exact ⟨root, equal, agreed⟩

theorem exists_salt (lawful : crypto.Lawful) (sk : SigningKey) :
    ∃ env, verifySaltEnvelope crypto env = .ok (true, "ok") := by
  let body : Dict Str Json := [("kind", .str "SALT_ISSUE"),
    ("issuer_node", .str (canonicalNodeId crypto (sk.publicKey crypto))), ("salt", .str []),
    ("salt_hash", .str (H_hex crypto []))]
  have plain : writable (.obj body) := by
    refine writable_obj.mpr ?_
    simp only [body, List.mem_cons, List.not_mem_nil, or_false, forall_eq_or_imp, forall_eq]
    refine ⟨⟨by decide, by decide⟩, ⟨by decide, encodable_nodeId _ _⟩, ⟨by decide, rfl⟩, by decide, ?_⟩
    exact encodable_toHex _
  obtain ⟨data, text⟩ := Py.exists_of_isOk ((canonical_isOk _).mpr plain)
  obtain ⟨env, made⟩ : ∃ env, sealEnvelope crypto sk saltDomain (.obj body) = .ok env :=
    ⟨_, by rw [sealEnvelope, text]; rfl⟩
  refine ⟨env, ?_⟩
  obtain ⟨data', text', read⟩ := readEnvelope_seal made
  obtain rfl := Except.ok.inj (text.symm.trans text')
  have kind : Dict.get? body "kind" = some (.str "SALT_ISSUE") := rfl
  have issuer : Dict.get? body "issuer_node" =
      some (.str (canonicalNodeId crypto (sk.publicKey crypto))) := rfl
  have salt : getDefault (.obj body) "salt" (.str []) = .ok (.str []) := rfl
  have hash : Dict.get? body "salt_hash" = some (.str (H_hex crypto [])) := rfl
  have empty : bytesFromHex (.str []) = .ok [] := rfl
  have signed : crypto.verify (sk.publicKey crypto) (saltDomain ++ data)
      (sk.sign crypto (saltDomain ++ data)) = true := lawful _ _
  clear_value body
  simp [verifySaltEnvelope, read, kind, issuer, salt, hash, empty, text, signed, bind, Except.bind, pure,
    Except.pure]

/-- An entry that names an issuance; its envelope says nothing about it. -/
def forgedSalt (issuerId env saltHash head : Json) (index : Nat) : Json :=
  .obj [("issuer_node", issuerId), ("issuer_index", .int index), ("issuer_head", head),
    ("salt_hash", saltHash), ("envelope", env)]

def forged (s : Json) : Json :=
  .obj [("records", .arr [.obj [("entanglement", .obj [("salts", .arr [s])])]])]

theorem get?_unsigned {fields : Dict Str Json} {key : Str} (hash : key ≠ "this_hash") (sig : key ≠ "sig") :
    Dict.get? (unsignedRecord fields) key = Dict.get? fields key := by
  induction fields with
  | nil => rfl
  | cons entry rest ih =>
    obtain ⟨name, value⟩ := entry
    unfold unsignedRecord at ih ⊢
    rw [List.filter_cons]
    by_cases kept : decide (name ≠ Str.ofString "this_hash" ∧ name ≠ Str.ofString "sig") = true
    · rw [if_pos kept, Dict.get?_cons, Dict.get?_cons, ih]
    · rw [if_neg kept, ih, Dict.get?_cons]
      have different : name ≠ key := by
        rintro rfl
        exact kept (decide_eq_true ⟨hash, sig⟩)
      rw [if_neg different]

theorem beaconSalts_unsigned (fields : Dict Str Json) :
    beaconSalts (.obj (unsignedRecord fields)) = beaconSalts (.obj fields) := by
  unfold beaconSalts
  rw [dotGet_obj, dotGet_obj, get?_unsigned (by decide) (by decide)]

theorem forged_proves_nothing {pub : Bytes} {record : Json} {checkpoint : Nat} {records : List Json}
    (read : agreedRecords (forged s) agreedCount = .ok records) (member : record ∈ records) :
    ¬Proves crypto pub issuerId checkpoint record := by
  rintro ⟨fields, rfl, ⟨data, _, _, _, named, _⟩, _⟩
  simp only [agreedRecords, forged, getDefault, Dict.get?_cons, pyTake, pyList, bind, Except.bind, pure,
    Except.pure, if_true, Option.getD_some, Except.ok.injEq] at read
  subst read
  obtain rfl := Json.obj.inj (List.mem_singleton.mp (List.mem_of_mem_take member))
  cases named

/-- An issuance of the issuer's chain, in front of a readable record. -/
structure Issuance (issuerExport : Json) (records : List Json) (index : Nat) (saltHash head : Json) :
    Prop where
  exported : getDefault issuerExport "records" (.arr []) = .ok (.arr records)
  positive : 0 < index
  record : ∃ record digest fields, records[index]? = some record ∧
    dotGet record "kind" = .ok (.str "SALT_ISSUE") ∧ dotGet record "semantic_digest" = .ok digest ∧
    orDict digest = .obj fields ∧ saltHash = (Dict.get? fields "salt_hash").getD .null
  previous : ∃ previous, records[index - 1]? = some previous ∧ subscript previous "this_hash" = .ok head

theorem checkIssuance_forged (issuerId env : Json) {records : List Json} {index : Nat} {saltHash head : Json}
    (issuance : Issuance issuerExport records index saltHash head) :
    checkIssuance (.arr records) (forgedSalt issuerId env saltHash head index) = .ok (true, "ok") := by
  obtain ⟨_, positive, ⟨record, digest, fields, found, kind, digestRead, shape, rfl⟩, previous, before,
    hash⟩ := issuance
  have inside : index < records.length := (List.getElem?_eq_some_iff.mp found).1
  have number : asInt? (.int index) = some (index : Int) := rfl
  have below : atLeastNat (.int index) records.length = .ok false := by
    have less : natLess records.length (.int index) = .ok false := by
      rw [natLess_of_asInt number]
      exact congrArg Except.ok (decide_eq_false (by omega))
    have other : ¬Json.pyEq (.int index) (.int records.length) := by
      rw [pyEq_asInt number rfl]
      omega
    simp [atLeastNat, less, other, bind, Except.bind, pure, Except.pure]
  have first : natLess 0 (.int index) = .ok true := by
    rw [natLess_of_asInt number]
    exact congrArg Except.ok (decide_eq_true (by omega))
  have here : pyIndex (.arr records) (.int index) = .ok record := by
    simp only [pyIndex, number]
    exact (atIndex_nonneg (by omega)).mpr found
  have there : pyIndex (.arr records) (.int (index - 1)) = .ok previous := by
    have place : ((index : Int) - 1).toNat = index - 1 := by omega
    simp only [pyIndex, asInt?]
    refine (atIndex_nonneg (by omega)).mpr ?_
    rw [place, before]
  have length : pyLen (.arr records) = .ok records.length := rfl
  have indexField : subscript (forgedSalt issuerId env ((Dict.get? fields "salt_hash").getD .null) head
      index) "issuer_index" = .ok (.int index) := rfl
  have headField : subscript (forgedSalt issuerId env ((Dict.get? fields "salt_hash").getD .null) head
      index) "issuer_head" = .ok head := rfl
  have hashField : subscript (forgedSalt issuerId env ((Dict.get? fields "salt_hash").getD .null) head
      index) "salt_hash" = .ok ((Dict.get? fields "salt_hash").getD .null) := rfl
  generalize forgedSalt issuerId env ((Dict.get? fields "salt_hash").getD .null) head index = s at *
  have heads : headMatches (.arr records) s (.int index) = .ok true := by
    simp [headMatches, first, number, there, hash, headField, bind, Except.bind, pure, Except.pure]
  simp [checkIssuance, indexField, length, below, here, kind, digestRead, shape, hashField, heads, bind,
    Except.bind, pure, Except.pure]

theorem verifyBeacon_forged {records : List Json} {index : Nat} {saltHash head env : Json}
    (named : dotGet issuerExport "node_id" = .ok issuerId)
    (issuance : Issuance issuerExport records index saltHash head)
    (verified : verifySaltEnvelope crypto env = .ok (true, "ok")) :
    verifyBeaconAgainstIssuer crypto
      (.obj [("salts", .arr [forgedSalt issuerId env saltHash head index])]) issuerExport =
        .ok (true, "ok") := by
  have checked := checkIssuance_forged issuerId env issuance
  have nodeField : subscript (forgedSalt issuerId env saltHash head index) "issuer_node" =
      .ok issuerId := rfl
  have envField : subscript (forgedSalt issuerId env saltHash head index) "envelope" = .ok env := rfl
  generalize forgedSalt issuerId env saltHash head index = s at *
  have entries : getDefault (.obj [("salts", .arr [s])]) "salts" (.arr []) = .ok (.arr [s]) := rfl
  simp [verifyBeaconAgainstIssuer, named, issuance.exported, entries, pyList, List.filterM,
    List.filterAuxM, nodeField, envField, verified, checked, bind, Except.bind, pure, Except.pure]

theorem judge_forged {records : List Json} {index : Nat} {saltHash head env agreedRootEnv : Json}
    {found : Checkpoint} (positive : 0 < agreedCount)
    (agreed : agreedCheckpoint crypto issuerExport agreedCount agreedRootEnv = .ok (some found))
    (later : found.index < index) (named : dotGet issuerExport "node_id" = .ok issuerId)
    (issuance : Issuance issuerExport records index saltHash head)
    (verified : verifySaltEnvelope crypto env = .ok (true, "ok")) :
    ∃ judgment, judgeDivergence crypto (forged (forgedSalt issuerId env saltHash head index)) (.obj [])
        issuerExport agreedCount agreedRootEnv = .ok judgment ∧
      judgment.isCryptographic = true ∧ judgment.anachronistic = some .a := by
  have accepted := verifyBeacon_forged named issuance verified
  have nodeField : subscript (forgedSalt issuerId env saltHash head index) "issuer_node" =
      .ok issuerId := rfl
  have indexField : subscript (forgedSalt issuerId env saltHash head index) "issuer_index" =
      .ok (.int index) := rfl
  have hashField : subscript (forgedSalt issuerId env saltHash head index) "salt_hash" =
      .ok saltHash := rfl
  generalize forgedSalt issuerId env saltHash head index = s at *
  have above : natLess found.index (.int index) = .ok true := by
    rw [natLess_of_asInt rfl]
    exact congrArg Except.ok (decide_eq_true (by omega))
  have cut : ∃ more, (if agreedCount < 0 then agreedCount + 1 else agreedCount).toNat = more + 1 :=
    ⟨agreedCount.toNat - 1, by rw [if_neg (by omega)]; omega⟩
  obtain ⟨more, cut⟩ := cut
  let record : Json := .obj [("entanglement", .obj [("salts", .arr [s])])]
  have salts : beaconSalts record = .ok [s] := rfl
  have scannedA : ∃ scan proof, scanChain crypto issuerExport issuerId (some found) agreedCount
      (forged s) = .ok scan ∧ scan.proven = [proof] := by
    have records : agreedRecords (forged s) agreedCount = .ok [record] := by
      simp [agreedRecords, forged, getDefault, pyTake, pyList, cut, record, bind, Except.bind, pure,
        Except.pure]
    have recordIndex : dotGet record "index" = .ok .null := rfl
    have recordHash : dotGet record "this_hash" = .ok .null := rfl
    clear_value record
    refine ⟨⟨some (.int index), [⟨.null, .null, saltHash, .int index, found⟩]⟩, _, ?_, rfl⟩
    simp [scanChain, records, scanRecord, salts, scanSalt, nodeField, accepted, indexField, raiseBest,
      above, provenRewrite, recordIndex, recordHash, hashField, bind, Except.bind, pure, Except.pure]
  have scannedB : scanChain crypto issuerExport issuerId (some found) agreedCount (.obj []) = .ok {} := by
    simp [scanChain, agreedRecords, getDefault, pyTake, pyList, bind, Except.bind, pure, Except.pure]
  obtain ⟨scan, proof, scannedA, proven⟩ := scannedA
  simp [judgeDivergence, named, agreed, scannedA, proven, scannedB, Judgment.isCryptographic, bind,
    Except.bind, pure, Except.pure]

theorem agreedRecords_positive {chain record : Json} {records : List Json} (nonneg : 0 ≤ agreedCount)
    (read : agreedRecords chain agreedCount = .ok records) (member : record ∈ records) :
    0 < agreedCount := by
  rcases nonneg.lt_or_eq with positive | rfl
  · exact positive
  · simp only [agreedRecords, bind, Py.bind_ok] at read
    obtain ⟨value, _, cut, taken, listed⟩ := read
    cases value with
    | arr items =>
      obtain rfl := Except.ok.inj taken
      obtain rfl := Except.ok.inj listed
      cases member
    | str text =>
      obtain rfl := Except.ok.inj taken
      obtain rfl := Except.ok.inj listed
      cases member
    | _ => cases taken

theorem laterIssuance_of_flagged {found : Checkpoint} {agreedRootEnv : Json} (positive : 0 < agreedCount)
    (agreed : agreedCheckpoint crypto issuerExport agreedCount agreedRootEnv = .ok (some found))
    (named : dotGet issuerExport "node_id" = .ok issuerId)
    (flagged : Flagged crypto issuerExport issuerId found s) :
    LaterIssuance crypto issuerExport agreedCount agreedRootEnv := by
  obtain ⟨⟨issuer, nodeRead, same⟩, ⟨why, accepted⟩, index, indexRead, later⟩ := flagged
  obtain ⟨_, recs, _, _, recsRead, checked⟩ := verifyBeacon_ok accepted nodeRead named same
  obtain ⟨records, i, record, digest, previous, hash, rfl, _, below, here, kind, digestRead, shape, there,
    hashRead⟩ := checkIssuance_ok checked indexRead later
  have place : i.toNat - 1 = (i - 1).toNat := by omega
  exact ⟨found, records, i.toNat, record, digest, previous, hash, positive, agreed, recsRead, by omega,
    here, kind, digestRead, shape, by rw [place, there], hashRead⟩

theorem proves_of_flagged {pub : Bytes} {records salts : List Json} {record : Json} {found : Checkpoint}
    (checked : Checked crypto pub records) (member : record ∈ records)
    (saltsRead : beaconSalts record = .ok salts) (inside : s ∈ salts)
    (named : dotGet issuerExport "node_id" = .ok issuerId)
    (flagged : Flagged crypto issuerExport issuerId found s) :
    Proves crypto pub issuerId found.index record := by
  obtain ⟨⟨issuer, nodeRead, same⟩, ⟨why, accepted⟩, index, indexRead, later⟩ := flagged
  obtain ⟨env, _, envRead, verified, _, _⟩ := verifyBeacon_ok accepted nodeRead named same
  obtain ⟨fields, rfl, signed, entries⟩ := checked record member
  obtain ⟨env', body, envRead', bodyRead, issuerCopy, indexCopy⟩ := entries salts saltsRead s inside
  obtain rfl := Except.ok.inj (envRead.symm.trans envRead')
  refine ⟨fields, rfl, signed, salts, by rw [beaconSalts_unsigned, saltsRead], s, inside, env, envRead,
    verified, body, issuer, index, bodyRead, ?_, same, ?_, later⟩
  · rw [← issuerCopy, nodeRead]
  · rw [← indexCopy, indexRead]

/-- Blame rests on signatures for all exports only when there is nothing to blame for; and
for exports whose records and entries were checked beforehand. -/
theorem blame_signed_iff (lawful : crypto.Lawful) (issuerExport agreedRootEnv : Json)
    (agreedCount : Int) :
    ((∀ chainA chainB, BlameSigned crypto chainA chainB issuerExport agreedCount agreedRootEnv) ↔
      ¬LaterIssuance crypto issuerExport agreedCount agreedRootEnv) ∧
    ∀ chainA chainB,
      (∀ root : SignedRoot crypto agreedRootEnv, ∀ side records,
        agreedRecords (Side.chain side chainA chainB) agreedCount = .ok records →
          Checked crypto root.pub records) →
      BlameSigned crypto chainA chainB issuerExport agreedCount agreedRootEnv := by
  refine ⟨⟨?_, ?_⟩, ?_⟩
  · rintro all ⟨found, records, index, record, digest, previous, hash, positive, agreed, exported, later,
      here, kind, digestRead, ⟨fields, shape⟩, there, hashRead⟩
    obtain ⟨exportFields, rfl⟩ : ∃ fields, issuerExport = .obj fields := by
      cases issuerExport with
      | obj fields => exact ⟨fields, rfl⟩
      | _ => cases exported
    obtain ⟨env, verified⟩ := exists_salt lawful (.sample 0)
    have issuance : Issuance (.obj exportFields) records index
        ((Dict.get? fields "salt_hash").getD .null) hash :=
      ⟨exported, by omega, ⟨record, digest, fields, here, kind, digestRead, shape, rfl⟩,
        previous, there, hashRead⟩
    obtain ⟨judgment, judged, cryptographic, against⟩ :=
      judge_forged positive agreed later (dotGet_obj _ _) issuance verified
    obtain ⟨root, _, _, _, read, _, member, proves⟩ := all _ _ judgment .a judged cryptographic against
    exact forged_proves_nothing read member proves
  · intro harmless chainA chainB judgment side judged cryptographic against
    obtain ⟨found, records, named, agreed, read, record, member, salts, _, s, _, flagged⟩ :=
      judge_cryptographic judged cryptographic against
    obtain ⟨root, counted, _⟩ := agreedCheckpoint_root agreed
    have positive := agreedRecords_positive (counted ▸ root.nonneg) read member
    exact absurd (laterIssuance_of_flagged positive agreed named flagged) harmless
  · intro chainA chainB checked judgment side judged cryptographic against
    obtain ⟨found, records, named, agreed, read, record, member, salts, saltsRead, s, inside, flagged⟩ :=
      judge_cryptographic judged cryptographic against
    obtain ⟨root, _, _⟩ := agreedCheckpoint_root agreed
    exact ⟨root, found, records, agreed, read, record, member,
      proves_of_flagged (checked root side records read) member saltsRead inside named flagged⟩

def sampleOrigin : WitnessChain :=
  match (WitnessChain.mk (.sample 1) []).append Crypto.sample { kind := "INFER" } with
  | .ok appended => appended.chain
  | .error _ => ⟨.sample 1, []⟩

def sampleRoot : Json := (makeSignedRoot Crypto.sample sampleOrigin (.sample 1) .zero).toOption.getD .null

/-- An issuer that has stored the origin's root and then issued a salt. -/
def sampleIssuer : WitnessChain :=
  match (WitnessChain.mk (.sample 2) []).append Crypto.sample (Daemon.peerRootCall "now"
    (fieldOf sampleRoot "node_id") (fieldOf sampleRoot "count") (fieldOf sampleRoot "root")
    (fieldOf sampleRoot "root_alg")) with
  | .error _ => ⟨.sample 2, []⟩
  | .ok appended =>
    match issue Crypto.sample appended.chain "node:other" .null [7] .zero with
    | .ok (chain, _) => chain
    | .error _ => appended.chain

def sampleExport : Json :=
  .obj [("node_id", .str (sampleIssuer.nodeId Crypto.sample)), ("records", .arr sampleIssuer.records)]

/-- A salt that a third key made for itself. -/
def strangerSalt : Json :=
  (sealEnvelope Crypto.sample (.sample 3) saltDomain (.obj [("kind", .str "SALT_ISSUE"),
    ("issuer_node", .str (canonicalNodeId Crypto.sample (SigningKey.publicKey Crypto.sample (.sample 3)))),
    ("salt", .str "aa"), ("salt_hash", .str (H_hex Crypto.sample [0xaa]))])).toOption.getD .null

/-- An entry that copies the issuance from the issuer's public chain. -/
def strangerEntry : Json :=
  forgedSalt (.str (sampleIssuer.nodeId Crypto.sample)) strangerSalt (.str (H_hex Crypto.sample [7]))
    ((sampleIssuer.records.head?.bind (fun record => (subscript record "this_hash").toOption)).getD .null) 1

/-- The unsigned history is a proven rewrite, by the judgment's word. -/
theorem unsigned_history_blamed :
    ¬BlameSigned Crypto.sample (forged strangerEntry) (.obj []) sampleExport 1 sampleRoot := by
  have blamed : (judgeDivergence Crypto.sample (forged strangerEntry) (.obj []) sampleExport 1
      sampleRoot).toOption.map (fun judgment => (judgment.isCryptographic, judgment.anachronistic)) =
        some (true, some .a) := by decide +kernel
  intro signed
  cases judged : judgeDivergence Crypto.sample (forged strangerEntry) (.obj []) sampleExport 1
      sampleRoot with
  | error e =>
    rw [judged] at blamed
    cases blamed
  | ok judgment =>
    rw [judged] at blamed
    obtain ⟨cryptographic, against⟩ := Prod.mk.inj (Option.some.inj blamed)
    obtain ⟨root, _, _, _, read, _, member, proves⟩ := signed judgment .a judged cryptographic against
    exact forged_proves_nothing read member proves

/-- The issuer's export before the salt was issued blames nobody. -/
theorem blame_signed_sample :
    BlameSigned Crypto.sample (.obj []) (.obj [])
      (.obj [("node_id", .str (sampleIssuer.nodeId Crypto.sample)),
        ("records", .arr (sampleIssuer.records.take 1))]) 1 sampleRoot := by
  refine (blame_signed_iff Crypto.sample_lawful _ _ _).1.mpr ?_ (.obj []) (.obj [])
  rintro ⟨found, records, index, record, _, _, _, _, _, exported, later, here, _⟩
  obtain rfl := Json.arr.inj (Except.ok.inj exported)
  have inside := (List.getElem?_eq_some_iff.mp here).1
  rw [List.length_take] at inside
  omega

end JJDai.Entanglement
