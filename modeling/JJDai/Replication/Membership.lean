import JJDai.Replication.PeerEvidence

/-! What a registry of peers that is opened again answers. -/

namespace JJDai.Replication

open PyText Canonical Durable

def makePeerRecord (crypto : Crypto) (sk : SigningKey) (baseUrl : Str) (roles : List Str) (now : PyFloat) : Py Json :=
  sealEnvelope crypto sk peerDomain (.obj [("kind", .str "PEER_RECORD"),
    ("node_id", .str (canonicalNodeId crypto (sk.publicKey crypto))), ("base_url", .str baseUrl),
    ("roles", .arr ((roles.mergeSort (fun a b => decide (a ≤ b))).map .str)), ("created_at", .float now)])

def admitPeer (crypto : Crypto) (admissionSk : SigningKey) (peerRecordEnv : Json) (now : PyFloat) : Py Json := do
  let body ← subscript peerRecordEnv "body"
  let admission ← sealEnvelope crypto admissionSk admitDomain (.obj [("kind", .str "PEER_ADMISSION"),
    ("peer_node", ← subscript body "node_id"), ("record_digest", .str (H_hex crypto (← canonical body))),
    ("admitted_by", .str (canonicalNodeId crypto (admissionSk.publicKey crypto))), ("admitted_at", .float now)])
  return .obj [("record", peerRecordEnv), ("admission", admission)]

theorem obj_of_pyEq {fields : Dict Str Json} {b : Json} (same : Json.pyEq (.obj fields) b) :
    ∃ other, b = .obj other := by
  cases b with
  | obj other => exact ⟨other, rfl⟩
  | float value =>
    simp only [Json.pyEq, Json.comparisonKey] at same
    split at same <;> cases same
  | _ => cases same

theorem subscript_pyEq {a b value : Json} (validA : a.valid) (validB : b.valid) (same : Json.pyEq a b)
    {key : Str} (read : subscript a key = .ok value) :
    ∃ other, subscript b key = .ok other ∧ Json.pyEq value other := by
  obtain ⟨fields, rfl⟩ := obj_of_subscript read
  obtain ⟨others, rfl⟩ := obj_of_pyEq same
  have values := Json.pyEq_get? (Json.valid_obj.mp validA).1 (Json.valid_obj.mp validB).1 same key
  rw [subscript_obj.mp read] at values
  cases found : Dict.get? others key with
  | none => simp [found] at values
  | some other =>
    rw [found] at values
    exact ⟨other, subscript_obj.mpr found, Option.some.inj values⟩

theorem bytesFromHex_pyEq {a b : Json} {bytes : Bytes} (same : Json.pyEq a b)
    (read : bytesFromHex a = .ok bytes) : bytesFromHex b = .ok bytes := by
  cases a with
  | str s =>
    cases b with
    | str other =>
      obtain rfl := Json.str.inj same
      exact read
    | float value =>
      simp only [Json.pyEq, Json.comparisonKey] at same
      split at same <;> cases same
    | _ => cases same
  | _ => cases read

def bundleKey (bundle : Json) : Py Bytes := do
  bytesFromHex (← subscript (← subscript bundle "record") "pub")

def PeerRegistry.pubkey (registry : PeerRegistry) (nid : Str) : Py (Option Bytes) := do
  match Dict.get? registry.peers nid with
  | none => return none
  | some bundle => if truthy bundle then return some (← bundleKey bundle) else return none

/-- Both registries answer `is_friend`, `pubkey` and `peer` the same for every node. -/
def SameAnswers (registry other : PeerRegistry) : Prop :=
  ∀ nid : Str, registry.isFriend (.str nid) = other.isFriend (.str nid) ∧
    registry.pubkey nid = other.pubkey nid ∧
      Option.Rel Json.pyEq (Dict.get? registry.peers nid) (Dict.get? other.peers nid)

/-- A running registry and the bytes of its journal. -/
structure PeerHost where
  registry : PeerRegistry := {}
  file : Bytes := []

inductive PeerCall where
  | call (op : PeerOp)
  | reopen

variable (crypto : Crypto) (admissionKeys : List Str) (path : Str)

namespace PeerHost

/-- A call; its journal write comes last, and fails for a line that is not UTF-8. -/
def perform (host : PeerHost) (op : PeerOp) : PeerHost :=
  match (peerJournal crypto admissionKeys).apply host.registry op with
  | .error _ => host
  | .ok (registry, none) => { host with registry }
  | .ok (registry, some line) =>
    match durableAppend host.file line with
    | .error _ => { host with registry }
    | .ok file => { registry, file }

/-- `PeerRegistry(path, admission_keys)` on the journal of a host. -/
def reopened (host : PeerHost) : Py PeerRegistry := (peerJournal crypto admissionKeys).reopen path host.file

def step (host : PeerHost) : PeerCall → PeerHost
  | .call op => host.perform crypto admissionKeys op
  | .reopen =>
    match host.reopened crypto admissionKeys path with
    | .ok registry => { host with registry }
    | .error _ => host

/-- A registry opened on the journal answers as the running one. -/
def Reopens (host : PeerHost) : Prop :=
  ∃ registry, host.reopened crypto admissionKeys path = .ok registry ∧ SameAnswers registry host.registry

def Written (host : PeerHost) : PeerCall → Prop
  | .call op => ∀ after line, (peerJournal crypto admissionKeys).apply host.registry op = .ok (after, some line) →
      (encode (journalLine line)).isOk = true
  | .reopen => True

/-- A bundle that is registered again is the one that is held. -/
def Unchanged (host : PeerHost) : PeerCall → Prop
  | .call (.register bundle) => ∀ reason nid held, verifyAdmittedRecord crypto bundle.json admissionKeys = .ok (true, reason) →
      bundleNode bundle.json = .ok nid → Dict.get? host.registry.peers nid = some held →
        Json.pyEq held bundle.json
  | _ => True

end PeerHost

variable {crypto admissionKeys path}

/-- The same statuses, and bundles that are alike. -/
structure Related (R : Json → Json → Prop) (registry other : PeerRegistry) : Prop where
  status : ∀ nid, Dict.get? registry.status nid = Dict.get? other.status nid
  peers : ∀ nid, Option.Rel R (Dict.get? registry.peers nid) (Dict.get? other.peers nid)

variable (crypto admissionKeys) in
/-- The journal holds lines that load into a registry like the running one. -/
def Kept (R : Json → Json → Prop) (host : PeerHost) : Prop :=
  ∃ events loaded, Holds host.file events ∧
    (peerJournal crypto admissionKeys).load (stored events) = .ok loaded ∧ Related R loaded host.registry

variable (path) in
theorem Kept.reopened {R : Json → Json → Prop} {host : PeerHost} (kept : Kept crypto admissionKeys R host) :
    ∃ loaded, host.reopened crypto admissionKeys path = .ok loaded ∧ Related R loaded host.registry := by
  obtain ⟨events, loaded, holds, loads, related⟩ := kept
  refine ⟨loaded, ?_, related⟩
  simp only [PeerHost.reopened, JournaledStore.reopen, readJournal_holds path holds true, bind, Except.bind]
  exact loads

/-- A registration of an admitted bundle: the first of its node is written, a later one is not. -/
theorem register_cases {registry : PeerRegistry} {bundle : Json} {outcome : PeerOutcome}
    (made : registry.register crypto admissionKeys bundle = .ok outcome) : ∃ reason nid,
      verifyAdmittedRecord crypto bundle admissionKeys = .ok (true, reason) ∧ bundleNode bundle = .ok nid ∧
      ((∃ held, Dict.get? registry.peers nid = some held ∧
          outcome = ⟨{ registry with peers := Dict.set registry.peers nid bundle }, none⟩) ∨
        (Dict.get? registry.peers nid = none ∧ outcome =
          ⟨⟨Dict.set registry.peers nid bundle, Dict.set registry.status nid (.str "active")⟩,
            some (admittedLine bundle)⟩)) := by
  simp only [PeerRegistry.register, bind, Py.bind_ok] at made
  obtain ⟨⟨ok, reason⟩, verified, made⟩ := made
  cases ok with
  | false => cases made
  | true =>
    simp only [Bool.not_true, Bool.false_eq_true, if_false, Py.bind_ok] at made
    obtain ⟨nid, node, made⟩ := made
    refine ⟨reason, nid, verified, node, ?_⟩
    cases known : Dict.get? registry.peers nid with
    | some held =>
      rw [known] at made
      exact .inl ⟨held, rfl, (Except.ok.inj made).symm⟩
    | none =>
      rw [known] at made
      exact .inr ⟨rfl, (Except.ok.inj made).symm⟩

theorem setStatus_cases {registry : PeerRegistry} {nid status : Str} {outcome : PeerOutcome}
    (made : registry.setStatus nid status = .ok outcome) : status ∈ statuses ∧
      (∃ held, Dict.get? registry.peers nid = some held) ∧
        outcome = ⟨{ registry with status := Dict.set registry.status nid (.str status) },
          some (statusLine nid status)⟩ := by
  simp only [PeerRegistry.setStatus] at made
  split at made
  · cases made
  · rename_i listed
    split at made
    · cases made
    · rename_i known
      refine ⟨not_not.mp listed, ?_, (Except.ok.inj made).symm⟩
      cases found : Dict.get? registry.peers nid with
      | none => simp [found] at known
      | some held => exact ⟨held, rfl⟩

theorem bundleKey_admitted {bundle : Json} {reason nid : Str}
    (verified : verifyAdmittedRecord crypto bundle admissionKeys = .ok (true, reason))
    (node : bundleNode bundle = .ok nid) : ∃ key, bundleKey bundle = .ok key := by
  simp only [bundleNode, bind, Py.bind_ok] at node
  obtain ⟨record, recordRead, _⟩ := node
  obtain ⟨fields, rfl⟩ := obj_of_subscript recordRead
  have held : getOrDict (.obj fields) "record" = .ok record := by
    simp only [getOrDict, subscript_obj.mp recordRead]
    rfl
  simp only [verifyAdmittedRecord, bind, Py.bind_ok] at verified
  obtain ⟨record', recordRead', admission, _, verified⟩ := verified
  obtain rfl := Except.ok.inj (held.symm.trans recordRead')
  cases read : readBundle record admission with
  | error e =>
    simp only [read] at verified
    split at verified <;> cases verified
  | ok parts =>
    simp only [readBundle, readEnvelope, bind, Py.bind_ok] at read
    obtain ⟨_, ⟨_, _, pub, pubRead, key, hex, _⟩, _⟩ := read
    refine ⟨key, ?_⟩
    simp only [bundleKey, recordRead, pubRead, bind, Except.bind]
    exact hex

theorem Related.set {R : Json → Json → Prop} {registry other : PeerRegistry} (related : Related R registry other)
    (nid : Str) {a b : Json} (alike : R a b) (status : Option Json) :
    Related R
      ⟨Dict.set registry.peers nid a, status.elim registry.status (Dict.set registry.status nid)⟩
      ⟨Dict.set other.peers nid b, status.elim other.status (Dict.set other.status nid)⟩ where
  status name := by
    cases status with
    | none => exact related.status name
    | some value =>
      simp only [Option.elim_some, Dict.get?_set]
      split
      · rfl
      · exact related.status name
  peers name := by
    simp only [Dict.get?_set]
    split
    · exact .some alike
    · exact related.peers name

/-- What a relation between bundles has to have to be kept. -/
structure Bundles (R : Json → Json → Prop) : Prop where
  sorted : ∀ (bundle : Json) (key : Bytes), bundle.valid → bundleKey bundle = .ok key →
    R bundle.sortKeys bundle
  left : ∀ a b, R a b → R a a

theorem Bundles.alone {R : Json → Json → Prop} (bundles : Bundles R) {a b : Option Json}
    (alike : Option.Rel R a b) : Option.Rel R a a := by
  cases alike with
  | none => exact .none
  | some alike => exact .some (bundles.left _ _ alike)

theorem rel_imp {R S : Json → Json → Prop} (weaker : ∀ a b, R a b → S a b) {a b : Option Json}
    (alike : Option.Rel R a b) : Option.Rel S a b := by
  cases alike with
  | none => exact .none
  | some alike => exact .some (weaker _ _ alike)

theorem isSome_of_rel {R : Json → Json → Prop} {a b : Option Json} (alike : Option.Rel R a b) :
    a.isSome = b.isSome := by
  cases alike with
  | none => rfl
  | some _ => rfl

section Calls

variable {R : Json → Json → Prop} {host : PeerHost}

theorem Kept.written (kept : Kept crypto admissionKeys R host) {e : Event} {file : Bytes} {after : PeerRegistry}
    (appended : durableAppend host.file e.json = .ok file)
    (loads : ∀ loaded, Related R loaded host.registry → ∃ later,
      loaded.loadEntry crypto admissionKeys e.json.sortKeys = .ok later ∧ Related R later after) :
    Kept crypto admissionKeys R ⟨after, file⟩ := by
  obtain ⟨events, loaded, holds, made, related⟩ := kept
  obtain ⟨later, next, alike⟩ := loads loaded related
  refine ⟨events ++ [e], later, holds.append appended, ?_, alike⟩
  simp only [JournaledStore.load, stored, List.map_append, List.map_cons, List.map_nil, List.foldlM_append] at made ⊢
  rw [made]
  simp only [bind, Except.bind, List.foldlM_cons, List.foldlM_nil]
  rw [show (peerJournal crypto admissionKeys).loadEntry loaded e.json.sortKeys = .ok later from next]
  rfl

/-- A registration that is written is kept; one that is not has to be like the bundle that is held. -/
theorem register_kept (bundles : Bundles R) (kept : Kept crypto admissionKeys R host) (bundle : Wire)
    (written : host.Written crypto admissionKeys (.call (.register bundle)))
    (again : ∀ reason nid held, verifyAdmittedRecord crypto bundle.json admissionKeys = .ok (true, reason) →
      bundleNode bundle.json = .ok nid → Dict.get? host.registry.peers nid = some held →
        ∀ a, R a held → R a bundle.json) :
    Kept crypto admissionKeys R (host.perform crypto admissionKeys (.register bundle)) := by
  unfold PeerHost.perform
  unfold PeerHost.Written at written
  cases applied : (peerJournal crypto admissionKeys).apply host.registry (.register bundle) with
  | error e => exact kept
  | ok result =>
    obtain ⟨after, line⟩ := result
    obtain ⟨outcome, made, same⟩ := Py.bind_ok.mp applied
    obtain ⟨rfl, rfl⟩ := Prod.mk.inj (Except.ok.inj same)
    obtain ⟨reason, nid, verified, node, ⟨held, found, rfl⟩ | ⟨absent, rfl⟩⟩ := register_cases made
    · obtain ⟨events, loaded, holds, loads, related⟩ := kept
      refine ⟨events, loaded, holds, loads, related.status, fun name => ?_⟩
      simp only [Dict.get?_set]
      split
      · rename_i same
        obtain rfl := same
        have before := related.peers nid
        rw [found] at before
        cases loadedHeld : Dict.get? loaded.peers nid with
        | none =>
          rw [loadedHeld] at before
          cases before
        | some a =>
          rw [loadedHeld] at before
          cases before with
          | some alike => exact .some (again reason nid held verified node found a alike)
      · exact related.peers name
    · obtain ⟨e, shape⟩ := event_admitted bundle.valid
      obtain ⟨key, keyed⟩ := bundleKey_admitted verified node
      obtain ⟨text, encoded⟩ := Py.exists_of_isOk (written _ _ applied)
      have appended : durableAppend host.file e.json = .ok (host.file ++ text) := by
        rw [shape, durableAppend, encoded]
        rfl
      have valid : (admittedLine bundle.json).valid := shape ▸ e.valid
      simp only [shape ▸ appended]
      refine kept.written appended (fun loaded related => ⟨_, ?_, related.set nid (bundles.sorted _ key bundle.valid keyed)
        (some (.str "active"))⟩)
      rw [shape]
      exact loadEntry_admitted loaded (dotGet_sortKeys valid rfl) (subscript_sortKeys valid rfl)
        (verifyAdmittedRecord_sortKeys bundle.valid verified) (bundleNode_sortKeys bundle.valid node)

theorem setStatus_kept (kept : Kept crypto admissionKeys R host) (nid status : Str)
    (written : host.Written crypto admissionKeys (.call (.setStatus nid status))) :
    Kept crypto admissionKeys R (host.perform crypto admissionKeys (.setStatus nid status)) := by
  unfold PeerHost.perform
  unfold PeerHost.Written at written
  cases applied : (peerJournal crypto admissionKeys).apply host.registry (.setStatus nid status) with
  | error e => exact kept
  | ok result =>
    obtain ⟨after, line⟩ := result
    obtain ⟨outcome, made, same⟩ := Py.bind_ok.mp applied
    obtain ⟨rfl, rfl⟩ := Prod.mk.inj (Except.ok.inj same)
    obtain ⟨_, ⟨held, found⟩, rfl⟩ := setStatus_cases made
    obtain ⟨e, shape⟩ := event_status nid status
    obtain ⟨text, encoded⟩ := Py.exists_of_isOk (written _ _ applied)
    have appended : durableAppend host.file e.json = .ok (host.file ++ text) := by
      rw [shape, durableAppend, encoded]
      rfl
    have valid : (statusLine nid status).valid := shape ▸ e.valid
    have read : subscript (statusLine nid status) "node_id" = .ok (.str nid) := rfl
    have node : subscript (statusLine nid status).sortKeys "node_id" = .ok (.str nid) := subscript_sortKeys valid read
    simp only [shape ▸ appended]
    refine kept.written appended (fun loaded related => ?_)
    have known : (Dict.get? loaded.peers nid).isSome = true := by
      rw [isSome_of_rel (related.peers nid), found]
      rfl
    refine ⟨{ loaded with status := Dict.set loaded.status nid (.str status) }, ?_, ?_⟩
    · rw [shape, loadEntry_status loaded (dotGet_sortKeys valid rfl) node (subscript_sortKeys valid rfl),
        if_pos known]
      rfl
    · refine ⟨fun name => ?_, related.peers⟩
      simp only [Dict.get?_set]
      split
      · rfl
      · exact related.status name

theorem reopen_kept (bundles : Bundles R) (kept : Kept crypto admissionKeys R host) :
    Kept crypto admissionKeys R (host.step crypto admissionKeys path .reopen) := by
  obtain ⟨events, loaded, holds, loads, related⟩ := kept
  have opened : host.reopened crypto admissionKeys path = .ok loaded := by
    simp only [PeerHost.reopened, JournaledStore.reopen, readJournal_holds path holds true, bind, Except.bind]
    exact loads
  simp only [PeerHost.step, opened]
  exact ⟨events, loaded, holds, loads, fun _ => rfl, fun name => bundles.alone (related.peers name)⟩

theorem step_kept (bundles : Bundles R) (kept : Kept crypto admissionKeys R host) (call : PeerCall)
    (written : host.Written crypto admissionKeys call)
    (again : ∀ bundle reason nid held, call = .call (.register bundle) →
      verifyAdmittedRecord crypto bundle.json admissionKeys = .ok (true, reason) →
      bundleNode bundle.json = .ok nid → Dict.get? host.registry.peers nid = some held →
        ∀ a, R a held → R a bundle.json) :
    Kept crypto admissionKeys R (host.step crypto admissionKeys path call) := by
  cases call with
  | reopen => exact reopen_kept bundles kept
  | call op =>
    cases op with
    | register bundle => exact register_kept bundles kept bundle written (again bundle · · · rfl)
    | setStatus nid status => exact setStatus_kept kept nid status written

theorem kept_start : Kept crypto admissionKeys R {} :=
  ⟨[], {}, Holds.nil, rfl, fun _ => rfl, fun _ => .none⟩

end Calls

structure Alike (a b : Json) : Prop where
  valid : a.valid
  valid' : b.valid
  same : Json.pyEq a b
  keyed : ∃ key, bundleKey a = .ok key

theorem bundleKey_pyEq {a b : Json} (validA : a.valid) (validB : b.valid) (same : Json.pyEq a b) {key : Bytes}
    (read : bundleKey a = .ok key) : bundleKey b = .ok key := by
  simp only [bundleKey, bind, Py.bind_ok] at read ⊢
  obtain ⟨record, recordRead, pub, pubRead, hex⟩ := read
  obtain ⟨record', recordRead', records⟩ := subscript_pyEq validA validB same recordRead
  obtain ⟨pub', pubRead', pubs⟩ := subscript_pyEq (valid_of_subscript validA recordRead)
    (valid_of_subscript validB recordRead') records pubRead
  exact ⟨record', recordRead', pub', pubRead', bytesFromHex_pyEq pubs hex⟩

theorem alike_bundles : Bundles Alike where
  sorted bundle key valid keyed :=
    have sorted := Json.valid_sortKeys valid
    have same := Json.pyEq_sortKeys bundle
    ⟨sorted, valid, same, key, bundleKey_pyEq valid sorted same.symm keyed⟩
  left a _ alike := ⟨alike.valid, alike.valid, .refl a, alike.keyed⟩

theorem truthy_of_bundleKey {bundle : Json} {key : Bytes} (read : bundleKey bundle = .ok key) :
    truthy bundle = true := by
  simp only [bundleKey, bind, Py.bind_ok] at read
  obtain ⟨record, recordRead, _⟩ := read
  obtain ⟨fields, rfl⟩ := obj_of_subscript recordRead
  cases fields with
  | nil => cases recordRead
  | cons entry rest => rfl

theorem Related.answers {registry other : PeerRegistry} (related : Related Alike registry other) :
    SameAnswers registry other := by
  intro nid
  refine ⟨by simp only [PeerRegistry.isFriend, related.status nid], ?_, ?_⟩
  · have peers := related.peers nid
    unfold PeerRegistry.pubkey
    generalize Dict.get? registry.peers nid = held at peers ⊢
    generalize Dict.get? other.peers nid = held' at peers ⊢
    cases peers with
    | none => rfl
    | some alike =>
      obtain ⟨key, keyed⟩ := alike.keyed
      have keyed' := bundleKey_pyEq alike.valid alike.valid' alike.same keyed
      simp only [truthy_of_bundleKey keyed, truthy_of_bundleKey keyed', keyed, keyed', if_true]
  · exact rel_imp (fun _ _ alike => alike.same) (related.peers nid)

def Listed (registry : PeerRegistry) : Prop :=
  ∀ nid, (Dict.get? registry.status nid).isSome → (Dict.get? registry.peers nid).isSome

variable (crypto admissionKeys) in
theorem perform_registry (host : PeerHost) (op : PeerOp) :
    (host.perform crypto admissionKeys op).registry = host.registry ∨
      ∃ line, (peerJournal crypto admissionKeys).apply host.registry op =
        .ok ((host.perform crypto admissionKeys op).registry, line) := by
  unfold PeerHost.perform
  cases applied : (peerJournal crypto admissionKeys).apply host.registry op with
  | error e => exact .inl rfl
  | ok result =>
    obtain ⟨after, line⟩ := result
    right
    cases line with
    | none => exact ⟨none, rfl⟩
    | some line =>
      refine ⟨some line, ?_⟩
      dsimp only
      cases durableAppend host.file line <;> rfl

theorem apply_listed {registry after : PeerRegistry} {op : PeerOp} {line : Option Json}
    (listed : Listed registry)
    (applied : (peerJournal crypto admissionKeys).apply registry op = .ok (after, line)) : Listed after := by
  intro key present
  cases op with
  | register bundle =>
    obtain ⟨outcome, made, same⟩ := Py.bind_ok.mp applied
    obtain ⟨rfl, rfl⟩ := Prod.mk.inj (Except.ok.inj same)
    obtain ⟨reason, name, _, _, ⟨held, found, rfl⟩ | ⟨absent, rfl⟩⟩ := register_cases made
    · rw [Dict.get?_set]
      split
      · rfl
      · exact listed key present
    · simp only [Dict.get?_set] at present ⊢
      split
      · rfl
      · rename_i differ
        rw [if_neg differ] at present
        exact listed key present
  | setStatus name status =>
    obtain ⟨outcome, made, same⟩ := Py.bind_ok.mp applied
    obtain ⟨rfl, rfl⟩ := Prod.mk.inj (Except.ok.inj same)
    obtain ⟨_, ⟨held, found⟩, rfl⟩ := setStatus_cases made
    simp only [Dict.get?_set] at present
    split at present
    · rename_i same
      rw [← same, found]
      rfl
    · exact listed key present

theorem apply_suspended {registry after : PeerRegistry} {op : PeerOp} {line : Option Json} {nid : Str}
    (listed : Listed registry) (applied : (peerJournal crypto admissionKeys).apply registry op = .ok (after, line))
    (other : op ≠ .setStatus nid "active") (suspended : Dict.get? registry.status nid = some (.str "suspended")) :
    Dict.get? after.status nid = some (.str "suspended") := by
  cases op with
  | register bundle =>
    obtain ⟨outcome, made, same⟩ := Py.bind_ok.mp applied
    obtain ⟨rfl, rfl⟩ := Prod.mk.inj (Except.ok.inj same)
    obtain ⟨reason, name, _, _, ⟨held, found, rfl⟩ | ⟨absent, rfl⟩⟩ := register_cases made
    · exact suspended
    · have known := listed nid (by rw [suspended]; rfl)
      have differ : name ≠ nid := by
        rintro rfl
        rw [absent] at known
        cases known
      rwa [Dict.get?_set, if_neg differ]
  | setStatus name status =>
    obtain ⟨outcome, made, same⟩ := Py.bind_ok.mp applied
    obtain ⟨rfl, rfl⟩ := Prod.mk.inj (Except.ok.inj same)
    obtain ⟨valid, _, rfl⟩ := setStatus_cases made
    rw [Dict.get?_set]
    split
    · rename_i same
      obtain rfl := same
      rcases List.mem_cons.mp valid with rfl | last
      · exact absurd rfl other
      · rw [List.mem_singleton.mp last]
    · exact suspended

theorem any_bundles : Bundles (fun _ _ => True) where
  sorted _ _ _ _ := trivial
  left _ _ _ := trivial

/-- A registry whose journal holds what it holds. -/
def Restorable (crypto : Crypto) (admissionKeys : List Str) (host : PeerHost) : Prop :=
  Kept crypto admissionKeys (fun _ _ => True) host ∧ Listed host.registry

theorem step_restorable {host : PeerHost} (restorable : Restorable crypto admissionKeys host) {call : PeerCall}
    (written : host.Written crypto admissionKeys call) :
    Restorable crypto admissionKeys (host.step crypto admissionKeys path call) := by
  refine ⟨step_kept any_bundles restorable.1 call written (fun _ _ _ _ _ _ _ _ _ _ => trivial), ?_⟩
  cases call with
  | reopen =>
    obtain ⟨loaded, opened, related⟩ := restorable.1.reopened path
    simp only [PeerHost.step, opened]
    intro nid present
    rw [isSome_of_rel (related.peers nid)]
    exact restorable.2 nid (related.status nid ▸ present)
  | call op =>
    rcases perform_registry crypto admissionKeys host op with same | ⟨line, applied⟩
    · exact same ▸ restorable.2
    · exact apply_listed restorable.2 applied

theorem step_suspended {host : PeerHost} (restorable : Restorable crypto admissionKeys host) {call : PeerCall}
    {nid : Str} (other : call ≠ .call (.setStatus nid "active"))
    (suspended : Dict.get? host.registry.status nid = some (.str "suspended")) :
    Dict.get? (host.step crypto admissionKeys path call).registry.status nid = some (.str "suspended") := by
  cases call with
  | reopen =>
    obtain ⟨loaded, opened, related⟩ := restorable.1.reopened path
    simp only [PeerHost.step, opened, related.status nid]
    exact suspended
  | call op =>
    rcases perform_registry crypto admissionKeys host op with same | ⟨line, applied⟩
    · exact same ▸ suspended
    · exact apply_suspended restorable.2 applied (fun same => other (same ▸ rfl)) suspended

theorem restorable_run {host : PeerHost} {calls : List PeerCall} (restorable : Restorable crypto admissionKeys host)
    (written : Run.Along (PeerHost.step crypto admissionKeys path) (PeerHost.Written crypto admissionKeys)
      host calls) :
    Restorable crypto admissionKeys (Run.run (PeerHost.step crypto admissionKeys path) host calls) :=
  Run.invariant (fun host _ (good : Restorable crypto admissionKeys host) written => step_restorable good written)
    restorable written

theorem suspended_run {host : PeerHost} {calls : List PeerCall} (restorable : Restorable crypto admissionKeys host)
    (written : Run.Along (PeerHost.step crypto admissionKeys path) (PeerHost.Written crypto admissionKeys)
      host calls) {nid : Str} (others : ∀ call ∈ calls, call ≠ .call (.setStatus nid "active"))
    (suspended : Dict.get? host.registry.status nid = some (.str "suspended")) :
    Dict.get? (Run.run (PeerHost.step crypto admissionKeys path) host calls).registry.status nid =
      some (.str "suspended") := by
  induction calls generalizing host with
  | nil => exact suspended
  | cons call rest ih =>
    obtain ⟨first, later⟩ := written
    rw [Run.run_cons]
    refine ih (step_restorable restorable first) later (fun call member => others call (List.mem_cons_of_mem _ member)) ?_
    exact step_suspended restorable (others call List.mem_cons_self) suspended

theorem restorable_start : Restorable crypto admissionKeys {} :=
  ⟨kept_start, fun _ present => present⟩

theorem reopens_run {calls : List PeerCall}
    (careful : Run.Along (PeerHost.step crypto admissionKeys path)
      (fun host call => host.Written crypto admissionKeys call ∧ host.Unchanged crypto admissionKeys call) {} calls) :
    (Run.run (PeerHost.step crypto admissionKeys path) {} calls).Reopens crypto admissionKeys path := by
  have kept : Kept crypto admissionKeys Alike (Run.run (PeerHost.step crypto admissionKeys path) {} calls) := by
    refine Run.invariant (fun host call (kept : Kept crypto admissionKeys Alike host) careful => ?_) kept_start careful
    obtain ⟨written, unchanged⟩ := careful
    refine step_kept alike_bundles kept call written (fun bundle reason nid held same verified node found a alike => ?_)
    subst same
    have equal := unchanged reason nid held verified node found
    exact ⟨alike.valid, bundle.valid, alike.same.trans equal, alike.keyed⟩
  obtain ⟨loaded, opened, related⟩ := kept.reopened path
  exact ⟨loaded, opened, related.answers⟩

variable (crypto admissionKeys path) in
/-- What is written is read back, and a suspension holds until it is lifted. -/
theorem membership_survives (calls : List PeerCall) :
    (Run.Along (PeerHost.step crypto admissionKeys path)
        (fun host call => host.Written crypto admissionKeys call ∧ host.Unchanged crypto admissionKeys call) {} calls →
      (Run.run (PeerHost.step crypto admissionKeys path) {} calls).Reopens crypto admissionKeys path) ∧
    (Run.Along (PeerHost.step crypto admissionKeys path) (PeerHost.Written crypto admissionKeys) {} calls →
      ∀ front back nid, calls = front ++ back → (∀ call ∈ back, call ≠ .call (.setStatus nid "active")) →
        Dict.get? (Run.run (PeerHost.step crypto admissionKeys path) {} front).registry.status nid =
          some (.str "suspended") →
        (Run.run (PeerHost.step crypto admissionKeys path) {} calls).registry.isFriend (.str nid) = .ok false) := by
  refine ⟨reopens_run, fun written front back nid split others suspended => ?_⟩
  subst split
  obtain ⟨before, after⟩ := Run.along_append.mp written
  have stays := suspended_run (restorable_run restorable_start before) after others suspended
  rw [Run.run_append]
  simp only [PeerRegistry.isFriend, stays]
  rfl

theorem register_admitted (registry : PeerRegistry) {bundle : Json} {reason nid : Str}
    (verified : verifyAdmittedRecord crypto bundle admissionKeys = .ok (true, reason))
    (node : bundleNode bundle = .ok nid) : ∃ outcome, registry.register crypto admissionKeys bundle = .ok outcome ∧
      Dict.get? outcome.registry.peers nid = some bundle ∧
      ((Dict.get? registry.peers nid).isSome → outcome.line = none) := by
  cases known : (Dict.get? registry.peers nid).isSome with
  | true =>
    refine ⟨⟨{ registry with peers := Dict.set registry.peers nid bundle }, none⟩, ?_, by simp, fun _ => rfl⟩
    simp only [PeerRegistry.register, verified, node, known, bind, Except.bind]
    rfl
  | false =>
    refine ⟨⟨⟨Dict.set registry.peers nid bundle, Dict.set registry.status nid (.str "active")⟩,
      some (admittedLine bundle)⟩, ?_, by simp, by simp⟩
    simp only [PeerRegistry.register, verified, node, known, bind, Except.bind]
    rfl

theorem register_held (host : PeerHost) {bundle : Wire} {reason nid : Str}
    (verified : verifyAdmittedRecord crypto bundle.json admissionKeys = .ok (true, reason))
    (node : bundleNode bundle.json = .ok nid) :
    Dict.get? (host.perform crypto admissionKeys (.register bundle)).registry.peers nid = some bundle.json ∧
      ((Dict.get? host.registry.peers nid).isSome →
        (host.perform crypto admissionKeys (.register bundle)).file = host.file) := by
  obtain ⟨⟨after, line⟩, made, held, silent⟩ := register_admitted host.registry verified node
  have applied : (peerJournal crypto admissionKeys).apply host.registry (.register bundle) = .ok (after, line) :=
    Py.bind_ok.mpr ⟨_, made, rfl⟩
  unfold PeerHost.perform
  rw [applied]
  cases line with
  | none => exact ⟨held, fun _ => rfl⟩
  | some line =>
    refine ⟨?_, fun known => by cases silent known⟩
    dsimp only
    cases durableAppend host.file line <;> exact held

theorem not_reopens_of_changed {host : PeerHost} (kept : Kept crypto admissionKeys Alike host) {bundle : Wire}
    {reason nid : Str} {held : Json}
    (verified : verifyAdmittedRecord crypto bundle.json admissionKeys = .ok (true, reason))
    (node : bundleNode bundle.json = .ok nid) (found : Dict.get? host.registry.peers nid = some held)
    (differs : ¬Json.pyEq held bundle.json) :
    ¬(host.perform crypto admissionKeys (.register bundle)).Reopens crypto admissionKeys path := by
  rintro ⟨registry, opened, answers⟩
  obtain ⟨loaded, before, related⟩ := kept.reopened path
  obtain ⟨newest, silent⟩ := register_held host verified node
  have file := silent (by rw [found]; rfl)
  obtain rfl : loaded = registry := by
    simp only [PeerHost.reopened, file] at opened before
    exact Except.ok.inj (before.symm.trans opened)
  have old := related.peers nid
  have new := (answers nid).2.2
  rw [found] at old
  rw [newest] at new
  cases stored : Dict.get? loaded.peers nid with
  | none =>
    rw [stored] at old
    cases old
  | some a =>
    rw [stored] at old new
    cases old with
    | some alike =>
      cases new with
      | some same => exact differs (alike.same.symm.trans same)

variable (crypto admissionKeys) in
theorem written_register (host : PeerHost) (bundle : Wire)
    (encodable : (encode (journalLine (admittedLine bundle.json))).isOk = true) :
    host.Written crypto admissionKeys (.call (.register bundle)) := by
  intro after line applied
  obtain ⟨outcome, made, same⟩ := Py.bind_ok.mp applied
  obtain ⟨rfl, written⟩ := Prod.mk.inj (Except.ok.inj same)
  obtain ⟨reason, nid, _, _, ⟨held, found, rfl⟩ | ⟨absent, rfl⟩⟩ := register_cases made
  · cases written
  · obtain rfl := Option.some.inj written
    exact encodable

theorem written_setStatus (host : PeerHost) (nid status : Str)
    (encodable : (encode (journalLine (statusLine nid status))).isOk = true) :
    host.Written crypto admissionKeys (.call (.setStatus nid status)) := by
  intro after line applied
  obtain ⟨outcome, made, same⟩ := Py.bind_ok.mp applied
  obtain ⟨rfl, written⟩ := Prod.mk.inj (Except.ok.inj same)
  obtain ⟨_, _, rfl⟩ := setStatus_cases made
  obtain rfl := Option.some.inj written
  exact encodable

/-- A bundle of the first sample key, admitted by the second. -/
def sampleMember (baseUrl : Str) : Json :=
  match makePeerRecord Crypto.sample (.sample 1) baseUrl ["verify"] .zero with
  | .error _ => .null
  | .ok record => (admitPeer Crypto.sample (.sample 2) record .zero).toOption.getD .null

def sampleAuthorities : List Str := [canonicalNodeId Crypto.sample ((SigningKey.sample 2).publicKey Crypto.sample)]

def sampleNode : Str := canonicalNodeId Crypto.sample ((SigningKey.sample 1).publicKey Crypto.sample)

def sampleBundle : Wire := ⟨sampleMember "a", by decide +kernel⟩

def newerBundle : Wire := ⟨sampleMember "b", by decide +kernel⟩

/-- The node is suspended, its bundle registered again and the registry reopened. -/
def sampleCalls : List PeerCall :=
  [.call (.register sampleBundle), .call (.setStatus sampleNode "suspended"),
    .call (.register sampleBundle), .reopen]

private theorem member_told :
    ((encode (journalLine (admittedLine sampleBundle.json))).isOk = true ∧
      (encode (journalLine (statusLine sampleNode "suspended"))).isOk = true) ∧
    (Dict.get? ((PeerHost.step Crypto.sample sampleAuthorities "p" {} (.call (.register sampleBundle))).step
          Crypto.sample sampleAuthorities "p" (.call (.setStatus sampleNode "suspended"))).registry.peers sampleNode =
        some sampleBundle.json ∧
      Dict.get? (Run.run (PeerHost.step Crypto.sample sampleAuthorities "p") {} (sampleCalls.take 2)).registry.status
        sampleNode = some (.str "suspended")) ∧
    (verifyAdmittedRecord Crypto.sample sampleBundle.json sampleAuthorities = .ok (true, "ok") ∧
      verifyAdmittedRecord Crypto.sample newerBundle.json sampleAuthorities = .ok (true, "ok")) ∧
    (bundleNode sampleBundle.json = .ok sampleNode ∧ bundleNode newerBundle.json = .ok sampleNode) ∧
    ¬Json.pyEq sampleBundle.json newerBundle.json := by
  decide +kernel

theorem membership_survives_sample :
    (Run.run (PeerHost.step Crypto.sample sampleAuthorities "p") {} sampleCalls).Reopens Crypto.sample
      sampleAuthorities "p" ∧
    (Run.run (PeerHost.step Crypto.sample sampleAuthorities "p") {} sampleCalls).registry.isFriend
      (.str sampleNode) = .ok false := by
  obtain ⟨⟨encodable, status⟩, reached, _, ⟨node, _⟩, _⟩ := member_told
  have careful : Run.Along (PeerHost.step Crypto.sample sampleAuthorities "p") (fun host call =>
      host.Written Crypto.sample sampleAuthorities call ∧ host.Unchanged Crypto.sample sampleAuthorities call)
      {} sampleCalls := by
    refine ⟨⟨written_register _ _ _ _ encodable, fun _ _ _ _ _ found => by cases found⟩,
      ⟨written_setStatus _ _ _ status, trivial⟩, ⟨written_register _ _ _ _ encodable, ?_⟩, ⟨trivial, trivial⟩, trivial⟩
    intro reason nid held _ named found
    obtain rfl := Except.ok.inj (node.symm.trans named)
    exact (Option.some.inj (reached.1.symm.trans found)) ▸ Json.pyEq.refl _
  have written := Run.Along.imp (fun _ _ both => both.1) careful
  have others : ∀ call ∈ sampleCalls.drop 2, call ≠ PeerCall.call (.setStatus sampleNode "active") := by
    intro call member
    rcases List.mem_cons.mp member with rfl | last
    · rintro ⟨⟩
    · rw [List.mem_singleton.mp last]
      rintro ⟨⟩
  obtain ⟨reopens, stays⟩ := membership_survives Crypto.sample sampleAuthorities "p" sampleCalls
  exact ⟨reopens careful, stays written _ _ sampleNode rfl others reached.2⟩

/-- The node gives a new address: the running registry has it, the journal has not. -/
theorem newer_bundle_not_kept : ¬(Run.run (PeerHost.step Crypto.sample sampleAuthorities "p") {}
    [.call (.register sampleBundle), .call (.register newerBundle)]).Reopens Crypto.sample sampleAuthorities "p" := by
  obtain ⟨⟨encodable, _⟩, _, ⟨verified, verified'⟩, ⟨node, node'⟩, differs⟩ := member_told
  have written := written_register Crypto.sample sampleAuthorities {} sampleBundle encodable
  have kept : Kept Crypto.sample sampleAuthorities Alike _ := register_kept alike_bundles kept_start sampleBundle written
    (fun _ _ _ _ _ found => by cases found)
  have held := (register_held {} verified node).1
  rw [Run.run_cons, Run.run_cons, Run.run_nil]
  exact not_reopens_of_changed kept verified' node' held differs

end JJDai.Replication
