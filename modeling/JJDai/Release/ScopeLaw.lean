import JJDai.Release.TwoKeys

/-! The recorded scope beside every pair of approvals, and the order of the approvals. -/

namespace JJDai.Release

open PyText Canonical Provenance Replication

def Alike (s t : List Json) : Prop := (s.map Json.comparisonKey).Perm (t.map Json.comparisonKey)

theorem Alike.refl (s : List Json) : Alike s s := List.Perm.refl _

theorem any_pyEq (members : List Json) (value : Json) :
    members.any (fun member => decide (Json.pyEq member value)) = true ↔
      Json.comparisonKey value ∈ members.map Json.comparisonKey := by
  simp only [List.any_eq_true, decide_eq_true_eq, List.mem_map]
  exact Iff.rfl

theorem Alike.any {s t : List Json} (alike : Alike s t) (value : Json) :
    (s.any (fun member => decide (Json.pyEq member value))) = t.any (fun member => decide (Json.pyEq member value)) := by
  rw [Bool.eq_iff_iff, any_pyEq, any_pyEq]
  exact alike.mem_iff

theorem Alike.append {s t : List Json} (alike : Alike s t) (value : Json) : Alike (s ++ [value]) (t ++ [value]) := by
  unfold Alike
  rw [List.map_append, List.map_append]
  exact alike.append_right _

theorem Alike.swap {s t : List Json} (alike : Alike s t) (first second : Json) :
    Alike (s ++ [first] ++ [second]) (t ++ [second] ++ [first]) := by
  unfold Alike
  simp only [List.map_append, List.append_assoc]
  exact List.Perm.append alike (List.Perm.swap _ _ _)

theorem withValue_perm (members : List Json) (value : Json) :
    ((withValue members value).map Json.comparisonKey).Perm
      ((members.map Json.comparisonKey).insert (Json.comparisonKey value)) := by
  have found := any_pyEq members value
  unfold withValue
  by_cases held : Json.comparisonKey value ∈ members.map Json.comparisonKey
  · rw [if_pos (found.mpr held), List.insert_of_mem held]
  · rw [if_neg (fun there => held (found.mp there)), List.insert_of_not_mem held, List.map_append]
    exact List.perm_append_singleton _ _

theorem Alike.withValue {s t : List Json} (alike : Alike s t) (value : Json) :
    Alike (withValue s value) (withValue t value) :=
  (withValue_perm s value).trans ((alike.insert _).trans (withValue_perm t value).symm)

theorem Alike.withValue_swap {s t : List Json} (alike : Alike s t) (first second : Json) :
    Alike (JJDai.withValue (JJDai.withValue s first) second) (JJDai.withValue (JJDai.withValue t second) first) := by
  have along := (withValue_perm (JJDai.withValue s first) second).trans ((withValue_perm s first).insert _)
  have across := (withValue_perm (JJDai.withValue t second) first).trans ((withValue_perm t second).insert _)
  exact along.trans ((((alike.insert _).insert _).trans (List.perm_insert_swap _ _ _)).trans across.symm)

/-- Sets that an order of the approvals may leave. -/
structure SameSeen (a b : Seen) : Prop where
  keys : Alike a.keys b.keys
  devices : Alike a.devices b.devices
  principals : Alike a.principals b.principals
  roles : Alike a.roles b.roles

theorem SameSeen.refl (a : Seen) : SameSeen a a := ⟨.refl _, .refl _, .refl _, .refl _⟩

/-- What counting an approval needs, and what it leaves. -/
structure Adds (seen next : Seen) (key : RegisteredKey) (role : Json) : Prop where
  hashable : hashable key.keyId = true ∧ hashable key.deviceId = true ∧ hashable key.principalId = true ∧ hashable role = true
  freshKey : seen.keys.any (fun member => decide (Json.pyEq member key.keyId)) = false
  freshDevice : seen.devices.any (fun member => decide (Json.pyEq member key.deviceId)) = false
  made : next = ⟨seen.keys ++ [key.keyId], seen.devices ++ [key.deviceId], withValue seen.principals key.principalId,
    withValue seen.roles role⟩

theorem Seen.add_iff {seen next : Seen} {key : RegisteredKey} {role : Json} :
    seen.add key role = .ok next ↔ Adds seen next key role := by
  simp only [Seen.add, bind, Py.bind_ok, Py.unless_ok, setContains_ok, setAdd_ok]
  constructor
  · rintro ⟨_, ⟨key_, rfl⟩, fresh, _, ⟨device, rfl⟩, apart, _, ⟨_, rfl⟩, _, ⟨_, rfl⟩, _, ⟨principal, rfl⟩, _, ⟨role_, rfl⟩, made⟩
    have fresh := Bool.not_eq_true _ ▸ fresh
    have apart := Bool.not_eq_true _ ▸ apart
    refine ⟨⟨key_, device, principal, role_⟩, fresh, apart, ?_⟩
    rw [← Except.ok.inj made]
    simp only [withValue, fresh, apart, Bool.false_eq_true, if_false]
  · rintro ⟨⟨key_, device, principal, role_⟩, fresh, apart, rfl⟩
    refine ⟨_, ⟨key_, fresh⟩, by decide, _, ⟨device, apart⟩, by decide, _, ⟨key_, rfl⟩, _, ⟨device, rfl⟩, _,
      ⟨principal, rfl⟩, _, ⟨role_, rfl⟩, ?_⟩
    simp only [withValue, fresh, apart, Bool.false_eq_true, if_false]
    rfl

theorem SameSeen.add {a b next : Seen} (same : SameSeen a b) {key : RegisteredKey} {role : Json}
    (added : Adds a next key role) : ∃ later, Adds b later key role ∧ SameSeen next later := by
  obtain ⟨hashed, fresh, apart, rfl⟩ := added
  refine ⟨_, ⟨hashed, same.keys.any _ ▸ fresh, same.devices.any _ ▸ apart, rfl⟩, ?_⟩
  exact ⟨same.keys.append _, same.devices.append _, same.principals.withValue _, same.roles.withValue _⟩

theorem SameSeen.add_swap {a b middle next : Seen} (same : SameSeen a b) {key other : RegisteredKey} {role role' : Json}
    (first : Adds a middle key role) (second : Adds middle next other role') :
    ∃ middle' next', Adds b middle' other role' ∧ Adds middle' next' key role ∧ SameSeen next next' := by
  obtain ⟨hashed, fresh, apart, rfl⟩ := first
  obtain ⟨hashed', fresh', apart', rfl⟩ := second
  simp only [List.any_append, List.any_cons, List.any_nil, Bool.or_false, Bool.or_eq_false_iff, decide_eq_false_iff_not] at fresh' apart'
  have keys (member : Json) (value : Json) : ¬Json.pyEq member value → decide (Json.pyEq value member) = false :=
    fun differ => decide_eq_false (fun equal => differ equal.symm)
  refine ⟨_, _, ⟨hashed', same.keys.any _ ▸ fresh'.1, same.devices.any _ ▸ apart'.1, rfl⟩,
    ⟨hashed, ?_, ?_, rfl⟩, ?_⟩
  · rw [List.any_append, ← same.keys.any, fresh]
    simp [keys _ _ fresh'.2]
  · rw [List.any_append, ← same.devices.any, apart]
    simp [keys _ _ apart'.2]
  · exact ⟨same.keys.swap _ _, same.devices.swap _ _, same.principals.withValue_swap _ _, same.roles.withValue_swap _ _⟩

variable {crypto : Crypto} {registry : Registry} {witnessSeq : Int} {want : Str}

theorem countApprovals_cons {seen final : Seen} {signed : Json} {rest : List Json} :
    countApprovals crypto registry witnessSeq want seen (signed :: rest) = .ok final ↔
      ∃ key role next, checkApproval crypto registry witnessSeq want signed = .ok key ∧ subscript signed "role" = .ok role ∧
        Adds seen next key role ∧ countApprovals crypto registry witnessSeq want next rest = .ok final := by
  simp only [countApprovals, bind, Py.bind_ok, Seen.add_iff]
  constructor
  · rintro ⟨key, checked, role, read, next, added, counted⟩
    exact ⟨key, role, next, checked, read, added, counted⟩
  · rintro ⟨key, role, next, checked, read, added, counted⟩
    exact ⟨key, checked, role, read, next, added, counted⟩

theorem countApprovals_same {a b final : Seen} {approvals : List Json} (same : SameSeen a b)
    (counted : countApprovals crypto registry witnessSeq want a approvals = .ok final) :
    ∃ final', countApprovals crypto registry witnessSeq want b approvals = .ok final' ∧ SameSeen final final' := by
  induction approvals generalizing a b with
  | nil =>
    obtain rfl := Except.ok.inj counted
    exact ⟨b, rfl, same⟩
  | cons signed rest ih =>
    obtain ⟨key, role, next, checked, read, added, counted⟩ := countApprovals_cons.mp counted
    obtain ⟨later, added', same'⟩ := same.add added
    obtain ⟨final', counted', agree⟩ := ih same' counted
    exact ⟨final', countApprovals_cons.mpr ⟨key, role, later, checked, read, added', counted'⟩, agree⟩

theorem countApprovals_perm {a b final : Seen} {approvals approvals' : List Json} (perm : approvals.Perm approvals')
    (same : SameSeen a b) (counted : countApprovals crypto registry witnessSeq want a approvals = .ok final) :
    ∃ final', countApprovals crypto registry witnessSeq want b approvals' = .ok final' ∧ SameSeen final final' := by
  induction perm generalizing a b final with
  | nil => exact countApprovals_same same counted
  | cons signed _ ih =>
    obtain ⟨key, role, next, checked, read, added, counted⟩ := countApprovals_cons.mp counted
    obtain ⟨later, added', same'⟩ := same.add added
    obtain ⟨final', counted', agree⟩ := ih same' counted
    exact ⟨final', countApprovals_cons.mpr ⟨key, role, later, checked, read, added', counted'⟩, agree⟩
  | swap first second rest =>
    obtain ⟨key, role, middle, checked, read, added, counted⟩ := countApprovals_cons.mp counted
    obtain ⟨key', role', next, checked', read', added', counted⟩ := countApprovals_cons.mp counted
    obtain ⟨middle', next', addedFirst, addedSecond, same'⟩ := same.add_swap added added'
    obtain ⟨final', counted', agree⟩ := countApprovals_same same' counted
    exact ⟨final', countApprovals_cons.mpr ⟨key', role', middle', checked', read', addedFirst,
      countApprovals_cons.mpr ⟨key, role, next', checked, read, addedSecond, counted'⟩⟩, agree⟩
  | trans _ _ first second =>
    obtain ⟨middle, counted', agree⟩ := first same counted
    obtain ⟨final', counted'', agree'⟩ := second (SameSeen.refl b) counted'
    exact ⟨final', counted'', agree.keys.trans agree'.keys, agree.devices.trans agree'.devices,
      agree.principals.trans agree'.principals, agree.roles.trans agree'.roles⟩

theorem checkOtherRun_ok {run : Json} {approvals : List Json} :
    checkOtherRun run approvals = .ok () ↔ ∀ other ∈ approvals, ∃ role theirs, dotGet other "role" = .ok role ∧
      dotGet other "build_run_id" = .ok theirs ∧ ¬(role = .str "builder" ∧ Json.pyEq theirs run) := by
  induction approvals with
  | nil => simp [checkOtherRun, pure, Except.pure]
  | cons other rest ih =>
    simp only [checkOtherRun, bind, Py.bind_ok, Py.unless_ok, ih, List.forall_mem_cons]
    constructor
    · rintro ⟨role, read, theirs, run, apart, later⟩
      exact ⟨⟨role, theirs, read, run, apart⟩, later⟩
    · rintro ⟨⟨role, theirs, read, run, apart⟩, later⟩
      exact ⟨role, read, theirs, run, apart, later⟩

theorem checkOneEvidence_perm {statement evidence approval : Json} {approvals approvals' : List Json}
    (perm : approvals.Perm approvals')
    (passed : checkOneEvidence crypto statement evidence approval approvals registry = .ok ()) :
    checkOneEvidence crypto statement evidence approval approvals' registry = .ok () := by
  have same (run : Json) (checked : checkOtherRun run approvals = .ok ()) : checkOtherRun run approvals' = .ok () := by
    rw [checkOtherRun_ok] at checked ⊢
    exact fun other inside => checked other (perm.mem_iff.mpr inside)
  simp only [checkOneEvidence, bind, Py.bind_ok] at passed ⊢
  obtain ⟨_, names, _, whose, _, signed, run, read, _, other, rest⟩ := passed
  exact ⟨(), names, (), whose, (), signed, run, read, (), same run other, rest⟩

/-- What the loop over the rebuilds checks of one approval. -/
def Rebuilt (crypto : Crypto) (statement : Json) (context : ReleaseContext) (approvals : List Json) (registry : Registry)
    (approval : Json) : Prop :=
  ∃ digest, dotGet approval "verification_evidence_hash" = .ok digest ∧ (truthy digest = true →
    ∃ keyId evidence, subscript approval "key_id" = .ok keyId ∧ readEvidence crypto context keyId digest = .ok evidence ∧
      checkOneEvidence crypto statement evidence approval approvals registry = .ok ())

theorem checkRebuildEvidence_ok {statement : Json} {context : ReleaseContext} {approvals rest : List Json} :
    checkRebuildEvidence crypto statement context approvals registry rest = .ok () ↔
      ∀ approval ∈ rest, Rebuilt crypto statement context approvals registry approval := by
  induction rest with
  | nil => simp [checkRebuildEvidence, pure, Except.pure]
  | cons approval rest ih =>
    rw [List.forall_mem_cons, ← ih]
    unfold Rebuilt
    cases named : dotGet approval "verification_evidence_hash" with
    | error e => simp [checkRebuildEvidence, named, bind, Except.bind]
    | ok digest =>
      cases present : truthy digest with
      | false => simp [checkRebuildEvidence_silent named present, present]
      | true =>
        simp only [checkRebuildEvidence, bind, named, ok_bind, present, if_true, Py.bind_ok]
        constructor
        · rintro ⟨keyId, key, evidence, read, _, checked, rest⟩
          exact ⟨⟨digest, rfl, fun _ => ⟨keyId, evidence, key, read, checked⟩⟩, rest⟩
        · rintro ⟨⟨other, same, each⟩, rest⟩
          obtain rfl := Except.ok.inj same
          obtain ⟨keyId, evidence, key, read, checked⟩ := each present
          exact ⟨keyId, key, evidence, read, (), checked, rest⟩

theorem checkRebuildEvidence_perm {statement : Json} {context : ReleaseContext} {approvals approvals' : List Json}
    (perm : approvals.Perm approvals')
    (passed : checkRebuildEvidence crypto statement context approvals registry approvals = .ok ()) :
    checkRebuildEvidence crypto statement context approvals' registry approvals' = .ok () := by
  rw [checkRebuildEvidence_ok] at passed ⊢
  intro approval inside
  obtain ⟨digest, named, each⟩ := passed approval (perm.mem_iff.mpr inside)
  refine ⟨digest, named, ?_⟩
  intro present
  obtain ⟨keyId, evidence, key, read, checked⟩ := each present
  exact ⟨keyId, evidence, key, read, checkOneEvidence_perm perm checked⟩

def ActsAs (role : Str) (approval : Json) : Prop := dotGet approval "role" = .ok (.str role)

instance (role : Str) (approval : Json) : Decidable (ActsAs role approval) := by
  unfold ActsAs
  infer_instance

/-- Approvals are objects, each with its role. -/
def Named (approvals : List Json) : Prop :=
  ∀ approval ∈ approvals, truthy approval = true ∧ ∃ role ∈ approvalRoles, ActsAs role approval

theorem lastOfRole_eq {role : Str} {approvals : List Json} (named : Named approvals) :
    lastOfRole role approvals = .ok ((approvals.filter (ActsAs role)).getLast?.getD .null) := by
  induction approvals with
  | nil => rfl
  | cons approval rest ih =>
    obtain ⟨⟨there, own, _, acts⟩, later⟩ := List.forall_mem_cons.mp named
    have read : dotGet approval "role" = .ok (.str own) := acts
    have acting : ActsAs role approval ↔ Json.str own = .str role := by
      rw [ActsAs, read, Except.ok.injEq]
    simp only [lastOfRole, bind, read, ih later, ok_bind, pure, Except.pure, Except.ok.injEq, ← acting]
    cases last : (rest.filter (ActsAs role)).getLast? with
    | none =>
      have empty := List.getLast?_eq_none_iff.mp last
      by_cases here : ActsAs role approval
      · rw [if_pos ⟨rfl, here⟩, List.filter_cons_of_pos (by simpa using here), empty]
        rfl
      · rw [if_neg (fun both => here both.2), List.filter_cons_of_neg (by simpa using here), empty]
        rfl
    | some final =>
      have inside := List.mem_of_mem_filter (List.mem_of_getLast? last)
      have present : final ≠ .null := by
        rintro rfl
        cases (later _ inside).1
      rw [if_neg (fun both => present both.1)]
      by_cases here : ActsAs role approval
      · rw [List.filter_cons_of_pos (by simpa using here), List.getLast?_cons, last]
        rfl
      · rw [List.filter_cons_of_neg (by simpa using here), last]

theorem Named.perm {approvals approvals' : List Json} (perm : approvals.Perm approvals') (named : Named approvals) :
    Named approvals' := fun approval inside => named approval (perm.mem_iff.mpr inside)

/-- The scope check compares the record with the pair of the last builder and the last verifier. -/
theorem checkScope_ok {statement builder verifier : Json} {approvals : List Json} (named : Named approvals)
    (builds : (approvals.filter (ActsAs "builder")).getLast? = some builder)
    (verifies : (approvals.filter (ActsAs "verifier")).getLast? = some verifier) :
    checkScope statement approvals = .ok () ↔
      ∃ derived, deriveScope builder verifier = .ok derived ∧
        subscript statement "reproducibility_scope" = .ok (.str derived) := by
  have there := (named _ (List.mem_of_mem_filter (List.mem_of_getLast? builds))).1
  have here := (named _ (List.mem_of_mem_filter (List.mem_of_getLast? verifies))).1
  simp only [checkScope, bind, lastOfRole_eq named, builds, verifies, Option.getD_some, ok_bind, there, here, Bool.not_true,
    Bool.or_self, Bool.false_eq_true, if_false, Py.bind_ok]
  constructor
  · rintro ⟨derived, made, recorded, read, passed⟩
    by_cases same : recorded = .str derived
    · exact ⟨derived, made, same ▸ read⟩
    · rw [if_pos same] at passed
      simp only [Py.bind_ok] at passed
      obtain ⟨_, _, _, _, _, _, _, _, failed⟩ := passed
      cases failed
  · rintro ⟨derived, made, read⟩
    refine ⟨derived, made, _, read, ?_⟩
    rw [if_neg (not_not.mpr rfl)]
    rfl

def withApprovals (attestation : Json) (approvals : List Json) : Json :=
  match attestation with
  | .obj fields => .obj (Dict.set fields "approvals" (.arr approvals))
  | other => other

theorem attestedStatement_withApprovals (attestation : Json) (approvals : List Json) :
    attestedStatement crypto (withApprovals attestation approvals) = attestedStatement crypto attestation := by
  cases attestation with
  | obj fields =>
    have other {key : Str} (different : (Str.ofString "approvals") ≠ key) :
        dotGet (.obj (Dict.set fields "approvals" (.arr approvals))) key = dotGet (.obj fields) key := by
      simp only [dotGet, Dict.get?_set_ne fields different]
    simp only [withApprovals, attestedStatement]
    rw [other (by decide), other (by decide), other (by decide)]
  | _ => rfl

theorem approvalsOf_withApprovals {attestation : Json} {fields : Dict Str Json} (shape : attestation = .obj fields)
    (approvals : List Json) : approvalsOf (withApprovals attestation approvals) = .ok approvals := by
  subst shape
  simp only [approvalsOf, withApprovals, dotGet, Dict.get?_set_self, Option.getD_some, bind, ok_bind]
  cases approvals <;> rfl

theorem Alike.length_eq {s t : List Json} (alike : Alike s t) : s.length = t.length := by
  simpa using List.Perm.length_eq alike

theorem checkRolesPresent_alike {roles roles' : List Json} (alike : Alike roles roles') {names : List Str}
    (passed : checkRolesPresent roles names = .ok ()) : checkRolesPresent roles' names = .ok () := by
  induction names with
  | nil => rfl
  | cons name rest ih =>
    simp only [checkRolesPresent, bind, Py.bind_ok, setContains_ok, Py.unless_ok] at passed ⊢
    obtain ⟨_, ⟨hashed, rfl⟩, found, later⟩ := passed
    exact ⟨_, ⟨hashed, (alike.any _).symm⟩, found, ih later⟩

/-- An accepted attestation is accepted with its approvals in any order in which the scope is that of
the last pair. -/
theorem verifyAttestation_perm {attestation statement : Json} {context : ReleaseContext} {control : Control}
    {approvals approvals' : List Json}
    (verified : verifyAttestation crypto attestation registry witnessSeq context = .ok control)
    (attested : attestedStatement crypto attestation = .ok (statement, want)) (listed : approvalsOf attestation = .ok approvals)
    (perm : approvals.Perm approvals') (scope : checkScope statement approvals' = .ok ()) :
    verifyAttestation crypto (withApprovals attestation approvals') registry witnessSeq context = .ok control := by
  obtain ⟨statement', want', given, seen, recorded, binding, attested', listed', counted, roles, read, bound, rfl, checked,
    external⟩ := verifyAttestation_ok.mp verified
  obtain ⟨rfl, rfl⟩ := Prod.mk.inj (Except.ok.inj (attested.symm.trans attested'))
  obtain rfl := Except.ok.inj (listed.symm.trans listed')
  obtain ⟨seen', counted', same⟩ := countApprovals_perm perm (SameSeen.refl {}) counted
  have shape : ∃ fields, attestation = .obj fields := by
    cases attestation with
    | obj fields => exact ⟨fields, rfl⟩
    | _ => cases attested
  obtain ⟨fields, shape⟩ := shape
  obtain ⟨names, run, environment, artefacts, bundle, recipe, sbom, manifest, rebuilt, _⟩ := checkExternal_ok.mp external
  refine verifyAttestation_ok.mpr ⟨statement, want, approvals', seen', recorded, binding,
    (attestedStatement_withApprovals _ _).trans attested, approvalsOf_withApprovals shape _, counted',
    checkRolesPresent_alike same.roles roles, read, bound, ?_, checked, checkExternal_ok.mpr
      ⟨names, run, environment, artefacts, bundle, recipe, sbom, manifest, checkRebuildEvidence_perm perm rebuilt, scope⟩⟩
  rw [perm.length_eq, same.keys.length_eq, same.devices.length_eq, same.principals.length_eq]

/-- The recorded scope ranks no higher than what the two approvals derive. -/
def Within (recorded builder verifier : Json) : Prop :=
  ∃ derived rank highest, deriveScope builder verifier = .ok derived ∧ scopeRank recorded = .ok rank ∧
    scopeRank (.str derived) = .ok highest ∧ rank ≤ highest

/-- No pair of approvals derives less than the record, and any order of the approvals is accepted. -/
structure ScopeLaw (crypto : Crypto) (attestation : Json) (registry : Registry) (witnessSeq : Int) (context : ReleaseContext)
    (approvals : List Json) : Prop where
  within : ∃ statement recorded, dotGet attestation "statement" = .ok statement ∧
    subscript statement "reproducibility_scope" = .ok recorded ∧ ∀ builder ∈ approvals, ∀ verifier ∈ approvals,
      ActsAs "builder" builder → ActsAs "verifier" verifier → Within recorded builder verifier
  reordered : ∀ approvals', approvals.Perm approvals' → ∃ control,
    verifyAttestation crypto (withApprovals attestation approvals') registry witnessSeq context = .ok control

/-- All pairs of a builder and a verifier derive one scope. -/
def OneScope (approvals : List Json) : Prop :=
  ∀ builder ∈ approvals, ∀ verifier ∈ approvals, ActsAs "builder" builder → ActsAs "verifier" verifier →
    ∀ other ∈ approvals, ∀ witness ∈ approvals, ActsAs "builder" other → ActsAs "verifier" witness →
      deriveScope builder verifier = deriveScope other witness

theorem scopeRank_derived {builder verifier : Json} {derived : Str} (made : deriveScope builder verifier = .ok derived) :
    ∃ rank, scopeRank (.str derived) = .ok rank := by
  simp only [deriveScope, bind, Py.bind_ok] at made
  obtain ⟨_, _, _, _, made⟩ := made
  split at made
  · exact ⟨0, Except.ok.inj made ▸ by decide⟩
  · simp only [Py.bind_ok] at made
    obtain ⟨_, _, _, _, made⟩ := made
    split at made
    · exact ⟨1, Except.ok.inj made ▸ by decide⟩
    · exact ⟨2, Except.ok.inj made ▸ by decide⟩

theorem actsAs_of_subscript {role : Str} {approval : Json} (acts : subscript approval "role" = .ok (.str role)) :
    ActsAs role approval := by
  cases approval with
  | obj fields =>
    simp only [subscript] at acts
    cases read : Dict.get? fields "role" with
    | none =>
      rw [read] at acts
      cases acts
    | some value =>
      rw [read] at acts
      rw [ActsAs, dotGet, read]
      exact acts
  | _ => cases acts

theorem named_of_approves {approvals : List Json}
    (approves : ∀ signed ∈ approvals, ∃ role key pub, Approves crypto registry witnessSeq want role signed key pub) :
    Named approvals := by
  intro signed inside
  obtain ⟨role, key, pub, accepted⟩ := approves signed inside
  refine ⟨?_, role, accepted.known, actsAs_of_subscript accepted.acts⟩
  have acts := accepted.acts
  cases signed with
  | obj fields =>
    cases fields with
    | nil => cases acts
    | cons entry rest => rfl
  | _ => cases acts

theorem exists_perm_last {approvals : List Json} {builder verifier : Json} (builds : builder ∈ approvals)
    (verifies : verifier ∈ approvals) (acts : ActsAs "builder" builder) (checks : ActsAs "verifier" verifier) :
    ∃ approvals', approvals.Perm approvals' ∧ (approvals'.filter (ActsAs "builder")).getLast? = some builder ∧
      (approvals'.filter (ActsAs "verifier")).getLast? = some verifier := by
  have apart : ¬ActsAs "builder" verifier := fun both => absurd (checks.symm.trans both) (by decide)
  have apart' : ¬ActsAs "verifier" builder := fun both => absurd (acts.symm.trans both) (by decide)
  have differ : verifier ≠ builder := fun same => apart (same ▸ acts)
  have behind : approvals.Perm (builder :: verifier :: (approvals.erase builder).erase verifier) :=
    (List.perm_cons_erase builds).trans ((List.perm_cons_erase ((List.mem_erase_of_ne differ).mpr verifies)).cons builder)
  refine ⟨(approvals.erase builder).erase verifier ++ [builder, verifier], behind.trans ?_, ?_, ?_⟩
  · change ([builder, verifier] ++ (approvals.erase builder).erase verifier).Perm _
    exact List.perm_append_comm
  · simp [List.filter_append, acts, apart]
  · simp [List.filter_append, checks, apart']

structure Scoped (crypto : Crypto) (attestation statement : Json) (want : Str) (approvals : List Json) : Prop where
  attested : attestedStatement crypto attestation = .ok (statement, want)
  named : Named approvals
  checked : checkScope statement approvals = .ok ()
  present : ∀ role ∈ approvalRoles, ∃ approval, (approvals.filter (ActsAs role)).getLast? = some approval

theorem scoped_of_verifies {attestation : Json} {context : ReleaseContext} {control : Control} {approvals : List Json}
    (verified : verifyAttestation crypto attestation registry witnessSeq context = .ok control)
    (listed : approvalsOf attestation = .ok approvals) :
    ∃ statement want, Scoped crypto attestation statement want approvals := by
  obtain ⟨statement, want, given, seen, recorded, binding, attested, listed', counted, roles, _, _, _, _, external⟩ :=
    verifyAttestation_ok.mp verified
  obtain rfl := Except.ok.inj (listed.symm.trans listed')
  have all := countApprovals_ok counted
  obtain ⟨_, _, _, _, _, _, _, _, _, scope⟩ := checkExternal_ok.mp external
  refine ⟨statement, want, attested, named_of_approves all.approves, scope, ?_⟩
  intro role known
  rcases all.roles _ (checkRolesPresent_ok roles known) with old | ⟨signed, inside, acts⟩
  · cases old
  · have among : signed ∈ approvals.filter (ActsAs role) :=
      List.mem_filter.mpr ⟨inside, decide_eq_true (actsAs_of_subscript acts)⟩
    exact ⟨_, List.getLast?_eq_some_getLast (List.ne_nil_of_mem among)⟩

theorem attestedStatement_ok {attestation statement : Json} (attested : attestedStatement crypto attestation = .ok (statement, want)) :
    dotGet attestation "statement" = .ok statement := by
  cases attestation with
  | obj fields =>
    simp only [attestedStatement, bind, Py.bind_ok, Py.unless_ok] at attested
    obtain ⟨_, _, _, given, read, valid, validated, _, _, _, _, _, same⟩ := attested
    obtain ⟨rfl, _⟩ := Prod.mk.inj (Except.ok.inj same)
    rw [(validateStatement_ok validated).1]
    exact read
  | _ => cases attested

theorem last_acts {role : Str} {approval : Json} {approvals : List Json}
    (last : (approvals.filter (ActsAs role)).getLast? = some approval) : approval ∈ approvals ∧ ActsAs role approval := by
  obtain ⟨inside, acts⟩ := List.mem_filter.mp (List.mem_of_getLast? last)
  exact ⟨inside, of_decide_eq_true acts⟩

/-- The scope of an accepted attestation is that of all its pairs, whatever their order, exactly when
the pairs derive one scope. -/
theorem scope_law_iff {attestation : Json} {context : ReleaseContext} {control : Control} {approvals : List Json}
    (verified : verifyAttestation crypto attestation registry witnessSeq context = .ok control)
    (listed : approvalsOf attestation = .ok approvals) :
    ScopeLaw crypto attestation registry witnessSeq context approvals ↔ OneScope approvals := by
  obtain ⟨statement, want, judged⟩ := scoped_of_verifies verified listed
  have shape : ∃ fields, attestation = .obj fields := by
    cases attestation with
    | obj fields => exact ⟨fields, rfl⟩
    | _ => cases judged.attested
  obtain ⟨fields, shape⟩ := shape
  constructor
  · intro law
    -- With the pair last, acceptance compares its scope with the record.
    have recorded {builder verifier : Json} (builds : builder ∈ approvals) (verifies : verifier ∈ approvals)
        (acts : ActsAs "builder" builder) (checks : ActsAs "verifier" verifier) :
        ∃ derived, deriveScope builder verifier = .ok derived ∧
          subscript statement "reproducibility_scope" = .ok (.str derived) := by
      obtain ⟨approvals', perm, lastBuilder, lastVerifier⟩ := exists_perm_last builds verifies acts checks
      obtain ⟨control', accepted⟩ := law.reordered approvals' perm
      obtain ⟨statement', want', judged'⟩ := scoped_of_verifies accepted (approvalsOf_withApprovals shape approvals')
      have attested := judged'.attested
      rw [attestedStatement_withApprovals, judged.attested] at attested
      obtain ⟨rfl, rfl⟩ := Prod.mk.inj (Except.ok.inj attested)
      exact (checkScope_ok judged'.named lastBuilder lastVerifier).mp judged'.checked
    intro builder builds verifier verifies acts checks other builds' witness verifies' acts' checks'
    obtain ⟨derived, made, read⟩ := recorded builds verifies acts checks
    obtain ⟨derived', made', read'⟩ := recorded builds' verifies' acts' checks'
    rw [made, made', Json.str.inj (Except.ok.inj (read.symm.trans read'))]
  · intro one
    obtain ⟨builder, lastBuilder⟩ := judged.present "builder" (by decide)
    obtain ⟨verifier, lastVerifier⟩ := judged.present "verifier" (by decide)
    obtain ⟨derived, made, read⟩ := (checkScope_ok judged.named lastBuilder lastVerifier).mp judged.checked
    obtain ⟨builds, acts⟩ := last_acts lastBuilder
    obtain ⟨verifies, checks⟩ := last_acts lastVerifier
    obtain ⟨rank, ranked⟩ := scopeRank_derived made
    constructor
    · refine ⟨statement, _, attestedStatement_ok judged.attested, read, ?_⟩
      intro other builds' witness verifies' acts' checks'
      have same := one builder builds verifier verifies acts checks other builds' witness verifies' acts' checks'
      exact ⟨derived, rank, rank, same ▸ made, ranked, ranked, le_refl rank⟩
    · intro approvals' perm
      have last (role : Str) (known : role ∈ approvalRoles) :
          ∃ approval, (approvals'.filter (ActsAs role)).getLast? = some approval := by
        obtain ⟨approval, final⟩ := judged.present role known
        have among := (perm.filter (ActsAs role)).mem_iff.mp (List.mem_of_getLast? final)
        exact ⟨_, List.getLast?_eq_some_getLast (List.ne_nil_of_mem among)⟩
      obtain ⟨builder', lastBuilder'⟩ := last "builder" (by decide)
      obtain ⟨verifier', lastVerifier'⟩ := last "verifier" (by decide)
      obtain ⟨builds', acts'⟩ := last_acts lastBuilder'
      obtain ⟨verifies', checks'⟩ := last_acts lastVerifier'
      have same := one builder builds verifier verifies acts checks builder' (perm.mem_iff.mpr builds') verifier'
        (perm.mem_iff.mpr verifies') acts' checks'
      have scope := (checkScope_ok (judged.named.perm perm) lastBuilder' lastVerifier').mpr ⟨derived, same ▸ made, read⟩
      exact ⟨control, verifyAttestation_perm verified judged.attested listed perm scope⟩

theorem scope_law_iff_sample :
    ScopeLaw Crypto.sample sampleAttestation sampleRegistry 2 sampleContext sampleApprovals ↔ OneScope sampleApprovals :=
  scope_law_iff sample_verifies (by decide +kernel)

def wideStatementHash : Str := "6a1f09955c7b1ea898f12bc8b37b4406aa74fb5fdb18d548dc186cd594eb56c6"

def wideEvidenceHash : Str := "e4af1c9daa9077dc651749da723c49e343463576402d9ccd54e0a91980938e8d"

def wideBuilderHex : Str := "b1b1b1b1b1b1b1b1b1b1b1b1b1b1b1b1b1b1b1b1b1b1b1b1b1b1b1b1b1b1b1b1"

def wideSecondHex : Str := "b2b2b2b2b2b2b2b2b2b2b2b2b2b2b2b2b2b2b2b2b2b2b2b2b2b2b2b2b2b2b2b2"

def wideVerifierHex : Str := "c3c3c3c3c3c3c3c3c3c3c3c3c3c3c3c3c3c3c3c3c3c3c3c3c3c3c3c3c3c3c3c3"

def wideControl : Json :=
  .obj [("signature_threshold", .int 3), ("distinct_keys", .int 3), ("distinct_devices", .int 3),
    ("distinct_principals", .int 1), ("device_binding", .str "asserted")]

def wideStatement : Json :=
  .obj (([("schema", .str schemaReleaseStatement), ("version", .str "1"),
    ("toolset_manifest_hash", .str sampleManifestHash), ("sbom_hash", .str sampleDigest),
    ("acceptance_hash", .str "a985a618b0938170dbbe62d94a07c2c4d502483b10627adb089b603fc02414f2"),
    ("build_environment", sampleEnvironment), ("reproducibility_scope", .str "cross-host-class"),
    ("control", wideControl)] : Dict Str Json) ++ sampleOutputs)

def wideActor (keyId run hostClass device signature : Str) : Dict Str Json :=
  [("statement_hash", .str wideStatementHash), ("key_id", .str keyId), ("principal_id", .str "p"),
    ("build_run_id", .str run), ("host_class", .str hostClass), ("device_id", .str device), ("signature", .str signature)]

def wideEvidence : Json :=
  .obj (([("schema", .str schemaRebuildEvidence), ("build_environment", sampleEnvironment)] : Dict Str Json) ++
    wideActor "kv" "r2" "h" "d2" (wideVerifierHex ++ "164e250dbc094ca00578d797bebc0a5132dd4774564ecdffb35d9ac2f875c7db") ++
    sampleOutputs)

def wideEvidenceRaw : Bytes := (encodeUtf8 wideEvidence.dumps).getD []

/-- The builder on a host of the verifier's class. -/
def wideBuilds : Json :=
  .obj (([("schema", .str schemaReleaseApproval), ("role", .str "builder")] : Dict Str Json) ++
    wideActor "kb" "r1" "h" "d1" (wideBuilderHex ++ "ac477a1848d9c020d795259e20521c6d49ef7d257b970c69169c3c5e99eaa640"))

/-- The builder on a host of another class. -/
def wideBuildsAgain : Json :=
  .obj (([("schema", .str schemaReleaseApproval), ("role", .str "builder")] : Dict Str Json) ++
    wideActor "kc" "r3" "g" "d3" (wideSecondHex ++ "b0534829c7bef0c15189641a54bf2d615e9e16d7c0c87ff2f44304f0a1ad9761"))

def wideVerifies : Json :=
  .obj (([("schema", .str schemaReleaseApproval), ("role", .str "verifier"),
    ("verification_evidence_hash", .str wideEvidenceHash)] : Dict Str Json) ++
    wideActor "kv" "r2" "h" "d2" (wideVerifierHex ++ "3ac5b09c10e950485c2c8c1ac881a6050e7349111bfc40f20d04e9d12c289b35"))

def wideApprovals : List Json := [wideBuilds, wideBuildsAgain, wideVerifies]

def wideAttestation : Json :=
  .obj [("schema", .str schemaReleaseAttestation), ("statement", wideStatement),
    ("statement_hash", .str wideStatementHash), ("approvals", .arr wideApprovals)]

def wideKey (id publicHex device role : Str) : Json × RegisteredKey :=
  (.str id, ⟨.str id, .str publicHex, .str device, .str "p", [.str role], 0, .null, .null⟩)

def wideRegistry : Registry :=
  [wideKey "kb" wideBuilderHex "d1" "builder", wideKey "kc" wideSecondHex "d3" "builder",
    wideKey "kv" wideVerifierHex "d2" "verifier"]

def wideContext : ReleaseContext := { sampleContext with evidenceReader := some (fun _ => return wideEvidenceRaw) }

def wideSeen : Seen where
  keys := [.str "kb", .str "kc", .str "kv"]
  devices := [.str "d1", .str "d3", .str "d2"]
  principals := [.str "p"]
  roles := [.str "builder", .str "verifier"]

def wideCounted : Control := ⟨3, 3, 3, 1, .str "asserted"⟩

set_option maxRecDepth 4000 in
private theorem wide_parts :
    (attestedStatement Crypto.sample wideAttestation = .ok (wideStatement, wideStatementHash) ∧
      approvalsOf wideAttestation = .ok wideApprovals ∧
      countApprovals Crypto.sample wideRegistry 2 wideStatementHash {} wideApprovals = .ok wideSeen) ∧
    (checkRolesPresent wideSeen.roles approvalRoles = .ok () ∧ checkControl wideControl wideCounted = .ok () ∧
      subscript wideStatement "control" = .ok wideControl ∧
      subscript wideControl "device_binding" = .ok (.str "asserted")) ∧
    (checkNames wideStatement wideContext = .ok () ∧ checkAcceptance Crypto.sample wideStatement sampleRun = .ok () ∧
      checkEnvironment wideStatement sampleEnvironment = .ok ()) ∧
    (subscript wideStatement "artefacts" = .ok (.arr [sampleArtefact]) ∧
      checkArtefactBytes Crypto.sample wideContext sampleArtefact = .ok () ∧
      H_hex Crypto.sample (ascii "jj") = sampleDigest ∧ H_hex Crypto.sample sampleManifestRaw = sampleManifestHash) ∧
    (subscript wideStatement "bundle_hash" = .ok (.str sampleDigest) ∧
      subscript wideStatement "recipe_hash" = .ok (.str sampleDigest) ∧
      subscript wideStatement "sbom_hash" = .ok (.str sampleDigest) ∧
      subscript wideStatement "toolset_manifest_hash" = .ok (.str sampleManifestHash)) ∧
    (wideEvidence.valid ∧ encodable wideEvidence.dumps ∧ wideEvidenceRaw ≠ [] ∧
      H_hex Crypto.sample wideEvidenceRaw = wideEvidenceHash) ∧
    (dotGet wideBuilds "verification_evidence_hash" = .ok .null ∧
      dotGet wideBuildsAgain "verification_evidence_hash" = .ok .null ∧
      dotGet wideVerifies "verification_evidence_hash" = .ok (.str wideEvidenceHash) ∧
      subscript wideVerifies "key_id" = .ok (.str "kv")) ∧
    checkOneEvidence Crypto.sample wideStatement wideEvidence.sortKeys wideVerifies wideApprovals wideRegistry = .ok () ∧
    checkScope wideStatement wideApprovals = .ok () := by
  decide +kernel

private theorem wide_rebuilt : checkRebuildEvidence Crypto.sample wideStatement wideContext wideApprovals wideRegistry
    wideApprovals = .ok () := by
  obtain ⟨_, _, _, _, _, ⟨valid, plain, present, hashed⟩, ⟨first, second, named, keyId⟩, checked, _⟩ := wide_parts
  rw [checkRebuildEvidence_ok]
  intro approval inside
  simp only [wideApprovals, List.mem_cons, List.not_mem_nil, or_false] at inside
  rcases inside with rfl | rfl | rfl
  · exact ⟨.null, first, fun absurd => by cases absurd⟩
  · exact ⟨.null, second, fun absurd => by cases absurd⟩
  · exact ⟨_, named, fun _ => ⟨_, _, keyId, readEvidence_dumps rfl valid plain rfl present hashed _, checked⟩⟩

theorem wide_verifies :
    verifyAttestation Crypto.sample wideAttestation wideRegistry 2 wideContext = .ok wideCounted := by
  obtain ⟨⟨attested, listed, counted⟩, ⟨roles, control, controlRead, binding⟩, ⟨names, run, environment⟩,
    ⟨artefacts, artefact, digest, shipped⟩, ⟨bundle, recipe, sbom, manifest⟩, _, _, _, scope⟩ := wide_parts
  have bytes (what : Str) : checkBytes Crypto.sample (some (.ok (ascii "jj"))) (.str sampleDigest) what = .ok () :=
    checkBytes_ok digest
  refine verifyAttestation_ok.mpr ⟨_, _, _, _, _, _, attested, listed, counted, roles, controlRead, binding, rfl, control, ?_⟩
  have each : [sampleArtefact].forM (checkArtefactBytes Crypto.sample wideContext) = .ok () := by
    rw [List.forM_eq_forM, List.forM_cons, artefact]
    rfl
  exact checkExternal_ok.mpr ⟨names, run, environment, ⟨_, _, artefacts, rfl, each⟩, ⟨_, bundle, bytes _⟩,
    ⟨_, recipe, bytes _⟩, ⟨_, sbom, bytes _⟩, ⟨_, manifest, checkBytes_ok shipped⟩, wide_rebuilt, scope⟩

/-- The record claims the wider class of the last builder, beyond what the first one's pair derives. -/
theorem wide_scope_exceeds :
    verifyAttestation Crypto.sample wideAttestation wideRegistry 2 wideContext = .ok wideCounted ∧
      approvalsOf wideAttestation = .ok wideApprovals ∧
      ¬ScopeLaw Crypto.sample wideAttestation wideRegistry 2 wideContext wideApprovals := by
  refine ⟨wide_verifies, wide_parts.1.2.1, ?_⟩
  intro law
  obtain ⟨statement, recorded, stated, scope, within⟩ := law.within
  obtain rfl : wideStatement = statement := Except.ok.inj stated
  obtain rfl : Json.str "cross-host-class" = recorded := Except.ok.inj scope
  obtain ⟨derived, rank, highest, made, ranked, top, below⟩ :=
    within wideBuilds (by simp [wideApprovals]) wideVerifies (by simp [wideApprovals]) rfl rfl
  have narrow : deriveScope wideBuilds wideVerifies = .ok "same-host-class" := by decide +kernel
  obtain rfl := Except.ok.inj (narrow.symm.trans made)
  have two : scopeRank (.str "cross-host-class") = .ok 2 := by decide
  have one : scopeRank (.str "same-host-class") = .ok 1 := by decide
  obtain rfl := Except.ok.inj (two.symm.trans ranked)
  obtain rfl := Except.ok.inj (one.symm.trans top)
  exact absurd below (by decide)

end JJDai.Release
