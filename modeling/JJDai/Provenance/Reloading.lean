import JJDai.Lib.Admission
import JJDai.Provenance.ManifestRegistry

/-! Reloading a journal beside registering its envelopes one by one. -/

namespace JJDai.Reloading

open PyText Canonical Durable Replication Provenance Manifests

/-- A key of a table; keys that are equal in a dict have one code. -/
def code {τ : Type} (place : τ × Json) : τ × Json := (place.1, place.2.comparisonKey)

theorem code_eq {τ : Type} {which other : τ} {key same : Json} :
    code (which, key) = code (other, same) ↔ which = other ∧ Json.comparisonKey key = Json.comparisonKey same :=
  Prod.mk.injEq _ _ _ _ ▸ Iff.rfl

/-- Opening succeeds exactly when registering does, and then both hold one value for every id. -/
def Reloads {σ τ : Type} (heldBy : σ → τ × Json → Option Json) (opened registered : Py σ) : Prop :=
  (opened.isOk ↔ registered.isOk) ∧ ∀ reloaded live, opened = .ok reloaded → registered = .ok live →
    ∀ place, (heldBy reloaded place).map Json.comparisonKey = (heldBy live place).map Json.comparisonKey

theorem reloads_iff {σ τ : Type} {heldBy : σ → τ × Json → Option Json} {opened registered : Py σ} :
    Reloads heldBy opened registered ↔
      Admission.Agree Json.comparisonKey (opened.toOption.map heldBy) (registered.toOption.map heldBy) := by
  unfold Reloads Admission.Agree
  cases opened <;> cases registered <;> simp [Except.isOk, Except.toBool, Except.toOption]

def journaled (env : Json) : Json := .obj [("kind", .str "MANIFEST"), ("env", env)]

section
variable (crypto : Crypto)

/-- What reload and registration both ask of an envelope; the answer is its table, its id and itself. -/
def admission (allowed : Option (List Str)) (env : Json) : Py ((Table × Json) × Json) := do
  let (ok, reason) ← Manifests.verifyManifest crypto env
  if !ok then raise .manifestError reason
  let b ← subscript env "body"
  let publisher ← subscript b "publisher_node"
  if !({ allowed } : ManifestRegistry).admits publisher then raise .manifestError "publisher not in admission list"
  let place ← ManifestRegistry.placeOf b
  if !hashable place.2 then raise .typeError
  return (place, env)

def admitted (allowedPublishers : List Str) (env : Json) : Option ((Table × Json) × Json) :=
  (admission crypto (ManifestRegistry.create allowedPublishers).allowed env).toOption

/-- `manifest_digest(held) == manifest_digest(env)`. -/
def sameDigest (held env : Json) : Bool :=
  match manifestDigest crypto held, manifestDigest crypto env with
  | .ok a, .ok b => a = b
  | _, _ => false

/-- An id is immutable: a later envelope has the digest of the first. -/
def immutable : Admission.Rule (Table × Json) Json := ⟨fun _ => false, sameDigest crypto⟩

def registerAll (allowedPublishers : List Str) (envs : List Json) : Py ManifestRegistry :=
  envs.foldlM (fun registry env => (registry.register crypto env).map Prod.fst)
    (ManifestRegistry.create allowedPublishers)

def heldBy (registry : ManifestRegistry) (place : Table × Json) : Option Json :=
  Grouping.lookup Json.comparisonKey place.2 (registry.table place.1)

end

/-- An envelope that passes, with its place. -/
structure Admits (crypto : Crypto) (allowed : Option (List Str)) (env : Json) (place : Table × Json) : Prop where
  verified : ∃ reason, Manifests.verifyManifest crypto env = .ok (true, reason)
  body : ∃ b publisher, subscript env "body" = .ok b ∧ subscript b "publisher_node" = .ok publisher ∧
    ({ allowed } : ManifestRegistry).admits publisher = true ∧ ManifestRegistry.placeOf b = .ok place
  hashed : hashable place.2 = true

variable {crypto : Crypto} {allowed : Option (List Str)} {env : Json} {registry : ManifestRegistry}

theorem admission_ok {entry : (Table × Json) × Json} :
    admission crypto allowed env = .ok entry ↔ Admits crypto allowed env entry.1 ∧ entry.2 = env := by
  simp only [admission, bind, Py.bind_ok, Py.unless_ok, pure, Except.pure, Except.ok.injEq, Bool.not_eq_true',
    Bool.not_eq_false]
  constructor
  · rintro ⟨⟨ok, reason⟩, verified, passed, b, body, publisher, named, admits, place, placed, hashed, rfl⟩
    obtain rfl : ok = true := passed
    exact ⟨⟨⟨reason, verified⟩, ⟨b, publisher, body, named, admits, placed⟩, hashed⟩, rfl⟩
  · rintro ⟨⟨⟨reason, verified⟩, ⟨b, publisher, body, named, admits, placed⟩, hashed⟩, same⟩
    exact ⟨_, verified, rfl, b, body, publisher, named, admits, _, placed, hashed, Prod.ext rfl same.symm⟩

theorem publisher_of_verified {reason : Str} (verified : Manifests.verifyManifest crypto env = .ok (true, reason))
    {b : Json} (body : subscript env "body" = .ok b) : ∃ node, subscript b "publisher_node" = .ok (.str node) := by
  unfold Manifests.verifyManifest at verified
  cases read : readEnvelope env with
  | error e =>
    rw [read] at verified
    dsimp only at verified
    split at verified <;> cases verified
  | ok parts =>
    obtain ⟨body', pub, sig⟩ := parts
    obtain rfl := Except.ok.inj (body.symm.trans (subscript_of_readEnvelope read))
    have named {domain : Bytes} (checked : checkPublisher crypto domain b pub sig = .ok (true, reason)) :
        ∃ node, subscript b "publisher_node" = .ok (.str node) := by
      simp only [checkPublisher, bind, Py.bind_ok, guard_ok] at checked
      obtain ⟨node, found, same, _⟩ := checked
      obtain rfl := not_not.mp same
      exact ⟨_, subscript_of_dotGet found (by simp)⟩
    rw [read] at verified
    obtain ⟨kind, _, verified⟩ := Py.bind_ok.mp verified
    by_cases substrate : kind = .str "SUBSTRATE_MANIFEST"
    · rw [if_pos substrate] at verified
      simp only [bind, Py.bind_ok, guard_ok] at verified
      obtain ⟨_, _, _, _, _, _, checked⟩ := verified
      exact named checked
    · rw [if_neg substrate] at verified
      by_cases adapter : kind = .str "ADAPTER_MANIFEST"
      · rw [if_pos adapter] at verified
        exact named verified
      · rw [if_neg adapter] at verified
        cases verified

theorem checkReloaded_ok {b : Json} {node : Str} (named : subscript b "publisher_node" = .ok (.str node)) :
    registry.checkReloaded b = .ok () ↔ registry.admits (.str node) = true := by
  unfold ManifestRegistry.checkReloaded
  by_cases listed : registry.allowed.isNone
  · rw [if_pos listed]
    refine iff_of_true rfl ?_
    rw [ManifestRegistry.admits, Option.isNone_iff_eq_none.mp listed]
    rfl
  · rw [if_neg listed]
    simp only [named, bind, ok_bind, Py.unless_ok, pure, Except.pure, Bool.not_eq_true', Bool.not_eq_false, and_true]

def filed (registry : ManifestRegistry) (place : Table × Json) (env : Json) : ManifestRegistry :=
  registry.withTable place.1 (Grouping.store Json.comparisonKey place.2 env (registry.table place.1))

theorem loadEntry_ok {next : ManifestRegistry} :
    registry.loadEntry crypto (journaled env) = .ok next ↔
      ∃ place, Admits crypto registry.allowed env place ∧ filed registry place env = next := by
  have carried : subscript (journaled env) "env" = .ok env := rfl
  simp only [ManifestRegistry.loadEntry, carried, bind, ok_bind, Py.bind_ok, Py.unless_ok, pyStore_ok, pure, Except.pure,
    Except.ok.injEq, Bool.not_eq_true', Bool.not_eq_false]
  constructor
  · rintro ⟨⟨ok, reason⟩, verified, passed, b, body, ⟨⟩, listed, place, placed, entries, ⟨hashed, rfl⟩, made⟩
    obtain rfl : ok = true := passed
    obtain ⟨node, named⟩ := publisher_of_verified verified body
    exact ⟨place, ⟨⟨reason, verified⟩, ⟨b, _, body, named, (checkReloaded_ok named).mp listed, placed⟩, hashed⟩, made⟩
  · rintro ⟨place, ⟨⟨reason, verified⟩, ⟨b, publisher, body, named, admits, placed⟩, hashed⟩, made⟩
    obtain ⟨node, read⟩ := publisher_of_verified verified body
    obtain rfl := Except.ok.inj (named.symm.trans read)
    exact ⟨_, verified, rfl, b, body, (), (checkReloaded_ok read).mpr admits, place, placed, _, ⟨hashed, rfl⟩, made⟩

theorem table_withTable (which other : Table) (entries : List (Json × Json)) :
    (registry.withTable which entries).table other = if which = other then entries else registry.table other := by
  cases which <;> cases other <;> rfl

theorem heldBy_filed (place : Table × Json) :
    heldBy (filed registry place env) = Admission.write code (heldBy registry) (place, env) := by
  obtain ⟨which, key⟩ := place
  funext other
  obtain ⟨table, id⟩ := other
  unfold heldBy filed Admission.write
  rw [table_withTable]
  by_cases same : which = table
  · subst same
    rw [if_pos rfl, Grouping.lookup_store]
    simp [code]
  · rw [if_neg same, if_neg fun both => same (code_eq.mp both).1]

theorem loadEntry_view (env : Json) :
    (registry.loadEntry crypto (journaled env)).toOption.map heldBy =
      (admission crypto registry.allowed env).toOption.map (Admission.write code (heldBy registry)) := by
  cases admitted : admission crypto registry.allowed env with
  | ok entry =>
    obtain ⟨admits, same⟩ := admission_ok.mp admitted
    rw [loadEntry_ok.mpr ⟨entry.1, admits, rfl⟩]
    exact congrArg some ((heldBy_filed entry.1).trans (congrArg _ (Prod.ext rfl same.symm)))
  | error e =>
    cases loaded : registry.loadEntry crypto (journaled env) with
    | error other => rfl
    | ok next =>
      obtain ⟨place, admits, _⟩ := loadEntry_ok.mp loaded
      have entered : admission crypto registry.allowed env = .ok (place, env) := admission_ok.mpr ⟨admits, rfl⟩
      rw [entered] at admitted
      cases admitted

theorem register_of_admits {place : Table × Json} (admits : Admits crypto registry.allowed env place) :
    ((registry.register crypto env).map Prod.fst).toOption =
      match heldBy registry place with
      | none => some (filed registry place env)
      | some held => if sameDigest crypto held env then some registry else none := by
  obtain ⟨reason, verified⟩ := admits.verified
  obtain ⟨b, publisher, body, named, admitted, placed⟩ := admits.body
  have looked : pyLookup (registry.table place.1) place.2 = .ok (heldBy registry place) :=
    pyLookup_ok.mpr ⟨admits.hashed, rfl⟩
  have stored : pyStore (registry.table place.1) place.2 env =
      .ok (Grouping.store Json.comparisonKey place.2 env (registry.table place.1)) := pyStore_ok.mpr ⟨admits.hashed, rfl⟩
  have listed : registry.admits publisher = true := admitted
  simp only [ManifestRegistry.register, bind, verified, ok_bind, body, named, listed, placed, looked, Bool.not_true,
    Bool.false_eq_true, if_false]
  cases heldBy registry place with
  | none =>
    simp only [stored, ok_bind, pure, Except.pure]
    rfl
  | some held =>
    dsimp only
    unfold sameDigest
    cases before : manifestDigest crypto held with
    | error e => rfl
    | ok digest =>
      cases offered : manifestDigest crypto env with
      | error e => rfl
      | ok other =>
        simp only [ok_bind]
        by_cases same : digest = other
        · rw [if_pos same, if_pos (decide_eq_true same)]
          rfl
        · rw [if_neg same, if_neg (by simpa using same)]
          rfl

theorem admits_of_register {result : ManifestRegistry × Json × Option Json}
    (registered : registry.register crypto env = .ok result) : ∃ place, Admits crypto registry.allowed env place := by
  simp only [ManifestRegistry.register, bind, Py.bind_ok, Py.unless_ok] at registered
  obtain ⟨⟨ok, reason⟩, verified, passed, b, body, publisher, named, registered⟩ := registered
  obtain rfl : ok = true := by simpa using passed
  cases admits : registry.admits publisher with
  | false =>
    rw [admits] at registered
    obtain ⟨_, _, refused⟩ := Py.bind_ok.mp registered
    cases refused
  | true =>
    rw [admits] at registered
    obtain ⟨place, placed, registered⟩ := Py.bind_ok.mp registered
    obtain ⟨found, looked, _⟩ := Py.bind_ok.mp registered
    exact ⟨place, ⟨reason, verified⟩, ⟨b, publisher, body, named, admits, placed⟩, (pyLookup_ok.mp looked).1⟩

theorem register_view (env : Json) :
    ((registry.register crypto env).map Prod.fst).toOption.map heldBy =
      (admission crypto registry.allowed env).toOption.bind
        (Admission.register code (immutable crypto) (heldBy registry)) := by
  cases admitted : admission crypto registry.allowed env with
  | ok entry =>
    obtain ⟨admits, same⟩ := admission_ok.mp admitted
    obtain ⟨place, offered⟩ := entry
    obtain rfl : offered = env := same
    rw [register_of_admits admits]
    change _ = Admission.register code (immutable crypto) (heldBy registry) (place, offered)
    cases present : heldBy registry place with
    | none =>
      rw [Admission.register_free present]
      exact congrArg some (heldBy_filed place)
    | some held =>
      rw [Admission.register_fixed rfl present]
      change Option.map heldBy (if sameDigest crypto held offered = true then some registry else none) =
        if sameDigest crypto held offered = true then some (heldBy registry) else none
      by_cases same : sameDigest crypto held offered = true
      · rw [if_pos same, if_pos same]
        rfl
      · rw [if_neg same, if_neg same]
        rfl
  | error e =>
    cases registered : registry.register crypto env with
    | error other => rfl
    | ok result =>
      obtain ⟨place, admits⟩ := admits_of_register registered
      have entered : admission crypto registry.allowed env = .ok (place, env) := admission_ok.mpr ⟨admits, rfl⟩
      rw [entered] at admitted
      cases admitted

theorem allowed_filed (place : Table × Json) :
    (filed registry place env).allowed = registry.allowed := by
  obtain ⟨which, key⟩ := place
  cases which <;> rfl

theorem register_allowed {next : ManifestRegistry} (registered : (registry.register crypto env).map Prod.fst = .ok next) :
    next.allowed = registry.allowed := by
  cases made : registry.register crypto env with
  | error e =>
    rw [made] at registered
    cases registered
  | ok result =>
    obtain ⟨place, admits⟩ := admits_of_register made
    have outcome := register_of_admits admits
    rw [registered] at outcome
    cases held : heldBy registry place with
    | none =>
      rw [held] at outcome
      rw [Option.some.inj outcome, allowed_filed]
    | some old =>
      rw [held] at outcome
      dsimp only at outcome
      split at outcome
      · rw [Option.some.inj outcome]
      · cases outcome

variable (crypto) in
/-- A journal of manifests is reloaded as it was registered when no id has two contents or two envelopes. -/
theorem registry_reloads_iff (allowedPublishers : List Str) (envs : List Json) :
    Reloads heldBy (ManifestRegistry.load crypto allowedPublishers (envs.map journaled))
        (registerAll crypto allowedPublishers envs) ↔
      ∀ entries, envs.mapM (admitted crypto allowedPublishers) = some entries →
        Admission.Consistent code (immutable crypto) entries ∧
          Admission.Unchanged code (immutable crypto) Json.comparisonKey entries := by
  have empty : heldBy (ManifestRegistry.create allowedPublishers) = fun _ => none := by
    funext place
    obtain ⟨which, key⟩ := place
    cases which <;> rfl
  have loaded : (ManifestRegistry.load crypto allowedPublishers (envs.map journaled)).toOption.map heldBy =
      Admission.reloads code (admitted crypto allowedPublishers) envs := by
    unfold ManifestRegistry.load Admission.reloads
    rw [List.foldlM_map, ← empty]
    refine Admission.simulated heldBy
      (fun registry => registry.allowed = (ManifestRegistry.create allowedPublishers).allowed) ?_ ?_ envs rfl
    · intro registry env fits
      rw [loadEntry_view, fits]
      rfl
    · intro registry env next fits made
      obtain ⟨place, _, rfl⟩ := loadEntry_ok.mp made
      rw [allowed_filed, fits]
  have registered : (registerAll crypto allowedPublishers envs).toOption.map heldBy =
      Admission.registers code (immutable crypto) (admitted crypto allowedPublishers) envs := by
    unfold registerAll Admission.registers
    rw [← empty]
    refine Admission.simulated heldBy
      (fun registry => registry.allowed = (ManifestRegistry.create allowedPublishers).allowed) ?_ ?_ envs rfl
    · intro registry env fits
      rw [register_view, fits]
      rfl
    · intro registry env next fits made
      rw [register_allowed made, fits]
  rw [reloads_iff, loaded, registered, Admission.agree_iff]

section
variable (crypto : Crypto)

/-- What reload and the live calls both ask of a record; the answer is its id. -/
def recordId : RecordKind → Json → Py Json
  | .weight, env => do
    let (ok, why) ← verifyWeightAttestation crypto env none .null
    if !ok then raise .attestationError why
    AttestationStore.idIn env "manifest_id"
  | .deployment, env => do
    let (ok, why) ← verifyDeploymentManifest crypto env none
    if !ok then raise .attestationError why
    AttestationStore.idIn env "node_id"

def recorded (record : RecordKind × Json) : Option ((RecordKind × Json) × Json) :=
  match recordId crypto record.1 record.2 with
  | .ok key => if hashable key then some ((record.1, key), record.2) else none
  | .error _ => none

/-- Both envelopes state an artifact hash, and it is the same. -/
def sameArtifact (held env : Json) : Bool :=
  match AttestationStore.idIn held "artifact_hash", AttestationStore.idIn env "artifact_hash" with
  | .ok a, .ok b => decide (Json.pyEq a b)
  | _, _ => false

/-- A deployment replaces the one before; a weight attestation has to agree with the first. -/
def attested : Admission.Rule (RecordKind × Json) Json := ⟨fun place => place.1 = .deployment, sameArtifact⟩

def holdAll (records : List (RecordKind × Json)) : Py AttestationStore :=
  records.foldlM (fun store record => (store.hold crypto record.1 record.2).map Prod.fst) {}

end

def shelf (store : AttestationStore) : RecordKind → List (Json × Json)
  | .weight => store.weights
  | .deployment => store.deployments

def storedFor (store : AttestationStore) (place : RecordKind × Json) : Option Json :=
  Grouping.lookup Json.comparisonKey place.2 (shelf store place.1)

def stored (store : AttestationStore) (place : RecordKind × Json) (env : Json) : AttestationStore :=
  let entries := Grouping.store Json.comparisonKey place.2 env (shelf store place.1)
  match place.1 with
  | .weight => { store with weights := entries }
  | .deployment => { store with deployments := entries }

variable {store : AttestationStore} {kind : RecordKind}

theorem recorded_iff {record : RecordKind × Json} {entry : (RecordKind × Json) × Json} :
    recorded crypto record = some entry ↔ ∃ key, recordId crypto record.1 record.2 = .ok key ∧ hashable key = true ∧
      ((record.1, key), record.2) = entry := by
  unfold recorded
  cases recordId crypto record.1 record.2 with
  | error e => simp
  | ok key => simp

theorem recorded_loadEntry_ok {next : AttestationStore} :
    store.loadEntry crypto (persisted kind env) = .ok next ↔
      ∃ key, recordId crypto kind env = .ok key ∧ hashable key = true ∧ stored store (kind, key) env = next := by
  have carried : subscript (persisted kind env) "env" = .ok env := rfl
  have named : dotGet (persisted kind env) "kind" = .ok (.str kind.text) := rfl
  unfold AttestationStore.loadEntry
  simp only [named, bind, ok_bind, carried]
  cases kind with
  | weight =>
    rw [if_pos rfl]
    simp only [recordId, bind, Py.bind_ok, Py.unless_ok, pyStore_ok, pure, Except.pure, Except.ok.injEq]
    constructor
    · rintro ⟨answer, verified, passed, key, named, entries, ⟨hashed, rfl⟩, made⟩
      exact ⟨key, ⟨answer, verified, passed, named⟩, hashed, made⟩
    · rintro ⟨key, ⟨answer, verified, passed, named⟩, hashed, made⟩
      exact ⟨answer, verified, passed, key, named, _, ⟨hashed, rfl⟩, made⟩
  | deployment =>
    rw [if_neg (by decide), if_pos rfl]
    simp only [recordId, bind, Py.bind_ok, Py.unless_ok, pyStore_ok, pure, Except.pure, Except.ok.injEq]
    constructor
    · rintro ⟨answer, verified, passed, key, named, entries, ⟨hashed, rfl⟩, made⟩
      exact ⟨key, ⟨answer, verified, passed, named⟩, hashed, made⟩
    · rintro ⟨key, ⟨answer, verified, passed, named⟩, hashed, made⟩
      exact ⟨answer, verified, passed, key, named, _, ⟨hashed, rfl⟩, made⟩

theorem storedFor_stored (place : RecordKind × Json) :
    storedFor (stored store place env) = Admission.write code (storedFor store) (place, env) := by
  obtain ⟨which, key⟩ := place
  funext other
  obtain ⟨table, id⟩ := other
  unfold storedFor Admission.write
  by_cases same : which = table
  · subst same
    have written : shelf (stored store (which, key) env) which =
        Grouping.store Json.comparisonKey key env (shelf store which) := by cases which <;> rfl
    rw [written, Grouping.lookup_store]
    simp [code]
  · have untouched : shelf (stored store (which, key) env) table = shelf store table := by
      cases which <;> cases table <;> first | rfl | exact absurd rfl same
    rw [untouched, if_neg fun both => same (code_eq.mp both).1]

theorem hold_of_recorded {key : Json} (named : recordId crypto kind env = .ok key) (hashed : hashable key = true) :
    ((store.hold crypto kind env).map Prod.fst).toOption.map storedFor =
      Admission.register code attested (storedFor store) ((kind, key), env) := by
  have filed {entries : List (Json × Json)} : pyStore entries key env =
      .ok (Grouping.store Json.comparisonKey key env entries) := pyStore_ok.mpr ⟨hashed, rfl⟩
  cases kind with
  | deployment =>
    rw [Admission.register_replaced rfl, ← storedFor_stored]
    simp only [recordId, bind, Py.bind_ok, Py.unless_ok] at named
    obtain ⟨⟨ok, why⟩, verified, passed, named⟩ := named
    obtain rfl : ok = true := by simpa using passed
    simp only [AttestationStore.hold, AttestationStore.holdDeployment, bind, verified, ok_bind, named, filed,
      Bool.not_true, Bool.false_eq_true, if_false]
    rfl
  | weight =>
    simp only [recordId, bind, Py.bind_ok, Py.unless_ok] at named
    obtain ⟨⟨ok, why⟩, verified, passed, named⟩ := named
    obtain rfl : ok = true := by simpa using passed
    have looked : pyLookup store.weights key = .ok (storedFor store (.weight, key)) := pyLookup_ok.mpr ⟨hashed, rfl⟩
    simp only [AttestationStore.hold, AttestationStore.holdWeight, bind, verified, ok_bind, named, looked,
      Bool.not_true, Bool.false_eq_true, if_false]
    cases present : storedFor store (.weight, key) with
    | none =>
      rw [Admission.register_free present, ← storedFor_stored]
      simp only [filed, ok_bind]
      rfl
    | some held =>
      rw [Admission.register_fixed rfl present]
      change _ = if sameArtifact held env = true then some (storedFor store) else none
      dsimp only
      unfold sameArtifact
      cases before : AttestationStore.idIn held "artifact_hash" with
      | error e => rfl
      | ok hash =>
        cases offered : AttestationStore.idIn env "artifact_hash" with
        | error e => rfl
        | ok other =>
          simp only [ok_bind]
          by_cases same : Json.pyEq hash other
          · rw [if_neg (not_not.mpr same), if_pos (decide_eq_true same)]
            rfl
          · rw [if_pos same, if_neg (by simpa using same)]
            rfl

theorem recorded_of_hold {result : AttestationStore × Json × Option Json}
    (held : store.hold crypto kind env = .ok result) : ∃ key, recordId crypto kind env = .ok key ∧ hashable key = true := by
  cases kind with
  | weight =>
    simp only [AttestationStore.hold, AttestationStore.holdWeight, bind, Py.bind_ok, Py.unless_ok] at held
    obtain ⟨answer, verified, passed, key, named, found, looked, _⟩ := held
    refine ⟨key, ?_, (pyLookup_ok.mp looked).1⟩
    simp only [recordId, bind, Py.bind_ok, Py.unless_ok]
    exact ⟨answer, verified, passed, named⟩
  | deployment =>
    simp only [AttestationStore.hold, AttestationStore.holdDeployment, bind, Py.bind_ok, Py.unless_ok, pyStore_ok] at held
    obtain ⟨answer, verified, passed, key, named, entries, ⟨hashed, _⟩, _⟩ := held
    refine ⟨key, ?_, hashed⟩
    simp only [recordId, bind, Py.bind_ok, Py.unless_ok]
    exact ⟨answer, verified, passed, named⟩

variable (crypto) in
/-- A journal of attestations is reloaded as it was held when no manifest id has two artifact hashes or two
envelopes. -/
theorem store_reloads_iff (records : List (RecordKind × Json)) :
    Reloads storedFor
        (AttestationStore.load crypto (records.map fun record => persisted record.1 record.2)) (holdAll crypto records) ↔
      ∀ entries, records.mapM (recorded crypto) = some entries →
        Admission.Consistent code attested entries ∧ Admission.Unchanged code attested Json.comparisonKey entries := by
  have empty : storedFor {} = fun _ => none := by
    funext place
    obtain ⟨which, key⟩ := place
    cases which <;> rfl
  have loaded : (AttestationStore.load crypto (records.map fun record => persisted record.1 record.2)).toOption.map
      storedFor = Admission.reloads code (recorded crypto) records := by
    unfold AttestationStore.load Admission.reloads
    rw [List.foldlM_map, ← empty]
    refine Admission.simulated storedFor (fun _ => True) ?_ (fun _ _ _ _ _ => trivial) records trivial
    rintro store ⟨kind, env⟩ _
    cases taken : recorded crypto (kind, env) with
    | none =>
      cases made : store.loadEntry crypto (persisted kind env) with
      | error e => rfl
      | ok next =>
        obtain ⟨key, named, hashed, _⟩ := recorded_loadEntry_ok.mp made
        rw [recorded_iff.mpr ⟨key, named, hashed, rfl⟩] at taken
        cases taken
    | some entry =>
      obtain ⟨key, named, hashed, rfl⟩ := recorded_iff.mp taken
      rw [recorded_loadEntry_ok.mpr ⟨_, named, hashed, rfl⟩]
      exact congrArg some (storedFor_stored _)
  have live : (holdAll crypto records).toOption.map storedFor =
      Admission.registers code attested (recorded crypto) records := by
    unfold holdAll Admission.registers
    rw [← empty]
    refine Admission.simulated storedFor (fun _ => True) ?_ (fun _ _ _ _ _ => trivial) records trivial
    rintro store ⟨kind, env⟩ _
    cases taken : recorded crypto (kind, env) with
    | none =>
      cases made : store.hold crypto kind env with
      | error e => rfl
      | ok next =>
        obtain ⟨key, named, hashed⟩ := recorded_of_hold made
        rw [recorded_iff.mpr ⟨key, named, hashed, rfl⟩] at taken
        cases taken
    | some entry =>
      obtain ⟨key, named, hashed, rfl⟩ := recorded_iff.mp taken
      exact hold_of_recorded named hashed
  rw [reloads_iff, loaded, live, Admission.agree_iff]

/-- Opening a journal does what registering its envelopes does, exactly when one of them is not admitted, or the
envelopes of an id agree with the first and end with it; deployments may differ. -/
theorem reload_registers (crypto : Crypto) (allowedPublishers : List Str) (envs : List Json)
    (records : List (RecordKind × Json)) :
    (Reloads heldBy (ManifestRegistry.load crypto allowedPublishers (envs.map journaled))
        (registerAll crypto allowedPublishers envs) ↔
      ∀ entries, envs.mapM (admitted crypto allowedPublishers) = some entries →
        Admission.Consistent code (immutable crypto) entries ∧
          Admission.Unchanged code (immutable crypto) Json.comparisonKey entries) ∧
    (Reloads storedFor (AttestationStore.load crypto (records.map fun record => persisted record.1 record.2))
        (holdAll crypto records) ↔
      ∀ entries, records.mapM (recorded crypto) = some entries →
        Admission.Consistent code attested entries ∧ Admission.Unchanged code attested Json.comparisonKey entries) :=
  ⟨registry_reloads_iff crypto allowedPublishers envs, store_reloads_iff crypto records⟩

/-- An adapter manifest of one id for any task. -/
def adapterFor (task : Str) : Json :=
  (sealEnvelope Crypto.sample (.sample 2) adapterDomain (.obj [("kind", .str "ADAPTER_MANIFEST"),
    ("adapter_id", .str "sha256:a"), ("base_compat_tag", .str "base"), ("task_domain", .str task),
    ("training_data_families", .arr []),
    ("publisher_node", .str (canonicalNodeId Crypto.sample (SigningKey.publicKey Crypto.sample (.sample 2))))])).toOption.getD
      .null

/-- An attestation of one manifest id with any artifact hash. -/
def attestationOf (hash : Str) : Json :=
  (sealEnvelope Crypto.sample (.sample 1) weightsDomain (.obj [("kind", .str "WEIGHT_ATTESTATION"),
    ("manifest_id", .str "base"), ("artifact_hash", .str hash), ("size_bytes", .int 1), ("binding", .str "declared"),
    ("engine_fingerprint", .str "fp"), ("measured_at", .int 0),
    ("attester_node", .str (canonicalNodeId Crypto.sample (SigningKey.publicKey Crypto.sample (.sample 1))))])).toOption.getD
      .null

theorem not_reloads {σ τ : Type} {heldBy : σ → τ × Json → Option Json} {opened registered : Py σ}
    (differ : opened.isOk = true ∧ registered.isOk = false) : ¬Reloads heldBy opened registered := by
  intro reloads
  have registers := reloads.1.mp differ.1
  rw [differ.2] at registers
  cases registers

/-- Two valid envelopes for one id open, and the second is refused when it is registered. -/
theorem reload_admits_conflict :
    ¬Reloads heldBy
        (ManifestRegistry.load Crypto.sample [] ([adapterFor "math", adapterFor "law"].map journaled))
        (registerAll Crypto.sample [] [adapterFor "math", adapterFor "law"]) ∧
      ¬Reloads storedFor
        (AttestationStore.load Crypto.sample [persisted .weight (attestationOf "one"), persisted .weight (attestationOf "two")])
        (holdAll Crypto.sample [(.weight, attestationOf "one"), (.weight, attestationOf "two")]) :=
  ⟨not_reloads (by decide +kernel), not_reloads (by decide +kernel)⟩

end JJDai.Reloading
