import JJDai.Release.Attestation

/-! What a verification reads of the registry, and that it stays when the registry grows. -/

namespace JJDai.Release

open PyText Canonical Provenance Replication

/-- An entry as it may stand later: the same, or with a revocation where there was none. -/
structure Renews (key later : RegisteredKey) : Prop where
  same : later = { key with revoked := later.revoked, reason := later.reason }
  kept : key.revoked ≠ .null → later = key

theorem Renews.refl (key : RegisteredKey) : Renews key key := ⟨rfl, fun _ => rfl⟩

theorem Renews.trans {key later last : RegisteredKey} (first : Renews key later) (second : Renews later last) :
    Renews key last := by
  constructor
  · have shape := second.same
    rw [first.same] at shape
    exact shape
  · intro revoked
    obtain rfl := first.kept revoked
    exact second.kept revoked

/-- A registry with new keys, and revocations of the old ones. -/
def Extends (registry later : Registry) : Prop :=
  ∀ id key, registry.find id = .ok (some key) → ∃ renewed, later.find id = .ok (some renewed) ∧ Renews key renewed

theorem Extends.refl (registry : Registry) : Extends registry registry :=
  fun _ key found => ⟨key, found, Renews.refl key⟩

theorem Extends.trans {registry later last : Registry} (first : Extends registry later) (second : Extends later last) :
    Extends registry last := by
  intro id key found
  obtain ⟨renewed, found', renews⟩ := first id key found
  obtain ⟨again, found'', renews'⟩ := second id renewed found'
  exact ⟨again, found'', renews.trans renews'⟩

/-- The keys that act at a position act there in the later registry as well. -/
def StillActive (registry later : Registry) (witnessSeq : Int) : Prop :=
  ∀ id key, registry.find id = .ok (some key) → ActiveAt key witnessSeq →
    ∃ renewed, later.find id = .ok (some renewed) ∧ Renews key renewed ∧ ActiveAt renewed witnessSeq

variable {crypto : Crypto} {registry later : Registry} {witnessSeq : Int} {want : Str}

theorem registeredKey_find {approval : Json} {key : RegisteredKey} :
    registeredKey registry approval = .ok key ↔
      ∃ id, subscript approval "key_id" = .ok id ∧ registry.find id = .ok (some key) := by
  simp only [registeredKey, bind, Py.bind_ok]
  constructor
  · rintro ⟨id, read, found, looked, made⟩
    cases found with
    | none => cases made
    | some other =>
      obtain rfl := Except.ok.inj made
      exact ⟨id, read, looked⟩
  · rintro ⟨id, read, looked⟩
    exact ⟨id, read, some key, looked, rfl⟩

theorem checkApproval_renewed (still : StillActive registry later witnessSeq) {signed : Json} {key : RegisteredKey}
    (passed : checkApproval crypto registry witnessSeq want signed = .ok key) :
    ∃ renewed, checkApproval crypto later witnessSeq want signed = .ok renewed ∧ Renews key renewed := by
  obtain ⟨approval, valid, statement, registered, active, permitted, owned, signature⟩ := checkApproval_parts.mp passed
  obtain ⟨id, read, found⟩ := registeredKey_find.mp registered
  obtain ⟨renewed, found', renews, active'⟩ := still id key found (keyValidAt_ok.mp active)
  refine ⟨renewed, checkApproval_parts.mpr ⟨approval, valid, statement, registeredKey_find.mpr ⟨id, read, found'⟩,
    keyValidAt_ok.mpr active', ?_, ?_, ?_⟩, renews⟩
  · rw [renews.same]
    exact permitted
  · rw [renews.same]
    exact owned
  · rw [renews.same]
    exact signature

theorem Renews.add {key renewed : RegisteredKey} (renews : Renews key renewed) (seen : Seen) (role : Json) :
    seen.add renewed role = seen.add key role := by
  rw [renews.same]
  rfl

theorem countApprovals_renewed (still : StillActive registry later witnessSeq) {approvals : List Json}
    {seen final : Seen} (counted : countApprovals crypto registry witnessSeq want seen approvals = .ok final) :
    countApprovals crypto later witnessSeq want seen approvals = .ok final := by
  induction approvals generalizing seen with
  | nil => exact counted
  | cons signed rest ih =>
    simp only [countApprovals, bind, Py.bind_ok] at counted ⊢
    obtain ⟨key, checked, role, acts, next, added, counted⟩ := counted
    obtain ⟨renewed, checked', renews⟩ := checkApproval_renewed still checked
    exact ⟨renewed, checked', role, acts, next, (renews.add seen role).trans added, ih counted⟩

theorem findAny_renewed (extends_ : Extends registry later) {id : Json} {key : RegisteredKey}
    (found : registry.findAny id = .ok (some key)) :
    ∃ renewed, later.findAny id = .ok (some renewed) ∧ Renews key renewed := by
  have looked : registry.find id = .ok (some key) := by
    unfold Registry.findAny at found
    split at found
    · cases found
    · exact found
  obtain ⟨renewed, found', renews⟩ := extends_ id key looked
  refine ⟨renewed, ?_, renews⟩
  unfold Registry.findAny
  split
  · rename_i empty
    obtain ⟨_, member, _⟩ := pyLookup_some found'
    rw [empty] at member
    cases member
  · exact found'

theorem checkEvidenceSignature_renewed (extends_ : Extends registry later) {evidence : Json}
    (passed : checkEvidenceSignature crypto evidence registry = .ok ()) :
    checkEvidenceSignature crypto evidence later = .ok () := by
  simp only [checkEvidenceSignature, bind, Py.bind_ok] at passed ⊢
  obtain ⟨keyId, read, found, looked, passed⟩ := passed
  cases found with
  | none => cases passed
  | some key =>
    obtain ⟨renewed, looked', renews⟩ := findAny_renewed extends_ looked
    refine ⟨keyId, read, some renewed, looked', ?_⟩
    rw [renews.same]
    exact passed

theorem checkOneEvidence_renewed (extends_ : Extends registry later) {statement evidence approval : Json}
    {approvals : List Json} (passed : checkOneEvidence crypto statement evidence approval approvals registry = .ok ()) :
    checkOneEvidence crypto statement evidence approval approvals later = .ok () := by
  simp only [checkOneEvidence, bind, Py.bind_ok] at passed ⊢
  obtain ⟨_, names, _, whose, _, signature, rest⟩ := passed
  exact ⟨(), names, (), whose, (), checkEvidenceSignature_renewed extends_ signature, rest⟩

variable {statement : Json} {context : ReleaseContext}

theorem checkRebuildEvidence_renewed (extends_ : Extends registry later) {approvals rest : List Json}
    (passed : checkRebuildEvidence crypto statement context approvals registry rest = .ok ()) :
    checkRebuildEvidence crypto statement context approvals later rest = .ok () := by
  induction rest with
  | nil => exact passed
  | cons approval rest ih =>
    have whole := passed
    simp only [checkRebuildEvidence, bind, Py.bind_ok] at passed
    obtain ⟨digest, named, passed⟩ := passed
    cases present : truthy digest with
    | false =>
      rw [checkRebuildEvidence_silent named present] at whole ⊢
      exact ih whole
    | true =>
      simp only [present, if_true, Py.bind_ok] at passed
      obtain ⟨keyId, key, evidence, read, _, checked, passed⟩ := passed
      rw [checkRebuildEvidence_named named present key read (checkOneEvidence_renewed extends_ checked)]
      exact ih passed

theorem checkExternal_renewed (extends_ : Extends registry later) {approvals : List Json}
    (passed : checkExternal crypto statement context approvals registry = .ok ()) :
    checkExternal crypto statement context approvals later = .ok () := by
  obtain ⟨names, run, environment, artefacts, bundle, recipe, sbom, manifest, rebuilt, scope⟩ := checkExternal_ok.mp passed
  exact checkExternal_ok.mpr ⟨names, run, environment, artefacts, bundle, recipe, sbom, manifest,
    checkRebuildEvidence_renewed extends_ rebuilt, scope⟩

theorem verifyAttestation_renewed (extends_ : Extends registry later) (still : StillActive registry later witnessSeq)
    {attestation : Json} {control : Control}
    (verified : verifyAttestation crypto attestation registry witnessSeq context = .ok control) :
    verifyAttestation crypto attestation later witnessSeq context = .ok control := by
  obtain ⟨statement, want, approvals, seen, recorded, binding, attested, listed, counted, roles, read, bound, made,
    checked, external⟩ := verifyAttestation_ok.mp verified
  exact verifyAttestation_ok.mpr ⟨statement, want, approvals, seen, recorded, binding, attested, listed,
    countApprovals_renewed still counted, roles, read, bound, made, checked, checkExternal_renewed extends_ external⟩

end JJDai.Release
