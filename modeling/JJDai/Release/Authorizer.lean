import JJDai.Release.Standing

/-! `jjdai.release.toolset_authorizer`: the position at which a release authorized a toolset. -/

namespace JJDai.Release

open PyText Canonical Provenance Replication

/-- What the holder of a chain verifies against. -/
structure Held where
  chain : WitnessChain
  registry : Registry
  context : ReleaseContext
  nodePublic : Bytes := []

/-- The values captured when the callback is made. -/
structure Authorizer where
  snapshot : Json
  expected : Str
  index : Int

variable (crypto : Crypto)

def Held.verify (held : Held) (publication : Json) : Py Control :=
  verifyPublication crypto publication held.chain held.registry held.context held.nodePublic

def toolsetAuthorizer (publication : Json) (held : Held) : Py Authorizer := do
  held.context.requireComplete "resolving toolset authorization"
  checkDebt held.context blocksPublication "consuming a publication for toolset authorization"
  let _ ← held.verify crypto publication
  let statement ← subscript (← subscript publication "attestation") "statement"
  let manifest ← subscript statement "toolset_manifest_hash"
  let index ← pyInt (← subscript (← subscript publication "witness_ref") "index")
  return { snapshot := publication, expected := pyStr manifest, index }

/-- `authorize`: the publication is verified again, against what is held when it is asked. -/
def Authorizer.authorize (authorizer : Authorizer) (held : Held) (manifestHash : Str) : Py Int := do
  let _ ← held.verify crypto authorizer.snapshot
  if authorizer.expected ≠ manifestHash then
    raise (.releaseError "REL_TOOLSET_AUTHZ_UNRESOLVED") ("this manifest hashes " ++ manifestHash ++ ", and the release " ++
      "at witness position " ++ intText authorizer.index ++ " carries " ++ authorizer.expected ++ ". A manifest is " ++
      "authorized by the release that NAMES it, never by one that happens to be nearby")
  return authorizer.index

/-- A release that stands on a chain, at the place its publication refers to, and names a manifest. -/
structure Authorizes (crypto : Crypto) (publication : Json) (held : Held) (manifestHash : Str) (position : Nat) : Prop where
  sound : held.chain.verifyChain crypto held.nodePublic = .ok true
  attests : ∃ attestation ref record index, subscript publication "attestation" = .ok attestation ∧
    subscript publication "witness_ref" = .ok ref ∧ subscript ref "index" = .ok index ∧ pyInt index = .ok (position : Int) ∧
    held.chain.records[position]? = some record ∧ Commits crypto attestation ref record ∧
    (∃ statement, subscript attestation "statement" = .ok statement ∧
      subscript statement "toolset_manifest_hash" = .ok (.str manifestHash)) ∧
    ¬Revoked crypto attestation held.chain.records

variable {crypto}

theorem position_nonneg {attestation : Json} {registry : Registry} {context : ReleaseContext} {control : Control}
    {records : List Json} {pub : Bytes} {position : Int}
    (sound : WitnessChain.verifyLoop crypto pub 0 (.str genesis) records = .ok true)
    (witnessed : checkLifecycleWitnessed crypto records registry = .ok ())
    (verified : verifyAttestation crypto attestation registry position context = .ok control) : 0 ≤ position := by
  obtain ⟨accepted⟩ := accepted_of_verifies verified
  obtain ⟨signed, member, _⟩ := accepted.present "builder" (by decide)
  obtain ⟨_, key, _, approves⟩ := accepted.approves signed member
  obtain ⟨id, _, found⟩ := registeredKey_find.mp approves.registered
  obtain ⟨entry, listed, rfl, _⟩ := pyLookup_some found
  have passed := checkLifecycleWitnessed_ok.mp witnessed entry listed
  exact (activated_nonneg sound passed).trans approves.active.activated

theorem manifest_named {attestation statement : Json} {registry : Registry} {context : ReleaseContext} {control : Control}
    {position : Int} (stated : subscript attestation "statement" = .ok statement)
    (verified : verifyAttestation crypto attestation registry position context = .ok control) :
    ∃ digest, subscript statement "toolset_manifest_hash" = .ok (.str digest) := by
  obtain ⟨statement', _, _, _, _, _, attested, _⟩ := verifyAttestation_ok.mp verified
  unfold attestedStatement at attested
  split at attested
  · simp only [bind, Py.bind_ok, Py.unless_ok] at attested
    obtain ⟨_, _, _, found, read, _, valid, _⟩ := attested
    obtain rfl := Except.ok.inj ((dotGet_of_subscript stated).symm.trans read)
    exact (validateStatement_ok valid).2 _ (by decide)
  · cases attested

section

variable {publication attestation ref record : Json} {chain : WitnessChain} {registry : Registry} {context : ReleaseContext}
  {nodePublic : Bytes} {control : Control} {position : Int}

theorem Verifies.reference_eq
    (verifies : Verifies crypto publication chain registry context nodePublic control attestation ref record position)
    {found : Json} (referred : subscript publication "witness_ref" = .ok found) : ref = found := by
  obtain ⟨value, read, rfl⟩ := verifies.reference
  obtain rfl := Except.ok.inj ((dotGet_of_subscript referred).symm.trans read)
  obtain ⟨index, numbered, _⟩ := verifies.counted
  unfold orDict at numbered ⊢
  split
  · rfl
  · rename_i absent
    rw [if_neg absent] at numbered
    cases numbered

theorem Verifies.record_at {place : Nat}
    (verifies : Verifies crypto publication chain registry context nodePublic control attestation ref record (place : Int)) :
    chain.records[place]? = some record := by
  obtain ⟨index, numbered, counted⟩ := verifies.counted
  obtain ⟨index', read, found⟩ := resolveRecord_ok.mp verifies.resolved
  obtain rfl := Except.ok.inj ((dotGet_of_subscript numbered).symm.trans read)
  simp only [recordAt, counted, bind, Except.bind] at found
  exact (atIndex_nonneg (Int.natCast_nonneg place)).mp found

end

/-- What a callback answers is the place of a release that stands and names the manifest. -/
theorem authorize_ok {publication : Json} {before held : Held} {authorizer : Authorizer} {manifestHash : Str} {position : Int}
    (made : toolsetAuthorizer crypto publication before = .ok authorizer)
    (answered : authorizer.authorize crypto held manifestHash = .ok position) :
    ∃ place : Nat, position = place ∧ Authorizes crypto publication held manifestHash place := by
  simp only [toolsetAuthorizer, bind, Py.bind_ok] at made
  obtain ⟨_, _, _, _, _, _, attestation, read, statement, stated, manifest, named, ref, referred, index, numbered, place,
    counted, made⟩ := made
  obtain rfl := Except.ok.inj made
  simp only [Authorizer.authorize, bind, Py.bind_ok, Py.unless_ok, not_not] at answered
  obtain ⟨control, verified, same, answered⟩ := answered
  obtain rfl := Except.ok.inj answered
  obtain ⟨attestation', ref', record, place', verifies⟩ := verifyPublication_ok.mp verified
  obtain rfl := Except.ok.inj (read.symm.trans verifies.carried)
  obtain rfl := verifies.reference_eq referred
  obtain ⟨index', numbered', counted'⟩ := verifies.counted
  obtain rfl := Except.ok.inj (numbered.symm.trans numbered')
  obtain rfl := Except.ok.inj (counted.symm.trans counted')
  have nonneg := position_nonneg verifies.sound verifies.witnessed verifies.verified
  obtain ⟨n, rfl⟩ := Int.eq_ofNat_of_zero_le nonneg
  obtain ⟨digest, named'⟩ := manifest_named stated verifies.verified
  obtain rfl := Except.ok.inj (named.symm.trans named')
  obtain rfl : digest = manifestHash := same
  exact ⟨n, rfl, verifies.sound, attestation, ref', record, index, read, referred, numbered, counted,
    verifies.record_at, verifies.commits, ⟨statement, stated, named⟩, fun revoked =>
      not_verifies_of_revoked read revoked control verified⟩

end JJDai.Release
