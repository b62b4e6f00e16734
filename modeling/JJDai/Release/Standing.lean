import JJDai.Primitive.WritableRecord
import JJDai.Release.Publication
import JJDai.Release.Renewal
import JJDai.Release.TwoKeys
import Mathlib.Logic.Relation

/-! A publication in the life of its chain: what is written after it, and when it ceases to
verify. -/

namespace JJDai.Release

open PyText Canonical Provenance Replication

/-- A chain, and a registry whose positions its records witness. -/
structure Office (crypto : Crypto) where
  chain : WitnessChain
  registry : Registry
  witnessed : checkLifecycleWitnessed crypto chain.records registry = .ok ()

inductive Request where
  | append (call : AppendCall)
  | publish (attestation timestamp : Json)
  | revoke (statementHash keyId reason : Json) (sk : SigningKey) (timestamp : Json)

/-- The chain after a request; one that is refused writes nothing. -/
def Office.chainAfter {crypto : Crypto} (context : ReleaseContext) (office : Office crypto) : Request → WitnessChain
  | .append call =>
    match office.chain.append crypto call with
    | .ok written => written.chain
    | .error _ => office.chain
  | .publish attestation timestamp =>
    match Release.publish crypto attestation office.chain office.registry context timestamp with
    | .ok (_, chain) => chain
    | .error _ => office.chain
  | .revoke statementHash keyId reason sk timestamp =>
    match revokeRelease crypto statementHash keyId reason sk office.chain office.registry timestamp with
    | .ok (_, chain) => chain
    | .error _ => office.chain

variable {crypto : Crypto} {context : ReleaseContext}

/-- One request, with new keys and new revocations in the registry. -/
structure Office.Step (context : ReleaseContext) (office later : Office crypto) : Prop where
  written : ∃ request, later.chain = office.chainAfter context request
  extended : Extends office.registry later.registry

def Office.Reaches (context : ReleaseContext) : Office crypto → Office crypto → Prop :=
  Relation.ReflTransGen (Office.Step context)

structure Grown (crypto : Crypto) (chain later : WitnessChain) : Prop where
  longer : ∃ more, later = { chain with records := chain.records ++ more }
  sound : chain.verifyChain crypto = .ok true → later.verifyChain crypto = .ok true

theorem Grown.refl (chain : WitnessChain) : Grown crypto chain chain :=
  ⟨⟨[], by simp⟩, fun verified => verified⟩

theorem Grown.trans {chain later last : WitnessChain} (first : Grown crypto chain later) (second : Grown crypto later last) :
    Grown crypto chain last := by
  constructor
  · obtain ⟨more, rfl⟩ := first.longer
    obtain ⟨others, rfl⟩ := second.longer
    exact ⟨more ++ others, by rw [List.append_assoc]⟩
  · intro verified
    exact second.sound (first.sound verified)

theorem Grown.keeps {chain later : WitnessChain} (grown : Grown crypto chain later) {record : Json}
    (member : record ∈ chain.records) : record ∈ later.records := by
  obtain ⟨more, rfl⟩ := grown.longer
  exact List.mem_append_left _ member

theorem grown_append (lawful : crypto.Lawful) {chain : WitnessChain} {call : AppendCall} {written : Appended}
    (made : chain.append crypto call = .ok written) : Grown crypto chain written.chain := by
  constructor
  · obtain ⟨_, longer, _⟩ := WitnessChain.append_parts made
    exact ⟨[written.record], longer⟩
  · intro verified
    exact WitnessChain.verifyChain_append lawful made verified

theorem grown_chainAfter (lawful : crypto.Lawful) (office : Office crypto) (request : Request) :
    Grown crypto office.chain (office.chainAfter context request) := by
  cases request with
  | append call =>
    simp only [Office.chainAfter]
    cases made : office.chain.append crypto call with
    | error e => exact Grown.refl _
    | ok written => exact grown_append lawful made
  | publish attestation timestamp =>
    simp only [Office.chainAfter]
    cases made : publish crypto attestation office.chain office.registry context timestamp with
    | error e => exact Grown.refl _
    | ok result =>
      obtain ⟨_, written, _, _, appended, same, _⟩ := (publish_ok made).written
      change Grown crypto office.chain result.2
      rw [same]
      exact grown_append lawful appended
  | revoke statementHash keyId reason sk timestamp =>
    simp only [Office.chainAfter]
    cases made : revokeRelease crypto statementHash keyId reason sk office.chain office.registry timestamp with
    | error e => exact Grown.refl _
    | ok result =>
      obtain ⟨_, written, appended, same⟩ := revokeRelease_ok made
      change Grown crypto office.chain result.2
      rw [same]
      exact grown_append lawful appended

/-- What a run leaves of the office it starts in. -/
structure Office.Follows (office later : Office crypto) : Prop where
  grown : Grown crypto office.chain later.chain
  extended : Extends office.registry later.registry

theorem Office.follows_step (lawful : crypto.Lawful) {office later : Office crypto} (step : office.Step context later) :
    office.Follows later := by
  obtain ⟨request, same⟩ := step.written
  constructor
  · rw [same]
    exact grown_chainAfter lawful office request
  · exact step.extended

theorem Office.follows_reaches (lawful : crypto.Lawful) {office later : Office crypto}
    (reaches : office.Reaches context later) : office.Follows later := by
  induction reaches with
  | refl => exact ⟨Grown.refl _, Extends.refl _⟩
  | tail _ step ih =>
    have next := follows_step lawful step
    exact ⟨ih.grown.trans next.grown, ih.extended.trans next.extended⟩

theorem Renews.transitionAt {key renewed : RegisteredKey} (renews : Renews key renewed) (record : Json) :
    transitionAt crypto renewed record = transitionAt crypto key record := by
  rw [renews.same]
  rfl

/-- A key that acts at the place of a release acts there whatever is witnessed afterwards: its
revocation can only stand behind. -/
theorem stillActive {pub : Bytes} {front more : List Json} {attested : Json} {registry later : Registry}
    (before : checkLifecycleWitnessed crypto front registry = .ok ())
    (after : checkLifecycleWitnessed crypto (front ++ attested :: more) later = .ok ())
    (verified : WitnessChain.verifyLoop crypto pub 0 (.str genesis) (front ++ attested :: more) = .ok true)
    (kind : dotGet attested "kind" = .ok (.str releaseAttested)) (extends_ : Extends registry later) :
    StillActive registry later front.length := by
  intro id key found active
  obtain ⟨renewed, found', renews⟩ := extends_ id key found
  refine ⟨renewed, found', renews, ?_⟩
  have activated : renewed.activated ≤ front.length := by
    rw [renews.same]
    exact active.activated
  by_cases absent : renewed.revoked = .null
  · exact ⟨activated, .inl absent⟩
  · by_cases unrevoked : key.revoked = .null
    · obtain ⟨entry, member, rfl, _⟩ := pyLookup_some found
      obtain ⟨entry', member', rfl, _⟩ := pyLookup_some found'
      have passed := checkLifecycleWitnessed_ok.mp before entry member
      have passed' := checkLifecycleWitnessed_ok.mp after entry' member'
      obtain ⟨j, record, read, here, witnessed⟩ := declared_at (declared_revoked entry'.2) verified passed' absent
      refine ⟨activated, .inr ⟨j, read, ?_⟩⟩
      rw [renews.transitionAt] at witnessed
      by_contra reached
      have place : j ≤ front.length := by omega
      rcases Nat.lt_or_eq_of_le place with inside | same
      · rw [List.getElem?_append_left inside] at here
        exact no_revocation passed unrevoked (List.mem_of_getElem? here) witnessed
      · subst same
        rw [List.getElem?_append_right (Nat.le_refl _), Nat.sub_self, List.getElem?_cons_zero] at here
        obtain rfl := Option.some.inj here
        obtain ⟨other, _, named, word, _⟩ := transitionAt_ok witnessed
        obtain rfl := Except.ok.inj (kind.symm.trans named)
        exact absurd word (by decide)
    · rw [renews.kept unrevoked]
      exact active

/-- A record revokes the release of an attestation. -/
def Revoked (crypto : Crypto) (attestation : Json) (records : List Json) : Prop :=
  ∃ statement target want, subscript attestation "statement" = .ok statement ∧
    statementHash crypto statement = .ok target ∧ revocationDigest crypto (.str target) = .ok want ∧
    ∃ record ∈ records, Revokes want record

theorem checkNotRevoked_ok {attestation statement : Json} {records : List Json} {registry : Registry} {target want : Str}
    (objects : ∀ record ∈ records, ∃ fields, record = .obj fields)
    (stated : subscript attestation "statement" = .ok statement) (hashed : statementHash crypto statement = .ok target)
    (bound : revocationDigest crypto (.str target) = .ok want) :
    checkNotRevoked crypto statement records registry context = .ok () ↔ ¬Revoked crypto attestation records := by
  simp only [checkNotRevoked, hashed, bound, bind, Except.bind, scanRevocations_ok objects]
  constructor
  · rintro clear ⟨_, _, _, stated', hashed', bound', record, member, revokes⟩
    obtain rfl := Except.ok.inj (stated.symm.trans stated')
    obtain rfl := Except.ok.inj (hashed.symm.trans hashed')
    obtain rfl := Except.ok.inj (bound.symm.trans bound')
    exact clear record member revokes
  · intro clear record member revokes
    exact clear ⟨statement, target, want, stated, hashed, bound, record, member, revokes⟩

theorem objects_of_verified {chain : WitnessChain} {nodePublic : Bytes}
    (verified : chain.verifyChain crypto nodePublic = .ok true) {record : Json} (member : record ∈ chain.records) :
    ∃ fields, record = .obj fields := by
  obtain ⟨_, here⟩ := List.getElem?_of_mem member
  obtain ⟨fields, _, _, shape, _⟩ := WitnessChain.signed_at verified here
  exact ⟨fields, shape⟩

theorem Revoked.keeps {attestation : Json} {chain later : WitnessChain} (grown : Grown crypto chain later)
    (revoked : Revoked crypto attestation chain.records) : Revoked crypto attestation later.records := by
  obtain ⟨statement, target, want, stated, hashed, bound, record, member, revokes⟩ := revoked
  exact ⟨statement, target, want, stated, hashed, bound, record, grown.keeps member, revokes⟩

theorem not_verifies_of_revoked {attestation publication : Json} {chain : WitnessChain} {registry : Registry}
    {nodePublic : Bytes} (carries : subscript publication "attestation" = .ok attestation)
    (revoked : Revoked crypto attestation chain.records) (control : Control) : verifyPublication crypto publication chain registry context nodePublic ≠ .ok control := by
  intro accepted
  obtain ⟨attestation', _, _, _, verifies⟩ := verifyPublication_ok.mp accepted
  obtain rfl := Except.ok.inj (carries.symm.trans verifies.carried)
  obtain ⟨statement, stated, standing⟩ := verifies.standing
  obtain ⟨statement', _, _, stated', hashed, bound, _⟩ := id revoked
  obtain rfl := Except.ok.inj (stated.symm.trans stated')
  have objects (record : Json) (member : record ∈ chain.records) := objects_of_verified verifies.sound member
  exact (checkNotRevoked_ok objects stated hashed bound).mp standing revoked

/-- What `publish` wrote of a release, at its place. -/
structure Placed (crypto : Crypto) (attestation publication attested : Json) (position : Nat) : Prop where
  kind : dotGet attested "kind" = .ok (.str releaseAttested)
  resolves : ∃ ref, publication = .obj [("schema", .str schemaReleasePublication), ("attestation", attestation),
      ("witness_ref", ref)] ∧ truthy ref ∧ subscript ref "index" = .ok (.int position) ∧
    Commits crypto attestation ref attested

theorem Publishing.placed {attestation publication : Json} {chain later : WitnessChain} {registry : Registry}
    (publishing : Publishing crypto context attestation chain registry publication later) :
    ∃ attested, later = { chain with records := chain.records ++ [attested] } ∧
      Placed crypto attestation publication attested chain.nextIndex := by
  obtain ⟨call, written, provenance, hash, made, rfl, kind, given, described, named, rfl⟩ := publishing.written
  obtain ⟨built, longer, _⟩ := WitnessChain.append_parts made
  have fields := recordFields built
  obtain ⟨bound, digest, boundRead⟩ := fields.provenance
  obtain ⟨entries, rfl⟩ : ∃ entries, provenance = .obj entries := by
    simp only [releaseProvenance, bind, Py.bind_ok] at described
    obtain ⟨_, _, _, _, _, _, _, _, _, _, same⟩ := described
    exact ⟨_, (Except.ok.inj same).symm⟩
  obtain ⟨members, shape⟩ := obj_of_subscript named
  rw [given] at digest
  simp only [WitnessChain.provenanceHash, bind, Py.bind_ok] at digest
  obtain ⟨data, text, same⟩ := digest
  obtain rfl := Except.ok.inj same
  have attested : dotGet written.record "kind" = .ok (.str releaseAttested) := by
    rw [← kind]
    exact fields.kind
  exact ⟨written.record, longer, attested, _, rfl, rfl, rfl, {
    kind := attested
    hash := ⟨hash, hash, dotGet_of_subscript named, rfl, Json.pyEq.refl _⟩
    provenance := ⟨_, data, _, rfl, rfl, text, boundRead, described, Json.pyEq.refl _⟩ }⟩

theorem Publishing.still_sound (lawful : crypto.Lawful) {attestation publication : Json} {chain later : WitnessChain}
    {registry : Registry} (publishing : Publishing crypto context attestation chain registry publication later) :
    later.verifyChain crypto = .ok true := by
  obtain ⟨_, _, _, _, made, rfl, _⟩ := publishing.written
  exact WitnessChain.verifyChain_append lawful made publishing.sound

theorem digests_of_checked {statement : Json} {records : List Json} {registry : Registry}
    (standing : checkNotRevoked crypto statement records registry context = .ok ()) :
    ∃ target, statementHash crypto statement = .ok target ∧ ∃ want, revocationDigest crypto (.str target) = .ok want := by
  simp only [checkNotRevoked, bind, Py.bind_ok] at standing
  obtain ⟨target, hashed, want, bound, _⟩ := standing
  exact ⟨target, hashed, want, bound⟩

/-- A release at its place verifies wherever the chain does, the keys are in force there and no
record revokes it. -/
theorem Placed.verifies {attestation publication attested : Json} {front more : List Json} {sk : SigningKey}
    {registry : Registry} {control : Control} (placed : Placed crypto attestation publication attested front.length)
    (sound : WitnessChain.verifyChain crypto ⟨sk, front ++ attested :: more⟩ = .ok true)
    (witnessed : checkLifecycleWitnessed crypto (front ++ attested :: more) registry = .ok ())
    (standing : ∃ statement, subscript attestation "statement" = .ok statement ∧
      checkNotRevoked crypto statement (front ++ attested :: more) registry context = .ok ())
    (verified : verifyAttestation crypto attestation registry front.length context = .ok control) :
    verifyPublication crypto publication ⟨sk, front ++ attested :: more⟩ registry context = .ok control := by
  obtain ⟨ref, rfl, present, index, commits⟩ := placed.resolves
  refine verifyPublication_ok.mpr ⟨attestation, ref, attested, front.length, {
    schema := rfl, witnessed, carried := rfl, standing, sound, commits, verified
    reference := ⟨ref, rfl, ?_⟩, resolved := resolveRecord_ok.mpr ⟨_, dotGet_of_subscript index, ?_⟩
    counted := ⟨_, index, rfl⟩ }⟩
  · rw [orDict, if_pos present]
  · rw [recordAt]
    simp only [pyInt, pure, Except.pure, bind, Except.bind]
    rw [atIndex_nonneg (Int.natCast_nonneg _)]
    simp

theorem published_verifies (lawful : crypto.Lawful) {office next later : Office crypto} {attestation publication : Json}
    (publishing : Publishing crypto context attestation office.chain office.registry publication next.chain)
    (extended : Extends office.registry next.registry) (reaches : next.Reaches context later)
    (clear : ¬Revoked crypto attestation later.chain.records) {control : Control}
    (verified : verifyAttestation crypto attestation office.registry office.chain.nextIndex context = .ok control) :
    verifyPublication crypto publication later.chain later.registry context = .ok control := by
  obtain ⟨attested, written, placed⟩ := publishing.placed
  have follows := Office.follows_reaches lawful reaches
  have sound := follows.grown.sound (publishing.still_sound lawful)
  obtain ⟨statement, stated, standing⟩ := publishing.standing
  obtain ⟨target, hashed, want, bound⟩ := digests_of_checked standing
  have standing' : checkNotRevoked crypto statement later.chain.records later.registry context = .ok () :=
    (checkNotRevoked_ok (fun _ => objects_of_verified sound) stated hashed bound).mpr clear
  have extends_ := extended.trans follows.extended
  obtain ⟨more, shape⟩ := follows.grown.longer
  rw [written] at shape
  simp only [List.append_assoc, List.singleton_append] at shape
  have witnessed := later.witnessed
  rw [shape] at sound standing' witnessed ⊢
  have still := stillActive publishing.witnessed witnessed sound placed.kind extends_
  exact placed.verifies sound witnessed ⟨statement, stated, standing'⟩ (verifyAttestation_renewed extends_ still verified)

/-- A publication verifies, with the numbers counted when it was made, until a record revokes its
release by name; from then on it never does. -/
theorem publication_stands_until_revoked (lawful : crypto.Lawful) {office next : Office crypto}
    {attestation timestamp publication : Json}
    (published : publish crypto attestation office.chain office.registry context timestamp =
      .ok (publication, next.chain))
    (extended : Extends office.registry next.registry) :
    ∃ control, verifyAttestation crypto attestation office.registry office.chain.nextIndex context = .ok control ∧
      ∀ later, next.Reaches context later →
        (¬Revoked crypto attestation later.chain.records →
          verifyPublication crypto publication later.chain later.registry context = .ok control) ∧
        (Revoked crypto attestation later.chain.records → ∀ last, later.Reaches context last →
          ∀ other, verifyPublication crypto publication last.chain last.registry context ≠ .ok other) := by
  have publishing := publish_ok published
  obtain ⟨control, verified⟩ := publishing.verified
  obtain ⟨attested, written, placed⟩ := publishing.placed
  refine ⟨control, verified, fun later reaches => ⟨fun clear => ?_, fun revoked last reaches' => ?_⟩⟩
  · exact published_verifies lawful publishing extended reaches clear verified
  · have grown := (Office.follows_reaches lawful reaches').grown
    obtain ⟨ref, rfl, _⟩ := placed.resolves
    exact not_verifies_of_revoked rfl (revoked.keeps grown)

structure Activates (digest : Str) (position : Nat) (record : Json) : Prop where
  kind : dotGet record "kind" = .ok (.str kindKeyActivated)
  digest : dotGet record "semantic_digest" = .ok (.str digest)
  index : subscript record "index" = .ok (.int position)

theorem Activates.transitionAt {key : RegisteredKey} {digest want : Str} {position : Nat} {record : Json}
    (activates : Activates digest position record)
    (named : keyLifecycleDigest crypto key.keyId "activated" key.publicHex = .ok want) :
    transitionAt crypto key record = .ok (if digest = want then some ("activated", (position : Int)) else none) := by
  have word : transitionOf (.str kindKeyActivated) = some (Str.ofString "activated") := by decide
  simp only [Release.transitionAt, activates.kind, word, named, activates.digest, activates.index, pyInt, bind, Except.bind,
    pure, Except.pure, ne_eq, Json.str.injEq]
  by_cases same : digest = want
  · simp only [same, not_true_eq_false, if_false, if_true]
  · simp only [same, not_false_eq_true, if_true, if_false]

theorem lifecycleProjection_nil {key : RegisteredKey} {records : List Json}
    (others : ∀ record ∈ records, ∃ kind, dotGet record "kind" = .ok kind ∧ transitionOf kind = none) :
    lifecycleProjection crypto key records = .ok [] := by
  induction records with
  | nil => rfl
  | cons record rest ih =>
    obtain ⟨kind, named, word⟩ := others record List.mem_cons_self
    have here : transitionAt crypto key record = .ok none := by
      simp only [transitionAt, named, word, bind, Except.bind]
      rfl
    simp only [lifecycleProjection, here, ih (fun other member => others other (List.mem_cons_of_mem _ member)), bind,
      Except.bind]
    rfl

theorem checkKeyWitnessed_activated {key : RegisteredKey} {want : Str} {position : Nat} {record : Json}
    {records : List Json} (named : keyLifecycleDigest crypto key.keyId "activated" key.publicHex = .ok want)
    (activates : Activates want position record) (here : records[position]? = some record)
    (declared : key.activated = position) (unrevoked : key.revoked = .null)
    (projected : lifecycleProjection crypto key records = .ok [("activated", (position : Int))]) :
    checkKeyWitnessed crypto records key = .ok () := by
  have found : recordAt records (.int position) = .ok record := by
    simp only [recordAt, pyInt, pure, Except.pure, bind, Except.bind]
    exact (atIndex_nonneg (Int.natCast_nonneg _)).mpr here
  have activated : positionsOf "activated" [("activated", (position : Int))] = [(position : Int)] := by
    simp [positionsOf]
  have revoked : positionsOf "revoked" [("activated", (position : Int))] = [] := by
    have differ : ("activated" : Str) ≠ "revoked" := by decide
    simp [positionsOf, differ]
  have absent : Json.int position ≠ .null := by simp
  simp only [checkKeyWitnessed, checkPosition, declared, unrevoked, absent, if_false, if_true, found, activates.kind,
    activates.digest, named, projected, activated, revoked, checkComplete, bind, Except.bind, ne_eq, not_true_eq_false, pyInt,
    pure, Except.pure]

theorem activates_of_built {chain : WitnessChain} {digest : Str} {timestamp : Json} {record : Json}
    (built : chain.buildRecord crypto { kind := kindKeyActivated, semanticDigest := .str digest, timestamp } = .ok record) :
    Activates digest chain.nextIndex record := by
  simp only [WitnessChain.buildRecord, bind, Py.bind_ok] at built
  obtain ⟨_, _, _, _, _, _, _, _, _, _, _, _, made⟩ := built
  obtain rfl := Except.ok.inj made
  exact ⟨rfl, rfl, rfl⟩

theorem checkLifecycleWitnessed_pair {builder verifier : RegisteredKey} {first second : Json} {rest : List Json} {x y : Json}
    {want other : Str} (opens : Activates want 0 first) (follows : Activates other 1 second)
    (others : ∀ record ∈ rest, ∃ kind, dotGet record "kind" = .ok kind ∧ transitionOf kind = none)
    (named : keyLifecycleDigest crypto builder.keyId "activated" builder.publicHex = .ok want)
    (named' : keyLifecycleDigest crypto verifier.keyId "activated" verifier.publicHex = .ok other) (differ : want ≠ other)
    (declared : builder.activated = 0 ∧ verifier.activated = 1)
    (unrevoked : builder.revoked = .null ∧ verifier.revoked = .null) :
    checkLifecycleWitnessed crypto (first :: second :: rest) [(x, builder), (y, verifier)] = .ok () := by
  have projected : lifecycleProjection crypto builder (first :: second :: rest) =
      .ok [("activated", ((0 : Nat) : Int))] := by
    simp only [lifecycleProjection, opens.transitionAt named, follows.transitionAt named, lifecycleProjection_nil others,
      differ.symm, if_true, if_false, bind, Except.bind]
    rfl
  have projected' : lifecycleProjection crypto verifier (first :: second :: rest) =
      .ok [("activated", ((1 : Nat) : Int))] := by
    simp only [lifecycleProjection, opens.transitionAt named', follows.transitionAt named', lifecycleProjection_nil others,
      differ, if_true, if_false, bind, Except.bind]
    rfl
  refine checkLifecycleWitnessed_ok.mpr fun entry member => ?_
  rcases List.mem_cons.mp member with rfl | member
  · exact checkKeyWitnessed_activated named opens rfl declared.1 unrevoked.1 projected
  · rw [List.mem_singleton.mp member]
    exact checkKeyWitnessed_activated named' follows rfl declared.2 unrevoked.2 projected'

def sampleActivation (digest : Str) : AppendCall :=
  { kind := kindKeyActivated, semanticDigest := .str digest, timestamp := .str "t" }

def sampleBuilderDigest : Str := "7a762647a55c3efd5cc38db9aee597eddb2e1aca38d10df90bb9a11ea490c888"

def sampleVerifierDigest : Str := "8e7abe770fb478c5fc3915b6b0ad160d012b030c9ceca7d25246d46f071f7f94"

def sampleAttestationHash : Str := "879e35dc48185c325925c7b7c8459b6abfb1180e2b810357913c9575126d1348"

def sampleProvenance : Json :=
  .obj [("attestation_hash", .str sampleAttestationHash), ("statement_hash", .str sampleStatementHash),
    ("version", .str "1"), ("tree_digest", .str sampleDigest)]

def sampleRelease : AppendCall :=
  { kind := releaseAttested, semanticDigest := .str sampleAttestationHash, provenance := sampleProvenance,
    timestamp := .str "t" }

set_option maxRecDepth 4000 in
private theorem sample_published :
    (keyLifecycleDigest Crypto.sample (.str "kb") "activated" (.str sampleHex) = .ok sampleBuilderDigest ∧
      keyLifecycleDigest Crypto.sample (.str "kv") "activated" (.str sampleCapitals) = .ok sampleVerifierDigest) ∧
    (WitnessChain.checkAppend (sampleActivation sampleBuilderDigest) = .ok () ∧
      WitnessChain.checkAppend (sampleActivation sampleVerifierDigest) = .ok () ∧
      WitnessChain.checkAppend sampleRelease = .ok ()) ∧
    (encodable kindKeyActivated ∧ encodable releaseAttested ∧ writable (.str "t") ∧ writable sampleProvenance ∧
      writable (.str sampleBuilderDigest) ∧ writable (.str sampleVerifierDigest) ∧
      writable (.str sampleAttestationHash)) ∧
    attestationHash Crypto.sample sampleAttestation = .ok sampleAttestationHash ∧
    (sampleContext.requireComplete "publishing a release" = .ok () ∧
      checkDebt sampleContext blocksPublication "publishing a release" = .ok ()) ∧
    (subscript sampleAttestation "statement" = .ok sampleStatement ∧
      subscript sampleAttestation "statement_hash" = .ok (.str sampleStatementHash) ∧
      subscript sampleStatement "version" = .ok (.str "1") ∧
      subscript sampleStatement "tree_digest" = .ok (.str sampleDigest)) ∧
    (revocationDigest Crypto.sample (.str sampleStatementHash)).isOk := by
  decide +kernel

private theorem sample_provenance : releaseProvenance Crypto.sample sampleAttestation = .ok sampleProvenance := by
  obtain ⟨_, _, _, hashed, _, ⟨stated, named, version, tree⟩, _⟩ := sample_published
  exact releaseProvenance_ok.mpr ⟨_, _, _, _, _, stated, hashed, named, version, tree, rfl⟩

private theorem sample_office : ∃ (chain : WitnessChain) (first second : Json), chain.records = [first, second] ∧
    Activates sampleBuilderDigest 0 first ∧ Activates sampleVerifierDigest 1 second ∧
    chain.verifyChain Crypto.sample = .ok true ∧ chain.Linked := by
  obtain ⟨_, ⟨opens, follows, _⟩, ⟨kind, _, moment, _, text, text', _⟩, _⟩ := sample_published
  obtain ⟨one, made, linked⟩ := @WitnessChain.append_writable Crypto.sample ⟨SigningKey.sample 1, []⟩
    (WitnessChain.linked_empty rfl) (sampleActivation sampleBuilderDigest) ⟨opens, moment, rfl⟩ kind text rfl rfl rfl
  obtain ⟨two, made', linked'⟩ := @WitnessChain.append_writable Crypto.sample _ linked
    (sampleActivation sampleVerifierDigest) ⟨follows, moment, rfl⟩ kind text' rfl rfl rfl
  obtain ⟨built, grown, _⟩ := WitnessChain.append_parts made
  obtain ⟨built', grown', _⟩ := WitnessChain.append_parts made'
  have sound := WitnessChain.verifyChain_append Crypto.sample_lawful made rfl
  have place : one.chain.nextIndex = 1 := by
    rw [grown]
    rfl
  refine ⟨two.chain, one.record, two.record, ?_, activates_of_built built, ?_,
    WitnessChain.verifyChain_append Crypto.sample_lawful made' sound, linked'⟩
  · rw [grown', grown]
    rfl
  · rw [← place]
    exact activates_of_built built'

theorem not_revokes_of_kind {want kind : Str} {record : Json} (named : dotGet record "kind" = .ok (.str kind))
    (other : kind ≠ kindReleaseRevoked) : ¬Revokes want record := by
  rintro ⟨named', _⟩
  exact other (Json.str.inj (Except.ok.inj (named.symm.trans named')))

theorem sample_office_publishes : ∃ (office next : Office Crypto.sample) (publication : Json),
    office.registry = sampleRegistry ∧ next.registry = sampleRegistry ∧ office.chain.nextIndex = 2 ∧
    publish Crypto.sample sampleAttestation office.chain sampleRegistry sampleContext (.str "t") =
      .ok (publication, next.chain) ∧
    ¬Revoked Crypto.sample sampleAttestation next.chain.records := by
  obtain ⟨⟨named, named'⟩, ⟨_, _, checked⟩, ⟨_, kind, moment, provenance, _, _, text⟩, hashed, ⟨complete, debt⟩,
    ⟨stated, namedHash, _⟩, target⟩ := sample_published
  obtain ⟨chain, first, second, records, opens, follows, sound, linked⟩ := sample_office
  have differ : sampleBuilderDigest ≠ sampleVerifierDigest := by decide +kernel
  have lifecycle {rest : List Json}
      (others : ∀ record ∈ rest, ∃ kind, dotGet record "kind" = .ok kind ∧ transitionOf kind = none) :
      checkLifecycleWitnessed Crypto.sample (first :: second :: rest) sampleRegistry = .ok () :=
    checkLifecycleWitnessed_pair opens follows others named named' differ ⟨rfl, rfl⟩ ⟨rfl, rfl⟩
  have witnessed : checkLifecycleWitnessed Crypto.sample chain.records sampleRegistry = .ok () := by
    rw [records]
    exact lifecycle (fun _ member => absurd member List.not_mem_nil)
  obtain ⟨hash, statementHashed, recorded⟩ := statementHash_of_verifies stated sample_verifies
  obtain rfl := Json.str.inj (Except.ok.inj ((dotGet_of_subscript namedHash).symm.trans recorded))
  obtain ⟨want, bound⟩ := Py.exists_of_isOk target
  have standing : checkNotRevoked Crypto.sample sampleStatement chain.records sampleRegistry sampleContext = .ok () := by
    refine (checkNotRevoked_ok (fun _ => objects_of_verified sound) stated statementHashed bound).mpr ?_
    rintro ⟨_, _, _, _, _, _, record, member, revokes⟩
    rw [records] at member
    rcases List.mem_cons.mp member with rfl | member
    · exact not_revokes_of_kind opens.kind (by decide) revokes
    · rw [List.mem_singleton.mp member] at revokes
      exact not_revokes_of_kind follows.kind (by decide) revokes
  have place : chain.nextIndex = 2 := by rw [WitnessChain.nextIndex, records]; rfl
  have verified : verifyAttestation Crypto.sample sampleAttestation sampleRegistry chain.nextIndex sampleContext =
      .ok sampleCounted := by
    rw [place]
    exact sample_verifies
  obtain ⟨written, made, _⟩ := @WitnessChain.append_writable Crypto.sample _ linked sampleRelease
    ⟨checked, moment, provenance⟩ kind text rfl rfl rfl
  obtain ⟨publication, published⟩ := publish_parts complete debt sound witnessed stated standing verified hashed
    sample_provenance made
  obtain ⟨built, grown, _⟩ := WitnessChain.append_parts made
  have kind' := (recordFields built).kind
  have witnessed' : checkLifecycleWitnessed Crypto.sample written.chain.records sampleRegistry = .ok () := by
    rw [grown, records]
    refine lifecycle fun record member => ⟨.str releaseAttested, ?_, by decide⟩
    rw [List.mem_singleton.mp member]
    exact kind'
  refine ⟨⟨chain, sampleRegistry, witnessed⟩, ⟨written.chain, sampleRegistry, witnessed'⟩, publication, rfl, rfl, place,
    published, ?_⟩
  rintro ⟨_, _, _, _, _, _, record, member, revokes⟩
  simp only [grown, records, List.cons_append, List.nil_append, List.mem_cons, List.not_mem_nil, or_false] at member
  rcases member with rfl | rfl | rfl
  · exact not_revokes_of_kind opens.kind (by decide) revokes
  · exact not_revokes_of_kind follows.kind (by decide) revokes
  · exact not_revokes_of_kind kind' (by decide) revokes

/-- A release that is published on a chain with two activated keys. -/
theorem publication_stands_until_revoked_sample : ∃ (office next : Office Crypto.sample) (publication : Json),
    publish Crypto.sample sampleAttestation office.chain office.registry sampleContext (.str "t") =
      .ok (publication, next.chain) ∧
    ∃ control, verifyAttestation Crypto.sample sampleAttestation office.registry office.chain.nextIndex sampleContext =
        .ok control ∧
      ∀ later, next.Reaches sampleContext later →
        (¬Revoked Crypto.sample sampleAttestation later.chain.records →
          verifyPublication Crypto.sample publication later.chain later.registry sampleContext = .ok control) ∧
        (Revoked Crypto.sample sampleAttestation later.chain.records → ∀ last, later.Reaches sampleContext last →
          ∀ other, verifyPublication Crypto.sample publication last.chain last.registry sampleContext ≠ .ok other) := by
  obtain ⟨office, next, publication, registry, registry', _, published, _⟩ := sample_office_publishes
  rw [← registry] at published
  have extended : Extends office.registry next.registry := by
    rw [registry, registry']
    exact Extends.refl _
  exact ⟨office, next, publication, published,
    publication_stands_until_revoked Crypto.sample_lawful published extended⟩

end JJDai.Release
