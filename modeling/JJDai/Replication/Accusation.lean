import JJDai.Replication.Recovery

/-! The accusations a store returns after a reload, and which of them prove themselves. -/

namespace JJDai.Replication

open PyText Canonical Merkle Durable

variable (crypto : Crypto)

/-- A root that the origin signed at this count. -/
def RootAt (origin : Str) (count : Int) (env root : Json) : Prop :=
  ∃ signed : SignedRoot crypto env, signed.origin = origin ∧ signed.count = count ∧
    Dict.get? signed.body "root" = some root

/-- Two signed roots at one count, different under one algorithm. -/
structure RootsContradict (origin : Str) (envA envB : Json) : Prop where
  differ : ∃ count rootA rootB, RootAt crypto origin count envA rootA ∧ RootAt crypto origin count envB rootB ∧
    ¬Json.pyEq rootA rootB
  alg : Json.pyEq (fieldOf envA "root_alg") (fieldOf envB "root_alg")

variable {crypto} in
/-- A signed root at one of a claim's counts is not the root that the claim names. -/
def PinContradicts {env : Json} (claim : SignedClaim crypto env) (which : Str) (count : Int) (pin : Json) : Prop :=
  ∃ root named, RootAt crypto claim.origin count pin root ∧ fieldOf pin "root_alg" = .str "rfc6962" ∧
    Dict.get? claim.body (which ++ "_root") = some named ∧ ¬Json.pyEq root named

variable {crypto} in
/-- The proof of a claim does not link the two roots that it names. -/
def ProofFails {env : Json} (claim : SignedClaim crypto env) : Prop :=
  ∃ oldRoot newRoot, Dict.get? claim.body "old_root" = some oldRoot ∧ Dict.get? claim.body "new_root" = some newRoot ∧
    verifyConsistency crypto claim.old claim.new oldRoot newRoot
      (orList ((Dict.get? claim.body "proof").getD .null)) = .ok false

/-- A claim that the origin signed and that fails, alone or against a signed root. -/
def ClaimFails (origin : Str) (env pinnedOld pinnedNew : Json) : Prop :=
  ∃ claim : SignedClaim crypto env, claim.origin = origin ∧ (PinContradicts claim "old" claim.old pinnedOld ∨
    PinContradicts claim "new" claim.new pinnedNew ∨ ProofFails claim)

/-- Two records that the origin signed at one index, with different hashes. -/
def RecordsContradict (origin : Str) (recordA recordB : Json) : Prop :=
  ∃ i, (∃ prev, SignedFrom crypto origin i prev [recordA]) ∧ (∃ prev, SignedFrom crypto origin i prev [recordB]) ∧
    subscript recordA "this_hash" ≠ subscript recordB "this_hash"

/-- An entry that names an origin and carries, in the fields of one of the three
kinds, what that relation holds of. -/
structure Carries (roots : Str → Json → Json → Prop) (claim : Str → Json → Json → Json → Prop)
    (records : Str → Json → Json → Prop) (e : Json) : Prop where
  named : ∃ origin, subscript e "origin" = .ok (.str origin) ∧
    ((∃ envA envB, subscript e "env_a" = .ok envA ∧ subscript e "env_b" = .ok envB ∧ roots origin envA envB) ∨
      (∃ env old new, subscript e "env" = .ok env ∧ dotGet e "pinned_old" = .ok old ∧
        dotGet e "pinned_new" = .ok new ∧ claim origin env old new) ∨
      ∃ recordA recordB, subscript e "record_a" = .ok recordA ∧ subscript e "record_b" = .ok recordB ∧
        records origin recordA recordB)

/-- The entry proves that the origin it names contradicts itself. -/
def SelfProving (e : Json) : Prop :=
  Carries (RootsContradict crypto) (ClaimFails crypto) (RecordsContradict crypto) e

def storeOf (env : Json) : ReplicaStore := (Session.after crypto [⟨.root env, .zero, true⟩]).store

/-- A fresh store that is given the two roots accuses the origin. -/
def RootsAccuse (origin : Str) (envA envB : Json) : Prop :=
  (Session.after crypto [⟨.root envA, .zero, true⟩, ⟨.root envB, .zero, true⟩]).store.divergence origin ≠ []

def Refuted (env : Json) (oldEnv newEnv : Option Json) : Prop :=
  ∃ reason, verifyConsistencyEnvelope crypto env oldEnv newEnv = .ok (.inconsistent, reason)

/-- A fresh store that is given this root pins the claim's count with it. -/
def Pins (origin : Str) (count pin : Json) : Prop :=
  lookupCount ((storeOf crypto pin).held origin) count = .ok (some pin)

/-- The claim is refuted, alone or against one of the two pins. -/
def ClaimAccuses (origin : Str) (env pinnedOld pinnedNew : Json) : Prop :=
  fieldOf env "node_id" = .str origin ∧ (Refuted crypto env none none ∨
    (Pins crypto origin (fieldOf env "old_count") pinnedOld ∧ Refuted crypto env (some pinnedOld) none) ∨
    Pins crypto origin (fieldOf env "new_count") pinnedNew ∧ Refuted crypto env none (some pinnedNew))

/-- `verify_segment` accepts the record at this index under a key of the origin. -/
def RecordPasses (origin : Str) (i : Int) (record : Json) : Prop :=
  ∃ pub prev, canonicalNodeId crypto pub = origin ∧ verifyRecords crypto pub origin i prev [record] = .ok none

def RecordsAccuse (origin : Str) (recordA recordB : Json) : Prop :=
  ∃ i, RecordPasses crypto origin i recordA ∧ RecordPasses crypto origin i recordB ∧
    subscript recordA "this_hash" ≠ subscript recordB "this_hash"

/-- What the entry carries would be accused again. -/
def Replays (e : Json) : Prop :=
  Carries (RootsAccuse crypto) (ClaimAccuses crypto) (RecordsAccuse crypto) e

variable {crypto} {origin : Str} {env : Json} {store : ReplicaStore} {now : PyFloat}

theorem RootAt.unique {other : Str} {count count' : Int} {root root' : Json} (first : RootAt crypto origin count env root)
    (second : RootAt crypto other count' env root') : root = root' := by
  obtain ⟨a, _, _, named⟩ := first
  obtain ⟨b, _, _, named'⟩ := second
  have same := Except.ok.inj (a.read.symm.trans b.read)
  simp only [Prod.mk.injEq, Json.obj.injEq] at same
  rw [same.1, named'] at named
  exact (Option.some.inj named).symm

theorem accept_absent (root : SignedRoot crypto env) (named : (Dict.get? root.body "root").isSome)
    (absent : store.held root.origin = []) :
    store.accept crypto env now = .ok ⟨store.hold root.origin root.count env, some (rootLine env), .stored, "ok"⟩ := by
  obtain ⟨count, present, key⟩ := countKey_of_bind root.counted
  obtain ⟨value, named⟩ := Option.isSome_iff_exists.mp named
  have origin : canonicalNodeId crypto root.pub = root.origin := rfl
  have late : ¬root.count < -1 := not_lt.mpr ((by decide : (-1 : Int) ≤ 0).trans root.nonneg)
  simp only [ReplicaStore.accept, root.verifies, bind, Except.bind, Bool.not_true, Bool.false_eq_true, if_false,
    subscript_of_readEnvelope root.read, subscript_obj.mpr root.node, originKey, pure, Except.pure,
    subscript_obj.mpr present, subscript_obj.mpr named, key, origin, absent, Dict.get?_nil, latestCount, Dict.keys,
    List.map_nil, late]

theorem accept_conflict {other : Json} (root : SignedRoot crypto env) (current : SignedRoot crypto other)
    {value held : Json} (named : Dict.get? root.body "root" = some value)
    (rooted : Dict.get? current.body "root" = some held)
    (found : Dict.get? (store.held root.origin) root.count = some other) (differ : ¬Json.pyEq held value)
    (alg : Json.pyEq (fieldOf other "root_alg") (fieldOf env "root_alg")) :
    ∃ evidence reason, store.accept crypto env now =
      .ok ⟨store.addEvidence root.origin evidence, some evidence, .divergence, reason⟩ := by
  obtain ⟨count, present, key⟩ := countKey_of_bind root.counted
  have origin : canonicalNodeId crypto root.pub = root.origin := rfl
  rw [current.field, root.field] at alg
  refine ⟨divergenceEvidence root.origin count other env now, "equivocation at count " ++ pyStr count, ?_⟩
  simp only [ReplicaStore.accept, root.verifies, bind, Except.bind, Bool.not_true, Bool.false_eq_true, if_false,
    subscript_of_readEnvelope root.read, subscript_obj.mpr root.node, originKey, pure, Except.pure,
    subscript_obj.mpr present, subscript_obj.mpr named, key, origin, found, subscript_of_readEnvelope current.read,
    subscript_obj.mpr rooted, differ, dotGet_obj, alg, not_true_eq_false]

theorem storeOf_cases : storeOf crypto env = {} ∨ ∃ root : SignedRoot crypto env,
    (Dict.get? root.body "root").isSome ∧ storeOf crypto env = ({} : ReplicaStore).hold root.origin root.count env := by
  simp only [storeOf, Session.after, Run.run_cons, Run.run_nil, Session.receive, Session.fresh]
  cases answered : ({} : ReplicaStore).accept crypto env .zero with
  | error e => exact .inl rfl
  | ok outcome =>
    simp only [Session.finish]
    cases accept_cases answered with
    | rejected reason => exact .inl rfl
    | duplicate root rooted current held => cases held
    | upgrade root rooted current held => cases held
    | divergence root rooted current held => cases held
    | stale root rooted absent late => exact .inl rfl
    | fresh root rooted => exact .inr ⟨root, rooted, rfl⟩

theorem storeOf_root (root : SignedRoot crypto env) (named : (Dict.get? root.body "root").isSome) :
    storeOf crypto env = ({} : ReplicaStore).hold root.origin root.count env := by
  have stored := @accept_absent crypto env {} .zero root named rfl
  simp only [storeOf, Session.after, Run.run_cons, Run.run_nil, Session.receive, Session.fresh, stored, Session.finish]

theorem held_storeOf {count : Int} {found : Json} :
    Dict.get? ((storeOf crypto env).held origin) count = some found ↔
      found = env ∧ ∃ root, RootAt crypto origin count env root := by
  constructor
  · intro held
    rcases @storeOf_cases crypto env with empty | ⟨root, named, stored⟩
    · rw [empty] at held
      cases held
    · obtain ⟨value, present⟩ := Option.isSome_iff_exists.mp named
      rw [stored] at held
      rcases ReplicaStore.held_hold_cases held with before | ⟨same, filed, counted⟩
      · cases before
      · exact ⟨same, value, root, filed, counted, present⟩
  · intro filed
    obtain ⟨rfl, value, root, rfl, rfl, present⟩ := filed
    rw [storeOf_root root (by rw [present]; rfl)]
    exact ReplicaStore.held_hold_self _ _ _ _

theorem divergence_storeOf : (storeOf crypto env).divergence origin = [] := by
  rcases @storeOf_cases crypto env with empty | ⟨root, _, stored⟩
  · rw [empty]
    rfl
  · rw [stored]
    rfl

variable {envA envB : Json}

theorem after_two : (Session.after crypto [⟨.root envA, .zero, true⟩, ⟨.root envB, .zero, true⟩]).store =
    match (storeOf crypto envA).accept crypto envB .zero with
    | .error _ => storeOf crypto envA
    | .ok outcome => outcome.store := by
  have split : Session.after crypto [⟨.root envA, .zero, true⟩, ⟨.root envB, .zero, true⟩] =
      (Session.after crypto [⟨.root envA, .zero, true⟩]).receive crypto ⟨.root envB, .zero, true⟩ := rfl
  rw [split, Session.receive]
  change Session.store (match (storeOf crypto envA).accept crypto envB .zero with | .error _ => _ | .ok outcome => _) = _
  cases (storeOf crypto envA).accept crypto envB .zero <;> rfl

theorem contradict_of_accuse (accused : RootsAccuse crypto origin envA envB) :
    RootsContradict crypto origin envA envB := by
  rw [RootsAccuse, after_two] at accused
  cases answered : (storeOf crypto envA).accept crypto envB .zero with
  | error e =>
    rw [answered] at accused
    exact absurd divergence_storeOf accused
  | ok outcome =>
    rw [answered] at accused
    have clear : (storeOf crypto envA).divergence origin = [] := divergence_storeOf
    cases accept_cases answered with
    | divergence root named current held differ alg =>
      obtain ⟨rfl, rootA, rooted⟩ := held_storeOf.mp held
      have filed : root.origin = origin := by
        by_contra elsewhere
        rw [ReplicaStore.divergence_addEvidence, if_neg elsewhere] at accused
        exact accused clear
      subst filed
      obtain ⟨value, present⟩ := Option.isSome_iff_exists.mp named
      have filed := rooted
      obtain ⟨first, _, _, firstRoot⟩ := filed
      rw [first.field, firstRoot, root.field, present] at differ
      exact ⟨⟨root.count, rootA, value, rooted, ⟨root, rfl, rfl, present⟩, differ⟩, alg⟩
    | _ => exact absurd clear accused

theorem accuse_of_contradict (contradict : RootsContradict crypto origin envA envB) :
    RootsAccuse crypto origin envA envB := by
  obtain ⟨⟨count, rootA, rootB, first, second, differ⟩, alg⟩ := contradict
  have held := held_storeOf.mpr ⟨rfl, rootA, first⟩
  obtain ⟨signedA, _, _, namedA⟩ := first
  obtain ⟨signedB, rfl, rfl, namedB⟩ := second
  obtain ⟨evidence, reason, answered⟩ := @accept_conflict crypto envB _ .zero _ signedB signedA _ _ namedB namedA held differ alg
  rw [RootsAccuse, after_two, answered, ReplicaStore.divergence_addEvidence, if_pos rfl]
  simp

section Claims

variable (claim : SignedClaim crypto env) {which : Str} {count : Int} {pin root : Json}

theorem checkPin_signed (signed : RootAt crypto claim.origin count pin root)
    (counted : (Dict.get? claim.body (which ++ "_count")).bind asInt? = some count) :
    (∃ reason, checkPin which (.obj claim.body) (some pin) = .ok (some (.inconsistent, reason))) ↔
      PinContradicts claim which count pin := by
  have filed := signed
  obtain ⟨own, sameOrigin, sameCount, named⟩ := filed
  obtain ⟨ownCount, ownPresent, _⟩ := countKey_of_bind own.counted
  obtain ⟨named', present, _⟩ := countKey_of_bind counted
  have ownInt : asInt? ownCount = some count := by simpa [ownPresent, sameCount] using own.counted
  have namedInt : asInt? named' = some count := by simpa [present] using counted
  have sameNode : Json.pyEq (.str (canonicalNodeId crypto own.pub)) (.str (canonicalNodeId crypto claim.pub)) := by
    rw [show canonicalNodeId crypto own.pub = canonicalNodeId crypto claim.pub from sameOrigin]
  have sameCounts : Json.pyEq ownCount named' := (pyEq_asInt ownInt namedInt).mpr rfl
  have alg : fieldOf pin "root_alg" = (Dict.get? own.body "root_alg").getD .null := own.field _
  simp only [checkPin, subscript_of_readEnvelope own.read, dotGet_obj, own.node, Option.getD_some,
    subscript_obj.mpr claim.node, sameNode, not_true_eq_false, if_false, ownPresent, subscript_obj.mpr present,
    sameCounts, named, bind, Except.bind, pure, Except.pure, ← alg]
  by_cases rfc : fieldOf pin "root_alg" = .str "rfc6962"
  · simp only [rfc, ne_eq, not_true_eq_false, if_false]
    cases claimed : subscript (.obj claim.body) (which ++ "_root") with
    | error e =>
      refine iff_of_false (by simp) (fun contradicts => ?_)
      obtain ⟨_, value, _, _, read, _⟩ := contradicts
      rw [subscript_obj.mpr read] at claimed
      cases claimed
    | ok value =>
      have read := subscript_obj.mp claimed
      by_cases same : Json.pyEq root value
      · refine iff_of_false (by simp [same]) (fun contradicts => ?_)
        obtain ⟨other, again, signed', _, reread, differ⟩ := contradicts
        obtain rfl := Option.some.inj (read.symm.trans reread)
        obtain rfl := signed'.unique signed
        exact differ same
      · simp only [same, not_false_eq_true, if_true]
        exact iff_of_true ⟨_, rfl⟩ ⟨root, value, signed, rfc, read, same⟩
  · refine iff_of_false (by simp [rfc]) (fun contradicts => ?_)
    obtain ⟨_, _, _, same, _⟩ := contradicts
    exact rfc same

theorem claimVerdict_inconsistent {oldEnv newEnv : Option Json} {reason : Str}
    (refuted : claimVerdict crypto (.obj claim.body) claim.old claim.new oldEnv newEnv = .ok (.inconsistent, reason)) :
    (∃ reason, checkPin "old" (.obj claim.body) oldEnv = .ok (some (.inconsistent, reason))) ∨
      (∃ reason, checkPin "new" (.obj claim.body) newEnv = .ok (some (.inconsistent, reason))) ∨ ProofFails claim := by
  simp only [claimVerdict, bind, Py.bind_ok] at refuted
  obtain ⟨first, oldPin, refuted⟩ := refuted
  cases first with
  | some answer =>
    obtain rfl := Except.ok.inj refuted
    exact .inl ⟨reason, oldPin⟩
  | none =>
    obtain ⟨second, newPin, refuted⟩ := Py.bind_ok.mp refuted
    cases second with
    | some answer =>
      obtain rfl := Except.ok.inj refuted
      exact .inr (.inl ⟨reason, newPin⟩)
    | none =>
      simp only [Py.bind_ok] at refuted
      obtain ⟨oldRoot, oldRead, newRoot, newRead, proof, proofRead, answer, verified, refuted⟩ := refuted
      cases answer with
      | true => cases refuted
      | false =>
        rw [dotGet_obj, Except.ok.injEq] at proofRead
        subst proofRead
        exact .inr (.inr ⟨oldRoot, newRoot, subscript_obj.mp oldRead, subscript_obj.mp newRead, verified⟩)

theorem refuted_claim {oldEnv newEnv : Option Json} (refuted : Refuted crypto env oldEnv newEnv) :
    Nonempty (SignedClaim crypto env) := by
  obtain ⟨reason, verdict⟩ := refuted
  exact signedClaim_of_verdict verdict (by simp)

theorem refuted_iff {oldEnv newEnv : Option Json} : Refuted crypto env oldEnv newEnv ↔ ∃ reason,
    claimVerdict crypto (.obj claim.body) claim.old claim.new oldEnv newEnv = .ok (.inconsistent, reason) := by
  rw [Refuted, claim.verdict]

theorem refuted_of_old (contradicts : PinContradicts claim "old" claim.old pin) : Refuted crypto env (some pin) none := by
  have filed := contradicts
  obtain ⟨root, _, signed, _⟩ := filed
  obtain ⟨reason, settled⟩ := (checkPin_signed claim signed claim.oldCounted).mpr contradicts
  exact (refuted_iff claim).mpr ⟨reason, by rw [claimVerdict, settled]; rfl⟩

theorem refuted_of_new (contradicts : PinContradicts claim "new" claim.new pin) : Refuted crypto env none (some pin) := by
  have filed := contradicts
  obtain ⟨root, _, signed, _⟩ := filed
  obtain ⟨reason, settled⟩ := (checkPin_signed claim signed claim.newCounted).mpr contradicts
  have unpinned : checkPin "old" (.obj claim.body) none = .ok none := rfl
  exact (refuted_iff claim).mpr ⟨reason, by simp only [claimVerdict, unpinned, settled, bind, Except.bind, pure, Except.pure]⟩

theorem refuted_of_proof (fails : ProofFails claim) : Refuted crypto env none none := by
  obtain ⟨oldRoot, newRoot, oldRead, newRead, verified⟩ := fails
  refine (refuted_iff claim).mpr ⟨"signed consistency proof FAILS verification", ?_⟩
  simp only [claimVerdict, checkPin, subscript_obj.mpr oldRead, subscript_obj.mpr newRead, dotGet_obj, verified, bind,
    Except.bind, pure, Except.pure, Bool.false_eq_true, if_false]

theorem pins_iff {origin : Str} {counted : Option Json} (read : counted.bind asInt? = some count) :
    Pins crypto origin (counted.getD .null) pin ↔ ∃ root, RootAt crypto origin count pin root := by
  rw [← asInt_getD] at read
  rw [Pins, lookupCount_asInt read, Except.ok.injEq, held_storeOf]
  simp

end Claims

theorem fails_of_accuse {old new : Json} (accused : ClaimAccuses crypto origin env old new) :
    ClaimFails crypto origin env old new := by
  obtain ⟨node, ways⟩ := accused
  obtain ⟨claim⟩ : Nonempty (SignedClaim crypto env) := by
    rcases ways with refuted | ⟨_, refuted⟩ | ⟨_, refuted⟩ <;> exact refuted_claim refuted
  rw [claim.field, claim.node] at node
  obtain rfl : claim.origin = origin := Json.str.inj node
  refine ⟨claim, rfl, ?_⟩
  rw [claim.field, claim.field, pins_iff claim.oldCounted, pins_iff claim.newCounted] at ways
  simp only [refuted_iff claim] at ways
  rcases ways with ⟨reason, refuted⟩ | ⟨⟨root, pinned⟩, reason, refuted⟩ | ⟨⟨root, pinned⟩, reason, refuted⟩
  · rcases claimVerdict_inconsistent claim refuted with ⟨_, settled⟩ | ⟨_, settled⟩ | fails
    · cases settled
    · cases settled
    · exact .inr (.inr fails)
  · rcases claimVerdict_inconsistent claim refuted with settled | ⟨_, settled⟩ | fails
    · exact .inl ((checkPin_signed claim pinned claim.oldCounted).mp settled)
    · cases settled
    · exact .inr (.inr fails)
  · rcases claimVerdict_inconsistent claim refuted with ⟨_, settled⟩ | settled | fails
    · cases settled
    · exact .inr (.inl ((checkPin_signed claim pinned claim.newCounted).mp settled))
    · exact .inr (.inr fails)

theorem accuse_of_fails {old new : Json} (fails : ClaimFails crypto origin env old new) :
    ClaimAccuses crypto origin env old new := by
  obtain ⟨claim, rfl, ways⟩ := fails
  refine ⟨by rw [claim.field, claim.node]; rfl, ?_⟩
  rw [claim.field, claim.field, pins_iff claim.oldCounted, pins_iff claim.newCounted]
  rcases ways with contradicts | contradicts | fails
  · have pinned := contradicts
    obtain ⟨root, _, signed, _⟩ := pinned
    exact .inr (.inl ⟨⟨root, signed⟩, refuted_of_old claim contradicts⟩)
  · have pinned := contradicts
    obtain ⟨root, _, signed, _⟩ := pinned
    exact .inr (.inr ⟨⟨root, signed⟩, refuted_of_new claim contradicts⟩)
  · exact .inl (refuted_of_proof claim fails)

theorem recordPasses_iff {i : Int} {record : Json} :
    RecordPasses crypto origin i record ↔ ∃ prev, SignedFrom crypto origin i prev [record] := by
  constructor
  · intro passes
    obtain ⟨pub, prev, owner, verified⟩ := passes
    exact ⟨prev, signedFrom_of_verified owner verified⟩
  · intro signed
    obtain ⟨prev, pub, fields, hash, owner, rfl, node, record, _⟩ := signed
    obtain ⟨index, indexRead, number⟩ := record.index
    obtain ⟨data, text, rfl⟩ := record.hashed
    obtain ⟨bytes, sig, encoded, decoded, verified⟩ := record.signed
    refine ⟨pub, prev, owner, ?_⟩
    simp only [verifyRecords, dotGet_obj, indexRead, Option.getD_some, number, node, record.prevHash, text,
      record.named, encoded, decoded, verified, bind, Except.bind, pure, Except.pure, not_true_eq_false, if_false,
      ne_eq, Bool.not_true, Bool.false_eq_true]

theorem Carries.imp {roots roots' : Str → Json → Json → Prop} {claim claim' : Str → Json → Json → Json → Prop}
    {records records' : Str → Json → Json → Prop} (first : ∀ o a b, roots o a b → roots' o a b)
    (second : ∀ o e a b, claim o e a b → claim' o e a b) (third : ∀ o a b, records o a b → records' o a b) {e : Json}
    (carries : Carries roots claim records e) : Carries roots' claim' records' e := by
  obtain ⟨origin, named, ways⟩ := carries
  refine ⟨origin, named, ?_⟩
  rcases ways with ⟨a, b, readA, readB, held⟩ | ⟨env, old, new, read, oldRead, newRead, held⟩ | ⟨a, b, readA, readB, held⟩
  · exact .inl ⟨a, b, readA, readB, first _ _ _ held⟩
  · exact .inr (.inl ⟨env, old, new, read, oldRead, newRead, second _ _ _ _ held⟩)
  · exact .inr (.inr ⟨a, b, readA, readB, third _ _ _ held⟩)

theorem records_iff {recordA recordB : Json} :
    RecordsAccuse crypto origin recordA recordB ↔ RecordsContradict crypto origin recordA recordB := by
  simp only [RecordsAccuse, RecordsContradict, recordPasses_iff]

theorem selfProving_iff {e : Json} : SelfProving crypto e ↔ Replays crypto e := by
  constructor
  · exact Carries.imp (fun _ _ _ => accuse_of_contradict) (fun _ _ _ _ => accuse_of_fails) (fun _ _ _ => records_iff.mpr)
  · exact Carries.imp (fun _ _ _ => contradict_of_accuse) (fun _ _ _ _ => fails_of_accuse) (fun _ _ _ => records_iff.mp)

def OfKind (kinds : List Str) (e : Json) : Prop := ∃ kind ∈ kinds, dotGet e "kind" = .ok (.str kind)

theorem mem_accused (d : Dict Json (List Json)) (key evidence e : Json) :
    e ∈ (Dict.set d key ((Dict.get? d key).getD [] ++ [evidence])).flatMap (·.2) ↔
      e ∈ d.flatMap (·.2) ∨ e = evidence := by
  induction d with
  | nil => simp [Dict.set]
  | cons head rest ih =>
    obtain ⟨k, filed⟩ := head
    by_cases same : k = key
    · subst same
      simp only [Dict.set, Dict.get?_cons, if_true, Option.getD_some, List.flatMap_cons, List.mem_append,
        List.mem_singleton]
      tauto
    · simp only [Dict.set, Dict.get?_cons, same, if_false, List.flatMap_cons, List.mem_append, ih]
      tauto

theorem mem_loadEntry {after : ReplicaStore} {entry : Json} (read : store.loadEntry crypto entry = .ok after) (e : Json) :
    e ∈ after.divergences ↔ e ∈ store.divergences ∨
      e = entry ∧ OfKind [.ofString "DIVERGENCE_EVIDENCE", .ofString "INCONSISTENCY_EVIDENCE"] entry := by
  simp only [ReplicaStore.loadEntry, bind, Py.bind_ok] at read
  obtain ⟨kind, kindRead, read⟩ := read
  simp only [OfKind, kindRead, Except.ok.injEq, List.mem_cons, List.not_mem_nil, or_false, exists_eq_or_imp,
    exists_eq_left]
  split at read
  · rename_i root
    subst root
    simp only [Py.bind_ok] at read
    obtain ⟨env, _, ⟨ok, reason⟩, _, read⟩ := read
    split at read
    · cases read
    · simp only [Py.bind_ok] at read
      obtain ⟨_, _, _, _, origin, _, count, _, made⟩ := read
      obtain rfl := Except.ok.inj made
      simp [ReplicaStore.divergences, ReplicaStore.hold]
  · split at read
    · rename_i accusing
      simp only [Py.bind_ok] at read
      obtain ⟨_, _, key, _, made⟩ := read
      obtain rfl := Except.ok.inj made
      simp only [accusing, and_true]
      exact mem_accused _ _ _ _
    · rename_i other
      simp only [other, and_false, or_false]
      split at read
      · simp only [Py.bind_ok] at read
        obtain ⟨env, _, ⟨status, why⟩, _, read⟩ := read
        cases status with
        | consistent =>
          simp only [Py.bind_ok] at read
          obtain ⟨_, _, _, _, origin, _, _, _, _, _, made⟩ := read
          obtain rfl := Except.ok.inj made
          rfl
        | inconsistent => cases read
        | rejected => cases read
      · obtain rfl := Except.ok.inj read
        rfl

theorem mem_loadSegment {store after : SegmentStore} {entry : Json} (read : store.loadEntry crypto entry = .ok after)
    (e : Json) : e ∈ after.divergences ↔ e ∈ store.divergences ∨
      e = entry ∧ OfKind [.ofString "SEGMENT_DIVERGENCE"] entry := by
  simp only [SegmentStore.loadEntry, bind, Py.bind_ok] at read
  obtain ⟨kind, kindRead, read⟩ := read
  simp only [OfKind, kindRead, Except.ok.injEq, List.mem_singleton, exists_eq_left]
  split at read
  · rename_i segment
    subst segment
    simp only [Py.bind_ok] at read
    obtain ⟨env, _, ⟨ok, reason⟩, _, read⟩ := read
    split at read
    · cases read
    · simp only [SegmentStore.hold, bind, Py.bind_ok] at read
      obtain ⟨_, _, _, _, _, _, _, _, _, _, held, _, made⟩ := read
      obtain rfl := Except.ok.inj made
      simp [SegmentStore.divergences]
  · split at read
    · rename_i accusing
      simp only [Py.bind_ok] at read
      obtain ⟨_, _, key, _, made⟩ := read
      obtain rfl := Except.ok.inj made
      simp only [accusing, and_true]
      exact mem_accused _ _ _ _
    · rename_i other
      obtain rfl := Except.ok.inj read
      simp [other]

theorem mem_loaded {Store : Type} {load : Store → Json → Py Store} {returned : Store → List Json} {kinds : List Str}
    (one : ∀ store entry after, load store entry = .ok after →
      ∀ e, e ∈ returned after ↔ e ∈ returned store ∨ e = entry ∧ OfKind kinds entry)
    {entries : List Json} {start store : Store} (loaded : entries.foldlM load start = .ok store) (e : Json) :
    e ∈ returned store ↔ e ∈ returned start ∨ e ∈ entries ∧ OfKind kinds e := by
  induction entries generalizing start with
  | nil =>
    obtain rfl := Except.ok.inj loaded
    simp
  | cons entry rest ih =>
    obtain ⟨next, first, later⟩ := Py.bind_ok.mp loaded
    rw [ih later, one _ _ _ first, List.mem_cons]
    constructor
    · intro found
      rcases found with (before | ⟨rfl, accusing⟩) | ⟨member, accusing⟩
      · exact .inl before
      · exact .inr ⟨.inl rfl, accusing⟩
      · exact .inr ⟨.inr member, accusing⟩
    · intro found
      rcases found with before | ⟨rfl | member, accusing⟩
      · exact .inl (.inl before)
      · exact .inl (.inr ⟨rfl, accusing⟩)
      · exact .inr ⟨member, accusing⟩

variable (crypto) in
/-- What the store opened on this file returns proves itself. -/
def Opens.SelfProving {Store Op : Type} (journal : JournaledStore Store Op) (returned : Store → List Json) (path : Str)
    (file : Bytes) : Prop :=
  ∀ store, journal.reopen path file = .ok store → ∀ e ∈ returned store, Replication.SelfProving crypto e

variable (crypto) in
/-- When the file opens, each of its accusing lines would be accused again. -/
def Opens.Replays {Store Op : Type} (journal : JournaledStore Store Op) (kinds : List Str) (path : Str)
    (file : Bytes) : Prop :=
  ∀ entries report, readJournal path file = .ok (entries, report) → (journal.load entries).isOk = true →
    ∀ e ∈ entries, OfKind kinds e → Replication.Replays crypto e

theorem opens_iff {Store Op : Type} {journal : JournaledStore Store Op} {returned : Store → List Json} {kinds : List Str}
    (empty : returned journal.empty = []) (one : ∀ store entry after, journal.loadEntry store entry = .ok after →
      ∀ e, e ∈ returned after ↔ e ∈ returned store ∨ e = entry ∧ OfKind kinds entry) (path : Str) (file : Bytes) :
    Opens.SelfProving crypto journal returned path file ↔ Opens.Replays crypto journal kinds path file := by
  constructor
  · intro proving entries report read opens e member accusing
    obtain ⟨store, loaded⟩ := Py.exists_of_isOk opens
    have opened : journal.reopen path file = .ok store := by
      simp only [JournaledStore.reopen, read, bind, Except.bind, loaded]
    exact selfProving_iff.mp (proving store opened e ((mem_loaded one loaded e).mpr (.inr ⟨member, accusing⟩)))
  · intro replays store opened e returned
    obtain ⟨⟨entries, report⟩, read, loaded⟩ := Py.bind_ok.mp opened
    rcases (mem_loaded one loaded e).mp returned with before | ⟨member, accusing⟩
    · rw [empty] at before
      cases before
    · have opens : journal.load entries = .ok store := loaded
      exact selfProving_iff.mpr (replays entries report read (by rw [opens]; rfl) e member accusing)

variable (crypto) in
/-- The accusations of the two stores prove themselves exactly when each persisted
one would be made again by a store that is given what it carries. -/
theorem stored_accusations_iff (path : Str) (file : Bytes) :
    (Opens.SelfProving crypto (replicaJournal crypto) ReplicaStore.divergences path file ∧
      Opens.SelfProving crypto (segmentJournal crypto) SegmentStore.divergences path file) ↔
    (Opens.Replays crypto (replicaJournal crypto) [.ofString "DIVERGENCE_EVIDENCE", .ofString "INCONSISTENCY_EVIDENCE"]
        path file ∧
      Opens.Replays crypto (segmentJournal crypto) [.ofString "SEGMENT_DIVERGENCE"] path file) := by
  apply and_congr
  · exact opens_iff rfl (fun _ _ _ read => mem_loadEntry read) path file
  · exact opens_iff rfl (fun _ _ _ read => mem_loadSegment read) path file

/-- A journal line that names an origin and carries nothing. -/
def forgedAccusation : Event :=
  ⟨[("kind", .str "DIVERGENCE_EVIDENCE"), ("origin", .str "x")], by decide +kernel⟩

theorem stored_accusation_unproven : ∃ file store, durableAppend [] forgedAccusation.json = .ok file ∧
    (replicaJournal Crypto.sample).reopen "j" file = .ok store ∧
    ∃ e ∈ store.divergences, ¬SelfProving Crypto.sample e := by
  have encodable : (durableAppend [] forgedAccusation.json).isOk = true := by decide +kernel
  obtain ⟨file, written⟩ := Py.exists_of_isOk encodable
  have read := readJournal_holds "j" (Holds.nil.append written) true
  have same : forgedAccusation.json.sortKeys = forgedAccusation.json := by decide +kernel
  simp only [List.nil_append, stored, List.map_cons, List.map_nil, same] at read
  refine ⟨file, ({} : ReplicaStore).accuse (.str "x") forgedAccusation.json, written, ?_, forgedAccusation.json, ?_, ?_⟩
  · simp only [JournaledStore.reopen, read, bind, Except.bind]
    rfl
  · simp [ReplicaStore.divergences, ReplicaStore.accuse, Dict.set]
  · intro proving
    obtain ⟨origin, named, ways⟩ := proving
    rcases ways with ⟨_, _, missing, _⟩ | ⟨_, _, _, missing, _⟩ | ⟨_, _, missing, _⟩ <;> cases missing

variable (crypto) in
/-- Held roots are signed for where they are held, and accusations prove themselves. -/
structure Grounded (store : ReplicaStore) : Prop where
  held : ∀ origin count env, Dict.get? (store.held origin) count = some env → ∃ root, RootAt crypto origin count env root
  proving : ∀ e ∈ store.divergences, SelfProving crypto e

theorem grounded_hold (good : Grounded crypto store) (root : SignedRoot crypto env)
    (named : (Dict.get? root.body "root").isSome) : Grounded crypto (store.hold root.origin root.count env) where
  held := by
    intro other key current found
    obtain ⟨value, present⟩ := Option.isSome_iff_exists.mp named
    rcases ReplicaStore.held_hold_cases found with before | ⟨rfl, rfl, rfl⟩
    · exact good.held other key current before
    · exact ⟨value, root, rfl, rfl, present⟩
  proving := good.proving

theorem grounded_accuse (good : Grounded crypto store) {evidence : Json} (proving : SelfProving crypto evidence) :
    Grounded crypto (store.addEvidence origin evidence) where
  held := good.held
  proving := by
    intro e member
    rcases (mem_accused _ _ _ _).mp member with before | rfl
    · exact good.proving e before
    · exact proving

theorem grounded_accept (good : Grounded crypto store) {outcome : Outcome RootStatus}
    (answered : store.accept crypto env now = .ok outcome) : Grounded crypto outcome.store := by
  cases accept_cases answered with
  | upgrade root named => exact grounded_hold good root named
  | fresh root named => exact grounded_hold good root named
  | divergence root named current held differ alg =>
    obtain ⟨value, present⟩ := Option.isSome_iff_exists.mp named
    obtain ⟨rootA, first⟩ := good.held _ _ _ held
    have filed := first
    obtain ⟨signed, _, _, firstRoot⟩ := filed
    rw [signed.field, firstRoot, root.field, present] at differ
    have contradict : RootsContradict crypto root.origin current env :=
      ⟨⟨root.count, rootA, value, first, ⟨root, rfl, rfl, present⟩, differ⟩, alg⟩
    exact grounded_accuse good ⟨root.origin, rfl, .inl ⟨current, env, rfl, rfl, contradict⟩⟩
  | _ => exact good

theorem contradicts_of_pin (good : Grounded crypto store) (claim : SignedClaim crypto env) {which : Str} {count : Int}
    {reason : Str} (counted : (Dict.get? claim.body (which ++ "_count")).bind asInt? = some count)
    (settled : checkPin which (.obj claim.body) (Dict.get? (store.held claim.origin) count) =
      .ok (some (.inconsistent, reason))) :
    PinContradicts claim which count ((Dict.get? (store.held claim.origin) count).getD .null) := by
  cases held : Dict.get? (store.held claim.origin) count with
  | none =>
    rw [held] at settled
    cases settled
  | some pin =>
    rw [held] at settled
    obtain ⟨root, signed⟩ := good.held _ _ _ held
    exact (checkPin_signed claim signed counted).mp ⟨reason, settled⟩

theorem grounded_record (good : Grounded crypto store) {outcome : Outcome ConsistencyStatus}
    (answered : store.recordConsistency crypto env now = .ok outcome) : Grounded crypto outcome.store := by
  cases record_cases answered with
  | rejected reason => exact good
  | consistent claim reason passed => exact ⟨good.held, good.proving⟩
  | inconsistent claim reason failed evidence detail =>
    have fails : ClaimFails crypto claim.origin env ((Dict.get? (store.held claim.origin) claim.old).getD .null)
        ((Dict.get? (store.held claim.origin) claim.new).getD .null) := by
      refine ⟨claim, rfl, ?_⟩
      rcases claimVerdict_inconsistent claim failed with ⟨_, settled⟩ | ⟨_, settled⟩ | proof
      · exact .inl (contradicts_of_pin good claim claim.oldCounted settled)
      · exact .inr (.inl (contradicts_of_pin good claim claim.newCounted settled))
      · exact .inr (.inr proof)
    refine grounded_accuse good ⟨claim.origin, by rw [detail]; rfl, .inr (.inl ⟨env, _, _, ?_, ?_, ?_, fails⟩)⟩
    · rw [detail]
      rfl
    · rw [detail]
      rfl
    · rw [detail]
      rfl

theorem grounded_receive {session : Session} (good : Grounded crypto session.store) (delivery : Delivery) :
    Grounded crypto (session.receive crypto delivery).store := by
  obtain ⟨message, now, written⟩ := delivery
  cases message with
  | root env =>
    cases answered : session.store.accept crypto env now with
    | error e =>
      simp only [Session.receive, answered]
      exact good
    | ok outcome =>
      simp only [Session.receive, answered, Session.finish]
      exact grounded_accept good answered
  | consistency env =>
    cases answered : session.store.recordConsistency crypto env now with
    | error e =>
      simp only [Session.receive, answered]
      exact good
    | ok outcome =>
      simp only [Session.receive, answered, Session.finish]
      exact grounded_record good answered

variable (crypto) in
/-- What a store accuses in a run proves itself; only a reload can return more. -/
theorem live_accusations_prove (deliveries : List Delivery) :
    ∀ e ∈ (Session.after crypto deliveries).store.divergences, SelfProving crypto e := by
  have start : Grounded crypto Session.fresh.store := by
    constructor
    · intro origin count env found
      cases found
    · intro e member
      cases member
  have kept : ∀ session delivery, Grounded crypto session.store → True →
      Grounded crypto (Session.receive crypto session delivery).store :=
    fun session delivery good _ => grounded_receive good delivery
  exact (@Run.invariant_of_forall _ _ _ _ (fun session : Session => Grounded crypto session.store) _ kept _ start
    (fun _ _ => trivial)).proving

set_option maxRecDepth 4000 in
/-- Two roots of one algorithm at one count. -/
theorem live_accusations_prove_sample : ∃ e ∈ (Session.after Crypto.sample
    [⟨.root (sampleRoot "rfc6962" "aa"), .zero, true⟩, ⟨.root (sampleRoot "rfc6962" "cc"), .zero, true⟩]).store.divergences,
      SelfProving Crypto.sample e := by
  have accused : (Session.after Crypto.sample [⟨.root (sampleRoot "rfc6962" "aa"), .zero, true⟩,
      ⟨.root (sampleRoot "rfc6962" "cc"), .zero, true⟩]).store.divergences ≠ [] := by
    decide
  obtain ⟨e, member⟩ := List.exists_mem_of_ne_nil _ accused
  exact ⟨e, member, live_accusations_prove Crypto.sample _ e member⟩

end JJDai.Replication
