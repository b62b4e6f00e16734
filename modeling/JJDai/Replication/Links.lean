import Mathlib.Data.List.Chain
import Mathlib.Logic.Relation
import JJDai.Replication.Session

/-! When the recorded consistency proofs link every held checkpoint to the newest.
The store asks for the newest link only, and remembers links by their counts. -/

namespace JJDai.Replication

open PyText

abbrev rfc6962 : Json := .str "rfc6962"

/-- The counts of the held RFC 6962 roots, oldest first. -/
def checkpoints (store : ReplicaStore) (origin : Str) : List Int :=
  (((store.held origin).filter (fun entry => fieldOf entry.2 "root_alg" = rfc6962)).map
    Prod.fst).insertionSort (· ≤ ·)

/-- An envelope answered "consistent" whose two roots are the held ones. -/
structure Link (session : Session) (origin : Str) (old new : Int) (env : Json) : Prop where
  answered : .consistency env .consistent ∈ session.answers
  node : fieldOf env "node_id" = .str origin
  oldCount : asInt? (fieldOf env "old_count") = some old
  newCount : asInt? (fieldOf env "new_count") = some new
  oldRoot : ∃ held, Dict.get? (session.store.held origin) old = some held ∧
    Json.pyEq (fieldOf held "root") (fieldOf env "old_root")
  newRoot : ∃ held, Dict.get? (session.store.held origin) new = some held ∧
    Json.pyEq (fieldOf held "root") (fieldOf env "new_root")

/-- When nothing is wanted, a sequence of links leads from every held checkpoint
to the newest. -/
def EveryCheckpointLinked (session : Session) (origin : Str) : Prop :=
  session.store.consistencyWanted origin = .ok none →
    ∀ newest ∈ checkpoints session.store origin,
      (∀ count ∈ checkpoints session.store origin, count ≤ newest) →
      ∀ count ∈ checkpoints session.store origin,
        Relation.ReflTransGen (fun old new => ∃ env, Link session origin old new env) count newest

variable (crypto : Crypto)

/-- Recorded envelopes that name this count name this root. -/
def LinksAgree (session : Session) (origin : Str) (count : Int) (root : Json) : Prop :=
  ∀ env, .consistency env .consistent ∈ session.answers → ∀ claim : SignedClaim crypto env,
    claim.origin = origin →
      (claim.old = count → Json.pyEq root (fieldOf env "old_root")) ∧
      (claim.new = count → Json.pyEq root (fieldOf env "new_root"))

/-- `accept` puts the envelope into the store. -/
def Stores (store : ReplicaStore) (origin : Str) (count : Int) (env : Json) : Prop :=
  match Dict.get? (store.held origin) count with
  | none => latestCount (store.held origin) ≤ count
  | some current => ¬Json.pyEq (fieldOf current "root") (fieldOf env "root") ∧
      ¬Json.pyEq (fieldOf current "root_alg") (fieldOf env "root_alg")

def Proven (store : ReplicaStore) (origin : Str) (counts : List Int) : Prop :=
  counts.IsChain (fun old new => (old, new) ∈ store.pairs origin)

/-- A step that stores a root: it replaces no checkpoint and comes above all of
them, agrees with the links recorded before, and completes the newest link only
over proven older ones. -/
structure RootInOrder (session : Session) (origin : Str) (count : Int) (env : Json) : Prop where
  replaces : ∀ current, Dict.get? (session.store.held origin) count = some current →
    fieldOf current "root_alg" ≠ rfc6962
  newest : fieldOf env "root_alg" = rfc6962 →
    ∀ older ∈ checkpoints session.store origin, older < count
  agrees : fieldOf env "root_alg" = rfc6962 →
    LinksAgree crypto session origin count (fieldOf env "root")
  proven : fieldOf env "root_alg" = rfc6962 →
    ∀ last ∈ (checkpoints session.store origin).getLast?,
      (last, count) ∈ session.store.pairs origin →
        Proven session.store origin (checkpoints session.store origin)

/-- A step that records a link: the older links are recorded before the newest. -/
structure LinkInOrder (session : Session) (origin : Str) (delivery : Delivery) (old new : Int) :
    Prop where
  written : delivery.written = true
  proven : ∀ front, checkpoints session.store origin = front ++ [old, new] →
    Proven session.store origin (front ++ [old])

/-- The condition on one step, for one origin. -/
def InOrder (origin : Str) (session : Session) (delivery : Delivery) : Prop :=
  match delivery.message with
  | .root env => ∀ count, FiledAt crypto origin count env → Stores session.store origin count env →
      RootInOrder crypto session origin count env
  | .consistency env => ∀ claim : SignedClaim crypto env, claim.origin = origin →
      LinkInOrder session origin delivery claim.old claim.new

section Checkpoints

variable {store : ReplicaStore} {origin : Str}

theorem mem_checkpoints (unique : (Dict.keys (store.held origin)).Nodup) {count : Int} :
    count ∈ checkpoints store origin ↔
      ∃ env, Dict.get? (store.held origin) count = some env ∧ fieldOf env "root_alg" = rfc6962 := by
  rw [checkpoints, List.mem_insertionSort, List.mem_map]
  constructor
  · rintro ⟨⟨key, env⟩, member, rfl⟩
    obtain ⟨present, alg⟩ := List.mem_filter.mp member
    exact ⟨env, Dict.get?_of_mem unique present, by simpa using alg⟩
  · rintro ⟨env, found, alg⟩
    exact ⟨(count, env), List.mem_filter.mpr ⟨Dict.mem_of_get? found, by simpa using alg⟩, rfl⟩

theorem checkpoints_sorted (unique : (Dict.keys (store.held origin)).Nodup) :
    (checkpoints store origin).SortedLT := by
  refine List.sortedLT_iff_nodup_and_sortedLE.mpr ⟨?_, List.sortedLE_insertionSort⟩
  rw [checkpoints, (List.perm_insertionSort _ _).nodup_iff]
  exact unique.sublist (List.filter_sublist.map Prod.fst)

theorem rfcCounts_eq {held : Dict Int Json}
    (bodies : ∀ entry ∈ held, ∃ body, subscript entry.2 "body" = .ok (.obj body)) :
    ReplicaStore.rfcCounts held = .ok
      ((held.filter (fun entry => fieldOf entry.2 "root_alg" = rfc6962)).map Prod.fst) := by
  induction held with
  | nil => rfl
  | cons entry rest ih =>
    obtain ⟨count, env⟩ := entry
    simp only [List.mem_cons, forall_eq_or_imp] at bodies
    obtain ⟨⟨body, read⟩, others⟩ := bodies
    have field := fieldOf_of_subscript read "root_alg"
    simp only [ReplicaStore.rfcCounts, read, dotGet_obj, ih others, bind, Except.bind, ← field]
    by_cases alg : fieldOf env "root_alg" = rfc6962
    · rw [if_pos alg, List.filter_cons_of_pos (by simpa using alg)]
      rfl
    · rw [if_neg alg, List.filter_cons_of_neg (by simpa using alg)]
      rfl

theorem consistencyWanted_eq
    (bodies : ∀ entry ∈ store.held origin, ∃ body, subscript entry.2 "body" = .ok (.obj body)) :
    store.consistencyWanted origin = .ok
      (match (checkpoints store origin).reverse with
      | new :: old :: _ => if (old, new) ∈ store.pairs origin then none else some (old, new)
      | _ => none) := by
  simp only [ReplicaStore.consistencyWanted, rfcCounts_eq bodies, bind, Except.bind]
  rw [← checkpoints]
  cases (checkpoints store origin).reverse with
  | nil => rfl
  | cons new rest => cases rest <;> rfl

theorem checkpoints_hold {count : Int} {env : Json}
    (unique : (Dict.keys (store.held origin)).Nodup)
    (replaces : ∀ current, Dict.get? (store.held origin) count = some current →
      fieldOf current "root_alg" ≠ rfc6962)
    (newest : fieldOf env "root_alg" = rfc6962 → ∀ older ∈ checkpoints store origin, older < count) :
    checkpoints (store.hold origin count env) origin =
      checkpoints store origin ++ if fieldOf env "root_alg" = rfc6962 then [count] else [] := by
  have held : (store.hold origin count env).held origin =
      Dict.set (store.held origin) count env := by
    rw [ReplicaStore.held_hold, if_pos rfl]
  have unique' : (Dict.keys ((store.hold origin count env).held origin)).Nodup := by
    rw [held]; exact Dict.nodup_set unique count env
  have members : ∀ other, other ∈ checkpoints (store.hold origin count env) origin ↔
      other ∈ checkpoints store origin ∨ fieldOf env "root_alg" = rfc6962 ∧ other = count := by
    intro other
    rw [mem_checkpoints unique', mem_checkpoints unique, held]
    by_cases same : count = other
    · subst same
      rw [Dict.get?_set_self]
      constructor
      · rintro ⟨_, same, alg⟩
        exact .inr ⟨Option.some.inj same ▸ alg, rfl⟩
      · rintro (⟨current, found, alg⟩ | ⟨alg, _⟩)
        · exact absurd alg (replaces current found)
        · exact ⟨env, rfl, alg⟩
    · rw [Dict.get?_set_ne _ same]
      simp [Ne.symm same]
  apply (checkpoints_sorted unique').eq_of_mem_iff
  · split
    · rename_i alg
      refine List.Pairwise.sortedLT (List.pairwise_append.mpr
        ⟨(checkpoints_sorted unique).pairwise, List.pairwise_singleton _ _, ?_⟩)
      intro older member last single
      rw [List.mem_singleton.mp single]
      exact newest alg older member
    · rw [List.append_nil]
      exact checkpoints_sorted unique
  · intro other
    rw [members other]
    by_cases alg : fieldOf env "root_alg" = rfc6962 <;> simp [alg]

end Checkpoints

variable {crypto} {origin : Str} {env : Json}

theorem SignedClaim.unique (a b : SignedClaim crypto env) :
    a.origin = b.origin ∧ a.old = b.old ∧ a.new = b.new := by
  have same := Except.ok.inj (a.read.symm.trans b.read)
  simp only [Prod.mk.injEq, Json.obj.injEq] at same
  obtain ⟨body, pub, _⟩ := same
  refine ⟨by rw [SignedClaim.origin, SignedClaim.origin, pub], ?_, ?_⟩
  · have counted := a.oldCounted
    rw [body, b.oldCounted] at counted
    exact (Option.some.inj counted).symm
  · have counted := a.newCounted
    rw [body, b.newCounted] at counted
    exact (Option.some.inj counted).symm

variable (crypto) in
/-- Recorded pairs come from recorded envelopes, these agree with what is held, and
the newest link is proven after the others. -/
structure LinkedSession (origin : Str) (session : Session) : Prop where
  unique : (Dict.keys (session.store.held origin)).Nodup
  filed : ∀ count current, Dict.get? (session.store.held origin) count = some current →
    FiledAt crypto origin count current
  recorded : ∀ old new, (old, new) ∈ session.store.pairs origin →
    ∃ env, .consistency env .consistent ∈ session.answers ∧
      ∃ claim : SignedClaim crypto env, claim.origin = origin ∧ claim.old = old ∧ claim.new = new
  agrees : ∀ count current, Dict.get? (session.store.held origin) count = some current →
    fieldOf current "root_alg" = rfc6962 →
      LinksAgree crypto session origin count (fieldOf current "root")
  proven : ∀ front old new, checkpoints session.store origin = front ++ [old, new] →
    (old, new) ∈ session.store.pairs origin → Proven session.store origin (front ++ [old])

theorem LinkedSession.every_linked {session : Session} (good : LinkedSession crypto origin session) :
    EveryCheckpointLinked session origin := by
  intro settled newest newestMember newestMax count member
  have bodies : ∀ entry ∈ session.store.held origin,
      ∃ body, subscript entry.2 "body" = .ok (.obj body) := by
    intro entry present
    obtain ⟨root, _⟩ := good.filed _ _ (Dict.get?_of_mem good.unique present)
    exact ⟨root.body, subscript_of_readEnvelope root.read⟩
  have chain : Proven session.store origin (checkpoints session.store origin) := by
    rcases List.eq_nil_or_concat (checkpoints session.store origin) with empty | ⟨front, new, ends⟩
    · rw [empty]; exact .nil
    · rw [List.concat_eq_append] at ends
      rcases List.eq_nil_or_concat front with rfl | ⟨front, old, rfl⟩
      · rw [ends]; exact .singleton _
      · rw [List.concat_eq_append, List.append_assoc] at ends
        have pair : (old, new) ∈ session.store.pairs origin := by
          by_contra missing
          rw [consistencyWanted_eq bodies, ends] at settled
          simp [missing] at settled
        rw [ends]
        exact List.isChain_split.mpr ⟨good.proven front old new ends pair,
          List.isChain_pair.mpr pair⟩
  -- Every recorded pair of held checkpoints is a link.
  have links : (checkpoints session.store origin).IsChain
      (fun old new => ∃ env, Link session origin old new env) := by
    refine chain.imp_of_mem_imp ?_
    intro old new oldMember newMember pair
    obtain ⟨oldEnv, oldHeld, oldAlg⟩ := (mem_checkpoints good.unique).mp oldMember
    obtain ⟨newEnv, newHeld, newAlg⟩ := (mem_checkpoints good.unique).mp newMember
    obtain ⟨env, answered, claim, node, oldCount, newCount⟩ := good.recorded old new pair
    have oldAgrees := (good.agrees old oldEnv oldHeld oldAlg env answered claim node).1 oldCount
    have newAgrees := (good.agrees new newEnv newHeld newAlg env answered claim node).2 newCount
    refine ⟨env, answered, ?_, ?_, ?_, ⟨oldEnv, oldHeld, oldAgrees⟩, ⟨newEnv, newHeld, newAgrees⟩⟩
    · rw [claim.field, claim.node, ← node]
      rfl
    · rw [claim.field, asInt_getD, claim.oldCounted, oldCount]
    · rw [claim.field, asInt_getD, claim.newCounted, newCount]
  obtain ⟨before, later, split⟩ := List.append_of_mem member
  rw [split] at links
  refine List.relationReflTransGen_of_exists_isChain_cons later (List.IsChain.right_of_append links) ?_
  have last : (count :: later).getLast (List.cons_ne_nil _ _) ∈ checkpoints session.store origin := by
    rw [split]
    exact List.mem_append_right _ (List.getLast_mem _)
  refine le_antisymm (newestMax _ last) ?_
  have below := (checkpoints_sorted good.unique).sortedLE.pairwise.rel_getLast newestMember
  simpa only [split, List.getLast_append_of_ne_nil _ (List.cons_ne_nil count later)] using below

private theorem root_answer {session : Session} {outcome : Outcome RootStatus} {sent : Json}
    {weighed : List Json} {written : Bool} {given : Json} :
    .consistency given .consistent ∈
        (session.finish outcome (.root sent outcome.status) weighed written).answers ↔
      .consistency given .consistent ∈ session.answers := by
  simp only [Session.finish]
  split <;> simp

theorem linked_hold {session : Session} (good : LinkedSession crypto origin session)
    (root : SignedRoot crypto env)
    (order : ∀ count, FiledAt crypto origin count env → Stores session.store origin count env →
      RootInOrder crypto session origin count env)
    (stores : Stores session.store root.origin root.count env) (reason : Str) (line : Option Json)
    (status : RootStatus) (weighed : List Json) (written : Bool) :
    LinkedSession crypto origin (session.finish ⟨session.store.hold root.origin root.count env, line,
      status, reason⟩ (.root env status) weighed written) := by
  by_cases same : root.origin = origin
  · subst same
    have inOrder := order root.count root.filed stores
    have after := checkpoints_hold good.unique inOrder.replaces inOrder.newest
    have heldKeys : (Dict.keys ((session.store.hold root.origin root.count env).held
        root.origin)).Nodup := by
      rw [ReplicaStore.held_hold, if_pos rfl]
      exact Dict.nodup_set good.unique _ _
    refine ⟨heldKeys, ?_, ?_, ?_, ?_⟩
    · intro count current found
      rcases ReplicaStore.held_hold_cases found with old | ⟨rfl, _, rfl⟩
      · exact good.filed count current old
      · exact root.filed
    · intro old new pair
      obtain ⟨other, answered, claim⟩ := good.recorded old new pair
      exact ⟨other, root_answer.mpr answered, claim⟩
    · intro count current found alg other answered claim node
      have known := root_answer.mp answered
      rcases ReplicaStore.held_hold_cases found with old | ⟨rfl, _, rfl⟩
      · exact good.agrees count current old alg other known claim node
      · exact inOrder.agrees alg other known claim node
    · intro front old new ends pair
      have ends' : checkpoints session.store root.origin ++
          (if fieldOf env "root_alg" = rfc6962 then [root.count] else []) = front ++ [old, new] :=
        after.symm.trans ends
      by_cases alg : fieldOf env "root_alg" = rfc6962
      · have shape : front ++ [old, new] = (front ++ [old]) ++ [new] := by simp
        rw [if_pos alg, shape] at ends'
        obtain ⟨older, newest⟩ := List.append_inj' ends' rfl
        obtain rfl := List.singleton_inj.mp newest
        have proven := inOrder.proven alg old (by simp [older]) pair
        rw [older] at proven
        exact proven
      · rw [if_neg alg, List.append_nil] at ends'
        exact good.proven front old new ends' pair
  · have held : (session.store.hold root.origin root.count env).held origin =
        session.store.held origin := by rw [ReplicaStore.held_hold, if_neg same]
    have counts : checkpoints (session.store.hold root.origin root.count env) origin =
        checkpoints session.store origin := by rw [checkpoints, checkpoints, held]
    refine ⟨held ▸ good.unique, ?_, ?_, ?_, ?_⟩
    · intro count current found
      exact good.filed count current (held ▸ found)
    · intro old new pair
      obtain ⟨other, answered, claim⟩ := good.recorded old new pair
      exact ⟨other, root_answer.mpr answered, claim⟩
    · intro count current found alg other answered claim node
      exact good.agrees count current (held ▸ found) alg other (root_answer.mp answered) claim node
    · intro front old new ends pair
      exact good.proven front old new (counts ▸ ends) pair

theorem linked_same {session : Session} (good : LinkedSession crypto origin session)
    {outcome : Outcome RootStatus} (held : outcome.store.held origin = session.store.held origin)
    (pairs : outcome.store.pairs origin = session.store.pairs origin) (weighed : List Json)
    (written : Bool) :
    LinkedSession crypto origin
      (session.finish outcome (.root env outcome.status) weighed written) := by
  have counts : checkpoints outcome.store origin = checkpoints session.store origin := by
    rw [checkpoints, checkpoints, held]
  refine ⟨held ▸ good.unique, ?_, ?_, ?_, ?_⟩
  · intro count current found
    exact good.filed count current (held ▸ found)
  · intro old new pair
    obtain ⟨other, answered, claim⟩ := good.recorded old new (pairs ▸ pair)
    exact ⟨other, root_answer.mpr answered, claim⟩
  · intro count current found alg other answered claim node
    exact good.agrees count current (held ▸ found) alg other (root_answer.mp answered) claim node
  · intro front old new ends pair
    have proven := good.proven front old new (counts ▸ ends) (pairs ▸ pair)
    rw [Proven, ← pairs] at proven
    exact proven

theorem linked_accept {session : Session} {now : PyFloat} {outcome : Outcome RootStatus}
    (good : LinkedSession crypto origin session)
    (order : ∀ count, FiledAt crypto origin count env → Stores session.store origin count env →
      RootInOrder crypto session origin count env)
    (answered : Accepts crypto session.store env now outcome) (weighed : List Json)
    (written : Bool) :
    LinkedSession crypto origin
      (session.finish outcome (.root env outcome.status) weighed written) := by
  cases answered with
  | rejected reason => exact linked_same good rfl rfl weighed written
  | duplicate root rooted current held same => exact linked_same good rfl rfl weighed written
  | stale root rooted absent late reason => exact linked_same good rfl rfl weighed written
  | divergence root rooted current held other alg => exact linked_same good rfl rfl weighed written
  | upgrade root rooted current held other alg =>
    refine linked_hold good root order ?_ _ _ _ weighed written
    rw [Stores, held]
    exact ⟨other, alg⟩
  | fresh root rooted absent newest =>
    refine linked_hold good root order ?_ _ _ _ weighed written
    rw [Stores, absent]
    exact newest

theorem linked_other {session : Session} (good : LinkedSession crypto origin session)
    {outcome : Outcome ConsistencyStatus} {weighed : List Json} {written : Bool}
    (held : outcome.store.held origin = session.store.held origin)
    (pairs : outcome.store.pairs origin = session.store.pairs origin)
    (other : outcome.status = .consistent → ∀ claim : SignedClaim crypto env, claim.origin ≠ origin) :
    LinkedSession crypto origin
      (session.finish outcome (.consistency env outcome.status) weighed written) := by
  have counts : checkpoints outcome.store origin = checkpoints session.store origin := by
    rw [checkpoints, checkpoints, held]
  refine ⟨held ▸ good.unique, ?_, ?_, ?_, ?_⟩
  · intro count current found
    exact good.filed count current (held ▸ found)
  · intro old new pair
    obtain ⟨known, answered, claim⟩ := good.recorded old new (pairs ▸ pair)
    refine ⟨known, ?_, claim⟩
    simp only [Session.finish]
    split
    · exact List.mem_append_left _ answered
    · exact answered
  · intro count current found alg given answered claim node
    rcases Session.mem_finish answered with known | new
    · exact good.agrees count current (held ▸ found) alg given known claim node
    · obtain ⟨rfl, status⟩ := Answer.consistency.inj new
      exact absurd node (other status.symm claim)
  · intro front old new ends pair
    have proven := good.proven front old new (counts ▸ ends) (pairs ▸ pair)
    rw [Proven, ← pairs] at proven
    exact proven

theorem linked_recorded {session : Session} (good : LinkedSession crypto origin session)
    (claim : SignedClaim crypto env) (node : claim.origin = origin) {reason : Str}
    (passed : claimVerdict crypto (.obj claim.body) claim.old claim.new
      (Dict.get? (session.store.held claim.origin) claim.old)
      (Dict.get? (session.store.held claim.origin) claim.new) = .ok (.consistent, reason))
    (older : ∀ front, checkpoints session.store origin = front ++ [claim.old, claim.new] →
      Proven session.store origin (front ++ [claim.old])) (line : Json) (weighed : List Json) :
    LinkedSession crypto origin (session.finish
      ⟨session.store.addPair claim.origin claim.old claim.new, some line, ConsistencyStatus.consistent, reason⟩
      (.consistency env .consistent) weighed true) := by
  subst node
  obtain ⟨oldPin, newPin, _⟩ := claimVerdict_consistent passed
  have pinned {which : Str} {count : Int} {current : Json}
      (pin : checkPin which (.obj claim.body) (Dict.get? (session.store.held claim.origin) count) =
        .ok none)
      (found : Dict.get? (session.store.held claim.origin) count = some current) :
      Json.pyEq (fieldOf current "root") (fieldOf env (which ++ "_root")) := by
    rw [found] at pin
    obtain ⟨pb, value, read, _, claimed, equal⟩ := checkPin_passes pin
    rw [fieldOf_of_subscript read, claim.field, claimed]
    exact equal
  have grows : ∀ pair ∈ session.store.pairs claim.origin,
      pair ∈ (session.store.addPair claim.origin claim.old claim.new).pairs claim.origin := by
    intro pair member
    rw [ReplicaStore.pairs_addPair, if_pos rfl]
    exact List.mem_insert_of_mem member
  have step (old new : Int)
      (pair : (old, new) ∈ (session.store.addPair claim.origin claim.old claim.new).pairs
        claim.origin) :
      old = claim.old ∧ new = claim.new ∨ (old, new) ∈ session.store.pairs claim.origin := by
    rw [ReplicaStore.pairs_addPair, if_pos rfl, List.mem_insert_iff] at pair
    exact pair.imp_left Prod.mk.inj
  have answers : ∀ given, given ∈ (session.finish
      ⟨session.store.addPair claim.origin claim.old claim.new, some line, ConsistencyStatus.consistent, reason⟩
      (.consistency env .consistent) weighed true).answers ↔
        given ∈ session.answers ∨ given = .consistency env .consistent := by
    intro given
    simp [Session.finish]
  refine ⟨good.unique, good.filed, ?_, ?_, ?_⟩
  · intro old new pair
    rcases step old new pair with ⟨rfl, rfl⟩ | known
    · exact ⟨env, (answers _).mpr (.inr rfl), claim, rfl, rfl, rfl⟩
    · obtain ⟨other, answered, rest⟩ := good.recorded old new known
      exact ⟨other, (answers _).mpr (.inl answered), rest⟩
  · intro count current found alg given answered other node
    rcases (answers _).mp answered with known | new
    · exact good.agrees count current found alg given known other node
    · obtain ⟨rfl, _⟩ := Answer.consistency.inj new
      obtain ⟨_, oldSame, newSame⟩ := other.unique claim
      constructor
      · intro counts
        exact pinned oldPin (by rw [← oldSame, counts]; exact found)
      · intro counts
        exact pinned newPin (by rw [← newSame, counts]; exact found)
  · intro front old new ends pair
    have proven : Proven session.store claim.origin (front ++ [old]) := by
      rcases step old new pair with ⟨rfl, rfl⟩ | known
      · exact older front ends
      · exact good.proven front old new ends known
    exact proven.imp (fun _ _ => grows _)

theorem linked_record {session : Session} {delivery : Delivery} {now : PyFloat}
    {outcome : Outcome ConsistencyStatus} (good : LinkedSession crypto origin session)
    (order : ∀ claim : SignedClaim crypto env, claim.origin = origin →
      LinkInOrder session origin delivery claim.old claim.new)
    (answered : Records crypto session.store env now outcome) (weighed : List Json) :
    LinkedSession crypto origin
      (session.finish outcome (.consistency env outcome.status) weighed delivery.written) := by
  cases answered with
  | rejected reason => exact linked_other good rfl rfl (fun status => by cases status)
  | inconsistent claim reason failed evidence detail =>
    exact linked_other good rfl rfl (fun status => by cases status)
  | consistent claim reason passed =>
    by_cases node : claim.origin = origin
    · have inOrder := order claim node
      rw [inOrder.written]
      exact linked_recorded good claim node passed inOrder.proven _ weighed
    · refine linked_other good rfl ?_ ?_
      · rw [ReplicaStore.pairs_addPair, if_neg node]
      · intro _ other same
        exact node ((other.unique claim).1 ▸ same)

theorem linked_receive (session : Session) (delivery : Delivery)
    (good : LinkedSession crypto origin session) (order : InOrder crypto origin session delivery) :
    LinkedSession crypto origin (session.receive crypto delivery) := by
  obtain ⟨message, now, written⟩ := delivery
  cases message with
  | root env =>
    cases answered : session.store.accept crypto env now with
    | error e => simpa [Session.receive, answered] using good
    | ok outcome =>
      simp only [Session.receive, answered]
      exact linked_accept good order (accept_cases answered) _ written
  | consistency env =>
    cases answered : session.store.recordConsistency crypto env now with
    | error e => simpa [Session.receive, answered] using good
    | ok outcome =>
      simp only [Session.receive, answered]
      exact linked_record good order (record_cases answered) _

def honestChain (count : Nat) : WitnessChain where
  sk := .sample 1
  records := (List.range count).map (fun i => .obj [("this_hash", .str (natText i))])

def honestOrigin : Str := (honestChain 0).nodeId Crypto.sample

private def made : Py Json → Json
  | .ok env => env
  | .error _ => .null

def honestRoot (count : Nat) : Json :=
  made (makeSignedRoot Crypto.sample (honestChain count) (.sample 1) .zero)

def honestLink (old new : Nat) : Json :=
  made (makeConsistency Crypto.sample (honestChain new) (.sample 1) old .zero)

def linkedRun : List Delivery :=
  [⟨.root (honestRoot 1), .zero, true⟩, ⟨.root (honestRoot 2), .zero, true⟩,
    ⟨.consistency (honestLink 1 2), .zero, true⟩]

/-- Three roots, and a link between the newest two only. -/
def unlinkedRun : List Delivery :=
  [⟨.root (honestRoot 1), .zero, true⟩, ⟨.root (honestRoot 2), .zero, true⟩,
    ⟨.root (honestRoot 3), .zero, true⟩, ⟨.consistency (honestLink 2 3), .zero, true⟩]

end JJDai.Replication
