import JJDai.Lib.Run
import JJDai.Replication.Store

/-! The ways a store answers one envelope, and runs of deliveries to it. -/

namespace JJDai.Replication

open PyText Canonical Merkle

/-- A field of the body of an envelope, `null` when it has none. -/
def fieldOf (env : Json) (key : Str) : Json :=
  match env with
  | .obj fields =>
    match Dict.get? fields "body" with
    | some (.obj body) => (Dict.get? body key).getD .null
    | _ => .null
  | _ => .null

theorem fieldOf_of_subscript {env : Json} {body : Dict Str Json}
    (read : subscript env "body" = .ok (.obj body)) (key : Str) :
    fieldOf env key = (Dict.get? body key).getD .null := by
  cases env with
  | obj fields => simp only [fieldOf, subscript_obj.mp read]
  | _ => cases read

theorem subscript_of_readEnvelope {env body : Json} {pub sig : Bytes}
    (read : readEnvelope env = .ok (body, pub, sig)) : subscript env "body" = .ok body := by
  simp only [readEnvelope, bind, Py.bind_ok] at read
  obtain ⟨body', found, _, _, _, _, _, _, _, _, same⟩ := read
  obtain ⟨rfl, _⟩ := Prod.mk.inj (Except.ok.inj same)
  exact found

variable {crypto : Crypto} {env : Json}

theorem readEnvelope_seal {sk : SigningKey} {domain : Bytes} {body : Json}
    (made : sealEnvelope crypto sk domain body = .ok env) :
    ∃ data, canonical body = .ok data ∧
      readEnvelope env = .ok (body, sk.publicKey crypto, sk.sign crypto (domain ++ data)) := by
  simp only [sealEnvelope, bind, Py.bind_ok] at made
  obtain ⟨data, text, made⟩ := made
  obtain rfl := Except.ok.inj made
  exact ⟨data, text, by simp [readEnvelope, subscript, bytesFromHex_toHex, bind, Except.bind,
    pure, Except.pure]⟩

theorem SignedRoot.field (root : SignedRoot crypto env) (key : Str) :
    fieldOf env key = (Dict.get? root.body key).getD .null :=
  fieldOf_of_subscript (subscript_of_readEnvelope root.read) key

theorem SignedClaim.field (claim : SignedClaim crypto env) (key : Str) :
    fieldOf env key = (Dict.get? claim.body key).getD .null :=
  fieldOf_of_subscript (subscript_of_readEnvelope claim.read) key

theorem countKey_of_bind {value : Option Json} {count : Int}
    (counted : value.bind asInt? = some count) : ∃ j, value = some j ∧ countKey j = count := by
  obtain ⟨j, rfl, read⟩ := Option.bind_eq_some_iff.mp counted
  exact ⟨j, rfl, by rw [countKey, read]; rfl⟩

variable (crypto)

/-- The ways `accept` answers. A verified envelope is compared with the one held
at its count, and stored when there is none and its count is not stale. -/
inductive Accepts (store : ReplicaStore) (env : Json) (now : PyFloat) : Outcome RootStatus → Prop
  | rejected (reason : Str) : Accepts store env now ⟨store, none, .rejected, reason⟩
  | duplicate (root : SignedRoot crypto env) (rooted : (Dict.get? root.body "root").isSome)
      (current : Json) (held : Dict.get? (store.held root.origin) root.count = some current)
      (same : Json.pyEq (fieldOf current "root") (fieldOf env "root")) :
      Accepts store env now ⟨store, none, .duplicate, "already held"⟩
  | upgrade (root : SignedRoot crypto env) (rooted : (Dict.get? root.body "root").isSome)
      (current : Json) (held : Dict.get? (store.held root.origin) root.count = some current)
      (other : ¬Json.pyEq (fieldOf current "root") (fieldOf env "root"))
      (alg : ¬Json.pyEq (fieldOf current "root_alg") (fieldOf env "root_alg")) :
      Accepts store env now ⟨store.hold root.origin root.count env, some (rootLine env), .stored,
        "alg upgrade at same count (not divergence)"⟩
  | divergence (root : SignedRoot crypto env) (rooted : (Dict.get? root.body "root").isSome)
      (current : Json) (held : Dict.get? (store.held root.origin) root.count = some current)
      (other : ¬Json.pyEq (fieldOf current "root") (fieldOf env "root"))
      (alg : Json.pyEq (fieldOf current "root_alg") (fieldOf env "root_alg")) :
      Accepts store env now ⟨store.addEvidence root.origin
          (divergenceEvidence root.origin (fieldOf env "count") current env now),
        some (divergenceEvidence root.origin (fieldOf env "count") current env now), .divergence,
        "equivocation at count " ++ pyStr (fieldOf env "count")⟩
  | stale (root : SignedRoot crypto env) (rooted : (Dict.get? root.body "root").isSome)
      (absent : Dict.get? (store.held root.origin) root.count = none)
      (late : root.count < latestCount (store.held root.origin)) (reason : Str) :
      Accepts store env now ⟨store, none, .stale, reason⟩
  | fresh (root : SignedRoot crypto env) (rooted : (Dict.get? root.body "root").isSome)
      (absent : Dict.get? (store.held root.origin) root.count = none)
      (newest : latestCount (store.held root.origin) ≤ root.count) :
      Accepts store env now ⟨store.hold root.origin root.count env, some (rootLine env), .stored,
        "ok"⟩

inductive Records (store : ReplicaStore) (env : Json) (now : PyFloat) :
    Outcome ConsistencyStatus → Prop
  | rejected (reason : Str) : Records store env now ⟨store, none, .rejected, reason⟩
  | consistent (claim : SignedClaim crypto env) (reason : Str)
      (passed : claimVerdict crypto (.obj claim.body) claim.old claim.new
        (Dict.get? (store.held claim.origin) claim.old)
        (Dict.get? (store.held claim.origin) claim.new) = .ok (.consistent, reason)) :
      Records store env now ⟨store.addPair claim.origin claim.old claim.new,
        some (consistencyLine env), .consistent, reason⟩
  | inconsistent (claim : SignedClaim crypto env) (reason : Str)
      (failed : claimVerdict crypto (.obj claim.body) claim.old claim.new
        (Dict.get? (store.held claim.origin) claim.old)
        (Dict.get? (store.held claim.origin) claim.new) = .ok (.inconsistent, reason))
      (evidence : Json) (detail : evidence = inconsistencyEvidence (.str claim.origin) env reason
        (Dict.get? (store.held claim.origin) claim.old)
        (Dict.get? (store.held claim.origin) claim.new) now) :
      Records store env now ⟨store.addEvidence claim.origin evidence, some evidence, .inconsistent,
        reason⟩

variable {crypto} {store : ReplicaStore} {now : PyFloat}

theorem accept_cases {outcome : Outcome RootStatus}
    (answered : store.accept crypto env now = .ok outcome) :
    Accepts crypto store env now outcome := by
  simp only [ReplicaStore.accept, bind, Py.bind_ok] at answered
  obtain ⟨⟨ok, reason⟩, verified, answered⟩ := answered
  cases ok with
  | false =>
    obtain rfl := Except.ok.inj answered
    exact .rejected reason
  | true =>
    obtain ⟨root⟩ := signedRoot_of_verifies verified
    obtain ⟨count, present, key⟩ := countKey_of_bind root.counted
    simp only [Bool.not_true, Bool.false_eq_true, if_false, Py.bind_ok,
      subscript_of_readEnvelope root.read, Except.ok.injEq, exists_eq_left', subscript_obj,
      root.node, present, Option.some.injEq, originKey, pure, Except.pure] at answered
    obtain ⟨value, rooted, answered⟩ := answered
    have rootField : fieldOf env "root" = value := by rw [root.field, rooted]; rfl
    have countField : fieldOf env "count" = count := by rw [root.field, present]; rfl
    have someRoot : (Dict.get? root.body "root").isSome := by rw [rooted]; rfl
    rw [key] at answered
    have origin : canonicalNodeId crypto root.pub = root.origin := rfl
    rw [origin] at answered
    split at answered
    · rename_i current held
      obtain ⟨cb, read, currentRoot, rootRead, answered⟩ := by
        simpa only [Py.bind_ok] using answered
      obtain ⟨cb, rfl⟩ := obj_of_subscript rootRead
      have field : fieldOf current "root" = currentRoot := by
        rw [fieldOf_of_subscript read, subscript_obj.mp rootRead]; rfl
      have alg : fieldOf current "root_alg" = (Dict.get? cb "root_alg").getD .null :=
        fieldOf_of_subscript read _
      rw [← field, ← rootField] at answered
      split at answered
      · rename_i same
        obtain rfl := Except.ok.inj answered
        exact .duplicate root someRoot current held same
      · rename_i other
        simp only [dotGet_obj, Except.bind, ← alg, ← root.field] at answered
        split at answered
        · rename_i different
          obtain rfl := Except.ok.inj answered
          exact .upgrade root someRoot current held other different
        · rename_i same
          obtain rfl := Except.ok.inj answered
          rw [← countField]
          exact .divergence root someRoot current held other (not_not.mp same)
    · rename_i absent
      split at answered
      · rename_i late
        obtain rfl := Except.ok.inj answered
        exact .stale root someRoot absent late _
      · rename_i newest
        obtain rfl := Except.ok.inj answered
        exact .fresh root someRoot absent (not_lt.mp newest)

theorem truthy_of_get? {fields : Dict Str Json} {key : Str} {value : Json}
    (found : Dict.get? fields key = some value) : truthy (.obj fields) = true := by
  cases fields with
  | nil => cases found
  | cons head rest => simp [truthy]

theorem lookupCount_asInt {held : Dict Int Json} {j : Json} {count : Int}
    (read : asInt? j = some count) : lookupCount held j = .ok (Dict.get? held count) := by
  cases j with
  | int value => simp_all [lookupCount, countKey, asInt?, pure, Except.pure]
  | bool value => simp_all [lookupCount, countKey, asInt?, pure, Except.pure]
  | _ => cases read

theorem record_cases {outcome : Outcome ConsistencyStatus}
    (answered : store.recordConsistency crypto env now = .ok outcome) :
    Records crypto store env now outcome := by
  simp only [ReplicaStore.recordConsistency, bind, Py.bind_ok] at answered
  obtain ⟨body, bodyRead, origin, originRead, held, heldRead, old, oldRead, oldEnv, oldFound, new,
    newRead, newEnv, newFound, ⟨status, reason⟩, verdict, answered⟩ := answered
  by_cases weighed : status = .rejected
  · subst weighed
    obtain rfl := Except.ok.inj answered
    exact .rejected reason
  · obtain ⟨claim⟩ := signedClaim_of_verdict verdict weighed
    rw [claim.verdict] at verdict
    have bodyEq : body = .obj claim.body := by
      have found := subscript_of_readEnvelope claim.read
      obtain ⟨fields, rfl⟩ := obj_of_subscript found
      have present := subscript_obj.mp found
      rw [orDict, if_pos (truthy_of_get? present), dotGet_obj, present] at bodyRead
      exact (Except.ok.inj bodyRead).symm
    have dict : orDict body = .obj claim.body := by
      rw [bodyEq, orDict, if_pos (truthy_of_get? claim.kind)]
    obtain ⟨oldCount, oldPresent, oldKey⟩ := countKey_of_bind claim.oldCounted
    obtain ⟨newCount, newPresent, newKey⟩ := countKey_of_bind claim.newCounted
    have oldInt : asInt? oldCount = some claim.old := by
      simpa [oldPresent] using claim.oldCounted
    have newInt : asInt? newCount = some claim.new := by
      simpa [newPresent] using claim.newCounted
    rw [dict] at originRead oldRead newRead answered
    simp only [dotGet_obj, claim.node, oldPresent, newPresent, Option.getD_some,
      Except.ok.injEq] at originRead oldRead newRead
    subst originRead oldRead newRead
    obtain rfl := Except.ok.inj heldRead
    have oldEq := Except.ok.inj (oldFound.symm.trans (lookupCount_asInt oldInt))
    have newEq := Except.ok.inj (newFound.symm.trans (lookupCount_asInt newInt))
    subst oldEq newEq
    cases status with
    | rejected => exact absurd rfl weighed
    | consistent =>
      simp only [originKey, pure, Except.pure, Py.bind_ok, Except.ok.injEq, exists_eq_left',
        subscript_obj, oldPresent, newPresent, Option.some.injEq, oldKey, newKey] at answered
      subst answered
      exact .consistent claim reason verdict
    | inconsistent =>
      obtain rfl := Except.ok.inj answered
      exact .inconsistent claim reason verdict _ rfl

theorem record_consistent (claim : SignedClaim crypto env) {reason : Str}
    (passed : claimVerdict crypto (.obj claim.body) claim.old claim.new
      (Dict.get? (store.held claim.origin) claim.old)
      (Dict.get? (store.held claim.origin) claim.new) = .ok (.consistent, reason)) :
    store.recordConsistency crypto env now = .ok ⟨store.addPair claim.origin claim.old claim.new,
      some (consistencyLine env), .consistent, reason⟩ := by
  have found := subscript_of_readEnvelope claim.read
  obtain ⟨fields, rfl⟩ := obj_of_subscript found
  have present := subscript_obj.mp found
  obtain ⟨oldCount, oldPresent, oldKey⟩ := countKey_of_bind claim.oldCounted
  obtain ⟨newCount, newPresent, newKey⟩ := countKey_of_bind claim.newCounted
  have oldInt : asInt? oldCount = some claim.old := by simpa [oldPresent] using claim.oldCounted
  have newInt : asInt? newCount = some claim.new := by simpa [newPresent] using claim.newCounted
  have origin : canonicalNodeId crypto claim.pub = claim.origin := rfl
  simp only [ReplicaStore.recordConsistency, orDict, truthy_of_get? present, if_true, dotGet_obj, present,
    Option.getD_some, truthy_of_get? claim.kind, claim.node, oldPresent, newPresent, ReplicaStore.heldUnder, origin,
    lookupCount_asInt oldInt, lookupCount_asInt newInt, claim.verdict, passed, originKey, subscript_obj.mpr oldPresent,
    subscript_obj.mpr newPresent, oldKey, newKey, bind, Except.bind, pure, Except.pure]

/-- A verified root envelope filed under this origin and count. -/
def FiledAt (crypto : Crypto) (origin : Str) (count : Int) (env : Json) : Prop :=
  ∃ root : SignedRoot crypto env, root.origin = origin ∧ root.count = count

theorem SignedRoot.filed {env : Json} (root : SignedRoot crypto env) :
    FiledAt crypto root.origin root.count env := ⟨root, rfl, rfl⟩

theorem FiledAt.unique {env : Json} {origin origin' : Str} {count count' : Int}
    (first : FiledAt crypto origin count env) (second : FiledAt crypto origin' count' env) :
    origin = origin' ∧ count = count' := by
  obtain ⟨a, rfl, rfl⟩ := first
  obtain ⟨b, rfl, rfl⟩ := second
  have same := Except.ok.inj (a.read.symm.trans b.read)
  simp only [Prod.mk.injEq, Json.obj.injEq] at same
  obtain ⟨body, pub, _⟩ := same
  refine ⟨by rw [SignedRoot.origin, SignedRoot.origin, pub], ?_⟩
  have counted := a.counted
  rw [body, b.counted] at counted
  exact (Option.some.inj counted).symm

theorem pyEq_asInt {a b : Json} {m n : Int} (first : asInt? a = some m) (second : asInt? b = some n) :
    Json.pyEq a b ↔ m = n := by
  cases a <;> cases b <;> simp_all [asInt?, Json.pyEq, Json.comparisonKey]

theorem FiledAt.count_iff {a b : Json} {origin : Str} {m n : Int} (first : FiledAt crypto origin m a)
    (second : FiledAt crypto origin n b) :
    Json.pyEq (fieldOf a "count") (fieldOf b "count") ↔ m = n := by
  obtain ⟨ra, _, rfl⟩ := first
  obtain ⟨rb, _, rfl⟩ := second
  obtain ⟨ja, foundA, _⟩ := countKey_of_bind ra.counted
  obtain ⟨jb, foundB, _⟩ := countKey_of_bind rb.counted
  have intA : asInt? ja = some ra.count := by simpa [foundA] using ra.counted
  have intB : asInt? jb = some rb.count := by simpa [foundB] using rb.counted
  rw [ra.field, rb.field, foundA, foundB]
  exact pyEq_asInt intA intB

theorem FiledAt.origin_eq {env : Json} {origin origin' : Str} {count : Int}
    (filed : FiledAt crypto origin count env) (node : fieldOf env "node_id" = .str origin') :
    origin = origin' := by
  obtain ⟨root, rfl, _⟩ := filed
  rw [root.field, root.node] at node
  exact Json.str.inj node

inductive Message where
  | root (env : Json)
  | consistency (env : Json)

def Message.envelope : Message → Json
  | .root env => env
  | .consistency env => env

inductive Answer where
  | root (env : Json) (status : RootStatus)
  | consistency (env : Json) (status : ConsistencyStatus)
  deriving DecidableEq

def RootStatus.weighs : RootStatus → Bool
  | .stored => true
  | .duplicate => true
  | .divergence => true
  | .stale => false
  | .rejected => false

/-- One call; `written` tells whether its journal write, if it makes one, completes. -/
structure Delivery where
  message : Message
  now : PyFloat
  written : Bool := true

/-- A store with its history: the calls that answered, and every root envelope
that was stored or compared with the one held at its count. -/
structure Session where
  store : ReplicaStore
  answers : List Answer
  weighed : List Json

namespace Session

def fresh : Session where
  store := {}
  answers := []
  weighed := []

/-- Memory changes before the write, so it keeps a change whose write fails. -/
def finish {Status : Type} (session : Session) (outcome : Outcome Status) (answer : Answer)
    (weighed : List Json) (written : Bool) : Session where
  store := outcome.store
  answers := if outcome.line.isNone || written then session.answers ++ [answer] else session.answers
  weighed := weighed

theorem mem_finish {Status : Type} {session : Session} {outcome : Outcome Status}
    {answer given : Answer} {weighed : List Json} {written : Bool}
    (member : given ∈ (session.finish outcome answer weighed written).answers) :
    given ∈ session.answers ∨ given = answer := by
  simp only [finish] at member
  split at member
  · simpa using member
  · exact .inl member

variable (crypto : Crypto)

def receive (session : Session) (delivery : Delivery) : Session :=
  match delivery.message with
  | .root env =>
    match session.store.accept crypto env delivery.now with
    | .error _ => session
    | .ok outcome => session.finish outcome (.root env outcome.status)
        (if outcome.status.weighs then session.weighed ++ [env] else session.weighed)
        delivery.written
  | .consistency env =>
    match session.store.recordConsistency crypto env delivery.now with
    | .error _ => session
    | .ok outcome => session.finish outcome (.consistency env outcome.status) session.weighed
        delivery.written

/-- The state after these calls on a fresh store. -/
def after (deliveries : List Delivery) : Session := Run.run (receive crypto) fresh deliveries

end Session

def sampleOrigin : Str := canonicalNodeId Crypto.sample ((SigningKey.sample 1).publicKey Crypto.sample)

/-- A root envelope that a sample key signed, with this algorithm and root. -/
def sampleRoot (alg root : String) : Json :=
  match sealEnvelope Crypto.sample (.sample 1) rootDomain (.obj [("kind", .str "WITNESS_ROOT"),
    ("node_id", .str sampleOrigin),
    ("count", .int 1), ("head_hash", .str "h"), ("root", .str (.ofString root)),
    ("root_alg", .str (.ofString alg))]) with
  | .ok env => env
  | .error _ => .null

end JJDai.Replication
