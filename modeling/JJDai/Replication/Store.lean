import JJDai.Replication.Certificate

/-! `ReplicaStore`: other nodes' signed roots, and the evidence against them. -/

namespace JJDai.Replication

open PyText

/-- `_roots`, `_diverged`, `_verified_prefix` and `_verified_pairs`; a set of pairs
is a list without repetitions. -/
structure ReplicaStore where
  roots : Dict Str (Dict Int Json) := []
  diverged : Dict Json (List Json) := []
  verifiedPrefix : Dict Str Int := []
  verifiedPairs : Dict Str (List (Int × Int)) := []

inductive RootStatus where
  | stored | duplicate | stale | divergence | rejected
  deriving DecidableEq

/-- A call up to its journal write: the store it leaves in memory, the line to
write, and what it answers once that line is written. -/
structure Outcome (Status : Type) where
  store : ReplicaStore
  line : Option Json
  status : Status
  reason : Str

/-- The origin an envelope is filed under; `node_id` is a string once verified. -/
def originKey : Json → Py Str
  | .str origin => return origin
  | _ => raise .typeError

/-- The number a verified count is as a dict key. -/
def countKey (count : Json) : Int := (asInt? count).getD 0

/-- A JSON value as a dict key; keys that compare equal in Python are one key. -/
def hashKey : Json → Py Json
  | .arr _ => raise .typeError
  | .obj _ => raise .typeError
  | value => return value.comparisonKey

def lookupCount (held : Dict Int Json) : Json → Py (Option Json)
  | .null => return none
  | .str _ => return none
  | .float value => return value.toInt?.bind (Dict.get? held)
  | .arr _ => raise .typeError
  | .obj _ => raise .typeError
  | count => return Dict.get? held (countKey count)

def latestCount (held : Dict Int Json) : Int :=
  match Dict.keys held with
  | [] => -1
  | first :: rest => rest.foldl max first

def rootLine (env : Json) : Json := .obj [("kind", .str "REPLICA_ROOT"), ("env", env)]

def consistencyLine (env : Json) : Json := .obj [("kind", .str "CONSISTENCY_VERIFIED"), ("env", env)]

def divergenceEvidence (origin : Str) (count : Json) (envA envB : Json) (now : PyFloat) : Json :=
  .obj [("kind", .str "DIVERGENCE_EVIDENCE"), ("origin", .str origin), ("count", count),
    ("env_a", envA), ("env_b", envB), ("detected_at", .float now)]

def inconsistencyEvidence (origin env : Json) (detail : Str) (pinnedOld pinnedNew : Option Json)
    (now : PyFloat) : Json :=
  .obj [("kind", .str "INCONSISTENCY_EVIDENCE"), ("origin", origin), ("env", env),
    ("detail", .str detail), ("pinned_old", pinnedOld.getD .null),
    ("pinned_new", pinnedNew.getD .null), ("detected_at", .float now)]

def orDict (value : Json) : Json := if truthy value then value else .obj []

namespace ReplicaStore

def held (store : ReplicaStore) (origin : Str) : Dict Int Json :=
  (Dict.get? store.roots origin).getD []

def divergence (store : ReplicaStore) (origin : Str) : List Json :=
  (Dict.get? store.diverged (.str origin)).getD []

def divergences (store : ReplicaStore) : List Json := store.diverged.flatMap (·.2)

def pairs (store : ReplicaStore) (origin : Str) : List (Int × Int) :=
  (Dict.get? store.verifiedPairs origin).getD []

def hold (store : ReplicaStore) (origin : Str) (count : Int) (env : Json) : ReplicaStore :=
  { store with roots := Dict.set store.roots origin (Dict.set (store.held origin) count env) }

/-- `_diverged.setdefault(key, []).append(evidence)`. -/
def accuse (store : ReplicaStore) (key evidence : Json) : ReplicaStore :=
  { store with diverged := Dict.set store.diverged key ((Dict.get? store.diverged key).getD [] ++ [evidence]) }

def addEvidence (store : ReplicaStore) (origin : Str) (evidence : Json) : ReplicaStore :=
  store.accuse (.str origin) evidence

def addPair (store : ReplicaStore) (origin : Str) (old new : Int) : ReplicaStore :=
  { store with
    verifiedPrefix := Dict.set store.verifiedPrefix origin
      (max ((Dict.get? store.verifiedPrefix origin).getD 0) old)
    verifiedPairs := Dict.set store.verifiedPairs origin ((store.pairs origin).insert (old, new)) }

@[simp] theorem held_empty (origin : Str) : ({} : ReplicaStore).held origin = [] := rfl

@[simp] theorem divergence_empty (origin : Str) : ({} : ReplicaStore).divergence origin = [] := rfl

@[simp] theorem pairs_empty (origin : Str) : ({} : ReplicaStore).pairs origin = [] := rfl

section Frame

variable (store : ReplicaStore) (origin other : Str) (count old new : Int) (env evidence : Json)

theorem held_hold : (store.hold origin count env).held other =
    if origin = other then Dict.set (store.held origin) count env else store.held other := by
  by_cases same : origin = other
  · subst same; simp [hold, held]
  · simp [hold, held, same, Dict.get?_set]

theorem held_hold_self :
    Dict.get? ((store.hold origin count env).held origin) count = some env := by
  rw [held_hold, if_pos rfl, Dict.get?_set_self]

variable {store origin other count env}

theorem held_hold_cases {key : Int} {current : Json}
    (found : Dict.get? ((store.hold origin count env).held other) key = some current) :
    Dict.get? (store.held other) key = some current ∨
      current = env ∧ origin = other ∧ count = key := by
  rw [held_hold] at found
  split at found
  · rename_i same
    rw [Dict.get?_set] at found
    split at found
    · rename_i counts
      exact .inr ⟨(Option.some.inj found).symm, same, counts⟩
    · exact .inl (same ▸ found)
  · exact .inl found

theorem held_hold_keeps {key : Int} (present : (Dict.get? (store.held other) key).isSome) :
    (Dict.get? ((store.hold origin count env).held other) key).isSome := by
  rw [held_hold]
  split
  · rename_i same
    rw [Dict.get?_set]
    split
    · rfl
    · exact same ▸ present
  · exact present

variable (store origin other count env)

@[simp] theorem divergence_hold :
    (store.hold origin count env).divergence other = store.divergence other := rfl

@[simp] theorem pairs_hold : (store.hold origin count env).pairs other = store.pairs other := rfl

@[simp] theorem held_addEvidence :
    (store.addEvidence origin evidence).held other = store.held other := rfl

theorem divergence_addEvidence : (store.addEvidence origin evidence).divergence other =
    if origin = other then store.divergence origin ++ [evidence] else store.divergence other := by
  by_cases same : origin = other
  · subst same; simp [addEvidence, accuse, divergence]
  · simp [addEvidence, accuse, divergence, same, Dict.get?_set]

@[simp] theorem pairs_addEvidence :
    (store.addEvidence origin evidence).pairs other = store.pairs other := rfl

@[simp] theorem held_addPair : (store.addPair origin old new).held other = store.held other := rfl

@[simp] theorem divergence_addPair :
    (store.addPair origin old new).divergence other = store.divergence other := rfl

theorem pairs_addPair : (store.addPair origin old new).pairs other =
    if origin = other then (store.pairs origin).insert (old, new) else store.pairs other := by
  by_cases same : origin = other
  · subst same; simp [addPair, pairs]
  · simp [addPair, pairs, same, Dict.get?_set]

end Frame

variable (crypto : Crypto)

def accept (store : ReplicaStore) (env : Json) (now : PyFloat) : Py (Outcome RootStatus) := do
  let (ok, reason) ← verifySignedRoot crypto env
  if !ok then return ⟨store, none, .rejected, reason⟩
  let b ← subscript env "body"
  let origin ← originKey (← subscript b "node_id")
  let count ← subscript b "count"
  let root ← subscript b "root"
  let held := store.held origin
  match Dict.get? held (countKey count) with
  | some current =>
    let cb ← subscript current "body"
    if Json.pyEq (← subscript cb "root") root then
      return ⟨store, none, .duplicate, "already held"⟩
    if ¬Json.pyEq (← dotGet cb "root_alg") (← dotGet b "root_alg") then
      return ⟨store.hold origin (countKey count) env, some (rootLine env), .stored,
        "alg upgrade at same count (not divergence)"⟩
    let evidence := divergenceEvidence origin count current env now
    return ⟨store.addEvidence origin evidence, some evidence, .divergence,
      "equivocation at count " ++ pyStr count⟩
  | none =>
    let latest := latestCount held
    if countKey count < latest then
      return ⟨store, none, .stale,
        "held count " ++ intText latest ++ " > offered " ++ pyStr count⟩
    return ⟨store.hold origin (countKey count) env, some (rootLine env), .stored, "ok"⟩

/-- `[c for c, e in held.items() if e["body"].get("root_alg") == "rfc6962"]`. -/
def rfcCounts : Dict Int Json → Py (List Int)
  | [] => return []
  | (count, env) :: rest => do
    let alg ← dotGet (← subscript env "body") "root_alg"
    let counts ← rfcCounts rest
    return if alg = .str "rfc6962" then count :: counts else counts

def consistencyWanted (store : ReplicaStore) (origin : Str) : Py (Option (Int × Int)) := do
  let v2 := (← rfcCounts (store.held origin)).insertionSort (· ≤ ·)
  match v2.reverse with
  | new :: old :: _ => return if (old, new) ∈ store.pairs origin then none else some (old, new)
  | _ => return none

/-- `self._roots.get(origin, {})` for any JSON value. -/
def heldUnder (store : ReplicaStore) : Json → Py (Dict Int Json)
  | .str origin => return store.held origin
  | .arr _ => raise .typeError
  | .obj _ => raise .typeError
  | _ => return []

def recordConsistency (store : ReplicaStore) (env : Json) (now : PyFloat) :
    Py (Outcome ConsistencyStatus) := do
  let body := orDict (← dotGet (orDict env) "body")
  let origin ← dotGet body "node_id"
  let held ← store.heldUnder origin
  let oldEnv ← lookupCount held (← dotGet body "old_count")
  let newEnv ← lookupCount held (← dotGet body "new_count")
  let (status, reason) ← verifyConsistencyEnvelope crypto env oldEnv newEnv
  match status with
  | .consistent =>
    let origin ← originKey origin
    let old ← subscript body "old_count"
    let new ← subscript body "new_count"
    return ⟨store.addPair origin (countKey old) (countKey new), some (consistencyLine env), status,
      reason⟩
  | .inconsistent =>
    let key ← originKey origin
    let evidence := inconsistencyEvidence origin env reason oldEnv newEnv now
    return ⟨store.addEvidence key evidence, some evidence, status, reason⟩
  | .rejected => return ⟨store, none, status, reason⟩

/-- One round of the loop in `__init__`: a persisted entry is verified again. -/
def loadEntry (store : ReplicaStore) (e : Json) : Py ReplicaStore := do
  let kind ← dotGet e "kind"
  if kind = .str "REPLICA_ROOT" then
    let env ← subscript e "env"
    let (ok, reason) ← verifySignedRoot crypto env
    if !ok then
      raise .replicationError ("replica journal integrity failure on reload: " ++ reason)
    let b ← subscript env "body"
    let origin ← originKey (← subscript b "node_id")
    let count ← subscript b "count"
    return store.hold origin (countKey count) env
  else if kind = .str "DIVERGENCE_EVIDENCE" ∨ kind = .str "INCONSISTENCY_EVIDENCE" then
    let key ← hashKey (← subscript e "origin")
    return store.accuse key e
  else if kind = .str "CONSISTENCY_VERIFIED" then
    let env ← subscript e "env"
    let (status, why) ← verifyConsistencyEnvelope crypto env none none
    match status with
    | .consistent =>
      let b ← subscript env "body"
      let origin ← originKey (← subscript b "node_id")
      let old ← subscript b "old_count"
      let new ← subscript b "new_count"
      return store.addPair origin (countKey old) (countKey new)
    | .inconsistent =>
      raise .replicationError
        ("replica journal integrity failure on reload: persisted consistency envelope " ++
          "inconsistent: " ++ why)
    | .rejected =>
      raise .replicationError
        ("replica journal integrity failure on reload: persisted consistency envelope " ++
          "rejected: " ++ why)
  else return store

/-- `ReplicaStore(path)` over the entries of the journal. -/
def load (entries : List Json) : Py ReplicaStore := entries.foldlM (loadEntry crypto) {}

end ReplicaStore

end JJDai.Replication
