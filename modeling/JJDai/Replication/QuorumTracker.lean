import JJDai.Replication.Quorum

/-! `QuorumTracker`, the origin's side of a quorum: acks as they come in, and when the receipt it
assembles from them passes the offline verification. -/

namespace JJDai.Replication

open PyText Canonical

/-- `acks` is the dict `(count, root) -> {receiver -> ack}`. -/
structure QuorumTracker where
  originNode : Str
  k : Nat
  positive : 1 ≤ k
  acks : List ((Json × Json) × Dict Str Json) := []

namespace QuorumTracker

def init (originNode : Str) (k : Int) : Py QuorumTracker :=
  if bound : 1 ≤ k then return { originNode := originNode, k := k.toNat, positive := by omega }
  else raise .replicationError "quorum k must be >= 1"

def SameKey (a b : Json × Json) : Prop := Json.pyEq a.1 b.1 ∧ Json.pyEq a.2 b.2

instance (a b : Json × Json) : Decidable (SameKey a b) := inferInstanceAs (Decidable (_ ∧ _))

def heldAt (acks : List ((Json × Json) × Dict Str Json)) (key : Json × Json) : Dict Str Json :=
  match acks with
  | [] => []
  | (known, held) :: rest => if SameKey known key then held else heldAt rest key

/-- `acks.setdefault(key, {})[receiver] = env`. -/
def file (acks : List ((Json × Json) × Dict Str Json)) (key : Json × Json) (receiver : Str) (env : Json) :
    List ((Json × Json) × Dict Str Json) :=
  match acks with
  | [] => [(key, [(receiver, env)])]
  | (known, held) :: rest =>
    if SameKey known key then (known, Dict.set held receiver env) :: rest
    else (known, held) :: file rest key receiver env

def receiverKey : Json → Py Str
  | .str receiver => return receiver
  | _ => raise .typeError

variable (crypto : Crypto)

def addAck (tracker : QuorumTracker) (env : Json) : Py (QuorumTracker × Bool × Str) := do
  let (ok, reason) ← verifyAck crypto env (.str tracker.originNode) .null .null
  if !ok then return (tracker, false, reason)
  let b ← subscript env "body"
  let count ← subscript b "count"
  let root ← subscript b "root"
  if !(hashable count && hashable root) then raise .typeError
  let receiver ← receiverKey (← subscript b "receiver_node")
  return ({ tracker with acks := file tracker.acks (count, root) receiver env }, true, "ok")

def receipt (tracker : QuorumTracker) (count : Int) (root : Str) (now : PyFloat) : Option (Dict Str Json) :=
  let acks := heldAt tracker.acks (.int count, .str root)
  if acks.length < tracker.k then none
  else some [("kind", .str "QUORUM_RECEIPT"), ("origin_node", .str tracker.originNode), ("count", .int count),
    ("root", .str root), ("k", .int tracker.k),
    ("acks", .arr (((Dict.keys acks).insertionSort (· ≤ ·)).map (fun r => (Dict.get? acks r).getD .null))),
    ("assembled_at", .float now)]

/-- One call of `add_ack`; one that raises leaves the tracker as it was. -/
def collect (tracker : QuorumTracker) (env : Json) : QuorumTracker :=
  match tracker.addAck crypto env with
  | .ok (next, _) => next
  | .error _ => tracker

end QuorumTracker

/-- The ack is one for this root and count of the origin. -/
def Admits (crypto : Crypto) (origin root : Str) (count : Int) (env : Json) (ack : SignedAck crypto env) : Prop :=
  Names ack.body "origin_node" (.str origin) ∧ Names ack.body "root" (.str root) ∧
    Names ack.body "count" (.int count)

variable {crypto : Crypto} {env : Json}

theorem verifyAck_of_signed (ack : SignedAck crypto env) {origin root count : Json}
    (same : ¬differs origin ((Dict.get? ack.body "origin_node").getD .null) = true)
    (rooted : ¬differs root ((Dict.get? ack.body "root").getD .null) = true)
    (counted : ¬differs count ((Dict.get? ack.body "count").getD .null) = true) :
    verifyAck crypto env origin root count = .ok (true, "ok") := by
  simp [verifyAck, ack.read, ack.kind, ack.receiver, same, rooted, counted, ack.text, ack.verified, bind, Except.bind,
    pure, Except.pure]

theorem not_differs_of_names {body : Dict Str Json} {key : Str} {expected : Json} (named : Names body key expected) :
    ¬differs expected ((Dict.get? body key).getD .null) = true := by
  obtain ⟨present, value, found, same⟩ := named
  simp [differs, found, same]

theorem verifyAck_of_admits {origin root : Str} {count : Int} {ack : SignedAck crypto env}
    (admitted : Admits crypto origin root count env ack) :
    verifyAck crypto env (.str origin) (.str root) (.int count) = .ok (true, "ok") :=
  verifyAck_of_signed ack (not_differs_of_names admitted.1) (not_differs_of_names admitted.2.1)
    (not_differs_of_names admitted.2.2)

theorem admits_of_verifies {origin root reason : Str} {count : Int}
    (accepted : verifyAck crypto env (.str origin) (.str root) (.int count) = .ok (true, reason)) :
    ∃ ack : SignedAck crypto env, Admits crypto origin root count env ack := by
  obtain ⟨ack, origins, roots, counts⟩ := signedAck_of_verifies accepted
  exact ⟨ack, origins (by simp), roots (by simp), counts (by simp)⟩

theorem SignedAck.receiverId_unique (first second : SignedAck crypto env) : first.receiverId = second.receiverId := by
  have same := Except.ok.inj (first.read.symm.trans second.read)
  simp only [Prod.mk.injEq] at same
  rw [SignedAck.receiverId, SignedAck.receiverId, same.2.1]

namespace QuorumTracker

theorem SameKey.trans {a b c : Json × Json} (first : SameKey a b) (second : SameKey b c) : SameKey a c :=
  ⟨first.1.trans second.1, first.2.trans second.2⟩

theorem SameKey.symm {a b : Json × Json} (same : SameKey a b) : SameKey b a := ⟨same.1.symm, same.2.symm⟩

theorem heldAt_file_same {acks : List ((Json × Json) × Dict Str Json)} {key wanted : Json × Json}
    (same : SameKey key wanted) (receiver : Str) (env : Json) :
    heldAt (file acks key receiver env) wanted = Dict.set (heldAt acks wanted) receiver env := by
  induction acks with
  | nil => simp [file, heldAt, same, Dict.set]
  | cons entry rest ih =>
    obtain ⟨known, held⟩ := entry
    by_cases here : SameKey known key
    · have wants := here.trans same
      simp [file, heldAt, here, wants]
    · have misses : ¬SameKey known wanted := fun wants => here (wants.trans same.symm)
      simp [file, heldAt, here, misses, ih]

theorem heldAt_file_other {acks : List ((Json × Json) × Dict Str Json)} {key wanted : Json × Json}
    (other : ¬SameKey key wanted) (receiver : Str) (env : Json) :
    heldAt (file acks key receiver env) wanted = heldAt acks wanted := by
  induction acks with
  | nil => simp [file, heldAt, other]
  | cons entry rest ih =>
    obtain ⟨known, held⟩ := entry
    by_cases here : SameKey known key
    · have misses : ¬SameKey known wanted := fun wants => other (here.symm.trans wants)
      simp [file, heldAt, here, misses]
    · by_cases wants : SameKey known wanted
      · simp [file, heldAt, here, wants]
      · simp [file, heldAt, here, wants, ih]

section Step

variable {tracker : QuorumTracker} {root : Str} {count : Int}

theorem addAck_ok {next : QuorumTracker} {ok : Bool} {reason : Str}
    (added : tracker.addAck crypto env = .ok (next, ok, reason)) :
    next = tracker ∨ ∃ (ack : SignedAck crypto env) (counted rooted : Json),
      Names ack.body "origin_node" (.str tracker.originNode) ∧ Dict.get? ack.body "count" = some counted ∧
      Dict.get? ack.body "root" = some rooted ∧
      next = { tracker with acks := file tracker.acks (counted, rooted) ack.receiverId env } := by
  simp only [addAck, bind, Py.bind_ok] at added
  obtain ⟨⟨passed, why⟩, verified, added⟩ := added
  cases passed with
  | false =>
    obtain ⟨rfl, _⟩ := Prod.mk.inj (Except.ok.inj added)
    exact .inl rfl
  | true =>
    obtain ⟨ack, origins, _, _⟩ := signedAck_of_verifies verified
    simp only [Bool.not_true, Bool.false_eq_true, if_false, Py.bind_ok, subscript_of_readEnvelope ack.read,
      Except.ok.injEq, exists_eq_left', subscript_obj, ack.receiver, Option.some.injEq, Py.unless_ok] at added
    obtain ⟨counted, countRead, rooted, rootRead, _, receiver, named, added⟩ := added
    obtain rfl := Except.ok.inj named
    obtain ⟨rfl, _⟩ := Prod.mk.inj (Except.ok.inj added)
    exact .inr ⟨ack, counted, rooted, origins (by simp), countRead, rootRead, rfl⟩

theorem collect_admitted {ack : SignedAck crypto env} (admitted : Admits crypto tracker.originNode root count env ack) :
    heldAt (tracker.collect crypto env).acks (.int count, .str root) =
      Dict.set (heldAt tracker.acks (.int count, .str root)) ack.receiverId env := by
  have verified := verifyAck_of_signed ack (not_differs_of_names admitted.1)
    (show ¬differs .null _ = true by simp [differs]) (show ¬differs .null _ = true by simp [differs])
  obtain ⟨_, ⟨_, rooted, rootRead, sameRoot⟩, _, counted, countRead, sameCount⟩ := admitted
  have hashes : (hashable counted && hashable rooted) = true := by
    obtain rfl := Json.pyEq_str.mp sameRoot
    cases counted with
    | arr items => exact absurd sameCount (by simp [Json.pyEq, Json.comparisonKey])
    | obj fields => exact absurd sameCount (by simp [Json.pyEq, Json.comparisonKey])
    | _ => rfl
  simp only [collect, addAck, verified, subscript_of_readEnvelope ack.read, subscript_obj.mpr rootRead,
    subscript_obj.mpr countRead, subscript_obj.mpr ack.receiver, receiverKey, hashes, bind, Except.bind, pure,
    Except.pure, Bool.not_true, Bool.false_eq_true, if_false]
  exact heldAt_file_same ⟨sameCount, sameRoot⟩ _ _

theorem collect_other (refused : ∀ ack, ¬Admits crypto tracker.originNode root count env ack) :
    heldAt (tracker.collect crypto env).acks (.int count, .str root) =
      heldAt tracker.acks (.int count, .str root) := by
  unfold collect
  cases added : tracker.addAck crypto env with
  | error e => rfl
  | ok result =>
    obtain ⟨next, ok, reason⟩ := result
    rcases addAck_ok added with rfl | ⟨ack, counted, rooted, origins, countRead, rootRead, rfl⟩
    · rfl
    · refine heldAt_file_other ?_ _ _
      intro same
      exact refused ack ⟨origins, ⟨by simp, rooted, rootRead, same.2⟩, ⟨by simp, counted, countRead, same.1⟩⟩

theorem collect_fixed (tracker : QuorumTracker) (env : Json) :
    (tracker.collect crypto env).originNode = tracker.originNode ∧ (tracker.collect crypto env).k = tracker.k := by
  unfold collect
  cases added : tracker.addAck crypto env with
  | error e => exact ⟨rfl, rfl⟩
  | ok result =>
    obtain ⟨next, ok, reason⟩ := result
    rcases addAck_ok added with rfl | ⟨_, _, _, _, _, _, rfl⟩
    · exact ⟨rfl, rfl⟩
    · exact ⟨rfl, rfl⟩

end Step

/-- What the tracker holds for one root and count after these calls. -/
structure Holding (crypto : Crypto) (origin root : Str) (count : Int) (seen : List Json) (held : Dict Str Json) :
    Prop where
  unique : (Dict.keys held).Nodup
  admitted : ∀ receiver env, (receiver, env) ∈ held → env ∈ seen ∧
    ∃ ack, Admits crypto origin root count env ack ∧ ack.receiverId = receiver
  complete : ∀ env ∈ seen, ∀ ack, Admits crypto origin root count env ack → ack.receiverId ∈ Dict.keys held

section Run

variable {tracker : QuorumTracker} {root : Str} {count : Int} {seen : List Json}

theorem holding_collect (env : Json)
    (holding : Holding crypto tracker.originNode root count seen (heldAt tracker.acks (.int count, .str root))) :
    Holding crypto tracker.originNode root count (seen ++ [env])
      (heldAt (tracker.collect crypto env).acks (.int count, .str root)) := by
  by_cases admits : ∃ ack, Admits crypto tracker.originNode root count env ack
  · obtain ⟨ack, admitted⟩ := admits
    rw [collect_admitted admitted]
    constructor
    · exact Dict.nodup_set holding.unique _ _
    · intro receiver other member
      rcases Dict.mem_set member with new | old
      · obtain ⟨rfl, rfl⟩ := Prod.mk.inj new
        exact ⟨by simp, ack, admitted, rfl⟩
      · obtain ⟨inside, named⟩ := holding.admitted receiver other old
        exact ⟨by simp [inside], named⟩
    · intro other member otherAck otherAdmitted
      rw [Dict.mem_keys, Dict.get?_set]
      rcases List.mem_append.mp member with old | new
      · have kept := holding.complete other old otherAck otherAdmitted
        by_cases same : ack.receiverId = otherAck.receiverId
        · simp [same]
        · rw [if_neg same, ← Dict.mem_keys]
          exact kept
      · obtain rfl := List.mem_singleton.mp new
        simp [SignedAck.receiverId_unique ack otherAck]
  · rw [collect_other (fun ack admitted => admits ⟨ack, admitted⟩)]
    constructor
    · exact holding.unique
    · intro receiver other member
      obtain ⟨inside, named⟩ := holding.admitted receiver other member
      exact ⟨by simp [inside], named⟩
    · intro other member otherAck otherAdmitted
      rcases List.mem_append.mp member with old | new
      · exact holding.complete other old otherAck otherAdmitted
      · obtain rfl := List.mem_singleton.mp new
        exact absurd ⟨otherAck, otherAdmitted⟩ admits

theorem holding_run (envs : List Json)
    (holding : Holding crypto tracker.originNode root count seen (heldAt tracker.acks (.int count, .str root))) :
    Holding crypto tracker.originNode root count (seen ++ envs)
      (heldAt (Run.run (collect crypto) tracker envs).acks (.int count, .str root)) := by
  induction envs generalizing tracker seen with
  | nil => simpa using holding
  | cons env rest ih =>
    have next := holding_collect env holding
    rw [← (collect_fixed tracker env).1] at next
    have reached := ih next
    rw [(collect_fixed tracker env).1, List.append_assoc] at reached
    exact reached

theorem run_fixed (envs : List Json) :
    (Run.run (collect crypto) tracker envs).originNode = tracker.originNode ∧
      (Run.run (collect crypto) tracker envs).k = tracker.k := by
  induction envs generalizing tracker with
  | nil => exact ⟨rfl, rfl⟩
  | cons env rest ih =>
    obtain ⟨origin, k⟩ := collect_fixed tracker env
    rw [Run.run_cons, (@ih (tracker.collect crypto env)).1, (@ih (tracker.collect crypto env)).2]
    exact ⟨origin, k⟩

end Run

end QuorumTracker

theorem collectReceivers_admitted {origin root : Str} {count : Int} {names before : List Str} {ackOf : Str → Json}
    (distinct : names.Nodup) (fresh : ∀ name ∈ names, name ∉ before)
    (admitted : ∀ name ∈ names, ∃ ack : SignedAck crypto (ackOf name),
      Admits crypto origin root count (ackOf name) ack ∧ ack.receiverId = name) :
    collectReceivers crypto (.str origin) (.str root) (.int count) (names.map ackOf) (before.map .str) =
      .ok (.inr ((before ++ names).map .str)) := by
  induction names generalizing before with
  | nil => simp [collectReceivers, pure, Except.pure]
  | cons name rest ih =>
    obtain ⟨ack, admits, named⟩ := admitted name List.mem_cons_self
    obtain ⟨absent, distinct⟩ := List.nodup_cons.mp distinct
    have body := subscript_of_readEnvelope ack.read
    have receiver : subscript (.obj ack.body) "receiver_node" = .ok (.str name) := by
      rw [subscript_obj, ack.receiver]
      exact congrArg (fun receiver => some (Json.str receiver)) named
    have added : withName before name = before ++ [name] := if_neg (fresh name List.mem_cons_self)
    simp only [List.map_cons, collectReceivers, verifyAck_of_admits admits, body, receiver, setAdd_str, added, bind,
      Except.bind, Bool.not_true, Bool.false_eq_true, if_false]
    rw [ih distinct ?_ (fun other member => admitted other (List.mem_cons_of_mem _ member))]
    · simp
    · intro other member inside
      rcases List.mem_append.mp inside with old | new
      · exact fresh other (List.mem_cons_of_mem _ member) old
      · exact absent (List.mem_singleton.mp new ▸ member)

theorem verifyQuorumReceipt_admitted {origin root : Str} {count : Int} {k : Nat} {names : List Str} {ackOf : Str → Json}
    (positive : 1 ≤ k) (distinct : names.Nodup) (enough : k ≤ names.length)
    (admitted : ∀ name ∈ names, ∃ ack : SignedAck crypto (ackOf name),
      Admits crypto origin root count (ackOf name) ack ∧ ack.receiverId = name) (now : PyFloat) :
    verifyQuorumReceipt crypto [("kind", .str "QUORUM_RECEIPT"), ("origin_node", .str origin), ("count", .int count),
        ("root", .str root), ("k", .int k), ("acks", .arr (names.map ackOf)), ("assembled_at", .float now)]
        (some origin) (some k) =
      .ok (if origin ∈ names then (false, "origin cannot ack itself") else (true, "ok")) := by
  have gathered := @collectReceivers_admitted crypto origin root count names [] ackOf distinct (by simp) admitted
  generalize made : ([("kind", .str "QUORUM_RECEIPT"), ("origin_node", .str origin), ("count", .int count),
    ("root", .str root), ("k", .int k), ("acks", .arr (names.map ackOf)), ("assembled_at", .float now)] :
      Dict Str Json) = receipt
  have kind : Dict.get? receipt "kind" = some (.str "QUORUM_RECEIPT") := by subst made; rfl
  have origins : Dict.get? receipt "origin_node" = some (.str origin) := by subst made; rfl
  have counts : Dict.get? receipt "count" = some (.int count) := by subst made; rfl
  have roots : Dict.get? receipt "root" = some (.str root) := by subst made; rfl
  have acks : Dict.get? receipt "acks" = some (.arr (names.map ackOf)) := by subst made; rfl
  have named : receiptOrigin receipt (some origin) = .str origin := by
    cases origin with
    | nil => simp [receiptOrigin, origins]
    | cons => rfl
  have need : receiptNeed receipt (some k) = .int k := by
    cases k with
    | zero => omega
    | succ => rfl
  have large : ¬((names.length : Int) < k) := by omega
  simp only [verifyQuorumReceipt, named, need, kind, origins, counts, roots, acks, pyList, Option.getD_some, bind,
    Except.bind, Json.pyEq.refl, not_true_eq_false, if_false, ne_eq]
  rw [show ([] : List Json) = ([] : List Str).map .str from rfl, gathered]
  simp only [List.nil_append, setContains_str, natLess, List.length_map, large, decide_false, Bool.false_eq_true,
    if_false, decide_eq_true_eq, pure, Except.pure]
  split <;> rfl

/-- An ack for this root and count that the origin signed itself. -/
def OwnAck (crypto : Crypto) (origin root : Str) (count : Int) (env : Json) : Prop :=
  (∃ reason, verifyAck crypto env (.str origin) (.str root) (.int count) = .ok (true, reason)) ∧
    ackField env "receiver_node" = .str origin

namespace QuorumTracker

variable {tracker : QuorumTracker} {root : Str} {count : Int} {seen : List Json}

/-- The tracker names its origin as a receiver exactly when it was given an ack of its own. -/
theorem holding_origin {origin : Str} {held : Dict Str Json} (holding : Holding crypto origin root count seen held) :
    origin ∈ Dict.keys held ↔ ∃ env ∈ seen, OwnAck crypto origin root count env := by
  constructor
  · intro member
    obtain ⟨env, found⟩ := Option.isSome_iff_exists.mp (Dict.mem_keys.mp member)
    obtain ⟨inside, ack, admitted, named⟩ := holding.admitted origin env (Dict.mem_of_get? found)
    refine ⟨env, inside, ⟨"ok", verifyAck_of_admits admitted⟩, ?_⟩
    rw [ackField_eq ack, ack.receiver, Option.getD_some]
    exact congrArg Json.str named
  · rintro ⟨env, inside, ⟨reason, accepted⟩, own⟩
    obtain ⟨ack, admitted⟩ := admits_of_verifies accepted
    rw [ackField_eq ack, ack.receiver, Option.getD_some] at own
    have named : ack.receiverId = origin := Json.str.inj own
    exact named ▸ holding.complete env inside ack admitted

theorem verify_receipt {receipt : Dict Str Json} {now : PyFloat}
    (holding : Holding crypto tracker.originNode root count seen (heldAt tracker.acks (.int count, .str root)))
    (made : tracker.receipt count root now = some receipt) :
    verifyQuorumReceipt crypto receipt (some tracker.originNode) (some tracker.k) =
      .ok (if tracker.originNode ∈ Dict.keys (heldAt tracker.acks (.int count, .str root))
        then (false, "origin cannot ack itself") else (true, "ok")) := by
  rw [QuorumTracker.receipt] at made
  generalize heldAt tracker.acks (.int count, .str root) = held at holding made ⊢
  by_cases few : held.length < tracker.k
  · rw [if_pos few] at made
    cases made
  · rw [if_neg few] at made
    obtain rfl := Option.some.inj made
    have order := List.perm_insertionSort (· ≤ ·) (Dict.keys held)
    have size : ((Dict.keys held).insertionSort (· ≤ ·)).length = held.length := by
      rw [order.length_eq, Dict.keys, List.length_map]
    rw [verifyQuorumReceipt_admitted tracker.positive (order.nodup_iff.mpr holding.unique) (by omega)]
    · simp only [order.mem_iff]
    · intro name member
      obtain ⟨env, found⟩ := Option.isSome_iff_exists.mp (Dict.mem_keys.mp (order.mem_iff.mp member))
      obtain ⟨_, named⟩ := holding.admitted name env (Dict.mem_of_get? found)
      rw [found, Option.getD_some]
      exact named

/-- A receipt of the tracker passes the offline verification exactly when no ack that the tracker
was given for that root and count is the origin's own. -/
theorem receipt_accepted_iff {crypto : Crypto} (origin : Str) (k : Nat) (positive : 1 ≤ k) (envs : List Json)
    (count : Int) (root : Str) (now : PyFloat) (receipt : Dict Str Json)
    (made : (Run.run (collect crypto) ⟨origin, k, positive, []⟩ envs).receipt count root now = some receipt) :
    (∃ reason, verifyQuorumReceipt crypto receipt (some origin) (some k) = .ok (true, reason)) ↔
      ∀ env ∈ envs, ¬OwnAck crypto origin root count env := by
  have start : Holding crypto origin root count [] (heldAt [] (.int count, .str root)) :=
    ⟨List.nodup_nil, fun _ _ member => (List.not_mem_nil member).elim, fun _ member => (List.not_mem_nil member).elim⟩
  have reached := @holding_run crypto ⟨origin, k, positive, []⟩ root count [] envs start
  obtain ⟨sameOrigin, sameK⟩ := @run_fixed crypto ⟨origin, k, positive, []⟩ envs
  rw [List.nil_append] at reached
  have answer := verify_receipt (by rw [sameOrigin]; exact reached) made
  rw [sameOrigin, sameK] at answer
  have own := holding_origin reached
  constructor
  · rintro ⟨reason, accepted⟩ env inside named
    rw [answer, if_pos (own.mpr ⟨env, inside, named⟩)] at accepted
    cases accepted
  · intro clear
    have absent : origin ∉ Dict.keys (heldAt (Run.run (collect crypto) ⟨origin, k, positive, []⟩ envs).acks
        (.int count, .str root)) := by
      intro member
      obtain ⟨env, inside, named⟩ := own.mp member
      exact clear env inside named
    exact ⟨"ok", by rw [answer, if_neg absent]⟩

end QuorumTracker

/-- The ack of a root of five records by the holder of this key. -/
def sampleAck (seed : UInt8) : Json :=
  match makeAck Crypto.sample (.obj [("body", .obj [("node_id", .str sampleOrigin), ("count", .int 5),
      ("root", .str "bb"), ("head_hash", .str "cc")])]) (.sample seed) .zero with
  | .ok ack => ack
  | .error _ => .null

/-- The receipt of a peer's acknowledgement is made; that of the origin's own is refused. -/
private theorem QuorumTracker.acks_told :
    ((Run.run (collect Crypto.sample) ⟨sampleOrigin, 1, by decide, []⟩ [sampleAck 2]).receipt 5 "bb" .zero).isSome = true ∧
      ackField (sampleAck 2) "receiver_node" ≠ .str sampleOrigin ∧
      ((Run.run (collect Crypto.sample) ⟨sampleOrigin, 1, by decide, []⟩ [sampleAck 1]).receipt 5 "bb" .zero).map
        (fun receipt => verifyQuorumReceipt Crypto.sample receipt (some sampleOrigin) (some 1)) =
        some (.ok (false, "origin cannot ack itself")) := by
  decide +kernel

theorem QuorumTracker.receipt_accepted_sample : ∃ receipt reason,
    verifyQuorumReceipt Crypto.sample receipt (some sampleOrigin) (some 1) = .ok (true, reason) := by
  obtain ⟨some_made, other, _⟩ := acks_told
  obtain ⟨receipt, made⟩ := Option.isSome_iff_exists.mp some_made
  have accepted := receipt_accepted_iff sampleOrigin 1 (by decide) [sampleAck 2] 5 "bb" .zero receipt made
  refine ⟨receipt, accepted.mpr ?_⟩
  intro env member own
  rw [List.mem_singleton.mp member] at own
  exact other own.2

theorem QuorumTracker.receipt_refused : ¬ ∀ (origin : Str) (k : Nat) (positive : 1 ≤ k) (envs : List Json) (count : Int)
    (root : Str) (now : PyFloat) (receipt : Dict Str Json),
    (Run.run (collect Crypto.sample) ⟨origin, k, positive, []⟩ envs).receipt count root now = some receipt →
      ∃ reason, verifyQuorumReceipt Crypto.sample receipt (some origin) (some k) = .ok (true, reason) := by
  intro always
  obtain ⟨receipt, made, answer⟩ := Option.map_eq_some_iff.mp acks_told.2.2
  obtain ⟨reason, accepted⟩ := always sampleOrigin 1 (by decide) [sampleAck 1] 5 "bb" .zero receipt made
  rw [answer] at accepted
  cases accepted

end JJDai.Replication
