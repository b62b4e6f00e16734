import JJDai.Replication.Session

/-! Acknowledgements and quorum receipts, verified offline: what an accepted bundle
establishes. -/

namespace JJDai.Replication

open PyText Canonical

variable (crypto : Crypto)

def differs (expected value : Json) : Bool :=
  decide (expected ≠ .null) && !decide (Json.pyEq value expected)

def verifyAck (env originNode root count : Json) : Py (Bool × Str) :=
  match readEnvelope env with
  | .error e =>
    if e.kind = .keyError ∨ e.isValueError then return (false, "malformed envelope") else .error e
  | .ok (body, pub, sig) => do
    if (← dotGet body "kind") ≠ .str "ROOT_ACK" then return (false, "wrong kind")
    if (← dotGet body "receiver_node") ≠ .str (canonicalNodeId crypto pub) then
      return (false, "receiver_node does not match public key")
    if differs originNode (← dotGet body "origin_node") then return (false, "origin mismatch")
    if differs root (← dotGet body "root") then return (false, "root mismatch")
    if differs count (← dotGet body "count") then return (false, "count mismatch")
    let data ← canonical body
    if !crypto.verify pub (ackDomain ++ data) sig then return (false, "bad signature")
    return (true, "ok")

/-- The loop over the acks: the set of receivers, or why an ack is refused. -/
def collectReceivers (origin root count : Json) : List Json → List Json → Py (Str ⊕ List Json)
  | [], receivers => return .inr receivers
  | ack :: rest, receivers => do
    let (ok, reason) ← verifyAck crypto ack origin root count
    if !ok then return .inl reason
    let receiver ← subscript (← subscript ack "body") "receiver_node"
    collectReceivers origin root count rest (← setAdd receivers receiver)

/-- `origin_node or receipt.get("origin_node")`. -/
def receiptOrigin (receipt : Dict Str Json) : Option Str → Json
  | some (c :: name) => .str (c :: name)
  | _ => (Dict.get? receipt "origin_node").getD .null

def receiptNeed (receipt : Dict Str Json) : Option Nat → Json
  | some (k + 1) => .int (k + 1)
  | _ => (Dict.get? receipt "k").getD .null

def verifyQuorumReceipt (receipt : Dict Str Json) (originNode : Option Str) (k : Option Nat) :
    Py (Bool × Str) := do
  if (Dict.get? receipt "kind").getD .null ≠ .str "QUORUM_RECEIPT" then return (false, "wrong kind")
  let origin := receiptOrigin receipt originNode
  let need := receiptNeed receipt k
  if ¬Json.pyEq ((Dict.get? receipt "origin_node").getD .null) origin then
    return (false, "origin mismatch")
  let acks ← pyList ((Dict.get? receipt "acks").getD (.arr []))
  match ← collectReceivers crypto origin ((Dict.get? receipt "root").getD .null)
      ((Dict.get? receipt "count").getD .null) acks [] with
  | .inl reason => return (false, "invalid ack: " ++ reason)
  | .inr receivers =>
    if ← setContains receivers origin then return (false, "origin cannot ack itself")
    if ← natLess receivers.length need then
      return (false, natText receivers.length ++ " distinct receiver(s) < k=" ++ pyStr need)
    return (true, "ok")

/-- An acknowledgement that passes `verifyAck`, as it was read. -/
structure SignedAck (env : Json) where
  body : Dict Str Json
  pub : Bytes
  sig : Bytes
  data : Bytes
  read : readEnvelope env = .ok (.obj body, pub, sig)
  kind : Dict.get? body "kind" = some (.str "ROOT_ACK")
  receiver : Dict.get? body "receiver_node" = some (.str (canonicalNodeId crypto pub))
  text : canonical (.obj body) = .ok data
  verified : crypto.verify pub (ackDomain ++ data) sig = true

/-- The field holds a value equal to the expected one, which is not `None`. -/
def Names (body : Dict Str Json) (key : Str) (expected : Json) : Prop :=
  expected ≠ .null ∧ ∃ value, Dict.get? body key = some value ∧ Json.pyEq value expected

variable {crypto} {env : Json}

theorem names_of_not_differs {body : Dict Str Json} {key : Str} {expected : Json}
    (same : ¬differs expected ((Dict.get? body key).getD .null) = true) (present : expected ≠ .null) :
    Names body key expected := by
  simp only [differs, present, ne_eq, not_false_eq_true, decide_true, Bool.true_and,
    Bool.not_eq_true', decide_eq_false_iff_not, not_not] at same
  refine ⟨present, ?_⟩
  cases found : Dict.get? body key with
  | none =>
    rw [found] at same
    exact absurd (Json.pyEq_null.mp same) present
  | some value =>
    rw [found] at same
    exact ⟨value, rfl, same⟩

theorem signedAck_of_verifies {origin root count : Json} {reason : Str}
    (accepted : verifyAck crypto env origin root count = .ok (true, reason)) :
    ∃ ack : SignedAck crypto env,
      (origin ≠ .null → Names ack.body "origin_node" origin) ∧
      (root ≠ .null → Names ack.body "root" root) ∧
      (count ≠ .null → Names ack.body "count" count) := by
  unfold verifyAck at accepted
  cases read : readEnvelope env with
  | error e =>
    simp only [read] at accepted
    split at accepted <;> cases accepted
  | ok parts =>
    obtain ⟨body, pub, sig⟩ := parts
    simp only [read, bind, Py.bind_ok, guard_ok, read_ok] at accepted
    obtain ⟨kind, receiver, _, originRead, sameOrigin, _, rootRead, sameRoot, _, countRead, sameCount,
      data, text, verified, _⟩ := accepted
    obtain ⟨body, rfl⟩ := obj_of_dotGet kind
    obtain rfl := Except.ok.inj originRead
    obtain rfl := Except.ok.inj rootRead
    obtain rfl := Except.ok.inj countRead
    let ack : SignedAck crypto env := {
      body := body, pub := pub, sig := sig, data := data
      read := read
      kind := (getD_null (by simp)).mp (Except.ok.inj kind)
      receiver := (getD_null (by simp)).mp (Except.ok.inj receiver)
      text := text
      verified := by simpa using verified }
    exact ⟨ack, names_of_not_differs sameOrigin, names_of_not_differs sameRoot,
      names_of_not_differs sameCount⟩

/-- What `verify_ack` has compared, given what the receipt says. -/
structure Compared (body : Dict Str Json) (origin root count : Json) : Prop where
  origin : origin ≠ .null → Names body "origin_node" origin
  root : root ≠ .null → Names body "root" root
  count : count ≠ .null → Names body "count" count

def SignedAck.receiverId (ack : SignedAck crypto env) : Str := canonicalNodeId crypto ack.pub

theorem setContains_str (names : List Str) (name : Str) :
    setContains (names.map .str) (.str name) = .ok (decide (name ∈ names)) := by
  have member : (names.map Json.str).any (fun member => decide (Json.pyEq member (.str name))) =
      decide (name ∈ names) := by
    rw [Bool.eq_iff_iff]
    simp [Json.pyEq, Json.comparisonKey]
  simp [setContains, hashable, member, pure, Except.pure]

def withName (names : List Str) (name : Str) : List Str :=
  if name ∈ names then names else names ++ [name]

theorem mem_withName {names : List Str} {name other : Str} :
    other ∈ withName names name ↔ other ∈ names ∨ other = name := by
  unfold withName
  split
  · rename_i present
    constructor
    · exact Or.inl
    · rintro (member | rfl)
      · exact member
      · exact present
  · simp

theorem nodup_withName {names : List Str} (distinct : names.Nodup) (name : Str) :
    (withName names name).Nodup := by
  unfold withName
  split
  · exact distinct
  · rename_i absent
    rw [List.nodup_append]
    refine ⟨distinct, List.nodup_singleton _, ?_⟩
    intro other member last same
    rw [List.mem_singleton] at same
    rintro rfl
    exact absent (same ▸ member)

theorem setAdd_str (names : List Str) (name : Str) :
    setAdd (names.map .str) (.str name) = .ok ((withName names name).map .str) := by
  by_cases present : name ∈ names
  · simp [setAdd, setContains_str, present, withName, bind, Except.bind, pure, Except.pure]
  · simp [setAdd, setContains_str, present, withName, bind, Except.bind, pure, Except.pure]

/-- What the loop over the acks has gathered. -/
structure Gathered (crypto : Crypto) (origin root count : Json) (acks : List Json)
    (before after : List Str) : Prop where
  distinct : after.Nodup
  kept : ∀ name ∈ before, name ∈ after
  accepted : ∀ env ∈ acks, ∃ ack : SignedAck crypto env,
    Compared ack.body origin root count ∧ ack.receiverId ∈ after
  sourced : ∀ name ∈ after, name ∈ before ∨
    ∃ env ∈ acks, ∃ ack : SignedAck crypto env,
      Compared ack.body origin root count ∧ ack.receiverId = name

theorem collectReceivers_ok {origin root count : Json} {acks receivers : List Json}
    {before : List Str} (distinct : before.Nodup)
    (collected : collectReceivers crypto origin root count acks (before.map .str) =
      .ok (.inr receivers)) :
    ∃ after : List Str, receivers = after.map .str ∧
      Gathered crypto origin root count acks before after := by
  induction acks generalizing before with
  | nil =>
    obtain rfl := Sum.inr.inj (Except.ok.inj collected)
    exact ⟨before, rfl, distinct, fun _ member => member, by simp, fun _ member => Or.inl member⟩
  | cons env rest ih =>
    simp only [collectReceivers, bind, Py.bind_ok] at collected
    obtain ⟨⟨ok, reason⟩, verified, collected⟩ := collected
    cases ok with
    | false => cases collected
    | true =>
      obtain ⟨ack, origins, roots, counts⟩ := signedAck_of_verifies verified
      simp only [Bool.not_true, Bool.false_eq_true, if_false, Py.bind_ok] at collected
      obtain ⟨body, bodyRead, receiver, receiverRead, next, added, collected⟩ := collected
      obtain rfl := Except.ok.inj ((subscript_of_readEnvelope ack.read).symm.trans bodyRead)
      obtain rfl := Option.some.inj (ack.receiver.symm.trans (subscript_obj.mp receiverRead))
      rw [setAdd_str] at added
      obtain rfl := Except.ok.inj added
      obtain ⟨after, rfl, gathered⟩ := ih (nodup_withName distinct _) collected
      refine ⟨after, rfl, gathered.distinct,
        fun name member => gathered.kept name (mem_withName.mpr (Or.inl member)), ?_, ?_⟩
      · intro other member
        rcases List.mem_cons.mp member with rfl | member
        · exact ⟨ack, ⟨origins, roots, counts⟩, gathered.kept _ (mem_withName.mpr (Or.inr rfl))⟩
        · exact gathered.accepted other member
      · intro name member
        rcases gathered.sourced name member with early | ⟨other, present, later⟩
        · rcases mem_withName.mp early with early | rfl
          · exact Or.inl early
          · exact Or.inr ⟨env, by simp, ack, ⟨origins, roots, counts⟩, rfl⟩
        · exact Or.inr ⟨other, by simp [present], later⟩

def receiptAcks (receipt : Dict Str Json) : List Json :=
  match pyList ((Dict.get? receipt "acks").getD (.arr [])) with
  | .ok acks => acks
  | .error _ => []

def receiptRoot (receipt : Dict Str Json) : Json := (Dict.get? receipt "root").getD .null

def receiptCount (receipt : Dict Str Json) : Json := (Dict.get? receipt "count").getD .null

/-- `n` receivers are at least `max(1, need)`. -/
def Enough (n : Nat) (need : Json) : Prop := 1 ≤ n ∧ natLess n need = .ok false

/-- An ack of the receipt, signed under the key that derives the receiver's id, names the
origin, the receipt's root and, as an integer, its count. -/
def Backed (crypto : Crypto) (receipt : Dict Str Json) (origin : Json) (receiver : Str) : Prop :=
  ∃ env ∈ receiptAcks receipt, ∃ ack : SignedAck crypto env, ack.receiverId = receiver ∧
    Names ack.body "origin_node" origin ∧ Names ack.body "root" (receiptRoot receipt) ∧
    Names ack.body "count" (receiptCount receipt) ∧
    ((Dict.get? ack.body "count").bind asInt?).isSome

def QuorumBacked (crypto : Crypto) (receipt : Dict Str Json) (originNode : Option Str)
    (k : Option Nat) : Prop :=
  ∃ receivers : List Str, receivers.Nodup ∧ Enough receivers.length (receiptNeed receipt k) ∧
    ∀ receiver ∈ receivers, ¬Json.pyEq (.str receiver) (receiptOrigin receipt originNode) ∧
      Backed crypto receipt (receiptOrigin receipt originNode) receiver

def ackField (env : Json) (key : Str) : Json :=
  match subscript env "body" with
  | .ok (.obj body) => (Dict.get? body key).getD .null
  | _ => .null

def countsInt (env : Json) : Bool := (asInt? (ackField env "count")).isSome

/-- Acks with an integer count from enough receivers: from all, where one at least is
asked for or given, or from those that remain without the others. -/
def IntegerQuorum (receipt : Dict Str Json) (need : Json) : Prop :=
  ((∀ env ∈ receiptAcks receipt, countsInt env) ∧
      (natLess 0 need = .ok true ∨ receiptAcks receipt ≠ [])) ∨
    ∃ receivers : List Str, receivers.Nodup ∧ Enough receivers.length need ∧
      ∀ receiver ∈ receivers, ∃ env ∈ receiptAcks receipt,
        countsInt env ∧ ackField env "receiver_node" = .str receiver

/-- No comparison is switched off, and the counts are integers. -/
structure Complete (receipt : Dict Str Json) (originNode : Option Str) (k : Option Nat) : Prop where
  origin : receiptOrigin receipt originNode ≠ .null
  root : receiptRoot receipt ≠ .null
  count : receiptCount receipt ≠ .null
  integers : IntegerQuorum receipt (receiptNeed receipt k)

theorem ackField_eq (ack : SignedAck crypto env) (key : Str) :
    ackField env key = (Dict.get? ack.body key).getD .null := by
  simp only [ackField, subscript_of_readEnvelope ack.read]

theorem countsInt_eq (ack : SignedAck crypto env) :
    countsInt env = ((Dict.get? ack.body "count").bind asInt?).isSome := by
  rw [countsInt, ackField_eq ack, asInt_getD]

variable {receipt : Dict Str Json} {originNode : Option Str} {k : Option Nat}

theorem complete_of_backed (backed : QuorumBacked crypto receipt originNode k) :
    Complete receipt originNode k := by
  obtain ⟨receivers, distinct, enough, backed⟩ := backed
  have one : receivers ≠ [] := List.length_pos_iff.mp enough.1
  obtain ⟨first, member⟩ := List.exists_mem_of_ne_nil receivers one
  obtain ⟨_, env, _, ack, _, origin, root, count, _⟩ := backed first member
  refine ⟨origin.1, root.1, count.1, Or.inr ⟨receivers, distinct, enough, ?_⟩⟩
  intro receiver member
  obtain ⟨_, env, present, ack, named, _, _, _, integer⟩ := backed receiver member
  refine ⟨env, present, by rw [countsInt_eq ack]; exact integer, ?_⟩
  rw [ackField_eq ack, ack.receiver, ← named]
  rfl

theorem verifyQuorumReceipt_ok {reason : Str}
    (accepted : verifyQuorumReceipt crypto receipt originNode k = .ok (true, reason)) :
    ∃ names : List Str, natLess names.length (receiptNeed receipt k) = .ok false ∧
      (∀ name ∈ names, ¬Json.pyEq (.str name) (receiptOrigin receipt originNode)) ∧
      Gathered crypto (receiptOrigin receipt originNode) (receiptRoot receipt) (receiptCount receipt)
        (receiptAcks receipt) [] names := by
  simp only [verifyQuorumReceipt, guard_ok, bind, Py.bind_ok] at accepted
  obtain ⟨_, _, acks, listed, answer, collected, accepted⟩ := accepted
  have held : receiptAcks receipt = acks := by simp only [receiptAcks, listed]
  cases answer with
  | inl reason => cases accepted
  | inr receivers =>
    obtain ⟨names, rfl, gathered⟩ := collectReceivers_ok (List.nodup_nil : ([] : List Str).Nodup) collected
    simp only [Py.bind_ok, guard_ok] at accepted
    obtain ⟨inside, contained, outside, short, counted, large, _⟩ := accepted
    obtain rfl := Bool.eq_false_iff.mpr outside
    obtain rfl := Bool.eq_false_iff.mpr large
    rw [List.length_map] at counted
    refine ⟨names, counted, ?_, ?_⟩
    · intro name member same
      simp only [setContains, bind, Py.unless_ok, pure, Except.pure, Except.ok.injEq] at contained
      have absent := List.any_eq_false.mp contained.2 (.str name) (List.mem_map_of_mem member)
      exact absent (by simpa using same)
    · rw [held]
      exact gathered

theorem backed_of_complete {reason : Str}
    (accepted : verifyQuorumReceipt crypto receipt originNode k = .ok (true, reason))
    (complete : Complete receipt originNode k) : QuorumBacked crypto receipt originNode k := by
  obtain ⟨names, large, outside, gathered⟩ := verifyQuorumReceipt_ok accepted
  have backs : ∀ env ∈ receiptAcks receipt, countsInt env → ∃ receiver ∈ names,
      ackField env "receiver_node" = .str receiver ∧
        Backed crypto receipt (receiptOrigin receipt originNode) receiver := by
    intro env present integer
    obtain ⟨ack, compared, member⟩ := gathered.accepted env present
    refine ⟨_, member, by rw [ackField_eq ack, ack.receiver]; rfl, env, present, ack, rfl,
      compared.origin complete.origin, compared.root complete.root, compared.count complete.count, ?_⟩
    rw [← countsInt_eq ack]
    exact integer
  rcases complete.integers with ⟨integers, some_left⟩ | ⟨receivers, distinct, enough, sourced⟩
  · refine ⟨names, gathered.distinct, ⟨?_, large⟩, ?_⟩
    · cases names with
      | cons => simp
      | nil =>
        rcases some_left with positive | given
        · cases positive.symm.trans large
        · obtain ⟨env, present⟩ := List.exists_mem_of_ne_nil _ given
          obtain ⟨_, _, member⟩ := gathered.accepted env present
          cases member
    · intro receiver member
      refine ⟨outside receiver member, ?_⟩
      rcases gathered.sourced receiver member with none | ⟨env, present, ack, _, named⟩
      · cases none
      · obtain ⟨other, _, same, backed⟩ := backs env present (integers env present)
        rw [ackField_eq ack, ack.receiver] at same
        obtain rfl := Json.str.inj same
        exact named ▸ backed
  · refine ⟨receivers, distinct, enough, fun receiver member => ?_⟩
    obtain ⟨env, present, integer, named⟩ := sourced receiver member
    obtain ⟨other, member, same, backed⟩ := backs env present integer
    obtain rfl := Json.str.inj (named.symm.trans same)
    exact ⟨outside _ member, backed⟩

/-- An accepted receipt is backed by a quorum exactly when none of its comparisons is
switched off and enough of its acks carry an integer count. -/
theorem receipt_backed_iff {crypto : Crypto} {receipt : Dict Str Json} {originNode : Option Str}
    {k : Option Nat} {reason : Str}
    (accepted : verifyQuorumReceipt crypto receipt originNode k = .ok (true, reason)) :
    QuorumBacked crypto receipt originNode k ↔ Complete receipt originNode k :=
  ⟨complete_of_backed, backed_of_complete accepted⟩

/-- One receiver's ack of a root of five records. -/
def sampleReceipt : Dict Str Json :=
  match makeAck Crypto.sample (.obj [("body", .obj [("node_id", .str "node:aa"), ("count", .int 5),
      ("root", .str "bb"), ("head_hash", .str "cc")])]) (.sample 2) .zero with
  | .ok ack => [("kind", .str "QUORUM_RECEIPT"), ("origin_node", .str "node:aa"), ("count", .int 5),
      ("root", .str "bb"), ("k", .int 1), ("acks", .arr [ack])]
  | .error _ => []

theorem receipt_backed_sample : QuorumBacked Crypto.sample sampleReceipt (some "node:aa") none :=
  (@receipt_backed_iff Crypto.sample sampleReceipt (some "node:aa") none "ok" (by decide +kernel)).mpr
    ⟨by decide +kernel, by decide +kernel, by decide +kernel, Or.inl ⟨by decide +kernel,
      Or.inl (by decide +kernel)⟩⟩

/-- A receipt that asks for no receiver passes with no ack at all. -/
theorem receipt_not_backed : ¬ ∀ (receipt : Dict Str Json) (originNode : Option Str) (k : Option Nat)
    (reason : Str), verifyQuorumReceipt Crypto.sample receipt originNode k = .ok (true, reason) →
      QuorumBacked Crypto.sample receipt originNode k := by
  intro always
  let receipt : Dict Str Json := [("kind", .str "QUORUM_RECEIPT"), ("origin_node", .str "node:aa"),
    ("count", .int 5), ("root", .str "bb"), ("k", .int 0), ("acks", .arr [])]
  obtain ⟨receivers, _, enough, backed⟩ := always receipt (some "node:aa") none "ok" (by decide +kernel)
  obtain ⟨receiver, member⟩ :=
    List.exists_mem_of_ne_nil receivers (List.length_pos_iff.mp enough.1)
  obtain ⟨_, env, present, _⟩ := backed receiver member
  cases present

end JJDai.Replication
