import JJDai.Lib.NumberOrder
import JJDai.Primitive.CanonicalUnique
import JJDai.Primitive.ChainVerification
import JJDai.Replication.Membership

/-! `core.peers`: signed requests, and the nonces that an authenticator has seen. -/

namespace JJDai.Replication

open PyText Canonical

variable (crypto : Crypto)

def requestDomain : Bytes := ascii "jjdai/peers/request/v1:"

/-- The arithmetic of the clock: `abs(now - ts) > window` and `now + window`. -/
structure RequestClock where
  stale : PyFloat → Json → PyFloat → Py Bool
  expiry : PyFloat → PyFloat → PyFloat

/-- `make_signed_request`, with what it reads of the clock and of `os.urandom`. -/
def makeSignedRequest (sk : SigningKey) (path : Str) (payload ts : Json) (nonce : Str) : Py Json := do
  let payloadText ← canonical payload
  let body : Json := .obj [("kind", .str "SIGNED_REQUEST"), ("path", .str path),
    ("payload_hash", .str (H_hex crypto payloadText)),
    ("sender_node", .str (canonicalNodeId crypto (sk.publicKey crypto))), ("ts", ts), ("nonce", .str nonce)]
  let text ← canonical body
  return .obj [("auth", .obj [("body", body), ("pub", .str (toHex (sk.publicKey crypto))),
    ("sig", .str (toHex (sk.sign crypto (requestDomain ++ text))))]), ("payload", payload)]

def PeerRegistry.pinnedKey (registry : PeerRegistry) : Json → Py (Option Bytes)
  | .str nid => registry.pubkey nid
  | other => if hashable other then return none else raise .typeError

structure RequestAuthenticator where
  windowS : PyFloat
  capacity : Int
  seen : Dict Str PyFloat := []

/-- Body, key, signature and payload of a request; every way to fail is caught. -/
def requestParts (envelope : Json) : Py (Json × Bytes × Bytes × Json) := do
  let auth ← subscript envelope "auth"
  let body ← subscript auth "body"
  let pub ← bytesFromHex (← subscript auth "pub")
  let sig ← bytesFromHex (← subscript auth "sig")
  let payload ← subscript envelope "payload"
  return (body, pub, sig, payload)

def isNumber : Json → Bool
  | .bool _ => true
  | .int _ => true
  | .float _ => true
  | _ => false

variable (clock : RequestClock)

namespace RequestAuthenticator

/-- Every check before the nonces are looked at; a request that passes gives its nonce. -/
def vet (auth : RequestAuthenticator) (registry : PeerRegistry) (path : Str) (now : PyFloat) (body payload : Json)
    (pub sig : Bytes) : Py (Bool × Str) := do
  if (← dotGet body "kind") ≠ .str "SIGNED_REQUEST" then return (false, "wrong kind")
  let sender ← dotGet body "sender_node"
  if .str (canonicalNodeId crypto pub) ≠ sender then return (false, "sender_node does not match key")
  if !(← registry.isFriend sender) then return (false, "sender is not an admitted active peer (foe)")
  if (← registry.pinnedKey sender) ≠ some pub then
    return (false, "key does not match the registered peer record")
  let bound ← dotGet body "path"
  if bound ≠ .str path then
    return (false, "envelope is bound to " ++ reprJson bound ++ ", not " ++ pyRepr path)
  if .str (H_hex crypto (← canonical payload)) ≠ (← dotGet body "payload_hash") then
    return (false, "payload hash mismatch")
  let ts ← dotGet body "ts"
  if !isNumber ts then return (false, "malformed timestamp")
  if ← clock.stale now ts auth.windowS then
    return (false, "stale request (|Δt| > " ++ reprJson (.float auth.windowS) ++ "s)")
  match ← dotGet body "nonce" with
  | .str nonce =>
    if nonce = [] then return (false, "missing nonce")
    if !crypto.verify pub (requestDomain ++ (← canonical body)) sig then return (false, "bad signature")
    return (true, nonce)
  | _ => return (false, "missing nonce")

def gc (auth : RequestAuthenticator) (now : PyFloat) : RequestAuthenticator :=
  if auth.capacity < auth.seen.length then
    { auth with seen := auth.seen.filter (fun entry => now.less entry.2) }
  else auth

def remember (auth : RequestAuthenticator) (now : PyFloat) (nonce sender : Str) :
    (Bool × Str) × RequestAuthenticator :=
  let auth := auth.gc now
  if auth.capacity ≤ auth.seen.length then ((false, "nonce cache saturated (retry)"), auth)
  else if nonce ∈ Dict.keys auth.seen then ((false, "replay: nonce already used"), auth)
  else ((true, sender), { auth with seen := Dict.set auth.seen nonce (clock.expiry now auth.windowS) })

def check (auth : RequestAuthenticator) (registry : PeerRegistry) (envelope : Json) (path : Str) (now : PyFloat) :
    Py (Bool × Str) × RequestAuthenticator :=
  match requestParts envelope with
  | .error _ => (.ok (false, "malformed request envelope"), auth)
  | .ok (body, pub, sig, payload) =>
    match auth.vet crypto clock registry path now body payload pub sig with
    | .error e => (.error e, auth)
    | .ok (false, reason) => (.ok (false, reason), auth)
    | .ok (true, nonce) =>
      let (answer, auth) := auth.remember clock now nonce (canonicalNodeId crypto pub)
      (.ok answer, auth)

end RequestAuthenticator

/-- One call of `check`, with the registry and the clock as they are then. -/
structure RequestCall where
  registry : PeerRegistry
  envelope : Wire
  path : Str
  now : PyFloat

/-- An authenticator with the bodies it accepted, and when. -/
structure RequestGate where
  auth : RequestAuthenticator
  accepted : List (Json × PyFloat) := []

def requestBody (envelope : Json) : Json :=
  ((subscript envelope "auth").bind (fun auth => subscript auth "body")).toOption.getD .null

def RequestGate.step (gate : RequestGate) (call : RequestCall) : RequestGate :=
  let (answer, auth) := gate.auth.check crypto clock call.registry call.envelope.json call.path call.now
  match answer with
  | .ok (true, _) => { auth, accepted := gate.accepted ++ [(requestBody call.envelope.json, call.now)] }
  | _ => { gate with auth }

variable {crypto clock}

/-- The nonces are those of the accepted bodies, all different, and there are never
more of them than are collected at. -/
structure Remembers (gate : RequestGate) : Prop where
  nonces : List.Forall₂ (fun entry nonce => (entry : Json × PyFloat).1.valid ∧
    dotGet entry.1 "nonce" = .ok (.str nonce) ∧ (canonical entry.1).isOk) gate.accepted (Dict.keys gate.auth.seen)
  distinct : (Dict.keys gate.auth.seen).Nodup
  bounded : gate.auth.seen = [] ∨ (gate.auth.seen.length : Int) ≤ gate.auth.capacity

theorem gc_eq {auth : RequestAuthenticator} (bounded : auth.seen = [] ∨ (auth.seen.length : Int) ≤ auth.capacity)
    (now : PyFloat) : auth.gc now = auth := by
  unfold RequestAuthenticator.gc
  split
  · rename_i full
    rcases bounded with empty | small
    · obtain ⟨windowS, capacity, seen⟩ := auth
      simp only at empty
      rw [empty]
      rfl
    · omega
  · rfl

/-- What a request that passes the checks has. -/
structure Passed (crypto : Crypto) (clock : RequestClock) (auth : RequestAuthenticator) (registry : PeerRegistry)
    (path : Str) (now : PyFloat) (body payload : Json) (pub sig : Bytes) (nonce : Str) : Prop where
  kind : dotGet body "kind" = .ok (.str "SIGNED_REQUEST")
  sender : dotGet body "sender_node" = .ok (.str (canonicalNodeId crypto pub))
  friend : registry.isFriend (.str (canonicalNodeId crypto pub)) = .ok true
  pinned : registry.pinnedKey (.str (canonicalNodeId crypto pub)) = .ok (some pub)
  bound : dotGet body "path" = .ok (.str path)
  payload : ∃ text, canonical payload = .ok text ∧ dotGet body "payload_hash" = .ok (.str (H_hex crypto text))
  fresh : ∃ ts, dotGet body "ts" = .ok ts ∧ isNumber ts ∧ clock.stale now ts auth.windowS = .ok false
  carried : dotGet body "nonce" = .ok (.str nonce)
  named : nonce ≠ []
  signed : ∃ text, canonical body = .ok text ∧ crypto.verify pub (requestDomain ++ text) sig

theorem vet_ok {auth : RequestAuthenticator} {registry : PeerRegistry} {path nonce : Str} {now : PyFloat}
    {body payload : Json} {pub sig : Bytes} :
    auth.vet crypto clock registry path now body payload pub sig = .ok (true, nonce) ↔
      Passed crypto clock auth registry path now body payload pub sig nonce := by
  simp only [RequestAuthenticator.vet, bind, Py.bind_ok, guard_ok]
  constructor
  · rintro ⟨_, kind, isRequest, sender, senderRead, sameSender, friendly, friend, isFriend, pinned, pinnedRead,
      samePin, bound, boundRead, samePath, text, payloadText, hash, hashRead, sameHash, ts, tsRead, number, stale,
      judged, isFresh, value, valueRead, rest⟩
    obtain rfl := not_not.mp isRequest
    obtain rfl := not_not.mp sameSender
    obtain rfl := not_not.mp samePin
    obtain rfl := not_not.mp samePath
    obtain rfl := not_not.mp sameHash
    obtain rfl : friendly = true := by simpa using isFriend
    obtain rfl : stale = false := by simpa using isFresh
    cases value with
    | str found =>
      simp only at rest
      split at rest
      · cases rest
      rename_i named
      obtain ⟨textBody, bodyText, rest⟩ := Py.bind_ok.mp rest
      obtain ⟨verified, made⟩ := guard_ok.mp rest
      obtain rfl := (Prod.mk.inj (Except.ok.inj made)).2
      exact {
        kind, sender := senderRead, friend, pinned := pinnedRead, bound := boundRead
        payload := ⟨text, payloadText, hashRead⟩
        fresh := ⟨ts, tsRead, by simpa using number, judged⟩
        carried := valueRead, named
        signed := ⟨textBody, bodyText, by simpa using verified⟩ }
    | _ => cases rest
  · intro passed
    obtain ⟨text, payloadText, hashRead⟩ := passed.payload
    obtain ⟨ts, tsRead, number, judged⟩ := passed.fresh
    obtain ⟨textBody, bodyText, verified⟩ := passed.signed
    refine ⟨_, passed.kind, not_not.mpr rfl, _, passed.sender, not_not.mpr rfl, _, passed.friend, by simp, _,
      passed.pinned, not_not.mpr rfl, _, passed.bound, not_not.mpr rfl, text, payloadText, _, hashRead,
      not_not.mpr rfl, ts, tsRead, by simp [number], false, judged, by simp, _, passed.carried, ?_⟩
    simp [passed.named, bodyText, verified, Except.bind, pure, Except.pure]

/-- A request is accepted when it passes the checks, there is room for its nonce,
and the nonce is new. -/
theorem check_ok {auth : RequestAuthenticator} (bounded : auth.seen = [] ∨ (auth.seen.length : Int) ≤ auth.capacity)
    {registry : PeerRegistry} {envelope : Json} {path sender : Str} {now : PyFloat} :
    (auth.check crypto clock registry envelope path now).1 = .ok (true, sender) ↔
      ∃ body pub sig payload nonce, requestParts envelope = .ok (body, pub, sig, payload) ∧
        Passed crypto clock auth registry path now body payload pub sig nonce ∧ sender = canonicalNodeId crypto pub ∧
        (auth.seen.length : Int) < auth.capacity ∧ nonce ∉ Dict.keys auth.seen := by
  unfold RequestAuthenticator.check
  cases parts : requestParts envelope with
  | error e => simp
  | ok found =>
    obtain ⟨body, pub, sig, payload⟩ := found
    simp only [Except.ok.injEq, Prod.mk.injEq]
    cases vetted : auth.vet crypto clock registry path now body payload pub sig with
    | error e =>
      simp only [reduceCtorEq, false_iff]
      rintro ⟨_, _, _, _, nonce, ⟨rfl, rfl, rfl, rfl⟩, passed, _⟩
      rw [vet_ok.mpr passed] at vetted
      cases vetted
    | ok answer =>
      obtain ⟨accepted, text⟩ := answer
      cases accepted with
      | false =>
        simp only [Except.ok.injEq, Prod.mk.injEq, Bool.false_eq_true, false_and, false_iff]
        rintro ⟨_, _, _, _, nonce, ⟨rfl, rfl, rfl, rfl⟩, passed, _⟩
        rw [vet_ok.mpr passed] at vetted
        cases vetted
      | true =>
        have passed := vet_ok.mp vetted
        simp only [RequestAuthenticator.remember, gc_eq bounded]
        constructor
        · intro answered
          split at answered
          · cases answered
          · split at answered
            · cases answered
            · rename_i room fresh
              refine ⟨body, pub, sig, payload, text, ⟨rfl, rfl, rfl, rfl⟩, passed, ?_, not_le.mp room, fresh⟩
              exact (Prod.mk.inj (Except.ok.inj answered)).2.symm
        · rintro ⟨_, _, _, _, nonce, ⟨rfl, rfl, rfl, rfl⟩, again, rfl, room, fresh⟩
          have same := Json.str.inj (Except.ok.inj (again.carried.symm.trans passed.carried))
          subst same
          rw [if_neg (not_le.mpr room), if_neg fresh]

/-- What a call leaves: the nonce of an accepted request more, or everything as it was. -/
theorem check_leaves {auth : RequestAuthenticator} (bounded : auth.seen = [] ∨ (auth.seen.length : Int) ≤ auth.capacity)
    {registry : PeerRegistry} {envelope : Json} {path : Str} {now : PyFloat} :
    ((∃ sender, (auth.check crypto clock registry envelope path now).1 = .ok (true, sender)) ∧
      ∃ nonce expiry, dotGet (requestBody envelope) "nonce" = .ok (.str nonce) ∧
        (canonical (requestBody envelope)).isOk ∧ (auth.seen.length : Int) < auth.capacity ∧
        nonce ∉ Dict.keys auth.seen ∧
        (auth.check crypto clock registry envelope path now).2 = { auth with seen := auth.seen ++ [(nonce, expiry)] }) ∨
    ((∀ sender, (auth.check crypto clock registry envelope path now).1 ≠ .ok (true, sender)) ∧
      (auth.check crypto clock registry envelope path now).2 = auth) := by
  by_cases accepted : ∃ sender, (auth.check crypto clock registry envelope path now).1 = .ok (true, sender)
  · left
    refine ⟨accepted, ?_⟩
    obtain ⟨sender, accepted⟩ := accepted
    obtain ⟨body, pub, sig, payload, nonce, parts, passed, -, room, fresh⟩ := (check_ok bounded).mp accepted
    have read : requestBody envelope = body := by
      simp only [requestParts, bind, Py.bind_ok] at parts
      obtain ⟨auth', authRead, body', bodyRead, _, _, _, _, _, _, _, _, _, _, made⟩ := parts
      obtain ⟨rfl, _⟩ := Prod.mk.inj (Except.ok.inj made)
      rw [requestBody, authRead]
      change (subscript auth' "body").toOption.getD .null = _
      rw [bodyRead]
      rfl
    obtain ⟨text, written, _⟩ := passed.signed
    refine ⟨nonce, clock.expiry now auth.windowS, read ▸ passed.carried, by rw [read, written]; rfl, room, fresh, ?_⟩
    unfold RequestAuthenticator.check
    simp only [parts, vet_ok.mpr passed, RequestAuthenticator.remember, gc_eq bounded, if_neg (not_le.mpr room),
      if_neg fresh, Dict.set_absent fresh]
  · right
    have refused := not_exists.mp accepted
    refine ⟨refused, ?_⟩
    unfold RequestAuthenticator.check at refused ⊢
    split
    · rfl
    · rename_i body pub sig payload parts
      simp only [parts] at refused
      split
      · rfl
      · rfl
      · rename_i nonce vetted
        simp only [vetted, RequestAuthenticator.remember, gc_eq bounded] at refused ⊢
        split
        · rfl
        · rename_i room
          split
          · rfl
          · rename_i fresh
            rw [if_neg room, if_neg fresh] at refused
            exact absurd rfl (refused _)

theorem valid_requestBody (envelope : Wire) {value : Json}
    (read : dotGet (requestBody envelope.json) "nonce" = .ok value) : (requestBody envelope.json).valid := by
  unfold requestBody at read ⊢
  cases authRead : subscript envelope.json "auth" with
  | error e => rw [authRead] at read; cases read
  | ok auth =>
    cases bodyRead : subscript auth "body" with
    | error e =>
      rw [authRead] at read
      change dotGet ((subscript auth "body").toOption.getD .null) "nonce" = _ at read
      rw [bodyRead] at read
      cases read
    | ok body =>
      change ((subscript auth "body").toOption.getD .null).valid
      rw [bodyRead]
      exact valid_of_subscript (valid_of_subscript envelope.valid authRead) bodyRead

theorem step_remembers {gate : RequestGate} (held : Remembers gate) (call : RequestCall) :
    Remembers (gate.step crypto clock call) ∧ (gate.step crypto clock call).auth.capacity = gate.auth.capacity ∧
      (gate.step crypto clock call).auth.windowS = gate.auth.windowS := by
  unfold RequestGate.step
  rcases @check_leaves crypto clock gate.auth held.bounded call.registry call.envelope.json call.path call.now with
    ⟨⟨sender, accepted⟩, nonce, expiry, carried, written, room, fresh, leaves⟩ | ⟨refused, leaves⟩
  · cases answered : gate.auth.check crypto clock call.registry call.envelope.json call.path call.now with
    | mk answer auth =>
      rw [answered] at accepted leaves
      simp only at accepted leaves
      subst accepted leaves
      refine ⟨⟨?_, ?_, ?_⟩, rfl, rfl⟩
      · simp only [Dict.keys, List.map_append]
        exact List.rel_append held.nonces (.cons ⟨valid_requestBody call.envelope carried, carried, written⟩ .nil)
      · simp only [Dict.keys, List.map_append, List.map_singleton]
        exact List.nodup_append.mpr ⟨held.distinct, List.nodup_singleton _, by
          rintro a member b single rfl
          exact fresh (List.mem_singleton.mp single ▸ member)⟩
      · right
        simp only [List.length_append, List.length_singleton]
        omega
  · cases answered : gate.auth.check crypto clock call.registry call.envelope.json call.path call.now with
    | mk answer auth =>
      rw [answered] at refused leaves
      simp only at refused leaves
      subst leaves
      cases answer with
      | error e => exact ⟨held, rfl, rfl⟩
      | ok said =>
        obtain ⟨accepted, text⟩ := said
        cases accepted with
        | false => exact ⟨held, rfl, rfl⟩
        | true => exact absurd rfl (refused text)

variable (crypto clock) in
/-- The authenticator of a fresh node after a run of calls. -/
def gateAfter (windowS : PyFloat) (capacity : Int) (calls : List RequestCall) : RequestGate :=
  Run.run (RequestGate.step crypto clock) { auth := { windowS, capacity } } calls

theorem gate_remembers (windowS : PyFloat) (capacity : Int) (calls : List RequestCall) :
    Remembers (gateAfter crypto clock windowS capacity calls) ∧
      (gateAfter crypto clock windowS capacity calls).auth.capacity = capacity ∧
      (gateAfter crypto clock windowS capacity calls).auth.windowS = windowS := by
  have kept (gate : RequestGate) (call : RequestCall)
      (good : Remembers gate ∧ gate.auth.capacity = capacity ∧ gate.auth.windowS = windowS) (_ : True) :
      Remembers (gate.step crypto clock call) ∧ (gate.step crypto clock call).auth.capacity = capacity ∧
        (gate.step crypto clock call).auth.windowS = windowS := by
    obtain ⟨held, capacities, windows⟩ := step_remembers good.1 call
    exact ⟨held, capacities.trans good.2.1, windows.trans good.2.2⟩
  have start : Remembers ({ auth := { windowS, capacity } } : RequestGate) := ⟨.nil, List.nodup_nil, .inl rfl⟩
  exact @Run.invariant_of_forall _ _ _ _ _ (fun _ => True) kept calls ⟨start, rfl, rfl⟩ (fun _ _ => trivial)

theorem nonce_of_canonical {a b : Json} {n m : Str} (soundA : a.valid) (soundB : b.valid)
    (nonceA : dotGet a "nonce" = .ok (.str n)) (nonceB : dotGet b "nonce" = .ok (.str m))
    (written : (canonical a).isOk) (same : canonical a = canonical b) : n = m := by
  obtain ⟨bytes, text⟩ := Py.exists_of_isOk written
  obtain ⟨_, first, second⟩ := serialize_of_canonical text (same ▸ text)
  obtain ⟨fields, rfl⟩ := obj_of_dotGet nonceA
  obtain ⟨others, rfl⟩ := obj_of_dotGet nonceB
  have values := fields_unique (Json.valid_obj.mp soundA).1 (Json.valid_obj.mp soundB).1 first second "nonce"
  rw [dotGet_obj] at nonceA nonceB
  cases foundA : Dict.get? fields (Str.ofString "nonce") with
  | none => rw [foundA] at nonceA; cases nonceA
  | some valueA =>
    cases foundB : Dict.get? others (Str.ofString "nonce") with
    | none => rw [foundB] at nonceB; cases nonceB
    | some valueB =>
      rw [foundA] at nonceA
      rw [foundB] at nonceB
      obtain rfl : valueA = .str n := Except.ok.inj nonceA
      obtain rfl : valueB = .str m := Except.ok.inj nonceB
      rw [foundA, foundB] at values
      exact Json.str.inj (str_of_serialize (Option.some.inj values))

variable (crypto clock) in
/-- In every run of checks, whatever the clock reads and whoever is suspended in
between, no two accepted requests have bodies of the same signed bytes. -/
theorem never_accepted_twice (windowS : PyFloat) (capacity : Int) (calls : List RequestCall) :
    ((gateAfter crypto clock windowS capacity calls).accepted.map (fun entry => canonical entry.1)).Nodup := by
  obtain ⟨held, -, -⟩ := @gate_remembers crypto clock windowS capacity calls
  obtain ⟨nonces, distinct, -⟩ := held
  generalize (gateAfter crypto clock windowS capacity calls).accepted = accepted at nonces ⊢
  generalize Dict.keys (gateAfter crypto clock windowS capacity calls).auth.seen = seen at nonces distinct
  induction nonces with
  | nil => exact List.nodup_nil
  | @cons entry nonce entries others first rest ih =>
    obtain ⟨absent, later⟩ := List.nodup_cons.mp distinct
    refine List.nodup_cons.mpr ⟨fun member => absent ?_, ih later⟩
    obtain ⟨other, inside, same⟩ := List.mem_map.mp member
    obtain ⟨sound, carried, written⟩ := first
    have named : ∃ again ∈ others, other.1.valid ∧ dotGet other.1 "nonce" = .ok (.str again) := by
      clear ih distinct absent later member same
      induction rest with
      | nil => cases inside
      | cons known _ ih =>
        rcases List.mem_cons.mp inside with rfl | deeper
        · exact ⟨_, List.mem_cons_self, known.1, known.2.1⟩
        · obtain ⟨again, present, facts⟩ := ih deeper
          exact ⟨again, List.mem_cons_of_mem _ present, facts⟩
    obtain ⟨again, present, sound', carried'⟩ := named
    rw [nonce_of_canonical sound sound' carried carried' written same.symm]
    exact present

/-- A request that its sender made for this path, while the sender is active under
the key it signs with and the timestamp is fresh. -/
structure GoodRequest (crypto : Crypto) (clock : RequestClock) (windowS now : PyFloat) (registry : PeerRegistry)
    (sk : SigningKey) (path : Str) (payload ts : Json) (nonce : Str) (envelope : Json) : Prop where
  made : makeSignedRequest crypto sk path payload ts nonce = .ok envelope
  active : registry.isFriend (.str (canonicalNodeId crypto (sk.publicKey crypto))) = .ok true
  pinned : registry.pubkey (canonicalNodeId crypto (sk.publicKey crypto)) = .ok (some (sk.publicKey crypto))
  number : isNumber ts
  fresh : clock.stale now ts windowS = .ok false
  named : nonce ≠ []

theorem passed_of_good (lawful : crypto.Lawful) {auth : RequestAuthenticator} {now : PyFloat} {registry : PeerRegistry}
    {sk : SigningKey} {path nonce : Str} {payload ts envelope : Json}
    (good : GoodRequest crypto clock auth.windowS now registry sk path payload ts nonce envelope) :
    ∃ body sig, requestParts envelope = .ok (body, sk.publicKey crypto, sig, payload) ∧
      Passed crypto clock auth registry path now body payload (sk.publicKey crypto) sig nonce := by
  have made := good.made
  simp only [makeSignedRequest, bind, Py.bind_ok] at made
  obtain ⟨payloadText, payloadWritten, text, written, made⟩ := made
  obtain rfl := Except.ok.inj made
  refine ⟨_, sk.sign crypto (requestDomain ++ text), ?_, {
    kind := rfl, sender := rfl, friend := good.active, pinned := good.pinned, bound := rfl
    payload := ⟨payloadText, payloadWritten, rfl⟩
    fresh := ⟨ts, rfl, good.number, good.fresh⟩
    carried := rfl, named := good.named
    signed := ⟨text, written, lawful _ _⟩ }⟩
  unfold requestParts
  change (do
    let pub ← bytesFromHex (.str (toHex (sk.publicKey crypto)))
    let sig ← bytesFromHex (.str (toHex (sk.sign crypto (requestDomain ++ text))))
    pure (_, pub, sig, payload)) = _
  rw [bytesFromHex_toHex, bytesFromHex_toHex]
  rfl

theorem accepts_iff (lawful : crypto.Lawful) {windowS now : PyFloat} {capacity : Int} {calls : List RequestCall}
    {registry : PeerRegistry} {sk : SigningKey} {path nonce : Str} {payload ts envelope : Json}
    (good : GoodRequest crypto clock windowS now registry sk path payload ts nonce envelope)
    (unused : ∀ entry ∈ (gateAfter crypto clock windowS capacity calls).accepted,
      dotGet entry.1 "nonce" ≠ .ok (.str nonce)) :
    ((gateAfter crypto clock windowS capacity calls).auth.check crypto clock registry envelope path now).1 =
        .ok (true, canonicalNodeId crypto (sk.publicKey crypto)) ↔
      ((gateAfter crypto clock windowS capacity calls).accepted.length : Int) < capacity := by
  obtain ⟨held, sameCapacity, sameWindow⟩ := @gate_remembers crypto clock windowS capacity calls
  have stored : (gateAfter crypto clock windowS capacity calls).accepted.length =
      (gateAfter crypto clock windowS capacity calls).auth.seen.length := by
    rw [held.nonces.length_eq, Dict.keys, List.length_map]
  rw [check_ok held.bounded, sameCapacity, stored]
  constructor
  · rintro ⟨_, _, _, _, _, _, _, _, room, _⟩
    exact room
  · intro room
    obtain ⟨body, sig, parts, passed⟩ := passed_of_good lawful (sameWindow.symm ▸ good)
    refine ⟨body, _, sig, payload, nonce, parts, passed, rfl, room, fun member => ?_⟩
    obtain ⟨i, inside⟩ := List.mem_iff_getElem?.mp member
    have bound : i < (gateAfter crypto clock windowS capacity calls).accepted.length := by
      rw [held.nonces.length_eq]
      exact (List.getElem?_eq_some_iff.mp inside).1
    have pair := held.nonces.get bound (held.nonces.length_eq ▸ bound)
    have name := (List.getElem?_eq_some_iff.mp inside).2
    simp only [List.get_eq_getElem, name] at pair
    exact unused _ (List.getElem_mem bound) pair.2.1

/-- The requests accepted at times that count as recent. -/
def recentlyAccepted (recent : PyFloat → Bool) (accepted : List (Json × PyFloat)) : Nat :=
  (accepted.filter (fun entry => recent entry.2)).length

variable (crypto clock) in
/-- However few requests were accepted lately, a good request with a new nonce is
accepted exactly when fewer than `nonce_capacity` were accepted in all. -/
theorem available_iff (lawful : crypto.Lawful) (windowS now : PyFloat) (capacity : Int) (calls : List RequestCall)
    (registry : PeerRegistry) (sk : SigningKey) (path nonce : Str) (payload ts envelope : Json)
    (recent : PyFloat → Bool)
    (good : GoodRequest crypto clock windowS now registry sk path payload ts nonce envelope)
    (unused : ∀ entry ∈ (gateAfter crypto clock windowS capacity calls).accepted,
      dotGet entry.1 "nonce" ≠ .ok (.str nonce)) :
    let gate := gateAfter crypto clock windowS capacity calls
    ((recentlyAccepted recent gate.accepted : Int) < capacity →
        (gate.auth.check crypto clock registry envelope path now).1 =
          .ok (true, canonicalNodeId crypto (sk.publicKey crypto))) ↔
      ((recentlyAccepted recent gate.accepted : Int) < capacity → (gate.accepted.length : Int) < capacity) := by
  simp only [accepts_iff lawful good unused]

def wholeClock : RequestClock where
  stale now ts windowS :=
    match now.toInt?, asInt? ts, windowS.toInt? with
    | some now, some ts, some windowS => return decide (windowS < |now - ts|)
    | _, _, _ => return false
  expiry now windowS :=
    match now.toInt?, windowS.toInt? with
    | some now, some windowS => (PyFloat.ofInt (now + windowS)).getD .zero
    | _, _ => .zero

def seconds (n : Nat) : PyFloat := .finite (.ofDigits false n 0)

/-- The registry that admitted the first sample key. -/
def sampleRegistry : PeerRegistry :=
  (Run.run (PeerHost.step Crypto.sample sampleAuthorities "p") {} [.call (.register sampleBundle)]).registry

def sampleRequest (ts : Int) (nonce : Str) : Json :=
  (makeSignedRequest Crypto.sample (.sample 1) "p" .null (.int ts) nonce).toOption.getD .null

def firstRequest : RequestCall where
  registry := sampleRegistry
  envelope := ⟨sampleRequest 0 "a", by decide +kernel⟩
  path := "p"
  now := .zero

private theorem requests_told :
    makeSignedRequest Crypto.sample (.sample 1) "p" .null (.int 0) "a" = .ok (sampleRequest 0 "a") ∧
      sampleRegistry.isFriend (.str sampleNode) = .ok true ∧
      sampleRegistry.pubkey sampleNode = .ok (some ((SigningKey.sample 1).publicKey Crypto.sample)) ∧
      wholeClock.stale .zero (.int 0) (seconds 60) = .ok false := by
  decide +kernel

theorem available_sample :
    let gate := gateAfter Crypto.sample wholeClock (seconds 60) 1 []
    ((recentlyAccepted (fun _ => true) gate.accepted : Int) < 1 →
        (gate.auth.check Crypto.sample wholeClock sampleRegistry (sampleRequest 0 "a") "p" .zero).1 =
          .ok (true, sampleNode)) ↔
      ((recentlyAccepted (fun _ => true) gate.accepted : Int) < 1 → (gate.accepted.length : Int) < 1) := by
  have good : GoodRequest Crypto.sample wholeClock (seconds 60) .zero sampleRegistry (.sample 1) "p" .null (.int 0) "a"
      (sampleRequest 0 "a") := {
    made := requests_told.1
    active := requests_told.2.1
    pinned := requests_told.2.2.1
    number := rfl
    fresh := requests_told.2.2.2
    named := by decide }
  exact available_iff Crypto.sample wholeClock Crypto.sample_lawful (seconds 60) .zero 1 [] sampleRegistry (.sample 1)
    "p" "a" .null (.int 0) (sampleRequest 0 "a") (fun _ => true) good (by simp [gateAfter])

/-- With room for one nonce, a request 1000 seconds after the first is refused,
although none was accepted in the last 120 seconds; a new authenticator accepts it. -/
theorem saturated_for_ever :
    let gate := gateAfter Crypto.sample wholeClock (seconds 60) 1 [firstRequest]
    gate.accepted.length = 1 ∧ recentlyAccepted (fun t => (seconds 880).less t) gate.accepted = 0 ∧
      (gate.auth.check Crypto.sample wholeClock sampleRegistry (sampleRequest 1000 "b") "p" (seconds 1000)).1 =
        .ok (false, "nonce cache saturated (retry)") ∧
      ((gateAfter Crypto.sample wholeClock (seconds 60) 1 []).auth.check Crypto.sample wholeClock sampleRegistry
        (sampleRequest 1000 "b") "p" (seconds 1000)).1 = .ok (true, sampleNode) := by
  decide +kernel

end JJDai.Replication
