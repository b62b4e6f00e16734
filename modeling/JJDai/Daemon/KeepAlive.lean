import JJDai.Primitive.Builtins

/-! The daemon's HTTP handler: what it reads of a connection for each request. -/

namespace JJDai.Daemon.Http

open PyText

inductive Method where
  | get | post
  deriving DecidableEq

/-- A request line and its headers, as `BaseHTTPRequestHandler` parses them. -/
structure RequestHead where
  method : Method
  path : Str
  headers : List (Str × Str)
  /-- The request line names HTTP/1.1 or later. -/
  modern : Bool

def asciiLower (s : Str) : Str :=
  s.map (fun c => if 65 ≤ c.val ∧ c.val ≤ 90 then codePoint (c.val + 32) else c)

namespace RequestHead

variable (head : RequestHead)

def getAll (name : Str) : List Str :=
  (head.headers.filter (fun entry => asciiLower entry.1 = asciiLower name)).map Prod.snd

def get? (name : Str) : Option Str := (head.getAll name).head?

/-- `close_connection` after the head is parsed. -/
def closes : Bool :=
  let conntype := asciiLower ((head.get? "Connection").getD [])
  if conntype = "close" then true
  else if conntype = "keep-alive" then false
  else !head.modern

end RequestHead

inductive Content where
  | json (obj : Json)
  | text (text : Str)

structure Answer where
  code : Nat
  content : Content
  headers : List (Str × Str) := []

structure Response where
  code : Nat
  contentType : Str
  headers : List (Str × Str)
  body : Bytes

def reply (code : Nat) (fields : Dict Str Json) (headers : List (Str × Str) := []) : Answer :=
  ⟨code, .json (.obj fields), headers⟩

/-- `_send`, and its like for the text of `/metrics`. -/
def send (answer : Answer) : Py Response :=
  match answer.content with
  | .json obj => do
    let body ← encode obj.render
    return ⟨answer.code, "application/json", answer.headers, body⟩
  | .text text => do
    let body ← encode text
    return ⟨answer.code, "text/plain; version=0.0.4", answer.headers, body⟩

/-- `AuthzPolicy`, its rules with the longest prefix first. -/
structure AuthzPolicy where
  allowDefault : Bool
  adminCns : List Str
  rules : List (Str × List Str)

namespace AuthzPolicy

def roleOf (policy : AuthzPolicy) : Option Str → Str
  | none => "anonymous"
  | some cn => if cn ∈ policy.adminCns then "admin" else "peer"

def check (policy : AuthzPolicy) (path role : Str) : Bool × Str :=
  match policy.rules.find? (fun rule => rule.1.isPrefixOf path) with
  | some rule => (decide (role ∈ rule.2), rule.1)
  | none => (policy.allowDefault, "<default>")

end AuthzPolicy

/-- A step in the node's world, which can raise. -/
abbrev Op (World : Type) (α : Type) := World → Py α × World

def done (a : α) : Op World α := fun world => (.ok a, world)

/-- What is left of `op` when `next` uses its result. -/
def Op.then (op : Op World α) (next : α → Op World β) : Op World β := fun world =>
  match op world with
  | (.ok a, world) => next a world
  | (.error e, world) => (.error e, world)

/-- The settings of the gates, and who is at the other end. -/
structure Gates (World : Type) where
  maxBodyBytes : Int
  revokedSerials : List Str
  authz : Option AuthzPolicy
  /-- `check(key, cls)`: whether the call is in its budget, and what to wait. -/
  rateLimiter : Option (Str → Str → Op World (Bool × PyFloat))
  peerIdentity : Option Str × Option Str
  clientAddress : Str
  /-- `round(retry, 3)`, and `str(max(1, int(retry + 0.999)))`. -/
  waits : PyFloat → PyFloat × Str

variable {World : Type} (gates : Gates World)

/-- `_authz_gate`; the answer when it refuses. -/
def authzGate (head : RequestHead) : Option Answer :=
  let (cn, serial) := gates.peerIdentity
  if (serial.filter (fun serial => serial ≠ [])).any (fun serial => asciiLower serial ∈ gates.revokedSerials) then
    some (reply 401 [("error", .str "401 CERT_REVOKED"),
      ("detail", .str "this client certificate has been revoked")])
  else
    match gates.authz with
    | none => none
    | some policy =>
      let role := policy.roleOf cn
      let (ok, rule) := policy.check head.path role
      if ok then none
      else some (reply 403 [("error", .str "403 FORBIDDEN"), ("role", .str role), ("rule", .str rule),
        ("detail", .str ("role " ++ pyRepr role ++ " may not access " ++ pyRepr head.path))])

def rateClasses : List (Str × Str) :=
  [("/v1/messages", "infer"), ("/v1/tasks", "task"), ("/replicate/", "write"), ("/witness/anchor", "write")]

/-- `_rate_gate`; the answer when it refuses. -/
def rateGate (head : RequestHead) : Op World (Option Answer) :=
  match gates.rateLimiter with
  | none => done none
  | some check =>
    let cls := ((rateClasses.find? (fun entry => entry.1.isPrefixOf head.path)).map Prod.snd).getD "read"
    let (cn, serial) := gates.peerIdentity
    let present (value : Option Str) : Bool := value.any (fun s => s ≠ [])
    let orDash (value : Option Str) : Str := if present value then value.getD [] else Str.ofString "-"
    let key := if present cn || present serial then Str.ofString "cert:" ++ orDash cn ++ Str.ofString ":" ++ orDash serial
      else Str.ofString "ip:" ++ gates.clientAddress
    (check key cls).then (fun (ok, retry) => done (
      if ok then none
      else some (reply 429 [("error", .str "429 RATE_LIMITED"), ("class", .str cls),
          ("retry_after_s", .float (gates.waits retry).1),
          ("detail", .str ("budget exhausted for this identity and endpoint class; " ++
            "systematic abuse is witnessed"))]
        [("Retry-After", (gates.waits retry).2)])))

/-- The handler of one connection: what the client has sent from the read position on, and the
attributes it keeps from request to request. -/
structure Handler where
  rest : Bytes
  bodyLen : Option Nat := none
  closeConnection : Bool := false
  deriving DecidableEq

/-- `_ingress_gate`; the answer when it refuses. -/
def ingressGate (head : RequestHead) (handler : Handler) : Option Answer × Handler :=
  let te := asciiLower ((head.get? "Transfer-Encoding").getD [])
  if te.tails.any (fun tail => (Str.ofString "chunked").isPrefixOf tail) then
    (some (reply 411 [("error", .str "411 LENGTH_REQUIRED"),
      ("detail", .str ("chunked transfer-encoding is not accepted: a body whose length is not declared " ++
        "cannot be capped before it is read"))]), handler)
  else
    match head.get? "Content-Length" with
    | none => (none, { handler with bodyLen := some 0 })
    | some raw =>
      match intOfText raw with
      | none => (some (reply 400 [("error", .str "400 BAD_FRAMING"),
          ("detail", .str "Content-Length is not an integer")]), handler)
      | some n =>
        if n < 0 then (some (reply 400 [("error", .str "400 BAD_FRAMING"),
          ("detail", .str "negative Content-Length")]), handler)
        else if gates.maxBodyBytes < n then (some (reply 413 [("error", .str "413 BODY_TOO_LARGE"),
          ("limit_bytes", .int gates.maxBodyBytes), ("declared_bytes", .int n),
          ("detail", .str "request body exceeds this node's ingress cap")]), handler)
        else (none, { handler with bodyLen := some n.toNat })

/-- The loop of `_read_json`: what it has read, and what is left; `fuel` bounds its turns. -/
def readChunks : Nat → Nat → Bytes → Bytes × Bytes
  | 0, _, rest => ([], rest)
  | fuel + 1, remaining, rest =>
    if remaining = 0 then ([], rest)
    else
      match rest.take (min remaining 65536) with
      | [] => ([], rest)
      | first :: more =>
        let chunk := first :: more
        let (later, left) := readChunks fuel (remaining - chunk.length) (rest.drop chunk.length)
        (chunk ++ later, left)

def readJson (head : RequestHead) (handler : Handler) : Option Json × Handler :=
  let size : Option Nat :=
    match handler.bodyLen with
    | some n => some n
    | none =>
      match head.get? "Content-Length" with
      | none => some 0
      | some raw => (intOfText raw).map (fun n => (max 0 (min n gates.maxBodyBytes)).toNat)
  match size with
  | none => (none, handler)
  | some n =>
    let (raw, left) := readChunks n n handler.rest
    let text := decodeUtf8 (if raw = [] then ascii "\x7b\x7d" else raw)
    (text.bind Json.loads, { handler with rest := left })

/-- The operations of the node that the endpoints call. -/
structure NodeCalls (World : Type) where
  handle : Json → Op World (Nat × Json)
  handleScore : Json → Op World (Nat × Json)
  register : Json → Op World Str
  friends : Op World Json
  issueSalt : Option Json → Op World (Nat × Json)
  pullSalts : Op World Json
  /-- The calls of the challenge round with the arguments read off the request, and their answers. -/
  challengeOpen : Json → Op World Json
  challengeSeat : Json → Op World Json
  challengeCommit : Json → Op World Json
  challengeReveal : Json → Op World Json
  challengeResolve : Json → Op World Json
  /-- `being.handle_task`, and `being.trace`, on a node that hosts a being. -/
  handleTask : Option (Json → Op World Json)
  trace : Option (Str → Op World (Option Json))
  receiveRoot : Option Json → Op World (Nat × Json)
  receiveSegment : Option Json → Op World (Nat × Json)
  receiveConsistency : Option Json → Op World (Nat × Json)
  pushToPeers : Op World Json
  anchor : Op World Json
  allowTestHooks : Bool
  setWitness : Bool → Op World Unit
  containmentHook : Json → Op World Json
  readiness : Op World (Nat × Json)
  metrics : Op World Str
  capabilities : Op World Json
  chainExport : Op World Json
  signedRoot : Op World Json
  /-- The replies to a path with a query. -/
  serveSegment : Str → Op World (Nat × Json)
  serveConsistency : Str → Op World (Nat × Json)
  peers : Op World Json
  replicateStatus : Op World Json
  attestation : Op World (Nat × Json)
  anchors : Op World Json
  containment : Op World Json

/-- An endpoint answers without the body, or with what it reads of it. -/
inductive Route (World : Type) where
  | plain (serve : Op World Answer)
  | withBody (serve : Option Json → Op World Answer)

def Route.readsBody : Route World → Bool
  | .plain _ => false
  | .withBody _ => true

def sendPair (op : Op World (Nat × Json)) : Op World Answer :=
  op.then (fun (code, resp) => done ⟨code, .json resp, []⟩)

def sendOk (op : Op World Json) : Op World Answer := op.then (fun resp => done ⟨200, .json resp, []⟩)

def notFound : Answer := reply 404 [("error", .str "404 NOT_FOUND")]

def orEmpty (body : Option Json) : Json :=
  match body with
  | none => .obj []
  | some value => if truthy value then value else .obj []

/-- An endpoint that refuses a body that is no JSON. -/
def needsJson (op : Json → Op World (Nat × Json)) : Option Json → Op World Answer
  | none => done (reply 400 [("error", .str "400 BAD_ENVELOPE"), ("missing", .str "valid-json-body")])
  | some req => sendPair (op req)

/-- An endpoint that answers every exception with a 400. -/
def attempt (error : Str) (op : Json → Op World Json) (body : Option Json) : Op World Answer := fun world =>
  match op (orEmpty body) world with
  | (.ok resp, world) => (.ok ⟨200, .json resp, []⟩, world)
  | (.error e, world) => (.ok (reply 400 [("error", .str error), ("detail", .str e.text)]), world)

def hello (node : NodeCalls World) (body : Option Json) : Op World Answer := fun world =>
  match node.register (orEmpty body) world with
  | (.ok nid, world) =>
    (node.friends.then (fun friends => done (reply 200 [("admitted", .str nid), ("friends", friends)]))) world
  | (.error e, world) =>
    if e.kind = .peerError then
      (.ok (reply 403 [("error", .str "403 FOE"), ("detail", .str e.text)]), world)
    else (.error e, world)

/-- `(env or {}).get("task") or env or {}`. -/
def taskOf (body : Option Json) : Py Json := do
  let task ← dotGet (orEmpty body) "task"
  return if truthy task then task else orEmpty body

def hooksDisabled : Answer := reply 403 [("error", .str "403 TEST_HOOKS_DISABLED")]

def adminWitness (node : NodeCalls World) (body : Option Json) : Op World Answer := fun world =>
  match getDefault (orEmpty body) "up" (.bool true) with
  | .error e => (.error e, world)
  | .ok up =>
    (node.setWitness (truthy up)).then (fun _ => done (reply 200 [("witness_up", .bool (truthy up))])) world

def postRoute (node : NodeCalls World) (path : Str) : Route World :=
  if path = "/v1/messages" then .withBody (needsJson node.handle)
  else if path = "/v1/score" then .withBody (needsJson node.handleScore)
  else if path = "/peers/hello" then .withBody (hello node)
  else if path = "/entangle/salt" then .withBody (fun body => sendPair (node.issueSalt body))
  else if path = "/entangle/pull" then .plain (sendOk node.pullSalts)
  else if path = "/challenge/open" then .withBody (attempt "400 CHALLENGE_OPEN" node.challengeOpen)
  else if path = "/challenge/seat" then .withBody (attempt "400 CHALLENGE_SEAT" node.challengeSeat)
  else if path = "/challenge/commit" then .withBody (attempt "400 CHALLENGE_COMMIT" node.challengeCommit)
  else if path = "/challenge/reveal" then .withBody (attempt "400 CHALLENGE_REVEAL" node.challengeReveal)
  else if path = "/challenge/resolve" then .withBody (attempt "400 CHALLENGE_RESOLVE" node.challengeResolve)
  else if path = "/v1/tasks" then
    match node.handleTask with
    | none => .plain (done (reply 404 [("error", .str "404 NO_BEING_RUNTIME"),
        ("detail", .str "start the daemon with --being-profile")]))
    | some handleTask => .withBody (fun body world =>
        match taskOf body with
        | .error e => (.error e, world)
        | .ok task => (handleTask task).then (fun trace => done (reply 200 [("trace", trace)])) world)
  else if path = "/replicate/root" then .withBody (fun body => sendPair (node.receiveRoot body))
  else if path = "/replicate/segment" then .withBody (fun body => sendPair (node.receiveSegment body))
  else if path = "/replicate/consistency" then .withBody (fun body => sendPair (node.receiveConsistency body))
  else if path = "/replicate/push" then .plain (sendOk node.pushToPeers)
  else if path = "/witness/anchor" then .plain (sendOk node.anchor)
  else if path = "/admin/witness" then
    if node.allowTestHooks then .withBody (adminWitness node) else .plain (done hooksDisabled)
  else if path = "/admin/containment" then
    if node.allowTestHooks then .withBody (fun body => sendOk (node.containmentHook (orEmpty body)))
    else .plain (done hooksDisabled)
  else .plain (done notFound)

def headOf (exp : Json) : Py Answer := do
  let nodeId ← subscript exp "node_id"
  let head ← subscript exp "head"
  let count ← pyLen (← subscript exp "records")
  return reply 200 [("node_id", nodeId), ("head", head), ("count", .int count)]

def getTask (node : NodeCalls World) (path : Str) : Op World Answer :=
  match node.trace with
  | none => done (reply 404 [("error", .str "404 NO_BEING_RUNTIME")])
  | some trace =>
    let tid := path.drop (Str.ofString "/v1/tasks/").length
    (trace tid).then (fun
      | none => done (reply 404 [("error", .str "404 UNKNOWN_TASK"), ("task_id", .str tid)])
      | some found => done (reply 200 [("trace", found)]))

/-- The endpoints of `do_GET`; none reads a body. -/
def getRoute (node : NodeCalls World) (path : Str) : Op World Answer :=
  if path = "/healthz" then done (reply 200 [("ok", .bool true)])
  else if path = "/readyz" then sendPair node.readiness
  else if path = "/metrics" then node.metrics.then (fun text => done ⟨200, .text text, []⟩)
  else if path = "/capabilities" then sendOk node.capabilities
  else if path = "/witness/chain" then sendOk node.chainExport
  else if path = "/witness/head" then node.chainExport.then (fun exp world => (headOf exp, world))
  else if path = "/witness/root" then sendOk node.signedRoot
  else if (Str.ofString "/witness/segment").isPrefixOf path then sendPair (node.serveSegment path)
  else if (Str.ofString "/witness/consistency").isPrefixOf path then sendPair (node.serveConsistency path)
  else if path = "/peers" then sendOk node.peers
  else if path = "/replicate/status" then sendOk node.replicateStatus
  else if (Str.ofString "/v1/tasks/").isPrefixOf path then getTask node path
  else if path = "/attestation" then sendPair node.attestation
  else if path = "/witness/anchors" then sendOk node.anchors
  else if path = "/v1/containment" then sendOk node.containment
  else done notFound

variable (node : NodeCalls World)

def serveRoute (route : Route World) (head : RequestHead) (handler : Handler) :
    Op World (Answer × Handler) :=
  match route with
  | .plain serve => serve.then (fun answer => done (answer, handler))
  | .withBody serve =>
    let (body, handler) := readJson gates head handler
    (serve body).then (fun answer => done (answer, handler))

/-- The two gates that both methods have, and the endpoint behind them. -/
def behindGates (route : Route World) (head : RequestHead) (handler : Handler) :
    Op World (Answer × Handler) :=
  (rateGate gates head).then (fun
    | some refusal => done (refusal, handler)
    | none =>
      match authzGate gates head with
      | some refusal => done (refusal, handler)
      | none => serveRoute gates route head handler)

def doGet (head : RequestHead) (handler : Handler) : Op World (Answer × Handler) :=
  behindGates gates (.plain (getRoute node head.path)) head handler

def doPost (head : RequestHead) (handler : Handler) : Op World (Answer × Handler) :=
  match ingressGate gates head handler with
  | (some refusal, handler) => done (refusal, handler)
  | (none, handler) => behindGates gates (postRoute node head.path) head handler

/-- One turn of the connection's loop; an exception ends the connection without an answer. -/
def handleOneRequest (head : RequestHead) (handler : Handler) (world : World) :
    Py Response × Handler × World :=
  let handler := { handler with closeConnection := head.closes }
  let served :=
    match head.method with
    | .get => doGet gates node head handler world
    | .post => doPost gates node head handler world
  match served with
  | (.error e, world) => (.error e, { handler with closeConnection := true }, world)
  | (.ok (answer, after), world) =>
    match send answer with
    | .error e => (.error e, { after with closeConnection := true }, world)
    | .ok response => (.ok response, after, world)

/-- A text of digits, with blanks around them, as a number. -/
def decimalText (s : Str) : Option Nat :=
  let text := ((s.dropWhile Durable.isSpace).reverse.dropWhile Durable.isSpace).reverse
  if text ≠ [] ∧ text.all isDigit = true then some (digitsValue text) else none

/-- The length of the body a request declares: one number, however often it is repeated, and
nothing when there is none. -/
def declaredLength (head : RequestHead) : Option Nat :=
  if head.getAll "Transfer-Encoding" ≠ [] then none
  else
    match (head.getAll "Content-Length").map decimalText with
    | [] => some 0
    | first :: others => if others.all (fun other => other = first) then first else none

/-- The connection is closed, or is at the end of the body. -/
def Aligned (head : RequestHead) (before after : Handler) : Prop :=
  after.closeConnection = true ∨
    ∃ n, declaredLength head = some n ∧ after.rest = before.rest.drop n

/-- The request passes every gate, to an endpoint that reads. -/
def ReachesBody (head : RequestHead) (handler : Handler) (world : World) : Prop :=
  head.method = .post ∧ (ingressGate gates head handler).1 = none ∧
    (rateGate gates head world).1 = .ok none ∧ authzGate gates head = none ∧
      (postRoute node head.path).readsBody = true

/-- The request ends the connection, or declares a length, and has no body or is read. -/
def Framed (head : RequestHead) (handler : Handler) (world : World) : Prop :=
  head.closes = true ∨ ∃ n, declaredLength head = some n ∧
    (n = 0 ∨ handler.rest = [] ∨ ReachesBody gates node head handler world)

theorem Op.then_ok {op : Op World α} {next : α → Op World β} {world later : World} {b : β}
    (made : op.then next world = (.ok b, later)) :
    ∃ a middle, op world = (.ok a, middle) ∧ next a middle = (.ok b, later) := by
  unfold Op.then at made
  split at made
  · rename_i a middle first
    exact ⟨a, middle, first, made⟩
  · cases made

theorem readChunks_eq {fuel remaining : Nat} {rest : Bytes} (enough : remaining ≤ fuel) :
    readChunks fuel remaining rest = (rest.take remaining, rest.drop remaining) := by
  induction fuel generalizing remaining rest with
  | zero =>
    obtain rfl : remaining = 0 := Nat.le_zero.mp enough
    rfl
  | succ fuel ih =>
    rw [readChunks]
    by_cases finished : remaining = 0
    · simp [finished]
    · rw [if_neg finished]
      cases chunk : rest.take (min remaining 65536) with
      | nil =>
        have empty : rest = [] := by
          rcases List.take_eq_nil_iff.mp chunk with none_asked | empty
          · omega
          · exact empty
        simp [empty]
      | cons first more =>
        have length := congrArg List.length chunk
        rw [List.length_take] at length
        have front : rest.take (first :: more).length = first :: more := by
          rw [← length, ← chunk]
          simp
        have bound : (first :: more).length ≤ remaining := by omega
        simp only
        rw [ih (by simp only [List.length_cons] at *; omega)]
        simp only [List.drop_drop, Prod.mk.injEq]
        constructor
        · calc first :: more ++ (rest.drop (first :: more).length).take (remaining - (first :: more).length)
              = rest.take (first :: more).length ++
                  (rest.drop (first :: more).length).take (remaining - (first :: more).length) := by rw [front]
            _ = rest.take remaining := by rw [← List.take_add, Nat.add_sub_cancel' bound]
        · rw [Nat.add_sub_cancel' bound]

theorem readJson_rest {head : RequestHead} {handler : Handler} {n : Nat} (size : handler.bodyLen = some n) :
    (readJson gates head handler).2 = { handler with rest := handler.rest.drop n } := by
  simp only [readJson, size, readChunks_eq (Nat.le_refl n)]

theorem behindGates_after {route : Route World} {head : RequestHead} {handler after : Handler} {answer : Answer}
    {world later : World} (made : behindGates gates route head handler world = (.ok (answer, after), later)) :
    ((rateGate gates head world).1 = .ok none ∧ authzGate gates head = none ∧ route.readsBody = true ∧
      after = (readJson gates head handler).2) ∨
    (¬((rateGate gates head world).1 = .ok none ∧ authzGate gates head = none ∧ route.readsBody = true) ∧
      after = handler) := by
  obtain ⟨refusal, middle, rate, made⟩ := Op.then_ok made
  have rateOk : (rateGate gates head world).1 = .ok refusal := congrArg Prod.fst rate
  cases refusal with
  | some refusal =>
    obtain ⟨_, rfl⟩ := Prod.mk.inj (Except.ok.inj (congrArg Prod.fst made))
    refine .inr ⟨fun passes => ?_, rfl⟩
    rw [rateOk] at passes
    cases Except.ok.inj passes.1
  | none =>
    simp only at made
    cases authz : authzGate gates head with
    | some refusal =>
      rw [authz] at made
      obtain ⟨_, rfl⟩ := Prod.mk.inj (Except.ok.inj (congrArg Prod.fst made))
      exact .inr ⟨fun passes => (nomatch passes.2.1), rfl⟩
    | none =>
      rw [authz] at made
      cases route with
      | plain serve =>
        obtain ⟨_, _, _, made⟩ := Op.then_ok made
        obtain ⟨_, rfl⟩ := Prod.mk.inj (Except.ok.inj (congrArg Prod.fst made))
        exact .inr ⟨fun passes => (nomatch passes.2.2), rfl⟩
      | withBody serve =>
        obtain ⟨_, _, _, made⟩ := Op.then_ok made
        obtain ⟨_, rfl⟩ := Prod.mk.inj (Except.ok.inj (congrArg Prod.fst made))
        exact .inl ⟨rateOk, rfl, rfl, rfl⟩

theorem ingressGate_keeps (head : RequestHead) (handler : Handler) :
    (ingressGate gates head handler).2.rest = handler.rest ∧
      (ingressGate gates head handler).2.closeConnection = handler.closeConnection := by
  unfold ingressGate
  simp only
  split
  · exact ⟨rfl, rfl⟩
  · split
    · exact ⟨rfl, rfl⟩
    · split
      · exact ⟨rfl, rfl⟩
      · split
        · exact ⟨rfl, rfl⟩
        · split <;> exact ⟨rfl, rfl⟩

theorem digitsOfText_digits {text : Str} (some_text : text ≠ []) (digits : text.all isDigit = true) :
    digitsOfText text = some (text.map (fun c => c.val - 48)) := by
  induction text with
  | nil => exact absurd rfl some_text
  | cons c rest ih =>
    simp only [List.all_cons, Bool.and_eq_true] at digits
    cases rest with
    | nil => simp [digitsOfText, digits.1]
    | cons d later =>
      have no_underscore : d ≠ ch '_' := by
        rintro rfl
        have digit := digits.2
        rw [List.all_cons, Bool.and_eq_true] at digit
        cases digit.1
      rw [digitsOfText.eq_def]
      simp [digits.1, no_underscore, ih (List.cons_ne_nil _ _) digits.2]

theorem intOfText_decimal {s : Str} {n : Nat} (decimal : decimalText s = some n) : intOfText s = some (n : Int) := by
  unfold decimalText at decimal
  unfold intOfText
  simp only at decimal ⊢
  generalize ((s.dropWhile Durable.isSpace).reverse.dropWhile Durable.isSpace).reverse = text at decimal ⊢
  split at decimal
  · rename_i sound
    obtain rfl := Option.some.inj decimal
    have read := digitsOfText_digits sound.1 sound.2
    cases text with
    | nil => exact absurd rfl sound.1
    | cons c rest =>
      have digit : isDigit c = true := by
        have all := sound.2
        simp only [List.all_cons, Bool.and_eq_true] at all
        exact all.1
      have no_minus : c ≠ ch '-' := by
        rintro rfl
        cases digit
      have no_plus : c ≠ ch '+' := by
        rintro rfl
        cases digit
      simp only [no_minus, no_plus, if_false, read, Option.map_some, digitsValue, List.foldl_map]
      have same : (fun (n : Nat) (c : CodePoint) => n * 10 + (c.val - 48)) =
          (fun (n : Nat) (c : CodePoint) => 10 * n + (c.val - 48)) := by
        funext n c
        rw [Nat.mul_comm]
      rw [same]
  · cases decimal

theorem ingressGate_length {head : RequestHead} {handler : Handler} {n : Nat}
    (declared : declaredLength head = some n) (passes : (ingressGate gates head handler).1 = none) :
    (ingressGate gates head handler).2.bodyLen = some n := by
  unfold declaredLength at declared
  split at declared
  · cases declared
  · rename_i no_encoding
    have absent : head.get? "Transfer-Encoding" = none := by
      rw [RequestHead.get?, not_not.mp no_encoding]
      rfl
    unfold ingressGate at passes ⊢
    have plain : ((asciiLower ((none : Option Str).getD [])).tails.any
        (fun tail => (Str.ofString "chunked").isPrefixOf tail)) = false := by decide
    simp only [absent, plain, Bool.false_eq_true, if_false] at passes ⊢
    cases values : head.getAll "Content-Length" with
    | nil =>
      rw [values] at declared
      obtain rfl := Option.some.inj declared
      simp [RequestHead.get?, values]
    | cons raw others =>
      have first : head.get? "Content-Length" = some raw := by simp [RequestHead.get?, values]
      rw [values, List.map_cons] at declared
      simp only at declared
      split at declared
      · have read := intOfText_decimal declared
        have nonneg : ¬(n : Int) < 0 := by omega
        simp only [first, read, nonneg, if_false] at passes ⊢
        split at passes
        · cases passes
        · rename_i within
          rw [if_neg within]
          simp
      · cases declared

theorem ingressGate_closing (head : RequestHead) (handler : Handler) (closing : Bool) :
    (ingressGate gates head { handler with closeConnection := closing }).1 =
      (ingressGate gates head handler).1 := by
  unfold ingressGate
  simp only
  split
  · rfl
  · split
    · rfl
    · split
      · rfl
      · split
        · rfl
        · split <;> rfl

theorem readJson_closing (head : RequestHead) (handler : Handler) :
    (readJson gates head handler).2.closeConnection = handler.closeConnection := by
  simp only [readJson]
  split <;> rfl

theorem handleOneRequest_after {head : RequestHead} {handler after : Handler} {world later : World}
    {response : Response} (made : handleOneRequest gates node head handler world = (.ok response, after, later)) :
    after.closeConnection = head.closes ∧
      ((ReachesBody gates node head handler world ∧ ∀ n, declaredLength head = some n →
          after.rest = handler.rest.drop n) ∨
        (¬ReachesBody gates node head handler world ∧ after.rest = handler.rest)) := by
  simp only [handleOneRequest] at made
  split at made
  · cases made
  · rename_i answer left middle served
    have same : left = after := by
      split at made
      · cases made
      · exact (Prod.mk.inj (Prod.mk.inj made).2).1
    subst same
    cases method : head.method with
    | get =>
      rw [method] at served
      rcases behindGates_after gates served with ⟨_, _, reads, _⟩ | ⟨_, rfl⟩
      · cases reads
      · refine ⟨rfl, .inr ⟨fun reaches => ?_, rfl⟩⟩
        rw [ReachesBody, method] at reaches
        cases reaches.1
    | post =>
      rw [method] at served
      simp only [doPost] at served
      have closing := ingressGate_closing gates head handler head.closes
      have keeps := ingressGate_keeps gates head { handler with closeConnection := head.closes }
      have length (n : Nat) (declared : declaredLength head = some n) :=
        @ingressGate_length _ gates head { handler with closeConnection := head.closes } n declared
      cases gate : ingressGate gates head { handler with closeConnection := head.closes } with
      | mk refusal passed =>
        rw [gate] at served closing keeps length
        cases refusal with
        | some refusal =>
          obtain ⟨_, rfl⟩ := Prod.mk.inj (Except.ok.inj (congrArg Prod.fst served))
          refine ⟨keeps.2, .inr ⟨fun reaches => ?_, keeps.1⟩⟩
          rw [ReachesBody, ← closing] at reaches
          cases reaches.2.1
        | none =>
          rcases behindGates_after gates served with ⟨rate, authz, reads, rfl⟩ | ⟨stopped, rfl⟩
          · refine ⟨(readJson_closing gates head passed).trans keeps.2, .inl ⟨?_, fun n declared => ?_⟩⟩
            · exact ⟨method, closing.symm, rate, authz, reads⟩
            · rw [readJson_rest gates (length n declared rfl), keeps.1]
          · refine ⟨keeps.2, .inr ⟨fun reaches => ?_, keeps.1⟩⟩
            exact stopped ⟨reaches.2.2.1, reaches.2.2.2.1, reaches.2.2.2.2⟩

/-- An answered request leaves the connection closed or at the end of its body exactly when it is framed. -/
theorem aligned_iff {head : RequestHead} {handler after : Handler} {world later : World} {response : Response}
    (answered : handleOneRequest gates node head handler world = (.ok response, after, later)) :
    Aligned head handler after ↔ Framed gates node head handler world := by
  obtain ⟨closes, moved⟩ := handleOneRequest_after gates node answered
  unfold Aligned Framed
  rw [closes]
  refine or_congr_right (exists_congr fun n => and_congr_right fun declared => ?_)
  rcases moved with ⟨reaches, read⟩ | ⟨stays, same⟩
  · exact ⟨fun _ => .inr (.inr reaches), fun _ => read n declared⟩
  · rw [same]
    constructor
    · intro unread
      by_cases none_left : handler.rest = []
      · exact .inr (.inl none_left)
      · left
        have length := congrArg List.length unread
        rw [List.length_drop] at length
        have positive := List.length_pos_of_ne_nil none_left
        omega
    · rintro (rfl | none_left | reaches)
      · rfl
      · rw [none_left, List.drop_nil]
      · exact absurd reaches stays

section Sample

def emptyObject : Op Unit Json := done (.obj [])

/-- A node whose operations all answer with an empty object. -/
def quietNode : NodeCalls Unit where
  handle _ := done (200, .obj [])
  handleScore _ := done (200, .obj [])
  register _ := done []
  friends := emptyObject
  issueSalt _ := done (200, .obj [])
  pullSalts := emptyObject
  challengeOpen _ := emptyObject
  challengeSeat _ := emptyObject
  challengeCommit _ := emptyObject
  challengeReveal _ := emptyObject
  challengeResolve _ := emptyObject
  handleTask := none
  trace := none
  receiveRoot _ := done (200, .obj [])
  receiveSegment _ := done (200, .obj [])
  receiveConsistency _ := done (200, .obj [])
  pushToPeers := emptyObject
  anchor := emptyObject
  allowTestHooks := false
  setWitness _ := done ()
  containmentHook _ := emptyObject
  readiness := done (200, .obj [])
  metrics := done []
  capabilities := emptyObject
  chainExport := emptyObject
  signedRoot := emptyObject
  serveSegment _ := done (200, .obj [])
  serveConsistency _ := done (200, .obj [])
  peers := emptyObject
  replicateStatus := emptyObject
  attestation := done (200, .obj [])
  anchors := emptyObject
  containment := emptyObject

def smallGates : Gates Unit where
  maxBodyBytes := 8
  revokedSerials := []
  authz := none
  rateLimiter := none
  peerIdentity := (none, none)
  clientAddress := "127.0.0.1"
  waits retry := (retry, "1")

def messagesHead (length : Str) : RequestHead where
  method := .post
  path := "/v1/messages"
  headers := [("Content-Length", length)]
  modern := true

/-- A whole request as the body of another. -/
def innerRequest : Bytes := ascii "GET /witness/chain HTTP/1.1\r\n\r\n"

theorem aligned_iff_sample : ∃ response after,
    handleOneRequest smallGates quietNode (messagesHead "2") ⟨ascii "\x7b\x7dGET ", none, false⟩ () =
        (.ok response, after, ()) ∧
      (Aligned (messagesHead "2") ⟨ascii "\x7b\x7dGET ", none, false⟩ after ↔
        Framed smallGates quietNode (messagesHead "2") ⟨ascii "\x7b\x7dGET ", none, false⟩ ()) := by
  have returns : (handleOneRequest smallGates quietNode (messagesHead "2")
      ⟨ascii "\x7b\x7dGET ", none, false⟩ ()).1.isOk = true := by decide +kernel
  obtain ⟨response, made⟩ := Py.exists_of_isOk returns
  exact ⟨response, _, Prod.ext made rfl, aligned_iff smallGates quietNode (Prod.ext made rfl)⟩

set_option maxRecDepth 4000 in
/-- A body over the cap is refused and stays on the connection, where the next request is read. -/
theorem refused_body_is_parsed : ∃ response after,
    handleOneRequest smallGates quietNode (messagesHead "31") ⟨innerRequest, none, false⟩ () =
        (.ok response, after, ()) ∧
      declaredLength (messagesHead "31") = some innerRequest.length ∧ after.rest = innerRequest ∧
      ¬Aligned (messagesHead "31") ⟨innerRequest, none, false⟩ after := by
  have returns : (handleOneRequest smallGates quietNode (messagesHead "31") ⟨innerRequest, none, false⟩ ()).1.isOk =
      true := by decide +kernel
  have stays : (handleOneRequest smallGates quietNode (messagesHead "31") ⟨innerRequest, none, false⟩ ()).2.1 =
      ⟨innerRequest, none, false⟩ := by decide +kernel
  have declared : declaredLength (messagesHead "31") = some innerRequest.length := by decide +kernel
  have not_empty : innerRequest ≠ innerRequest.drop innerRequest.length := by decide +kernel
  obtain ⟨response, made⟩ := Py.exists_of_isOk returns
  refine ⟨response, ⟨innerRequest, none, false⟩, Prod.ext made (Prod.ext stays rfl), declared, rfl, ?_⟩
  rintro (closed | ⟨n, length, rest⟩)
  · cases closed
  · obtain rfl := Option.some.inj (declared.symm.trans length)
    exact not_empty rest

end Sample

end JJDai.Daemon.Http
