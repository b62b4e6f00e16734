import JJDai.Primitive.Witness

/-! `WitnessChain.append` with the salts it mints: where a call can raise, and what
it then leaves in the local salt store. -/

namespace JJDai

open PyText Canonical WitnessChain

abbrev Salts := Dict (Nat × Str) Bytes

structure SaltedChain where
  chain : WitnessChain
  salts : Salts := []

/-- `_commit` of an optional value: the salt is kept once the value is canonical. -/
def mintCommit (crypto : Crypto) (salts : Salts) (index : Nat) (field : Str) (salt : Bytes) :
    Json → Salts × Py Json
  | .null => (salts, .ok .null)
  | value =>
    match commitment crypto salt value with
    | .error e => (salts, .error e)
    | .ok committed => (Dict.set salts (index, field) salt, .ok committed)

/-- The body of the record that would enter the chain, and its two last fields. -/
def recordBody (crypto : Crypto) (chain : WitnessChain) (call : AppendCall)
    (prevHash request response provenance : Json) : Dict Str Json :=
  ([("index", .int chain.nextIndex), ("prev_hash", prevHash), ("timestamp", call.timestamp),
    ("node_id", .str (chain.nodeId crypto)), ("kind", .str call.kind),
    ("request_commitment", request), ("response_commitment", response),
    ("provenance_hash", provenance), ("semantic_digest", call.semanticDigest)] : Dict Str Json) ++
  optionalField "session_id" call.sessionId ++
  optionalField "ir_schema_version" call.irSchemaVersion ++
  optionalField "entanglement" call.entanglement

def sealRecord (crypto : Crypto) (chain : WitnessChain) (body : Dict Str Json) : Py Json := do
  let data ← canonical (.obj body)
  let thisHash := H_hex crypto data
  let signed ← encode thisHash
  return .obj (body ++ ([("this_hash", .str thisHash),
    ("sig", .str (toHex (chain.sk.sign crypto signed)))] : Dict Str Json))

def receiptOf (chain : WitnessChain) (call : AppendCall) (record : Json) : Py Json := do
  let thisHash ← subscript record "this_hash"
  return .obj [("index", .int chain.nextIndex), ("this_hash", thisHash), ("kind", .str call.kind),
    ("anchored", .bool false), ("anchor_eta", .str "batch@root")]

namespace SaltedChain

variable (crypto : Crypto)

/-- `_append_locked`; `written` tells whether `_persist` completes. -/
def appendLocked (log : SaltedChain) (call : AppendCall) (written : Bool) : SaltedChain × Py Json :=
  match log.chain.headHash with
  | .error e => (log, .error e)
  | .ok prevHash =>
    let index := log.chain.nextIndex
    let (salts, request) := mintCommit crypto log.salts index "request" call.requestSalt call.request
    match request with
    | .error e => ({ log with salts }, .error e)
    | .ok request =>
      let (salts, response) := mintCommit crypto salts index "response" call.responseSalt call.response
      match response with
      | .error e => ({ log with salts }, .error e)
      | .ok response =>
        match (do
          let provenance ← provenanceHash crypto call.provenance
          sealRecord crypto log.chain
            (recordBody crypto log.chain call prevHash request response provenance)) with
        | .error e => ({ log with salts }, .error e)
        | .ok record =>
          if written then
            ({ chain := { log.chain with records := log.chain.records ++ [record] }, salts },
              receiptOf log.chain call record)
          else
            ({ log with salts := Dict.erase (Dict.erase salts (index, "request")) (index, "response") },
              raise .osError)

def append (log : SaltedChain) (call : AppendCall) (written : Bool) : SaltedChain × Py Json :=
  match checkAppend call with
  | .error e => (log, .error e)
  | .ok () => log.appendLocked crypto call written

/-- Where a call stops; the arguments and the chain decide all but the write. -/
inductive Stop where
  | beforeSalts | atResponse | atRecord | atWrite | never

def stopAt (log : SaltedChain) (call : AppendCall) (written : Bool) : Stop :=
  if (checkAppend call).isOk && log.chain.headHash.isOk &&
      (commitment crypto call.requestSalt call.request).isOk then
    if (commitment crypto call.responseSalt call.response).isOk then
      if (log.chain.buildRecord crypto call).isOk then if written then .never else .atWrite
      else .atRecord
    else .atResponse
  else .beforeSalts

/-- A call that raises leaves the chain and every salt as they were. -/
def Atomic (log : SaltedChain) (call : AppendCall) (written : Bool) : Prop :=
  ∀ e, (log.append crypto call written).2 = .error e →
    (log.append crypto call written).1.chain = log.chain ∧
      ∀ key, Dict.get? (log.append crypto call written).1.salts key = Dict.get? log.salts key

/-- A salt drawn for the next record already stands at its place, or is not drawn. -/
def Held (log : SaltedChain) (field : Str) (salt : Bytes) (value : Json) : Prop :=
  value ≠ .null → Dict.get? log.salts (log.chain.nextIndex, field) = some salt

/-- No salt is minted before the call raises, and a write that fails takes none away. -/
def SaltsKept (log : SaltedChain) (call : AppendCall) (written : Bool) : Prop :=
  match log.stopAt crypto call written with
  | .beforeSalts => True
  | .atResponse => log.Held "request" call.requestSalt call.request
  | .atRecord => log.Held "request" call.requestSalt call.request ∧
      log.Held "response" call.responseSalt call.response
  | .atWrite => Dict.get? log.salts (log.chain.nextIndex, "request") = none ∧
      Dict.get? log.salts (log.chain.nextIndex, "response") = none
  | .never => True

variable {crypto} {log : SaltedChain} {call : AppendCall} {written : Bool}

theorem mintCommit_error {salts : Salts} {index : Nat} {field : Str} {salt : Bytes} {value : Json}
    {e : PyErr} (refused : commitment crypto salt value = .error e) :
    mintCommit crypto salts index field salt value = (salts, .error e) := by
  cases value with
  | null => cases refused
  | _ => simp only [mintCommit, refused]

/-- The salts after a successful commitment. -/
def minted (salts : Salts) (index : Nat) (field : Str) (salt : Bytes) (value : Json) : Salts :=
  if value = .null then salts else Dict.set salts (index, field) salt

theorem mintCommit_ok {salts : Salts} {index : Nat} {field : Str} {salt : Bytes}
    {value committed : Json} (made : commitment crypto salt value = .ok committed) :
    mintCommit crypto salts index field salt value =
      (minted salts index field salt value, .ok committed) := by
  cases value with
  | null =>
    obtain rfl := Except.ok.inj made
    rfl
  | _ => simp [mintCommit, made, minted]

theorem get?_minted (salts : Salts) (index : Nat) (field : Str) (salt : Bytes) (value : Json)
    (key : Nat × Str) : Dict.get? (minted salts index field salt value) key =
      if value ≠ .null ∧ (index, field) = key then some salt else Dict.get? salts key := by
  unfold minted
  by_cases absent : value = .null
  · simp [absent]
  · rw [if_neg absent, Dict.get?_set]
    simp [absent]

theorem buildRecord_eq {prevHash request response : Json} (head : log.chain.headHash = .ok prevHash)
    (first : commitment crypto call.requestSalt call.request = .ok request)
    (second : commitment crypto call.responseSalt call.response = .ok response) :
    log.chain.buildRecord crypto call = (do
      let provenance ← provenanceHash crypto call.provenance
      sealRecord crypto log.chain
        (recordBody crypto log.chain call prevHash request response provenance)) := by
  simp only [WitnessChain.buildRecord, head, first, second, bind, Except.bind]
  rfl

/-- The salts once the request is committed. -/
def requestMinted (log : SaltedChain) (call : AppendCall) : Salts :=
  minted log.salts log.chain.nextIndex "request" call.requestSalt call.request

/-- The salts once the response is committed too. -/
def responseMinted (log : SaltedChain) (call : AppendCall) : Salts :=
  minted (log.requestMinted call) log.chain.nextIndex "response" call.responseSalt call.response

/-- What a call leaves behind at each place where it can stop. -/
inductive Outcome (crypto : Crypto) (log : SaltedChain) (call : AppendCall) (written : Bool) : Prop where
  | beforeSalts (e : PyErr) (stops : log.stopAt crypto call written = .beforeSalts)
      (leaves : log.append crypto call written = (log, .error e))
  | atResponse (e : PyErr) (stops : log.stopAt crypto call written = .atResponse)
      (leaves : log.append crypto call written = ({ log with salts := log.requestMinted call }, .error e))
  | atRecord (e : PyErr) (stops : log.stopAt crypto call written = .atRecord)
      (leaves : log.append crypto call written = ({ log with salts := log.responseMinted call }, .error e))
  | atWrite (stops : log.stopAt crypto call written = .atWrite)
      (leaves : log.append crypto call written =
        ({ log with salts := Dict.erase (Dict.erase (log.responseMinted call)
          (log.chain.nextIndex, "request")) (log.chain.nextIndex, "response") }, raise .osError))
  | never (record : Json) (stops : log.stopAt crypto call written = .never)
      (built : log.chain.buildRecord crypto call = .ok record)
      (leaves : log.append crypto call written =
        ({ chain := { log.chain with records := log.chain.records ++ [record] },
           salts := log.responseMinted call }, receiptOf log.chain call record))

theorem outcome (crypto : Crypto) (log : SaltedChain) (call : AppendCall) (written : Bool) :
    Outcome crypto log call written := by
  cases checked : checkAppend call with
  | error e =>
    exact .beforeSalts e (by simp [stopAt, checked, Except.isOk, Except.toBool])
      (by simp only [append, checked])
  | ok =>
    have entered : log.append crypto call written = log.appendLocked crypto call written := by
      simp only [append, checked]
    cases head : log.chain.headHash with
    | error e =>
      exact .beforeSalts e (by simp [stopAt, head, Except.isOk, Except.toBool])
        (by simp only [entered, appendLocked, head])
    | ok prevHash =>
      cases first : commitment crypto call.requestSalt call.request with
      | error e =>
        exact .beforeSalts e (by simp [stopAt, first, Except.isOk, Except.toBool])
          (by simp only [entered, appendLocked, head, mintCommit_error first])
      | ok request =>
        cases second : commitment crypto call.responseSalt call.response with
        | error e =>
          exact .atResponse e
            (by simp [stopAt, checked, head, first, second, Except.isOk, Except.toBool])
            (by simp only [entered, appendLocked, head, mintCommit_ok first, mintCommit_error second]
                rfl)
        | ok response =>
          have same := @buildRecord_eq crypto log call _ _ _ head first second
          cases built : log.chain.buildRecord crypto call with
          | error e =>
            exact .atRecord e
              (by simp [stopAt, checked, head, first, second, built, Except.isOk, Except.toBool])
              (by simp only [entered, appendLocked, head, mintCommit_ok first, mintCommit_ok second,
                    ← same, built]
                  rfl)
          | ok record =>
            cases written with
            | false =>
              exact .atWrite
                (by simp [stopAt, checked, head, first, second, built, Except.isOk, Except.toBool])
                (by simp only [entered, appendLocked, head, mintCommit_ok first, mintCommit_ok second,
                      ← same, built]
                    rfl)
            | true =>
              exact .never record
                (by simp [stopAt, checked, head, first, second, built, Except.isOk, Except.toBool])
                built
                (by simp only [entered, appendLocked, head, mintCommit_ok first, mintCommit_ok second,
                      ← same, built]
                    rfl)

theorem get?_requestMinted (key : Nat × Str) : Dict.get? (log.requestMinted call) key =
    if call.request ≠ .null ∧ (log.chain.nextIndex, Str.ofString "request") = key then some call.requestSalt
    else Dict.get? log.salts key :=
  get?_minted ..

theorem get?_responseMinted (key : Nat × Str) : Dict.get? (log.responseMinted call) key =
    if call.response ≠ .null ∧ (log.chain.nextIndex, Str.ofString "response") = key then some call.responseSalt
    else Dict.get? (log.requestMinted call) key :=
  get?_minted ..

theorem fields_ne (index : Nat) :
    (index, Str.ofString "request") ≠ (index, Str.ofString "response") := by
  intro same
  exact absurd (Prod.mk.inj same).2 (by decide)

theorem requestMinted_kept : (∀ key, Dict.get? (log.requestMinted call) key = Dict.get? log.salts key) ↔
    log.Held "request" call.requestSalt call.request := by
  constructor
  · intro kept present
    rw [← kept, get?_requestMinted, if_pos ⟨present, rfl⟩]
  · intro held key
    rw [get?_requestMinted]
    split
    · rename_i drawn
      rw [← drawn.2, held drawn.1]
    · rfl

theorem responseMinted_kept :
    (∀ key, Dict.get? (log.responseMinted call) key = Dict.get? log.salts key) ↔
      log.Held "request" call.requestSalt call.request ∧
        log.Held "response" call.responseSalt call.response := by
  constructor
  · intro kept
    have second : log.Held "response" call.responseSalt call.response := by
      intro present
      rw [← kept, get?_responseMinted, if_pos ⟨present, rfl⟩]
    refine ⟨fun present => ?_, second⟩
    rw [← kept, get?_responseMinted, if_neg (fun same => fields_ne _ same.2.symm),
      get?_requestMinted, if_pos ⟨present, rfl⟩]
  · rintro ⟨first, second⟩ key
    rw [get?_responseMinted]
    split
    · rename_i drawn
      rw [← drawn.2, second drawn.1]
    · exact requestMinted_kept.mpr first key

theorem rolledBack_kept :
    (∀ key, Dict.get? (Dict.erase (Dict.erase (log.responseMinted call) (log.chain.nextIndex, "request"))
        (log.chain.nextIndex, "response")) key = Dict.get? log.salts key) ↔
      Dict.get? log.salts (log.chain.nextIndex, "request") = none ∧
        Dict.get? log.salts (log.chain.nextIndex, "response") = none := by
  simp only [Dict.get?_erase]
  constructor
  · intro kept
    constructor
    · rw [← kept, if_neg (fields_ne _).symm, if_pos rfl]
    · rw [← kept, if_pos rfl]
  · rintro ⟨first, second⟩ key
    split
    · rename_i same
      rw [← same, second]
    · rename_i notResponse
      split
      · rename_i same
        rw [← same, first]
      · rename_i notRequest
        rw [get?_responseMinted, if_neg (fun drawn => notResponse drawn.2), get?_requestMinted,
          if_neg (fun drawn => notRequest drawn.2)]

theorem receiptOf_ok {record : Json} (built : log.chain.buildRecord crypto call = .ok record) :
    ∃ receipt, receiptOf log.chain call record = .ok receipt := by
  obtain ⟨hash, hashed⟩ := buildRecord_hash built
  exact ⟨_, by simp only [receiptOf, hashed, bind, Except.bind]; rfl⟩

theorem stopAt_built {record : Json} (checked : checkAppend call = .ok ())
    (built : log.chain.buildRecord crypto call = .ok record) :
    log.stopAt crypto call true = .never := by
  have parts := built
  simp only [buildRecord, bind, Py.bind_ok] at parts
  obtain ⟨prevHash, head, request, first, response, second, _⟩ := parts
  simp [stopAt, checked, head, first, second, built, Except.isOk, Except.toBool]

/-- With a write that completes, the chain and the answer are those of `WitnessChain.append`. -/
theorem append_written {appended : Appended} (made : log.chain.append crypto call = .ok appended) :
    log.append crypto call true =
      ({ chain := appended.chain, salts := log.responseMinted call }, .ok appended.receipt) := by
  simp only [WitnessChain.append, bind, Py.bind_ok] at made
  obtain ⟨_, checked, record, built, hash, hashed, made⟩ := made
  obtain rfl := Except.ok.inj made
  have completed := stopAt_built checked built
  cases log.outcome crypto call true with
  | never again stops rebuilt leaves =>
    obtain rfl := Except.ok.inj (built.symm.trans rebuilt)
    rw [leaves]
    simp only [receiptOf, hashed, bind, Except.bind]
    rfl
  | beforeSalts _ stops => cases completed.symm.trans stops
  | atResponse _ stops => cases completed.symm.trans stops
  | atRecord _ stops => cases completed.symm.trans stops
  | atWrite stops => cases completed.symm.trans stops

/-- `append` is atomic exactly where no salt is minted before it raises, and where
a write that fails rolls back no salt but its own. -/
theorem append_atomic_iff (crypto : Crypto) (log : SaltedChain) (call : AppendCall) (written : Bool) :
    log.Atomic crypto call written ↔ log.SaltsKept crypto call written := by
  cases log.outcome crypto call written with
  | beforeSalts e stops leaves =>
    simp [Atomic, SaltsKept, stops, leaves]
  | atResponse e stops leaves =>
    simpa [Atomic, SaltsKept, stops, leaves] using requestMinted_kept
  | atRecord e stops leaves =>
    simpa [Atomic, SaltsKept, stops, leaves] using responseMinted_kept
  | atWrite stops leaves =>
    simpa [Atomic, SaltsKept, stops, leaves, raise] using rolledBack_kept
  | never record stops built leaves =>
    obtain ⟨receipt, answered⟩ := receiptOf_ok built
    simp [Atomic, SaltsKept, stops, leaves, answered]

/-- A response that is not a number leaves the request's salt in the store. -/
theorem append_not_atomic : ¬ ∀ (log : SaltedChain) (call : AppendCall) (written : Bool),
    log.Atomic Crypto.sample call written := by
  intro always
  let log : SaltedChain := { chain := { sk := .sample 1, records := [] } }
  let call : AppendCall := { kind := "INFER", request := .obj [], response := .float .nan }
  have stops : (log.append Crypto.sample call true).2.isOk = false := by decide +kernel
  have salted : Dict.get? (log.append Crypto.sample call true).1.salts (0, "request") = some [] := by
    decide +kernel
  cases answer : (log.append Crypto.sample call true).2 with
  | ok receipt => simp [answer, Except.isOk, Except.toBool] at stops
  | error e =>
    have kept := (always log call true e answer).2 (0, "request")
    rw [salted] at kept
    cases kept

end SaltedChain

end JJDai
