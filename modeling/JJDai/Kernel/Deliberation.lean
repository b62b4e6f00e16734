import JJDai.Kernel.Viveka
import JJDai.Primitive.Merkle
import JJDai.Primitive.ReadBack
import JJDai.Primitive.VerifiedRecord

/-! The auditor of deliberation records, and the runs that it accepts. -/

namespace JJDai.Kernel

open PyText Canonical

/-- How much a verification established, weakest first. -/
inductive ProofLevel where
  | digestBound | attributed | commitmentOpened | identityBound
  deriving DecidableEq

def orElse (value default : Json) : Json := if truthy value then value else default

def openCommit (crypto : Crypto) (commitmentHex : Json) (salt data : Bytes) : Py Bool :=
  Merkle.hmacEqual commitmentHex (.str (H_hex crypto (salt ++ data)))

/-- `chain._salts.get((index, "request"))`. -/
def requestSalt (log : SaltedChain) (index : Json) : Option Bytes :=
  match asInt? index with
  | some (.ofNat n) => Dict.get? log.salts (n, "request")
  | _ => none

variable (crypto : Crypto) (beingId : Str)

/-- The opening of the committed request, when the writer's chain is given. -/
def checkOpening (log : SaltedChain) (i : Nat) (eventField : Str) (ev rec : Json) : Py Unit := do
  match requestSalt log (← dotGet rec "index") with
  | none => raise .vivekaError ("record " ++ natText i ++ ": opening was asked for and no salt is held for it — an " ++
      "unopenable commitment is not evidence")
  | some salt =>
    let committed ← canonical (.obj [(eventField, ev)])
    if !(← openCommit crypto (orElse (← dotGet rec "request_commitment") (.str "")) salt committed) then
      raise .vivekaError ("record " ++ natText i ++ ": the committed request does not open to this event under the " ++
        pyRepr eventField ++ " field")

/-- `rec.get("semantic_digest") or ""`, which has to be a string. -/
def digestOf (rec : Json) : Py Str := do
  match orElse (← dotGet rec "semantic_digest") (.str "") with
  | .str digest => return digest
  | _ => raise .attributeError

/-- The organ that a digest names by its prefix; the rest of the digest has to be the expected one. -/
def bindingOf (i : Nat) (digest tail : Str) : Py OrganBinding :=
  let found := digest.takeWhile (· ≠ ch ':')
  match Dict.get? organBindings found with
  | none => raise .vivekaError ("binding broken at event " ++ natText i)
  | some organBinding =>
    if digest ≠ found ++ tail then raise .vivekaError ("binding broken at event " ++ natText i)
    else return organBinding

/-- One round of the loop of `verify_deliberation_against_chain`. -/
def checkDeliberation (chain : Option SaltedChain) (i : Nat) (ev rec : Json) : Py Unit := do
  let sh ← stateHashOf crypto (getOr ev "state" (.obj []))
  let node := getOr ev "node" (getOr ev "ev" .null)
  let step := getOr ev "step" (.int 0)
  let tail := digestTail (← subscript ev "run_id") step node sh
  let organBinding ← bindingOf i (← digestOf rec) tail
  let want := H_hex crypto (← canonical (provenanceOf organBinding.organ beingId))
  if (← dotGet rec "provenance_hash") ≠ .str want then
    raise .vivekaError ("record " ++ natText i ++ " is not attributable to " ++ pyRepr beingId ++ " acting through " ++
      pyRepr organBinding.organ ++ ": its provenance names some other being, some other organ, or nothing at all")
  match chain with
  | none => return ()
  | some log => checkOpening crypto log i organBinding.eventField ev rec

def checkAll (chain : Option SaltedChain) : Nat → List (Json × Json) → Py Unit
  | _, [] => return ()
  | i, (ev, rec) :: rest => do
    checkDeliberation crypto beingId chain i ev rec
    checkAll chain (i + 1) rest

/-- `e["ev"] in ("step", "rollback", "blocked")`, for every event. -/
def witnessedOf : List Json → Py (List Json)
  | [] => return []
  | e :: rest => do
    let ev ← subscript e "ev"
    let later ← witnessedOf rest
    return if [Json.str "step", .str "rollback", .str "blocked"].contains ev then e :: later else later

/-- `r.get("kind") == "DELIBERATION"`, for every record. -/
def deliberationsOf : List Json → Py (List Json)
  | [] => return []
  | r :: rest => do
    let kind ← dotGet r "kind"
    let later ← deliberationsOf rest
    return if kind = .str "DELIBERATION" then r :: later else later

/-- `verify_deliberation_against_chain` without a hosting binding. -/
def verifyDeliberationAgainstChain (events chainRecords : List Json) (chain : Option SaltedChain) :
    Py (ProofLevel × Nat) := do
  let witnessed ← witnessedOf events
  let recs ← deliberationsOf chainRecords
  if recs.length ≠ witnessed.length then
    raise .vivekaError ("count mismatch: " ++ natText witnessed.length ++ " events vs " ++ natText recs.length ++
      " records")
  checkAll crypto beingId chain 0 (witnessed.zip recs)
  return (if chain.isNone then .attributed else .commitmentOpened, witnessed.length)

variable {crypto} {World : Type} {organ : Organ World} {host after : Host World}

theorem apply_events {viveka later : Viveka} {event : Json} (applied : viveka.apply crypto event = .ok later) :
    later.events = viveka.events ++ [event] := by
  simp only [Viveka.apply, bind, Py.bind_ok] at applied
  obtain ⟨ev, _, applied⟩ := applied
  split at applied
  · simp only [Py.bind_ok] at applied
    obtain ⟨_, _, _, _, _, _, _, _, made⟩ := applied
    exact (Except.ok.inj made) ▸ rfl
  · split at applied
    · simp only [Py.bind_ok] at applied
      obtain ⟨_, _, _, _, _, _, _, _, _, _, _, _, _, _, _, _, made⟩ := applied
      exact (Except.ok.inj made) ▸ rfl
    · split at applied
      · simp only [Py.bind_ok] at applied
        obtain ⟨_, _, _, _, _, _, _, _, made⟩ := applied
        exact (Except.ok.inj made) ▸ rfl
      · split at applied
        · exact (Except.ok.inj applied) ▸ rfl
        · cases applied

variable (crypto organ host) in
theorem emit_unwitnessed {event : Json} (silent : isWitnessed event = false) :
    (host.emit crypto organ event).1.viveka.events = host.viveka.events ++ [event] ∧
      (host.emit crypto organ event).1.log = host.log := by
  unfold Host.emit
  cases applied : host.viveka.apply crypto event with
  | error e => exact ⟨rfl, rfl⟩
  | ok viveka =>
    have events := apply_events applied
    dsimp only
    cases Host.write { host with viveka } event with
    | error e => exact ⟨events, rfl⟩
    | ok journal =>
      simp only [silent, Bool.false_eq_true, if_false]
      exact ⟨events, trivial⟩

/-- What a completed emission of a witnessed event adds to the chain. -/
structure Witnessed (crypto : Crypto) (organ : Organ World) (host after : Host World) (log : SaltedChain)
    (event : Json) where
  viveka : Viveka
  timestamp : Str
  salt : Bytes
  call : AppendCall
  record : Json
  applied : host.viveka.apply crypto event = .ok viveka
  made : deliberationCall crypto organ.beingId viveka event timestamp salt = .ok call
  built : log.chain.buildRecord crypto call = .ok record
  log_eq : after.log = some ⟨{ log.chain with records := log.chain.records ++ [record] }, log.responseMinted call⟩

theorem emit_witnessed {event : Json} {log : SaltedChain} (chained : host.log = some log)
    (witnessed : isWitnessed event = true) (emitted : host.emit crypto organ event = (after, .ok ())) :
    after.viveka.events = host.viveka.events ++ [event] ∧
      Nonempty (Witnessed crypto organ host after log event) := by
  unfold Host.emit at emitted
  cases applied : host.viveka.apply crypto event with
  | error e => simp [applied] at emitted
  | ok viveka =>
    simp only [applied] at emitted
    cases written : Host.write { host with viveka } event with
    | error e => simp [written] at emitted
    | ok journal =>
      simp only [written, witnessed, if_true] at emitted
      simp only [Host.witness, chained] at emitted
      cases called : (do
          let t ← subscript event "t"
          let timestamp ← organ.stamp t
          deliberationCall crypto organ.beingId viveka event timestamp (organ.urandom host.world).1 : Py AppendCall) with
      | error e => simp [called] at emitted
      | ok call =>
        simp only [called] at emitted
        obtain ⟨t, _, timestamp, _, made⟩ := by simpa only [bind, Py.bind_ok] using called
        obtain ⟨rfl, answered⟩ := Prod.mk.inj emitted
        refine ⟨apply_events applied, ?_⟩
        cases log.outcome crypto call true with
        | never record stops built leaves =>
          exact ⟨viveka, timestamp, _, call, record, applied, made, built, by rw [leaves]⟩
        | beforeSalts e stops leaves => simp [leaves, Except.map] at answered
        | atResponse e stops leaves => simp [leaves, Except.map] at answered
        | atRecord e stops leaves => simp [leaves, Except.map] at answered
        | atWrite stops leaves => simp [leaves, raise, Except.map] at answered

theorem bindingOf_ok {i : Nat} {digest tail : Str} {organBinding : OrganBinding} :
    bindingOf i digest tail = .ok organBinding ↔
      Dict.get? organBindings (digest.takeWhile (· ≠ ch ':')) = some organBinding ∧
        digest = digest.takeWhile (· ≠ ch ':') ++ tail := by
  simp only [bindingOf]
  cases Dict.get? organBindings (digest.takeWhile (· ≠ ch ':')) with
  | none => simp [raise]
  | some found =>
    dsimp only
    by_cases same : digest = digest.takeWhile (· ≠ ch ':') ++ tail
    · rw [if_neg (fun differ => differ same)]
      simp only [pure, Except.pure, Except.ok.injEq, Option.some.injEq]
      exact ⟨fun equal => ⟨equal, same⟩, fun both => both.1⟩
    · rw [if_pos same]
      simp only [raise, reduceCtorEq, false_iff, not_and]
      exact fun _ => same

/-- What one round of the auditor asks of an event and its record. -/
structure Passes (crypto : Crypto) (beingId : Str) (chain : Option SaltedChain) (i : Nat) (ev rec : Json) where
  sh : Str
  runId : Json
  digest : Str
  organBinding : OrganBinding
  data : Bytes
  hashed : stateHashOf crypto (getOr ev "state" (.obj [])) = .ok sh
  named : subscript ev "run_id" = .ok runId
  read : digestOf rec = .ok digest
  bound : bindingOf i digest (digestTail runId (getOr ev "step" (.int 0)) (getOr ev "node" (getOr ev "ev" .null)) sh) =
    .ok organBinding
  provenance : canonical (provenanceOf organBinding.organ beingId) = .ok data
  attributed : dotGet rec "provenance_hash" = .ok (.str (H_hex crypto data))
  opened : ∀ log, chain = some log → checkOpening crypto log i organBinding.eventField ev rec = .ok ()

theorem checkDeliberation_ok {chain : Option SaltedChain} {i : Nat} {ev rec : Json} :
    checkDeliberation crypto organ.beingId chain i ev rec = .ok () ↔
      Nonempty (Passes crypto organ.beingId chain i ev rec) := by
  simp only [checkDeliberation, bind, Py.bind_ok, Py.unless_ok, not_not, ne_eq]
  constructor
  · rintro ⟨sh, hashed, runId, named, digest, read, organBinding, bound, data, provenance, _, attributed, rfl, opened⟩
    refine ⟨⟨sh, runId, digest, organBinding, data, hashed, named, read, bound, provenance, attributed, ?_⟩⟩
    rintro log rfl
    exact opened
  · rintro ⟨sh, runId, digest, organBinding, data, hashed, named, read, bound, provenance, attributed, opened⟩
    refine ⟨sh, hashed, runId, named, digest, read, organBinding, bound, data, provenance, _, attributed, rfl, ?_⟩
    cases chain with
    | none => rfl
    | some log => exact opened log rfl

theorem checkDeliberation_without {log : SaltedChain} {i : Nat} {ev rec : Json}
    (passed : checkDeliberation crypto organ.beingId (some log) i ev rec = .ok ()) :
    checkDeliberation crypto organ.beingId none i ev rec = .ok () := by
  obtain ⟨passes⟩ := checkDeliberation_ok.mp passed
  exact checkDeliberation_ok.mpr ⟨{ passes with opened := fun _ absent => by cases absent }⟩

theorem checkDeliberation_salts {log later : SaltedChain} {i : Nat} {ev rec index : Json}
    (numbered : dotGet rec "index" = .ok index) (same : requestSalt later index = requestSalt log index)
    (passed : checkDeliberation crypto organ.beingId (some log) i ev rec = .ok ()) :
    checkDeliberation crypto organ.beingId (some later) i ev rec = .ok () := by
  obtain ⟨passes⟩ := checkDeliberation_ok.mp passed
  have opening := passes.opened log rfl
  refine checkDeliberation_ok.mpr ⟨{ passes with opened := ?_ }⟩
  rintro _ ⟨⟩
  simp only [checkOpening, numbered, bind, Except.bind] at opening ⊢
  rw [same]
  exact opening

theorem takeWhile_prefix (runId step node : Json) (sh : Str) :
    (kriyaGateDigestPrefix ++ digestTail runId step node sh).takeWhile (· ≠ ch ':') = kriyaGateDigestPrefix := by
  have plain : kriyaGateDigestPrefix.all (fun c => decide (c ≠ ch ':')) = true := by decide +kernel
  have colon : Str.ofString ":" = [ch ':'] := by decide
  simp only [digestTail, colon, List.append_assoc]
  rw [List.takeWhile_append_of_pos (List.all_eq_true.mp plain), List.singleton_append, List.takeWhile_cons_of_neg (by decide), List.append_nil]

theorem bindingOf_emitted (i : Nat) (runId step node : Json) (sh : Str) :
    bindingOf i (kriyaGateDigestPrefix ++ digestTail runId step node sh) (digestTail runId step node sh) =
      .ok kriyaGateBinding := by
  rw [bindingOf_ok, takeWhile_prefix]
  exact ⟨rfl, rfl⟩

theorem truthy_hash (data : Bytes) : truthy (.str (H_hex crypto data)) = true := by
  have length : (H_hex crypto data).length = 2 * (crypto.H data).length := by
    simp [H_hex, toHex, Nat.mul_comm]
  have left : H_hex crypto data ≠ [] := by
    rintro nil
    rw [nil, crypto.length_H] at length
    cases length
  simpa [truthy] using left

theorem digestOf_emitted {rec : Json} {runId step node : Json} {sh : Str}
    (read : dotGet rec "semantic_digest" = .ok (.str (kriyaGateDigestPrefix ++ digestTail runId step node sh))) :
    digestOf rec = .ok (kriyaGateDigestPrefix ++ digestTail runId step node sh) := by
  have left : truthy (.str (kriyaGateDigestPrefix ++ digestTail runId step node sh)) = true := by
    simp [truthy, kriyaGateDigestPrefix]
    intro none
    cases none
  simp only [digestOf, read, bind, Except.bind, orElse, left, if_true]
  rfl

theorem checkOpening_new {log : SaltedChain} {rec ev : Json} {n i : Nat} {eventField : Str} {salt data : Bytes}
    (numbered : dotGet rec "index" = .ok (.int n)) (salted : Dict.get? log.salts (n, "request") = some salt)
    (canon : canonical (.obj [(eventField, ev)]) = .ok data)
    (committed : dotGet rec "request_commitment" = .ok (.str (H_hex crypto (salt ++ data)))) :
    checkOpening crypto log i eventField ev rec = .ok () := by
  have found : requestSalt log (.int n) = some salt := salted
  have ascii : isAscii (H_hex crypto (salt ++ data)) = true := isAscii_toHex _
  have opens : openCommit crypto (.str (H_hex crypto (salt ++ data))) salt data = .ok true := by
    simp [openCommit, Merkle.hmacEqual, ascii, pure, Except.pure]
  simp only [checkOpening, numbered, found, canon, committed, bind, Except.bind, orElse, truthy_hash, if_true, opens]
  rfl

/-- The auditor accepts the record of an event, when both read the same step and state. -/
theorem checkDeliberation_new {log : SaltedChain} {event : Json} (w : Witnessed crypto organ host after log event)
    (hashes : stateHashOf crypto (getOr event "state" (.obj w.viveka.state)) =
      stateHashOf crypto (getOr event "state" (.obj [])))
    (steps : getOr event "step" (.int w.viveka.step) = getOr event "step" (.int 0)) (later : SaltedChain)
    (salts : ∀ key, Dict.get? later.salts key = Dict.get? (log.responseMinted w.call) key) :
    checkDeliberation crypto organ.beingId (some later) log.chain.nextIndex event w.record = .ok () := by
  have fields := recordFields w.built
  have made := w.made
  simp only [deliberationCall, bind, Py.bind_ok] at made
  obtain ⟨sh, hashed, runId, named, made⟩ := made
  have call := (Except.ok.inj made).symm
  obtain ⟨hash, provenance, attributed⟩ := fields.provenance
  obtain ⟨committed, request, committedRead⟩ := fields.request
  have digest := fields.digest
  rw [call] at provenance request digest
  simp only [provenanceOf, WitnessChain.provenanceHash, WitnessChain.commitment, bind, Py.bind_ok] at provenance request
  obtain ⟨data, canon, provenance⟩ := provenance
  obtain ⟨text, requestText, request⟩ := request
  obtain rfl := Except.ok.inj provenance
  obtain rfl := Except.ok.inj request
  have salted : Dict.get? later.salts (log.chain.nextIndex, "request") = some w.salt := by
    rw [salts, SaltedChain.get?_responseMinted, if_neg (by rw [call]; simp), SaltedChain.get?_requestMinted,
      if_pos (by rw [call]; simp)]
    rw [call]
  refine checkDeliberation_ok.mpr ⟨{
    sh := sh, runId := runId, digest := _, organBinding := kriyaGateBinding, data := data
    hashed := hashes ▸ hashed, named := named, read := digestOf_emitted digest
    bound := ?_, provenance := canon, attributed := attributed, opened := ?_ }⟩
  · rw [← steps]
    exact bindingOf_emitted _ _ _ _ _
  · rintro _ ⟨⟩
    exact checkOpening_new fields.index salted requestText committedRead

theorem witnessedOf_append {events found : List Json} {event ev : Json} (read : witnessedOf events = .ok found)
    (named : subscript event "ev" = .ok ev) : witnessedOf (events ++ [event]) =
      .ok (if [Json.str "step", .str "rollback", .str "blocked"].contains ev then found ++ [event] else found) := by
  induction events generalizing found with
  | nil =>
    obtain rfl := Except.ok.inj read
    simp only [List.nil_append, witnessedOf, named, bind, Except.bind]
    rfl
  | cons e rest ih =>
    simp only [witnessedOf, bind, Py.bind_ok] at read
    obtain ⟨kind, kindRead, later, laterRead, made⟩ := read
    obtain rfl := Except.ok.inj made
    simp only [List.cons_append, witnessedOf, kindRead, ih laterRead, bind, Except.bind]
    split <;> split <;> rfl

theorem deliberationsOf_append {records found : List Json} {record : Json} (read : deliberationsOf records = .ok found)
    (kind : dotGet record "kind" = .ok (.str "DELIBERATION")) :
    deliberationsOf (records ++ [record]) = .ok (found ++ [record]) := by
  induction records generalizing found with
  | nil =>
    obtain rfl := Except.ok.inj read
    simp only [List.nil_append, deliberationsOf, kind, bind, Except.bind]
    rfl
  | cons r rest ih =>
    simp only [deliberationsOf, bind, Py.bind_ok] at read
    obtain ⟨value, valueRead, later, laterRead, made⟩ := read
    obtain rfl := Except.ok.inj made
    simp only [List.cons_append, deliberationsOf, valueRead, ih laterRead, bind, Except.bind]
    split <;> rfl

theorem newest_of_append {items : List Json} {item found : Json} {i : Nat} (newest : items.length ≤ i)
    (read : (items ++ [item])[i]? = some found) : i = items.length ∧ found = item := by
  rw [List.getElem?_append_right newest] at read
  obtain ⟨bound, same⟩ := List.getElem?_eq_some_iff.mp read
  have last : i - items.length = 0 := Nat.lt_one_iff.mp bound
  refine ⟨by omega, ?_⟩
  rw [← same]
  simp [last]

/-- The records of a chain are those of the witnessed events, one by one. -/
structure Audited (crypto : Crypto) (beingId : Str) (events : List Json) (log : SaltedChain) : Prop where
  kinds : deliberationsOf log.chain.records = .ok log.chain.records
  indexed : ∀ (i : Nat) rec, log.chain.records[i]? = some rec → dotGet rec "index" = .ok (.int i)
  matched : ∃ witnessed, witnessedOf events = .ok witnessed ∧ witnessed.length = log.chain.records.length ∧
    ∀ (i : Nat) ev rec, witnessed[i]? = some ev → log.chain.records[i]? = some rec →
      checkDeliberation crypto beingId (some log) i ev rec = .ok ()

theorem checkAll_ok {chain : Option SaltedChain} {pairs : List (Json × Json)} {first : Nat}
    (each : ∀ (i : Nat) ev rec, pairs[i]? = some (ev, rec) →
      checkDeliberation crypto organ.beingId chain (first + i) ev rec = .ok ()) :
    checkAll crypto organ.beingId chain first pairs = .ok () := by
  induction pairs generalizing first with
  | nil => rfl
  | cons pair rest ih =>
    obtain ⟨ev, rec⟩ := pair
    have head : checkDeliberation crypto organ.beingId chain first ev rec = .ok () := each 0 ev rec rfl
    have tail : checkAll crypto organ.beingId chain (first + 1) rest = .ok () := by
      refine ih (fun i ev rec found => ?_)
      have later := each (i + 1) ev rec found
      rwa [Nat.add_comm i 1, ← Nat.add_assoc] at later
    simp only [checkAll, head, bind, Except.bind]
    exact tail

theorem Audited.verifies {events : List Json} {log : SaltedChain} (audited : Audited crypto organ.beingId events log)
    {chain : Option SaltedChain} (given : chain = none ∨ chain = some log) :
    ∃ level, verifyDeliberationAgainstChain crypto organ.beingId events log.chain.records chain =
      .ok (level, log.chain.records.length) := by
  obtain ⟨witnessed, read, length, each⟩ := audited.matched
  have passes : checkAll crypto organ.beingId chain 0 (witnessed.zip log.chain.records) = .ok () := by
    refine checkAll_ok (fun i ev rec found => ?_)
    obtain ⟨first, second⟩ := List.getElem?_zip_eq_some.mp found
    have passed := each i ev rec first second
    rw [Nat.zero_add]
    rcases given with rfl | rfl
    · exact checkDeliberation_without passed
    · exact passed
  refine ⟨if chain.isNone then .attributed else .commitmentOpened, ?_⟩
  simp only [verifyDeliberationAgainstChain, read, audited.kinds, passes, length, bind, Except.bind, ne_eq, not_true,
    if_false]
  rfl

theorem Audited.unwitnessed {events : List Json} {log : SaltedChain}
    (audited : Audited crypto organ.beingId events log) {event ev : Json} (named : subscript event "ev" = .ok ev)
    (silent : [Json.str "step", .str "rollback", .str "blocked"].contains ev = false) :
    Audited crypto organ.beingId (events ++ [event]) log := by
  obtain ⟨witnessed, read, rest⟩ := audited.matched
  refine ⟨audited.kinds, audited.indexed, witnessed, ?_, rest⟩
  rw [witnessedOf_append read named, silent]
  rfl

theorem Audited.extended {log : SaltedChain} (audited : Audited crypto organ.beingId host.viveka.events log) {event ev : Json}
    (named : subscript event "ev" = .ok ev)
    (listed : [Json.str "step", .str "rollback", .str "blocked"].contains ev = true)
    (w : Witnessed crypto organ host after log event)
    (hashes : stateHashOf crypto (getOr event "state" (.obj w.viveka.state)) =
      stateHashOf crypto (getOr event "state" (.obj [])))
    (steps : getOr event "step" (.int w.viveka.step) = getOr event "step" (.int 0)) :
    Audited crypto organ.beingId (host.viveka.events ++ [event])
      ⟨{ log.chain with records := log.chain.records ++ [w.record] }, log.responseMinted w.call⟩ := by
  have fields := recordFields w.built
  have kind : dotGet w.record "kind" = .ok (.str "DELIBERATION") := by
    have made := w.made
    simp only [deliberationCall, bind, Py.bind_ok] at made
    obtain ⟨_, _, _, _, made⟩ := made
    rw [fields.kind, ← Except.ok.inj made]
  obtain ⟨witnessed, read, length, each⟩ := audited.matched
  refine ⟨deliberationsOf_append audited.kinds kind, fun i rec found => ?_, witnessed ++ [event], ?_, ?_, ?_⟩
  · rcases Nat.lt_or_ge i log.chain.records.length with older | newest
    · rw [List.getElem?_append_left older] at found
      exact audited.indexed i rec found
    · obtain ⟨rfl, rfl⟩ := newest_of_append newest found
      exact fields.index
  · rw [witnessedOf_append read named, if_pos listed]
  · simp [length]
  · intro i ev' rec evFound recFound
    rcases Nat.lt_or_ge i log.chain.records.length with older | newest
    · rw [List.getElem?_append_left older] at recFound
      rw [List.getElem?_append_left (length ▸ older)] at evFound
      refine checkDeliberation_salts (audited.indexed i rec recFound) ?_ (each i ev' rec evFound recFound)
      have other : (log.chain.nextIndex, Str.ofString "request") ≠ (i, Str.ofString "request") := by
        intro same
        exact absurd (Prod.mk.inj same).1 (Nat.ne_of_gt older)
      have apart : (log.chain.nextIndex, Str.ofString "response") ≠ (i, Str.ofString "request") := by
        intro same
        exact absurd (Prod.mk.inj same).2 (by decide)
      change Dict.get? (log.responseMinted w.call) (i, Str.ofString "request") = Dict.get? log.salts (i, Str.ofString "request")
      rw [SaltedChain.get?_responseMinted, if_neg (fun drawn => apart drawn.2), SaltedChain.get?_requestMinted,
        if_neg (fun drawn => other drawn.2)]
    · obtain ⟨rfl, rfl⟩ := newest_of_append newest recFound
      obtain ⟨_, rfl⟩ := newest_of_append (Nat.le_of_eq length) evFound
      exact checkDeliberation_new w hashes steps _ (fun _ => rfl)

/-- Neither the events nor the chain are touched. -/
structure Frame (host after : Host World) : Prop where
  events : after.viveka.events = host.viveka.events
  log : after.log = host.log

theorem Frame.refl (host : Host World) : Frame host host := ⟨rfl, rfl⟩

variable (organ) in
theorem permitted_world (host : Host World) (node : Node World) :
    ∃ world answer, host.permitted organ node = ({ host with world }, answer) := by
  unfold Host.permitted
  split
  · split
    · exact ⟨_, _, rfl⟩
    · exact ⟨host.world, _, rfl⟩
  · exact ⟨host.world, _, rfl⟩

variable (organ) in
theorem nextNode_world (host : Host World) (node : Str) :
    ∃ world answer, host.nextNode organ node = ({ host with world }, answer) := by
  unfold Host.nextNode
  split
  · exact ⟨_, _, rfl⟩
  · exact ⟨host.world, _, rfl⟩

/-- What a round of the loop does before it emits. -/
inductive Ready (organ : Organ World) (host : Host World) : Host World × Py Host.Intent → Prop where
  | ended : Ready organ host (host, .ok .stop)
  | budget : Ready organ host (host.setStatus .budget, .ok .stop)
  | failed (after : Host World) (e : PyErr) (frame : Frame host after) : Ready organ host (after, .error e)
  | blocked (world : World) (t : PyFloat) (name : Str) (cursor : host.viveka.cursor = .str name) : Ready organ host
      ({ host with world }, .ok (.block (blockedEvent t host.viveka.runId host.viveka.step name)))
  | executed (world : World) (t : PyFloat) (name : Str) (state : Dict Str Json)
      (cursor : host.viveka.cursor = .str name) (within : host.viveka.step < organ.maxSteps) : Ready organ host
      ({ host with world, viveka := { host.viveka with state, step := host.viveka.step + 1 } },
        .ok (.record name (stepEvent t host.viveka.runId (host.viveka.step + 1) name state)))

theorem execute_ready {host : Host World} {name : Str} (cursor : host.viveka.cursor = .str name)
    (within : host.viveka.step < organ.maxSteps) (world : World) (node : Node World) :
    Ready organ host (Host.execute crypto organ { host with world } name node) := by
  unfold Host.execute
  dsimp only
  split
  · exact .failed _ _ ⟨rfl, rfl⟩
  · split
    · exact .failed _ _ ⟨rfl, rfl⟩
    · exact .executed _ _ _ _ cursor within

variable (crypto organ) in
theorem intent_ready (host : Host World) : Ready organ host (host.intent crypto organ) := by
  unfold Host.intent
  split
  · exact .ended
  · rename_i name cursor
    split
    · exact .ended
    · split
      · exact .budget
      · rename_i open_
        have within := lt_of_not_ge open_
        cases Dict.get? organ.nodes name with
        | none => exact .failed _ _ (.refl host)
        | some node =>
          obtain ⟨world, answer, asked⟩ := permitted_world organ host node
          simp only [asked]
          cases answer with
          | error e => exact .failed _ _ ⟨rfl, rfl⟩
          | ok allowed =>
            cases allowed with
            | true => exact execute_ready cursor within world node
            | false => exact .blocked _ _ _ cursor
  · exact .failed _ _ (.refl host)

variable (organ) in
theorem rewind_frame (host : Host World) (checkpointStep : Int) (patch : Dict Str Json) :
    Frame host (host.rewind organ checkpointStep patch).1 := by
  unfold Host.rewind
  split
  · exact .refl host
  · rename_i target _
    obtain ⟨world, answer, asked⟩ := nextNode_world organ
      { host with viveka := { host.viveka with state := Dict.update target.state patch, step := target.step } } target.node
    simp only [asked]
    cases answer <;> exact ⟨rfl, rfl⟩

theorem advance_frame (host : Host World) (node : Str) : Frame host (host.advance organ node).1 := by
  obtain ⟨world, answer, asked⟩ := nextNode_world organ host node
  unfold Host.advance
  simp only [asked]
  cases answer <;> exact ⟨rfl, rfl⟩

variable (crypto organ) in
/-- The record of an event enters the chain, and a blocked event tells the auditor
the state it was blocked in: the hash of that state is the hash of the empty one. -/
def ClearTurn (host : Host World) : Prop :=
  match host.intent crypto organ with
  | (ready, .ok (.block event)) => (ready.emit crypto organ event).2.isOk = true ∧
      stateHashOf crypto (.obj host.viveka.state) = stateHashOf crypto (.obj [])
  | (ready, .ok (.record _ event)) => (ready.emit crypto organ event).2.isOk = true
  | _ => True

instance (host : Host World) : Decidable (ClearTurn crypto organ host) := by
  delta ClearTurn
  split <;> infer_instance

variable (crypto organ) in
def ClearMove (host : Host World) : Move → Prop
  | .start _ => True
  | .turn => ClearTurn crypto organ host
  | .rollback checkpointStep patch => (host.rewind organ checkpointStep patch).2.isOk = false

instance (host : Host World) : (move : Move) → Decidable (ClearMove crypto organ host move)
  | .start _ => .isTrue trivial
  | .turn => inferInstanceAs (Decidable (ClearTurn crypto organ host))
  | .rollback checkpointStep patch =>
    inferInstanceAs (Decidable ((host.rewind organ checkpointStep patch).2.isOk = false))

variable (crypto organ) in
def ClearCall (host : Host World) (call : Call) : Prop :=
  Run.Along (Host.move crypto organ) (ClearMove crypto organ) host (host.moves crypto organ call)

/-- The chain of the host passes the audit of its events. -/
def Sound (crypto : Crypto) (organ : Organ World) (host : Host World) : Prop :=
  ∃ log, host.log = some log ∧ Audited crypto organ.beingId host.viveka.events log

theorem Sound.frame (sound : Sound crypto organ host) (frame : Frame host after) : Sound crypto organ after := by
  obtain ⟨log, chained, audited⟩ := sound
  exact ⟨log, frame.log.trans chained, frame.events ▸ audited⟩

theorem emit_sound (sound : Sound crypto organ host) {event ev : Json} (named : subscript event "ev" = .ok ev)
    (listed : [Json.str "step", .str "rollback", .str "blocked"].contains ev = true)
    (steps : ∀ a b, getOr event "step" a = getOr event "step" b)
    (hashes : ∀ viveka, host.viveka.apply crypto event = .ok viveka →
      stateHashOf crypto (getOr event "state" (.obj viveka.state)) =
        stateHashOf crypto (getOr event "state" (.obj [])))
    (emitted : host.emit crypto organ event = (after, .ok ())) : Sound crypto organ after := by
  obtain ⟨log, chained, audited⟩ := sound
  have witnessed : isWitnessed event = true := by
    obtain ⟨fields, rfl⟩ := obj_of_subscript named
    simp only [isWitnessed, getOr, subscript_obj.mp named]
    exact listed
  obtain ⟨events, ⟨w⟩⟩ := emit_witnessed chained witnessed emitted
  refine ⟨_, w.log_eq, ?_⟩
  rw [events]
  exact audited.extended named listed w (hashes w.viveka w.applied) (steps _ _)

theorem start_sound (sound : Sound crypto organ host) (initial : Dict Str Json) :
    Sound crypto organ (host.start crypto organ initial).1 := by
  obtain ⟨log, chained, audited⟩ := sound
  unfold Host.start
  split
  · exact ⟨log, chained, audited⟩
  · dsimp only
    split
    · exact ⟨log, chained, audited⟩
    · generalize ready : Host.mk _ host.journal host.log _ = begun
      have frame : Frame host begun := ready ▸ ⟨rfl, rfl⟩
      obtain ⟨events, kept⟩ := emit_unwitnessed crypto organ begun
        (show isWitnessed (startEvent _ _ _ initial) = false from rfl)
      refine ⟨log, (kept.trans frame.log).trans chained, ?_⟩
      rw [events, frame.events]
      exact audited.unwitnessed rfl rfl

theorem apply_blocked {viveka later : Viveka} {t : PyFloat} {runId : Json} {step : Int} {node : Str}
    (applied : viveka.apply crypto (blockedEvent t runId step node) = .ok later) : later.state = viveka.state := by
  obtain rfl := Except.ok.inj applied
  rfl

theorem turn_sound (sound : Sound crypto organ host) (clear : ClearTurn crypto organ host) :
    Sound crypto organ (host.turn crypto organ).1 := by
  have ready := intent_ready crypto organ host
  unfold ClearTurn at clear
  unfold Host.turn
  generalize host.intent crypto organ = made at ready clear ⊢
  cases ready with
  | ended =>
    dsimp only
    split
    · exact sound.frame ⟨rfl, rfl⟩
    · exact sound
  | budget =>
    dsimp only
    split <;> exact sound.frame ⟨rfl, rfl⟩
  | failed after e frame => exact sound.frame frame
  | blocked world t name _ =>
    obtain ⟨emits, same⟩ := clear
    dsimp only at emits ⊢
    cases emitted : Host.emit crypto organ { host with world } (blockedEvent t host.viveka.runId host.viveka.step name) with
    | mk after answer =>
      cases answer with
      | error e => simp [emitted, Except.isOk, Except.toBool] at emits
      | ok =>
        have later : Sound crypto organ after := by
          have begun : Sound crypto organ { host with world } := sound.frame ⟨rfl, rfl⟩
          refine emit_sound begun rfl rfl (fun _ _ => rfl) ?_ emitted
          intro viveka applied
          have state := apply_blocked applied
          change stateHashOf crypto (.obj viveka.state) = stateHashOf crypto (.obj [])
          rw [state]
          exact same
        exact later.frame ⟨rfl, rfl⟩
  | executed world t name state _ _ =>
    dsimp only at clear ⊢
    cases emitted : Host.emit crypto organ
        { host with world, viveka := { host.viveka with state, step := host.viveka.step + 1 } }
        (stepEvent t host.viveka.runId (host.viveka.step + 1) name state) with
    | mk after answer =>
      cases answer with
      | error e => simp [emitted, Except.isOk, Except.toBool] at clear
      | ok =>
        have begun : Sound crypto organ
            { host with world, viveka := { host.viveka with state, step := host.viveka.step + 1 } } :=
          sound.frame ⟨rfl, rfl⟩
        have later : Sound crypto organ after :=
          emit_sound begun rfl rfl (fun _ _ => rfl) (fun _ _ => rfl) emitted
        exact later.frame (advance_frame after name)

theorem move_sound (sound : Sound crypto organ host) {move : Move} (clear : ClearMove crypto organ host move) :
    Sound crypto organ (host.move crypto organ move) := by
  cases move with
  | start initial => exact start_sound sound initial
  | turn => exact turn_sound sound clear
  | rollback checkpointStep patch =>
    have frame := rewind_frame organ host checkpointStep patch
    simp only [Host.move, Host.rollbackTo]
    cases rewound : host.rewind organ checkpointStep patch with
    | mk after answer =>
      rw [rewound] at frame
      cases answer with
      | error e => exact sound.frame frame
      | ok event =>
        have refused : (host.rewind organ checkpointStep patch).2.isOk = false := clear
        simp [rewound, Except.isOk, Except.toBool] at refused

theorem call_sound (sound : Sound crypto organ host) {call : Call} (clear : ClearCall crypto organ host call) :
    Sound crypto organ (host.call crypto organ call) := by
  rw [Host.call_moves]
  exact Run.invariant (fun host _ (good : Sound crypto organ host) clear => move_sound good clear) sound clear

/-- One executive node; the governor, if there is one, refuses it. -/
def sampleOrgan (governed : Bool) : Organ Unit where
  beingId := "being:x"
  maxSteps := 4
  nodes := [("act", { fn := fun _ world => (.ok (.obj [("done", .bool true)]), world), executive := true })]
  edges := []
  cond := []
  entry := some "act"
  governor := if governed then some (fun world => (.ok false, world)) else none
  now world := (.zero, world)
  stamp _ := return "1970-01-01T00:00:00Z"
  urandom world := ([7], world)

def sampleHost : Host Unit := { log := some ⟨⟨.sample 1, []⟩, []⟩, world := () }

instance (host : Host World) (call : Call) : Decidable (ClearCall crypto organ host call) :=
  inferInstanceAs (Decidable (Run.Along (Host.move crypto organ) (ClearMove crypto organ) host (host.moves crypto organ call)))

def refusedHost : Host Unit := sampleHost.call Crypto.sample (sampleOrgan true) (.run (some [("k", .int 1)]))

end JJDai.Kernel
