import JJDai.Replication.Store

/-! `core.segments`: replicated witness records, and which of them are held. -/

namespace JJDai.Replication

open PyText Canonical

variable (crypto : Crypto)

def segmentDomain : Bytes := ascii "jjdai/replication/segment/v1:"

def maxSegmentRecords : Int := 512

def pyLen : Json → Py Nat
  | .str s => return s.length
  | .arr items => return items.length
  | .obj fields => return fields.length
  | _ => raise .typeError

/-- The four parts `verify_segment` reads first. -/
def readSegment (env : Json) : Py (Json × Json × Bytes × Bytes) := do
  let body ← subscript env "body"
  let records ← subscript env "records"
  let pub ← bytesFromHex (← subscript env "pub")
  let sig ← bytesFromHex (← subscript env "sig")
  return (body, records, pub, sig)

/-- The loop of `verify_segment` from record `i` on; `none` is its end. -/
def verifyRecords (pub : Bytes) (origin : Str) : Int → Json → List Json → Py (Option Str)
  | _, _, [] => return none
  | i, prev, rec :: rest => do
    let index ← dotGet rec "index"
    if ¬Json.pyEq index (.int i) then
      return some ("index gap at " ++ intText i ++ ": got " ++ pyStr index)
    if (← dotGet rec "node_id") ≠ .str origin then
      return some ("record " ++ intText i ++ " signed as a different node")
    if ¬Json.pyEq (← dotGet rec "prev_hash") prev then
      return some ("chain break at " ++ intText i ++ ": prev_hash mismatch")
    match rec with
    | .obj fields =>
      let hash := H_hex crypto (← canonical (.obj (unsignedRecord fields)))
      if (← dotGet rec "this_hash") ≠ .str hash then
        return some ("tampered record at " ++ intText i ++ ": hash mismatch")
      let signed ← encode hash
      let sig ← bytesFromHex ((Dict.get? fields "sig").getD (.str []))
      if !crypto.verify pub signed sig then
        return some ("bad record signature at " ++ intText i)
      verifyRecords pub origin (i + 1) (.str hash) rest
    | _ => raise .attributeError

def verifySegment (env : Json) : Py (Bool × Str) :=
  match readSegment env with
  | .error e =>
    if e.kind = .keyError ∨ e.kind = .typeError ∨ e.isValueError then
      return (false, "malformed envelope")
    else .error e
  | .ok (body, records, pub, sig) => do
    if (← dotGet body "kind") ≠ .str "WITNESS_SEGMENT" then return (false, "wrong kind")
    let origin := canonicalNodeId crypto pub
    if (← dotGet body "node_id") ≠ .str origin then
      return (false, "node_id does not match public key")
    let data ← canonical body
    if !crypto.verify pub (segmentDomain ++ data) sig then
      return (false, "bad envelope signature")
    let startValue ← dotGet body "start"
    let endValue ← dotGet body "end"
    match asInt? startValue, asInt? endValue with
    | some start, some stop =>
      if ¬(0 ≤ start ∧ start < stop) then return (false, "bad range")
      let length ← pyLen records
      if (length : Int) ≠ stop - start then
        return (false, natText length ++ " record(s) != range [" ++ pyStr startValue ++ ", " ++
          pyStr endValue ++ ")")
      let text ← canonical records
      if (← dotGet body "segment_hash") ≠ .str (H_hex crypto text) then
        return (false, "segment hash mismatch")
      let prev ← dotGet body "prev_hash"
      if start = 0 ∧ prev ≠ .str genesis then
        return (false, "segment at 0 must chain from GENESIS")
      match ← verifyRecords crypto pub origin start prev (← pyList records) with
      | some reason => return (false, reason)
      | none => return (true, "ok")
    | _, _ => return (false, "bad range")

structure SegmentStore where
  records : Dict Str (Dict Int Json) := []
  diverged : Dict Json (List Json) := []

structure SegmentOutcome where
  store : SegmentStore
  line : Option Json
  status : RootStatus
  reason : Str

/-- The number a verified index is as a dict key. -/
def indexKey : Json → Int
  | .float value => value.toInt?.getD 0
  | index => countKey index

def segmentLine (env : Json) : Json := .obj [("kind", .str "REPLICA_SEGMENT"), ("env", env)]

def segmentEvidence (origin : Str) (index recordA recordB env : Json) (now : PyFloat) : Json :=
  .obj [("kind", .str "SEGMENT_DIVERGENCE"), ("origin", .str origin), ("index", index),
    ("record_a", recordA), ("record_b", recordB), ("env_b", env), ("detected_at", .float now)]

/-- `held[rec["index"]] = rec` for every record. -/
def holdRecords (held : Dict Int Json) : List Json → Py (Dict Int Json)
  | [] => return held
  | rec :: rest => do
    let index ← subscript rec "index"
    holdRecords (Dict.set held (indexKey index) rec) rest

/-- The loop of `accept`: the number of new records, or the first conflict. -/
def compareRecords (held : Dict Int Json) : Nat → List Json → Py (Nat ⊕ (Json × Json × Json))
  | fresh, [] => return .inl fresh
  | fresh, rec :: rest => do
    let index ← subscript rec "index"
    match Dict.get? held (indexKey index) with
    | none => compareRecords held (fresh + 1) rest
    | some have_ =>
      if ¬Json.pyEq (← subscript have_ "this_hash") (← subscript rec "this_hash") then
        return .inr (index, have_, rec)
      compareRecords held fresh rest

/-- The loop of `coverage` over the sorted indexes: closed runs, oldest first. -/
def mergeRanges : List (Int × Int) → List Int → List (Int × Int)
  | ranges, [] => ranges
  | ranges, i :: rest =>
    match ranges.getLast? with
    | some (start, stop) =>
      if i = stop then mergeRanges (ranges.dropLast ++ [(start, i + 1)]) rest
      else mergeRanges (ranges ++ [(i, i + 1)]) rest
    | none => mergeRanges [(i, i + 1)] rest

/-- The loop of `missing`, with the gaps found and the cursor. -/
def gapsBelow (count : Int) : List (Int × Int) → Int → List (Int × Int) → List (Int × Int) × Int
  | gaps, cursor, [] => (gaps, cursor)
  | gaps, cursor, (start, stop) :: rest =>
    let gaps := if cursor < start then gaps ++ [(cursor, min start count)] else gaps
    let cursor := max cursor stop
    if count ≤ cursor then (gaps, cursor) else gapsBelow count gaps cursor rest

namespace SegmentStore

def held (store : SegmentStore) (origin : Str) : Dict Int Json :=
  (Dict.get? store.records origin).getD []

def divergence (store : SegmentStore) (origin : Str) : List Json :=
  (Dict.get? store.diverged (.str origin)).getD []

def divergences (store : SegmentStore) : List Json := store.diverged.flatMap (·.2)

def accuse (store : SegmentStore) (key evidence : Json) : SegmentStore :=
  { store with diverged := Dict.set store.diverged key ((Dict.get? store.diverged key).getD [] ++ [evidence]) }

def addEvidence (store : SegmentStore) (origin : Str) (evidence : Json) : SegmentStore :=
  store.accuse (.str origin) evidence

def hold (store : SegmentStore) (env : Json) : Py SegmentStore := do
  let origin ← originKey (← subscript (← subscript env "body") "node_id")
  let held ← holdRecords (store.held origin) (← pyList (← subscript env "records"))
  return { store with records := Dict.set store.records origin held }

def accept (store : SegmentStore) (env : Json) (now : PyFloat) : Py SegmentOutcome := do
  let (ok, reason) ← verifySegment crypto env
  if !ok then return ⟨store, none, .rejected, reason⟩
  let origin ← originKey (← subscript (← subscript env "body") "node_id")
  match ← compareRecords (store.held origin) 0 (← pyList (← subscript env "records")) with
  | .inr (index, recordA, recordB) =>
    let evidence := segmentEvidence origin index recordA recordB env now
    return ⟨store.addEvidence origin evidence, some evidence, .divergence,
      "conflicting signed record at index " ++ pyStr index⟩
  | .inl fresh =>
    if fresh = 0 then return ⟨store, none, .duplicate, "all records already held"⟩
    return ⟨← store.hold env, some (segmentLine env), .stored, natText fresh ++ " new record(s)"⟩

def coverage (store : SegmentStore) (origin : Str) : List (Int × Int) :=
  mergeRanges [] ((Dict.keys (store.held origin)).insertionSort (· ≤ ·))

def missing (store : SegmentStore) (origin : Str) (count : Int) : List (Int × Int) :=
  let (gaps, cursor) := gapsBelow count [] 0 (store.coverage origin)
  let gaps := if cursor < count then gaps ++ [(cursor, count)] else gaps
  gaps.filter (fun gap => gap.1 < gap.2)

def nextGap (store : SegmentStore) (origin : Str) (count : Int) : Option (Int × Int) :=
  match store.missing origin count with
  | [] => none
  | (start, stop) :: _ => some (start, min stop (start + maxSegmentRecords))

/-- One round of the loop in `__init__`: a persisted segment is verified again. -/
def loadEntry (store : SegmentStore) (e : Json) : Py SegmentStore := do
  let kind ← dotGet e "kind"
  if kind = .str "REPLICA_SEGMENT" then
    let env ← subscript e "env"
    let (ok, reason) ← verifySegment crypto env
    if !ok then
      raise .segmentError ("segment journal integrity failure on reload: " ++ reason)
    store.hold env
  else if kind = .str "SEGMENT_DIVERGENCE" then
    let key ← hashKey (← subscript e "origin")
    return store.accuse key e
  else return store

/-- `SegmentStore(path)` over the entries of the journal. -/
def load (entries : List Json) : Py SegmentStore := entries.foldlM (loadEntry crypto) {}

end SegmentStore

end JJDai.Replication
