import JJDai.Verification.Verdict

/-! `core.crossverify`: peers score an output, and their verdicts count after a re-audit. -/

namespace JJDai

open PyText Canonical

def unicodeEscape (n : Nat) : Str :=
  [ch '\\', ch 'u', hexDigit (n / 4096), hexDigit (n / 256 % 16), hexDigit (n / 16 % 16), hexDigit (n % 16)]

/-- `ensure_ascii` escapes everything outside the printable ASCII characters. -/
def escapeAscii (c : CodePoint) : Str :=
  match shortEscape c with
  | some letter => [ch '\\', letter]
  | none =>
    if 0x20 ≤ c.val ∧ c.val < 0x7F then [c]
    else if c.val < 0x10000 then unicodeEscape c.val
    else unicodeEscape (0xD800 + (c.val - 0x10000) / 0x400) ++
      unicodeEscape (0xDC00 + (c.val - 0x10000) % 0x400)

def quotedAscii (s : Str) : Str := ch '"' :: (s.flatMap escapeAscii ++ [ch '"'])

mutual

def jsonText : Json → Str
  | .null => "null"
  | .bool true => "true"
  | .bool false => "false"
  | .int n => intText n
  | .float x => x.text
  | .str s => quotedAscii s
  | .arr items => ch '[' :: (joinWith ", " (itemTexts items) ++ [ch ']'])
  | .obj fields => ch '{' :: (joinWith ", " (fieldTexts fields) ++ [ch '}'])

def itemTexts : List Json → List Str
  | [] => []
  | item :: rest => jsonText item :: itemTexts rest

def fieldTexts : Dict Str Json → List Str
  | [] => []
  | (key, value) :: rest => (quotedAscii key ++ ch ':' :: ch ' ' :: jsonText value) :: fieldTexts rest

end

def bucket (text : Str) (b : Nat) : Nat := text.countP (fun c => c.val % 8 == b)

/-- `semantic_digest`: a histogram of the characters in eight buckets. -/
def semanticDigest (text : Str) : Str :=
  joinWith [ch ','] ((List.range 8).map (fun b => natText (bucket text b)))

namespace CrossVerifier

def digest (reachable : Json) : Str := semanticDigest (jsonText reachable)

variable (crypto : Crypto)

/-- The loop of `_rechain_and_find` from record `i` on: the record found, and the last hash. -/
def rechainLoop (pub : Bytes) (receiptIndex : Json) :
    Nat → Json → Option Json → List Json → Py (Option Json × Json)
  | _, prev, found, [] => return (found, prev)
  | i, prev, found, rec :: rest => do
    if ¬Json.pyEq (← subscript rec "index") (.int i) then
      raise .crossVerifyError ("peer chain broken at index " ++ natText i)
    if ¬Json.pyEq (← subscript rec "prev_hash") prev then
      raise .crossVerifyError ("peer chain broken at index " ++ natText i)
    match rec with
    | .obj fields =>
      let thisHash ← subscript rec "this_hash"
      let data ← canonical (.obj (unsignedRecord fields))
      let hash := H_hex crypto data
      if thisHash ≠ .str hash then
        raise .crossVerifyError ("peer record " ++ natText i ++ " hash mismatch")
      let signed ← encode hash
      let sig ← bytesFromHex (← subscript rec "sig")
      if !crypto.verify pub signed sig then
        raise .crossVerifyError ("peer record " ++ natText i ++ " bad signature")
      let found := if Json.pyEq (.int i) receiptIndex then some rec else found
      rechainLoop pub receiptIndex (i + 1) thisHash found rest
    | _ => raise .attributeError

def rechainAndFind (exported receiptIndex : Json) : Py Json := do
  let pub ← bytesFromHex (← subscript exported "pubkey")
  let recordsValue ← subscript exported "records"
  let records ← pyList recordsValue
  let (found, prev) ← rechainLoop crypto pub receiptIndex 0 (.str genesis) none records
  let head ← subscript exported "head"
  if ¬Json.pyEq prev head ∧ truthy recordsValue then raise .crossVerifyError "peer head mismatch"
  match found with
  | some rec => return rec
  | none => raise .crossVerifyError ("receipt index " ++ pyStr receiptIndex ++ " not on peer chain")

/-- What a peer's three endpoints answer on one visit. -/
structure Replies where
  score : Py (Int × Json)
  capabilities : Py Json
  chain : Py Json

/-- An entry of the audit; `exported` is the chain a counted verdict was re-audited against. -/
inductive Audited where
  | discarded (verifier reason : Str)
  | counted (verifier : Str) (ok : Bool) (minMargin verifierNode exported : Json)

/-- The re-audit: the record on the peer's chain, bound to the returned verdict. -/
def reaudit (exported receipt verdict : Json) : Py Json := do
  let record ← rechainAndFind crypto exported (← getDefault receipt "index" (.int (-1)))
  let expected := digest (← subscript verdict "reachable")
  if (← dotGet record "semantic_digest") ≠ .str expected then
    raise .crossVerifyError "verifier record does not bind the returned verdict"
  return record

/-- The sealed envelope opened first, when the hook is there. -/
def openFirst (binding : Bool) (scoreReq verdict : Json) (replies : Replies) (nonces : NonceRegistry) :
    Py (Json × NonceRegistry) := do
  if !binding then return (verdict, nonces)
  let capabilities ← replies.capabilities
  let witness ← dotGet capabilities "witness"
  let pubkey ← dotGet (if truthy witness then witness else .obj []) "pubkey"
  let (opened, seen) ← openVerdict crypto verdict scoreReq pubkey (some nonces)
  return (opened, seen.getD nonces)

def auditPeer (binding : Bool) (scoreReq : Json) (url : Str) (replies : Replies)
    (nonces : NonceRegistry) : Py (Audited × NonceRegistry) := do
  let (status, reply) ← replies.score
  if status ≠ 200 then
    return (.discarded url ("score status " ++ intText status), nonces)
  if !(← pyContains "verdict" reply) then
    return (.discarded url ("score status " ++ intText status), nonces)
  let verdict ← subscript reply "verdict"
  let witnessReceipt ← dotGet reply "witness_receipt"
  let receipt := if truthy witnessReceipt then witnessReceipt else .obj []
  match openFirst crypto binding scoreReq verdict replies nonces with
  | .error e => return (.discarded url ("verdict binding failed: " ++ e.text), nonces)
  | .ok (verdict, nonces) =>
    let audit : Py (Json × Json) := do
      let exported ← replies.chain
      let found ← reaudit crypto exported receipt verdict
      return (exported, found)
    match audit with
    | .error e =>
      if e.kind = .crossVerifyError then
        return (.discarded url ("re-audit failed: " ++ e.text), nonces)
      else .error e
    | .ok (exported, _) =>
      let ok ← subscript verdict "ok"
      let minMargin ← getDefault verdict "min_margin" (.float .zero)
      let verifierNode ← subscript exported "node_id"
      return (.counted url (truthy ok) minMargin verifierNode exported, nonces)

/-- The loop over the peers; `replies` says what each visit is answered. -/
def auditLoop (binding : Bool) (scoreReq : Json) (replies : Nat → Replies) :
    Nat → List Str → NonceRegistry → Py (List Audited)
  | _, [], _ => return []
  | visit, url :: rest, nonces => do
    let (entry, nonces) ← auditPeer crypto binding scoreReq url (replies visit) nonces
    let later ← auditLoop binding scoreReq replies (visit + 1) rest nonces
    return entry :: later

def Audited.verdict : Audited → Option Bool
  | .discarded _ _ => none
  | .counted _ ok _ _ _ => some ok

def Audited.margin? : Audited → Option Json
  | .counted _ true minMargin _ _ => some minMargin
  | _ => none

/-- The returned trace; `recorded` is the verdict that went to the registry, with its receipt. -/
structure Trace where
  verifiersTried : Nat
  audited : List Audited
  recorded : Option (Bool × Json)

/-- `verify_and_record`; `record` is the registry's, given the verdict and its margin. -/
def verifyAndRecord (binding : Bool) (minVerifiers : Int) (record : Bool → Json → Py Json)
    (generatorUrl : Str) (verifierUrls : List Str) (jiiRequest : Dict Str Json)
    (outputTokens : List Json) (replies : Nat → Replies) (nonces : NonceRegistry) : Py Trace := do
  let peers := verifierUrls.filter (fun url => url ≠ generatorUrl)
  if peers = [] then
    raise .crossVerifyError
      "no independent verifier (a node cannot verify its own work into reputation)"
  let scoreReq := Json.obj (Dict.set jiiRequest "tokens" (.arr outputTokens))
  let audited ← auditLoop crypto binding scoreReq replies 0 peers nonces
  let good := audited.filterMap Audited.verdict
  let agreePass := audited.filterMap Audited.margin?
  if minVerifiers ≤ good.length then
    let passed := decide (minVerifiers ≤ agreePass.length)
    let margin ←
      match agreePass with
      | [] => .ok (.float .zero)
      | first :: rest => pyMin first rest
    let receipt ← record passed margin
    return ⟨peers.length, audited, some (passed, receipt)⟩
  else return ⟨peers.length, audited, none⟩

end CrossVerifier

end JJDai
