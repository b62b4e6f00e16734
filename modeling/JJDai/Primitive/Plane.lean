import JJDai.Primitive.Python

/-! What may cross into the witness plane: the vocabulary of
`check_plane_value`, and the reserved names that no record may carry. -/

namespace JJDai

open PyText

/-- First characters of the runs of ten that `\d` matches in a `str`. -/
def decimalZeros : List Nat :=
  [48, 1632, 1776, 1984, 2406, 2534, 2662, 2790, 2918, 3046, 3174, 3302, 3430, 3558, 3664, 3792,
    3872, 4160, 4240, 6112, 6160, 6470, 6608, 6784, 6800, 6992, 7088, 7232, 7248, 42528, 43216,
    43264, 43472, 43504, 43600, 44016, 65296, 66720, 68912, 69734, 69872, 69942, 70096, 70384,
    70736, 70864, 71248, 71360, 71472, 71904, 72016, 72784, 73040, 73120, 92768, 92864, 93008,
    120782, 120792, 120802, 120812, 120822, 123200, 123632, 125264, 130032]

def isDecimal (c : CodePoint) : Bool := decimalZeros.any (fun z => z ≤ c.val && c.val < z + 10)

def isTokenChar (c : CodePoint) : Bool :=
  (65 ≤ c.val && c.val ≤ 90) || (97 ≤ c.val && c.val ≤ 122) || isDigit c ||
    [ch '_', ch '.', ch ':', ch '@', ch '/', ch '+', ch '-'].contains c

def isLowerHex (c : CodePoint) : Bool := isDigit c || (97 ≤ c.val && c.val ≤ 102)

/-- `$` in a pattern also matches before one final newline. -/
def matchesLine (pattern : Str → Bool) (part : Str) : Bool :=
  pattern part || (part.getLast? = some (ch '\n') && pattern part.dropLast)

def isHexish (part : Str) : Bool := 8 ≤ part.length && part.length ≤ 128 && part.all isLowerHex

def isToken (part : Str) : Bool := 1 ≤ part.length && part.length ≤ 128 && part.all isTokenChar

def isNumVec (part : Str) : Bool :=
  let entries := splitAt (ch ',') part
  entries.length ≤ 32 &&
    entries.all (fun entry => 1 ≤ entry.length && entry.length ≤ 6 && entry.all isDecimal)

def isPlanePart (part : Str) : Bool :=
  part = [] || matchesLine isHexish part || matchesLine isToken part || matchesLine isNumVec part

def maxDigestParts : Nat := 16

def checkScalar (field value : Str) : Py Unit :=
  match (splitAt (ch ':') value).find? (fun part => !isPlanePart part) with
  | some part => raise .planeSchemaError (field ++ ": segment " ++ pyRepr part ++
      " is free-form content. The witness plane replicates and never deletes; free text there is " ++
      "both a covert channel and an unbounded write. Pass a digest of it instead — H(x), not x.")
  | none =>
    let parts := (splitAt (ch ':') value).length
    if maxDigestParts < parts then
      raise .planeSchemaError (field ++ ": " ++ natText parts ++ " segments exceeds the " ++
        natText maxDigestParts ++ "-part bound")
    else return ()

def maxPlaneDepth : Nat := 4

def maxPlaneNodes : Nat := 96

def subField (field key : Str) : Str := field ++ "." ++ key

def subIndex (field : Str) (i : Nat) : Str := field ++ "[" ++ natText i ++ "]"

mutual

/-- `check_plane_value`; the answer is the number of values seen so far. -/
def checkPlaneValue (field : Str) (value : Json) (depth seen : Nat) : Py Nat :=
  match value with
  | .null => return seen
  | value =>
    if maxPlaneNodes < seen + 1 then
      raise .planeSchemaError (field ++ ": more than " ++ natText maxPlaneNodes ++
        " values in one record — the plane replicates and never deletes, so the size of a write " ++
        "is bounded on purpose")
    else if maxPlaneDepth < depth then
      raise .planeSchemaError (field ++ ": nesting deeper than " ++ natText maxPlaneDepth)
    else
      match value with
      | .obj fields => checkPlaneFields field fields (depth + 1) (seen + 1)
      | .arr items => checkPlaneItems field items 0 (depth + 1) (seen + 1)
      | .str text => do
        checkScalar field text
        return seen + 1
      | _ => return seen + 1

def checkPlaneFields (field : Str) (fields : Dict Str Json) (depth seen : Nat) : Py Nat :=
  match fields with
  | [] => return seen
  | (key, value) :: rest => do
    checkScalar (subField field key) key
    let seen ← checkPlaneValue (subField field key) value depth seen
    checkPlaneFields field rest depth seen

def checkPlaneItems (field : Str) (items : List Json) (i depth seen : Nat) : Py Nat :=
  match items with
  | [] => return seen
  | item :: rest => do
    let seen ← checkPlaneValue (subIndex field i) item depth seen
    checkPlaneItems field rest (i + 1) depth seen

end

def cognitiveNamespaces : List Str :=
  ["cognitive/reflection/draft/", "cognitive/reflection/validated/", "cognitive/self_model/"]

def cognitiveKinds : List Str :=
  ["INTENTION_COMMITMENT", "COVERAGE_COMMITMENT", "PREDICTION_COMMITMENT",
    "PREDICTION_ABSTENTION", "PREDICTION_REVEAL", "OUTCOME_RESOLUTION",
    "REFLECTION_DRAFT_COMMITMENT", "REFLECTION", "REFLECTION_EXPIRED", "SELF_MODEL_SNAPSHOT",
    "SELF_MODEL_EVAL_PROJECTION", "IMPROVEMENT_HYPOTHESIS", "HYPOTHESIS_LINEAGE",
    "HYPOTHESIS_REJECTION", "HYPOTHESIS_ESCALATION"]

def cognitiveSchemaVersion : Str := "1"

def cognitiveLeafDomains : List Str :=
  cognitiveKinds.map (fun kind => "JJDAI:LEDGER:" ++ kind ++ ":v" ++ cognitiveSchemaVersion)

def cognitiveReserved : List Str :=
  cognitiveKinds ++ cognitiveNamespaces ++
    (["REFLEXIVE", "CONTEST_SCOPED",
      "reflexive_recovery", "prediction_round", "prediction_resolution", "round_ephemeral",
      "RESOLVED", "UNRESOLVED_EXTERNAL", "UNRESOLVED_UNOBSERVED", "EXPIRED_BY_DESIGN",
      "CENSORED", "INVALID_OUTCOME_SCHEMA", "PREDICTION_SEALED",
      "ADMITTED", "DENIED", "DEFERRED", "BUDGET_EXHAUSTED", "CHECKPOINT_REQUIRED",
      "AUTHORITY_EXCEEDED", "ARTICLE_25_BLOCKED",
      "CONTESTED_EXTERNAL_CHALLENGE", "CONTESTED_INTERNAL_DISCRIMINATION",
      "hypothesis_retrieval", "JJDAI:PREDICTION:v1", "JJDAI:INTENTION:v1"] : List Str) ++
    cognitiveLeafDomains

def custodyNamespaces : List Str := ["verification/custody/", "memory/pending_verification/"]

def custodyKinds : List Str :=
  ["CUSTODY_ENTERED", "CUSTODY_EXITED", "VERIFICATION_DEFERRED", "VERIFICATION_SETTLED",
    "TEMP_MEMORY_CREATED", "MEMORY_CORROBORATED", "CUSTODY_COMPENSATION_REQUIRED",
    "CUSTODY_COMPENSATION_COMPLETED", "CUSTODY_COMPENSATION_FAILED",
    "DEPENDENT_REEVALUATION_REQUIRED", "DEPENDENT_REEVALUATION_SETTLED"]

def custodySchemaVersion : Str := "1"

def custodyLeafDomains : List Str :=
  custodyKinds.map (fun kind => "JJDAI:CUSTODY:" ++ kind ++ ":v" ++ custodySchemaVersion)

def custodyScannable : List Str :=
  custodyKinds ++
    (["SELF_CHECKED", "CUSTODY_CORROBORATED", "CUSTODY_DIVERGENT", "CUSTODY_UNVERIFIABLE",
      "CUSTODY_EXPIRED_UNSETTLED", "PANEL_UNREACHABLE", "PANEL_QUORUM_UNMET",
      "PANEL_INDEPENDENCE_UNMET", "REPLAY_AVAILABLE", "REPLAY_UNAVAILABLE",
      "REPLAY_INPUTS_INCOMPLETE", "MODEL_REPLACED_BEFORE_SETTLEMENT", "PENDING_VERIFICATION",
      "EVIDENCE_PENDING", "EVIDENCE_CORROBORATED_FOR_USE", "EVIDENCE_DIVERGENT",
      "EVIDENCE_UNVERIFIABLE", "EVIDENCE_EXPIRED", "verification_custody", "CUSTODY_PRIVATE"] : List Str) ++
    custodyLeafDomains

def custodyAmbiguous : List Str :=
  ["pure", "local_transactional", "local_nontransactional", "external", "unknown",
    "network_member", "local_only"]

def custodyReserved : List Str := custodyScannable ++ custodyNamespaces ++ custodyAmbiguous

def reservedNamespaces : List Str := cognitiveNamespaces ++ custodyNamespaces

def scannedValues : List Str :=
  cognitiveReserved.filter (fun value => !cognitiveNamespaces.contains value) ++ custodyScannable

def maxScanNodes : Nat := 4096

def owningAdr (value : Str) : Str :=
  if custodyReserved.contains value then "ADR-019 rev 3.1 (deferred verification)"
  else "ADR-018 rev 2 (cross-cutting track V)"

/-- `_hits`: the reserved token a string carries, if any. -/
def reservedHit (text : Str) : Option Str :=
  if text = [] then none
  else if scannedValues.contains text then some text
  else
    let probe := if text.getLast? = some (ch '/') then text else text ++ [ch '/']
    match reservedNamespaces.find? (fun ns => ns.isPrefixOf probe) with
    | some ns => some ns
    | none =>
      if text.contains (ch ':') then
        (splitAt (ch ':') text).find? (fun part => scannedValues.contains part)
      else none

def refuseReserved (field token place : Str) : PyErr :=
  ⟨.reservedValueError, field ++ ": " ++ place ++ " " ++ pyRepr token ++ " is RESERVED by " ++
    owningAdr token ++ " and may not be written. A reserve that only guards parameter names " ++
    "guards nothing: what a later reader trusts is the value in the record. The name is frozen " ++
    "before genesis precisely so that no record carries it while its meaning is still undefined."⟩

mutual

/-- `check_no_reserved_values`; the answer is the number of values seen so far. -/
def checkNoReservedValues (field : Str) (value : Json) (seen : Nat) : Py Nat :=
  if maxScanNodes < seen + 1 then
    raise .reservedValueError (field ++ ": structure too large to scan for reserved values; the " ++
      "witness plane bounds a record's size for the same reason")
  else
    match value with
    | .obj fields => checkNoReservedFields field fields (seen + 1)
    | .arr items => checkNoReservedItems field items 0 (seen + 1)
    | .str text =>
      match reservedHit text with
      | some token => .error (refuseReserved field token "value")
      | none => return seen + 1
    | _ => return seen + 1

def checkNoReservedFields (field : Str) (fields : Dict Str Json) (seen : Nat) : Py Nat :=
  match fields with
  | [] => return seen
  | (key, value) :: rest =>
    match reservedHit key with
    | some token => .error (refuseReserved (subField field key) token "key")
    | none => do
      let seen ← checkNoReservedValues (subField field key) value seen
      checkNoReservedFields field rest seen

def checkNoReservedItems (field : Str) (items : List Json) (i seen : Nat) : Py Nat :=
  match items with
  | [] => return seen
  | item :: rest => do
    let seen ← checkNoReservedValues (subIndex field i) item seen
    checkNoReservedItems field rest (i + 1) seen

end

end JJDai
