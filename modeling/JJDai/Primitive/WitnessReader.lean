import JJDai.Primitive.ChainVerification
import JJDai.Primitive.CrashSafety

/-! `WitnessReader`: the read-only view of a witness log. -/

namespace JJDai

open PyText Canonical Durable

/-- `WitnessReader(path)`, with what is at the path. -/
structure WitnessReader where
  file : Option Bytes

namespace WitnessReader

def parseLine (line : Str) : Py Json :=
  match Json.loads line with
  | some rec => .ok rec
  | none => raise .valueError

def records (reader : WitnessReader) : Py (List Json) :=
  match reader.file with
  | none => return []
  | some file => do
    let raw ← readText file
    ((splitNewline raw).filter hasText).mapM parseLine

variable (crypto : Crypto)

/-- The part of `verify` that a resolver turns on: who signed record `n`, and whether they did. -/
def checkSigner (resolver : Option (Json → Option Bytes)) (n : Nat) (fields : Dict Str Json) (hash : Str) :
    Py Unit :=
  match resolver with
  | none => return ()
  | some resolve =>
    match resolve ((Dict.get? fields "node_id").getD .null) with
    | none => raise .chainError ("unknown signer at index " ++ natText n)
    | some pub => do
      let signed ← encode hash
      let sig ← bytesFromHex (← subscript (.obj fields) "sig")
      if !crypto.verify pub signed sig then raise .chainError ("bad signature at index " ++ natText n)
      return ()

/-- The loop of `verify` from record `n` on: the number of records, and the last hash. -/
def verifyLoop (resolver : Option (Json → Option Bytes)) : Nat → Json → List Json → Py (Nat × Json)
  | n, prev, [] => return (n, prev)
  | n, prev, rec :: rest => do
    let index ← subscript rec "index"
    if ¬Json.pyEq index (.int n) then
      raise .chainError ("index gap at record " ++ natText n ++ ": got " ++ pyStr index)
    if ¬Json.pyEq (← subscript rec "prev_hash") prev then
      raise .chainError ("chain break at index " ++ natText n ++ ": prev_hash mismatch")
    match rec with
    | .obj fields =>
      let thisHash ← subscript rec "this_hash"
      let data ← canonical (.obj (unsignedRecord fields))
      let hash := H_hex crypto data
      if thisHash ≠ .str hash then
        raise .chainError ("tampered record at index " ++ natText n ++ ": hash mismatch")
      checkSigner crypto resolver n fields hash
      verifyLoop resolver (n + 1) thisHash rest
    | _ => raise .attributeError

def verify (reader : WitnessReader) (resolver : Option (Json → Option Bytes) := none) : Py (Nat × Json) := do
  let recs ← reader.records
  verifyLoop crypto resolver 0 (.str genesis) recs

variable {crypto} {resolver : Option (Json → Option Bytes)}

theorem verifyLoop_cons {n : Nat} {prev rec : Json} {rest : List Json} {result : Nat × Json} :
    verifyLoop crypto resolver n prev (rec :: rest) = .ok result ↔
      ∃ fields index before data, rec = .obj fields ∧ Dict.get? fields "index" = some index ∧
        Json.pyEq index (.int n) ∧ Dict.get? fields "prev_hash" = some before ∧ Json.pyEq before prev ∧
        canonical (.obj (unsignedRecord fields)) = .ok data ∧
        Dict.get? fields "this_hash" = some (.str (H_hex crypto data)) ∧
        checkSigner crypto resolver n fields (H_hex crypto data) = .ok () ∧
        verifyLoop crypto resolver (n + 1) (.str (H_hex crypto data)) rest = .ok result := by
  cases rec with
  | obj fields =>
    simp only [verifyLoop, bind, Py.bind_ok, Py.unless_ok, not_not, subscript_obj]
    constructor
    · intro ⟨index, indexRead, number, before, beforeRead, chained, hash, hashRead, data, text, named, _, signer,
        later⟩
      subst named
      exact ⟨fields, index, before, data, rfl, indexRead, number, beforeRead, chained, text, hashRead, signer, later⟩
    · intro ⟨_, index, before, data, shape, indexRead, number, beforeRead, chained, text, hashRead, signer, later⟩
      cases shape
      exact ⟨index, indexRead, number, before, beforeRead, chained, _, hashRead, data, text, rfl, (), signer, later⟩
  | _ =>
    constructor
    · intro walked
      cases walked
    · intro ⟨_, _, _, _, shape, _⟩
      cases shape

theorem records_holds {file : Bytes} {events : List Event} (holds : Holds file events) :
    (WitnessReader.mk (some file)).records = .ok (stored events) := by
  have raw := readText_holds holds
  have lines := lines_journalText events []
  have blank : (splitNewline []).filter hasText = [] := by decide
  rw [List.append_nil, blank, List.append_nil] at lines
  simp only [records, raw, lines, bind, Except.bind]
  rw [List.mapM_map]
  refine mapM_ok_map ?_
  intro event _
  have read : Json.loads event.json.dumps = some event.json.sortKeys := loads_dumps event.valid
  simp [parseLine, read]

end WitnessReader

end JJDai
