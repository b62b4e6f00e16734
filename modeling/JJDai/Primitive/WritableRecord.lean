import JJDai.Primitive.CanonicalText
import JJDai.Primitive.ChainVerification

/-! When an append succeeds: a chain whose head can be named, and arguments that can be written
down. -/

namespace JJDai.WitnessChain

open PyText Canonical

variable {crypto : Crypto}

/-- What an append needs of its arguments: they pass its checks and can be written down. -/
structure Writable (call : AppendCall) : Prop where
  checked : checkAppend call = .ok ()
  timestamp : writable call.timestamp
  provenance : writable call.provenance

theorem encodable_hash (data : Bytes) : encodable (H_hex crypto data) := encodable_toHex _

theorem canonical_ok {j : Json} (sound : writable j) : ∃ data, canonical j = .ok data :=
  Py.exists_of_isOk ((canonical_isOk j).mpr sound)

theorem commitment_ok {salt : Bytes} {value : Json} (sound : writable value) :
    ∃ committed, commitment crypto salt value = .ok committed ∧ writable committed := by
  obtain ⟨data, text⟩ := canonical_ok sound
  cases value with
  | null => exact ⟨.null, rfl, rfl⟩
  | _ =>
    refine ⟨.str (H_hex crypto (salt ++ data)), ?_, encodable_hash _⟩
    simp only [commitment, text, bind, Except.bind]
    rfl

theorem provenanceHash_ok {value : Json} (sound : writable value) :
    ∃ hash, provenanceHash crypto value = .ok hash ∧ writable hash := by
  obtain ⟨data, text⟩ := canonical_ok sound
  cases value with
  | null => exact ⟨.null, rfl, rfl⟩
  | _ =>
    refine ⟨.str (H_hex crypto data), ?_, encodable_hash _⟩
    simp only [provenanceHash, text, bind, Except.bind]
    rfl

/-- A chain whose next record can name its predecessor. -/
def Linked (chain : WitnessChain) : Prop := ∃ hash, chain.headHash = .ok (.str hash) ∧ encodable hash

theorem linked_empty {chain : WitnessChain} (empty : chain.records = []) : Linked chain := by
  refine ⟨genesis, ?_, by decide +kernel⟩
  simp [headHash, empty, pure, Except.pure]

theorem buildRecord_writable {chain : WitnessChain} (linked : Linked chain) {call : AppendCall}
    (kind : encodable call.kind) (request : writable call.request) (response : writable call.response)
    (provenance : writable call.provenance) (digest : writable call.semanticDigest) (timestamp : writable call.timestamp)
    (session : call.sessionId = .null) (schema : call.irSchemaVersion = .null) (entanglement : call.entanglement = .null) :
    ∃ record, chain.buildRecord crypto call = .ok record := by
  obtain ⟨head, headRead, headText⟩ := linked
  obtain ⟨first, firstMade, firstText⟩ := @commitment_ok crypto call.requestSalt _ request
  obtain ⟨second, secondMade, secondText⟩ := @commitment_ok crypto call.responseSalt _ response
  obtain ⟨hash, hashMade, hashText⟩ := @provenanceHash_ok crypto _ provenance
  have body : writable (.obj ([("index", .int chain.nextIndex), ("prev_hash", .str head), ("timestamp", call.timestamp),
      ("node_id", .str (chain.nodeId crypto)), ("kind", .str call.kind), ("request_commitment", first),
      ("response_commitment", second), ("provenance_hash", hash), ("semantic_digest", call.semanticDigest)] :
        Dict Str Json)) := by
    have name : writable (.str (chain.nodeId crypto)) := encodable_nodeId crypto _
    have kindText : writable (.str call.kind) := kind
    have headWritable : writable (.str head) := headText
    have index : writable (.int chain.nextIndex) := rfl
    rw [writable_obj]
    simp only [List.mem_cons, List.not_mem_nil, or_false, forall_eq_or_imp, forall_eq]
    simp only [firstText, secondText, hashText, digest, timestamp, name, kindText, headWritable, index, and_true]
    decide +kernel
  obtain ⟨data, text⟩ := canonical_ok body
  obtain ⟨signed, encoded⟩ := Py.exists_of_isOk (show (encode (H_hex crypto data)).isOk by
    rw [encode_isOk]
    exact encodable_hash data)
  simp only [buildRecord, headRead, firstMade, secondMade, hashMade, session, schema, entanglement, optionalField,
    List.append_nil, bind, Except.bind, text, encoded]
  exact ⟨_, rfl⟩

theorem linked_built {chain : WitnessChain} {call : AppendCall} {record : Json}
    (built : chain.buildRecord crypto call = .ok record) : Linked { chain with records := chain.records ++ [record] } := by
  have shape := built
  simp only [buildRecord, bind, Py.bind_ok] at shape
  obtain ⟨_, _, _, _, _, _, _, _, data, _, _, _, made⟩ := shape
  obtain rfl := Except.ok.inj made
  refine ⟨H_hex crypto data, ?_, encodable_hash data⟩
  simp only [headHash, List.getLast?_append, List.getLast?_singleton, Option.some_or, subscript_obj, Dict.get?_append]
  rw [get?_optionalField (by decide), get?_optionalField (by decide), get?_optionalField (by decide)]
  rfl

/-- An append of arguments that pass its checks and can be written down, without a dialogue. -/
theorem append_writable {chain : WitnessChain} (linked : Linked chain) {call : AppendCall} (able : Writable call)
    (kind : encodable call.kind) (digest : writable call.semanticDigest) (request : call.request = .null)
    (response : call.response = .null) (entanglement : call.entanglement = .null) :
    ∃ written, chain.append crypto call = .ok written ∧ Linked written.chain := by
  have admitted := checkAppend_ok.mp able.checked
  obtain ⟨record, built⟩ := @buildRecord_writable crypto _ linked call kind (request ▸ rfl) (response ▸ rfl) able.provenance
    digest able.timestamp admitted.session admitted.schema entanglement
  obtain ⟨hash, named⟩ := buildRecord_hash built
  let receipt : Json := .obj [("index", .int chain.nextIndex), ("this_hash", .str hash), ("kind", .str call.kind),
    ("anchored", .bool false), ("anchor_eta", .str "batch@root")]
  refine ⟨⟨{ chain with records := chain.records ++ [record] }, record, receipt⟩, ?_, linked_built built⟩
  simp only [append, able.checked, built, named, bind, Except.bind]
  rfl

end JJDai.WitnessChain
