import JJDai.Primitive.PlaneAccepts
import JJDai.Primitive.WritableRecord

/-! A chain that can be appended to, and which calls it takes: that depends on the call alone. -/

namespace JJDai

open PyText

theorem WitnessChain.linked_append {crypto : Crypto} {chain : WitnessChain} {call : AppendCall} {written : Appended}
    (made : chain.append crypto call = .ok written) : Linked written.chain := by
  simp only [append, bind, Py.bind_ok] at made
  obtain ⟨_, _, record, built, _, _, made⟩ := made
  obtain rfl := Except.ok.inj made
  exact linked_built built

theorem encodable_kinds : witnessKinds.all encodable = true := by decide +kernel

/-- What an append needs of its arguments, on any chain: they pass its checks and can be written down. -/
def AppendCall.taken (call : AppendCall) : Bool :=
  (WitnessChain.checkAppend call).isOk &&
    [call.request, call.response, call.provenance, call.semanticDigest, call.timestamp, call.entanglement].all writable

namespace WitnessChain

open Canonical

variable {crypto : Crypto} {chain : WitnessChain} {call : AppendCall}

theorem writable_of_commitment {salt : Bytes} {value committed : Json}
    (made : commitment crypto salt value = .ok committed) : writable value := by
  cases value with
  | null => rfl
  | _ =>
    simp only [commitment, bind, Py.bind_ok] at made
    obtain ⟨data, text, _⟩ := made
    exact (canonical_isOk _).mp (by rw [text]; rfl)

theorem writable_of_provenanceHash {value hash : Json} (made : provenanceHash crypto value = .ok hash) :
    writable value := by
  cases value with
  | null => rfl
  | _ =>
    simp only [provenanceHash, bind, Py.bind_ok] at made
    obtain ⟨data, text, _⟩ := made
    exact (canonical_isOk _).mp (by rw [text]; rfl)

theorem writable_optionalField {key : Str} (plain : encodable key) {value : Json} :
    (∀ entry ∈ optionalField key value, encodable entry.1 ∧ writable entry.2) ↔ writable value := by
  cases value with
  | null => exact iff_of_true (fun entry member => absurd member List.not_mem_nil) rfl
  | _ => simp [optionalField, plain]

theorem optionalField_null (key : Str) : optionalField key .null = [] := rfl

theorem buildRecord_isOk (linked : Linked chain) (session : call.sessionId = .null) (schema : call.irSchemaVersion = .null) :
    (chain.buildRecord crypto call).isOk ↔ encodable call.kind ∧
      ([call.request, call.response, call.provenance, call.semanticDigest, call.timestamp, call.entanglement].all
        writable) := by
  obtain ⟨head, headRead, headText⟩ := linked
  have body (first second hash : Json) : writable (.obj (([("index", .int chain.nextIndex), ("prev_hash", .str head),
      ("timestamp", call.timestamp), ("node_id", .str (chain.nodeId crypto)), ("kind", .str call.kind),
      ("request_commitment", first), ("response_commitment", second), ("provenance_hash", hash),
      ("semantic_digest", call.semanticDigest)] : Dict Str Json) ++ optionalField "entanglement" call.entanglement)) ↔
        writable call.timestamp ∧ encodable call.kind ∧ writable first ∧ writable second ∧ writable hash ∧
          writable call.semanticDigest ∧ writable call.entanglement := by
    have name : writable (.str (chain.nodeId crypto)) := encodable_nodeId crypto _
    have before : writable (.str head) := headText
    have index : writable (.int chain.nextIndex) := rfl
    have keys : ∀ key ∈ (["index", "prev_hash", "timestamp", "node_id", "kind", "request_commitment",
        "response_commitment", "provenance_hash", "semantic_digest"] : List Str), encodable key := by decide +kernel
    simp only [List.mem_cons, List.not_mem_nil, or_false, forall_eq_or_imp, forall_eq] at keys
    rw [writable_obj, List.forall_mem_append, writable_optionalField (by decide +kernel)]
    simp only [List.mem_cons, List.not_mem_nil, or_false, forall_eq_or_imp, forall_eq, keys, name, before, index,
      true_and, and_assoc]
    rfl
  constructor
  · intro ok
    obtain ⟨record, built⟩ := Py.exists_of_isOk ok
    simp only [buildRecord, headRead, session, schema, bind, Py.bind_ok] at built
    obtain ⟨_, read, first, firstMade, second, secondMade, hash, hashMade, data, text, _⟩ := built
    obtain rfl := Except.ok.inj read
    simp only [optionalField_null, List.append_nil] at text
    have sound := (body first second hash).mp ((canonical_isOk _).mp (by
      rw [text]
      rfl))
    obtain ⟨timestamp, kind, _, _, _, digest, entanglement⟩ := sound
    refine ⟨kind, ?_⟩
    simp only [List.all_cons, List.all_nil, writable_of_commitment firstMade, writable_of_commitment secondMade,
      writable_of_provenanceHash hashMade, timestamp, digest, entanglement, Bool.and_true]
  · rintro ⟨kind, all⟩
    simp only [List.all_cons, List.all_nil, Bool.and_true, Bool.and_eq_true] at all
    obtain ⟨request, response, provenance, digest, timestamp, entanglement⟩ := all
    obtain ⟨first, firstMade, firstText⟩ := @commitment_ok crypto call.requestSalt _ request
    obtain ⟨second, secondMade, secondText⟩ := @commitment_ok crypto call.responseSalt _ response
    obtain ⟨hash, hashMade, hashText⟩ := @provenanceHash_ok crypto _ provenance
    obtain ⟨data, text⟩ := canonical_ok ((body first second hash).mpr
      ⟨timestamp, kind, firstText, secondText, hashText, digest, entanglement⟩)
    obtain ⟨signed, encoded⟩ := Py.exists_of_isOk (show (encode (H_hex crypto data)).isOk by
      rw [encode_isOk]
      exact encodable_hash data)
    simp only [buildRecord, headRead, firstMade, secondMade, hashMade, session, schema, optionalField_null,
      List.append_nil, bind, Except.bind, text, encoded]
    rfl

end WitnessChain

/-- A chain whose next record can name its predecessor. -/
structure Ledger where
  chain : WitnessChain
  linked : chain.Linked

namespace Ledger

variable (crypto : Crypto)

def append (ledger : Ledger) (call : AppendCall) : Py Ledger :=
  match made : ledger.chain.append crypto call with
  | .ok written => .ok ⟨written.chain, WitnessChain.linked_append made⟩
  | .error e => .error e

variable {crypto}

theorem append_isOk (ledger : Ledger) (call : AppendCall) : (ledger.append crypto call).isOk ↔ call.taken := by
  have whole : (ledger.append crypto call).isOk = (ledger.chain.append crypto call).isOk := by
    unfold append
    split
    · rename_i written made
      exact (congrArg Except.isOk made).symm
    · rename_i e made
      exact (congrArg Except.isOk made).symm
  rw [whole, AppendCall.taken, Bool.and_eq_true]
  constructor
  · intro ok
    obtain ⟨written, made⟩ := Py.exists_of_isOk ok
    simp only [WitnessChain.append, bind, Py.bind_ok] at made
    obtain ⟨_, checked, record, built, _⟩ := made
    have admitted := WitnessChain.checkAppend_ok.mp checked
    have able := (WitnessChain.buildRecord_isOk ledger.linked admitted.session admitted.schema).mp (by
      rw [built]
      rfl)
    exact ⟨by rw [checked]; rfl, able.2⟩
  · rintro ⟨passed, able⟩
    obtain ⟨_, checked⟩ := Py.exists_of_isOk passed
    have admitted := WitnessChain.checkAppend_ok.mp checked
    have kind : encodable call.kind := List.all_eq_true.mp encodable_kinds call.kind
      (List.contains_iff_mem.mp admitted.known)
    obtain ⟨record, built⟩ := Py.exists_of_isOk
      ((@WitnessChain.buildRecord_isOk crypto _ _ ledger.linked admitted.session admitted.schema).mpr ⟨kind, able⟩)
    obtain ⟨hash, named⟩ := WitnessChain.buildRecord_hash built
    simp only [WitnessChain.append, checked, built, named, bind, Except.bind]
    rfl

theorem append_taken (ledger : Ledger) {call : AppendCall} (taken : call.taken) :
    ∃ appended, ledger.chain.append crypto call = .ok appended ∧ appended.chain.Linked := by
  obtain ⟨written, made⟩ := Py.exists_of_isOk ((append_isOk ledger call).mpr taken)
  unfold append at made
  split at made
  · rename_i appended added
    exact ⟨appended, added, WitnessChain.linked_append added⟩
  · cases made

end Ledger

end JJDai
