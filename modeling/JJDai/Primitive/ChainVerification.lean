import JJDai.Primitive.CanonicalOrder
import JJDai.Primitive.Witness

/-! What `verify_chain` establishes about a log, and that `append` keeps it. -/

namespace JJDai

open PyText Canonical

variable (crypto : Crypto)

/-- A record at its place in a log: its index, its link, its own hash and a signature on it. -/
structure SignedRecord (pub : Bytes) (i : Int) (prev : Json) (hash : Str) (fields : Dict Str Json) :
    Prop where
  index : ∃ value, Dict.get? fields "index" = some value ∧ Json.pyEq value (.int i)
  prevHash : Json.pyEq ((Dict.get? fields "prev_hash").getD .null) prev
  hashed : ∃ data, canonical (.obj (unsignedRecord fields)) = .ok data ∧ hash = H_hex crypto data
  named : Dict.get? fields "this_hash" = some (.str hash)
  signed : ∃ data sig, encode hash = .ok data ∧
    bytesFromHex ((Dict.get? fields "sig").getD (.str [])) = .ok sig ∧
    crypto.verify pub data sig = true

/-- Signatures made with a key verify under it. -/
def Crypto.Lawful : Prop :=
  ∀ seed msg, crypto.verify (crypto.publicKey seed) msg (crypto.sign seed msg) = true

theorem Crypto.sample_lawful : Crypto.sample.Lawful := by
  intro seed msg
  simp [Crypto.sample]

namespace WitnessChain

variable {crypto} {pub : Bytes} {chain : WitnessChain} {call : AppendCall}

private theorem guard_true {p : Prop} [Decidable p] {rest : Py Bool} :
    (if p then pure false else rest) = .ok true ↔ ¬p ∧ rest = .ok true := by
  split <;> simp [*, pure, Except.pure]

theorem verifyLoop_cons {i : Nat} {prev rec : Json} {rest : List Json} :
    verifyLoop crypto pub i prev (rec :: rest) = .ok true ↔
      ∃ fields hash, rec = .obj fields ∧ SignedRecord crypto pub i prev hash fields ∧
        (Dict.get? fields "prev_hash").isSome ∧ (Dict.get? fields "sig").isSome ∧
        verifyLoop crypto pub (i + 1) (.str hash) rest = .ok true := by
  cases rec with
  | obj fields =>
    simp only [verifyLoop, bind, Py.bind_ok, guard_true, not_not, subscript_obj]
    constructor
    · rintro ⟨index, indexRead, number, prevHash, prevRead, chained, hash, named, data, text, rfl,
        signed, encoded, value, valueRead, sig, sigRead, verifies, later⟩
      refine ⟨fields, _, rfl, ⟨⟨index, indexRead, number⟩, ?_, ⟨data, text, rfl⟩, named, signed, sig,
        encoded, ?_, by simpa using verifies⟩, by simp [prevRead], by simp [valueRead], later⟩
      · rwa [prevRead]
      · rwa [valueRead]
    · rintro ⟨_, hash, ⟨⟩, record, prevHere, sigHere, later⟩
      obtain ⟨⟨index, indexRead, number⟩, chained, ⟨data, text, rfl⟩, named, signed, sig, encoded,
        sigRead, verifies⟩ := record
      obtain ⟨prevHash, prevRead⟩ := Option.isSome_iff_exists.mp prevHere
      obtain ⟨value, valueRead⟩ := Option.isSome_iff_exists.mp sigHere
      rw [prevRead] at chained
      rw [valueRead] at sigRead
      exact ⟨index, indexRead, number, prevHash, prevRead, chained, _, named, data, text, rfl, signed,
        encoded, value, valueRead, sig, sigRead, by simpa using verifies, later⟩
  | _ =>
    constructor
    · intro verified
      cases verified
    · rintro ⟨_, _, shape, _⟩
      cases shape

/-- The hash a list of records ends in, chained from `prev`. -/
def lastHash (prev : Json) (records : List Json) : Py Json :=
  match records.getLast? with
  | some record => subscript record "this_hash"
  | none => return prev

theorem lastHash_cons {prev rec hash : Json} {rest : List Json} (named : subscript rec "this_hash" = .ok hash) :
    lastHash prev (rec :: rest) = lastHash hash rest := by
  cases rest with
  | nil =>
    rw [lastHash, List.getLast?_singleton]
    exact named
  | cons second rest =>
    rw [lastHash, lastHash, List.getLast?_cons_cons,
      List.getLast?_eq_some_getLast (List.cons_ne_nil second rest)]

theorem verifyLoop_snoc {i : Nat} {prev rec : Json} {front : List Json} :
    verifyLoop crypto pub i prev (front ++ [rec]) = .ok true ↔
      verifyLoop crypto pub i prev front = .ok true ∧
        ∃ head, lastHash prev front = .ok head ∧
          verifyLoop crypto pub (i + front.length) head [rec] = .ok true := by
  induction front generalizing i prev with
  | nil => simp [lastHash, verifyLoop, pure, Except.pure]
  | cons first front ih =>
    have place : i + 1 + front.length = i + (front.length + 1) := by omega
    have last {fields : Dict Str Json} {hash : Str} (shape : first = .obj fields)
        (named : Dict.get? fields "this_hash" = some (.str hash)) :
        lastHash prev (first :: front) = lastHash (.str hash) front := by
      subst shape
      exact lastHash_cons (subscript_obj.mpr named)
    rw [List.cons_append, verifyLoop_cons, verifyLoop_cons, List.length_cons, ← place]
    constructor
    · rintro ⟨fields, hash, shape, record, prevHere, sigHere, later⟩
      obtain ⟨within, head, headRead, ended⟩ := ih.mp later
      exact ⟨⟨fields, hash, shape, record, prevHere, sigHere, within⟩, head,
        (last shape record.named).trans headRead, ended⟩
    · rintro ⟨⟨fields, hash, shape, record, prevHere, sigHere, within⟩, head, headRead, ended⟩
      exact ⟨fields, hash, shape, record, prevHere, sigHere,
        ih.mpr ⟨within, head, (last shape record.named).symm.trans headRead, ended⟩⟩

theorem key_optionalField {key : Str} {value : Json} {entry : Str × Json}
    (member : entry ∈ optionalField key value) : entry.1 = key := by
  cases value with
  | null => cases member
  | _ => rw [List.mem_singleton.mp member]

theorem unsigned_sealed {body : Dict Str Json}
    (content : ∀ entry ∈ body, entry.1 ≠ "this_hash" ∧ entry.1 ≠ "sig") (hash sig : Json) :
    unsignedRecord (body ++ ([("this_hash", hash), ("sig", sig)] : Dict Str Json)) = body ∧
      Dict.get? (body ++ ([("this_hash", hash), ("sig", sig)] : Dict Str Json)) "this_hash" = some hash ∧
      Dict.get? (body ++ ([("this_hash", hash), ("sig", sig)] : Dict Str Json)) "sig" = some sig := by
  have absent (key : Str) (sealed : key = "this_hash" ∨ key = "sig") : Dict.get? body key = none := by
    cases found : Dict.get? body key with
    | none => rfl
    | some value =>
      have kept := content _ (Dict.mem_of_get? found)
      rcases sealed with rfl | rfl
      · exact absurd rfl kept.1
      · exact absurd rfl kept.2
  refine ⟨?_, ?_, ?_⟩
  · rw [unsignedRecord, List.filter_append, List.filter_eq_self.mpr (by simpa using content)]
    simp
  · rw [Dict.get?_append, absent _ (.inl rfl)]
    rfl
  · rw [Dict.get?_append, absent _ (.inr rfl)]
    rfl

theorem verifyLoop_built (lawful : crypto.Lawful) {record : Json}
    (built : chain.buildRecord crypto call = .ok record) :
    ∃ head, lastHash (.str genesis) chain.records = .ok head ∧
      verifyLoop crypto (chain.sk.publicKey crypto) chain.records.length head [record] = .ok true := by
  simp only [buildRecord, bind, Py.bind_ok] at built
  obtain ⟨prevHash, prevRead, request, _, response, _, provenance, _, data, text, signed, encoded,
    made⟩ := built
  obtain rfl := Except.ok.inj made
  refine ⟨prevHash, prevRead, ?_⟩
  generalize shape : ([("index", Json.int chain.nextIndex), ("prev_hash", prevHash),
    ("timestamp", call.timestamp), ("node_id", .str (chain.nodeId crypto)), ("kind", .str call.kind),
    ("request_commitment", request), ("response_commitment", response),
    ("provenance_hash", provenance), ("semantic_digest", call.semanticDigest)] : Dict Str Json) ++
    optionalField "session_id" call.sessionId ++
    optionalField "ir_schema_version" call.irSchemaVersion ++
    optionalField "entanglement" call.entanglement = body at *
  have content : ∀ entry ∈ body, entry.1 ≠ "this_hash" ∧ entry.1 ≠ "sig" := by
    intro entry member
    subst shape
    simp only [List.mem_append] at member
    rcases member with ((fixed | session) | schema) | entangled
    · have keys : ∀ key ∈ Dict.keys ([("index", Json.int chain.nextIndex), ("prev_hash", prevHash),
          ("timestamp", call.timestamp), ("node_id", .str (chain.nodeId crypto)),
          ("kind", .str call.kind), ("request_commitment", request),
          ("response_commitment", response), ("provenance_hash", provenance),
          ("semantic_digest", call.semanticDigest)] : Dict Str Json),
          key ≠ "this_hash" ∧ key ≠ "sig" := by
        simp only [Dict.keys, List.map_cons, List.map_nil]
        decide
      exact keys _ (List.mem_map_of_mem fixed)
    · rw [key_optionalField session]; decide
    · rw [key_optionalField schema]; decide
    · rw [key_optionalField entangled]; decide
  obtain ⟨unsealed, named, tagged⟩ := unsigned_sealed content (.str (H_hex crypto data))
    (.str (toHex (chain.sk.sign crypto signed)))
  have first : Dict.get? body "index" = some (.int chain.nextIndex) ∧
      Dict.get? body "prev_hash" = some prevHash := by
    subst shape
    exact ⟨rfl, rfl⟩
  have kept (key : Str) (value : Json) (found : Dict.get? body key = some value) :
      Dict.get? (body ++ ([("this_hash", .str (H_hex crypto data)),
        ("sig", .str (toHex (chain.sk.sign crypto signed)))] : Dict Str Json)) key = some value := by
    rw [Dict.get?_append, found]
    rfl
  refine verifyLoop_cons.mpr ⟨_, H_hex crypto data, rfl, ?_, ?_, ?_, rfl⟩
  · refine ⟨⟨_, kept _ _ first.1, Json.pyEq.refl _⟩, ?_, ⟨data, ?_, rfl⟩, named, signed,
      chain.sk.sign crypto signed, encoded, ?_, lawful _ _⟩
    · rw [kept _ _ first.2]
      rfl
    · rwa [unsealed]
    · rw [tagged]
      exact bytesFromHex_toHex _
  · rw [kept _ _ first.2]
    rfl
  · rw [tagged]
    rfl

theorem verifyChain_append (lawful : crypto.Lawful) {appended : Appended}
    (made : chain.append crypto call = .ok appended) (verified : chain.verifyChain crypto = .ok true) :
    appended.chain.verifyChain crypto = .ok true := by
  simp only [append, bind, Py.bind_ok] at made
  obtain ⟨_, _, record, built, _, _, made⟩ := made
  obtain rfl := Except.ok.inj made
  obtain ⟨head, headRead, last⟩ := verifyLoop_built lawful built
  refine verifyLoop_snoc.mpr ⟨verified, head, headRead, ?_⟩
  rw [Nat.zero_add]
  exact last

end WitnessChain

end JJDai
