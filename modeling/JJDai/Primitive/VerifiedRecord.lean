import JJDai.Primitive.Builtins
import JJDai.Primitive.ChainVerification

/-! The fields of a record that was built, and the place of a record in a log that verifies. -/

namespace JJDai

open PyText Canonical

variable {crypto : Crypto}

/-- The fields of a record that a later reader looks at. -/
structure RecordFields (crypto : Crypto) (call : AppendCall) (index : Nat) (record : Json) : Prop where
  kind : dotGet record "kind" = .ok (.str call.kind)
  index : dotGet record "index" = .ok (.int index)
  digest : dotGet record "semantic_digest" = .ok call.semanticDigest
  provenance : ∃ hash, WitnessChain.provenanceHash crypto call.provenance = .ok hash ∧
    dotGet record "provenance_hash" = .ok hash
  request : ∃ committed, WitnessChain.commitment crypto call.requestSalt call.request = .ok committed ∧
    dotGet record "request_commitment" = .ok committed

theorem recordFields {chain : WitnessChain} {call : AppendCall} {record : Json}
    (built : chain.buildRecord crypto call = .ok record) : RecordFields crypto call chain.nextIndex record := by
  simp only [WitnessChain.buildRecord, bind, Py.bind_ok] at built
  obtain ⟨_, _, committed, request, _, _, hash, provenance, _, _, _, _, made⟩ := built
  obtain rfl := Except.ok.inj made
  exact ⟨rfl, rfl, rfl, ⟨hash, provenance, rfl⟩, ⟨committed, request, rfl⟩⟩

theorem WitnessChain.append_parts {chain : WitnessChain} {call : AppendCall} {written : Appended}
    (made : chain.append crypto call = .ok written) :
    chain.buildRecord crypto call = .ok written.record ∧
      written.chain = { chain with records := chain.records ++ [written.record] } ∧
      subscript written.receipt "index" = .ok (.int chain.nextIndex) ∧
      subscript written.receipt "this_hash" = subscript written.record "this_hash" := by
  simp only [WitnessChain.append, bind, Py.bind_ok] at made
  obtain ⟨_, _, record, built, hash, named, made⟩ := made
  obtain rfl := Except.ok.inj made
  refine ⟨built, rfl, rfl, ?_⟩
  rw [named]
  rfl

theorem WitnessChain.signed_at {pub : Bytes} {i : Nat} {prev : Json} {records : List Json}
    (verified : verifyLoop crypto pub i prev records = .ok true) {j : Nat} {record : Json}
    (here : records[j]? = some record) :
    ∃ fields hash before, record = .obj fields ∧ SignedRecord crypto pub (i + j : Nat) before hash fields := by
  induction records generalizing i prev j with
  | nil => cases here
  | cons first rest ih =>
    obtain ⟨fields, hash, shape, signed, _, _, later⟩ := verifyLoop_cons.mp verified
    cases j with
    | zero =>
      obtain rfl := Option.some.inj here
      exact ⟨fields, hash, prev, shape, signed⟩
    | succ j =>
      have place : i + 1 + j = i + (j + 1) := by omega
      rw [← place]
      exact ih later here

theorem pyInt_of_pyEq {value : Json} {n : Int} (same : Json.pyEq value (.int n)) : pyInt value = .ok n := by
  cases value with
  | int m =>
    obtain rfl := Json.int.inj same
    rfl
  | bool b =>
    cases b with
    | true =>
      obtain rfl := Json.int.inj same
      rfl
    | false =>
      obtain rfl := Json.int.inj same
      rfl
  | float x =>
    simp only [Json.pyEq, Json.comparisonKey] at same
    cases whole : x.toInt? with
    | none =>
      rw [whole] at same
      cases same
    | some m =>
      rw [whole] at same
      obtain rfl := Json.int.inj same
      cases x with
      | finite d => simp only [pyInt, whole]; rfl
      | nan => cases whole
      | infinity negative => cases whole
  | _ => cases same

end JJDai
