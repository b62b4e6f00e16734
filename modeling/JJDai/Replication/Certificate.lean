import JJDai.Replication.Envelope

/-! What the two verifications establish about an envelope, as structures that
the store's invariants are stated over. -/

namespace JJDai.Replication

open PyText Canonical Merkle

variable (crypto : Crypto)

/-- A root envelope that passes `verifySignedRoot`, as it was read. -/
structure SignedRoot (env : Json) where
  body : Dict Str Json
  pub : Bytes
  sig : Bytes
  count : Int
  data : Bytes
  read : readEnvelope env = .ok (.obj body, pub, sig)
  kind : Dict.get? body "kind" = some (.str "WITNESS_ROOT")
  node : Dict.get? body "node_id" = some (.str (canonicalNodeId crypto pub))
  counted : (Dict.get? body "count").bind asInt? = some count
  nonneg : 0 ≤ count
  text : canonical (.obj body) = .ok data
  verified : crypto.verify pub (rootDomain ++ data) sig = true

/-- The same of a consistency envelope, up to its counts. -/
structure SignedClaim (env : Json) where
  body : Dict Str Json
  pub : Bytes
  sig : Bytes
  old : Int
  new : Int
  data : Bytes
  read : readEnvelope env = .ok (.obj body, pub, sig)
  kind : Dict.get? body "kind" = some (.str "WITNESS_CONSISTENCY")
  node : Dict.get? body "node_id" = some (.str (canonicalNodeId crypto pub))
  text : canonical (.obj body) = .ok data
  verified : crypto.verify pub (consDomain ++ data) sig = true
  oldCounted : (Dict.get? body "old_count").bind asInt? = some old
  newCounted : (Dict.get? body "new_count").bind asInt? = some new
  positive : 0 < old
  ordered : old ≤ new

variable {crypto} {env : Json}

def SignedRoot.origin (root : SignedRoot crypto env) : Str := canonicalNodeId crypto root.pub

def SignedClaim.origin (claim : SignedClaim crypto env) : Str := canonicalNodeId crypto claim.pub

theorem getD_null {value : Option Json} {j : Json} (some_left : j ≠ .null) :
    value.getD .null = j ↔ value = some j := by
  cases value with
  | none => simp [Ne.symm some_left]
  | some present => simp

theorem asInt_getD (value : Option Json) : asInt? (value.getD .null) = value.bind asInt? := by
  cases value <;> rfl

theorem SignedRoot.verifies (root : SignedRoot crypto env) :
    verifySignedRoot crypto env = .ok (true, "ok") := by
  have counted : asInt? ((Dict.get? root.body "count").getD .null) = some root.count := by
    rw [asInt_getD, root.counted]
  simp [verifySignedRoot, root.read, root.kind, root.node, counted, not_lt.mpr root.nonneg, root.text,
    root.verified, bind, Except.bind, pure, Except.pure]

theorem signedRoot_of_verifies {reason : Str}
    (accepted : verifySignedRoot crypto env = .ok (true, reason)) :
    Nonempty (SignedRoot crypto env) := by
  unfold verifySignedRoot at accepted
  cases read : readEnvelope env with
  | error e =>
    simp only [read] at accepted
    split at accepted <;> cases accepted
  | ok parts =>
    obtain ⟨body, pub, sig⟩ := parts
    simp only [read, bind, Py.bind_ok] at accepted
    obtain ⟨kind, kindRead, accepted⟩ := accepted
    obtain ⟨body, rfl⟩ := obj_of_dotGet kindRead
    obtain rfl := Except.ok.inj kindRead
    simp only [dotGet_obj, Except.bind] at accepted
    split at accepted
    · cases accepted
    · rename_i kind
      split at accepted
      · cases accepted
      · rename_i node
        split at accepted
        · cases accepted
        · rename_i count counted
          split at accepted
          · cases accepted
          · rename_i nonneg
            cases text : canonical (.obj body) with
            | error e => simp [text] at accepted
            | ok data =>
              simp only [text] at accepted
              split at accepted
              · cases accepted
              · rename_i verified
                exact ⟨{
                  body := body, pub := pub, sig := sig, count := count, data := data
                  read := read
                  kind := (getD_null (by simp)).mp (not_not.mp kind)
                  node := (getD_null (by simp)).mp (not_not.mp node)
                  counted := by rw [← asInt_getD]; exact counted
                  nonneg := not_lt.mp nonneg
                  text := text
                  verified := by simpa using verified }⟩

theorem SignedClaim.verdict (claim : SignedClaim crypto env) (oldEnv newEnv : Option Json) :
    verifyConsistencyEnvelope crypto env oldEnv newEnv =
      claimVerdict crypto (.obj claim.body) claim.old claim.new oldEnv newEnv := by
  have old : asInt? ((Dict.get? claim.body "old_count").getD .null) = some claim.old := by
    rw [asInt_getD, claim.oldCounted]
  have new : asInt? ((Dict.get? claim.body "new_count").getD .null) = some claim.new := by
    rw [asInt_getD, claim.newCounted]
  simp [verifyConsistencyEnvelope, claim.read, claim.kind, claim.node, old, new, claim.text,
    claim.verified, claim.positive, claim.ordered, bind, Except.bind]

theorem signedClaim_of_verdict {oldEnv newEnv : Option Json} {status : ConsistencyStatus}
    {reason : Str} (answered : verifyConsistencyEnvelope crypto env oldEnv newEnv =
      .ok (status, reason)) (weighed : status ≠ .rejected) : Nonempty (SignedClaim crypto env) := by
  unfold verifyConsistencyEnvelope at answered
  cases read : readEnvelope env with
  | error e =>
    simp only [read] at answered
    split at answered
    · obtain ⟨rfl, _⟩ := Prod.mk.inj (Except.ok.inj answered)
      exact absurd rfl weighed
    · cases answered
  | ok parts =>
    obtain ⟨body, pub, sig⟩ := parts
    simp only [read, bind, Py.bind_ok] at answered
    obtain ⟨kind, kindRead, answered⟩ := answered
    obtain ⟨body, rfl⟩ := obj_of_dotGet kindRead
    obtain rfl := Except.ok.inj kindRead
    simp only [dotGet_obj, Except.bind] at answered
    have rejects : ∀ text : Str, (pure (.rejected, text) : Py (ConsistencyStatus × Str)) ≠
        .ok (status, reason) := by
      intro text same
      exact weighed (Prod.mk.inj (Except.ok.inj same)).1.symm
    split at answered
    · exact absurd answered (rejects _)
    · rename_i kind
      split at answered
      · exact absurd answered (rejects _)
      · rename_i node
        cases text : canonical (.obj body) with
        | error e => simp [text] at answered
        | ok data =>
          simp only [text] at answered
          split at answered
          · exact absurd answered (rejects _)
          · rename_i verified
            split at answered
            · rename_i old new oldRead newRead
              split at answered
              · exact absurd answered (rejects _)
              · rename_i bounds
                exact ⟨{
                  body := body, pub := pub, sig := sig, old := old, new := new, data := data
                  read := read
                  kind := (getD_null (by simp)).mp (not_not.mp kind)
                  node := (getD_null (by simp)).mp (not_not.mp node)
                  text := text
                  verified := by simpa using verified
                  oldCounted := by rw [← asInt_getD]; exact oldRead
                  newCounted := by rw [← asInt_getD]; exact newRead
                  positive := (not_not.mp bounds).1
                  ordered := (not_not.mp bounds).2 }⟩
            · exact absurd answered (rejects _)

theorem checkPin_passes {which : Str} {body : Dict Str Json} {pin : Json}
    (passes : checkPin which (.obj body) (some pin) = .ok none) :
    ∃ pb value, subscript pin "body" = .ok (.obj pb) ∧
      Dict.get? pb "root_alg" = some (.str "rfc6962") ∧
      Dict.get? body (which ++ "_root") = some value ∧
      Json.pyEq ((Dict.get? pb "root").getD .null) value := by
  simp only [checkPin, bind, Py.bind_ok] at passes
  obtain ⟨pb, read, node, nodeRead, passes⟩ := passes
  obtain ⟨pb, rfl⟩ := obj_of_dotGet nodeRead
  obtain ⟨claimed, _, passes⟩ := passes
  split at passes
  · cases passes
  · simp only [dotGet_obj, Except.bind] at passes
    split at passes
    · cases passes
    · rename_i alg
      cases counts : subscript (.obj body) (which ++ "_count") with
      | error e => simp [counts] at passes
      | ok count =>
        simp only [counts] at passes
        split at passes
        · cases passes
        · cases roots : subscript (.obj body) (which ++ "_root") with
          | error e => simp [roots] at passes
          | ok root =>
            simp only [roots] at passes
            split at passes
            · cases passes
            · rename_i equal
              exact ⟨pb, root, read, (getD_null (by simp)).mp (not_not.mp alg),
                subscript_obj.mp roots, not_not.mp equal⟩

theorem checkPin_not_consistent {which : Str} {body : Json} {pin : Option Json}
    {status : ConsistencyStatus} {reason : Str}
    (settled : checkPin which body pin = .ok (some (status, reason))) : status ≠ .consistent := by
  rintro rfl
  cases pin with
  | none => cases settled
  | some pin =>
    simp only [checkPin, bind, Py.bind_ok] at settled
    obtain ⟨pb, _, node, _, claimed, _, settled⟩ := settled
    split at settled
    · cases settled
    · simp only [Py.bind_ok] at settled
      obtain ⟨alg, _, settled⟩ := settled
      split at settled
      · cases settled
      · simp only [Py.bind_ok] at settled
        obtain ⟨text, _, count, _, value, _, settled⟩ := settled
        split at settled
        · cases settled
        · simp only [Py.bind_ok] at settled
          obtain ⟨root, _, value, _, settled⟩ := settled
          split at settled <;> cases settled

theorem claimVerdict_consistent {body : Json} {m n : Int} {oldEnv newEnv : Option Json}
    {reason : Str} (passed : claimVerdict crypto body m n oldEnv newEnv = .ok (.consistent, reason)) :
    checkPin "old" body oldEnv = .ok none ∧ checkPin "new" body newEnv = .ok none ∧
      ∃ oldRoot newRoot proof, subscript body "old_root" = .ok oldRoot ∧
        subscript body "new_root" = .ok newRoot ∧ dotGet body "proof" = .ok proof ∧
        verifyConsistency crypto m n oldRoot newRoot (orList proof) = .ok true := by
  simp only [claimVerdict, bind, Py.bind_ok] at passed
  obtain ⟨first, oldPin, passed⟩ := passed
  cases first with
  | some answer =>
    obtain rfl := Except.ok.inj passed
    exact absurd rfl (checkPin_not_consistent oldPin)
  | none =>
    simp only [Py.bind_ok] at passed
    obtain ⟨second, newPin, passed⟩ := passed
    cases second with
    | some answer =>
      obtain rfl := Except.ok.inj passed
      exact absurd rfl (checkPin_not_consistent newPin)
    | none =>
      simp only [Py.bind_ok] at passed
      obtain ⟨oldRoot, oldRead, newRoot, newRead, proof, proofRead, answer, verified, passed⟩ := passed
      cases answer with
      | false => cases passed
      | true =>
        exact ⟨oldPin, newPin, oldRoot, newRoot, proof, oldRead, newRead, proofRead, verified⟩

end JJDai.Replication
