import JJDai.Knowledge.Lifecycle

/-! Knowledge exists exactly when it was witnessed: over whole runs the store's
chunks are those of the witness's records, and a call that fails changes nothing. -/

namespace JJDai.Knowledge

open PyText Canonical Transaction Transaction.Statements

variable {crypto : Crypto} {sqlite : Sqlite}

/-- The digest of a record that says a chunk was written. -/
def writeDigest (record : Json) : Option Json :=
  match subscript record "kind", subscript record "semantic_digest" with
  | .ok (.str kind), .ok digest =>
    match subscript digest "plane", subscript digest "op" with
    | .ok plane, .ok op =>
      if kind = "MEMORY" ∧ plane = .str "H" ∧ oneOf ["add", "supersede"] op then some digest else none
    | _, _ => none
  | _, _ => none

/-- A digest names a chunk: its id, its hash, its namespace and its document. -/
structure Names (sqlite : Sqlite) (digest : Json) (chunk : Chunk) : Prop where
  id : subscript digest "chunk_id" = .ok (.int chunk.id)
  hash : subscript digest "content_hash" = .ok (.str chunk.hash)
  ns : ∃ ns value, subscript digest "ns" = .ok ns ∧ bindValue ns = .ok value ∧ chunk.ns = value.asText sqlite
  docId : ∃ docId value, subscript digest "doc_id" = .ok docId ∧ bindValue docId = .ok value ∧
    chunk.docId = value.asText sqlite

/-- The chunks of a store are those that the records name, one by one. -/
def Witnessed (sqlite : Sqlite) (records : List Json) (tables : Tables) : Prop :=
  List.Forall₂ (Names sqlite) (records.filterMap writeDigest) tables.chunks

/-- The root of a namespace in the committed tables. -/
def namespaceRoot (crypto : Crypto) (sqlite : Sqlite) (ns : Json) (tables : Tables) : Py Str := do
  let rows ← selectLeaves sqlite ns tables
  let hashes ← hashBytes rows
  Merkle.merkleRoot crypto hashes

theorem namespaceRoot_cleared (tables : Tables) (id : Int) (ns : Json) :
    namespaceRoot crypto sqlite ns (tables.cleared id) = namespaceRoot crypto sqlite ns tables := by
  have leaves : selectLeaves sqlite ns (tables.cleared id) = selectLeaves sqlite ns tables := by
    simp only [selectLeaves, Tables.cleared]
    congr 1
    funext key
    rw [List.filter_map, List.map_map]
    congr 2
    have same : ((fun chunk => SqlValue.isText sqlite key chunk.ns) ∘
        fun row : Chunk => if id = row.id then { row with text := none } else row) =
          fun chunk => SqlValue.isText sqlite key chunk.ns := by
      funext chunk
      simp only [Function.comp]
      split <;> rfl
    rw [same]
    apply List.map_congr_left
    intro chunk _
    simp only [Function.comp]
    split <;> rfl
  simp only [namespaceRoot, leaves]

theorem names_cleared {digests : List Json} {tables : Tables} (id : Int)
    (named : List.Forall₂ (Names sqlite) digests tables.chunks) :
    List.Forall₂ (Names sqlite) digests (tables.cleared id).chunks := by
  unfold Tables.cleared
  simp only
  rw [List.forall₂_map_right_iff]
  refine named.imp (fun digest chunk names => ?_)
  split
  · exact ⟨names.id, names.hash, names.ns, names.docId⟩
  · exact names

/-- What a proposal has when it reaches the store. -/
structure Vetted (crypto : Crypto) (text : Option Str) (admitted : Admitted) : Prop where
  ns : subscript admitted.body "ns" = .ok admitted.ns
  op : subscript admitted.body "op" = .ok admitted.op
  known : oneOf ops admitted.op
  hash : oneOf ["add", "supersede"] admitted.op → ∃ hash, sha256Text crypto text = .ok hash ∧
    dotGet admitted.body "content_hash" = .ok (.str hash)

theorem verifyText_ok {body op : Json} {text : Option Str} {reason : Str} (opRead : subscript body "op" = .ok op)
    (passed : verifyText crypto body text = .ok (true, reason)) (brings : oneOf ["add", "supersede"] op) :
    ∃ hash, sha256Text crypto text = .ok hash ∧ dotGet body "content_hash" = .ok (.str hash) := by
  simp only [verifyText, opRead, bind, Except.bind, brings, if_true] at passed
  cases text with
  | none => cases passed
  | some text =>
    simp only at passed
    cases hashed : sha256Text crypto (some text) with
    | error e =>
      rw [hashed] at passed
      cases passed
    | ok hash =>
      rw [hashed] at passed
      simp only at passed
      cases read : dotGet body "content_hash" with
      | error e =>
        rw [read] at passed
        cases passed
      | ok value =>
        rw [read] at passed
        simp only at passed
        split at passed
        · cases passed
        · rename_i same
          exact ⟨hash, rfl, congrArg Except.ok (not_not.mp same).symm⟩

theorem verifyWriteProposal_ok {env : Json} {text : Option Str} {reason : Str}
    (passed : verifyWriteProposal crypto env text = .ok (true, reason)) :
    ∃ body op, subscript env "body" = .ok body ∧ dotGet body "op" = .ok op ∧ oneOf ops op ∧
      ∃ reason, verifyText crypto body text = .ok (true, reason) := by
  unfold verifyWriteProposal at passed
  cases parts : envelopeParts env with
  | error e => rw [parts] at passed; cases passed
  | ok found =>
    obtain ⟨body, pub, sig⟩ := found
    rw [parts] at passed
    simp only [bind, Py.bind_ok, guard_ok] at passed
    obtain ⟨_, _, _, op, opRead, known, _, _, _, _, _, _, _, _, _, ⟨ok, said⟩, texted, accepted, _⟩ := passed
    simp only [envelopeParts, bind, Py.bind_ok, pure, Except.pure, Except.ok.injEq, Prod.mk.injEq] at parts
    obtain ⟨_, bodyRead, _, _, _, _, _, _, _, _, rfl, _, _⟩ := parts
    cases ok with
    | false => exact absurd rfl accepted
    | true => exact ⟨_, op, bodyRead, opRead, by simpa using known, said, texted⟩

theorem admit_ok {policy : WritePolicy} {env : Json} {text : Option Str} {admitted : Admitted}
    (passed : admitWrite crypto policy env text = .ok admitted) :
    subscript env "body" = .ok admitted.body ∧ Vetted crypto text admitted := by
  simp only [admitWrite, bind, Py.bind_ok, Py.unless_ok] at passed
  obtain ⟨⟨ok, reason⟩, verified, accepted, body, bodyRead, ns, nsRead, op, opRead, author, _, _, _, permitted, _, rest⟩ :=
    passed
  obtain rfl : ok = true := by simpa using accepted
  obtain ⟨checked, opChecked, again, opAgain, known, said, texted⟩ := verifyWriteProposal_ok verified
  obtain rfl := Except.ok.inj (bodyRead.symm.trans again)
  obtain rfl := Except.ok.inj ((dotGet_of_subscript opRead).symm.trans opAgain)
  have made : admitted = { body, ns, op, author } := by
    cases permitted with
    | true => exact (Except.ok.inj rest).symm
    | false =>
      simp only [Bool.not_false, if_true, Py.bind_ok] at rest
      obtain ⟨_, _, _, refused, _⟩ := rest
      cases refused
  subst made
  exact ⟨bodyRead, nsRead, opRead, known, verifyText_ok opRead texted⟩

theorem successors_changed (tables : Tables) {change : Meta → Meta} (id target : Int)
    (chunkId : ∀ row, (change row).chunkId = row.chunkId) (supersedes : ∀ row, (change row).supersedes = row.supersedes) :
    (tables.changed id change).successors target = tables.successors target := by
  unfold Tables.successors Tables.changed
  simp only
  rw [List.filter_map, List.map_map]
  have same : ((fun row : Meta => decide (row.supersedes = .integer target)) ∘
      fun row => if id = row.chunkId then change row else row) = fun row => decide (row.supersedes = .integer target) := by
    funext row
    simp only [Function.comp]
    split <;> simp [supersedes]
  rw [same]
  apply List.map_congr_left
  intro row _
  simp only [Function.comp]
  split <;> simp [chunkId]

theorem successors_written {tables : Tables} {chunk : Chunk} {row : Meta} {target : Int}
    (other : row.supersedes ≠ .integer target) :
    (tables.written chunk row).successors target = tables.successors target := by
  simp [Tables.successors, Tables.written, List.filter_append, other]

/-- What a write leaves of the tables before it. -/
structure Effect (crypto : Crypto) (sqlite : Sqlite) (admitted : Admitted) (text : Option Str) (applied : Applied)
    (before after : Tables) : Prop where
  line : Lineage after
  tombs : ∀ row ∈ before.chunkMeta, row.redacted → after.successors row.chunkId = before.successors row.chunkId
  chunks : (oneOf ["add", "supersede"] admitted.op = true ∧ ∃ docId hash chunk,
      subscript admitted.body "doc_id" = .ok docId ∧ sha256Text crypto text = .ok hash ∧
      Inserted sqlite before admitted.ns docId hash chunk ∧ applied.chunkId = .int chunk.id ∧
      after.chunks = before.chunks ++ [chunk]) ∨
    (admitted.op = .str "redact" ∧ ∃ id, after.chunks = (before.cleared id).chunks)

theorem inserted_text {before : Tables} {ns docId : Json} {hash : Str} {chunk : Chunk}
    (inserted : Inserted sqlite before ns docId hash chunk) : chunk.ns.IsText ∧ chunk.docId.IsText := by
  obtain ⟨space, _, spaceStored⟩ := inserted.ns
  obtain ⟨document, _, documentStored⟩ := inserted.docId
  rw [spaceStored, documentStored]
  exact ⟨isText_asText space, isText_asText document⟩

theorem effect_add {admitted : Admitted} {env : Json} {text : Option Str} {before after : Tables} {applied : Applied}
    (line : Lineage before) (vetted : Vetted crypto text admitted) (op : admitted.op = .str "add")
    (done : Yields (applyAdd crypto sqlite env admitted.body text) before applied after) :
    Effect crypto sqlite admitted text applied before after := by
  obtain ⟨ns, docId, hash, chunk, row, nsRead, docRead, hashed, inserted, card, first, _, _, named, rfl⟩ := yields_applyAdd done
  obtain rfl := Except.ok.inj (vetted.ns.symm.trans nsRead)
  exact {
    line := line.written inserted.id (inserted_text inserted) card first
    tombs := fun row _ _ => successors_written (by simp [first])
    chunks := .inl ⟨by rw [op]; decide, docId, hash, chunk, docRead, hashed, inserted, named, rfl⟩ }

theorem effect_supersede {admitted : Admitted} {env : Json} {text : Option Str} {before after : Tables}
    {applied : Applied} (line : Lineage before) (vetted : Vetted crypto text admitted)
    (op : admitted.op = .str "supersede")
    (done : Yields (applySupersede crypto sqlite env admitted.body text) before applied after) :
    Effect crypto sqlite admitted text applied before after := by
  obtain ⟨target, told, card, ns, docId, hash, chunk, row, found, succeeds, nsRead, docRead, hashed, inserted, fresh,
    back, version, _, named, rfl⟩ := yields_applySupersede done
  obtain rfl := Except.ok.inj (vetted.ns.symm.trans nsRead)
  obtain ⟨toldNs, toldDoc⟩ := line.texts told found.chunk
  have beside : chunk.ns = told.ns ∧ chunk.docId = told.docId := by
    obtain ⟨space, spaceBound, spaceStored⟩ := inserted.ns
    obtain ⟨document, documentBound, documentStored⟩ := inserted.docId
    obtain ⟨_, again, sameNs⟩ := succeeds.ns
    obtain rfl := Except.ok.inj (nsRead.symm.trans again)
    obtain ⟨_, again, sameDoc⟩ := succeeds.docId
    obtain rfl := Except.ok.inj (docRead.symm.trans again)
    exact ⟨spaceStored.trans (asText_of_pyEq toldNs spaceBound sameNs),
      documentStored.trans (asText_of_pyEq toldDoc documentBound sameDoc)⟩
  exact {
    line := line.superseded inserted.id beside fresh found.chunk found.row found.same succeeds.alone back version
    tombs := by
      intro tomb member redacted
      rw [successors_changed]
      · apply successors_written
        intro names
        have hits := SqlValue.integer.inj (back.symm.trans names)
        obtain rfl := line.row_unique member found.row (hits.symm.trans found.same.symm)
        rw [succeeds.kept] at redacted
        cases redacted
      · exact fun _ => rfl
      · exact fun _ => rfl
    chunks := .inl ⟨by rw [op]; decide, docId, hash, chunk, docRead, hashed, inserted, named, rfl⟩ }

theorem effect_redact {admitted : Admitted} {env : Json} {text : Option Str} {before after : Tables} {applied : Applied}
    (line : Lineage before) (op : admitted.op = .str "redact")
    (done : Yields (applyRedact crypto sqlite env admitted.body) before applied after) :
    Effect crypto sqlite admitted text applied before after := by
  obtain ⟨target, told, card, found, rfl⟩ := yields_applyRedact done
  exact {
    line := (line.cleared told.id).changed told.id (fun _ => rfl) (fun _ => rfl) (fun _ => rfl) (fun _ => rfl)
    tombs := fun row _ _ => successors_changed _ _ _ (fun _ => rfl) (fun _ => rfl)
    chunks := .inr ⟨op, told.id, rfl⟩ }

theorem effect_operate {admitted : Admitted} {env : Json} {text : Option Str} {before after : Tables}
    {applied : Applied} (line : Lineage before) (vetted : Vetted crypto text admitted)
    (done : Yields (operate crypto sqlite admitted env text) before applied after) :
    Effect crypto sqlite admitted text applied before after := by
  obtain ⟨made, middle, begun, rest⟩ := yields_bind done
  obtain ⟨root, rooted, rest⟩ := yields_bind_readOnly (readOnly_merkleRoot _) rest
  obtain ⟨rfl, rfl⟩ := yields_pure rest
  have effect : Effect crypto sqlite admitted text made before after := by
    unfold write at begun
    by_cases added : admitted.op = .str "add"
    · rw [if_pos added] at begun
      exact effect_add line vetted added begun
    · rw [if_neg added] at begun
      by_cases superseded : admitted.op = .str "supersede"
      · rw [if_pos superseded] at begun
        exact effect_supersede line vetted superseded begun
      · rw [if_neg superseded] at begun
        have redacted : admitted.op = .str "redact" := by
          simpa [oneOf, ops, added, superseded] using vetted.known
        exact effect_redact line redacted begun
  exact ⟨effect.line, effect.tombs, effect.chunks⟩

theorem uncommitted_findTarget (op : Str) (target : Json) : Uncommitted (findTarget sqlite op target) := by
  apply uncommitted_query.bind
  intro told
  apply uncommitted_query.bind
  intro card
  cases told with
  | none => exact uncommitted_attempt _
  | some told =>
    cases card with
    | none => exact uncommitted_attempt _
    | some card => exact uncommitted_pure _

theorem uncommitted_applyAdd (env body : Json) (text : Option Str) :
    Uncommitted (applyAdd crypto sqlite env body text) := by
  apply (uncommitted_attempt _).bind
  intro ns
  apply (uncommitted_attempt _).bind
  intro docId
  apply (uncommitted_add _ _ _).bind
  intro added
  apply (uncommitted_attempt _).bind
  intro author
  apply (uncommitted_attempt _).bind
  intro created
  apply (uncommitted_execute _).bind
  intro _
  exact (uncommitted_prove _ _).bind (fun _ => uncommitted_pure _)

theorem uncommitted_applySupersede (env body : Json) (text : Option Str) :
    Uncommitted (applySupersede crypto sqlite env body text) := by
  apply (uncommitted_attempt _).bind
  intro target
  apply (uncommitted_findTarget _ _).bind
  intro found
  apply (uncommitted_attempt _).bind
  intro _
  apply (uncommitted_attempt _).bind
  intro ns
  apply (uncommitted_attempt _).bind
  intro docId
  apply (uncommitted_add _ _ _).bind
  intro added
  apply (uncommitted_attempt _).bind
  intro author
  apply (uncommitted_attempt _).bind
  intro created
  apply (uncommitted_execute _).bind
  intro _
  apply (uncommitted_execute _).bind
  intro _
  exact (uncommitted_prove _ _).bind (fun _ => uncommitted_pure _)

theorem uncommitted_applyRedact (env body : Json) : Uncommitted (applyRedact crypto sqlite env body) := by
  apply (uncommitted_attempt _).bind
  intro target
  apply (uncommitted_findTarget _ _).bind
  intro found
  apply (uncommitted_attempt _).bind
  intro _
  apply (uncommitted_execute _).bind
  intro _
  apply (uncommitted_execute _).bind
  intro _
  apply (uncommitted_attempt _).bind
  intro ns
  exact (uncommitted_prove _ _).bind (fun _ => uncommitted_pure _)

theorem uncommitted_operate (admitted : Admitted) (env : Json) (text : Option Str) :
    Uncommitted (operate crypto sqlite admitted env text) := by
  have written : Uncommitted (write crypto sqlite admitted env text) := by
    unfold write
    split
    · exact uncommitted_applyAdd _ _ _
    · split
      · exact uncommitted_applySupersede _ _ _
      · exact uncommitted_applyRedact _ _
  exact written.bind (fun _ => (uncommitted_merkleRoot _).bind (fun _ => uncommitted_pure _))

variable {W : Type} {chain : Witness W}

/-- The store is that of the records since the start, in lines of succession. -/
structure Sound (sqlite : Sqlite) (chain : Witness W) (start : List Json) (plane : PlaneH W) : Prop where
  closed : plane.db.current = plane.db.committed
  line : Lineage plane.db.committed
  witnessed : ∃ w records, plane.witness = some w ∧ chain.records w = start ++ records ∧
    Witnessed sqlite records plane.db.committed

/-- What a call keeps: all of it when it fails, the roots when it redacts, and that
no redacted chunk is followed by another. -/
structure Careful (crypto : Crypto) (sqlite : Sqlite) (chain : Witness W) (plane : PlaneH W) (env : Json)
    (answer : Py Applied × PlaneH W) : Prop where
  failing : ∀ e, answer.1 = .error e → answer.2.db.committed = plane.db.committed ∧
    answer.2.db.current = plane.db.current ∧ answer.2.policy = plane.policy ∧
    answer.2.witness.map chain.records = plane.witness.map chain.records
  redaction : (subscript env "body").bind (fun body => subscript body "op") = .ok (.str "redact") →
    ∀ ns, namespaceRoot crypto sqlite ns answer.2.db.committed = namespaceRoot crypto sqlite ns plane.db.committed
  tombs : ∀ row ∈ plane.db.committed.chunkMeta, row.redacted →
    answer.2.db.committed.successors row.chunkId = plane.db.committed.successors row.chunkId

theorem attest_error {admitted : Admitted} {env governorNode : Json} {applied : Applied} {e : PyErr}
    {witness later : Option W} (failed : attest chain admitted env governorNode applied witness = (.error e, later)) :
    later.map chain.records = witness.map chain.records := by
  cases witness with
  | none => cases (Prod.mk.inj failed).1
  | some w =>
    simp only [attest] at failed
    split at failed
    · obtain ⟨_, rfl⟩ := Prod.mk.inj failed
      rfl
    · obtain ⟨answered, rfl⟩ := Prod.mk.inj failed
      exact congrArg some (chain.keeps (Prod.ext answered rfl))

theorem attest_ok {admitted : Admitted} {env governorNode : Json} {applied : Applied} {w : W} {later : Option W}
    (done : attest chain admitted env governorNode applied (some w) = (.ok (), later)) :
    ∃ digest next record, semanticDigest admitted governorNode applied = .ok digest ∧ later = some next ∧
      chain.records next = chain.records w ++ [record] ∧ subscript record "kind" = .ok (.str "MEMORY") ∧
      subscript record "semantic_digest" = .ok digest := by
  simp only [attest] at done
  split at done
  · cases (Prod.mk.inj done).1
  · rename_i digest made
    obtain ⟨answered, rfl⟩ := Prod.mk.inj done
    obtain ⟨record, added, kind, carried⟩ := chain.adds (Prod.ext answered rfl)
    exact ⟨digest, _, record, made, rfl, added, kind, carried⟩

theorem witnessed_effect {admitted : Admitted} {governorNode digest record : Json} {text : Option Str}
    {applied : Applied} {records : List Json} {before after : Tables} (vetted : Vetted crypto text admitted)
    (effect : Effect crypto sqlite admitted text applied before after)
    (made : semanticDigest admitted governorNode applied = .ok digest)
    (kind : subscript record "kind" = .ok (.str "MEMORY")) (carried : subscript record "semantic_digest" = .ok digest)
    (known : Witnessed sqlite records before) : Witnessed sqlite (records ++ [record]) after := by
  simp only [semanticDigest, bind, Py.bind_ok] at made
  obtain ⟨docId, docRead, contentHash, hashRead, made⟩ := made
  obtain rfl := Except.ok.inj made
  set digest : Json := .obj [("plane", .str "H"), ("op", admitted.op), ("ns", admitted.ns), ("doc_id", docId),
    ("chunk_id", applied.chunkId), ("content_hash", contentHash), ("author_node", admitted.author),
    ("authorized_by", governorNode), ("ns_root", .str applied.nsRoot)] with shape
  have plane : subscript digest "plane" = .ok (.str "H") := rfl
  have op : subscript digest "op" = .ok admitted.op := rfl
  have digested : writeDigest record = if oneOf ["add", "supersede"] admitted.op then some digest else none := by
    simp only [writeDigest, kind, carried, plane, op, true_and]
  unfold Witnessed at known ⊢
  rw [List.filterMap_append]
  rcases effect.chunks with ⟨writes, document, hash, chunk, documentRead, hashed, inserted, named, grown⟩ | ⟨redact, id, cleared⟩
  · obtain rfl := Except.ok.inj (docRead.symm.trans documentRead)
    obtain ⟨again, rehashed, content⟩ := vetted.hash writes
    obtain rfl := Except.ok.inj (hashed.symm.trans rehashed)
    obtain rfl := Except.ok.inj ((dotGet_of_subscript hashRead).symm.trans content)
    rw [if_pos writes] at digested
    rw [grown, List.filterMap_cons, digested, List.filterMap_nil]
    refine List.rel_append known (.cons ⟨?_, ?_, ?_, ?_⟩ .nil)
    · rw [← named]
      rfl
    · rw [inserted.hash]
      rfl
    · obtain ⟨value, bound, stored⟩ := inserted.ns
      exact ⟨admitted.ns, value, rfl, bound, stored⟩
    · obtain ⟨value, bound, stored⟩ := inserted.docId
      exact ⟨docId, value, rfl, bound, stored⟩
  · have silent : oneOf ["add", "supersede"] admitted.op = false := by
      rw [redact]
      decide
    rw [silent, if_neg Bool.false_ne_true] at digested
    rw [cleared, List.filterMap_cons, digested, List.filterMap_nil, List.append_nil]
    exact names_cleared id known

/-- How a call ends: before the store is touched, rolled back, or committed. -/
inductive Ended (crypto : Crypto) (sqlite : Sqlite) (chain : Witness W) (plane : PlaneH W) (env : Json)
    (text : Option Str) : Py Applied × PlaneH W → Prop where
  | refused (e : PyErr) : Ended crypto sqlite chain plane env text (.error e, plane)
  | failed {e : PyErr} {db : Connection Tables PyErr} {witness : Option W}
      (committed : db.committed = plane.db.committed) (closed : db.current = db.committed)
      (records : witness.map chain.records = plane.witness.map chain.records) :
      Ended crypto sqlite chain plane env text (.error e, { plane with db, witness })
  | done {admitted : Admitted} {applied : Applied} {db : Connection Tables PyErr} {witness : Option W}
      (body : subscript env "body" = .ok admitted.body) (vetted : Vetted crypto text admitted)
      (made : Yields (operate crypto sqlite admitted env text) plane.db.current applied db.committed)
      (closed : db.current = db.committed)
      (said : attest chain admitted env plane.governorNode applied plane.witness = (.ok (), witness)) :
      Ended crypto sqlite chain plane env text (.ok applied, { plane with db, witness })

theorem apply_ended (plane : PlaneH W) (env : Json) (text : Option Str) (faults : List (Option PyErr)) :
    Ended crypto sqlite chain plane env text (plane.apply crypto sqlite chain env text faults) := by
  unfold PlaneH.apply
  cases passed : admitWrite crypto plane.policy env text with
  | error e => exact .refused e
  | ok admitted =>
    obtain ⟨body, vetted⟩ := admit_ok passed
    simp only
    cases ended : confirmed (operate crypto sqlite admitted env text)
        (attest chain admitted env plane.governorNode) { plane.db with faults } plane.witness with
    | mk answer left =>
      obtain ⟨db, witness⟩ := left
      cases answer with
      | error e =>
        obtain ⟨committed, closed, outside⟩ := confirmed_error (uncommitted_operate admitted env text) ended
        refine .failed committed closed ?_
        rcases outside with same | ⟨applied, refused⟩
        · exact congrArg _ same
        · exact attest_error refused
      | ok applied =>
        obtain ⟨made, closed, _, said⟩ := confirmed_ok ended
        exact .done body vetted made closed said

theorem apply_sound {start : List Json} {plane : PlaneH W} (sound : Sound sqlite chain start plane) (env : Json)
    (text : Option Str) (faults : List (Option PyErr)) :
    Sound sqlite chain start (plane.apply crypto sqlite chain env text faults).2 ∧
      Careful crypto sqlite chain plane env (plane.apply crypto sqlite chain env text faults) := by
  generalize answered : plane.apply crypto sqlite chain env text faults = answer
  have ended : Ended crypto sqlite chain plane env text answer := answered ▸ apply_ended plane env text faults
  obtain ⟨w, records, held, grown, known⟩ := sound.witnessed
  cases ended with
  | refused e => exact ⟨sound, fun _ _ => ⟨rfl, rfl, rfl, rfl⟩, fun _ _ => rfl, fun _ _ _ => rfl⟩
  | @failed e db witness committed closed same =>
    have started : ∃ later, witness = some later ∧ chain.records later = chain.records w := by
      rw [held] at same
      cases witness with
      | none => cases same
      | some later => exact ⟨later, rfl, Option.some.inj same⟩
    obtain ⟨later, laterHeld, kept⟩ := started
    refine ⟨⟨closed, committed.symm ▸ sound.line, later, records, laterHeld, kept.trans grown, ?_⟩, ?_⟩
    · exact committed.symm ▸ known
    · exact {
        failing := fun _ _ => ⟨committed, closed.trans (committed.trans sound.closed.symm), rfl, same⟩
        redaction := fun _ ns => congrArg _ committed
        tombs := fun row _ _ => congrArg (fun tables => Tables.successors tables row.chunkId) committed }
  | @done admitted applied db witness body vetted made closed said =>
    rw [sound.closed] at made
    rw [held] at said
    have effect := effect_operate sound.line vetted made
    obtain ⟨digest, next, record, digested, laterHeld, added, kind, carried⟩ := attest_ok said
    refine ⟨⟨closed, effect.line, next, records ++ [record], laterHeld, ?_, ?_⟩, ?_⟩
    · rw [added, grown, List.append_assoc]
    · exact witnessed_effect vetted effect digested kind carried known
    · exact {
        failing := fun e failed => by cases failed
        redaction := by
          intro redacts ns
          rw [body] at redacts
          have op := Except.ok.inj (vetted.op.symm.trans redacts)
          rcases effect.chunks with ⟨writes, _⟩ | ⟨_, id, cleared⟩
          · rw [op] at writes
            exact absurd writes (by decide)
          · have leaves : namespaceRoot crypto sqlite ns db.committed =
                namespaceRoot crypto sqlite ns (plane.db.committed.cleared id) := by
              simp only [namespaceRoot, selectLeaves, cleared]
            exact leaves.trans (namespaceRoot_cleared _ _ _)
        tombs := effect.tombs }

variable (crypto sqlite chain) in
/-- After every run of grants, revocations and writes, each failing wherever it may:
the chunks of the store are those that the witnessed writes name; every successor
shares its target's namespace and document, is one version higher, and is the only
one; and the next call leaves everything when it fails, every root when it redacts,
and no redacted chunk with a new successor. -/
theorem knowledge_witnessed (witness : W) (governorNode : Json) (moves : List Move) :
    let plane := Run.run (PlaneH.move crypto sqlite chain) (PlaneH.opened witness governorNode) moves
    Sound sqlite chain (chain.records witness) plane ∧
      (∀ target, (plane.db.committed.successors target).length ≤ 1) ∧
      ∀ env text faults, Careful crypto sqlite chain plane env (plane.apply crypto sqlite chain env text faults) := by
  have start : Sound sqlite chain (chain.records witness) (PlaneH.opened witness governorNode) :=
    ⟨rfl, lineage_empty, witness, [], rfl, (List.append_nil _).symm, .nil⟩
  have kept (plane : PlaneH W) (move : Move) (sound : Sound sqlite chain (chain.records witness) plane) (_ : True) :
      Sound sqlite chain (chain.records witness) (PlaneH.move crypto sqlite chain plane move) := by
    cases move with
    | grant ns author granted => exact ⟨sound.closed, sound.line, sound.witnessed⟩
    | revoke ns author revoked => exact ⟨sound.closed, sound.line, sound.witnessed⟩
    | apply env text faults => exact (apply_sound sound env text faults).1
  have sound := @Run.invariant_of_forall _ _ _ _ _ (fun _ => True) kept moves start (fun _ _ => trivial)
  exact ⟨sound, sound.line.successors_le, fun env text faults => (apply_sound sound env text faults).2⟩

end JJDai.Knowledge
