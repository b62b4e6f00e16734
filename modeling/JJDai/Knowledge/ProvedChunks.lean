import JJDai.Knowledge.Lifecycle
import JJDai.Knowledge.ChunkTree

/-! Reading the governed store: `RagStore.retrieve` ranks by shared words, and
`GovernedPlaneH.retrieve` sifts what it prefetched by the cards. -/

namespace JJDai.Knowledge

open PyText Canonical Transaction Transaction.Statements

/-- Python's tables of characters and its reading of numerals: `str.lower`, the
members of `\w`, and the float that a text spells. -/
structure Locale where
  lower : Str → Str
  word : CodePoint → Bool
  spelled : Str → Option PyFloat

variable (locale : Locale) (crypto : Crypto) (sqlite : Sqlite)

def Locale.inWord (c : CodePoint) : Bool := locale.word c || (0x400 ≤ c.val && c.val ≤ 0x4FF)

/-- `_tok`: the runs of three and more, each once. -/
def tok (s : Str) : List Str :=
  (((locale.lower s).splitOnP (fun c => !locale.inWord c)).filter (fun run => 3 ≤ run.length)).dedup

def overlap (query : Str) (chunk : Chunk) : Nat :=
  match chunk.text with
  | none => 0
  | some text => ((tok locale query).filter (fun run => run ∈ tok locale text)).length

structure Scored where
  score : Nat
  chunk : Chunk
  deriving DecidableEq

def Scored.Before (a b : Scored) : Prop := b.score < a.score ∨ a.score = b.score ∧ a.chunk.id ≤ b.chunk.id

instance (a b : Scored) : Decidable (a.Before b) := by
  unfold Scored.Before
  infer_instance

/-- `SELECT … FROM chunks WHERE ns=? AND text IS NOT NULL`. -/
def selectTexts (ns : Str) (tables : Tables) : Py (List Chunk) := do
  let ns ← bindValue (.str ns)
  return tables.chunks.filter (fun chunk => ns.isText sqlite chunk.ns && chunk.text.isSome)

def scored (query : Str) (rows : List Chunk) : List Scored :=
  (rows.map (fun chunk => { score := overlap locale query chunk, chunk })).filter (fun entry => entry.score ≠ 0)

/-- What is said of a chunk: its columns and its score, and the proof that it is there. -/
structure Hit where
  entry : Scored
  proof : Option InclusionProof

/-- The comprehension over the best of `scored`. -/
def hits (ns : Str) : List Scored → Db (List Hit)
  | [] => return []
  | entry :: rest => do
    let proof ← prove crypto sqlite (.str ns) (.int entry.chunk.id)
    let later ← hits ns rest
    return { entry, proof } :: later

def retrieve (ns query : Str) (k : Nat) : Db (List Hit) := do
  let rows ← Statements.query (selectTexts sqlite ns)
  hits crypto sqlite ns (((scored locale query rows).insertionSort Scored.Before).take k)

structure Card where
  chunkId : Json
  ns : SqlValue
  docId : SqlValue
  hash : Str
  redacted : Bool
  version : Int
  supersedes : SqlValue
  supersededBy : Option Int
  authorNode : SqlValue
  source : Json
  jurisdiction : Json
  confidence : Json
  evidenceRefs : Json
  accessPolicy : Json
  retention : Json
  createdAt : SqlValue
  envelope : Json

/-- The card of a row; `json.loads` gives back the body that was signed in canonical form. -/
def cardOf (chunkId : Json) (row : Chunk) (held : Meta) : Py Card := do
  let body ← subscript held.envelope "body"
  let source ← subscript body "source"
  let jurisdiction ← subscript body "jurisdiction"
  let confidence ← subscript body "confidence"
  let evidenceRefs ← subscript body "evidence_refs"
  let accessPolicy ← subscript body "access_policy"
  let retention ← subscript body "retention"
  return {
    chunkId, ns := row.ns, docId := row.docId, hash := row.hash, redacted := held.redacted, version := held.version,
    supersedes := held.supersedes, supersededBy := held.supersededBy, authorNode := held.authorNode, source,
    jurisdiction, confidence, evidenceRefs, accessPolicy, retention, createdAt := held.createdAt,
    envelope := held.envelope }

def describe (chunkId : Json) : Db (Option Card) := do
  let row ← get sqlite chunkId
  let held ← Statements.query (selectMeta sqlite chunkId)
  match row, held with
  | some row, some held =>
    let card ← attempt (cardOf chunkId row held)
    return some card
  | _, _ => return none

def accessRank (level : Json) : Py Nat :=
  match level with
  | .str name => if name ∈ accessLevels then return accessLevels.idxOf name else raise .keyError name
  | other => if hashable other then raise .keyError else raise .typeError

def toFloat : Json → Py PyFloat
  | .bool b => return .finite (.ofDigits false (if b then 1 else 0) 0)
  | .int n =>
    match PyFloat.ofInt n with
    | some x => return x
    | none => raise .overflowError
  | .float x => return x
  | .str s =>
    match locale.spelled s with
    | some x => return x
    | none => raise .valueError
  | _ => raise .typeError

/-- The retention names a time, and it is over. -/
def expired (retention : Json) (now : PyFloat) : Py Bool := do
  let policy ← dotGet retention "policy"
  if policy ≠ .str "until" then return false
  else
    let limit ← dotGet retention "until"
    if limit = .null then return false
    else return (← toFloat locale limit).less now

structure Retrieved where
  hit : Hit
  version : Int
  authorNode : SqlValue
  source : Json
  confidence : Json
  evidenceRefs : Json
  accessPolicy : Json

/-- The body of the loop over what was prefetched. -/
def sift (access : Str) (now : PyFloat) (r : Hit) : Option Card → Py (Option Retrieved)
  | none => return none
  | some card => do
    if card.redacted || card.supersededBy.any (· ≠ 0) then return none
    else
      let level ← accessRank card.accessPolicy
      let allowed ← accessRank (.str access)
      if allowed < level then return none
      else if ← expired locale card.retention now then return none
      else
        return some {
          hit := r, version := card.version, authorNode := card.authorNode, source := card.source,
          confidence := card.confidence, evidenceRefs := card.evidenceRefs, accessPolicy := card.accessPolicy }

/-- The loop, with the number of chunks still wanted. -/
def gather (access : Str) (now : PyFloat) : Nat → List Hit → Db (List Retrieved)
  | _, [] => return []
  | wanted, r :: rest => do
    let card ← describe sqlite (.int r.entry.chunk.id)
    match ← attempt (sift locale access now r card) with
    | none => gather access now wanted rest
    | some found =>
      if wanted ≤ 1 then return [found]
      else
        let later ← gather access now (wanted - 1) rest
        return found :: later

def governedRetrieve (ns query : Str) (k : Nat) (access : Str) (now : PyFloat) : Db (List Retrieved) := do
  if access ∉ accessLevels then refuse .planeHError ("unknown access level " ++ pyRepr access)
  else
    attempt (checkNamespaceFree (.str ns) "retrieve")
    let raw ← retrieve locale crypto sqlite ns query (if k = 0 then 12 else k * 4)
    gather locale sqlite access now k raw

end JJDai.Knowledge

/-! `RagStore.prove` over a table of any content: the proof it gives for a chunk of a namespace is
one that `verify_proof` accepts, under the root of the namespace. -/

namespace JJDai.Knowledge

open PyText Canonical Transaction Transaction.Statements

def verifyProof (crypto : Crypto) (proof : InclusionProof) : Py Bool :=
  if proof.scheme ≠ "jjdai-merkle" then return false
  else do
    let leaf ← bytesFromHex (.str proof.leaf)
    Merkle.merkleVerify crypto leaf (Merkle.pathJson proof.path) (.str proof.root)

/-- The chunks of a namespace have hashes in hex. -/
def HexHashes (tables : Tables) (ns : Str) : Prop :=
  ∀ chunk ∈ tables.chunks, chunk.ns = .text ns → ∃ digest, bytesFromHex (.str chunk.hash) = .ok digest

variable {crypto : Crypto} {sqlite : Sqlite} {tables : Tables} {ns : Str}

theorem isText_text {ns : Str} {column : SqlValue} : (SqlValue.text ns).isText sqlite column = decide (column = .text ns) := by
  unfold SqlValue.isText SqlValue.asText
  cases column with
  | text s => simp [eq_comm]
  | _ => simp

theorem bindValue_text {bytes : Bytes} (encoded : encode ns = .ok bytes) : bindValue (.str ns) = .ok (.text ns) := by
  simp only [bindValue, encoded, bind, Except.bind, pure, Except.pure]

theorem bindValue_str_ok {space : SqlValue} (bound : bindValue (.str ns) = .ok space) :
    space = .text ns ∧ ∃ bytes, encode ns = .ok bytes := by
  obtain ⟨bytes, encoded, same⟩ := Py.bind_ok.mp bound
  exact ⟨(Except.ok.inj same).symm, bytes, encoded⟩

theorem mem_rows {rows : List (Int × Str)} (selected : selectLeaves sqlite (.str ns) tables = .ok rows) (row : Int × Str) :
    row ∈ rows ↔ ∃ chunk ∈ tables.chunks, chunk.ns = .text ns ∧ (chunk.id, chunk.hash) = row := by
  obtain ⟨space, bound, made⟩ := Py.bind_ok.mp selected
  obtain ⟨rfl, _⟩ := bindValue_str_ok bound
  rw [← Except.ok.inj made, (List.mergeSort_perm _ _).mem_iff, List.mem_map]
  simp only [List.mem_filter, isText_text, decide_eq_true_eq, and_assoc]

/-- The proof stands for one of the leaves of the namespace: its place, its path and the root. -/
structure Placed (crypto : Crypto) (sqlite : Sqlite) (tables : Tables) (ns : Str) (id : Int) (proof : InclusionProof) where
  rows : List (Int × Str)
  digests : List Bytes
  place : Nat
  selected : selectLeaves sqlite (.str ns) tables = .ok rows
  hashed : hashBytes rows = .ok digests
  row : rows[place]? = some (id, proof.leaf)
  path : Merkle.merkleProof crypto digests place = .ok proof.path
  root : Merkle.merkleRoot crypto digests = .ok proof.root
  scheme : proof.scheme = "jjdai-merkle"

theorem yields_prove {id : Int} {answer : Option InclusionProof} {after : Tables}
    (ends : Yields (prove crypto sqlite (.str ns) (.int id)) tables answer after) :
    (∃ proof, answer = some proof ∧ Nonempty (Placed crypto sqlite tables ns id proof)) ∨
      answer = none ∧ ∀ chunk ∈ tables.chunks, chunk.ns = .text ns → chunk.id ≠ id := by
  obtain ⟨rows, selected, ends⟩ := yields_bind_query ends
  cases found : rows.findIdx? (fun row => Json.pyEq (.int row.1) (.int id)) with
  | none =>
    simp only [found] at ends
    refine .inr ⟨(yields_pure ends).1, ?_⟩
    rintro chunk inside same rfl
    have absent := List.findIdx?_eq_none_iff.mp found _ ((mem_rows selected _).mpr ⟨chunk, inside, same, rfl⟩)
    simp [Json.pyEq] at absent
  | some i =>
    simp only [found] at ends
    obtain ⟨digests, listed, ends⟩ := yields_bind_readOnly (readOnly_leafBytes _) ends
    obtain ⟨again, selectedAgain, hashing⟩ := yields_bind_query listed
    obtain rfl := Except.ok.inj (selected.symm.trans selectedAgain)
    obtain ⟨hashed, _⟩ := yields_attempt hashing
    obtain ⟨row, read, ends⟩ := yields_bind_attempt ends
    obtain ⟨path, proved, ends⟩ := yields_bind_attempt ends
    obtain ⟨root, rooted, ends⟩ := yields_bind_attempt ends
    obtain ⟨small, matching, _⟩ := List.findIdx?_eq_some_iff_getElem.mp found
    have held : rows[i]? = some row := (atIndex_nonneg (by omega)).mp read
    have own : row.1 = id := by
      rw [List.getElem?_eq_getElem small] at held
      simpa [Json.pyEq, Json.comparisonKey, Option.some.inj held] using matching
    refine .inl ⟨_, (yields_pure ends).1, ⟨⟨rows, digests, i, selected, hashed, ?_, proved, rooted, rfl⟩⟩⟩
    rw [held, ← own]

theorem Placed.chunk {id : Int} {proof : InclusionProof} (placed : Placed crypto sqlite tables ns id proof) :
    ∃ chunk ∈ tables.chunks, chunk.ns = .text ns ∧ chunk.id = id ∧ chunk.hash = proof.leaf := by
  obtain ⟨chunk, inside, same, row⟩ := (mem_rows placed.selected _).mp (List.mem_of_getElem? placed.row)
  obtain ⟨rfl, leaf⟩ := Prod.mk.inj row
  exact ⟨chunk, inside, same, rfl, leaf⟩

theorem Placed.verified {id : Int} {proof : InclusionProof} (placed : Placed crypto sqlite tables ns id proof) :
    verifyProof crypto proof = .ok true := by
  have decoded := Py.mapM_ok.mp placed.hashed
  obtain ⟨small, held⟩ := List.getElem?_eq_some_iff.mp placed.row
  have inside : placed.place < placed.digests.length := decoded.length_eq ▸ small
  have leaf := decoded.get small inside
  simp only [List.get_eq_getElem, held] at leaf
  rw [verifyProof, if_neg (not_not.mpr placed.scheme), leaf]
  exact Merkle.merkleVerify_complete inside placed.path placed.root

theorem Placed.reads_root {id : Int} {proof : InclusionProof} (placed : Placed crypto sqlite tables ns id proof) :
    Reads (merkleRoot crypto sqlite (.str ns)) tables (.ok proof.root) :=
  Reads.bind (Reads.bind (reads_query placed.selected) (reads_attempt placed.hashed)) (reads_attempt placed.root)

theorem Placed.hexHashes {id : Int} {proof : InclusionProof} (placed : Placed crypto sqlite tables ns id proof) :
    HexHashes tables ns := by
  intro chunk inside own
  have member := (mem_rows placed.selected _).mpr ⟨chunk, inside, own, rfl⟩
  obtain ⟨digest, _, decoded⟩ := (rows_of_mapM placed.hashed).1 _ member
  exact ⟨digest, decoded⟩

theorem Placed.encoded {id : Int} {proof : InclusionProof} (placed : Placed crypto sqlite tables ns id proof) :
    ∃ bytes, encode ns = .ok bytes := by
  obtain ⟨space, bound, _⟩ := Py.bind_ok.mp placed.selected
  exact (bindValue_str_ok bound).2

theorem Placed.same_root {id other : Int} {proof proof' : InclusionProof} (placed : Placed crypto sqlite tables ns id proof)
    (placed' : Placed crypto sqlite tables ns other proof') : proof.root = proof'.root := by
  have rows := Except.ok.inj (placed.selected.symm.trans placed'.selected)
  have digests := Except.ok.inj (placed.hashed.symm.trans (rows ▸ placed'.hashed))
  exact Except.ok.inj (placed.root.symm.trans (digests ▸ placed'.root))

theorem reads_prove (hex : HexHashes tables ns) {bytes : Bytes} (encoded : encode ns = .ok bytes) {chunk : Chunk}
    (inside : chunk ∈ tables.chunks) (same : chunk.ns = .text ns) :
    ∃ proof, Reads (prove crypto sqlite (.str ns) (.int chunk.id)) tables (.ok (some proof)) := by
  have selected : selectLeaves sqlite (.str ns) tables = .ok _ := Py.bind_ok.mpr ⟨_, bindValue_text encoded, rfl⟩
  have among := @mem_rows sqlite tables ns _ selected
  generalize ((tables.chunks.filter (fun chunk => (SqlValue.text ns).isText sqlite chunk.ns)).map
    (fun chunk => (chunk.id, chunk.hash))).mergeSort (fun a b => a.1 ≤ b.1) = rows at selected among
  have each : ∀ row ∈ rows, ∃ digest, bytesFromHex (.str row.2) = .ok digest := by
    intro row member
    obtain ⟨other, there, own, rfl⟩ := (among row).mp member
    exact hex other there own
  obtain ⟨digests, made⟩ := mapM_of_forall each
  have long : digests.length = rows.length := (Py.mapM_ok.mp made).length_eq.symm
  have hashed : Reads (leafBytes sqlite (.str ns)) tables (.ok digests) :=
    Reads.bind (reads_query selected) (reads_attempt made)
  cases found : rows.findIdx? (fun row => Json.pyEq (.int row.1) (.int chunk.id)) with
  | none =>
    have absent := List.findIdx?_eq_none_iff.mp found _ ((among _).mpr ⟨chunk, inside, same, rfl⟩)
    simp [Json.pyEq] at absent
  | some i =>
    have small : i < rows.length := (List.findIdx?_eq_some_iff_getElem.mp found).1
    obtain ⟨path, proved⟩ := @Merkle.merkleProof_ok crypto digests i (by omega)
    obtain ⟨root, rooted⟩ := @Merkle.merkleRoot_ok crypto digests
    have row : atIndex rows i = .ok rows[i] := (atIndex_nonneg (by omega)).mpr (List.getElem?_eq_getElem small)
    unfold prove
    refine ⟨{ chunkId := .int chunk.id, leaf := rows[i].2, path, root }, Reads.bind (reads_query selected) ?_⟩
    simp only [found]
    apply Reads.bind hashed
    apply Reads.bind (reads_attempt row)
    apply Reads.bind (reads_attempt proved)
    apply Reads.bind (reads_attempt rooted)
    exact reads_attempt rfl

theorem reads_hits (hex : HexHashes tables ns) {bytes : Bytes} (encoded : encode ns = .ok bytes)
    {entries : List Scored} (there : ∀ entry ∈ entries, entry.chunk ∈ tables.chunks ∧ entry.chunk.ns = .text ns) :
    ∃ found, Reads (hits crypto sqlite ns entries) tables (.ok found) ∧ found.map Hit.entry = entries := by
  induction entries with
  | nil => exact ⟨[], reads_attempt rfl, rfl⟩
  | cons entry rest ih =>
    obtain ⟨inside, same⟩ := there entry List.mem_cons_self
    obtain ⟨proof, proved⟩ := @reads_prove crypto sqlite tables ns hex bytes encoded entry.chunk inside same
    obtain ⟨later, more, mapped⟩ := ih (fun other member => there other (List.mem_cons_of_mem _ member))
    refine ⟨_, Reads.bind proved (Reads.bind more (reads_attempt rfl)), ?_⟩
    rw [List.map_cons, mapped]

theorem placed_of_reads {id : Int} {proof : InclusionProof}
    (proved : Reads (prove crypto sqlite (.str ns) (.int id)) tables (.ok (some proof))) :
    Nonempty (Placed crypto sqlite tables ns id proof) := by
  rcases yields_prove proved.yields with ⟨other, same, placed⟩ | ⟨none_there, _⟩
  · rw [Option.some.inj same]
    exact placed
  · cases none_there

theorem yields_hits {entries : List Scored} {found : List Hit} {after : Tables}
    (ends : Yields (hits crypto sqlite ns entries) tables found after) :
    found.map Hit.entry = entries ∧ ∀ hit ∈ found,
      Yields (prove crypto sqlite (.str ns) (.int hit.entry.chunk.id)) tables hit.proof tables := by
  induction entries generalizing found after with
  | nil =>
    obtain ⟨rfl, _⟩ := yields_pure ends
    exact ⟨rfl, fun hit member => absurd member List.not_mem_nil⟩
  | cons entry rest ih =>
    obtain ⟨proof, proved, ends⟩ := yields_bind_readOnly (readOnly_prove _ _) ends
    obtain ⟨later, middle, more, ends⟩ := yields_bind ends
    obtain ⟨rfl, _⟩ := yields_pure ends
    obtain ⟨mapped, others⟩ := ih more
    exact ⟨congrArg (entry :: ·) mapped, List.forall_mem_cons.mpr ⟨proved, others⟩⟩

end JJDai.Knowledge
