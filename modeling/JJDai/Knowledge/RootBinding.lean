import JJDai.Knowledge.BestEligible

/-! What the root of a namespace says of its chunks: all of them in their order, once it is known
how many there are. -/

namespace JJDai.Knowledge

open PyText Canonical Transaction Transaction.Statements
open HashTree hiding Bytes

structure AddCall where
  ns : Json
  docId : Json
  text : Option Str
  commit : Bool := true

/-- An empty table behind a connection; some of its next statements may fail. -/
def newStore (faults : List (Option PyErr)) : Connection Tables PyErr :=
  { committed := {}, current := {}, faults := faults }

section
variable (crypto : Crypto) (sqlite : Sqlite)

/-- The store after an `add`, one that raises included. -/
def addTo (store : Connection Tables PyErr) (call : AddCall) : Connection Tables PyErr :=
  (add crypto sqlite call.ns call.docId call.text call.commit store).2

def built (faults : List (Option PyErr)) (calls : List AddCall) : Connection Tables PyErr :=
  Run.run (addTo crypto sqlite) (newStore faults) calls

/-- The hashes of a namespace's chunks, in the order of `_leaves`. -/
def chunkHashes (ns : Json) (tables : Tables) : Py (List Str) := do
  let rows ← selectLeaves sqlite ns tables
  return rows.map Prod.snd

/-- The byte strings hashed for the root of a list of chunk hashes. -/
def rootInputs (hashes : List Bytes) : List Bytes :=
  if hashes = [] then [] else inputs crypto.H (fill (hashes.map .leaf))

end

variable {crypto : Crypto} {sqlite : Sqlite}

/-- A table that `add` calls have made: ids grow, and each row has the digest of its text. -/
structure Appended (crypto : Crypto) (tables : Tables) : Prop where
  ordered : (tables.chunks.map Chunk.id).Pairwise (· < ·)
  hashed : ∀ chunk ∈ tables.chunks, sha256Text crypto chunk.text = .ok chunk.hash

theorem addTo_current (store : Connection Tables PyErr) (call : AddCall) :
    (addTo crypto sqlite store call).current = store.current ∨
      ∃ hash id, sha256Text crypto call.text = .ok hash ∧
        insertChunk sqlite call.ns call.docId call.text hash store.current =
          .ok (id, (addTo crypto sqlite store call).current) := by
  unfold addTo add
  cases hashed : sha256Text crypto call.text with
  | error e =>
    have raised : attempt (.error e : Py Str) store = (.error e, store) := rfl
    rw [run_bind_error raised]
    exact .inl rfl
  | ok hash =>
    have hashes : attempt (.ok hash : Py Str) store = (.ok hash, store) := rfl
    rw [run_bind_ok hashes]
    cases ran : execute (insertChunk sqlite call.ns call.docId call.text hash) store with
    | mk answer later =>
      cases answer with
      | error e =>
        left
        rw [run_bind_error ran]
        exact current_execute_error ran
      | ok id =>
        right
        refine ⟨hash, id, rfl, ?_⟩
        rw [run_bind_ok ran, yields_execute ⟨store, later, rfl, rfl, ran⟩]
        cases call.commit <;> rfl

theorem appended_addTo {store : Connection Tables PyErr} (appended : Appended crypto store.current) (call : AddCall) :
    Appended crypto (addTo crypto sqlite store call).current := by
  rcases @addTo_current crypto sqlite store call with same | ⟨hash, id, hashed, inserted⟩
  · rw [same]
    exact appended
  · obtain ⟨_, _, _, _, _, grown⟩ := insertChunk_ok.mp inserted
    rw [grown]
    constructor
    · rw [List.map_append, List.pairwise_append]
      refine ⟨appended.ordered, List.pairwise_singleton _ _, ?_⟩
      intro old member new last
      obtain ⟨chunk, inside, rfl⟩ := List.mem_map.mp member
      rw [List.mem_singleton.mp last]
      exact lt_nextId store.current chunk inside
    · intro chunk member
      rcases List.mem_append.mp member with old | last
      · exact appended.hashed chunk old
      · rw [List.mem_singleton.mp last]
        exact hashed

theorem appended_built (faults : List (Option PyErr)) (calls : List AddCall) :
    Appended crypto (built crypto sqlite faults calls).current :=
  @Run.invariant_of_forall _ _ _ _ (fun store : Connection Tables PyErr => Appended crypto store.current) (fun _ => True)
    (fun _ call appended _ => appended_addTo appended call) calls ⟨List.Pairwise.nil, by simp [newStore]⟩
    (fun _ _ => trivial)

theorem mem_selectLeaves {ns : Json} {tables : Tables} {rows : List (Int × Str)}
    (selected : selectLeaves sqlite ns tables = .ok rows) :
    ∀ row ∈ rows, ∃ chunk ∈ tables.chunks, (chunk.id, chunk.hash) = row := by
  obtain ⟨space, _, made⟩ := Py.bind_ok.mp selected
  obtain rfl := Except.ok.inj made
  intro row member
  rw [(List.mergeSort_perm _ _).mem_iff] at member
  obtain ⟨chunk, inside, same⟩ := List.mem_map.mp member
  exact ⟨chunk, List.mem_of_mem_filter inside, same⟩

theorem selectLeaves_appended {ns : Json} {space : SqlValue} {tables : Tables} (appended : Appended crypto tables)
    (spaced : bindValue ns = .ok space) :
    selectLeaves sqlite ns tables = .ok ((tables.chunks.filter (fun chunk => space.isText sqlite chunk.ns)).map
      (fun chunk => (chunk.id, chunk.hash))) := by
  simp only [selectLeaves, spaced, bind, Except.bind, pure, Except.pure]
  rw [List.mergeSort_of_pairwise]
  rw [List.pairwise_map]
  have ordered := List.Pairwise.filter (fun chunk => space.isText sqlite chunk.ns)
    (List.pairwise_map.mp appended.ordered)
  refine ordered.imp ?_
  intro first second below
  exact decide_eq_true (le_of_lt below)

theorem chunkHashes_appended {ns : Json} {space : SqlValue} {tables : Tables} (appended : Appended crypto tables)
    (spaced : bindValue ns = .ok space) :
    chunkHashes sqlite ns tables =
      .ok ((tables.chunks.filter (fun chunk => space.isText sqlite chunk.ns)).map Chunk.hash) := by
  simp only [chunkHashes, selectLeaves_appended appended spaced, bind, Except.bind, pure, Except.pure, List.map_map]
  rfl

theorem hashBytes_toHex {rows : List (Int × Str)} (hex : ∀ row ∈ rows, ∃ digest : Bytes, row.2 = toHex digest) :
    ∃ digests : List Bytes, hashBytes rows = .ok digests ∧ rows.map Prod.snd = digests.map toHex := by
  induction rows with
  | nil => exact ⟨[], rfl, rfl⟩
  | cons row rest ih =>
    obtain ⟨digest, first⟩ := hex row List.mem_cons_self
    obtain ⟨digests, later, same⟩ := ih (fun other member => hex other (List.mem_cons_of_mem _ member))
    refine ⟨digest :: digests, Py.mapM_ok.mpr (.cons ?_ (Py.mapM_ok.mp later)), by simp [first, same]⟩
    rw [first, bytesFromHex_toHex]

theorem merkleRoot_read {ns : Json} {store : Connection Tables PyErr} {root : Str}
    (appended : Appended crypto store.current) (read : (merkleRoot crypto sqlite ns store).1 = .ok root) :
    ∃ digests : List Bytes, chunkHashes sqlite ns store.current = .ok (digests.map toHex) ∧
      Merkle.merkleRoot crypto digests = .ok root := by
  have ends : Yields (merkleRoot crypto sqlite ns) store.current root (merkleRoot crypto sqlite ns store).2.current :=
    ⟨store, _, rfl, rfl, Prod.ext read rfl⟩
  obtain ⟨hashes, middle, listed, rest⟩ := yields_bind ends
  obtain ⟨rows, selected, hashed⟩ := yields_bind_query listed
  obtain ⟨decoded, _⟩ := yields_attempt hashed
  obtain ⟨rooted, _⟩ := yields_attempt rest
  have hex : ∀ row ∈ rows, ∃ digest : Bytes, row.2 = toHex digest := by
    intro row member
    obtain ⟨chunk, inside, rfl⟩ := mem_selectLeaves selected row member
    exact sha256Text_hex (appended.hashed chunk inside)
  obtain ⟨digests, made, same⟩ := hashBytes_toHex hex
  obtain rfl := Except.ok.inj (made.symm.trans decoded)
  refine ⟨digests, ?_, rooted⟩
  simp only [chunkHashes, selected, bind, ok_bind, pure, Except.pure, same]

theorem reads_merkleRoot {ns : Json} {tables : Tables} {digests : List Bytes}
    (listed : chunkHashes sqlite ns tables = .ok (digests.map toHex)) :
    Reads (merkleRoot crypto sqlite ns) tables (Merkle.merkleRoot crypto digests) := by
  obtain ⟨rows, selected, same⟩ := Py.bind_ok.mp listed
  have held : rows.map Prod.snd = digests.map toHex := Except.ok.inj same
  have hex : ∀ row ∈ rows, ∃ digest : Bytes, row.2 = toHex digest := by
    intro row member
    obtain ⟨digest, _, same⟩ := List.mem_map.mp (held ▸ List.mem_map_of_mem (f := Prod.snd) member)
    exact ⟨digest, same.symm⟩
  obtain ⟨decoded, made, texts⟩ := hashBytes_toHex hex
  obtain rfl := List.map_injective_iff.mpr toHex_injective (texts.symm.trans held)
  exact Reads.bind (Reads.bind (reads_query selected) (reads_attempt made)) (reads_attempt rfl)

theorem root_binds {first second : List Bytes} {root : Str} (rooted : Merkle.merkleRoot crypto first = .ok root)
    (other : Merkle.merkleRoot crypto second = .ok root)
    (apart : Set.InjOn crypto.H {b | b ∈ rootInputs crypto first ++ rootInputs crypto second}) :
    first = second ∨ first.length ≠ second.length ∧
      (writtenOut first = writtenOut second ∨ (first = [] ∨ second = []) ∧
        ∃ b ∈ rootInputs crypto first ++ rootInputs crypto second, crypto.H b = List.replicate 32 0) := by
  have zeros : (List.replicate 64 (ch '0') : Str) = toHex (List.replicate 32 0) := by decide
  have zero {leaves : List Bytes} (some_there : leaves ≠ [])
      (rooted : Merkle.merkleRoot crypto leaves = .ok (List.replicate 64 (ch '0'))) :
      ∃ b ∈ rootInputs crypto leaves, crypto.H b = List.replicate 32 0 := by
    rw [Merkle.merkleRoot_eq some_there, zeros] at rooted
    refine ⟨lastInput crypto.H (fill (leaves.map .leaf)), ?_, ?_⟩
    · rw [rootInputs, if_neg some_there]
      exact lastInput_mem _
    · exact (digest_eq _).symm.trans (toHex_injective (Except.ok.inj rooted))
  have empty : Merkle.merkleRoot crypto [] = .ok (List.replicate 64 (ch '0')) := rfl
  by_cases none_first : first = []
  · subst none_first
    obtain rfl := Except.ok.inj (empty.symm.trans rooted)
    by_cases none_second : second = []
    · exact .inl none_second.symm
    · obtain ⟨b, member, hashed⟩ := zero none_second other
      exact .inr ⟨fun same => none_second (List.length_eq_zero_iff.mp same.symm),
        .inr ⟨.inl rfl, b, List.mem_append_right _ member, hashed⟩⟩
  · by_cases none_second : second = []
    · subst none_second
      obtain rfl := Except.ok.inj (empty.symm.trans other)
      obtain ⟨b, member, hashed⟩ := zero none_first rooted
      exact .inr ⟨fun same => none_first (List.length_eq_zero_iff.mp same),
        .inr ⟨.inr rfl, b, List.mem_append_left _ member, hashed⟩⟩
    · rw [Merkle.merkleRoot_eq none_first] at rooted
      rw [Merkle.merkleRoot_eq none_second, ← Except.ok.inj rooted] at other
      have own {leaves : List Bytes} (some_there : leaves ≠ []) :
          rootInputs crypto leaves = inputs crypto.H (fill (leaves.map .leaf)) := if_neg some_there
      rw [own none_first, own none_second] at apart
      have same : fill (second.map .leaf) = fill (first.map .leaf) :=
        digest_injective apart crypto.length_H (fun b member => List.mem_append_right _ member)
          (fun b member => List.mem_append_left _ member) (toHex_injective (Except.ok.inj other))
      have out : writtenOut first = writtenOut second := congrArg Tree.leaves same.symm
      by_cases count : first.length = second.length
      · exact .inl (writtenOut_injective out count)
      · exact .inr ⟨count, .inl out⟩

/-- Namespaces with one root hold the same chunk hashes in the same order, or different numbers of
them: then the doubled nodes make one list of both, or one is empty and a hash is all zeros. -/
theorem root_binds_chunks {faults faults' : List (Option PyErr)} {calls calls' : List AddCall} {ns ns' : Json}
    {root : Str} (first : (merkleRoot crypto sqlite ns (built crypto sqlite faults calls)).1 = .ok root)
    (second : (merkleRoot crypto sqlite ns' (built crypto sqlite faults' calls')).1 = .ok root) :
    ∃ hashes hashes' : List Bytes,
      chunkHashes sqlite ns (built crypto sqlite faults calls).current = .ok (hashes.map toHex) ∧
      chunkHashes sqlite ns' (built crypto sqlite faults' calls').current = .ok (hashes'.map toHex) ∧
      (hashes = hashes' ∨
        hashes.length ≠ hashes'.length ∧
          (writtenOut hashes = writtenOut hashes' ∨ (hashes = [] ∨ hashes' = []) ∧
            ∃ b ∈ rootInputs crypto hashes ++ rootInputs crypto hashes', crypto.H b = List.replicate 32 0) ∨
        ∃ a ∈ rootInputs crypto hashes ++ rootInputs crypto hashes',
          ∃ b ∈ rootInputs crypto hashes ++ rootInputs crypto hashes', a ≠ b ∧ crypto.H a = crypto.H b) := by
  obtain ⟨hashes, listed, rooted⟩ := merkleRoot_read (appended_built faults calls) first
  obtain ⟨hashes', listed', rooted'⟩ := merkleRoot_read (appended_built faults' calls') second
  refine ⟨hashes, hashes', listed, listed', ?_⟩
  by_cases apart : Set.InjOn crypto.H {b | b ∈ rootInputs crypto hashes ++ rootInputs crypto hashes'}
  · rcases root_binds rooted rooted' apart with same | different
    · exact .inl same
    · exact .inr (.inl different)
  · right
    right
    simp only [Set.InjOn, Set.mem_ofPred_eq, not_forall] at apart
    obtain ⟨a, ha, b, hb, same, different⟩ := apart
    exact ⟨a, ha, b, hb, different, same⟩

/-- One `add` for each text, to one namespace. -/
def lettersBuilt (texts : List String) : Connection Tables PyErr :=
  built Crypto.sample Sqlite.sample [] (texts.map (fun text => ⟨.str "lab", .str "notes", some text, true⟩))

def lettersHashes (texts : List String) : List Bytes := texts.map (fun text => Crypto.sample.H (ascii text))

theorem chunkHashes_letters {texts : List String}
    (held : ((lettersBuilt texts).current.chunks.filter
      (fun chunk => (SqlValue.text "lab").isText Sqlite.sample chunk.ns)).map Chunk.hash = (lettersHashes texts).map toHex) :
    chunkHashes Sqlite.sample (.str "lab") (lettersBuilt texts).current = .ok ((lettersHashes texts).map toHex) := by
  have spaced : bindValue (.str "lab") = .ok (.text "lab") := by decide +kernel
  rw [← held]
  exact chunkHashes_appended (appended_built _ _) spaced

theorem merkleRoot_letters {texts : List String} (quiet : (lettersBuilt texts).faults = [])
    (listed : chunkHashes Sqlite.sample (.str "lab") (lettersBuilt texts).current = .ok ((lettersHashes texts).map toHex)) :
    (merkleRoot Crypto.sample Sqlite.sample (.str "lab") (lettersBuilt texts)).1 =
      Merkle.merkleRoot Crypto.sample (lettersHashes texts) := by
  rw [reads_merkleRoot listed _ rfl quiet]

/-- The doubled tree over the three letters. -/
def lettersTree : Tree :=
  .node (.node (.leaf (Crypto.sample.H (ascii "a"))) (.leaf (Crypto.sample.H (ascii "b"))))
    (.node (.leaf (Crypto.sample.H (ascii "c"))) (.leaf (Crypto.sample.H (ascii "c"))))

theorem rootInputs_three :
    rootInputs Crypto.sample (lettersHashes ["a", "b", "c"]) = inputs Crypto.sample.H lettersTree := by
  simp [rootInputs, lettersHashes, lettersTree, fill, pairDoubled]

theorem rootInputs_four :
    rootInputs Crypto.sample (lettersHashes ["a", "b", "c", "c"]) = inputs Crypto.sample.H lettersTree := by
  simp [rootInputs, lettersHashes, lettersTree, fill, pairDoubled]

theorem lettersTree_apart : ∀ a ∈ inputs Crypto.sample.H lettersTree, ∀ b ∈ inputs Crypto.sample.H lettersTree,
    Crypto.sample.H a = Crypto.sample.H b → a = b := by
  decide +kernel

def lettersRoot : Str := match Merkle.merkleRoot Crypto.sample (lettersHashes ["a", "b", "c"]) with
  | .ok root => root
  | .error _ => []

/-- Nothing fails in either store, and both have one root. -/
private theorem letters_told : ∀ texts ∈ [["a", "b", "c"], ["a", "b", "c", "c"]],
    (lettersBuilt texts).faults = [] ∧
      ((lettersBuilt texts).current.chunks.filter
        (fun chunk => (SqlValue.text "lab").isText Sqlite.sample chunk.ns)).map Chunk.hash =
          (lettersHashes texts).map toHex ∧
      Merkle.merkleRoot Crypto.sample (lettersHashes texts) = .ok lettersRoot := by
  decide +kernel

theorem chunkHashes_three :
    chunkHashes Sqlite.sample (.str "lab") (lettersBuilt ["a", "b", "c"]).current =
      .ok ((lettersHashes ["a", "b", "c"]).map toHex) :=
  chunkHashes_letters (letters_told _ List.mem_cons_self).2.1

theorem chunkHashes_four :
    chunkHashes Sqlite.sample (.str "lab") (lettersBuilt ["a", "b", "c", "c"]).current =
      .ok ((lettersHashes ["a", "b", "c", "c"]).map toHex) :=
  chunkHashes_letters (letters_told _ (List.mem_cons_of_mem _ List.mem_cons_self)).2.1

theorem merkleRoot_three :
    (merkleRoot Crypto.sample Sqlite.sample (.str "lab") (lettersBuilt ["a", "b", "c"])).1 = .ok lettersRoot := by
  obtain ⟨quiet, _, root⟩ := letters_told _ List.mem_cons_self
  rw [merkleRoot_letters quiet chunkHashes_three]
  exact root

theorem merkleRoot_four :
    (merkleRoot Crypto.sample Sqlite.sample (.str "lab") (lettersBuilt ["a", "b", "c", "c"])).1 = .ok lettersRoot := by
  obtain ⟨quiet, _, root⟩ := letters_told _ (List.mem_cons_of_mem _ List.mem_cons_self)
  rw [merkleRoot_letters quiet chunkHashes_four]
  exact root

/-- The last of three chunks added once more leaves the root as it was. -/
theorem root_binds_chunks_letters :
    ∃ hashes hashes' : List Bytes,
      chunkHashes Sqlite.sample (.str "lab") (lettersBuilt ["a", "b", "c"]).current = .ok (hashes.map toHex) ∧
      chunkHashes Sqlite.sample (.str "lab") (lettersBuilt ["a", "b", "c", "c"]).current = .ok (hashes'.map toHex) ∧
      (hashes = hashes' ∨
        hashes.length ≠ hashes'.length ∧
          (writtenOut hashes = writtenOut hashes' ∨ (hashes = [] ∨ hashes' = []) ∧
            ∃ b ∈ rootInputs Crypto.sample hashes ++ rootInputs Crypto.sample hashes',
              Crypto.sample.H b = List.replicate 32 0) ∨
        ∃ a ∈ rootInputs Crypto.sample hashes ++ rootInputs Crypto.sample hashes',
          ∃ b ∈ rootInputs Crypto.sample hashes ++ rootInputs Crypto.sample hashes',
            a ≠ b ∧ Crypto.sample.H a = Crypto.sample.H b) :=
  root_binds_chunks merkleRoot_three merkleRoot_four

/-- One root does not mean one list of chunk hashes. -/
theorem root_binds_two_lists : ¬∀ (calls calls' : List AddCall) (ns ns' : Json) (root : Str) (hashes hashes' : List Bytes),
    (merkleRoot Crypto.sample Sqlite.sample ns (built Crypto.sample Sqlite.sample [] calls)).1 = .ok root →
    (merkleRoot Crypto.sample Sqlite.sample ns' (built Crypto.sample Sqlite.sample [] calls')).1 = .ok root →
    chunkHashes Sqlite.sample ns (built Crypto.sample Sqlite.sample [] calls).current = .ok (hashes.map toHex) →
    chunkHashes Sqlite.sample ns' (built Crypto.sample Sqlite.sample [] calls').current = .ok (hashes'.map toHex) →
    Set.InjOn Crypto.sample.H {b | b ∈ rootInputs Crypto.sample hashes ++ rootInputs Crypto.sample hashes'} →
    hashes = hashes' := by
  intro binds
  have apart : Set.InjOn Crypto.sample.H {b | b ∈ rootInputs Crypto.sample (lettersHashes ["a", "b", "c"]) ++
      rootInputs Crypto.sample (lettersHashes ["a", "b", "c", "c"])} := by
    rw [rootInputs_three, rootInputs_four]
    intro a first b second same
    exact lettersTree_apart a (by simpa using first) b (by simpa using second) same
  have same := congrArg List.length (binds _ _ _ _ _ _ _ merkleRoot_three merkleRoot_four chunkHashes_three chunkHashes_four apart)
  exact absurd same (by decide)

end JJDai.Knowledge
