import JJDai.Knowledge.RootBinding

/-! `Smriti.recall`: what a citation that is called verified says of its text. -/

namespace JJDai.Knowledge

open PyText Canonical Transaction Transaction.Statements

structure Citation where
  chunkId : Int
  text : Option Str
  score : Nat
  verified : Bool
  root : Option Str
  deriving DecidableEq

structure Recollection where
  ns : Str
  query : Str
  answer : Str
  citations : List Citation
  grounded : Bool
  allVerified : Bool
  deriving DecidableEq

def upToIndex (xs : List α) (k : Int) : List α := if 0 ≤ k then xs.take k.toNat else xs.take (xs.length - k.natAbs)

section
variable (locale : Locale) (crypto : Crypto) (sqlite : Sqlite)

/-- `RagStore.retrieve` for any integer `k`. -/
def retrieveUpTo (ns query : Str) (k : Int) : Db (List Hit) := do
  let rows ← Statements.query (selectTexts sqlite ns)
  hits crypto sqlite ns (upToIndex ((scored locale query rows).insertionSort Scored.Before) k)

/-- `bool(proof) and RagStore.verify_proof(proof)`. -/
def isVerified : Option InclusionProof → Py Bool
  | none => return false
  | some proof => verifyProof crypto proof

def cite (hit : Hit) : Py Citation := do
  let verified ← isVerified crypto hit.proof
  return {
    chunkId := hit.entry.chunk.id, text := hit.entry.chunk.text, score := hit.entry.score, verified,
    root := hit.proof.map InclusionProof.root }

abbrev MemoryEngine := Str → List Citation → Py Str

def mockMemoryEngine : MemoryEngine := fun query chunks =>
  if chunks = [] then return "[smriti] no grounded memory for this query"
  else
    let cited := (Str.ofString "; ").intercalate (chunks.map (fun c => Str.ofString "#" ++ intText c.chunkId))
    return Str.ofString "[smriti] recalled " ++ intText chunks.length ++ Str.ofString " verified chunk(s) for " ++
      pyRepr query ++ Str.ofString " (cited " ++ cited ++ Str.ofString ")"

def Smriti.recall (engine : MemoryEngine) (ns query : Str) (k : Int) : Db Recollection := do
  let found ← retrieveUpTo locale crypto sqlite ns query k
  let citations ← attempt (found.mapM (cite crypto))
  let verifiedHits := citations.filter Citation.verified
  let answer ← attempt (engine query verifiedHits)
  return {
    ns, query, answer, citations, grounded := 0 < verifiedHits.length,
    allVerified := citations.all Citation.verified }

end

variable {locale : Locale} {crypto : Crypto} {sqlite : Sqlite} {tables : Tables} {ns : Str}

theorem mem_upToIndex {xs : List α} {k : Int} {x : α} (member : x ∈ upToIndex xs k) : x ∈ xs := by
  unfold upToIndex at member
  split at member <;> exact List.mem_of_mem_take member

/-- A row that some query finds in the namespace. -/
structure Findable (locale : Locale) (tables : Tables) (ns : Str) (chunk : Chunk) (text : Str) : Prop where
  inside : chunk ∈ tables.chunks
  own : chunk.ns = .text ns
  held : chunk.text = some text
  words : tok locale text ≠ []

theorem findable_of_candidate {query : Str} {entry : Scored} (member : entry ∈ candidates locale tables ns query) :
    ∃ text, Findable locale tables ns entry.chunk text := by
  obtain ⟨inside, own, scored, held⟩ := mem_candidates member
  obtain ⟨text, same⟩ := Option.isSome_iff_exists.mp held
  refine ⟨text, inside, own, same, ?_⟩
  intro none_there
  have positive := (List.mem_filter.mp member).2
  simp [scored, overlap, same, none_there] at positive

/-- A citation with the chunk it cites and the proof that was made of it. -/
structure Cited (locale : Locale) (crypto : Crypto) (sqlite : Sqlite) (tables : Tables) (ns : Str) (citation : Citation) where
  chunk : Chunk
  words : Str
  proof : InclusionProof
  found : Findable locale tables ns chunk words
  id : citation.chunkId = chunk.id
  text : citation.text = chunk.text
  placed : Placed crypto sqlite tables ns chunk.id proof
  root : citation.root = some proof.root
  verified : citation.verified = true

theorem cite_of {hit : Hit} {citation : Citation} (made : cite crypto hit = .ok citation) :
    citation.chunkId = hit.entry.chunk.id ∧ citation.text = hit.entry.chunk.text := by
  obtain ⟨verified, _, same⟩ := Py.bind_ok.mp made
  rw [← Except.ok.inj same]
  exact ⟨rfl, rfl⟩

theorem cited_of_hit {hit : Hit} {citation : Citation}
    (proved : Yields (prove crypto sqlite (.str ns) (.int hit.entry.chunk.id)) tables hit.proof tables)
    {words : Str} (found : Findable locale tables ns hit.entry.chunk words) (made : cite crypto hit = .ok citation) :
    Nonempty (Cited locale crypto sqlite tables ns citation) := by
  rcases yields_prove proved with ⟨proof, there, ⟨placed⟩⟩ | ⟨_, absent⟩
  · simp only [cite, isVerified, there, placed.verified, bind, Except.bind, pure, Except.pure, Except.ok.injEq] at made
    subst made
    exact ⟨⟨hit.entry.chunk, words, proof, found, rfl, rfl, placed, rfl, rfl⟩⟩
  · exact absurd rfl (absent _ found.inside found.own)

theorem yields_recall {engine : MemoryEngine} {query : Str} {k : Int} {result : Recollection} {after : Tables}
    (ends : Yields (Smriti.recall locale crypto sqlite engine ns query k) tables result after) :
    ∀ citation ∈ result.citations, Nonempty (Cited locale crypto sqlite tables ns citation) := by
  obtain ⟨found, middle, retrieved, ends⟩ := yields_bind ends
  obtain ⟨citations, cited, ends⟩ := yields_bind_attempt ends
  obtain ⟨answer, _, ends⟩ := yields_bind_attempt ends
  obtain ⟨rows, selected, hitting⟩ := yields_bind_query retrieved
  obtain ⟨space, bound, _⟩ := Py.bind_ok.mp selected
  obtain ⟨_, bytes, encoded⟩ := bindValue_str_ok bound
  obtain ⟨texts, selectedTexts, same⟩ := @selectTexts_scored locale sqlite tables ns query bytes encoded
  obtain rfl := Except.ok.inj (selectedTexts.symm.trans selected)
  rw [(yields_pure ends).1]
  intro citation member
  obtain ⟨hit, among, made⟩ := (rows_of_mapM cited).2 _ member
  obtain ⟨entries, proved⟩ := yields_hits hitting
  have chosen := mem_upToIndex (entries ▸ List.mem_map_of_mem among)
  rw [(List.perm_insertionSort _ _).mem_iff, same] at chosen
  obtain ⟨words, findable⟩ := findable_of_candidate chosen
  exact cited_of_hit (proved hit among) findable made

theorem recall_verified {engine : MemoryEngine} {query : Str} {k : Int} {result : Recollection} {after : Tables}
    (ends : Yields (Smriti.recall locale crypto sqlite engine ns query k) tables result after) :
    ∀ citation ∈ result.citations, citation.verified = true := by
  intro citation member
  obtain ⟨cited⟩ := yields_recall ends citation member
  exact cited.verified

/-- The contents of the table, rows edited outside the store included; the ids are its primary key. -/
structure Contents where
  tables : Tables
  keyed : (tables.chunks.map Chunk.id).Nodup

/-- The text of a citation has the hash that its proof places under the root of the namespace. -/
def Citation.Checkable (crypto : Crypto) (sqlite : Sqlite) (tables : Tables) (ns : Str) (citation : Citation) : Prop :=
  ∃ text bytes proof, citation.text = some text ∧ encode text = .ok bytes ∧
    Reads (prove crypto sqlite (.str ns) (.int citation.chunkId)) tables (.ok (some proof)) ∧
    Reads (merkleRoot crypto sqlite (.str ns)) tables (.ok proof.root) ∧ citation.root = some proof.root ∧
    verifyProof crypto proof = .ok true ∧ bytesFromHex (.str proof.leaf) = .ok (crypto.H bytes)

/-- In a namespace that can be read, the rows that can be found have the digest of their text. -/
def TextsHashed (locale : Locale) (crypto : Crypto) (tables : Tables) (ns : Str) : Prop :=
  (∃ bytes, encode ns = .ok bytes) → HexHashes tables ns → ∀ chunk text, Findable locale tables ns chunk text →
    ∃ bytes, encode text = .ok bytes ∧ bytesFromHex (.str chunk.hash) = .ok (crypto.H bytes)

theorem Contents.leaf (contents : Contents) {chunk : Chunk} (inside : chunk ∈ contents.tables.chunks)
    {proof : InclusionProof} (placed : Placed crypto sqlite contents.tables ns chunk.id proof) : proof.leaf = chunk.hash := by
  obtain ⟨other, there, _, id, leaf⟩ := placed.chunk
  rw [← leaf, List.inj_on_of_nodup_map contents.keyed there inside id]

theorem checkable_of_hashed (contents : Contents) (hashed : TextsHashed locale crypto contents.tables ns) {citation : Citation}
    (cited : Cited locale crypto sqlite contents.tables ns citation) :
    citation.Checkable crypto sqlite contents.tables ns := by
  obtain ⟨name, named⟩ := cited.placed.encoded
  obtain ⟨bytes, encoded, same⟩ := hashed ⟨name, named⟩ cited.placed.hexHashes _ _ cited.found
  obtain ⟨proof, proved⟩ := @reads_prove crypto sqlite _ _ cited.placed.hexHashes _ named _ cited.found.inside
    cited.found.own
  obtain ⟨placed⟩ := placed_of_reads proved
  refine ⟨cited.words, bytes, proof, cited.text.trans cited.found.held, encoded, cited.id ▸ proved, placed.reads_root, ?_,
    placed.verified, ?_⟩
  · rw [cited.root, cited.placed.same_root placed]
  · rw [contents.leaf cited.found.inside placed, same]

theorem reads_recall (hex : HexHashes tables ns) {bytes : Bytes} (encoded : encode ns = .ok bytes) {engine : MemoryEngine}
    {query : Str} (answers : ∀ chunks, ∃ answer, engine query chunks = .ok answer) (k : Int) :
    ∃ result, Reads (Smriti.recall locale crypto sqlite engine ns query k) tables (.ok result) ∧
      ∀ entry ∈ upToIndex (ranking locale tables ns query) k, ∃ citation ∈ result.citations,
        citation.chunkId = entry.chunk.id ∧ citation.text = entry.chunk.text := by
  obtain ⟨rows, selected, same⟩ := @selectTexts_scored locale sqlite tables ns query bytes encoded
  have findable : ∀ entry ∈ upToIndex (ranking locale tables ns query) k, ∃ text, Findable locale tables ns entry.chunk text := by
    intro entry member
    exact findable_of_candidate ((List.perm_insertionSort _ _).mem_iff.mp (mem_upToIndex member))
  have there : ∀ entry ∈ upToIndex (ranking locale tables ns query) k,
      entry.chunk ∈ tables.chunks ∧ entry.chunk.ns = .text ns := by
    intro entry member
    obtain ⟨text, found⟩ := findable entry member
    exact ⟨found.inside, found.own⟩
  obtain ⟨found, hitting, entries⟩ := @reads_hits crypto sqlite tables ns hex bytes encoded _ there
  have retrieved : Reads (retrieveUpTo locale crypto sqlite ns query k) tables (.ok found) := by
    refine Reads.bind (reads_query selected) ?_
    rw [same]
    exact hitting
  have each : ∀ hit ∈ found, ∃ citation, cite crypto hit = .ok citation := by
    intro hit among
    obtain ⟨inside, own⟩ := there hit.entry (entries ▸ List.mem_map_of_mem among)
    rcases yields_prove ((yields_hits hitting.yields).2 hit among) with ⟨proof, made, ⟨placed⟩⟩ | ⟨_, absent⟩
    · simp only [cite, isVerified, made, placed.verified, bind, Except.bind, pure, Except.pure, Except.ok.injEq, exists_eq']
    · exact absurd rfl (absent _ inside own)
  obtain ⟨citations, cited⟩ := mapM_of_forall each
  obtain ⟨answer, answered⟩ := answers (citations.filter Citation.verified)
  refine ⟨_, Reads.bind retrieved (Reads.bind (reads_attempt cited) (Reads.bind (reads_attempt answered) (reads_attempt rfl))), ?_⟩
  intro entry member
  obtain ⟨hit, among, rfl⟩ := List.mem_map.mp (entries ▸ member)
  obtain ⟨citation, chosen, made⟩ := (rows_of_mapM cited).1 hit among
  exact ⟨citation, chosen, cite_of made⟩

theorem hashed_of_checkable (contents : Contents)
    (checkable : ∀ (engine : MemoryEngine) query k result after,
      Yields (Smriti.recall locale crypto sqlite engine ns query k) contents.tables result after →
        ∀ citation ∈ result.citations, citation.verified = true → citation.Checkable crypto sqlite contents.tables ns) :
    TextsHashed locale crypto contents.tables ns := by
  intro named hex chunk text findable
  obtain ⟨name, encoded⟩ := named
  -- The text itself is a query that finds the row.
  have ranked : ⟨overlap locale text chunk, chunk⟩ ∈ ranking locale contents.tables ns text := by
    rw [ranking, (List.perm_insertionSort _ _).mem_iff]
    refine List.mem_filter.mpr ⟨List.mem_map_of_mem (List.mem_filter.mpr ⟨findable.inside, by simp [findable.own]⟩), ?_⟩
    obtain ⟨word, first⟩ := List.exists_mem_of_ne_nil _ findable.words
    have shared : 0 < overlap locale text chunk := by
      simp only [overlap, findable.held]
      exact List.length_pos_of_mem (List.mem_filter.mpr ⟨first, by simpa using first⟩)
    simpa using shared.ne'
  obtain ⟨result, recalled, cites⟩ := @reads_recall locale crypto sqlite _ _ hex _ encoded (fun _ _ => .ok []) _
    (fun _ => ⟨_, rfl⟩) (ranking locale contents.tables ns text).length
  have first : ⟨overlap locale text chunk, chunk⟩ ∈
      upToIndex (ranking locale contents.tables ns text) (ranking locale contents.tables ns text).length := by
    rw [upToIndex, if_pos (Int.natCast_nonneg _), Int.toNat_natCast, List.take_length]
    exact ranked
  obtain ⟨citation, cited, id, held⟩ := cites _ first
  obtain ⟨words, bytes, proof, quoted, spelled, proved, _, _, _, leaf⟩ :=
    checkable _ _ _ _ _ recalled.yields citation cited (recall_verified recalled.yields citation cited)
  obtain ⟨placed⟩ := placed_of_reads (id ▸ proved)
  obtain rfl : text = words := Option.some.inj (findable.held.symm.trans (held.symm.trans quoted))
  exact ⟨bytes, spelled, by rw [← contents.leaf findable.inside placed, leaf]⟩

/-- Every citation from a store is verified; and those from a table of any content stand for their
texts exactly when the rows that can be found have the digests of their texts. -/
theorem citations_checkable_iff (contents : Contents) :
    (∀ faults calls (engine : MemoryEngine) (ns query : Str) k result after,
      Yields (Smriti.recall locale crypto sqlite engine ns query k) (built crypto sqlite faults calls).current result after →
        ∀ citation ∈ result.citations, citation.verified = true) ∧
    ∀ ns, (∀ (engine : MemoryEngine) query k result after,
      Yields (Smriti.recall locale crypto sqlite engine ns query k) contents.tables result after →
        ∀ citation ∈ result.citations, citation.verified = true → citation.Checkable crypto sqlite contents.tables ns) ↔
      TextsHashed locale crypto contents.tables ns := by
  constructor
  · intro faults calls engine ns query k result after ends
    exact recall_verified ends
  · intro ns
    constructor
    · exact hashed_of_checkable contents
    · intro hashed engine query k result after ends citation member _
      obtain ⟨cited⟩ := yields_recall ends citation member
      exact checkable_of_hashed contents hashed cited

/-- One row, whose text was changed outside the store. -/
def edited : Contents where
  tables := { chunks := [{
    id := 1, ns := .text "lab", docId := .text "notes", text := some "forged words",
    hash := H_hex Crypto.sample (ascii "signed words") }] }
  keyed := by decide

def editedRecollection : Recollection where
  ns := "lab"
  query := "forged"
  answer := "[smriti] recalled 1 verified chunk(s) for 'forged' (cited #1)"
  citations := [{
    chunkId := 1, text := some "forged words", score := 1, verified := true,
    root := some (Merkle.leaf Crypto.sample (Crypto.sample.H (ascii "signed words"))) }]
  grounded := true
  allVerified := true

/-- The citation of an edited row is verified, and says nothing of the text that it hands on. -/
theorem edited_citation_verified :
    ¬∀ (contents : Contents) (engine : MemoryEngine) (ns query : Str) k result after,
      Yields (Smriti.recall Locale.sample Crypto.sample Sqlite.sample engine ns query k) contents.tables result after →
        ∀ citation ∈ result.citations, citation.verified = true →
          citation.Checkable Crypto.sample Sqlite.sample contents.tables ns := by
  intro checkable
  have recalled : (Smriti.recall Locale.sample Crypto.sample Sqlite.sample mockMemoryEngine "lab" "forged" 3
      { committed := edited.tables, current := edited.tables }).1 = .ok editedRecollection := by
    decide +kernel
  obtain ⟨text, bytes, proof, quoted, encoded, proved, _, _, _, leaf⟩ :=
    checkable edited mockMemoryEngine "lab" "forged" 3 editedRecollection _ ⟨_, _, rfl, rfl, Prod.ext recalled rfl⟩ _
      List.mem_cons_self rfl
  obtain ⟨placed⟩ := placed_of_reads proved
  rw [edited.leaf List.mem_cons_self placed] at leaf
  obtain rfl : Str.ofString "forged words" = text := Option.some.inj quoted
  have spelled : encode "forged words" = .ok (ascii "forged words") := by decide +kernel
  obtain rfl := Except.ok.inj (spelled.symm.trans encoded)
  exact absurd leaf (by decide +kernel)

end JJDai.Knowledge
