import JJDai.Knowledge.PlaneH

/-! What a store under governance holds: the chunks that witnessed records name,
in lines of succession. -/

namespace JJDai.Knowledge

open PyText Canonical Transaction Transaction.Statements

variable {crypto : Crypto} {sqlite : Sqlite}

/-- The row that a proposal's chunk becomes. -/
structure Inserted (sqlite : Sqlite) (before : Tables) (ns docId : Json) (hash : Str) (chunk : Chunk) : Prop where
  id : chunk.id = before.nextId
  hash : chunk.hash = hash
  ns : ∃ value, bindValue ns = .ok value ∧ chunk.ns = value.asText sqlite
  docId : ∃ value, bindValue docId = .ok value ∧ chunk.docId = value.asText sqlite

structure Meta.Fresh (row : Meta) (chunk : Chunk) : Prop where
  chunkId : row.chunkId = chunk.id
  supersededBy : row.supersededBy = none
  redacted : row.redacted = false

def Tables.written (tables : Tables) (chunk : Chunk) (row : Meta) : Tables where
  chunks := tables.chunks ++ [chunk]
  chunkMeta := tables.chunkMeta ++ [row]

def Tables.changed (tables : Tables) (id : Int) (change : Meta → Meta) : Tables :=
  { tables with chunkMeta := tables.chunkMeta.map (fun row => if id = row.chunkId then change row else row) }

def Tables.cleared (tables : Tables) (id : Int) : Tables :=
  { tables with chunks := tables.chunks.map (fun row => if id = row.id then { row with text := none } else row) }

theorem yields_add_inserted {ns docId : Json} {text : Option Str} {before after : Tables} {id : Int} {hash : Str}
    (added : Yields (add crypto sqlite ns docId text false) before (id, hash) after) :
    sha256Text crypto text = .ok hash ∧ ∃ chunk, Inserted sqlite before ns docId hash chunk ∧ id = chunk.id ∧
      after = { before with chunks := before.chunks ++ [chunk] } := by
  obtain ⟨hashed, inserted⟩ := yields_add added
  obtain ⟨rfl, space, document, spaceBound, documentBound, rfl⟩ := insertChunk_ok.mp inserted
  exact ⟨hashed, _, ⟨rfl, rfl, ⟨space, spaceBound, rfl⟩, document, documentBound, rfl⟩, rfl, rfl⟩

theorem insertMeta_ok {chunkId version : Int} {supersedes authorNode env createdAt : Json} {before after : Tables}
    {answer : Unit} (made : insertMeta sqlite chunkId version supersedes authorNode env createdAt before =
      .ok (answer, after)) :
    ∃ row : Meta, row.chunkId = chunkId ∧ row.version = version ∧ row.supersededBy = none ∧ row.redacted = false ∧
      row.envelope = env ∧ (∃ value, bindValue supersedes = .ok value ∧ row.supersedes = value.asInteger sqlite) ∧
      after = { before with chunkMeta := before.chunkMeta ++ [row] } := by
  simp only [insertMeta, bind, Py.bind_ok] at made
  obtain ⟨value, bound, _, _, _, _, made⟩ := made
  split at made
  · cases made
  · split at made
    · cases made
    · obtain ⟨_, rfl⟩ := Prod.mk.inj (Except.ok.inj made)
      exact ⟨_, rfl, rfl, rfl, rfl, rfl, ⟨value, bound, rfl⟩, rfl⟩

theorem updateMeta_ok {change : Meta → Meta} {key : Json} {value : SqlValue} {id : Int} {before after : Tables}
    {answer : Unit} (bound : bindValue key = .ok value) (selects : value.asInteger? sqlite = some id)
    (made : updateMeta sqlite change key before = .ok (answer, after)) : after = before.changed id change := by
  simp only [updateMeta, bind, Py.bind_ok] at made
  obtain ⟨again, rebound, made⟩ := made
  obtain rfl := Except.ok.inj (bound.symm.trans rebound)
  obtain ⟨_, rfl⟩ := Prod.mk.inj (Except.ok.inj made)
  simp only [Tables.changed, selects, Option.some.injEq]

theorem clearText_ok {key : Json} {value : SqlValue} {id : Int} {before after : Tables} {answer : Unit}
    (bound : bindValue key = .ok value) (selects : value.asInteger? sqlite = some id)
    (made : clearText sqlite key before = .ok (answer, after)) : after = before.cleared id := by
  simp only [clearText, bind, Py.bind_ok] at made
  obtain ⟨again, rebound, made⟩ := made
  obtain rfl := Except.ok.inj (bound.symm.trans rebound)
  obtain ⟨_, rfl⟩ := Prod.mk.inj (Except.ok.inj made)
  simp only [Tables.cleared, selects, Option.some.injEq]

/-- A chunk and its card, found under one key. -/
structure Target (sqlite : Sqlite) (tables : Tables) (key : Json) (told : Chunk) (card : Meta) : Prop where
  chunk : told ∈ tables.chunks
  row : card ∈ tables.chunkMeta
  same : card.chunkId = told.id
  key : ∃ value, bindValue key = .ok value ∧ value.asInteger? sqlite = some told.id

theorem yields_findTarget {op : Str} {key : Json} {before after : Tables} {told : Chunk} {card : Meta}
    (found : Yields (findTarget sqlite op key) before (told, card) after) :
    after = before ∧ Target sqlite before key told card := by
  obtain ⟨first, chunkSelected, rest⟩ := yields_bind_query found
  obtain ⟨second, cardSelected, answered⟩ := yields_bind_query rest
  cases first with
  | none => cases (yields_attempt answered).1
  | some chunk =>
    cases second with
    | none => cases (yields_attempt answered).1
    | some row =>
      obtain ⟨same, rfl⟩ := yields_pure answered
      obtain ⟨rfl, rfl⟩ := Prod.mk.inj same
      simp only [selectChunk, bind, Py.bind_ok, pure, Except.pure, Except.ok.injEq] at chunkSelected
      simp only [selectMeta, bind, Py.bind_ok, pure, Except.pure, Except.ok.injEq] at cardSelected
      obtain ⟨value, bound, chunkFound⟩ := chunkSelected
      obtain ⟨again, rebound, cardFound⟩ := cardSelected
      obtain rfl := Except.ok.inj (bound.symm.trans rebound)
      have selects : value.asInteger? sqlite = some told.id := by simpa using List.find?_some chunkFound
      have selectsCard : value.asInteger? sqlite = some card.chunkId := by simpa using List.find?_some cardFound
      exact ⟨rfl, List.mem_of_find?_eq_some chunkFound, List.mem_of_find?_eq_some cardFound,
        Option.some.inj (selectsCard.symm.trans selects), value, bound, selects⟩

theorem yields_applyAdd {env body : Json} {text : Option Str} {before after : Tables} {applied : Applied}
    (done : Yields (applyAdd crypto sqlite env body text) before applied after) :
    ∃ ns docId hash chunk row, subscript body "ns" = .ok ns ∧ subscript body "doc_id" = .ok docId ∧
      sha256Text crypto text = .ok hash ∧ Inserted sqlite before ns docId hash chunk ∧ row.Fresh chunk ∧
      row.supersedes = .null ∧ row.version = 1 ∧ row.envelope = env ∧ applied.chunkId = .int chunk.id ∧
      after = before.written chunk row := by
  obtain ⟨ns, nsRead, rest⟩ := yields_bind_attempt done
  obtain ⟨docId, docRead, rest⟩ := yields_bind_attempt rest
  obtain ⟨⟨id, hash⟩, middle, added, rest⟩ := yields_bind rest
  obtain ⟨hashed, chunk, inserted, rfl, rfl⟩ := yields_add_inserted added
  obtain ⟨author, _, rest⟩ := yields_bind_attempt rest
  obtain ⟨created, _, rest⟩ := yields_bind_attempt rest
  obtain ⟨answer, later, made, rest⟩ := yields_bind_execute rest
  obtain ⟨proof, _, rest⟩ := yields_bind_readOnly (readOnly_prove _ _) rest
  obtain ⟨rfl, rfl⟩ := yields_pure rest
  obtain ⟨row, card, version, alone, kept, signed, ⟨value, bound, superseded⟩, rfl⟩ := insertMeta_ok made
  obtain rfl := Except.ok.inj bound
  exact ⟨ns, docId, hash, chunk, row, nsRead, docRead, hashed, inserted, ⟨card, alone, kept⟩, superseded, version,
    signed, rfl, rfl⟩

/-- The target of a succession has none yet, is not redacted and stands where the proposal says. -/
structure Succeeds (body : Json) (told : Chunk) (card : Meta) : Prop where
  ns : ∃ value, subscript body "ns" = .ok value ∧ Json.pyEq told.ns.toJson value
  docId : ∃ value, subscript body "doc_id" = .ok value ∧ Json.pyEq told.docId.toJson value
  alone : card.supersededBy = none
  kept : card.redacted = false

theorem checkSuperseded_ok {body target : Json} {told : Chunk} {card : Meta}
    (passed : checkSuperseded body target told card = .ok ()) : Succeeds body told card := by
  simp only [checkSuperseded, bind, Py.bind_ok, Py.unless_ok, not_not] at passed
  obtain ⟨ns, nsRead, sameNs, docId, docRead, sameDoc, passed⟩ := passed
  split at passed
  · cases passed
  · rename_i alone
    split at passed
    · cases passed
    · rename_i kept
      exact ⟨⟨ns, nsRead, sameNs⟩, ⟨docId, docRead, sameDoc⟩, alone, Bool.eq_false_iff.mpr kept⟩

theorem yields_applySupersede {env body : Json} {text : Option Str} {before after : Tables} {applied : Applied}
    (done : Yields (applySupersede crypto sqlite env body text) before applied after) :
    ∃ target told card ns docId hash chunk row, Target sqlite before target told card ∧ Succeeds body told card ∧
      subscript body "ns" = .ok ns ∧ subscript body "doc_id" = .ok docId ∧ sha256Text crypto text = .ok hash ∧
      Inserted sqlite before ns docId hash chunk ∧ row.Fresh chunk ∧ row.supersedes = .integer told.id ∧
      row.version = card.version + 1 ∧ row.envelope = env ∧ applied.chunkId = .int chunk.id ∧
      after = (before.written chunk row).changed told.id (fun old => { old with supersededBy := some chunk.id }) := by
  obtain ⟨target, _, rest⟩ := yields_bind_attempt done
  obtain ⟨⟨told, card⟩, middle, found, checked⟩ := yields_bind rest
  obtain ⟨rfl, named⟩ := yields_findTarget found
  obtain ⟨_, passed, rest⟩ := yields_bind_attempt checked
  obtain ⟨ns, nsRead, rest⟩ := yields_bind_attempt rest
  obtain ⟨docId, docRead, rest⟩ := yields_bind_attempt rest
  obtain ⟨⟨id, hash⟩, middle, added, rest⟩ := yields_bind rest
  obtain ⟨hashed, chunk, inserted, rfl, rfl⟩ := yields_add_inserted added
  obtain ⟨author, _, rest⟩ := yields_bind_attempt rest
  obtain ⟨created, _, rest⟩ := yields_bind_attempt rest
  obtain ⟨_, carded, made, rest⟩ := yields_bind_execute rest
  obtain ⟨_, linked, updated, rest⟩ := yields_bind_execute rest
  obtain ⟨proof, _, rest⟩ := yields_bind_readOnly (readOnly_prove _ _) rest
  obtain ⟨rfl, rfl⟩ := yields_pure rest
  obtain ⟨row, card', version, alone, kept, signed, ⟨value, bound, superseded⟩, rfl⟩ := insertMeta_ok made
  obtain ⟨key, keyBound, selects⟩ := named.key
  obtain rfl := Except.ok.inj (keyBound.symm.trans bound)
  obtain rfl := updateMeta_ok keyBound selects updated
  rw [SqlValue.asInteger, selects] at superseded
  exact ⟨target, told, card, ns, docId, hash, chunk, row, named, checkSuperseded_ok passed, nsRead, docRead, hashed,
    inserted, ⟨card', alone, kept⟩, superseded, version, signed, rfl, rfl⟩

theorem yields_applyRedact {env body : Json} {before after : Tables} {applied : Applied}
    (done : Yields (applyRedact crypto sqlite env body) before applied after) :
    ∃ target told card, Target sqlite before target told card ∧
      after = (before.cleared told.id).changed told.id
        (fun old => { old with redacted := true, redactionEnvelope := some env }) := by
  obtain ⟨target, _, rest⟩ := yields_bind_attempt done
  obtain ⟨⟨told, card⟩, middle, found, checked⟩ := yields_bind rest
  obtain ⟨rfl, named⟩ := yields_findTarget found
  obtain ⟨_, _, rest⟩ := yields_bind_attempt checked
  obtain ⟨_, emptied, cleared, rest⟩ := yields_bind_execute rest
  obtain ⟨_, marked, updated, rest⟩ := yields_bind_execute rest
  obtain ⟨ns, _, rest⟩ := yields_bind_attempt rest
  obtain ⟨proof, _, rest⟩ := yields_bind_readOnly (readOnly_prove _ _) rest
  obtain ⟨rfl, rfl⟩ := yields_pure rest
  obtain ⟨key, keyBound, selects⟩ := named.key
  obtain rfl := clearText_ok keyBound selects cleared
  obtain rfl := updateMeta_ok keyBound selects updated
  exact ⟨target, told, card, named, rfl⟩

def SqlValue.IsText : SqlValue → Prop
  | .null => True
  | .text _ => True
  | _ => False

theorem isText_asText (value : SqlValue) : (value.asText sqlite).IsText := by
  cases value <;> trivial

theorem asText_of_pyEq {column value : SqlValue} {given : Json} (text : column.IsText)
    (bound : bindValue given = .ok value) (same : Json.pyEq column.toJson given) : value.asText sqlite = column := by
  cases column with
  | null =>
    obtain rfl := Json.pyEq_null.mp same
    obtain rfl := Except.ok.inj bound
    rfl
  | text s =>
    cases given with
    | str other =>
      obtain rfl : s = other := by simpa [SqlValue.toJson, Json.pyEq, Json.comparisonKey] using same
      simp only [bindValue, bind, Py.bind_ok] at bound
      obtain ⟨_, _, made⟩ := bound
      obtain rfl := Except.ok.inj made
      rfl
    | float x =>
      simp only [SqlValue.toJson, Json.pyEq, Json.comparisonKey] at same
      split at same <;> cases same
    | _ => cases same
  | integer n => cases text
  | real x => cases text

/-- A card for each chunk, in ascending order; a chunk with a predecessor is its next
version in the same document, and the two name each other. -/
structure Lineage (tables : Tables) : Prop where
  ascending : (tables.chunks.map Chunk.id).Pairwise (· < ·)
  cards : tables.chunkMeta.map Meta.chunkId = tables.chunks.map Chunk.id
  texts : ∀ chunk ∈ tables.chunks, chunk.ns.IsText ∧ chunk.docId.IsText
  predecessor : ∀ row ∈ tables.chunkMeta, row.supersedes ≠ .null → ∃ old ∈ tables.chunkMeta,
    row.supersedes = .integer old.chunkId ∧ row.version = old.version + 1 ∧ old.supersededBy = some row.chunkId
  together : ∀ row ∈ tables.chunkMeta, ∀ a ∈ tables.chunks, ∀ b ∈ tables.chunks,
    row.supersedes = .integer a.id → row.chunkId = b.id → a.ns = b.ns ∧ a.docId = b.docId
  successor : ∀ old ∈ tables.chunkMeta, ∀ next, old.supersededBy = some next →
    ∃ row ∈ tables.chunkMeta, row.chunkId = next ∧ row.supersedes = .integer old.chunkId

def Tables.successors (tables : Tables) (target : Int) : List Int :=
  (tables.chunkMeta.filter (fun row => row.supersedes = .integer target)).map Meta.chunkId

theorem lineage_empty : Lineage {} where
  ascending := List.Pairwise.nil
  cards := rfl
  texts := by simp
  predecessor := by simp
  together := by simp
  successor := by simp

namespace Lineage

variable {tables : Tables} (line : Lineage tables)

include line

theorem chunk_unique {a b : Chunk} (first : a ∈ tables.chunks) (second : b ∈ tables.chunks) (same : a.id = b.id) :
    a = b := by
  have distinct : (tables.chunks.map Chunk.id).Nodup := line.ascending.imp (fun less => ne_of_lt less)
  exact List.inj_on_of_nodup_map distinct first second same

theorem row_unique {a b : Meta} (first : a ∈ tables.chunkMeta) (second : b ∈ tables.chunkMeta)
    (same : a.chunkId = b.chunkId) : a = b := by
  have distinct : (tables.chunkMeta.map Meta.chunkId).Nodup := by
    rw [line.cards]
    exact line.ascending.imp (fun less => ne_of_lt less)
  exact List.inj_on_of_nodup_map distinct first second same

theorem chunk_of_row {row : Meta} (member : row ∈ tables.chunkMeta) : ∃ chunk ∈ tables.chunks, chunk.id = row.chunkId := by
  have inside : row.chunkId ∈ tables.chunks.map Chunk.id := by
    rw [← line.cards]
    exact List.mem_map_of_mem member
  exact List.mem_map.mp inside

theorem row_of_chunk {chunk : Chunk} (member : chunk ∈ tables.chunks) : ∃ row ∈ tables.chunkMeta, row.chunkId = chunk.id := by
  have inside : chunk.id ∈ tables.chunkMeta.map Meta.chunkId := by
    rw [line.cards]
    exact List.mem_map_of_mem member
  exact List.mem_map.mp inside

theorem row_lt {row : Meta} (member : row ∈ tables.chunkMeta) : row.chunkId < tables.nextId := by
  obtain ⟨chunk, inside, same⟩ := line.chunk_of_row member
  rw [← same]
  exact lt_nextId tables chunk inside

theorem successors_le (target : Int) : (tables.successors target).length ≤ 1 := by
  have same : ∀ a ∈ tables.successors target, ∀ b ∈ tables.successors target, a = b := by
    intro a first b second
    obtain ⟨row, member, rfl⟩ := List.mem_map.mp first
    obtain ⟨other, member', rfl⟩ := List.mem_map.mp second
    obtain ⟨inside, from_target⟩ := List.mem_filter.mp member
    obtain ⟨inside', from_target'⟩ := List.mem_filter.mp member'
    replace from_target := of_decide_eq_true from_target
    replace from_target' := of_decide_eq_true from_target'
    obtain ⟨old, oldThere, names, _, forward⟩ := line.predecessor row inside (by simp [from_target])
    obtain ⟨old', oldThere', names', _, forward'⟩ := line.predecessor other inside' (by simp [from_target'])
    have one : old.chunkId = old'.chunkId := by
      rw [from_target] at names
      rw [from_target'] at names'
      exact (SqlValue.integer.inj names).symm.trans (SqlValue.integer.inj names')
    obtain rfl := line.row_unique oldThere oldThere' one
    exact Option.some.inj (forward.symm.trans forward')
  have distinct : (tables.successors target).Nodup := by
    have all : (tables.chunkMeta.map Meta.chunkId).Nodup := by
      rw [line.cards]
      exact line.ascending.imp (fun less => ne_of_lt less)
    exact all.sublist (List.filter_sublist.map _)
  match shape : tables.successors target with
  | [] => simp
  | [_] => simp
  | a :: b :: rest =>
    rw [shape] at same distinct
    have equal := same a List.mem_cons_self b (List.mem_cons_of_mem _ List.mem_cons_self)
    simp [equal] at distinct

theorem ascending_append {chunk : Chunk} (fresh : chunk.id = tables.nextId) :
    ((tables.chunks ++ [chunk]).map Chunk.id).Pairwise (· < ·) := by
  rw [List.map_append, List.pairwise_append]
  refine ⟨line.ascending, List.pairwise_singleton _ _, ?_⟩
  intro id inside last member
  obtain ⟨old, there, rfl⟩ := List.mem_map.mp inside
  obtain rfl := List.mem_singleton.mp member
  rw [fresh]
  exact lt_nextId tables old there

theorem written {chunk : Chunk} {row : Meta} (fresh : chunk.id = tables.nextId)
    (text : chunk.ns.IsText ∧ chunk.docId.IsText) (card : row.Fresh chunk) (first : row.supersedes = .null) :
    Lineage (tables.written chunk row) where
  ascending := line.ascending_append fresh
  cards := by simp [Tables.written, line.cards, card.chunkId]
  texts := by
    intro other member
    rcases List.mem_append.mp member with old | new
    · exact line.texts other old
    · rw [List.mem_singleton.mp new]
      exact text
  predecessor := by
    intro other member comes
    rcases List.mem_append.mp member with old | new
    · obtain ⟨before, there, facts⟩ := line.predecessor other old comes
      exact ⟨before, List.mem_append_left _ there, facts⟩
    · rw [List.mem_singleton.mp new] at comes
      exact absurd first comes
  together := by
    intro other member a insideA b insideB names same
    rcases List.mem_append.mp member with old | new
    · have late := line.row_lt old
      obtain ⟨before, there, target, _⟩ := line.predecessor other old (by simp [names])
      have early := line.row_lt there
      rw [names] at target
      have same' := SqlValue.integer.inj target
      rcases List.mem_append.mp insideA with oldA | newA
      · rcases List.mem_append.mp insideB with oldB | newB
        · exact line.together other old a oldA b oldB names same
        · rw [List.mem_singleton.mp newB, fresh] at same
          omega
      · rw [List.mem_singleton.mp newA, fresh] at same'
        omega
    · rw [List.mem_singleton.mp new, first] at names
      cases names
  successor := by
    intro old member next forward
    rcases List.mem_append.mp member with there | new
    · obtain ⟨other, inside, facts⟩ := line.successor old there next forward
      exact ⟨other, List.mem_append_left _ inside, facts⟩
    · rw [List.mem_singleton.mp new, card.supersededBy] at forward
      cases forward

theorem changed {change : Meta → Meta} (id : Int) (chunkId : ∀ row, (change row).chunkId = row.chunkId)
    (version : ∀ row, (change row).version = row.version) (supersedes : ∀ row, (change row).supersedes = row.supersedes)
    (supersededBy : ∀ row, (change row).supersededBy = row.supersededBy) : Lineage (tables.changed id change) := by
  let mark (row : Meta) : Meta := if id = row.chunkId then change row else row
  have sameId (row : Meta) : (mark row).chunkId = row.chunkId := by simp only [mark]; split <;> simp [chunkId]
  have sameVersion (row : Meta) : (mark row).version = row.version := by simp only [mark]; split <;> simp [version]
  have sameBack (row : Meta) : (mark row).supersedes = row.supersedes := by simp only [mark]; split <;> simp [supersedes]
  have sameForward (row : Meta) : (mark row).supersededBy = row.supersededBy := by
    simp only [mark]; split <;> simp [supersededBy]
  have rows : (tables.changed id change).chunkMeta = tables.chunkMeta.map mark := rfl
  exact {
    ascending := line.ascending
    cards := by
      rw [rows, List.map_map, ← show tables.chunkMeta.map Meta.chunkId = (tables.changed id change).chunks.map Chunk.id
        from line.cards]
      exact List.map_congr_left (fun row _ => sameId row)
    texts := line.texts
    predecessor := by
      intro row member comes
      obtain ⟨row, inside, rfl⟩ := List.mem_map.mp (rows ▸ member)
      rw [sameBack] at comes
      obtain ⟨old, there, names, later, forward⟩ := line.predecessor row inside comes
      refine ⟨mark old, rows ▸ List.mem_map_of_mem there, ?_, ?_, ?_⟩
      · rw [sameBack, sameId, names]
      · rw [sameVersion, sameVersion, later]
      · rw [sameForward, sameId, forward]
    together := by
      intro row member a insideA b insideB names same
      obtain ⟨row, inside, rfl⟩ := List.mem_map.mp (rows ▸ member)
      rw [sameBack] at names
      rw [sameId] at same
      exact line.together row inside a insideA b insideB names same
    successor := by
      intro old member next forward
      obtain ⟨old, inside, rfl⟩ := List.mem_map.mp (rows ▸ member)
      rw [sameForward] at forward
      obtain ⟨row, there, named, back⟩ := line.successor old inside next forward
      refine ⟨mark row, rows ▸ List.mem_map_of_mem there, ?_, ?_⟩
      · rw [sameId, named]
      · rw [sameBack, sameId, back] }

theorem cleared (id : Int) : Lineage (tables.cleared id) := by
  let clear (chunk : Chunk) : Chunk := if id = chunk.id then { chunk with text := none } else chunk
  have sameId (chunk : Chunk) : (clear chunk).id = chunk.id := by simp only [clear]; split <;> rfl
  have sameNs (chunk : Chunk) : (clear chunk).ns = chunk.ns := by simp only [clear]; split <;> rfl
  have sameDoc (chunk : Chunk) : (clear chunk).docId = chunk.docId := by simp only [clear]; split <;> rfl
  have rows : (tables.cleared id).chunks = tables.chunks.map clear := rfl
  have ids : (tables.cleared id).chunks.map Chunk.id = tables.chunks.map Chunk.id := by
    rw [rows, List.map_map]
    exact List.map_congr_left (fun chunk _ => sameId chunk)
  exact {
    ascending := ids ▸ line.ascending
    cards := line.cards.trans ids.symm
    texts := by
      intro chunk member
      obtain ⟨chunk, inside, rfl⟩ := List.mem_map.mp (rows ▸ member)
      rw [sameNs, sameDoc]
      exact line.texts chunk inside
    predecessor := line.predecessor
    together := by
      intro row member a insideA b insideB names same
      obtain ⟨a, oldA, rfl⟩ := List.mem_map.mp (rows ▸ insideA)
      obtain ⟨b, oldB, rfl⟩ := List.mem_map.mp (rows ▸ insideB)
      rw [sameId] at names same
      rw [sameNs, sameNs, sameDoc, sameDoc]
      exact line.together row member a oldA b oldB names same
    successor := line.successor }

theorem superseded {told chunk : Chunk} {card row : Meta} (fresh : chunk.id = tables.nextId)
    (beside : chunk.ns = told.ns ∧ chunk.docId = told.docId) (rowFresh : row.Fresh chunk) (there : told ∈ tables.chunks)
    (carded : card ∈ tables.chunkMeta) (same : card.chunkId = told.id) (alone : card.supersededBy = none)
    (back : row.supersedes = .integer told.id) (version : row.version = card.version + 1) :
    Lineage ((tables.written chunk row).changed told.id (fun old => { old with supersededBy := some chunk.id })) := by
  let mark (row : Meta) : Meta := if told.id = row.chunkId then { row with supersededBy := some chunk.id } else row
  have sameId (row : Meta) : (mark row).chunkId = row.chunkId := by simp only [mark]; split <;> rfl
  have sameVersion (row : Meta) : (mark row).version = row.version := by simp only [mark]; split <;> rfl
  have sameBack (row : Meta) : (mark row).supersedes = row.supersedes := by simp only [mark]; split <;> rfl
  have before : told.id < chunk.id := fresh ▸ lt_nextId tables told there
  have markRow : mark row = row := by
    have apart : told.id ≠ row.chunkId := by
      rw [rowFresh.chunkId]
      omega
    simp only [mark, if_neg apart]
  have markCard : (mark card).supersededBy = some chunk.id := by simp [mark, same]
  have rows : ((tables.written chunk row).changed told.id
      (fun old => { old with supersededBy := some chunk.id })).chunkMeta = tables.chunkMeta.map mark ++ [row] := by
    have split : (tables.chunkMeta ++ [row]).map mark = tables.chunkMeta.map mark ++ [mark row] := List.map_append
    rw [markRow] at split
    exact split
  have keeps {old : Meta} {next : Int} (member : old ∈ tables.chunkMeta) (forward : old.supersededBy = some next) :
      (mark old).supersededBy = some next := by
    have apart : told.id ≠ old.chunkId := by
      intro hits
      rw [line.row_unique member carded (hits.symm.trans same.symm), alone] at forward
      cases forward
    simp only [mark, if_neg apart, forward]
  have older {old : Chunk} {id : Int} (member : old ∈ tables.chunks ++ [chunk]) (small : id < chunk.id)
      (named : old.id = id) : old ∈ tables.chunks := by
    rcases List.mem_append.mp member with inside | new
    · exact inside
    · rw [List.mem_singleton.mp new] at named
      omega
  exact {
    ascending := line.ascending_append fresh
    cards := by
      rw [rows, List.map_append, List.map_map]
      change _ = (tables.chunks ++ [chunk]).map Chunk.id
      rw [List.map_append, ← line.cards, List.map_singleton, List.map_singleton, rowFresh.chunkId]
      exact congrArg (· ++ [chunk.id]) (List.map_congr_left (fun row _ => sameId row))
    texts := by
      intro other member
      rcases List.mem_append.mp member with old | new
      · exact line.texts other old
      · rw [List.mem_singleton.mp new, beside.1, beside.2]
        exact line.texts told there
    predecessor := by
      intro other member comes
      rcases List.mem_append.mp (rows ▸ member) with old | new
      · obtain ⟨other, inside, rfl⟩ := List.mem_map.mp old
        rw [sameBack] at comes
        obtain ⟨first, found, names, later, forward⟩ := line.predecessor other inside comes
        refine ⟨mark first, rows ▸ List.mem_append_left _ (List.mem_map_of_mem found), ?_, ?_, ?_⟩
        · rw [sameBack, sameId, names]
        · rw [sameVersion, sameVersion, later]
        · rw [sameId]
          exact keeps found forward
      · obtain rfl := List.mem_singleton.mp new
        refine ⟨mark card, rows ▸ List.mem_append_left _ (List.mem_map_of_mem carded), ?_, ?_, ?_⟩
        · rw [sameId, same, back]
        · rw [sameVersion, version]
        · rw [markCard, rowFresh.chunkId]
    together := by
      intro other member a insideA b insideB names named
      rcases List.mem_append.mp (rows ▸ member) with old | new
      · obtain ⟨other, inside, rfl⟩ := List.mem_map.mp old
        rw [sameBack] at names
        rw [sameId] at named
        have late := line.row_lt inside
        obtain ⟨first, found, target, _⟩ := line.predecessor other inside (by simp [names])
        have early := line.row_lt found
        have target := SqlValue.integer.inj (names.symm.trans target)
        exact line.together other inside a (older insideA (by omega) target) b (older insideB (by omega) named.symm)
          names named
      · obtain rfl := List.mem_singleton.mp new
        have first := SqlValue.integer.inj (names.symm.trans back)
        obtain rfl := line.chunk_unique (older insideA before first) there first
        have last : b = chunk := by
          rcases List.mem_append.mp insideB with inside | new
          · have small := lt_nextId tables b inside
            rw [rowFresh.chunkId] at named
            omega
          · exact List.mem_singleton.mp new
        rw [last]
        exact ⟨beside.1.symm, beside.2.symm⟩
    successor := by
      intro old member next forward
      rcases List.mem_append.mp (rows ▸ member) with marked | new
      · obtain ⟨old, inside, rfl⟩ := List.mem_map.mp marked
        by_cases hits : told.id = old.chunkId
        · obtain rfl := line.row_unique inside carded (hits.symm.trans same.symm)
          rw [markCard] at forward
          obtain rfl := Option.some.inj forward
          refine ⟨row, rows ▸ List.mem_append_right _ (List.mem_singleton_self _), rowFresh.chunkId, ?_⟩
          rw [sameId, same, back]
        · simp only [mark, if_neg hits] at forward ⊢
          obtain ⟨other, found, named, backwards⟩ := line.successor old inside next forward
          refine ⟨mark other, rows ▸ List.mem_append_left _ (List.mem_map_of_mem found), ?_, ?_⟩
          · rw [sameId, named]
          · rw [sameBack, backwards]
      · rw [List.mem_singleton.mp new, rowFresh.supersededBy] at forward
        cases forward }

end Lineage

end JJDai.Knowledge
