import JJDai.Lib.Transaction
import JJDai.Primitive.Merkle
import JJDai.Primitive.Builtins

/-! `core.rag_store`: chunks of text in an SQLite table, and the Merkle root of
each namespace. -/

namespace JJDai

open PyText

namespace Merkle

variable (crypto : Crypto)

/-- `_node`, of two digests that are hex text. -/
def parent (l r : Str) : Py Str := do
  let left ← bytesFromHex (.str l)
  let right ← bytesFromHex (.str r)
  return H_hex crypto ([1] ++ left ++ right)

/-- The next level; a last node without a partner is its own. -/
def nextLevel : List Str → Py (List Str)
  | [] => return []
  | [last] => return [← parent crypto last last]
  | l :: r :: rest => do
    let first ← parent crypto l r
    return first :: (← nextLevel rest)

/-- The loop of `merkle_root`; a level is at most as long as its `fuel`. -/
def climb : Nat → List Str → Py Str
  | _, [] => raise .indexError
  | _, [top] => return top
  | 0, _ => raise .indexError
  | fuel + 1, level => do climb fuel (← nextLevel crypto level)

def merkleRoot (leaves : List Bytes) : Py Str :=
  if leaves = [] then return List.replicate 64 (ch '0')
  else climb crypto leaves.length (leaves.map (leaf crypto))

/-- The loop of `merkle_proof`: the sibling on each level and its side. -/
def siblings : Nat → List Str → Nat → Py (List (Str × Str))
  | 0, _, _ => return []
  | fuel + 1, level, i => do
    if level.length ≤ 1 then return []
    let padded := if level.length % 2 = 1 then level ++ level.getLast?.toList else level
    let beside ← if i % 2 = 0 then atIndex padded (i + 1) else atIndex padded (i - 1)
    let above ← siblings fuel (← nextLevel crypto level) (i / 2)
    return (if i % 2 = 0 then "R" else "L", beside) :: above

def merkleProof (leaves : List Bytes) (i : Nat) : Py (List (Str × Str)) :=
  if i < leaves.length then siblings crypto leaves.length (leaves.map (leaf crypto)) i
  else raise .indexError "leaf index out of range"

variable {crypto}

theorem length_nextLevel {level above : List Str} (made : nextLevel crypto level = .ok above) :
    above.length = (level.length + 1) / 2 := by
  induction level using nextLevel.induct generalizing above with
  | case1 =>
    obtain rfl := Except.ok.inj made
    rfl
  | case2 last =>
    simp only [nextLevel, bind, Py.bind_ok] at made
    obtain ⟨_, _, made⟩ := made
    rw [← Except.ok.inj made]
    simp
  | case3 l r rest ih =>
    simp only [nextLevel, bind, Py.bind_ok] at made
    obtain ⟨_, _, later, others, made⟩ := made
    obtain rfl := Except.ok.inj made
    have shorter := ih others
    simp only [List.length_cons, shorter]
    omega

theorem parent_ok (l r : Bytes) : ∃ above : Bytes, parent crypto (toHex l) (toHex r) = .ok (toHex above) :=
  ⟨_, by simp only [parent, bytesFromHex_toHex, bind, Except.bind, pure, Except.pure]; rfl⟩

theorem nextLevel_ok (digests : List Bytes) :
    ∃ above : List Bytes, nextLevel crypto (digests.map toHex) = .ok (above.map toHex) := by
  match digests with
  | [] => exact ⟨[], rfl⟩
  | [last] =>
    obtain ⟨above, made⟩ := @parent_ok crypto last last
    exact ⟨[above], by simp only [List.map, nextLevel, made, bind, Except.bind, pure, Except.pure]⟩
  | l :: r :: rest =>
    obtain ⟨first, made⟩ := @parent_ok crypto l r
    obtain ⟨others, more⟩ := nextLevel_ok rest
    refine ⟨first :: others, ?_⟩
    simp only [List.map, nextLevel, made, more, bind, Except.bind, pure, Except.pure]

theorem climb_ok {fuel : Nat} {digests : List Bytes} (some_there : digests ≠ []) (enough : digests.length ≤ fuel) :
    ∃ top, climb crypto fuel (digests.map toHex) = .ok top := by
  induction fuel generalizing digests with
  | zero => exact absurd (List.length_eq_zero_iff.mp (Nat.le_zero.mp enough)) some_there
  | succ fuel ih =>
    match digests with
    | [only] => exact ⟨_, rfl⟩
    | l :: r :: rest =>
      obtain ⟨above, made⟩ := @nextLevel_ok crypto (l :: r :: rest)
      have shorter := length_nextLevel made
      simp only [List.length_map, List.length_cons] at shorter enough
      have present : above ≠ [] := List.ne_nil_of_length_pos (by omega)
      obtain ⟨top, reached⟩ := ih present (by omega)
      refine ⟨top, ?_⟩
      simp only [List.map, climb, bind, Except.bind] at made ⊢
      rw [made]
      exact reached

theorem merkleRoot_ok (leaves : List Bytes) : ∃ root, merkleRoot crypto leaves = .ok root := by
  unfold merkleRoot
  split
  · exact ⟨_, rfl⟩
  · rename_i present
    have digests : leaves.map (leaf crypto) = (leaves.map (fun b => crypto.H (0 :: b))).map toHex := by
      rw [List.map_map]
      rfl
    rw [digests]
    exact climb_ok (by simpa using present) (by simp)

theorem siblings_ok {fuel : Nat} {digests : List Bytes} {i : Nat} (inside : i < digests.length) :
    ∃ path, siblings crypto fuel (digests.map toHex) i = .ok path := by
  induction fuel generalizing digests i with
  | zero => exact ⟨[], rfl⟩
  | succ fuel ih =>
    unfold siblings
    by_cases single : (digests.map toHex).length ≤ 1
    · rw [if_pos single]
      exact ⟨[], rfl⟩
    · rw [if_neg single]
      obtain ⟨above, made⟩ := @nextLevel_ok crypto digests
      have shorter := length_nextLevel made
      simp only [List.length_map] at shorter single
      obtain ⟨rest, climbed⟩ := @ih above (i / 2) (by omega)
      have padded : digests.length ≤ (if (digests.map toHex).length % 2 = 1 then
          digests.map toHex ++ (digests.map toHex).getLast?.toList else digests.map toHex).length ∧
          (digests.length % 2 = 1 → digests.length < (if (digests.map toHex).length % 2 = 1 then
            digests.map toHex ++ (digests.map toHex).getLast?.toList else digests.map toHex).length) := by
        have last : (digests.map toHex).getLast?.toList.length = 1 := by
          rw [List.getLast?_eq_some_getLast (by simpa using List.ne_nil_of_length_pos (by omega))]
          rfl
        split
        · rw [List.length_append, last, List.length_map]
          omega
        · rename_i even
          rw [List.length_map] at even ⊢
          omega
      simp only
      generalize (if (digests.map toHex).length % 2 = 1 then
        digests.map toHex ++ (digests.map toHex).getLast?.toList else digests.map toHex) = level at padded ⊢
      have found (place : Int) (low : 0 ≤ place) (high : place.toNat < level.length) :
          ∃ digest, atIndex level place = .ok digest :=
        ⟨_, (atIndex_nonneg low).mpr (List.getElem?_eq_getElem high)⟩
      by_cases even : i % 2 = 0
      · obtain ⟨digest, beside⟩ := found (i + 1) (by omega) (by omega)
        simp only [if_pos even]
        exact ⟨_, Py.bind_ok.mpr ⟨digest, beside, Py.bind_ok.mpr ⟨_, made, Py.bind_ok.mpr ⟨rest, climbed, rfl⟩⟩⟩⟩
      · obtain ⟨digest, beside⟩ := found (i - 1) (by omega) (by omega)
        simp only [if_neg even]
        exact ⟨_, Py.bind_ok.mpr ⟨digest, beside, Py.bind_ok.mpr ⟨_, made, Py.bind_ok.mpr ⟨rest, climbed, rfl⟩⟩⟩⟩

theorem merkleProof_ok {digests : List Bytes} {i : Nat} (inside : i < digests.length) :
    ∃ path, merkleProof crypto digests i = .ok path := by
  have leaves : digests.map (leaf crypto) = (digests.map (fun b => crypto.H (0 :: b))).map toHex := by
    rw [List.map_map]
    rfl
  unfold merkleProof
  rw [if_pos inside, leaves]
  exact siblings_ok (by simpa using inside)

end Merkle

namespace Knowledge

open Transaction Transaction.Statements

inductive SqlValue where
  | null
  | integer (n : Int)
  | real (x : PyFloat)
  | text (s : Str)
  deriving DecidableEq

/-- What SQLite makes of a value of another type than its column: the integer that
a text spells, and the text of a float. -/
structure Sqlite where
  integerText : Str → Option Int
  realText : PyFloat → Str

/-- A parameter of a statement, as the `sqlite3` module binds it. -/
def bindValue : Json → Py SqlValue
  | .null => return .null
  | .bool b => return .integer (if b then 1 else 0)
  | .int n => if -2 ^ 63 ≤ n ∧ n < 2 ^ 63 then return .integer n else raise .overflowError
  | .float .nan => return .null
  | .float x => return .real x
  | .str s => do
    let _ ← encode s
    return .text s
  | _ => raise .sqliteError

def SqlValue.toJson : SqlValue → Json
  | .null => .null
  | .integer n => .int n
  | .real x => .float x
  | .text s => .str s

def SqlValue.asText (sqlite : Sqlite) : SqlValue → SqlValue
  | .integer n => .text (intText n)
  | .real x => .text (sqlite.realText x)
  | value => value

/-- The integer that a value is in, or against, an INTEGER column. -/
def SqlValue.asInteger? (sqlite : Sqlite) : SqlValue → Option Int
  | .null => none
  | .integer n => some n
  | .real x => x.toInt?
  | .text s => sqlite.integerText s

def SqlValue.asInteger (sqlite : Sqlite) (value : SqlValue) : SqlValue :=
  match value.asInteger? sqlite with
  | some n => .integer n
  | none => value

/-- `column = ?` for a TEXT column; NULL equals nothing. -/
def SqlValue.isText (sqlite : Sqlite) (parameter column : SqlValue) : Bool :=
  column ≠ .null && parameter.asText sqlite = column

structure Chunk where
  id : Int
  ns : SqlValue
  docId : SqlValue
  text : Option Str
  hash : Str
  deriving DecidableEq

/-- A row of `chunk_meta`; `envelope` and `redaction_envelope` stand for their texts. -/
structure Meta where
  chunkId : Int
  version : Int
  supersedes : SqlValue := .null
  supersededBy : Option Int := none
  redacted : Bool := false
  authorNode : SqlValue
  envelope : Json
  redactionEnvelope : Option Json := none
  createdAt : SqlValue
  deriving DecidableEq

structure Tables where
  chunks : List Chunk := []
  chunkMeta : List Meta := []
  deriving DecidableEq

/-- The next `INTEGER PRIMARY KEY`: one above the largest. -/
def Tables.nextId (tables : Tables) : Int := (tables.chunks.map Chunk.id).foldr max 0 + 1

abbrev Db := Statements Tables PyErr

variable (crypto : Crypto) (sqlite : Sqlite)

/-- `sha256_text`; without a text there is nothing to encode. -/
def sha256Text : Option Str → Py Str
  | none => raise .attributeError
  | some text => do return H_hex crypto (← encode text)

def insertChunk (ns docId : Json) (text : Option Str) (hash : Str) (tables : Tables) : Py (Int × Tables) := do
  let ns ← bindValue ns
  let docId ← bindValue docId
  let row : Chunk := { id := tables.nextId, ns := ns.asText sqlite, docId := docId.asText sqlite, text, hash }
  return (row.id, { tables with chunks := tables.chunks ++ [row] })

def add (ns docId : Json) (text : Option Str) (commit : Bool) : Db (Int × Str) := do
  let hash ← attempt (sha256Text crypto text)
  let id ← execute (insertChunk sqlite ns docId text hash)
  if commit then Statements.commit
  return (id, hash)

/-- `SELECT id, hash FROM chunks WHERE ns=? ORDER BY id`. -/
def selectLeaves (ns : Json) (tables : Tables) : Py (List (Int × Str)) := do
  let ns ← bindValue ns
  let rows := tables.chunks.filter (fun chunk => ns.isText sqlite chunk.ns)
  return (rows.map (fun chunk => (chunk.id, chunk.hash))).mergeSort (fun a b => a.1 ≤ b.1)

def leaves (ns : Json) : Db (List (Int × Str)) := query (selectLeaves sqlite ns)

def hashBytes (rows : List (Int × Str)) : Py (List Bytes) := rows.mapM (fun row => bytesFromHex (.str row.2))

def leafBytes (ns : Json) : Db (List Bytes) := do
  let rows ← leaves sqlite ns
  attempt (hashBytes rows)

def merkleRoot (ns : Json) : Db Str := do
  let hashes ← leafBytes sqlite ns
  attempt (Merkle.merkleRoot crypto hashes)

structure InclusionProof where
  chunkId : Json
  leaf : Str
  path : List (Str × Str)
  root : Str
  scheme : Str := "jjdai-merkle"

def prove (ns chunkId : Json) : Db (Option InclusionProof) := do
  let rows ← leaves sqlite ns
  match rows.findIdx? (fun row => Json.pyEq (.int row.1) chunkId) with
  | none => return none
  | some i =>
    let hashes ← leafBytes sqlite ns
    let row ← attempt (atIndex rows i)
    let path ← attempt (Merkle.merkleProof crypto hashes i)
    let root ← attempt (Merkle.merkleRoot crypto hashes)
    return some { chunkId, leaf := row.2, path, root }

def selectChunk (chunkId : Json) (tables : Tables) : Py (Option Chunk) := do
  let key ← bindValue chunkId
  return tables.chunks.find? (fun chunk => key.asInteger? sqlite = some chunk.id)

def get (chunkId : Json) : Db (Option Chunk) := query (selectChunk sqlite chunkId)

variable {crypto sqlite}

theorem lt_nextId (tables : Tables) : ∀ chunk ∈ tables.chunks, chunk.id < tables.nextId := by
  intro chunk member
  have largest : ∀ ids : List Int, ∀ id ∈ ids, id ≤ ids.foldr max 0 := by
    intro ids
    induction ids with
    | nil => simp
    | cons first rest ih =>
      intro id inside
      rcases List.mem_cons.mp inside with rfl | later
      · exact le_max_left _ _
      · exact (ih id later).trans (le_max_right _ _)
  have bound := largest (tables.chunks.map Chunk.id) chunk.id (List.mem_map_of_mem member)
  exact Int.lt_add_one_of_le bound

theorem insertChunk_ok {ns docId : Json} {text : Option Str} {hash : Str} {tables later : Tables} {id : Int} :
    insertChunk sqlite ns docId text hash tables = .ok (id, later) ↔
      id = tables.nextId ∧ ∃ space document, bindValue ns = .ok space ∧ bindValue docId = .ok document ∧
        later = { tables with chunks := tables.chunks ++
          [⟨tables.nextId, space.asText sqlite, document.asText sqlite, text, hash⟩] } := by
  simp only [insertChunk, bind, Py.bind_ok, pure, Except.pure, Except.ok.injEq, Prod.mk.injEq]
  constructor
  · rintro ⟨space, spaceBound, document, documentBound, rfl, rfl⟩
    exact ⟨rfl, space, document, spaceBound, documentBound, rfl⟩
  · rintro ⟨rfl, space, document, spaceBound, documentBound, rfl⟩
    exact ⟨space, spaceBound, document, documentBound, rfl, rfl⟩

theorem yields_add {ns docId : Json} {text : Option Str} {before after : Tables} {id : Int} {hash : Str}
    (added : Yields (add crypto sqlite ns docId text false) before (id, hash) after) :
    sha256Text crypto text = .ok hash ∧ insertChunk sqlite ns docId text hash before = .ok (id, after) := by
  obtain ⟨digest, middle, hashed, rest⟩ := yields_bind added
  obtain ⟨row, later, inserted, answered⟩ := yields_bind rest
  obtain ⟨answer, same⟩ := yields_pure answered
  obtain ⟨digested, unchanged⟩ := yields_attempt hashed
  obtain ⟨rfl, rfl⟩ := Prod.mk.inj answer
  rw [same, ← unchanged]
  exact ⟨digested, yields_execute inserted⟩

theorem readOnly_leafBytes (ns : Json) : ReadOnly (leafBytes sqlite ns) :=
  (readOnly_query _).bind (fun _ => readOnly_attempt _)

theorem readOnly_merkleRoot (ns : Json) : ReadOnly (merkleRoot crypto sqlite ns) :=
  (readOnly_leafBytes ns).bind (fun _ => readOnly_attempt _)

theorem readOnly_prove (ns chunkId : Json) : ReadOnly (prove crypto sqlite ns chunkId) := by
  apply (readOnly_query _).bind
  intro rows
  split
  · exact readOnly_pure _
  · apply (readOnly_leafBytes ns).bind
    intro hashes
    apply (readOnly_attempt _).bind
    intro row
    apply (readOnly_attempt _).bind
    intro path
    apply (readOnly_attempt _).bind
    intro root
    exact readOnly_pure _

theorem uncommitted_query {read : Tables → Py α} : Uncommitted (query read : Db α) := uncommitted_execute _

theorem uncommitted_add (ns docId : Json) (text : Option Str) :
    Uncommitted (add crypto sqlite ns docId text false) := by
  refine (uncommitted_attempt _).bind (fun hash => (uncommitted_execute _).bind (fun id => ?_))
  exact uncommitted_pure _

theorem uncommitted_leafBytes (ns : Json) : Uncommitted (leafBytes sqlite ns) :=
  uncommitted_query.bind (fun _ => uncommitted_attempt _)

theorem uncommitted_merkleRoot (ns : Json) : Uncommitted (merkleRoot crypto sqlite ns) :=
  (uncommitted_leafBytes ns).bind (fun _ => uncommitted_attempt _)

theorem uncommitted_prove (ns chunkId : Json) : Uncommitted (prove crypto sqlite ns chunkId) := by
  apply uncommitted_query.bind
  intro rows
  split
  · exact uncommitted_pure _
  · apply (uncommitted_leafBytes ns).bind
    intro hashes
    apply (uncommitted_attempt _).bind
    intro row
    apply (uncommitted_attempt _).bind
    intro path
    apply (uncommitted_attempt _).bind
    intro root
    exact uncommitted_pure _

end Knowledge

end JJDai
