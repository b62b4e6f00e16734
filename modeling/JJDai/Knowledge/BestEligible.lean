import JJDai.Lib.FirstFound
import JJDai.Knowledge.ProvedChunks
import JJDai.Knowledge.KeptStore

/-! Governed retrieval beside its purpose: the best of the eligible chunks. -/

namespace JJDai.Knowledge

open PyText Canonical Transaction Transaction.Statements FirstFound

section
variable (locale : Locale) (sqlite : Sqlite)

def described (tables : Tables) (chunkId : Json) : Py (Option Card) := do
  let row ← selectChunk sqlite chunkId tables
  let held ← selectMeta sqlite chunkId tables
  match row, held with
  | some row, some held =>
    let card ← cardOf chunkId row held
    return some card
  | _, _ => return none

def judgement (tables : Tables) (access : Str) (now : PyFloat) (r : Hit) : Py (Option Retrieved) := do
  let card ← described sqlite tables (.int r.entry.chunk.id)
  sift locale access now r card

end

variable {locale : Locale} {crypto : Crypto} {sqlite : Sqlite} {tables : Tables}

theorem reads_describe (chunkId : Json) : Reads (describe sqlite chunkId) tables (described sqlite tables chunkId) := by
  unfold describe described
  cases selected : selectChunk sqlite chunkId tables with
  | error e => exact Reads.bind_error (reads_query selected)
  | ok row =>
    apply Reads.bind (reads_query selected)
    cases carded : selectMeta sqlite chunkId tables with
    | error e => exact Reads.bind_error (reads_query carded)
    | ok held =>
      apply Reads.bind (reads_query carded)
      cases row with
      | none => exact reads_attempt rfl
      | some row =>
        cases held with
        | none => exact reads_attempt rfl
        | some held =>
          change Reads _ tables ((cardOf chunkId row held).bind (fun card => .ok (some card)))
          cases made : cardOf chunkId row held with
          | error e => exact Reads.bind_error (reads_attempt made)
          | ok card => exact Reads.bind (reads_attempt made) (reads_attempt rfl)

theorem reads_gather (access : Str) (now : PyFloat) (wanted : Nat) (raw : List Hit) :
    Reads (gather locale sqlite access now wanted raw) tables
      (search (judgement locale sqlite tables access now) wanted raw) := by
  induction raw generalizing wanted with
  | nil => exact reads_attempt rfl
  | cons r rest ih =>
    unfold gather search
    cases judged : judgement locale sqlite tables access now r with
    | error e =>
      cases bind_error judged with
      | inl failed => exact Reads.bind_error (failed ▸ reads_describe _)
      | inr later =>
        obtain ⟨card, read, failed⟩ := later
        exact Reads.bind (read ▸ reads_describe _) (Reads.bind_error (reads_attempt failed))
    | ok result =>
      obtain ⟨card, read, made⟩ := Py.bind_ok.mp judged
      apply Reads.bind (read ▸ reads_describe _)
      apply Reads.bind (reads_attempt made)
      cases result with
      | none => exact ih wanted
      | some found =>
        by_cases last : wanted ≤ 1
        · simp only [if_pos last]
          exact reads_attempt rfl
        · simp only [if_neg last]
          have later := ih (wanted - 1)
          cases reached : search (judgement locale sqlite tables access now) (wanted - 1) rest with
          | error e => exact Reads.bind_error (reached ▸ later)
          | ok out => exact Reads.bind (reached ▸ later) (reads_attempt rfl)

section
variable (locale sqlite)

/-- The chunks of a namespace that share words with the query. -/
def candidates (tables : Tables) (ns query : Str) : List Scored :=
  scored locale query (tables.chunks.filter (fun chunk => chunk.ns = .text ns))

def ranking (tables : Tables) (ns query : Str) : List Scored :=
  (candidates locale tables ns query).insertionSort Scored.Before

end

theorem scored_texts (query : Str) (rows : List Chunk) :
    scored locale query (rows.filter (fun chunk => chunk.text.isSome)) = scored locale query rows := by
  unfold scored
  rw [List.filter_map, List.filter_map, List.filter_filter]
  congr 1
  apply List.filter_congr
  intro chunk _
  cases text : chunk.text with
  | none => simp [overlap, text]
  | some text => simp

theorem selectTexts_scored {ns query : Str} {bytes : Bytes} (encoded : encode ns = .ok bytes) :
    ∃ rows, selectTexts sqlite ns tables = .ok rows ∧ scored locale query rows = candidates locale tables ns query := by
  refine ⟨_, Py.bind_ok.mpr ⟨_, bindValue_text encoded, rfl⟩, ?_⟩
  rw [candidates, ← scored_texts query (tables.chunks.filter (fun chunk => chunk.ns = .text ns))]
  congr 1
  rw [List.filter_filter]
  apply List.filter_congr
  intro chunk _
  rw [isText_text, Bool.and_comm]

theorem mem_candidates {ns query : Str} {entry : Scored} (member : entry ∈ candidates locale tables ns query) :
    entry.chunk ∈ tables.chunks ∧ entry.chunk.ns = .text ns ∧ entry.score = overlap locale query entry.chunk ∧
      entry.chunk.text.isSome := by
  obtain ⟨scoring, positive⟩ := List.mem_filter.mp member
  obtain ⟨chunk, inside, rfl⟩ := List.mem_map.mp scoring
  obtain ⟨stored, same⟩ := List.mem_filter.mp inside
  refine ⟨stored, by simpa using same, rfl, ?_⟩
  cases text : chunk.text with
  | none => simp [overlap, text] at positive
  | some text => rfl

instance : Std.Total Scored.Before where
  total a b := by
    unfold Scored.Before
    omega

instance : IsTrans Scored Scored.Before where
  trans a b c := by
    unfold Scored.Before
    omega

theorem before_apart (line : Lineage tables) {ns query : Str} :
    ∀ a ∈ candidates locale tables ns query, ∀ b ∈ candidates locale tables ns query, a.Before b → b.Before a → a = b := by
  intro a first b second ahead behind
  obtain ⟨there, _, scoreA, _⟩ := mem_candidates first
  obtain ⟨here, _, scoreB, _⟩ := mem_candidates second
  have same : a.chunk = b.chunk := by
    apply line.chunk_unique there here
    unfold Scored.Before at ahead behind
    omega
  obtain ⟨scoreOfA, chunk⟩ := a
  obtain ⟨scoreOfB, other⟩ := b
  simp only at same scoreA scoreB
  subst same scoreA scoreB
  rfl

theorem Kept.hexHashes (kept : Kept tables) (ns : Str) : HexHashes tables ns := by
  intro chunk inside _
  obtain ⟨digest, same⟩ := kept.hashes chunk inside
  exact ⟨digest, by rw [same, bytesFromHex_toHex]⟩

theorem reads_retrieve (kept : Kept tables) {ns : Str} {bytes : Bytes} (encoded : encode ns = .ok bytes) (query : Str)
    (k : Nat) : ∃ found, Reads (retrieve locale crypto sqlite ns query k) tables (.ok found) ∧
      found.map Hit.entry = (ranking locale tables ns query).take k := by
  obtain ⟨rows, selected, same⟩ := @selectTexts_scored locale sqlite tables ns query bytes encoded
  have there : ∀ entry ∈ (ranking locale tables ns query).take k, entry.chunk ∈ tables.chunks ∧ entry.chunk.ns = .text ns := by
    intro entry member
    have among := (List.perm_insertionSort _ _).mem_iff.mp (List.mem_of_mem_take member)
    exact ⟨(mem_candidates among).1, (mem_candidates among).2.1⟩
  obtain ⟨found, read, mapped⟩ := @reads_hits crypto sqlite tables ns (kept.hexHashes ns) bytes encoded _ there
  refine ⟨found, Reads.bind (reads_query selected) ?_, mapped⟩
  rw [same]
  exact read

section
variable (locale) (access : Str) (now : PyFloat)

/-- A key of the body that was signed for a chunk. -/
def Meta.signed (row : Meta) (key : Str) : Py Json := (subscript row.envelope "body").bind (fun body => subscript body key)

/-- The level of the chunk is one that the reader's level includes. -/
def WithinAccess (row : Meta) : Bool :=
  accessLevels.any (fun level => row.signed "access_policy" = .ok (.str level) &&
    accessLevels.idxOf level ≤ accessLevels.idxOf access)

def keptUntil (retention : Json) : Option PyFloat :=
  if dotGet retention "policy" = .ok (.str "until") then
    ((dotGet retention "until").bind (toFloat locale)).toOption
  else none

def Unexpired (row : Meta) : Bool :=
  ((row.signed "retention").toOption.bind (keptUntil locale)).all (fun limit => !limit.less now)

/-- Not redacted, not superseded, not expired and within the access level. -/
def Meta.Eligible (row : Meta) : Bool :=
  !row.redacted && row.supersededBy.isNone && WithinAccess access row && Unexpired locale now row

def Eligible (tables : Tables) (entry : Scored) : Bool :=
  tables.chunkMeta.any (fun row => row.chunkId = entry.chunk.id && row.Eligible locale access now)

/-- The first `k` of the eligible chunks of a namespace, in the order of the ranking. -/
def bestEligible (tables : Tables) (ns query : Str) (k : Nat) : List Scored :=
  (((candidates locale tables ns query).filter (Eligible locale access now tables)).insertionSort Scored.Before).take k

/-- A retention that names no time, or one that is a float. -/
def TimedRetention (retention : Json) : Prop :=
  ∃ entries, retention = .obj entries ∧ (Dict.get? entries "policy" = some (.str "until") →
    ∀ limit, Dict.get? entries "until" = some limit → limit ≠ .null → ∃ x, toFloat locale limit = .ok x)

/-- The body says where the chunk is from, and how long it is kept where that is asked. -/
structure Meta.Readable (row : Meta) : Prop where
  names : ∀ key ∈ (["source", "jurisdiction", "evidence_refs", "retention"] : List Str), ∃ value, row.signed key = .ok value
  timed : row.redacted = false → row.supersededBy = none → WithinAccess access row = true →
    ∀ retention, row.signed "retention" = .ok retention → TimedRetention locale retention

/-- The card of the chunk can be read; SQLite's keys have 64 bits. -/
def Readable (tables : Tables) (entry : Scored) : Prop :=
  entry.chunk.id < 2 ^ 63 ∧ ∀ row ∈ tables.chunkMeta, row.chunkId = entry.chunk.id → row.Readable locale access

end

theorem signed_of_judged {row : Meta} {fields : Dict Str Json} (body : subscript row.envelope "body" = .ok (.obj fields))
    (key : Str) : row.signed key = subscript (.obj fields) key := by
  rw [Meta.signed, body]
  rfl

theorem expired_ok {retention : Json} {now : PyFloat} {past : Bool} (read : expired locale retention now = .ok past) :
    past = !(keptUntil locale retention).all (fun limit => !limit.less now) := by
  obtain ⟨policy, policyRead, rest⟩ := Py.bind_ok.mp read
  unfold keptUntil
  by_cases named : policy = .str "until"
  · rw [if_neg (not_not.mpr named)] at rest
    obtain ⟨limit, limitRead, rest⟩ := Py.bind_ok.mp rest
    rw [policyRead, limitRead, if_pos (congrArg _ named)]
    by_cases empty : limit = .null
    · rw [if_pos empty] at rest
      subst empty
      exact (Except.ok.inj rest).symm
    · rw [if_neg empty] at rest
      obtain ⟨x, converted, made⟩ := Py.bind_ok.mp rest
      simp only [ok_bind, converted, Except.toOption, Option.all_some, Bool.not_not]
      exact (Except.ok.inj made).symm
  · rw [if_pos named] at rest
    rw [policyRead, if_neg (fun same => named (Except.ok.inj same))]
    exact (Except.ok.inj rest).symm

theorem expired_obj (entries : Dict Str Json) (now : PyFloat) : expired locale (.obj entries) now =
    if (Dict.get? entries "policy").getD .null ≠ .str "until" then .ok false
    else if (Dict.get? entries "until").getD .null = .null then .ok false
    else (toFloat locale ((Dict.get? entries "until").getD .null)).bind (fun x => .ok (x.less now)) := rfl

theorem getD_null {found : Option Json} {value : Json} (present : value ≠ .null) (same : found.getD .null = value) :
    found = some value := by
  cases found with
  | none => exact absurd same.symm present
  | some _ => exact congrArg some same

theorem expired_iff {retention : Json} {now : PyFloat} :
    (∃ past, expired locale retention now = .ok past) ↔ TimedRetention locale retention := by
  cases retention with
  | obj entries =>
    rw [expired_obj]
    constructor
    · intro ⟨past, read⟩
      refine ⟨entries, rfl, ?_⟩
      intro policy limit held present
      rw [policy, held, Option.getD_some, Option.getD_some, if_neg (not_not.mpr rfl), if_neg present] at read
      obtain ⟨x, converted, _⟩ := Py.bind_ok.mp read
      exact ⟨x, converted⟩
    · intro ⟨same, made, timed⟩
      obtain rfl := Json.obj.inj made
      by_cases policy : (Dict.get? entries "policy").getD .null = .str "until"
      · rw [if_neg (not_not.mpr policy)]
        by_cases empty : (Dict.get? entries "until").getD .null = .null
        · exact ⟨false, if_pos empty⟩
        · obtain ⟨x, converted⟩ := timed (getD_null (nomatch ·) policy) _ (getD_null empty rfl) empty
          rw [if_neg empty]
          exact ⟨_, Py.bind_ok.mpr ⟨x, converted, rfl⟩⟩
      · exact ⟨false, if_pos policy⟩
  | _ =>
    constructor
    · intro ⟨past, read⟩
      cases read
    · intro ⟨_, same, _⟩
      cases same

theorem cardOf_read {chunkId : Json} {chunk : Chunk} {row : Meta} {card : Card}
    (made : cardOf chunkId chunk row = .ok card) :
    card.redacted = row.redacted ∧ card.supersededBy = row.supersededBy ∧
      row.signed "access_policy" = .ok card.accessPolicy ∧ row.signed "retention" = .ok card.retention ∧
      ∀ key ∈ (["source", "jurisdiction", "evidence_refs", "retention"] : List Str), ∃ value, row.signed key = .ok value := by
  simp only [cardOf, bind, Py.bind_ok] at made
  obtain ⟨body, bodyRead, source, sourceRead, jurisdiction, jurisdictionRead, _, _, references, referencesRead, level,
    levelRead, retention, retentionRead, made⟩ := made
  obtain rfl := Except.ok.inj made
  have signed (key : Str) : row.signed key = subscript body key := by
    rw [Meta.signed, bodyRead]
    rfl
  refine ⟨rfl, rfl, (signed _).trans levelRead, (signed _).trans retentionRead, ?_⟩
  intro key member
  rw [signed]
  simp only [List.mem_cons, List.not_mem_nil, or_false] at member
  rcases member with rfl | rfl | rfl | rfl
  · exact ⟨_, sourceRead⟩
  · exact ⟨_, jurisdictionRead⟩
  · exact ⟨_, referencesRead⟩
  · exact ⟨_, retentionRead⟩

theorem cardOf_of_names {chunkId : Json} {chunk : Chunk} {row : Meta} (judged : Judged row.envelope)
    (names : ∀ key ∈ (["source", "jurisdiction", "evidence_refs", "retention"] : List Str),
      ∃ value, row.signed key = .ok value) : ∃ card, cardOf chunkId chunk row = .ok card := by
  obtain ⟨fields, level, confidence, body, _, levelHeld, confidenceHeld⟩ := judged
  have read (key : Str) (member : key ∈ (["source", "jurisdiction", "evidence_refs", "retention"] : List Str)) :
      ∃ value, subscript (.obj fields) key = .ok value := signed_of_judged body key ▸ names key member
  obtain ⟨source, sourceRead⟩ := read "source" (by simp)
  obtain ⟨jurisdiction, jurisdictionRead⟩ := read "jurisdiction" (by simp)
  obtain ⟨references, referencesRead⟩ := read "evidence_refs" (by simp)
  obtain ⟨retention, retentionRead⟩ := read "retention" (by simp)
  have confidenceRead : subscript (.obj fields) "confidence" = .ok confidence := by simp only [subscript, confidenceHeld]
  have levelRead : subscript (.obj fields) "access_policy" = .ok (.str level) := by simp only [subscript, levelHeld]
  simp only [cardOf, bind, Py.bind_ok]
  exact ⟨_, _, body, _, sourceRead, _, jurisdictionRead, _, confidenceRead, _, referencesRead, _, levelRead, _,
    retentionRead, rfl⟩

theorem Kept.superseded (kept : Kept tables) {row : Meta} (member : row ∈ tables.chunkMeta) :
    row.supersededBy.any (· ≠ 0) = row.supersededBy.isSome := by
  cases found : row.supersededBy with
  | none => rfl
  | some next =>
    obtain ⟨later, inside, same, _⟩ := kept.line.successor row member next found
    obtain ⟨chunk, there, id⟩ := kept.line.chunk_of_row inside
    have positive := kept.positive chunk there
    simp only [Option.any_some, Option.isSome_some, decide_eq_true_eq, ne_eq]
    omega

theorem withinAccess_of_signed {access level : Str} {row : Meta} (known : level ∈ accessLevels)
    (read : row.signed "access_policy" = .ok (.str level)) :
    WithinAccess access row = decide (accessLevels.idxOf level ≤ accessLevels.idxOf access) := by
  rw [Bool.eq_iff_iff, WithinAccess, List.any_eq_true, decide_eq_true_iff]
  simp only [read, Bool.and_eq_true, decide_eq_true_eq]
  constructor
  · intro ⟨name, _, same, low⟩
    obtain rfl := Json.str.inj (Except.ok.inj same)
    exact low
  · intro low
    exact ⟨level, known, rfl, low⟩

theorem accessRank_known {level : Str} (known : level ∈ accessLevels) :
    accessRank (.str level) = .ok (accessLevels.idxOf level) := if_pos known

theorem sift_card {access : Str} (known : access ∈ accessLevels) (kept : Kept tables) {row : Meta}
    (member : row ∈ tables.chunkMeta) {card : Card} {chunk : Chunk} {chunkId : Json}
    (made : cardOf chunkId chunk row = .ok card) (now : PyFloat) (r : Hit) :
    ∃ found : Retrieved, found.hit = r ∧ sift locale access now r (some card) =
      if row.redacted || row.supersededBy.isSome || !WithinAccess access row then .ok none
      else (expired locale card.retention now).bind (fun past => .ok (if past then none else some found)) := by
  obtain ⟨redacted, superseded, levelRead, _, _⟩ := cardOf_read made
  obtain ⟨fields, level, _, body, listed, levelHeld, _⟩ := kept.bodies row member
  have levelSigned : row.signed "access_policy" = .ok (.str level) := by
    rw [signed_of_judged body, subscript, levelHeld]
  have level_eq : card.accessPolicy = .str level := Except.ok.inj (levelRead.symm.trans levelSigned)
  rw [withinAccess_of_signed listed levelSigned]
  refine ⟨{
    hit := r, version := card.version, authorNode := card.authorNode, source := card.source,
    confidence := card.confidence, evidenceRefs := card.evidenceRefs, accessPolicy := card.accessPolicy }, rfl, ?_⟩
  change (if (card.redacted || card.supersededBy.any (· ≠ 0)) = true then _ else _) = _
  rw [redacted, superseded, kept.superseded member]
  by_cases gone : (row.redacted || row.supersededBy.isSome) = true
  · rw [if_pos gone, gone, Bool.true_or, if_pos rfl]
    rfl
  · have present : (row.redacted || row.supersededBy.isSome) = false := Bool.eq_false_iff.mpr gone
    rw [if_neg gone, present, Bool.false_or, level_eq, accessRank_known listed, accessRank_known known]
    change (if accessLevels.idxOf access < accessLevels.idxOf level then _ else _) = _
    by_cases above : accessLevels.idxOf access < accessLevels.idxOf level
    · rw [if_pos above, if_pos (by simpa using above)]
      rfl
    · rw [if_neg above, if_neg (by simpa using above)]
      cases expired locale card.retention now with
      | error e => rfl
      | ok past => cases past <;> rfl

theorem described_of_small (kept : Kept tables) {chunk : Chunk} {row : Meta} (inside : chunk ∈ tables.chunks)
    (member : row ∈ tables.chunkMeta) (same : row.chunkId = chunk.id) (small : chunk.id < 2 ^ 63) :
    described sqlite tables (.int chunk.id) = (cardOf (.int chunk.id) chunk row).bind (fun card => .ok (some card)) := by
  have positive := kept.positive chunk inside
  have bound : bindValue (.int chunk.id) = .ok (.integer chunk.id) := if_pos ⟨by omega, small⟩
  have first : tables.chunks.find? (fun other => (SqlValue.integer chunk.id).asInteger? sqlite = some other.id) = some chunk := by
    cases found : tables.chunks.find? (fun other => (SqlValue.integer chunk.id).asInteger? sqlite = some other.id) with
    | none => exact absurd (decide_eq_true rfl) (List.find?_eq_none.mp found chunk inside)
    | some other =>
      have chosen := List.find?_some found
      have hit : some chunk.id = some other.id := of_decide_eq_true chosen
      rw [kept.line.chunk_unique (List.mem_of_find?_eq_some found) inside (Option.some.inj hit).symm]
  have second : tables.chunkMeta.find? (fun other => (SqlValue.integer chunk.id).asInteger? sqlite = some other.chunkId) =
      some row := by
    cases found : tables.chunkMeta.find? (fun other => (SqlValue.integer chunk.id).asInteger? sqlite = some other.chunkId) with
    | none => exact absurd (decide_eq_true (congrArg some same.symm)) (List.find?_eq_none.mp found row member)
    | some other =>
      have chosen := List.find?_some found
      have hit : some chunk.id = some other.chunkId := of_decide_eq_true chosen
      rw [kept.line.row_unique (List.mem_of_find?_eq_some found) member ((Option.some.inj hit).symm.trans same.symm)]
  simp only [described, selectChunk, selectMeta, bound, first, second, bind, Except.bind, pure, Except.pure]

theorem described_of_large {chunkId : Int} (large : ¬chunkId < 2 ^ 63) :
    described sqlite tables (.int chunkId) = raise .overflowError := by
  have bound : bindValue (.int chunkId) = raise .overflowError := if_neg (fun fits => large fits.2)
  simp only [described, selectChunk, bound]
  rfl

section
variable {access : Str} {now : PyFloat} {r : Hit}

theorem eligible_of_row (kept : Kept tables) {row : Meta} (member : row ∈ tables.chunkMeta)
    (same : row.chunkId = r.entry.chunk.id) : Eligible locale access now tables r.entry = row.Eligible locale access now := by
  rw [Bool.eq_iff_iff, Eligible, List.any_eq_true]
  constructor
  · intro ⟨other, inside, both⟩
    simp only [Bool.and_eq_true, decide_eq_true_eq] at both
    rw [kept.line.row_unique member inside (same.trans both.1.symm)]
    exact both.2
  · intro good
    exact ⟨row, member, by simp [same, good]⟩

theorem judgement_eligible (known : access ∈ accessLevels) (kept : Kept tables) (inside : r.entry.chunk ∈ tables.chunks)
    {result : Option Retrieved} (made : judgement locale sqlite tables access now r = .ok result) :
    result.isSome = Eligible locale access now tables r.entry := by
  obtain ⟨row, member, same⟩ := kept.line.row_of_chunk inside
  rw [eligible_of_row kept member same]
  by_cases small : r.entry.chunk.id < 2 ^ 63
  · rw [judgement, described_of_small kept inside member same small] at made
    obtain ⟨card, carded, sifted⟩ := Py.bind_ok.mp made
    obtain ⟨held, read, wrapped⟩ := Py.bind_ok.mp carded
    obtain rfl := Except.ok.inj wrapped
    obtain ⟨found, _, outcome⟩ := @sift_card locale tables access known kept row member held _ _ read now r
    rw [outcome] at sifted
    obtain ⟨_, _, _, retentionRead, _⟩ := cardOf_read read
    have unexpired : Unexpired locale now row = (keptUntil locale held.retention).all (fun limit => !limit.less now) := by
      rw [Unexpired, retentionRead]
      rfl
    unfold Meta.Eligible
    rw [unexpired]
    by_cases gone : (row.redacted || row.supersededBy.isSome || !WithinAccess access row) = true
    · rw [if_pos gone] at sifted
      obtain rfl := Except.ok.inj sifted
      simp only [Bool.or_eq_true, Bool.not_eq_true'] at gone
      rcases gone with (redacted | superseded) | outside
      · rw [redacted]
        rfl
      · rw [← Option.not_isSome, superseded, Bool.not_true, Bool.and_false]
        rfl
      · rw [outside, Bool.and_false]
        rfl
    · rw [if_neg gone] at sifted
      obtain ⟨past, tested, judged⟩ := Py.bind_ok.mp sifted
      obtain rfl := Except.ok.inj judged
      have meaning := expired_ok tested
      simp only [Bool.or_eq_true, Bool.not_eq_true', not_or, Bool.not_eq_true, Bool.not_eq_false] at gone
      obtain ⟨⟨present, alone⟩, within⟩ := gone
      rw [present, within, ← Option.not_isSome, alone, meaning]
      cases (keptUntil locale held.retention).all (fun limit => !limit.less now) <;> rfl
  · rw [judgement, described_of_large small] at made
    cases made

theorem judgement_iff (known : access ∈ accessLevels) (kept : Kept tables) (inside : r.entry.chunk ∈ tables.chunks) :
    (∃ result, judgement locale sqlite tables access now r = .ok result) ↔ Readable locale access tables r.entry := by
  obtain ⟨row, member, same⟩ := kept.line.row_of_chunk inside
  have alone : (∀ other ∈ tables.chunkMeta, other.chunkId = r.entry.chunk.id → other.Readable locale access) ↔
      row.Readable locale access := by
    constructor
    · exact fun all => all row member same
    · intro good other there named
      rw [kept.line.row_unique there member (named.trans same.symm)]
      exact good
  unfold Readable
  rw [alone]
  by_cases small : r.entry.chunk.id < 2 ^ 63
  · unfold judgement
    rw [described_of_small kept inside member same small]
    constructor
    · intro ⟨result, made⟩
      obtain ⟨card, carded, sifted⟩ := Py.bind_ok.mp made
      obtain ⟨held, read, wrapped⟩ := Py.bind_ok.mp carded
      obtain rfl := Except.ok.inj wrapped
      obtain ⟨found, _, outcome⟩ := @sift_card locale tables access known kept row member held _ _ read now r
      obtain ⟨_, _, _, retentionRead, names⟩ := cardOf_read read
      refine ⟨small, names, ?_⟩
      intro present single within retention signed
      obtain rfl := Except.ok.inj (retentionRead.symm.trans signed)
      rw [outcome, present, single, within] at sifted
      obtain ⟨past, tested, _⟩ := Py.bind_ok.mp sifted
      exact expired_iff.mp ⟨past, tested⟩
    · intro ⟨_, good⟩
      obtain ⟨card, read⟩ := @cardOf_of_names (.int r.entry.chunk.id) r.entry.chunk row (kept.bodies row member) good.names
      obtain ⟨found, _, outcome⟩ := @sift_card locale tables access known kept row member card _ _ read now r
      obtain ⟨_, _, _, retentionRead, _⟩ := cardOf_read read
      rw [read]
      change ∃ result, sift locale access now r (some card) = .ok result
      rw [outcome]
      by_cases gone : (row.redacted || row.supersededBy.isSome || !WithinAccess access row) = true
      · exact ⟨none, if_pos gone⟩
      · rw [if_neg gone]
        simp only [Bool.or_eq_true, Bool.not_eq_true', not_or, Bool.not_eq_true, Bool.not_eq_false] at gone
        obtain ⟨⟨present, single⟩, within⟩ := gone
        have timed := good.timed present (Option.not_isSome_iff_eq_none.mp (ne_true_of_eq_false single)) within _ retentionRead
        obtain ⟨past, tested⟩ := (@expired_iff locale card.retention now).mpr timed
        exact ⟨_, Py.bind_ok.mpr ⟨past, tested, rfl⟩⟩
  · constructor
    · intro ⟨result, made⟩
      rw [judgement, described_of_large small] at made
      cases made
    · exact fun good => absurd good.1 small

end

theorem sift_hit {access : Str} {now : PyFloat} {r : Hit} {card : Option Card} {found : Retrieved}
    (made : sift locale access now r card = .ok (some found)) : found.hit = r := by
  cases card with
  | none => cases made
  | some card =>
    change (if (card.redacted || card.supersededBy.any (· ≠ 0)) = true then _ else _) = _ at made
    split at made
    · cases made
    · obtain ⟨level, _, rest⟩ := Py.bind_ok.mp made
      obtain ⟨allowed, _, rest⟩ := Py.bind_ok.mp rest
      split at rest
      · cases rest
      · obtain ⟨past, _, rest⟩ := Py.bind_ok.mp rest
        cases past with
        | true => cases rest
        | false =>
          obtain rfl := Option.some.inj (Except.ok.inj rest)
          rfl

theorem reads_governed (kept : Kept tables) {ns : Str} {bytes : Bytes} (encoded : encode ns = .ok bytes) (query : Str)
    {k : Nat} (positive : 0 < k) {access : Str} (known : access ∈ accessLevels)
    (free : checkNamespaceFree (.str ns) "retrieve" = .ok ()) (now : PyFloat) :
    ∃ raw : List Hit, raw.map Hit.entry = (ranking locale tables ns query).take (k * 4) ∧
      Reads (governedRetrieve locale crypto sqlite ns query k access now) tables
        (search (judgement locale sqlite tables access now) k raw) := by
  obtain ⟨raw, read, mapped⟩ := @reads_retrieve locale crypto sqlite tables kept ns bytes encoded query (k * 4)
  refine ⟨raw, mapped, ?_⟩
  unfold governedRetrieve
  rw [if_neg (not_not.mpr known), if_neg (Nat.ne_of_gt positive)]
  exact Reads.bind (reads_attempt free) (Reads.bind read (reads_gather access now k raw))

theorem mem_ranking {ns query : Str} {n : Nat} {raw : List Hit}
    (mapped : raw.map Hit.entry = (ranking locale tables ns query).take n) {r : Hit} (member : r ∈ raw) :
    r.entry.chunk ∈ tables.chunks := by
  have among : r.entry ∈ (ranking locale tables ns query).take n := mapped ▸ List.mem_map_of_mem member
  exact (mem_candidates ((List.perm_insertionSort _ _).mem_iff.mp (List.mem_of_mem_take among))).1

theorem search_best {ns query : Str} {n k : Nat} {raw : List Hit} {access : Str} {now : PyFloat} (kept : Kept tables)
    (mapped : raw.map Hit.entry = (ranking locale tables ns query).take n) (positive : 0 < k)
    (known : access ∈ accessLevels) (readable : Tested (Eligible locale access now tables) k
      ((ranking locale tables ns query).take n) (Readable locale access tables)) :
    ∃ out, search (judgement locale sqlite tables access now) k raw = .ok out ∧
      out.map (fun found => found.hit.entry) =
        ((((ranking locale tables ns query).take n).filter (Eligible locale access now tables)).take k) := by
  rw [← mapped] at readable
  have judges : ∀ r ∈ raw, ∀ result, judgement locale sqlite tables access now r = .ok result →
      result.isSome = Eligible locale access now tables r.entry :=
    fun r member result made => judgement_eligible known kept (mem_ranking mapped member) made
  have tested : Tested (fun r : Hit => Eligible locale access now tables r.entry) k raw
      (fun r => ∃ result, judgement locale sqlite tables access now r = .ok result) :=
    (tested_map.mp readable).imp (fun r member => (judgement_iff known kept (mem_ranking mapped member)).mpr)
  obtain ⟨out, found, pairs⟩ := search_ok judges positive tested
  refine ⟨out, found, ?_⟩
  have hits : out.map Retrieved.hit = (raw.filter (fun r => Eligible locale access now tables r.entry)).take k := by
    clear found
    generalize (raw.filter (fun r => Eligible locale access now tables r.entry)).take k = taken at pairs ⊢
    induction pairs with
    | nil => rfl
    | cons made _ ih =>
      obtain ⟨card, _, sifted⟩ := Py.bind_ok.mp made
      rw [List.map_cons, sift_hit sifted, ih]
  have entries : out.map (fun found => found.hit.entry) = (out.map Retrieved.hit).map Hit.entry := by
    rw [List.map_map]
    rfl
  rw [entries, hits, ← mapped, List.filter_map, ← List.map_take]
  rfl

variable (locale crypto sqlite) in
/-- Retrieval returns, with the first `k` of the eligible chunks in the order of the ranking. -/
def ReturnsBest (db : Connection Tables PyErr) (ns query : Str) (k : Nat) (access : Str) (now : PyFloat) : Prop :=
  ∃ out, (governedRetrieve locale crypto sqlite ns query k access now db).1 = .ok out ∧
    out.map (fun found => found.hit.entry) = bestEligible locale access now db.current ns query k

variable (locale) in
/-- A request that is let through, among whose first `4 * k` candidates stand the first `k`
eligible ones, and none with a card that cannot be read is met before these. -/
structure Retrievable (tables : Tables) (ns query : Str) (k : Nat) (access : Str) (now : PyFloat) : Prop where
  known : access ∈ accessLevels
  free : checkNamespaceFree (.str ns) "retrieve" = .ok ()
  encodes : ∃ bytes, encode ns = .ok bytes
  within : Within (Eligible locale access now tables) k (k * 4) (ranking locale tables ns query)
  readable : Tested (Eligible locale access now tables) k ((ranking locale tables ns query).take (k * 4))
    (Readable locale access tables)

theorem bestEligible_ranking (line : Lineage tables) (ns query : Str) (k : Nat) (access : Str) (now : PyFloat) :
    bestEligible locale access now tables ns query k =
      ((ranking locale tables ns query).filter (Eligible locale access now tables)).take k := by
  rw [bestEligible, ranking, filter_insertionSort Scored.Before (before_apart line)]

theorem returnsBest_iff (kept : Kept tables) {db : Connection Tables PyErr} (held : db.current = tables)
    (quiet : db.faults = []) (ns query : Str) {k : Nat} (positive : 0 < k) (access : Str) (now : PyFloat) :
    ReturnsBest locale crypto sqlite db ns query k access now ↔ Retrievable locale tables ns query k access now := by
  unfold ReturnsBest
  rw [held, bestEligible_ranking kept.line]
  constructor
  · intro ⟨out, made, best⟩
    have known : access ∈ accessLevels := by
      by_contra unknown
      rw [governedRetrieve, if_pos unknown] at made
      cases made
    have free : checkNamespaceFree (.str ns) "retrieve" = .ok () := by
      rw [governedRetrieve, if_neg (not_not.mpr known)] at made
      cases checked : checkNamespaceFree (.str ns) "retrieve" with
      | ok _ => rfl
      | error e =>
        rw [Reads.bind_error (reads_attempt checked) db held quiet] at made
        cases made
    have encodes : ∃ bytes, encode ns = .ok bytes := by
      rw [governedRetrieve, if_neg (not_not.mpr known)] at made
      cases encoded : encode ns with
      | ok bytes => exact ⟨bytes, rfl⟩
      | error e =>
        have unbound : bindValue (.str ns) = .error e := by simp only [bindValue, encoded, bind, Except.bind]
        have selected : selectTexts sqlite ns tables = .error e := by simp only [selectTexts, unbound, bind, Except.bind]
        have failed : Reads (retrieve locale crypto sqlite ns query (if k = 0 then 12 else k * 4)) tables (.error e) :=
          Reads.bind_error (reads_query selected)
        rw [Reads.bind (reads_attempt free) (Reads.bind_error failed) db held quiet] at made
        cases made
    obtain ⟨bytes, encoded⟩ := encodes
    obtain ⟨raw, mapped, read⟩ := @reads_governed locale crypto sqlite tables kept ns bytes encoded query k positive access
      known free now
    rw [read db held quiet] at made
    have judges : ∀ r ∈ raw, ∀ result, judgement locale sqlite tables access now r = .ok result →
        result.isSome = Eligible locale access now tables r.entry :=
      fun r member result answered => judgement_eligible known kept (mem_ranking mapped member) answered
    have readable : Tested (Eligible locale access now tables) k ((ranking locale tables ns query).take (k * 4))
        (Readable locale access tables) := by
      rw [← mapped, tested_map]
      exact (tested_of_search judges made).imp
        (fun r member => (judgement_iff known kept (mem_ranking mapped member)).mp)
    refine ⟨known, free, ⟨bytes, encoded⟩, ?_, readable⟩
    obtain ⟨again, reached, entries⟩ := @search_best locale sqlite tables ns query (k * 4) k raw access now kept mapped
      positive known readable
    obtain rfl := Except.ok.inj (made.symm.trans reached)
    exact within_of_length (congrArg List.length (entries.symm.trans best))
  · intro request
    obtain ⟨bytes, encoded⟩ := request.encodes
    obtain ⟨raw, mapped, read⟩ := @reads_governed locale crypto sqlite tables kept ns bytes encoded query k positive access
      request.known request.free now
    obtain ⟨out, found, entries⟩ := @search_best locale sqlite tables ns query (k * 4) k raw access now kept mapped
      positive request.known request.readable
    refine ⟨out, ?_, entries.trans (take_filter_take request.within)⟩
    rw [read db held quiet]
    exact found

variable (locale crypto sqlite) in
/-- After every run of grants, revocations and writes, retrieval returns the best of the
eligible chunks exactly when they stand within what it prefetches and nothing on the way
to them has a card that cannot be read. -/
theorem retrieves_best_iff {W : Type} (chain : Witness W) (witness : Option W) (governorNode : Json) (moves : List Move)
    (ns query : Str) {k : Nat} (positive : 0 < k) (access : Str) (now : PyFloat) :
    let plane := Run.run (PlaneH.move crypto sqlite chain) (PlaneH.created witness governorNode) moves
    ReturnsBest locale crypto sqlite { plane.db with faults := [] } ns query k access now ↔
      Retrievable locale plane.db.current ns query k access now := by
  obtain ⟨closed, kept⟩ := @kept_run crypto sqlite W chain witness governorNode moves
  exact returnsBest_iff (closed ▸ kept) rfl rfl ns query positive access now

theorem returnsBest_entries {db : Connection Tables PyErr} {ns query : Str} {k : Nat} {access : Str} {now : PyFloat} :
    ReturnsBest locale crypto sqlite db ns query k access now ↔
      (governedRetrieve locale crypto sqlite ns query k access now db).1.toOption.map
        (fun out => out.map (fun found => found.hit.entry)) = some (bestEligible locale access now db.current ns query k) := by
  unfold ReturnsBest
  cases (governedRetrieve locale crypto sqlite ns query k access now db).1 with
  | error e => simp [Except.toOption]
  | ok out => simp [Except.toOption]

instance (db : Connection Tables PyErr) (ns query : Str) (k : Nat) (access : Str) (now : PyFloat) :
    Decidable (ReturnsBest locale crypto sqlite db ns query k access now) :=
  decidable_of_iff _ returnsBest_entries.symm

/-- Python's tables for the letters, digits and the underscore of ASCII. -/
def Locale.sample : Locale where
  lower text := text.map (fun c => if 65 ≤ c.val ∧ c.val ≤ 90 then codePoint (c.val + 32) else c)
  word c := (97 ≤ c.val && c.val ≤ 122) || (65 ≤ c.val && c.val ≤ 90) || (48 ≤ c.val && c.val ≤ 57) || c.val = 95
  spelled _ := none

def Sqlite.sample : Sqlite where
  integerText _ := none
  realText _ := []

def notePublicKey : Bytes := Crypto.sample.publicKey (SigningKey.sample 7).seed

def noteBody (retention : Json) : Json :=
  .obj [("kind", .str "RAG_WRITE_PROPOSAL"), ("op", .str "add"), ("ns", .str "lab"), ("doc_id", .str "notes"),
    ("content_hash", .str (H_hex Crypto.sample (ascii "red note"))), ("target_chunk", .null),
    ("source", .obj [("type", .str "unspecified")]), ("jurisdiction", .str "UA"), ("confidence", .int 1),
    ("evidence_refs", .arr []), ("access_policy", .str "public"), ("retention", retention),
    ("author_node", .str (canonicalNodeId Crypto.sample notePublicKey)), ("author_being", .null), ("created_at", .int 1)]

def noteEnvelope (retention : Json) : Json :=
  let payload := match canonical (noteBody retention) with
    | .ok text => proposalDomain ++ text
    | .error _ => []
  .obj [("body", noteBody retention), ("pub", .str (toHex notePublicKey)),
    ("sig", .str (toHex (Crypto.sample.sign (SigningKey.sample 7).seed payload)))]

/-- A grant to the author, and the note written under it. -/
def noteMoves (retention : Json) : List Move :=
  [.grant "lab" (.str (canonicalNodeId Crypto.sample notePublicKey)) ops,
    .apply (noteEnvelope retention) (some "red note") []]

def indefinite : Json := .obj [("policy", .str "indefinite"), ("until", .null)]

def untilDate : Json := .obj [("policy", .str "until"), ("until", .str "2027-01-01")]

/-- A note that is kept without an end can be retrieved. -/
theorem retrieves_best_iff_note :
    Retrievable Locale.sample (Run.run (PlaneH.move Crypto.sample Sqlite.sample (chainWitness Crypto.sample))
      (PlaneH.created none .null) (noteMoves indefinite)).db.current "lab" "a red flag" 1 "public" .zero := by
  have found : ReturnsBest Locale.sample Crypto.sample Sqlite.sample
      { (Run.run (PlaneH.move Crypto.sample Sqlite.sample (chainWitness Crypto.sample))
        (PlaneH.created none .null) (noteMoves indefinite)).db with faults := [] } "lab" "a red flag" 1 "public" .zero := by
    decide +kernel
  exact (retrieves_best_iff Locale.sample Crypto.sample Sqlite.sample (chainWitness Crypto.sample) none .null
    (noteMoves indefinite) "lab" "a red flag" (show 0 < 1 by decide) "public" .zero).mp found

/-- A note that is kept until a date in text stops every retrieval that meets it. -/
theorem dated_note_raises :
    let plane := Run.run (PlaneH.move Crypto.sample Sqlite.sample (chainWitness Crypto.sample))
      (PlaneH.created none .null) (noteMoves untilDate)
    plane.db.current.chunks.length = 1 ∧
      ¬ReturnsBest Locale.sample Crypto.sample Sqlite.sample { plane.db with faults := [] } "lab" "a red flag" 1 "public"
        .zero := by
  decide +kernel

end JJDai.Knowledge
