import JJDai.Release.Publication

/-! The debt gate beside what it stands for: nothing that was opened under the boundary is open
still. -/

namespace JJDai.Release

open PyText Canonical

def idOf (event : Json) : Json := (subscript event "id").toOption.getD .null

def seqOf (event : Json) : Int :=
  match subscript event "seq" with
  | .ok (.int n) => n
  | _ => 0

def blocksBy (event : Json) : Json := (dotGet event "blocks").toOption.getD .null

/-- The events of the position of an event, in the order of the list. -/
def history (events : List Json) (event : Json) : List Json :=
  Grouping.alike Json.comparisonKey idOf (idOf event) events

/-- The events carry integers that tell those of one position apart. -/
structure Sequenced (events : List Json) : Prop where
  integer : ∀ event ∈ events, ∃ n, subscript event "seq" = .ok (.int n)
  distinct : events.Pairwise (fun a b => Json.pyEq (idOf a) (idOf b) → seqOf a ≠ seqOf b)

def Opening (event : Json) : Prop := dotGet event "event" = .ok (.str debtOpened)

def Refers (event : Json) (field : Str) : Prop := ∃ ref, dotGet event field = .ok ref ∧ truthy ref = true

/-- An event settles a position, with its reference. -/
def Settles (event : Json) : Prop :=
  dotGet event "event" = .ok (.str "DEBT_CLOSED") ∧ Refers event "evidence_ref" ∨
    dotGet event "event" = .ok (.str "DEBT_CANCELLED") ∧ Refers event "decision_ref"

/-- The position of an event was opened by it, and one later event settled it. -/
def Settled (events : List Json) (opening : Json) : Prop :=
  ∃ closing, (history events opening).Perm [opening, closing] ∧ seqOf opening < seqOf closing ∧ Settles closing

theorem debtKind_ok {event : Json} {kind : Str} :
    debtKind event = .ok kind ↔ dotGet event "event" = .ok (.str kind) ∧ kind ∈ debtEvents := by
  cases event with
  | obj fields =>
    simp only [debtKind, dotGet, Except.ok.injEq]
    generalize (Dict.get? fields "event").getD .null = named
    cases named with
    | str other =>
      by_cases known : other ∈ debtEvents
      · simp only [if_pos known, pure, Except.pure, Except.ok.injEq, Json.str.injEq]
        exact ⟨fun same => ⟨same, same ▸ known⟩, fun both => both.1⟩
      · simp only [if_neg known, raise, Json.str.injEq, reduceCtorEq, false_iff]
        rintro ⟨rfl, again⟩
        exact known again
    | _ => simp [raise]
  | _ => simp [debtKind, dotGet, raise]

def settledAs (kind : Str) : Str := if kind = "DEBT_CLOSED" then "closed" else "cancelled"

def referenceField (kind : Str) : Str := if kind = "DEBT_CLOSED" then "evidence_ref" else "decision_ref"

theorem settledAs_ne (kind : Str) : settledAs kind ≠ debtOpen := by
  unfold settledAs
  split <;> decide

theorem settles_iff {event : Json} : Settles event ↔
    ∃ kind, (dotGet event "event" = .ok (.str kind) ∧ kind ∈ debtEvents) ∧ kind ≠ debtOpened ∧
      Refers event (referenceField kind) := by
  have closed : referenceField "DEBT_CLOSED" = "evidence_ref" := rfl
  have cancelled : referenceField "DEBT_CANCELLED" = "decision_ref" := rfl
  constructor
  · rintro (⟨named, refers⟩ | ⟨named, refers⟩)
    · exact ⟨_, ⟨named, by decide⟩, by decide, closed ▸ refers⟩
    · exact ⟨_, ⟨named, by decide⟩, by decide, cancelled ▸ refers⟩
  · rintro ⟨kind, ⟨named, known⟩, later, refers⟩
    simp only [debtEvents, List.mem_cons, List.not_mem_nil, or_false] at known
    rcases known with rfl | rfl | rfl
    · exact absurd rfl later
    · exact .inl ⟨named, refers⟩
    · exact .inr ⟨named, refers⟩

theorem projectLater_closed {state out : Str} {rest : List Json} (done : state ≠ debtOpen) :
    projectLater state rest = .ok out ↔ rest = [] ∧ state = out := by
  cases rest with
  | nil => simp [projectLater, pure, Except.pure]
  | cons ev rest =>
    simp only [projectLater, bind, Py.bind_ok, if_pos done, reduceCtorEq, false_and, iff_false]
    rintro ⟨kind, _, _, failed, _⟩
    cases failed

theorem projectLater_open {out : Str} {rest : List Json} :
    projectLater debtOpen rest = .ok out ↔
      rest = [] ∧ debtOpen = out ∨ ∃ closing, rest = [closing] ∧ Settles closing ∧ out ≠ debtOpen ∧
        ∃ kind, dotGet closing "event" = .ok (.str kind) ∧ settledAs kind = out := by
  cases rest with
  | nil => simp [projectLater, pure, Except.pure]
  | cons ev rest =>
    simp only [projectLater, bind, Py.bind_ok, debtKind_ok, ne_eq, not_true_eq_false, if_false, Py.unless_ok]
    constructor
    · rintro ⟨kind, known, later, ref, read, some_ref, after⟩
      obtain ⟨rfl, rfl⟩ := (projectLater_closed (settledAs_ne kind)).mp after
      exact .inr ⟨ev, rfl, settles_iff.mpr ⟨kind, known, later, ref, read, by simpa using some_ref⟩, settledAs_ne kind,
        kind, known.1, rfl⟩
    · rintro (⟨absurd, _⟩ | ⟨closing, shape, settles, _, kind, named, rfl⟩)
      · cases absurd
      · obtain ⟨rfl, rfl⟩ := List.cons.inj shape
        obtain ⟨other, known, later, ref, read, some_ref⟩ := settles_iff.mp settles
        obtain rfl : kind = other := Json.str.inj (Except.ok.inj (named.symm.trans known.1))
        exact ⟨kind, known, later, ref, read, by simpa using some_ref, (projectLater_closed (settledAs_ne kind)).mpr ⟨rfl, rfl⟩⟩

theorem projectDebt_ok {sorted : List Json} {state : Str} :
    projectDebt sorted = .ok state ↔ ∃ opening, Opening opening ∧
      (sorted = [opening] ∧ debtOpen = state ∨ ∃ closing, sorted = [opening, closing] ∧ Settles closing ∧ state ≠ debtOpen ∧
        ∃ kind, dotGet closing "event" = .ok (.str kind) ∧ settledAs kind = state) := by
  cases sorted with
  | nil => simp [projectDebt, raise]
  | cons first rest =>
    simp only [projectDebt, bind, Py.bind_ok, debtKind_ok, ne_eq, Py.unless_ok, projectLater_open]
    constructor
    · rintro ⟨kind, ⟨named, _⟩, opens, result⟩
      refine ⟨first, named.trans (by rw [not_not.mp opens]), ?_⟩
      rcases result with ⟨rfl, rfl⟩ | ⟨closing, rfl, settles⟩
      · exact .inl ⟨rfl, rfl⟩
      · exact .inr ⟨closing, rfl, settles⟩
    · rintro ⟨opening, opens, result⟩
      rcases result with ⟨shape, rfl⟩ | ⟨closing, shape, settles⟩
      · obtain ⟨rfl, rfl⟩ := List.cons.inj shape
        exact ⟨_, ⟨opens, by decide⟩, not_not.mpr rfl, .inl ⟨rfl, rfl⟩⟩
      · obtain ⟨rfl, rfl⟩ := List.cons.inj shape
        exact ⟨_, ⟨opens, by decide⟩, not_not.mpr rfl, .inr ⟨closing, rfl, settles⟩⟩

theorem insertItem_int {number : α → Int} {item : Json × α} {items : List (Json × α)}
    (first : item.1 = .int (number item.2)) (keyed : ∀ entry ∈ items, entry.1 = .int (number entry.2))
    (ordered : items.Pairwise (fun a b => number a.2 ≤ number b.2)) :
    ∃ out, insertItem item items = .ok out ∧ out.Perm (item :: items) ∧
      out.Pairwise (fun a b => number a.2 ≤ number b.2) := by
  induction items with
  | nil => exact ⟨[item], rfl, .refl _, List.pairwise_singleton _ _⟩
  | cons head rest ih =>
    obtain ⟨below, later⟩ := List.pairwise_cons.mp ordered
    have less : pyLess item.1 head.1 = .ok (decide (number item.2 < number head.2)) := by
      rw [first, keyed head List.mem_cons_self]
      rfl
    simp only [insertItem, bind, less, ok_bind, decide_eq_true_eq]
    by_cases before : number item.2 < number head.2
    · rw [if_pos before]
      refine ⟨_, rfl, .refl _, List.pairwise_cons.mpr ⟨?_, ordered⟩⟩
      intro entry member
      rcases List.mem_cons.mp member with rfl | among
      · exact before.le
      · exact before.le.trans (below entry among)
    · rw [if_neg before]
      obtain ⟨out, inserted, perm, sorted⟩ := ih (fun entry member => keyed entry (List.mem_cons_of_mem _ member)) later
      refine ⟨head :: out, by rw [inserted]; rfl, (perm.cons head).trans (.swap item head rest), ?_⟩
      refine List.pairwise_cons.mpr ⟨?_, sorted⟩
      intro entry member
      rcases List.mem_cons.mp (perm.mem_iff.mp member) with rfl | among
      · exact not_lt.mp before
      · exact below entry among

theorem pySort_int {number : α → Int} {items : List (Json × α)} (keyed : ∀ entry ∈ items, entry.1 = .int (number entry.2)) :
    ∃ sorted, pySort items = .ok sorted ∧ sorted.Perm (items.map Prod.snd) ∧
      sorted.Pairwise (fun a b => number a ≤ number b) := by
  have step (front : List (Json × α)) (here : ∀ entry ∈ front, entry.1 = .int (number entry.2))
      (ordered : front.Pairwise (fun a b => number a.2 ≤ number b.2)) :
      ∃ out, items.foldlM (fun sorted item => insertItem item sorted) front = .ok out ∧ out.Perm (front ++ items) ∧
        out.Pairwise (fun a b => number a.2 ≤ number b.2) := by
    induction items generalizing front with
    | nil => exact ⟨front, rfl, by simp, ordered⟩
    | cons item rest ih =>
      obtain ⟨middle, inserted, perm, sorted⟩ := insertItem_int (keyed item List.mem_cons_self) here ordered
      have own : ∀ entry ∈ middle, entry.1 = .int (number entry.2) := by
        intro entry member
        rcases List.mem_cons.mp (perm.mem_iff.mp member) with rfl | among
        · exact keyed _ List.mem_cons_self
        · exact here entry among
      obtain ⟨out, folded, all, final⟩ := ih (fun entry member => keyed entry (List.mem_cons_of_mem _ member)) middle own sorted
      refine ⟨out, ?_, ?_, final⟩
      · rw [List.foldlM_cons, inserted]
        exact folded
      · exact all.trans ((perm.append_right rest).trans List.perm_middle.symm)
  obtain ⟨out, folded, perm, sorted⟩ := step [] (by simp) .nil
  refine ⟨out.map Prod.snd, ?_, perm.map Prod.snd, List.pairwise_map.mpr sorted⟩
  simp only [pySort, bind, folded, ok_bind, pure, Except.pure]

/-- The events that a status document lists. -/
def ledgerEvents (status : Json) : Py (List Json) := do
  let ledger ← subscript status "release_debt"
  pyList (← subscript ledger "events")

/-- An event that can be filed: it has a position, and opens no unknown boundary. -/
structure Filed (event : Json) : Prop where
  object : ∃ fields, event = .obj fields
  known : dotGet event "event" = .ok (.str debtOpened) → blocksBy event ∈ debtBoundaries.map Json.str
  id : subscript event "id" = .ok (idOf event)
  hashable : hashable (idOf event) = true

theorem idOf_of_read {event id : Json} (read : subscript event "id" = .ok id) : idOf event = id := by
  rw [idOf, read]
  rfl

theorem eventsByPosition_ok {events : List Json} {positions out : List (Json × List Json)} :
    eventsByPosition positions events = .ok out ↔
      (∀ event ∈ events, Filed event) ∧ events.foldl (Grouping.collect Json.comparisonKey idOf) positions = out := by
  induction events generalizing positions with
  | nil => simp [eventsByPosition, pure, Except.pure]
  | cons event rest ih =>
    rw [List.forall_mem_cons, List.foldl_cons]
    cases event with
    | obj fields =>
      unfold eventsByPosition
      simp only [dotGet, bind, ok_bind, Py.unless_ok, Py.bind_ok, pyLookup_ok, pyStore_ok, ih]
      constructor
      · rintro ⟨known, id, read, _, ⟨hashed, rfl⟩, _, ⟨_, rfl⟩, filed, folded⟩
        obtain rfl := idOf_of_read read
        refine ⟨⟨⟨⟨fields, rfl⟩, ?_, read, hashed⟩, filed⟩, folded⟩
        intro opens
        by_contra unknown
        exact known ⟨Except.ok.inj opens, unknown⟩
      · rintro ⟨⟨filed, others⟩, folded⟩
        exact ⟨fun both => both.2 (filed.known (congrArg Except.ok both.1)), _, filed.id, _, ⟨filed.hashable, rfl⟩, _,
          ⟨filed.hashable, rfl⟩, others, folded⟩
    | _ =>
      constructor
      · intro filed
        cases filed
      · rintro ⟨⟨⟨⟨fields, shape⟩, _, _, _⟩, _⟩, _⟩
        cases shape

theorem blocksOf_ok {events : List Json} (filed : ∀ event ∈ events, Filed event) (blocks : List (Json × Json)) :
    blocksOf blocks events =
      .ok (events.foldl (fun d event => Grouping.store Json.comparisonKey (idOf event) (blocksBy event) d) blocks) := by
  induction events generalizing blocks with
  | nil => rfl
  | cons event rest ih =>
    obtain ⟨⟨⟨fields, shape⟩, _, read, hashed⟩, others⟩ := List.forall_mem_cons.mp filed
    have boundary : dotGet event "blocks" = .ok (blocksBy event) := by
      rw [shape]
      rfl
    simp only [blocksOf, bind, read, boundary, ok_bind, pyStore_ok.mpr ⟨hashed, rfl⟩]
    exact ih others _

/-- The history of a position projects: it was opened, and at most settled after that. -/
def Projects (events : List Json) (event : Json) (state : Str) : Prop :=
  ∃ sorted, sorted.Perm (history events event) ∧ sorted.Pairwise (fun a b => seqOf a < seqOf b) ∧
    projectDebt sorted = .ok state

theorem Sequenced.history {events : List Json} (sequenced : Sequenced events) (event : Json) :
    (history events event).Pairwise (fun a b => seqOf a ≠ seqOf b) := by
  have apart := (sequenced.distinct.filter (fun other => Json.comparisonKey (idOf other) = Json.comparisonKey (idOf event)))
  refine List.Pairwise.imp_of_mem ?_ apart
  intro a b first second differ
  have here : Json.comparisonKey (idOf a) = Json.comparisonKey (idOf event) := by simpa using (List.mem_filter.mp first).2
  have there : Json.comparisonKey (idOf b) = Json.comparisonKey (idOf event) := by simpa using (List.mem_filter.mp second).2
  exact differ (here.trans there.symm)

theorem pySort_history {events : List Json} (sequenced : Sequenced events) (event : Json) :
    ∃ sorted, ((history events event).mapM (fun event => do
        let seq ← subscript event "seq"
        return (seq, event)) : Py _).bind pySort = .ok sorted ∧
      sorted.Perm (history events event) ∧ sorted.Pairwise (fun a b => seqOf a < seqOf b) := by
  have keyed : (history events event).mapM (fun event => do
      let seq ← subscript event "seq"
      return (seq, event)) = (.ok ((history events event).map (fun event => (Json.int (seqOf event), event))) : Py _) := by
    apply mapM_ok_map
    intro other member
    obtain ⟨n, read⟩ := sequenced.integer other (List.mem_of_mem_filter member)
    simp only [seqOf, read, bind, ok_bind, pure, Except.pure]
  have numbers : ∀ entry ∈ (history events event).map (fun event => (Json.int (seqOf event), event)),
      entry.1 = .int (seqOf entry.2) := by
    intro entry member
    obtain ⟨other, _, rfl⟩ := List.mem_map.mp member
    rfl
  obtain ⟨sorted, made, perm, ordered⟩ := pySort_int numbers
  have perm : sorted.Perm (history events event) := by simpa [List.map_map, Function.comp_def] using perm
  have apart := perm.symm.pairwise (sequenced.history event) (fun differ same => differ same.symm)
  refine ⟨sorted, by rw [keyed]; exact made, perm, ?_⟩
  exact (ordered.and apart).imp (fun both => lt_of_le_of_ne both.1 both.2)

theorem eq_of_ordered {first second : List Json} (perm : first.Perm second)
    (ordered : first.Pairwise (fun a b => seqOf a < seqOf b)) (ordered' : second.Pairwise (fun a b => seqOf a < seqOf b)) :
    first = second :=
  List.Perm.eq_of_pairwise (fun _ _ _ _ below above => absurd below (lt_asymm above)) ordered ordered' perm

/-- The comprehension of `load_debt_ledger`, for one position. -/
def projectEntry (entry : Json × List Json) : Py (Json × Str) := do
  let keyed ← entry.2.mapM (fun event => do
    let seq ← subscript event "seq"
    return (seq, event))
  let sorted ← pySort keyed
  let state ← projectDebt sorted
  return (entry.1, state)

theorem projectEntry_ok {events : List Json} (sequenced : Sequenced events) {event : Json} {entry : Json × List Json}
    (own : entry.2 = history events event) {out : Json × Str} :
    projectEntry entry = .ok out ↔ out.1 = entry.1 ∧ Projects events event out.2 := by
  obtain ⟨sorted, made, perm, ordered⟩ := pySort_history sequenced event
  obtain ⟨keyed, read, sorts⟩ := Py.bind_ok.mp made
  have run : projectEntry entry = (projectDebt sorted).bind (fun state => .ok (entry.1, state)) := by
    unfold projectEntry
    rw [own]
    simp only [bind] at read ⊢
    rw [read, ok_bind, sorts, ok_bind]
    rfl
  rw [run, Py.bind_ok]
  constructor
  · rintro ⟨state, projected, same⟩
    obtain rfl := Except.ok.inj same
    exact ⟨rfl, sorted, perm, ordered, projected⟩
  · rintro ⟨same, other, perm', ordered', projected⟩
    obtain rfl := eq_of_ordered (perm'.trans perm.symm) ordered' ordered
    exact ⟨out.2, projected, by rw [← same]⟩

def HasSchema (status : Json) : Prop :=
  ∃ ledger, subscript status "release_debt" = .ok ledger ∧ dotGet ledger "schema" = .ok (.str "jjdai.debt-ledger/v1")

theorem loadDebtLedger_eq {status : Json} {events : List Json} (listed : ledgerEvents status = .ok events)
    {states : List (Json × Str)} : loadDebtLedger status = .ok states ↔ HasSchema status ∧
      (∀ event ∈ events, Filed event) ∧
        (events.foldl (Grouping.collect Json.comparisonKey idOf) []).mapM projectEntry = .ok states := by
  obtain ⟨ledger, read, rest⟩ := Py.bind_ok.mp listed
  obtain ⟨value, held, items⟩ := Py.bind_ok.mp rest
  have shape : loadDebtLedger status = (dotGet ledger "schema").bind (fun schema =>
      if schema ≠ .str "jjdai.debt-ledger/v1" then (raise .provenanceValueError "release_debt: unexpected schema" : Py Unit).bind
        (fun _ => (eventsByPosition [] events).bind (fun positions => positions.mapM projectEntry))
      else (eventsByPosition [] events).bind (fun positions => positions.mapM projectEntry)) := by
    unfold loadDebtLedger
    simp only [bind, read, held, items, ok_bind]
    rfl
  rw [shape]
  simp only [Py.bind_ok, Py.unless_ok, eventsByPosition_ok]
  constructor
  · rintro ⟨schema, named, same, positions, ⟨filed, rfl⟩, projected⟩
    exact ⟨⟨ledger, read, named.trans (by rw [not_not.mp same])⟩, filed, projected⟩
  · rintro ⟨⟨other, again, named⟩, filed, projected⟩
    obtain rfl := Except.ok.inj (read.symm.trans again)
    exact ⟨_, named, not_not.mpr rfl, _, ⟨filed, rfl⟩, projected⟩

theorem Projects.unique {events : List Json} {event : Json} {state other : Str} (projects : Projects events event state)
    (projects' : Projects events event other) : state = other := by
  obtain ⟨sorted, perm, ordered, projected⟩ := projects
  obtain ⟨again, perm', ordered', projected'⟩ := projects'
  obtain rfl := eq_of_ordered (perm.trans perm'.symm) ordered ordered'
  exact Except.ok.inj (projected.symm.trans projected')

theorem ledgerEvents_of_load {status : Json} {states : List (Json × Str)} (loaded : loadDebtLedger status = .ok states) :
    ∃ events, ledgerEvents status = .ok events := by
  obtain ⟨ledger, read, rest⟩ := Py.bind_ok.mp loaded
  obtain ⟨schema, _, rest⟩ := Py.bind_ok.mp rest
  obtain ⟨_, rest⟩ := Py.unless_ok.mp rest
  obtain ⟨value, held, rest⟩ := Py.bind_ok.mp rest
  obtain ⟨events, listed, _⟩ := Py.bind_ok.mp rest
  exact ⟨events, Py.bind_ok.mpr ⟨ledger, read, Py.bind_ok.mpr ⟨value, held, listed⟩⟩⟩

theorem group_history {events : List Json} {entry : Json × List Json}
    (member : entry ∈ events.foldl (Grouping.collect Json.comparisonKey idOf) []) {event : Json}
    (own : Json.pyEq (idOf event) entry.1) : entry.2 = history events event := by
  rw [(Grouping.group_eq member).1]
  unfold history Grouping.alike
  rw [show Json.comparisonKey (idOf event) = Json.comparisonKey entry.1 from own]

theorem loadDebtLedger_states {status : Json} {events : List Json} (listed : ledgerEvents status = .ok events)
    (sequenced : Sequenced events) {states : List (Json × Str)} (loaded : loadDebtLedger status = .ok states) :
    (∀ entry ∈ states, ∃ event ∈ events, Json.pyEq (idOf event) entry.1 ∧ Projects events event entry.2) ∧
      ∀ event ∈ events, ∃ entry ∈ states, Json.pyEq (idOf event) entry.1 ∧ Projects events event entry.2 := by
  obtain ⟨_, _, projected⟩ := (loadDebtLedger_eq listed).mp loaded
  obtain ⟨each, from_⟩ := rows_of_mapM projected
  constructor
  · intro entry member
    obtain ⟨group, among, made⟩ := from_ entry member
    obtain ⟨event, inside, own⟩ := (Grouping.group_eq among).2
    obtain ⟨same, projects⟩ := (projectEntry_ok sequenced (group_history among own)).mp made
    exact ⟨event, inside, same ▸ own, projects⟩
  · intro event inside
    obtain ⟨group, among, own⟩ := Grouping.exists_group Json.comparisonKey idOf inside
    obtain ⟨entry, member, made⟩ := each group among
    have here : Json.pyEq (idOf event) group.1 := own.symm
    obtain ⟨same, projects⟩ := (projectEntry_ok sequenced (group_history among here)).mp made
    exact ⟨entry, member, same ▸ here, projects⟩

theorem loadDebtLedger_projects {status : Json} {events : List Json} (listed : ledgerEvents status = .ok events)
    (sequenced : Sequenced events) : (∃ states, loadDebtLedger status = .ok states) ↔
      HasSchema status ∧ (∀ event ∈ events, Filed event) ∧ ∀ event ∈ events, ∃ state, Projects events event state := by
  constructor
  · rintro ⟨states, loaded⟩
    obtain ⟨schema, filed, _⟩ := (loadDebtLedger_eq listed).mp loaded
    refine ⟨schema, filed, ?_⟩
    intro event inside
    obtain ⟨entry, _, _, projects⟩ := (loadDebtLedger_states listed sequenced loaded).2 event inside
    exact ⟨_, projects⟩
  · rintro ⟨schema, filed, each⟩
    have all : ∀ group ∈ events.foldl (Grouping.collect Json.comparisonKey idOf) [], ∃ out, projectEntry group = .ok out := by
      intro group among
      obtain ⟨event, inside, own⟩ := (Grouping.group_eq among).2
      obtain ⟨state, projects⟩ := each event inside
      exact ⟨(group.1, state), (projectEntry_ok sequenced (group_history among own)).mpr ⟨rfl, projects⟩⟩
    obtain ⟨states, made⟩ := mapM_of_forall all
    exact ⟨states, (loadDebtLedger_eq listed).mpr ⟨schema, filed, made⟩⟩

/-- An event opens a position under a boundary. -/
def Opens (event : Json) (boundary : Str) : Prop := Opening event ∧ dotGet event "blocks" = .ok (.str boundary)

theorem mem_history {events : List Json} {event : Json} (inside : event ∈ events) : event ∈ history events event :=
  List.mem_filter.mpr ⟨inside, by simp⟩

theorem not_settles_of_opening {event : Json} (opens : Opening event) : ¬Settles event := by
  rintro (⟨named, _⟩ | ⟨named, _⟩) <;> exact absurd (opens.symm.trans named) (by decide)

theorem projects_open {events : List Json} {event : Json} :
    Projects events event debtOpen ↔ ∃ opening, Opening opening ∧ history events event = [opening] := by
  constructor
  · rintro ⟨sorted, perm, _, projected⟩
    obtain ⟨opening, opens, ⟨rfl, _⟩ | ⟨_, _, _, other, _⟩⟩ := projectDebt_ok.mp projected
    · exact ⟨opening, opens, List.singleton_perm.mp perm |>.symm⟩
    · exact absurd rfl other
  · rintro ⟨opening, opens, same⟩
    exact ⟨[opening], by rw [same], List.pairwise_singleton _ _, projectDebt_ok.mpr ⟨opening, opens, .inl ⟨rfl, rfl⟩⟩⟩

theorem settled_of_projects {events : List Json} {opening : Json} {state : Str} (inside : opening ∈ events)
    (opens : Opening opening) (projects : Projects events opening state) (closed : state ≠ debtOpen) :
    Settled events opening := by
  obtain ⟨sorted, perm, ordered, projected⟩ := projects
  obtain ⟨first, _, ⟨_, same⟩ | ⟨closing, rfl, settles, _⟩⟩ := projectDebt_ok.mp projected
  · exact absurd same.symm closed
  · have among := perm.mem_iff.mpr (mem_history inside)
    obtain rfl : opening = first := by
      rcases List.mem_pair.mp among with here | there
      · exact here
      · exact absurd (there ▸ settles) (not_settles_of_opening opens)
    exact ⟨closing, perm.symm, by simpa using ordered, settles⟩

theorem hashable_comparisonKey (j : Json) : hashable (Json.comparisonKey j) = hashable j := by
  cases j with
  | float value =>
    unfold Json.comparisonKey
    split <;> rfl
  | _ => rfl

theorem readDebt_ok {status : Json} {events : List Json} (listed : ledgerEvents status = .ok events)
    {states : List (Json × Str)} {blocks : List (Json × Json)} : readDebt status = .ok (states, blocks) ↔
      loadDebtLedger status = .ok states ∧
        events.foldl (fun d event => Grouping.store Json.comparisonKey (idOf event) (blocksBy event) d) [] = blocks := by
  obtain ⟨ledger, read, rest⟩ := Py.bind_ok.mp listed
  obtain ⟨value, held, items⟩ := Py.bind_ok.mp rest
  simp only [readDebt, bind, read, held, items, ok_bind, Py.bind_ok, pure, Except.pure, Except.ok.injEq, Prod.mk.injEq]
  constructor
  · rintro ⟨loaded, projected, out, filled, rfl, rfl⟩
    obtain ⟨_, filed, _⟩ := (loadDebtLedger_eq listed).mp projected
    exact ⟨projected, Except.ok.inj ((blocksOf_ok filed []).symm.trans filled)⟩
  · rintro ⟨projected, rfl⟩
    obtain ⟨_, filed, _⟩ := (loadDebtLedger_eq listed).mp projected
    exact ⟨states, projected, _, blocksOf_ok filed [], rfl, rfl⟩

theorem lookup_blocks (events : List Json) (event : Json) :
    Grouping.lookup Json.comparisonKey (idOf event)
        (events.foldl (fun d event => Grouping.store Json.comparisonKey (idOf event) (blocksBy event) d) []) =
      (history events event).getLast?.map blocksBy := by
  rw [Grouping.lookup_last]
  simp [Grouping.lookup, history]

theorem load_of_passed {context : ReleaseContext} {status : Json} {boundary what : Str}
    (passed : checkDebt { context with debtReader := some (.ok status) } boundary what = .ok ()) :
    ∃ states, loadDebtLedger status = .ok states := by
  unfold checkDebt at passed
  cases read : readDebt status with
  | error e =>
    simp only [ok_bind, read] at passed
    cases passed
  | ok pair =>
    obtain ⟨states, loaded, _⟩ := Py.bind_ok.mp read
    exact ⟨states, loaded⟩

theorem checkDebt_ok {context : ReleaseContext} {status : Json} {boundary what : Str} {events : List Json}
    (listed : ledgerEvents status = .ok events) (sequenced : Sequenced events) :
    checkDebt { context with debtReader := some (.ok status) } boundary what = .ok () ↔
      (∃ states, loadDebtLedger status = .ok states) ∧ ∀ event ∈ events, Projects events event debtOpen →
        (history events event).getLast?.map blocksBy ≠ some (.str boundary) := by
  unfold checkDebt
  simp only [ok_bind]
  cases read : readDebt status with
  | error e =>
    have failed : ¬∃ states, loadDebtLedger status = .ok states := by
      rintro ⟨states, loaded⟩
      cases read.symm.trans ((readDebt_ok listed).mpr ⟨loaded, rfl⟩)
    simp [raise, failed]
  | ok pair =>
    obtain ⟨states, blocks⟩ := pair
    obtain ⟨loaded, rfl⟩ := (readDebt_ok listed).mp read
    obtain ⟨_, filed, _⟩ := (loadDebtLedger_eq listed).mp loaded
    obtain ⟨from_, each⟩ := loadDebtLedger_states listed sequenced loaded
    generalize filled : events.foldl (fun d event => Grouping.store Json.comparisonKey (idOf event) (blocksBy event) d) [] =
      blocks
    -- The keys of the states are those of the map of boundaries, so the lookups do not raise.
    have looked {entry : Json × Str} {event : Json} (own : Json.pyEq (idOf event) entry.1) :
        Grouping.lookup Json.comparisonKey entry.1 blocks = (history events event).getLast?.map blocksBy := by
      rw [← lookup_blocks, filled, Grouping.lookup_eq_find?, Grouping.lookup_eq_find?,
        show Json.comparisonKey (idOf event) = Json.comparisonKey entry.1 from own]
    have test : ∀ entry ∈ states, (do
        let blocked ← pyLookup blocks entry.1
        return entry.2 = debtOpen ∧ blocked = some (.str boundary) : Py Bool) =
          .ok (decide (entry.2 = debtOpen ∧ Grouping.lookup Json.comparisonKey entry.1 blocks = some (.str boundary))) := by
      intro entry member
      obtain ⟨event, inside, own, _⟩ := from_ entry member
      have hashed : hashable entry.1 = true := by
        rw [← hashable_comparisonKey, ← show Json.comparisonKey (idOf event) = Json.comparisonKey entry.1 from own,
          hashable_comparisonKey]
        exact (filed event inside).hashable
      rw [bind, pyLookup_ok.mpr ⟨hashed, rfl⟩]
      rfl
    have filtered := filterPy_of_forall test
    simp only [bind] at filtered ⊢
    simp only [filtered, ok_bind]
    constructor
    · intro passed
      refine ⟨⟨states, loaded⟩, ?_⟩
      intro event inside opened blocked
      obtain ⟨entry, member, own, projects⟩ := each event inside
      have kept : entry ∈ states.filter (fun entry => decide (entry.2 = debtOpen ∧
          Grouping.lookup Json.comparisonKey entry.1 blocks = some (.str boundary))) :=
        List.mem_filter.mpr ⟨member, decide_eq_true ⟨projects.unique opened, (looked own).trans blocked⟩⟩
      rw [if_pos (List.ne_nil_of_mem kept)] at passed
      obtain ⟨_, _, joined⟩ := Py.bind_ok.mp passed
      obtain ⟨_, _, failed⟩ := Py.bind_ok.mp joined
      cases failed
    · rintro ⟨_, clear⟩
      have none_here : ∀ entry ∈ states, ¬decide (entry.2 = debtOpen ∧
          Grouping.lookup Json.comparisonKey entry.1 blocks = some (.str boundary)) = true := by
        intro entry member held
        obtain ⟨opened, blocked⟩ := of_decide_eq_true held
        obtain ⟨event, inside, own, projects⟩ := from_ entry member
        exact clear event inside (opened ▸ projects) ((looked own).symm.trans blocked)
      rw [if_neg (not_not.mpr (List.filter_eq_nil_iff.mpr none_here))]
      rfl

/-- Every position that was opened under the boundary was settled. -/
def SettledUnder (events : List Json) (boundary : Str) : Prop :=
  ∀ opening ∈ events, Opens opening boundary → Settled events opening

theorem blocksBy_of_read {event value : Json} (read : dotGet event "blocks" = .ok value) : blocksBy event = value := by
  rw [blocksBy, read]
  rfl

/-- Where the ledger projects, no open position blocks the boundary exactly when all of them are settled. -/
theorem settledUnder_iff {events : List Json} {boundary : Str} (filed : ∀ event ∈ events, Filed event)
    (projects : ∀ event ∈ events, ∃ state, Projects events event state) :
    (∀ event ∈ events, Projects events event debtOpen →
      (history events event).getLast?.map blocksBy ≠ some (.str boundary)) ↔ SettledUnder events boundary := by
  constructor
  · intro clear opening inside opens
    obtain ⟨state, projected⟩ := projects opening inside
    by_cases still : state = debtOpen
    · subst still
      obtain ⟨first, _, alone⟩ := projects_open.mp projected
      obtain rfl : opening = first := List.mem_singleton.mp (alone ▸ mem_history inside)
      refine absurd ?_ (clear opening inside projected)
      rw [alone]
      exact congrArg some (blocksBy_of_read opens.2)
    · exact settled_of_projects inside opens.1 projected still
  · intro settled event inside projected blocked
    obtain ⟨opening, opens, alone⟩ := projects_open.mp projected
    obtain rfl : event = opening := List.mem_singleton.mp (alone ▸ mem_history inside)
    rw [alone] at blocked
    have boundary_read : dotGet event "blocks" = .ok (.str boundary) := by
      obtain ⟨fields, rfl⟩ := (filed event inside).object
      exact congrArg Except.ok (Option.some.inj blocked)
    obtain ⟨closing, perm, _, _⟩ := settled event inside ⟨opens, boundary_read⟩
    have long := perm.length_eq
    rw [alone] at long
    cases long

/-- The document with the events in another order. -/
def Reordered (status other : Json) : Prop :=
  ∃ ledger ledger' events events', subscript status "release_debt" = .ok ledger ∧
    subscript other "release_debt" = .ok ledger' ∧ dotGet ledger' "schema" = dotGet ledger "schema" ∧
      subscript ledger "events" = .ok (.arr events) ∧ subscript ledger' "events" = .ok (.arr events') ∧ events.Perm events'

theorem Projects.reordered {events events' : List Json} (perm : events.Perm events') {event : Json} {state : Str}
    (projects : Projects events event state) : Projects events' event state := by
  obtain ⟨sorted, same, ordered, projected⟩ := projects
  exact ⟨sorted, same.trans (perm.filter _), ordered, projected⟩

theorem SettledUnder.reordered {events events' : List Json} (perm : events.Perm events') {boundary : Str}
    (settled : SettledUnder events boundary) : SettledUnder events' boundary := by
  intro opening inside opens
  obtain ⟨closing, same, below, settles⟩ := settled opening (perm.mem_iff.mpr inside) opens
  exact ⟨closing, (perm.filter _).symm.trans same, below, settles⟩

theorem Sequenced.reordered {events events' : List Json} (perm : events.Perm events') (sequenced : Sequenced events) :
    Sequenced events' where
  integer event inside := sequenced.integer event (perm.mem_iff.mpr inside)
  distinct := perm.pairwise sequenced.distinct (fun differ same equal => differ same.symm equal.symm)

theorem checkDebt_settled {context : ReleaseContext} {status : Json} {boundary what : Str} {events : List Json}
    (listed : ledgerEvents status = .ok events) (sequenced : Sequenced events) :
    checkDebt { context with debtReader := some (.ok status) } boundary what = .ok () ↔
      (∃ states, loadDebtLedger status = .ok states) ∧ SettledUnder events boundary := by
  rw [checkDebt_ok listed sequenced]
  refine and_congr_right ?_
  intro projected
  obtain ⟨_, filed, each⟩ := (loadDebtLedger_projects listed sequenced).mp projected
  exact settledUnder_iff filed each

theorem checkDebt_reordered {context other : ReleaseContext} {status status' : Json} {boundary what : Str} {ledger ledger' : Json}
    {events events' : List Json} (read : subscript status "release_debt" = .ok ledger)
    (read' : subscript status' "release_debt" = .ok ledger') (schema : dotGet ledger' "schema" = dotGet ledger "schema")
    (listed : subscript ledger "events" = .ok (.arr events)) (listed' : subscript ledger' "events" = .ok (.arr events'))
    (perm : events.Perm events') (sequenced : Sequenced events)
    (passed : checkDebt { context with debtReader := some (.ok status) } boundary what = .ok ()) :
    checkDebt { other with debtReader := some (.ok status') } boundary what = .ok () := by
  have items : ledgerEvents status = .ok events := by
    simp only [ledgerEvents, bind, read, listed, ok_bind, pyList]
  have items' : ledgerEvents status' = .ok events' := by
    simp only [ledgerEvents, bind, read', listed', ok_bind, pyList]
  obtain ⟨projected, settled⟩ := (checkDebt_settled items sequenced).mp passed
  obtain ⟨⟨_, same, named⟩, filed, each⟩ := (loadDebtLedger_projects items sequenced).mp projected
  obtain rfl := Except.ok.inj (read.symm.trans same)
  refine (checkDebt_settled items' (sequenced.reordered perm)).mpr ⟨?_, settled.reordered perm⟩
  refine (loadDebtLedger_projects items' (sequenced.reordered perm)).mpr ⟨⟨ledger', read', schema.trans named⟩, ?_, ?_⟩
  · intro event inside
    exact filed event (perm.mem_iff.mpr inside)
  · intro event inside
    obtain ⟨state, projects⟩ := each event (perm.mem_iff.mpr inside)
    exact ⟨state, projects.reordered perm⟩

/-- The gate passes exactly when the ledger projects and every position opened under the boundary
was settled after that, whatever the order of the events. -/
theorem checkDebt_exact {status : Json} (sequenced : ∀ events, ledgerEvents status = .ok events → Sequenced events)
    (context : ReleaseContext) (boundary what : Str) :
    (checkDebt { context with debtReader := some (.ok status) } boundary what = .ok () ↔
      (∃ states, loadDebtLedger status = .ok states) ∧
        ∀ events, ledgerEvents status = .ok events → SettledUnder events boundary) ∧
    ∀ other, Reordered status other →
      (checkDebt { context with debtReader := some (.ok other) } boundary what = .ok () ↔
        checkDebt { context with debtReader := some (.ok status) } boundary what = .ok ()) := by
  constructor
  · cases listed : ledgerEvents status with
    | error e =>
      have unread : ¬∃ states, loadDebtLedger status = .ok states := by
        rintro ⟨states, loaded⟩
        obtain ⟨events, read⟩ := ledgerEvents_of_load loaded
        cases listed.symm.trans read
      exact ⟨fun passed => absurd (load_of_passed passed) unread, fun both => absurd both.1 unread⟩
    | ok events =>
      rw [checkDebt_settled listed (sequenced events listed)]
      simp
  · rintro other ⟨ledger, ledger', events, events', read, read', schema, listed, listed', perm⟩
    have numbered : Sequenced events := by
      apply sequenced
      simp only [ledgerEvents, bind, read, listed, ok_bind, pyList]
    constructor
    · exact checkDebt_reordered read' read schema.symm listed' listed perm.symm (numbered.reordered perm)
    · exact checkDebt_reordered read read' schema listed listed' perm numbered

/-- One position that was opened and closed, between the events of one that is open. -/
def mixedLedger : Json :=
  .obj [("release_debt", .obj [("schema", .str "jjdai.debt-ledger/v1"), ("events", .arr [
    .obj [("id", .str "D-2"), ("seq", .int 7), ("event", .str "DEBT_CLOSED"), ("evidence_ref", .str "run-9")],
    .obj [("id", .str "D-1"), ("seq", .int 1), ("event", .str debtOpened), ("blocks", .str "phase-0-gate")],
    .obj [("id", .str "D-2"), ("seq", .int 3), ("event", .str debtOpened), ("blocks", .str blocksPublication)]])])]

theorem sequenced_mixedLedger : ∀ events, ledgerEvents mixedLedger = .ok events → Sequenced events := by
  intro events listed
  obtain rfl := Except.ok.inj listed
  refine ⟨?_, by decide +kernel⟩
  intro event member
  simp only [List.mem_cons, List.not_mem_nil, or_false] at member
  rcases member with rfl | rfl | rfl <;> exact ⟨_, rfl⟩

theorem checkDebt_exact_mixedLedger :
    (checkDebt { debtReader := some (.ok mixedLedger) } blocksPublication "publishing a release" = .ok () ↔
      (∃ states, loadDebtLedger mixedLedger = .ok states) ∧
        ∀ events, ledgerEvents mixedLedger = .ok events → SettledUnder events blocksPublication) ∧
    ∀ other, Reordered mixedLedger other →
      (checkDebt { debtReader := some (.ok other) } blocksPublication "publishing a release" = .ok () ↔
        checkDebt { debtReader := some (.ok mixedLedger) } blocksPublication "publishing a release" = .ok ()) :=
  checkDebt_exact sequenced_mixedLedger {} blocksPublication "publishing a release"

end JJDai.Release
