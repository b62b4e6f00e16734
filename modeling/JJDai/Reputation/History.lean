import JJDai.Lib.Run
import JJDai.Reputation.Weights

/-! What a history of events leaves in the registry. -/

namespace JJDai.Reputation

open PyText

variable {params : Params ℝ}

def Event.t : Event ℝ → ℝ
  | .verdict t .. | .slash t .. | .stake t .. => t

/-- The row that an event adds under a key. -/
def Event.row? (key : Key) : Event ℝ → Option (Row ℝ)
  | .verdict t topic scope objectId ok margin difficulty =>
    if (topic, scope, objectId) = key then some ⟨t, difficulty, if ok then 1 else 0, margin⟩ else none
  | _ => none

def Event.Slashes (objectId : Str) : Event ℝ → Prop
  | .slash _ slashed _ _ => slashed = objectId
  | _ => False

theorem Event.row?_t {event : Event ℝ} {key : Key} {row : Row ℝ} (found : event.row? key = some row) :
    row.t = event.t := by
  cases event with
  | verdict t topic scope objectId ok margin difficulty =>
    by_cases here : (topic, scope, objectId) = key
    · simp only [Event.row?, if_pos here, Option.some.injEq] at found
      rw [← found]
      rfl
    · simp [Event.row?, here] at found
  | slash t objectId reason penaltyMult => cases found
  | stake t objectId stake => cases found

namespace Registry

variable {registry : Registry ℝ}

theorem replay_snoc (events : List (Event ℝ)) (event : Event ℝ) :
    replay .real params (events ++ [event]) = (replay .real params events).apply .real params event := by
  simp [replay]

theorem rows_addRow (key : Key) (row : Row ℝ) (topic scope objectId : Str) :
    (registry.addRow key row).rows topic scope objectId =
      registry.rows topic scope objectId ++ if key = (topic, scope, objectId) then [row] else [] := by
  unfold rows addRow
  by_cases here : key = (topic, scope, objectId)
  · subst here
    simp
  · simp [here, Dict.get?_set_ne _ here]

theorem rows_apply (event : Event ℝ) (topic scope objectId : Str) :
    (registry.apply .real params event).rows topic scope objectId =
      registry.rows topic scope objectId ++ (event.row? (topic, scope, objectId)).toList := by
  cases event with
  | verdict t topic' scope' objectId' ok margin difficulty =>
    refine (rows_addRow _ _ topic scope objectId).trans ?_
    by_cases here : (topic', scope', objectId') = (topic, scope, objectId)
    · simp only [Event.row?, if_pos here]
      rfl
    · simp only [Event.row?, if_neg here]
      rfl
  | slash t objectId' reason penaltyMult => simp [Registry.apply, rows, Event.row?]
  | stake t objectId' stake => simp [Registry.apply, rows, Event.row?]

theorem rows_replay (events : List (Event ℝ)) (topic scope objectId : Str) :
    (replay .real params events).rows topic scope objectId =
      events.filterMap (Event.row? (topic, scope, objectId)) := by
  induction events using List.reverseRecOn with
  | nil => rfl
  | append_singleton events event ih =>
    rw [replay_snoc, rows_apply, ih, List.filterMap_append]
    cases found : event.row? (topic, scope, objectId) <;> simp [found]

theorem replay_invariant {Good : Registry ℝ → Prop} {holds : Event ℝ → Prop} {events : List (Event ℝ)}
    (kept : ∀ registry event, Good registry → holds event → Good (registry.apply .real params event))
    (start : Good {}) (all : ∀ event ∈ events, holds event) : Good (replay .real params events) :=
  Run.invariant_of_forall kept start all

theorem slashes_replay {events : List (Event ℝ)} {objectId : Str}
    (unslashed : ∀ event ∈ events, ¬ event.Slashes objectId) :
    Dict.get? (replay .real params events).slashes objectId = none := by
  refine @replay_invariant params (fun registry => Dict.get? registry.slashes objectId = none) _ _ ?_ rfl unslashed
  intro registry event clean other
  cases event with
  | verdict t topic scope objectId ok margin difficulty => exact clean
  | slash t slashed reason penaltyMult => exact (Dict.get?_set_ne _ other _).trans clean
  | stake t objectId stake => exact clean

end Registry

variable {registry : Registry ℝ}

/-- The event is no verdict, or one of a difficulty that does not count against the evidence. -/
def Event.Counts : Event ℝ → Prop
  | .verdict _ _ _ _ _ _ difficulty => 0 ≤ difficulty
  | _ => True

/-- The event is no verdict, or one that does count. -/
def Event.Graded : Event ℝ → Prop
  | .verdict _ _ _ _ _ _ difficulty => 0 < difficulty
  | _ => True

theorem Event.Graded.counts {event : Event ℝ} (graded : event.Graded) : event.Counts := by
  cases event with
  | verdict => exact le_of_lt graded
  | slash => trivial
  | stake => trivial

namespace Registry

/-- All the rows of the registry are sane, and no slash has gone below zero. -/
structure Sane (registry : Registry ℝ) : Prop where
  rows : ∀ entry ∈ registry.verdicts, ∀ row ∈ entry.2, row.Sane
  unspent : registry.Unspent

theorem sane_addRow (sane : registry.Sane) (key : Key) {row : Row ℝ} (fresh : row.Sane) :
    (registry.addRow key row).Sane := by
  refine ⟨fun entry member => ?_, sane.unspent⟩
  rcases Dict.mem_set member with rfl | old
  · intro held among
    rcases List.mem_append.mp among with before | last
    · cases found : Dict.get? registry.verdicts key with
      | none => simp [found] at before
      | some rows =>
        rw [found] at before
        exact sane.rows _ (Dict.mem_of_get? found) held before
    · exact List.mem_singleton.mp last ▸ fresh
  · exact sane.rows entry old

theorem sane_slash (sound : params.Sound) (sane : registry.Sane) (t : ℝ) (objectId : Str) {penalty : ℝ}
    (partly : penalty ≤ 1) :
    ({ registry with
      slashes := Dict.set registry.slashes objectId
        (registry.slashFactor params objectId t * (1 - penalty), t) } : Registry ℝ).Sane := by
  refine ⟨sane.rows, fun slashed base last found => ?_⟩
  have least := (slashFactor_bounds sound sane.unspent objectId t).1
  rw [Dict.get?_set] at found
  by_cases same : objectId = slashed
  · rw [if_pos same] at found
    cases found
    exact mul_nonneg least (sub_nonneg.mpr partly)
  · rw [if_neg same] at found
    exact sane.unspent slashed base last found

theorem sane_apply (sound : params.Sound) {event : Event ℝ} (sane : registry.Sane) (counts : event.Counts) :
    (registry.apply .real params event).Sane := by
  have logged : ({ registry with events := registry.events ++ [event] } : Registry ℝ).Sane :=
    ⟨sane.rows, sane.unspent⟩
  cases event with
  | verdict t topic scope objectId ok margin difficulty =>
    refine sane_addRow logged _ ⟨counts, ?_⟩
    cases ok
    · exact Or.inl rfl
    · exact Or.inr rfl
  | slash t objectId reason penaltyMult =>
    refine sane_slash sound logged t objectId ?_
    calc min (Arithmetic.real.literal 95 2) (params.slashPenalty * penaltyMult)
        ≤ Arithmetic.real.literal 95 2 := min_le_left _ _
      _ ≤ 1 := by norm_num [Arithmetic.real]
  | stake t objectId stake => exact ⟨sane.rows, sane.unspent⟩

theorem sane_replay (sound : params.Sound) {events : List (Event ℝ)} (counts : ∀ event ∈ events, event.Counts) :
    (replay .real params events).Sane := by
  refine replay_invariant (fun registry event sane counts => sane_apply sound sane counts) ?_ counts
  exact ⟨fun entry member => absurd member List.not_mem_nil, fun objectId base last found => by cases found⟩

theorem Sane.rows_sane (sane : registry.Sane) (topic scope objectId : Str) :
    ∀ row ∈ registry.rows topic scope objectId, row.Sane := by
  unfold Registry.rows
  cases found : Dict.get? registry.verdicts (topic, scope, objectId) with
  | none => exact fun row member => absurd member List.not_mem_nil
  | some rows => exact sane.rows _ (Dict.mem_of_get? found)

theorem Sane.rowsFor_sane (sane : registry.Sane) (objectId : Str) : ∀ row ∈ registry.rowsFor objectId, row.Sane := by
  intro row member
  obtain ⟨entry, held, among⟩ := List.mem_flatMap.mp member
  by_cases here : entry.1.2.2 = objectId
  · rw [if_pos here] at among
    exact sane.rows entry held row among
  · rw [if_neg here] at among
    exact absurd among List.not_mem_nil

end Registry

end JJDai.Reputation
