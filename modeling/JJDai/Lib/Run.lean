import Mathlib.Data.List.Induction
import Mathlib.Logic.Basic

/-! What an append-only log says since its last reset. -/

namespace History

universe u v

variable {Entry : Type u} {Value : Type v}

/-- The entries after the last one that resets. -/
def since (resets : Entry → Bool) (log : List Entry) : List Entry :=
  log.foldl (fun kept entry => if resets entry then [] else kept ++ [entry]) []

def latest (reports : Entry → Option Value) (log : List Entry) : Option Value :=
  (log.filterMap reports).getLast?

variable {resets : Entry → Bool} {reports : Entry → Option Value} {log : List Entry}

@[simp] theorem since_nil : since resets [] = [] := rfl

@[simp] theorem latest_nil : latest reports [] = none := rfl

theorem since_snoc (log : List Entry) (entry : Entry) :
    since resets (log ++ [entry]) = if resets entry then [] else since resets log ++ [entry] := by
  simp [since]

theorem latest_snoc (log : List Entry) (entry : Entry) :
    latest reports (log ++ [entry]) = (reports entry).or (latest reports log) := by
  cases told : reports entry with
  | none => simp [latest, told]
  | some value => simp [latest, told]

end History

/-! Runs of a transition function: conditions on each of their steps, and the
invariants these steps keep. -/

namespace Run

universe u v

variable {State : Type u} {Action : Type v} (step : State → Action → State)

def run (start : State) (actions : List Action) : State := actions.foldl step start

/-- Every step meets a condition on its action and the state before it. -/
def Along (allowed : State → Action → Prop) (start : State) (actions : List Action) : Prop :=
  match actions with
  | [] => True
  | action :: rest => allowed start action ∧ Along allowed (step start action) rest

instance decidableAlong (allowed : State → Action → Prop)
    [decides : ∀ state action, Decidable (allowed state action)] (start : State) :
    (actions : List Action) → Decidable (Along step allowed start actions)
  | [] => .isTrue trivial
  | action :: rest =>
    have := decidableAlong allowed (step start action) rest
    inferInstanceAs (Decidable (allowed start action ∧ Along step allowed (step start action) rest))

variable {step} {allowed : State → Action → Prop} {start : State}

@[simp] theorem run_nil : run step start [] = start := rfl

@[simp] theorem run_cons (action : Action) (rest : List Action) :
    run step start (action :: rest) = run step (step start action) rest := rfl

theorem Along.cons {action : Action} {rest : List Action} {next : State}
    (moves : step start action = next) (first : allowed start action)
    (later : Along step allowed next rest) : Along step allowed start (action :: rest) := by
  subst moves
  exact ⟨first, later⟩

theorem run_append (front back : List Action) :
    run step start (front ++ back) = run step (run step start front) back :=
  List.foldl_append

theorem along_append {front back : List Action} :
    Along step allowed start (front ++ back) ↔
      Along step allowed start front ∧ Along step allowed (run step start front) back := by
  induction front generalizing start with
  | nil => simp [Along]
  | cons action front ih => simp [Along, ih, and_assoc]

theorem Along.imp {weaker : State → Action → Prop}
    (implied : ∀ state action, allowed state action → weaker state action) {actions : List Action}
    (along : Along step allowed start actions) : Along step weaker start actions := by
  induction actions generalizing start with
  | nil => trivial
  | cons action rest ih => exact ⟨implied start action along.1, ih along.2⟩

theorem invariant {Good : State → Prop}
    (kept : ∀ state action, Good state → allowed state action → Good (step state action))
    {actions : List Action} (good : Good start) (along : Along step allowed start actions) :
    Good (run step start actions) := by
  induction actions generalizing start with
  | nil => exact good
  | cons action rest ih =>
    obtain ⟨first, later⟩ := along
    exact ih (kept start action good first) later

/-- What holds of every allowed step from a state with the invariant holds along the run. -/
theorem along_of_invariant {Good : State → Prop} {granted : State → Action → Prop}
    (kept : ∀ state action, Good state → allowed state action → Good (step state action))
    (grants : ∀ state action, Good state → allowed state action → granted state action)
    {actions : List Action} (good : Good start) (along : Along step allowed start actions) :
    Along step granted start actions := by
  induction actions generalizing start with
  | nil => trivial
  | cons action rest ih =>
    obtain ⟨first, later⟩ := along
    exact ⟨grants start action good first, ih (kept start action good first) later⟩

theorem invariant_of_forall {Good : State → Prop} {holds : Action → Prop}
    (kept : ∀ state action, Good state → holds action → Good (step state action))
    {actions : List Action} (good : Good start) (all : ∀ action ∈ actions, holds action) :
    Good (run step start actions) := by
  induction actions generalizing start with
  | nil => exact good
  | cons action rest ih =>
    have first := kept start action good (all action List.mem_cons_self)
    exact ih first (fun later member => all later (List.mem_cons_of_mem _ member))

end Run
