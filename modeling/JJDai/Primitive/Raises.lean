import JJDai.Primitive.Python

/-! Which exceptions come out of a computation. -/

namespace JJDai

open PyText

/-- Every exception that comes out is one of these. -/
def Raises (allowed : PyErr → Prop) (x : Py α) : Prop := ∀ e, x = .error e → allowed e

namespace Raises

variable {allowed : PyErr → Prop}

theorem ok (a : α) : Raises allowed (.ok a : Py α) := fun _ same => nomatch same

theorem error {e : PyErr} (known : allowed e) : Raises allowed (.error e : Py α) := by
  intro other same
  obtain rfl := Except.error.inj same
  exact known

theorem bind {x : Py α} {f : α → Py β} (first : Raises allowed x) (rest : ∀ a, x = .ok a → Raises allowed (f a)) :
    Raises allowed (x.bind f) := by
  intro e failed
  rcases bind_error failed with now | ⟨a, read, later⟩
  · exact first e now
  · exact rest a read e later

theorem check {p : Prop} [Decidable p] {e : PyErr} {f : α → Py β} {rest : Py β} (known : p → allowed e)
    (passed : ¬p → Raises allowed rest) : Raises allowed (if p then (.error e : Py α).bind f else rest) := by
  by_cases holds : p
  · rw [if_pos holds]
    exact error (known holds)
  · rw [if_neg holds]
    exact passed holds

theorem last {p : Prop} [Decidable p] {e : PyErr} {a : α} (known : p → allowed e) :
    Raises allowed (if p then (.error e : Py α) else .ok a) := by
  by_cases holds : p
  · rw [if_pos holds]
    exact error (known holds)
  · rw [if_neg holds]
    exact ok a

theorem mapM {f : α → Py β} {items : List α} (each : ∀ item ∈ items, Raises allowed (f item)) :
    Raises allowed (items.mapM f) := by
  induction items with
  | nil => exact ok []
  | cons item rest ih =>
    rw [List.mapM_cons]
    refine (each item List.mem_cons_self).bind fun first _ => ?_
    exact (ih fun other member => each other (List.mem_cons_of_mem _ member)).bind fun others _ => ok _

theorem foldlM {f : β → α → Py β} {items : List α} {start : β}
    (each : ∀ state, ∀ item ∈ items, Raises allowed (f state item)) : Raises allowed (items.foldlM f start) := by
  induction items generalizing start with
  | nil => exact ok start
  | cons item rest ih =>
    rw [List.foldlM_cons]
    exact (each start item List.mem_cons_self).bind fun state _ =>
      ih fun state other member => each state other (List.mem_cons_of_mem _ member)

end Raises

/-- A computation raises only these exceptions, and what it returns is good. -/
def Answers (allowed : PyErr → Prop) (good : α → Prop) (x : Py α) : Prop :=
  Raises allowed x ∧ ∀ a, x = .ok a → good a

namespace Answers

variable {allowed : PyErr → Prop} {good : β → Prop}

theorem ok_iff {b : β} : Answers allowed good (.ok b) ↔ good b := by
  constructor
  · intro ⟨_, returns⟩
    exact returns b rfl
  · intro held
    refine ⟨Raises.ok b, ?_⟩
    rintro other ⟨⟩
    exact held

theorem error_iff {e : PyErr} : Answers allowed good (.error e) ↔ allowed e := by
  constructor
  · intro ⟨known, _⟩
    exact known e rfl
  · intro known
    exact ⟨Raises.error known, fun b same => nomatch same⟩

theorem bind_iff {x : Py α} {f : α → Py β} :
    Answers allowed good (x.bind f) ↔ Answers allowed (fun a => Answers allowed good (f a)) x := by
  cases x with
  | ok a => rw [ok_bind, ok_iff]
  | error e => exact error_iff.trans error_iff.symm

theorem read_iff {x : Py α} {f : α → Py β} (foreign : Raises (fun e => ¬allowed e) x) :
    Answers allowed good (x.bind f) ↔ ∃ a, x = .ok a ∧ Answers allowed good (f a) := by
  cases x with
  | ok a => simp [Except.bind]
  | error e =>
    have unknown : ¬allowed e := foreign e rfl
    simp [Except.bind, error_iff, unknown]

theorem check_iff {p : Prop} [Decidable p] {e : PyErr} {f : α → Py β} {rest : Py β} (known : allowed e) :
    Answers allowed good (if p then (.error e : Py α).bind f else rest) ↔ (p ∨ Answers allowed good rest) := by
  by_cases holds : p
  · rw [if_pos holds]
    exact iff_of_true (error_iff.mpr known) (.inl holds)
  · rw [if_neg holds, or_iff_right holds]

end Answers

theorem Raises.mono {allowed wider : PyErr → Prop} {x : Py α} (raises : Raises allowed x)
    (within : ∀ e, allowed e → wider e) : Raises wider x := fun e failed => within e (raises e failed)

theorem subscript_raises (j : Json) (key : Str) :
    Raises (fun e => e.kind = .keyError ∨ e.kind = .typeError) (subscript j key) := by
  unfold subscript
  cases j with
  | obj fields =>
    dsimp only
    cases Dict.get? fields key with
    | some value => exact Raises.ok value
    | none => exact Raises.error (.inl rfl)
  | _ => exact Raises.error (.inr rfl)

theorem pyList_raises (j : Json) : Raises (·.kind = .typeError) (pyList j) := by
  unfold pyList
  cases j with
  | null => exact Raises.error rfl
  | bool value => exact Raises.error rfl
  | int value => exact Raises.error rfl
  | float value => exact Raises.error rfl
  | _ => exact Raises.ok _

end JJDai
