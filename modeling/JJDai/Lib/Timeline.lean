import Mathlib.Data.List.Induction
import Mathlib.Order.Lattice

/-! A walk through numbered stations that may be cut back and walked again: the
line it is on, and the stations it has ever visited. -/

namespace Timeline

universe u v

inductive Mark (κ : Type u) (ν : Type v) where
  | restart
  | visit (station : κ) (value : ν)
  | cut (station : κ)

variable {κ : Type u} {ν : Type v} [LinearOrder κ]

/-- A visit extends the line, a cut takes away what lies beyond its station. -/
def extend (line : List (κ × ν)) : Mark κ ν → List (κ × ν)
  | .restart => []
  | .visit station value => line ++ [(station, value)]
  | .cut station => line.filter (fun entry => entry.1 ≤ station)

def line (marks : List (Mark κ ν)) : List (κ × ν) := marks.foldl extend []

/-- The value of the latest visit of a station that is on the line. -/
def current (marks : List (Mark κ ν)) (station : κ) : Option ν :=
  (((line marks).filter (fun entry => entry.1 = station)).getLast?).map Prod.snd

def gather (taken : List (κ × ν)) : Mark κ ν → List (κ × ν)
  | .restart => []
  | .visit station value => taken ++ [(station, value)]
  | .cut _ => taken

/-- Every visit since the last restart, also of lines that were left. -/
def taken (marks : List (Mark κ ν)) : List (κ × ν) := marks.foldl gather []

def visits (marks : List (Mark κ ν)) (station : κ) : List (κ × ν) :=
  (taken marks).filter (fun entry => entry.1 = station)

/-- The station was cut off, and not visited since. -/
def loses (station : κ) (lost : Bool) : Mark κ ν → Bool
  | .restart => false
  | .visit visited _ => lost && visited ≠ station
  | .cut back => lost || back < station

def lost (marks : List (Mark κ ν)) (station : κ) : Bool := marks.foldl (loses station) false

@[simp] theorem line_snoc (marks : List (Mark κ ν)) (mark : Mark κ ν) :
    line (marks ++ [mark]) = extend (line marks) mark :=
  List.foldl_append

omit [LinearOrder κ] in
@[simp] theorem taken_snoc (marks : List (Mark κ ν)) (mark : Mark κ ν) :
    taken (marks ++ [mark]) = gather (taken marks) mark :=
  List.foldl_append

@[simp] theorem lost_snoc (marks : List (Mark κ ν)) (station : κ) (mark : Mark κ ν) :
    lost (marks ++ [mark]) station = loses station (lost marks station) mark :=
  List.foldl_append

theorem filter_cut (entries : List (κ × ν)) (back station : κ) :
    (entries.filter (fun entry => entry.1 ≤ back)).filter (fun entry => entry.1 = station) =
      if back < station then [] else entries.filter (fun entry => entry.1 = station) := by
  rw [List.filter_filter]
  split
  · rename_i beyond
    apply List.filter_eq_nil_iff.mpr
    intro entry _ both
    obtain ⟨same, within⟩ := Bool.and_eq_true_iff.mp both
    rw [of_decide_eq_true same] at within
    exact absurd beyond (not_lt_of_ge (of_decide_eq_true within))
  · rename_i within
    apply List.filter_congr
    intro entry _
    by_cases same : entry.1 = station
    · simp [same, le_of_not_gt within]
    · simp [same]

theorem current_eq (marks : List (Mark κ ν)) (station : κ) :
    current marks station =
      if lost marks station then none else ((visits marks station).getLast?).map Prod.snd := by
  have both : (lost marks station = true → (line marks).filter (fun entry => entry.1 = station) = []) ∧
      (lost marks station = false → ((line marks).filter (fun entry => entry.1 = station)).getLast? =
        (visits marks station).getLast?) := by
    induction marks using List.reverseRecOn with
    | nil => exact ⟨fun impossible => Bool.noConfusion impossible, fun _ => rfl⟩
    | append_singleton front mark ih =>
      cases mark with
      | restart => exact ⟨fun impossible => by simp [loses] at impossible, fun _ => by simp [visits, extend, gather]⟩
      | visit visited value =>
        simp only [lost_snoc, line_snoc, visits, taken_snoc, loses, extend, gather, List.filter_append] at ih ⊢
        by_cases same : visited = station
        · simp [same]
        · simpa [same] using ih
      | cut back =>
        simp only [lost_snoc, line_snoc, visits, taken_snoc, loses, extend, gather, filter_cut] at ih ⊢
        by_cases beyond : back < station
        · simp [beyond]
        · simpa [beyond] using ih
  rw [current]
  cases isLost : lost marks station with
  | true => simp [both.1 isLost]
  | false => simp [both.2 isLost]

end Timeline
