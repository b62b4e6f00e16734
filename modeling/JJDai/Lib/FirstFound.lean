import Mathlib.Data.List.Sort
import Mathlib.Data.List.Forall2
import Mathlib.Tactic.Common

/-! The first of the items that a test accepts, looked for in order: what a search that
stops early returns, when a cut before it loses nothing, and that sorting and filtering
may change places. -/

namespace FirstFound

variable {α β ε : Type}

/-- The first `wanted` results of a test that can fail, at least one; nothing after them is tested. -/
def search (test : α → Except ε (Option β)) : Nat → List α → Except ε (List β)
  | _, [] => .ok []
  | wanted, a :: rest =>
    match test a with
    | .error e => .error e
    | .ok none => search test wanted rest
    | .ok (some found) => if wanted ≤ 1 then .ok [found] else (search test (wanted - 1) rest).map (found :: ·)

/-- The items that a search of `wanted` ones tests: fewer accepted ones stand before each. -/
def Tested (accepts : α → Bool) (wanted : Nat) (items : List α) (good : α → Prop) : Prop :=
  ∀ before a after, items = before ++ a :: after → (before.filter accepts).length < wanted → good a

variable {test : α → Except ε (Option β)} {accepts : α → Bool} {wanted : Nat} {items : List α}

theorem tested_cons {a : α} {rest : List α} {good : α → Prop} (wants : 0 < wanted) :
    Tested accepts wanted (a :: rest) good ↔
      good a ∧ Tested accepts (if accepts a then wanted - 1 else wanted) rest good := by
  constructor
  · intro tested
    refine ⟨tested [] a rest rfl wants, ?_⟩
    intro before b after split few
    apply tested (a :: before) b after (by rw [split, List.cons_append])
    by_cases accepted : accepts a = true
    · rw [if_pos accepted] at few
      rw [List.filter_cons_of_pos accepted, List.length_cons]
      omega
    · rw [if_neg accepted] at few
      rw [List.filter_cons_of_neg accepted]
      exact few
  · intro ⟨first, later⟩ before b after split few
    cases before with
    | nil =>
      obtain ⟨rfl, _⟩ := List.cons.inj split
      exact first
    | cons c before =>
      obtain ⟨rfl, more⟩ := List.cons.inj split
      apply later before b after more
      by_cases accepted : accepts a = true
      · rw [List.filter_cons_of_pos accepted, List.length_cons] at few
        rw [if_pos accepted]
        omega
      · rw [List.filter_cons_of_neg accepted] at few
        rw [if_neg accepted]
        exact few

theorem tested_zero {good : α → Prop} : Tested accepts 0 items good :=
  fun _ _ _ _ few => absurd few (Nat.not_lt_zero _)

theorem Tested.imp {good better : α → Prop} (tested : Tested accepts wanted items good)
    (follows : ∀ a ∈ items, good a → better a) : Tested accepts wanted items better := by
  intro before a after split few
  exact follows a (split ▸ List.mem_append_right _ List.mem_cons_self) (tested before a after split few)

theorem tested_map {γ : Type} {f : γ → α} {sources : List γ} {good : α → Prop} :
    Tested accepts wanted (sources.map f) good ↔ Tested (fun c => accepts (f c)) wanted sources (fun c => good (f c)) := by
  constructor
  · intro tested before c after split few
    apply tested (before.map f) (f c) (after.map f)
    · rw [split, List.map_append, List.map_cons]
    · rw [List.filter_map, List.length_map]
      exact few
  · intro tested before a after split few
    obtain ⟨first, rest, rfl, rfl, more⟩ := List.map_eq_append_iff.mp split
    obtain ⟨c, later, rfl, rfl, rfl⟩ := List.map_eq_cons_iff.mp more
    apply tested first c later rfl
    rw [List.filter_map, List.length_map] at few
    exact few

/-- A search ends well when every test it makes does, and returns the first accepted items. -/
theorem search_ok (judges : ∀ a ∈ items, ∀ result, test a = .ok result → result.isSome = accepts a)
    (wants : 0 < wanted) (tested : Tested accepts wanted items (fun a => ∃ result, test a = .ok result)) :
    ∃ out, search test wanted items = .ok out ∧
      List.Forall₂ (fun a found => test a = .ok (some found)) ((items.filter accepts).take wanted) out := by
  induction items generalizing wanted with
  | nil => exact ⟨[], rfl, by simp⟩
  | cons a rest ih =>
    have inner := fun b member => judges b (List.mem_cons_of_mem a member)
    obtain ⟨⟨result, answered⟩, later⟩ := (tested_cons wants).mp tested
    have judged := judges a List.mem_cons_self result answered
    unfold search
    rw [answered]
    cases result with
    | none =>
      have refused : ¬accepts a = true := by simp [← judged]
      rw [if_neg refused] at later
      rw [List.filter_cons_of_neg refused]
      exact ih inner wants later
    | some found =>
      have accepted : accepts a = true := judged.symm
      rw [if_pos accepted] at later
      rw [List.filter_cons_of_pos accepted]
      by_cases last : wanted ≤ 1
      · obtain rfl : wanted = 1 := by omega
        exact ⟨[found], rfl, by simpa using answered⟩
      · obtain ⟨out, reached, pairs⟩ := ih inner (show 0 < wanted - 1 by omega) later
        obtain ⟨more, rfl⟩ : ∃ more, wanted = more + 1 := ⟨wanted - 1, by omega⟩
        refine ⟨found :: out, ?_, ?_⟩
        · simp only [if_neg last, reached]
          rfl
        · rw [List.take_succ_cons]
          exact .cons answered pairs

theorem tested_of_search (judges : ∀ a ∈ items, ∀ result, test a = .ok result → result.isSome = accepts a)
    {out : List β} (made : search test wanted items = .ok out) :
    Tested accepts wanted items (fun a => ∃ result, test a = .ok result) := by
  induction items generalizing wanted out with
  | nil =>
    intro before a after split
    exact absurd split.symm (by simp)
  | cons a rest ih =>
    have inner := fun b member => judges b (List.mem_cons_of_mem a member)
    by_cases wants : 0 < wanted
    · unfold search at made
      cases answered : test a with
      | error e =>
        rw [answered] at made
        cases made
      | ok result =>
        have judged := judges a List.mem_cons_self result answered
        rw [answered] at made
        refine (tested_cons wants).mpr ⟨⟨result, answered⟩, ?_⟩
        cases result with
        | none =>
          rw [if_neg (by simp [← judged])]
          exact ih inner made
        | some found =>
          have accepted : accepts a = true := judged.symm
          rw [if_pos accepted]
          by_cases last : wanted ≤ 1
          · rw [show wanted - 1 = 0 by omega]
            exact tested_zero
          · simp only [if_neg last] at made
            cases reached : search test (wanted - 1) rest with
            | error e =>
              rw [reached] at made
              cases made
            | ok later => exact ih inner reached
    · rw [Nat.eq_zero_of_not_pos wants]
      exact tested_zero

/-- Among the first `bound` items stand all the first `wanted` accepted ones. -/
def Within (accepts : α → Bool) (wanted bound : Nat) (items : List α) : Prop :=
  ∀ before a after, items = before ++ a :: after → accepts a = true → (before.filter accepts).length < wanted →
    before.length < bound

theorem within_of_length {bound : Nat}
    (same : (((items.take bound).filter accepts).take wanted).length = ((items.filter accepts).take wanted).length) :
    Within accepts wanted bound items := by
  intro before a after split accepted few
  by_contra late
  have cut : items.take bound = before.take bound := by
    rw [split, List.take_append_of_le_length (by omega)]
  have short : ((before.take bound).filter accepts).length ≤ (before.filter accepts).length :=
    ((List.take_sublist bound before).filter accepts).length_le
  have whole : (items.filter accepts).length = (before.filter accepts).length + 1 + (after.filter accepts).length := by
    rw [split, List.filter_append, List.filter_cons_of_pos accepted, List.length_append, List.length_cons]
    omega
  rw [cut, List.length_take, List.length_take, whole] at same
  omega

theorem take_filter_take {bound : Nat} (within : Within accepts wanted bound items) :
    ((items.take bound).filter accepts).take wanted = (items.filter accepts).take wanted := by
  have parts : items.filter accepts = (items.take bound).filter accepts ++ (items.drop bound).filter accepts := by
    rw [← List.filter_append, List.take_append_drop]
  rw [parts, List.take_append]
  by_cases enough : wanted ≤ ((items.take bound).filter accepts).length
  · rw [Nat.sub_eq_zero_of_le enough, List.take_zero, List.append_nil]
  · have none_left : (items.drop bound).filter accepts = [] := by
      by_contra present
      obtain ⟨a, among⟩ := List.exists_mem_of_ne_nil _ present
      obtain ⟨inside, accepted⟩ := List.mem_filter.mp among
      cases found : (items.drop bound).find? accepts with
      | none => exact absurd accepted (List.find?_eq_none.mp found a inside)
      | some first =>
        obtain ⟨taken, skipped, later, cut, refused⟩ := List.find?_eq_some_iff_append.mp found
        have before : skipped.filter accepts = [] := by
          rw [List.filter_eq_nil_iff]
          intro b member
          simpa using refused b member
        have long : bound < items.length := by
          by_contra short
          rw [List.drop_eq_nil_of_le (by omega)] at inside
          cases inside
        have position := within (items.take bound ++ skipped) first later
          (by rw [List.append_assoc, ← cut, List.take_append_drop]) taken
          (by rw [List.filter_append, before, List.append_nil]; omega)
        rw [List.length_append, List.length_take] at position
        omega
    rw [none_left, List.take_nil, List.append_nil]

/-- Filtering what is sorted sorts what is filtered, where the order tells items apart. -/
theorem filter_insertionSort (r : α → α → Prop) [DecidableRel r] [Std.Total r] [IsTrans α r]
    (apart : ∀ a ∈ items, ∀ b ∈ items, r a b → r b a → a = b) :
    (items.insertionSort r).filter accepts = (items.filter accepts).insertionSort r := by
  refine @List.Perm.eq_of_pairwise _ r _ _ ?_ ?_ ?_ ?_
  · intro a b first second
    have left := (List.perm_insertionSort r items).mem_iff.mp (List.mem_filter.mp first).1
    have right := (List.mem_filter.mp ((List.perm_insertionSort r _).mem_iff.mp second)).1
    exact apart a left b right
  · exact (List.pairwise_insertionSort r items).filter _
  · exact List.pairwise_insertionSort r _
  · exact ((List.perm_insertionSort r items).filter _).trans (List.perm_insertionSort r _).symm

end FirstFound
