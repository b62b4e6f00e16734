import Mathlib.Data.List.Sort
import Mathlib.Data.Prod.Lex

/-! Two ways to the best of some items: a loop that keeps the greatest so far, and the head of
the sorted list. -/

namespace Ranking

universe u v

variable {α : Type u} {κ : Type v} [LinearOrder κ] (key : α → κ)

/-- Keeps the admitted item of the greatest key. -/
def keep (admitted : α → Prop) [DecidablePred admitted] (best : Option α) (item : α) : Option α :=
  if admitted item ∧ ∀ held ∈ best, key held < key item then some item else best

section Keep

variable {admitted : α → Prop} [DecidablePred admitted] {key}

theorem keep_le {best : Option α} {item result : α} (kept : keep key admitted best item = some result) :
    (admitted item → key item ≤ key result) ∧ ∀ held ∈ best, key held ≤ key result := by
  by_cases takes : admitted item ∧ ∀ held ∈ best, key held < key item
  · rw [keep, if_pos takes] at kept
    cases kept
    exact ⟨fun _ => le_refl _, fun held present => (takes.2 held present).le⟩
  · rw [keep, if_neg takes] at kept
    subst kept
    refine ⟨fun fits => ?_, ?_⟩
    · by_contra greater
      refine takes ⟨fits, ?_⟩
      intro held present
      cases present
      exact not_le.mp greater
    · intro held present
      cases present
      exact le_refl _

theorem keep_of_admitted {best : Option α} {item : α} (fits : admitted item) :
    ∃ result, keep key admitted best item = some result := by
  cases best with
  | none => exact ⟨item, if_pos ⟨fits, fun held present => by cases present⟩⟩
  | some held =>
    by_cases takes : admitted item ∧ ∀ other ∈ some held, key other < key item
    · exact ⟨item, if_pos takes⟩
    · exact ⟨held, if_neg takes⟩

theorem keep_some {held item : α} : ∃ result, keep key admitted (some held) item = some result := by
  by_cases takes : admitted item ∧ ∀ other ∈ some held, key other < key item
  · exact ⟨item, if_pos takes⟩
  · exact ⟨held, if_neg takes⟩

theorem foldl_keep_isSome {items : List α} {best : Option α}
    (found : best.isSome ∨ ∃ item ∈ items, admitted item) :
    ∃ result, items.foldl (keep key admitted) best = some result := by
  induction items generalizing best with
  | nil =>
    rcases found with held | ⟨item, member, _⟩
    · exact Option.isSome_iff_exists.mp held
    · cases member
  | cons item rest ih =>
    apply ih
    rcases found with held | ⟨other, member, fits⟩
    · obtain ⟨holder, rfl⟩ := Option.isSome_iff_exists.mp held
      obtain ⟨result, kept⟩ := @keep_some _ _ _ key admitted _ holder item
      exact Or.inl (Option.isSome_iff_exists.mpr ⟨result, kept⟩)
    · rcases List.mem_cons.mp member with rfl | later
      · obtain ⟨result, kept⟩ := @keep_of_admitted _ _ _ key admitted _ best other fits
        exact Or.inl (Option.isSome_iff_exists.mpr ⟨result, kept⟩)
      · exact Or.inr ⟨other, later, fits⟩

theorem foldl_keep {items : List α} {best : Option α} {result : α}
    (kept : items.foldl (keep key admitted) best = some result) :
    (best = some result ∨ (result ∈ items ∧ admitted result)) ∧
      (∀ held ∈ best, key held ≤ key result) ∧ ∀ item ∈ items, admitted item → key item ≤ key result := by
  induction items generalizing best with
  | nil =>
    refine ⟨Or.inl kept, ?_, fun item member => by cases member⟩
    intro held present
    rw [List.foldl_nil] at kept
    rw [kept] at present
    cases present
    exact le_refl _
  | cons item rest ih =>
    obtain ⟨source, above, greatest⟩ := ih kept
    have first : ∀ next ∈ keep key admitted best item, (admitted item → key item ≤ key result) ∧
        ∀ held ∈ best, key held ≤ key result := by
      intro next present
      obtain ⟨own, before⟩ := keep_le present
      exact ⟨fun fits => (own fits).trans (above next present), fun held old => (before held old).trans (above next present)⟩
    refine ⟨?_, ?_, ?_⟩
    · rcases source with now | ⟨member, fits⟩
      · by_cases takes : admitted item ∧ ∀ held ∈ best, key held < key item
        · rw [keep, if_pos takes] at now
          cases now
          exact Or.inr ⟨List.mem_cons_self, takes.1⟩
        · rw [keep, if_neg takes] at now
          exact Or.inl now
      · exact Or.inr ⟨List.mem_cons_of_mem _ member, fits⟩
    · intro held present
      cases present
      obtain ⟨next, kept⟩ := @keep_some _ _ _ key admitted _ held item
      exact (first next kept).2 held rfl
    · intro other member fits
      rcases List.mem_cons.mp member with rfl | later
      · obtain ⟨next, kept⟩ := @keep_of_admitted _ _ _ key admitted _ best other fits
        exact (first next kept).1 fits
      · exact greatest other later fits

end Keep

theorem head_insertionSort {key : α → κ} {before : α → α → Prop} [DecidableRel before]
    (orders : ∀ a b, before a b ↔ key a ≤ key b) {items rest : List α} {head : α}
    (sorted : items.insertionSort before = head :: rest) : head ∈ items ∧ ∀ item ∈ items, key head ≤ key item := by
  have total : Std.Total before := ⟨fun a b => by rw [orders, orders]; exact le_total _ _⟩
  have transitive : IsTrans α before := ⟨fun a b c first second => by
    rw [orders] at first second ⊢
    exact first.trans second⟩
  have among : ∀ item, item ∈ head :: rest ↔ item ∈ items := fun item => by
    rw [← sorted]
    exact List.mem_insertionSort before
  refine ⟨(among head).mp List.mem_cons_self, fun item member => ?_⟩
  have ordered := List.pairwise_insertionSort before items
  rw [sorted] at ordered
  rcases List.mem_cons.mp ((among item).mpr member) with rfl | later
  · exact le_refl _
  · exact (orders _ _).mp (List.rel_of_pairwise_cons ordered later)

theorem insertionSort_perm {key : α → κ} {before : α → α → Prop} [DecidableRel before] {items other : List α}
    (orders : ∀ a ∈ items, ∀ b ∈ items, before a b ↔ key a ≤ key b)
    (apart : ∀ a ∈ items, ∀ b ∈ items, key a = key b → a = b) (order : other.Perm items) :
    other.insertionSort before = items.insertionSort before := by
  have keyed : ∀ list : List α, list.Perm items →
      list.insertionSort before = list.insertionSort (fun a b => key a ≤ key b) := by
    intro list same
    have mapped := List.map_insertionSort before (fun a b => key a ≤ key b) id list
      (fun a first b second => orders a (same.mem_iff.mp first) b (same.mem_iff.mp second))
    simpa using mapped
  rw [keyed other order, keyed items (List.Perm.refl items)]
  have total : Std.Total (fun a b : α => key a ≤ key b) := ⟨fun a b => le_total _ _⟩
  have transitive : IsTrans α (fun a b => key a ≤ key b) := ⟨fun a b c => le_trans⟩
  refine List.Perm.eq_of_pairwise ?_ (List.pairwise_insertionSort _ other) (List.pairwise_insertionSort _ items) ?_
  · intro a b first second below above
    exact apart a (order.mem_iff.mp ((List.mem_insertionSort _).mp first)) b ((List.mem_insertionSort _).mp second)
      (le_antisymm below above)
  · exact (List.perm_insertionSort _ other).trans (order.trans (List.perm_insertionSort _ items).symm)

end Ranking
