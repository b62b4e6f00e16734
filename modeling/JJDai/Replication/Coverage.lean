import JJDai.Replication.RecoveryComplete

/-! The coverage map of a segment store: its ranges are what is held, and the gaps it names are
what is not. -/

namespace JJDai.Replication

open PyText

/-- Ranges in order, none empty and no two of them touching. -/
structure Separated (ranges : List (Int × Int)) : Prop where
  some_in : ∀ range ∈ ranges, range.1 < range.2
  ordered : ranges.Pairwise (fun a b => a.2 < b.1)

theorem Separated.nil : Separated [] := ⟨by simp, .nil⟩

theorem Separated.tail {range : Int × Int} {rest : List (Int × Int)} (apart : Separated (range :: rest)) :
    Separated rest ∧ range.1 < range.2 ∧ ∀ later ∈ rest, range.2 < later.1 := by
  obtain ⟨some_in, ordered⟩ := apart
  obtain ⟨before, ordered⟩ := List.pairwise_cons.mp ordered
  exact ⟨⟨fun later member => some_in later (List.mem_cons_of_mem _ member), ordered⟩, some_in range List.mem_cons_self,
    before⟩

theorem Separated.snoc {ranges : List (Int × Int)} (apart : Separated ranges) {range : Int × Int} (some_in : range.1 < range.2)
    (after : ∀ earlier ∈ ranges, earlier.2 < range.1) : Separated (ranges ++ [range]) := by
  constructor
  · intro other member
    rcases List.mem_append.mp member with old | new
    · exact apart.some_in other old
    · rw [List.mem_singleton.mp new]
      exact some_in
  · rw [List.pairwise_append]
    refine ⟨apart.ordered, List.pairwise_singleton _ _, ?_⟩
    intro earlier member other new
    rw [List.mem_singleton.mp new]
    exact after earlier member

theorem covered_append {front back : List (Int × Int)} {i : Int} :
    Covered (front ++ back) i ↔ Covered front i ∨ Covered back i := by
  constructor
  · rintro ⟨range, member, inside⟩
    rcases List.mem_append.mp member with old | new
    · exact .inl ⟨range, old, inside⟩
    · exact .inr ⟨range, new, inside⟩
  · rintro (⟨range, member, inside⟩ | ⟨range, member, inside⟩)
    · exact ⟨range, List.mem_append_left _ member, inside⟩
    · exact ⟨range, List.mem_append_right _ member, inside⟩

theorem covered_cons {range : Int × Int} {rest : List (Int × Int)} {i : Int} :
    Covered (range :: rest) i ↔ (range.1 ≤ i ∧ i < range.2) ∨ Covered rest i := by
  constructor
  · rintro ⟨other, member, inside⟩
    rcases List.mem_cons.mp member with rfl | later
    · exact .inl inside
    · exact .inr ⟨other, later, inside⟩
  · rintro (inside | ⟨other, member, inside⟩)
    · exact ⟨range, List.mem_cons_self, inside⟩
    · exact ⟨other, List.mem_cons_of_mem _ member, inside⟩

theorem covered_nil {i : Int} : ¬Covered [] i := by
  rintro ⟨range, member, _⟩
  cases member

private theorem apart_extend {front : List (Int × Int)} {start i : Int} (apart : Separated (front ++ [(start, i)])) :
    Separated (front ++ [(start, i + 1)]) ∧
      ∀ j, Covered (front ++ [(start, i + 1)]) j ↔ Covered (front ++ [(start, i)]) j ∨ j = i := by
  have some_in := apart.some_in (start, i) (by simp)
  obtain ⟨before, _, between⟩ := List.pairwise_append.mp apart.ordered
  have old : Separated front := ⟨fun range member => apart.some_in range (by simp [member]), before⟩
  refine ⟨old.snoc (by dsimp only at *; omega) (fun earlier member => ?_), fun j => ?_⟩
  · exact between earlier member (start, i) (by simp)
  · rw [covered_append, covered_append, covered_cons, covered_cons]
    simp only [covered_nil, or_false, or_assoc]
    dsimp only at some_in ⊢
    constructor
    · rintro (first | ⟨low, high⟩)
      · exact .inl first
      · by_cases same : j = i
        · exact .inr (.inr same)
        · exact .inr (.inl ⟨low, by omega⟩)
    · rintro (first | ⟨low, high⟩ | same)
      · exact .inl first
      · exact .inr ⟨low, by omega⟩
      · exact .inr (by omega)

/-- Indexes in order are merged into separated ranges that cover them and nothing else. -/
theorem mergeRanges_spec {ranges : List (Int × Int)} {indexes : List Int} (apart : Separated ranges)
    (sorted : indexes.Pairwise (· < ·)) (after : ∀ range ∈ ranges, ∀ i ∈ indexes, range.2 ≤ i) :
    Separated (mergeRanges ranges indexes) ∧ ∀ j, Covered (mergeRanges ranges indexes) j ↔ Covered ranges j ∨ j ∈ indexes := by
  induction indexes generalizing ranges with
  | nil => exact ⟨apart, fun j => by simp [mergeRanges]⟩
  | cons i rest ih =>
    obtain ⟨below, sorted⟩ := List.pairwise_cons.mp sorted
    have goes {next : List (Int × Int)} (apartNext : Separated next) (last : ∀ range ∈ next, range.2 ≤ i + 1)
        (covers : ∀ j, Covered next j ↔ Covered ranges j ∨ j = i) :
        Separated (mergeRanges next rest) ∧ ∀ j, Covered (mergeRanges next rest) j ↔ Covered ranges j ∨ j ∈ i :: rest := by
      obtain ⟨merged, exact_⟩ := ih apartNext sorted (fun range member j later => by
        have bound := last range member
        have above := below j later
        omega)
      refine ⟨merged, fun j => ?_⟩
      rw [exact_, covers, List.mem_cons, or_assoc]
    have single (j : Int) : Covered [(i, i + 1)] j ↔ j = i := by
      rw [covered_cons]
      simp only [covered_nil, or_false]
      omega
    rw [mergeRanges]
    split
    · rename_i start stop ending
      obtain ⟨front, rfl⟩ := List.getLast?_eq_some_iff.mp ending
      have bounds := after (start, stop) (by simp) i List.mem_cons_self
      split
      · rename_i adjacent
        subst adjacent
        rw [List.dropLast_concat]
        obtain ⟨grown, covers⟩ := apart_extend apart
        refine goes grown (fun range member => ?_) covers
        rcases List.mem_append.mp member with old | new
        · have bound := after range (List.mem_append_left _ old) i List.mem_cons_self
          omega
        · rw [List.mem_singleton.mp new]
      · rename_i separate
        have strictly : ∀ earlier ∈ front ++ [(start, stop)], earlier.2 < i := by
          intro earlier member
          rcases List.mem_append.mp member with old | new
          · have between := (List.pairwise_append.mp apart.ordered).2.2 earlier old (start, stop) (by simp)
            have some_in := apart.some_in (start, stop) (by simp)
            dsimp only at between some_in bounds
            omega
          · rw [List.mem_singleton.mp new]
            dsimp only at bounds ⊢
            omega
        refine goes (apart.snoc (by dsimp only; omega) strictly) (fun range member => ?_) (fun j => ?_)
        · rcases List.mem_append.mp member with old | new
          · have bound := strictly range old
            omega
          · rw [List.mem_singleton.mp new]
        · rw [covered_append, single]
    · rename_i none_before
      obtain rfl := List.getLast?_eq_none_iff.mp none_before
      refine goes (Separated.nil.snoc (by dsimp only; omega) (by simp)) (fun range member => ?_) (fun j => ?_)
      · rw [List.mem_singleton.mp member]
      · rw [single]
        simp [covered_nil]

/-- What `missing` makes of the gaps found and the cursor. -/
def closeGaps (count : Int) (found : List (Int × Int) × Int) : List (Int × Int) :=
  (if found.2 < count then found.1 ++ [(found.2, count)] else found.1).filter (fun gap => gap.1 < gap.2)

/-- The gaps between `low` and `count`: in order, apart, and exactly what the ranges do not cover. -/
structure Complement (ranges : List (Int × Int)) (low count : Int) (gaps : List (Int × Int)) : Prop where
  separated : Separated gaps
  inside : ∀ gap ∈ gaps, low ≤ gap.1 ∧ gap.2 ≤ count
  covers : ∀ i, low ≤ i → i < count → (Covered gaps i ↔ ¬Covered ranges i)

private theorem complement_end (cursor count : Int) :
    Complement [] cursor count (if cursor < count then [(cursor, count)] else []) := by
  by_cases short : cursor < count
  · rw [if_pos short]
    refine ⟨Separated.nil.snoc short (by simp), ?_, fun i low high => ?_⟩
    · intro gap member
      rw [List.mem_singleton.mp member]
      exact ⟨le_refl cursor, le_refl count⟩
    · exact iff_of_true ⟨_, List.mem_singleton_self _, low, high⟩ covered_nil
  · rw [if_neg short]
    exact ⟨Separated.nil, by simp, fun i low high => by omega⟩

private theorem complement_last {cursor count start stop : Int} {rest : List (Int × Int)} (reached : count ≤ stop)
    (later : ∀ range ∈ rest, stop < range.1) :
    Complement ((start, stop) :: rest) cursor count
      (if cursor < start ∧ cursor < count then [(cursor, min start count)] else []) := by
  have beyond (i : Int) (high : i < count) : ¬Covered rest i := by
    rintro ⟨range, member, low, _⟩
    have above := later range member
    omega
  have before (i : Int) (high : i < count) : Covered ((start, stop) :: rest) i ↔ start ≤ i := by
    rw [covered_cons, or_iff_left (beyond i high)]
    dsimp only
    omega
  by_cases some_left : cursor < start ∧ cursor < count
  · rw [if_pos some_left]
    refine ⟨Separated.nil.snoc (lt_min some_left.1 some_left.2) (by simp), ?_, fun i low high => ?_⟩
    · intro gap member
      rw [List.mem_singleton.mp member]
      exact ⟨le_refl cursor, min_le_right start count⟩
    · rw [before i high, covered_cons, or_iff_left covered_nil]
      dsimp only
      omega
  · rw [if_neg some_left]
    refine ⟨Separated.nil, by simp, fun i low high => ?_⟩
    rw [before i high, iff_false_left covered_nil, not_not]
    omega

private theorem complement_more {cursor count start stop : Int} {rest gaps : List (Int × Int)} (some_in : start < stop)
    (below : stop < count) (later : ∀ range ∈ rest, stop < range.1) (above : cursor ≤ start)
    (after : Complement rest stop count gaps) :
    Complement ((start, stop) :: rest) cursor count ((if cursor < start then [(cursor, start)] else []) ++ gaps) := by
  have ahead (i : Int) (high : i < stop) : ¬Covered rest i := by
    rintro ⟨range, member, low, _⟩
    have above := later range member
    omega
  have behind (i : Int) (low : i < stop) : ¬Covered gaps i := by
    rintro ⟨range, member, first, _⟩
    have above := (after.inside range member).1
    omega
  -- the range itself is not covered by a later gap, and no later gap starts where it stops
  have starts : ∀ gap ∈ gaps, stop ≤ gap.1 := fun gap member => (after.inside gap member).1
  have exactly (i : Int) (low : cursor ≤ i) (high : i < count) :
      ((i < start) ∨ Covered gaps i) ↔ ¬Covered ((start, stop) :: rest) i := by
    rw [covered_cons]
    dsimp only
    by_cases early : i < stop
    · have free := behind i early
      have none_later := ahead i early
      constructor
      · rintro (first | gap)
        · rintro (inside | covered)
          · omega
          · exact none_later covered
        · exact absurd gap free
      · intro outside
        by_cases first : i < start
        · exact .inl first
        · exact absurd (.inl ⟨by omega, early⟩) outside
    · rw [after.covers i (by omega) high]
      constructor
      · rintro (first | outside)
        · omega
        · rintro (inside | covered)
          · omega
          · exact outside covered
      · intro outside
        exact .inr (fun covered => outside (.inr covered))
  by_cases some_left : cursor < start
  · rw [if_pos some_left]
    refine ⟨⟨?_, ?_⟩, ?_, fun i low high => ?_⟩
    · intro gap member
      rcases List.mem_cons.mp member with rfl | old
      · exact some_left
      · exact after.separated.some_in gap old
    · refine List.pairwise_cons.mpr ⟨fun gap member => ?_, after.separated.ordered⟩
      have bound := starts gap member
      dsimp only
      omega
    · intro gap member
      rcases List.mem_cons.mp member with rfl | old
      · dsimp only
        omega
      · have bounds := after.inside gap old
        omega
    · rw [← exactly i low high, List.singleton_append, covered_cons]
      dsimp only
      refine or_congr_left ?_
      omega
  · rw [if_neg some_left]
    refine ⟨after.separated, ?_, fun i low high => ?_⟩
    · intro gap member
      have bounds := after.inside gap member
      omega
    · rw [← exactly i low high, List.nil_append, or_iff_right (by omega)]

theorem gapsBelow_complement {count cursor : Int} {ranges : List (Int × Int)} (separated : Separated ranges)
    (ahead : ∀ range ∈ ranges, cursor ≤ range.1) (gaps : List (Int × Int)) :
    ∃ tail, closeGaps count (gapsBelow count gaps cursor ranges) =
      gaps.filter (fun gap => gap.1 < gap.2) ++ tail ∧ Complement ranges cursor count tail := by
  induction ranges generalizing gaps cursor with
  | nil =>
    refine ⟨_, ?_, complement_end cursor count⟩
    rw [gapsBelow, closeGaps]
    by_cases short : cursor < count
    · simp [short, List.filter_append]
    · simp [short]
  | cons range rest ih =>
    obtain ⟨start, stop⟩ := range
    obtain ⟨separated, some_in, later⟩ := separated.tail
    have above := ahead (start, stop) List.mem_cons_self
    dsimp only at some_in later above
    have cursorNext : max cursor stop = stop := by omega
    rw [gapsBelow, cursorNext]
    by_cases reached : count ≤ stop
    · refine ⟨_, ?_, complement_last reached later⟩
      have closed : ¬stop < count := by omega
      rw [if_pos reached, closeGaps, if_neg closed]
      by_cases some_left : cursor < start
      · by_cases inside : cursor < count
        · simp [some_left, inside, List.filter_append]
        · have empty : ¬cursor < min start count := by omega
          simp [some_left, inside, empty, List.filter_append]
      · simp [some_left]
    · obtain ⟨tail, closed, complement⟩ := @ih stop separated (fun other member => le_of_lt (later other member))
        (if cursor < start then gaps ++ [(cursor, min start count)] else gaps)
      refine ⟨_, ?_, complement_more some_in (by omega) later above complement⟩
      rw [if_neg reached, closed]
      have least : min start count = start := by omega
      by_cases some_left : cursor < start
      · simp [some_left, least, List.filter_append]
      · simp [some_left]

theorem Complement.maximal {ranges gaps : List (Int × Int)} {low count : Int} (complement : Complement ranges low count gaps)
    {gap : Int × Int} (member : gap ∈ gaps) :
    (gap.1 = low ∨ Covered ranges (gap.1 - 1)) ∧ (gap.2 = count ∨ Covered ranges gap.2) := by
  have bounds := complement.inside gap member
  have some_in := complement.separated.some_in gap member
  have apart : ∀ other ∈ gaps, other.2 < gap.1 ∨ gap.2 < other.1 ∨ other = gap := by
    intro other inside
    have order := complement.separated.ordered
    have forwards : gaps.Pairwise (fun a b => a.2 < b.1 ∨ b.2 < a.1 ∨ a = b) := order.imp (fun before => .inl before)
    have backwards : gaps.Pairwise (flip (fun a b => a.2 < b.1 ∨ b.2 < a.1 ∨ a = b)) :=
      order.imp (fun before => .inr (.inl before))
    exact forwards.forall_of_forall_of_flip (fun _ _ => .inr (.inr rfl)) backwards inside member
  constructor
  · by_contra neither
    obtain ⟨inner, uncovered⟩ := not_or.mp neither
    obtain ⟨other, inside, first, last⟩ := (complement.covers (gap.1 - 1) (by omega) (by omega)).mpr uncovered
    rcases apart other inside with before | after | rfl
    · omega
    · omega
    · omega
  · by_contra neither
    obtain ⟨inner, uncovered⟩ := not_or.mp neither
    obtain ⟨other, inside, first, last⟩ := (complement.covers gap.2 (by omega) (by omega)).mpr uncovered
    rcases apart other inside with before | after | rfl
    · omega
    · omega
    · omega

section Store

variable {store : SegmentStore} {origin : Str} (unique : (Dict.keys (store.held origin)).Nodup)

include unique

theorem coverage_spec : Separated (store.coverage origin) ∧
    ∀ i, Covered (store.coverage origin) i ↔ (Dict.get? (store.held origin) i).isSome := by
  have order := List.perm_insertionSort (· ≤ ·) (Dict.keys (store.held origin))
  have sorted : ((Dict.keys (store.held origin)).insertionSort (· ≤ ·)).Pairwise (· < ·) :=
    (List.sortedLT_iff_nodup_and_sortedLE.mpr
      ⟨order.nodup_iff.mpr unique, List.sortedLE_insertionSort⟩).pairwise
  obtain ⟨separated, covers⟩ := @mergeRanges_spec [] _ Separated.nil sorted (by simp)
  refine ⟨separated, fun i => ?_⟩
  rw [SegmentStore.coverage, covers, order.mem_iff, Dict.mem_keys]
  exact or_iff_right covered_nil

theorem missing_complement (nonneg : ∀ i, (Dict.get? (store.held origin) i).isSome → 0 ≤ i) (count : Int) :
    Complement (store.coverage origin) 0 count (store.missing origin count) := by
  obtain ⟨separated, covers⟩ := coverage_spec unique
  have ahead : ∀ range ∈ store.coverage origin, 0 ≤ range.1 := by
    intro range member
    exact nonneg range.1 ((covers range.1).mp ⟨range, member, le_refl _, separated.some_in range member⟩)
  obtain ⟨tail, closed, complement⟩ := @gapsBelow_complement count 0 _ separated ahead []
  have same : store.missing origin count = tail := closed
  rw [same]
  exact complement

end Store

end JJDai.Replication
