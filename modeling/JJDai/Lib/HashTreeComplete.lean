import JJDai.Lib.HashTree

/-! Audit paths and consistency proofs of split trees, read level by level, and
completeness of the bottom-up walk over them. -/

namespace HashTree

/-- RFC 6962 audit path of one position, as subtrees, bottom first. -/
def auditPath (trees : List Tree) (i : Nat) : List Tree :=
  if trees.length < 2 then []
  else
    let k := split trees.length
    if i < k then auditPath (trees.take k) i ++ [join (trees.drop k)]
    else auditPath (trees.drop k) (i - k) ++ [join (trees.take k)]
termination_by trees.length
decreasing_by
  all_goals
    have := @split_pos trees.length (by omega)
    have := @split_lt trees.length (by omega)
    simp only [List.length_take, List.length_drop]; omega

/-- RFC 6962 SUBPROOF: subtrees linking the first `m` positions to all of them. -/
def subproof (m : Nat) (trees : List Tree) (complete : Bool) : List Tree :=
  if m = trees.length then if complete then [] else [join trees]
  else if trees.length < 2 then []
  else
    let k := split trees.length
    if m ≤ k then subproof m (trees.take k) complete ++ [join (trees.drop k)]
    else subproof (m - k) (trees.drop k) false ++ [join (trees.take k)]
termination_by trees.length
decreasing_by
  all_goals
    have := @split_pos trees.length (by omega)
    have := @split_lt trees.length (by omega)
    simp only [List.length_take, List.length_drop]; omega

/-- The audit path with the side on which each subtree lies, `true` for the left. -/
def sidedPath (trees : List Tree) (i : Nat) : List (Bool × Tree) :=
  if trees.length < 2 then []
  else
    let k := split trees.length
    if i < k then sidedPath (trees.take k) i ++ [(false, join (trees.drop k))]
    else sidedPath (trees.drop k) (i - k) ++ [(true, join (trees.take k))]
termination_by trees.length
decreasing_by
  all_goals
    have := @split_pos trees.length (by omega)
    have := @split_lt trees.length (by omega)
    simp only [List.length_take, List.length_drop]; omega

/-- The proof element one level contributes to a sided path. -/
def sidedSibling (trees : List Tree) (i : Nat) : List (Bool × Tree) :=
  if i % 2 = 1 then [(true, trees.getD (i - 1) .empty)]
  else if i + 1 < trees.length then [(false, trees.getD (i + 1) .empty)]
  else []

/-- The proof element one level contributes to an audit path. -/
def sibling (trees : List Tree) (i : Nat) : List Tree :=
  if i % 2 = 1 then [trees.getD (i - 1) .empty]
  else if i + 1 < trees.length then [trees.getD (i + 1) .empty]
  else []

theorem auditPath_small {trees : List Tree} (small : trees.length < 2) (i : Nat) :
    auditPath trees i = [] := by
  rw [auditPath, if_pos small]

theorem auditPath_left {trees : List Tree} {i : Nat} (large : 2 ≤ trees.length)
    (left : i < split trees.length) :
    auditPath trees i = auditPath (trees.take (split trees.length)) i ++
      [join (trees.drop (split trees.length))] := by
  rw [auditPath, if_neg (by omega)]
  simp only [left, if_true]

theorem auditPath_right {trees : List Tree} {i : Nat} (large : 2 ≤ trees.length)
    (right : split trees.length ≤ i) :
    auditPath trees i = auditPath (trees.drop (split trees.length)) (i - split trees.length) ++
      [join (trees.take (split trees.length))] := by
  rw [auditPath, if_neg (by omega)]
  simp only [Nat.not_lt.mpr right, if_false]

theorem auditPath_ne_nil {trees : List Tree} (large : 2 ≤ trees.length) (i : Nat) :
    auditPath trees i ≠ [] := by
  rcases Nat.lt_or_ge i (split trees.length) with left | right
  · rw [auditPath_left large left]; simp
  · rw [auditPath_right large right]; simp

theorem pairUp_split {trees : List Tree} (large : 3 ≤ trees.length) :
    split trees.length = 2 * split (pairUp trees).length ∧
    (pairUp trees).take (split (pairUp trees).length) =
      pairUp (trees.take (split trees.length)) ∧
    (pairUp trees).drop (split (pairUp trees).length) =
      pairUp (trees.drop (split trees.length)) := by
  have half := split_half large
  have lower := @split_lt trees.length (by omega)
  have frontSize : (pairUp (trees.take (split trees.length))).length =
      split ((trees.length + 1) / 2) := by
    rw [length_pairUp, List.length_take]; omega
  have divided : pairUp trees = pairUp (trees.take (split trees.length)) ++
      pairUp (trees.drop (split trees.length)) := by
    rw [← pairUp_append (by rw [List.length_take]; omega), List.take_append_drop]
  rw [length_pairUp]
  refine ⟨half, ?_, ?_⟩
  · rw [divided, ← frontSize, List.take_left]
  · rw [divided, ← frontSize, List.drop_left]

private theorem sidedSibling_take {trees : List Tree} {i k : Nat} (inside : i < k)
    (room : k ≤ trees.length) (even : k % 2 = 0) : sidedSibling (trees.take k) i = sidedSibling trees i := by
  have read (j : Nat) (small : j < k) :
      (trees.take k).getD j .empty = trees.getD j .empty := by
    simp only [List.getD_eq_getElem?_getD, List.getElem?_take, small, if_true]
  simp only [sidedSibling, List.length_take]
  split
  · rw [read _ (by omega)]
  · rw [if_pos (by omega), if_pos (by omega), read _ (by omega)]

private theorem sidedSibling_drop {trees : List Tree} {i k : Nat} (inside : k ≤ i)
    (even : k % 2 = 0) : sidedSibling (trees.drop k) (i - k) = sidedSibling trees i := by
  have read (j : Nat) (large : k ≤ j) :
      (trees.drop k).getD (j - k) .empty = trees.getD j .empty := by
    simp only [List.getD_eq_getElem?_getD, List.getElem?_drop, Nat.add_sub_cancel' large]
  have parity : (i - k) % 2 = i % 2 := by omega
  simp only [sidedSibling, List.length_drop, parity]
  split
  · rw [show i - k - 1 = i - 1 - k by omega, read _ (by omega)]
  · rw [show i - k + 1 = i + 1 - k by omega, read _ (by omega)]
    split <;> split <;> first | rfl | omega

theorem sidedPath_small {trees : List Tree} (small : trees.length < 2) (i : Nat) :
    sidedPath trees i = [] := by
  rw [sidedPath, if_pos small]

theorem sidedPath_left {trees : List Tree} {i : Nat} (large : 2 ≤ trees.length)
    (left : i < split trees.length) :
    sidedPath trees i = sidedPath (trees.take (split trees.length)) i ++
      [(false, join (trees.drop (split trees.length)))] := by
  rw [sidedPath, if_neg (by omega)]
  simp only [left, if_true]

theorem sidedPath_right {trees : List Tree} {i : Nat} (large : 2 ≤ trees.length)
    (right : split trees.length ≤ i) :
    sidedPath trees i = sidedPath (trees.drop (split trees.length)) (i - split trees.length) ++
      [(true, join (trees.take (split trees.length)))] := by
  rw [sidedPath, if_neg (by omega)]
  simp only [Nat.not_lt.mpr right, if_false]

theorem sidedPath_level {trees : List Tree} {i : Nat} (inside : i < trees.length) :
    sidedPath trees i = sidedSibling trees i ++ sidedPath (pairUp trees) (i / 2) := by
  induction size : trees.length using Nat.strong_induction_on generalizing trees i with
  | _ size' ih =>
    subst size
    have up := length_pairUp trees
    match trees, inside with
    | [only], inside =>
      obtain rfl : i = 0 := by simpa using inside
      simp [sidedPath_small, sidedSibling, pairUp]
    | [first, second], inside =>
      have one : split 2 = 1 := split_eq_pow (e := 0) (by omega) (by omega)
      have above : sidedPath (pairUp [first, second]) (i / 2) = [] :=
        sidedPath_small (by simp [pairUp]) _
      rw [above]
      rcases (show i = 0 ∨ i = 1 by simp at inside; omega) with rfl | rfl
      · rw [sidedPath_left (by simp) (by simp [one])]
        simp [one, sidedPath_small, sidedSibling]
      · rw [sidedPath_right (by simp) (by simp [one])]
        simp [one, sidedPath_small, sidedSibling]
    | first :: second :: third :: rest, inside =>
      generalize whole : first :: second :: third :: rest = trees at *
      have large : 3 ≤ trees.length := by subst whole; simp
      have lower := @split_lt trees.length (by omega)
      have positive := @split_pos trees.length (by omega)
      have upLower := @split_lt (pairUp trees).length (by omega)
      obtain ⟨half, front, back⟩ := pairUp_split large
      rcases Nat.lt_or_ge i (split trees.length) with left | right
      · rw [sidedPath_left (by omega) left, @sidedPath_left (pairUp trees) _ (by omega) (by omega),
          front, back, join_pairUp]
        rw [ih (trees.take (split trees.length)).length (by rw [List.length_take]; omega)
          (by rw [List.length_take]; omega) rfl, sidedSibling_take left lower.le (by omega)]
        simp
      · rw [sidedPath_right (by omega) right,
          @sidedPath_right (pairUp trees) _ (by omega) (by omega), front, back, join_pairUp]
        rw [ih (trees.drop (split trees.length)).length (by rw [List.length_drop]; omega)
          (by rw [List.length_drop]; omega) rfl, sidedSibling_drop right (by omega)]
        rw [show (i - split trees.length) / 2 = i / 2 - split (pairUp trees).length by omega]
        simp

theorem map_sidedPath (trees : List Tree) (i : Nat) : (sidedPath trees i).map Prod.snd = auditPath trees i := by
  induction size : trees.length using Nat.strong_induction_on generalizing trees i with
  | _ size' ih =>
    subst size
    by_cases small : trees.length < 2
    · rw [sidedPath_small small, auditPath_small small, List.map_nil]
    · have lower := @split_lt trees.length (by omega)
      have positive := @split_pos trees.length (by omega)
      rcases Nat.lt_or_ge i (split trees.length) with left | right
      · rw [sidedPath_left (by omega) left, auditPath_left (by omega) left, List.map_append,
          ih _ (by rw [List.length_take]; omega) _ _ rfl, List.map_singleton]
      · rw [sidedPath_right (by omega) right, auditPath_right (by omega) right, List.map_append,
          ih _ (by rw [List.length_drop]; omega) _ _ rfl, List.map_singleton]

theorem auditPath_level {trees : List Tree} {i : Nat} (inside : i < trees.length) :
    auditPath trees i = sibling trees i ++ auditPath (pairUp trees) (i / 2) := by
  have same : sibling trees i = (sidedSibling trees i).map Prod.snd := by
    unfold sibling sidedSibling
    split
    · rfl
    · split <;> rfl
  rw [← map_sidedPath, ← map_sidedPath, sidedPath_level inside, List.map_append, same]

theorem subproof_all (trees : List Tree) (complete : Bool) :
    subproof trees.length trees complete = if complete then [] else [join trees] := by
  rw [subproof, if_pos rfl]

theorem subproof_left {trees : List Tree} {m : Nat} {complete : Bool} (large : 2 ≤ trees.length)
    (left : m ≤ split trees.length) :
    subproof m trees complete = subproof m (trees.take (split trees.length)) complete ++
      [join (trees.drop (split trees.length))] := by
  have lower := split_lt large
  rw [subproof, if_neg (by omega), if_neg (by omega)]
  simp only [left, if_true]

theorem subproof_right {trees : List Tree} {m : Nat} {complete : Bool} (large : 2 ≤ trees.length)
    (right : split trees.length < m) (proper : m < trees.length) :
    subproof m trees complete =
      subproof (m - split trees.length) (trees.drop (split trees.length)) false ++
        [join (trees.take (split trees.length))] := by
  rw [subproof, if_neg (by omega), if_neg (by omega)]
  simp only [Nat.not_le.mpr right, if_false]

theorem subproof_even {trees : List Tree} {m : Nat} (complete : Bool) (positive : 0 < m)
    (even : m % 2 = 0) (room : m ≤ trees.length) :
    subproof m trees complete = subproof (m / 2) (pairUp trees) complete := by
  induction size : trees.length using Nat.strong_induction_on
    generalizing trees m complete with
  | _ size' ih =>
    subst size
    have up := length_pairUp trees
    rcases Nat.lt_or_eq_of_le room with proper | whole
    · have large : 3 ≤ trees.length := by omega
      have lower := @split_lt trees.length (by omega)
      have some_left := @split_pos trees.length (by omega)
      have upLower := @split_lt (pairUp trees).length (by omega)
      obtain ⟨half, front, back⟩ := pairUp_split large
      rcases Nat.lt_or_ge (split trees.length) m with right | left
      · rw [subproof_right (by omega) right proper,
          @subproof_right (pairUp trees) _ _ (by omega) (by omega) (by omega), front, back,
          join_pairUp]
        rw [ih (trees.drop (split trees.length)).length (by rw [List.length_drop]; omega)
          false (by omega) (by omega) (by rw [List.length_drop]; omega) rfl]
        rw [show (m - split trees.length) / 2 = m / 2 - split (pairUp trees).length by omega]
      · rw [subproof_left (by omega) left,
          @subproof_left (pairUp trees) _ _ (by omega) (by omega), front, back, join_pairUp]
        rw [ih (trees.take (split trees.length)).length (by rw [List.length_take]; omega)
          complete positive even (by rw [List.length_take]; omega) rfl]
    · have upWhole : m / 2 = (pairUp trees).length := by omega
      rw [upWhole, whole, subproof_all, subproof_all, join_pairUp]

theorem subproof_odd {trees : List Tree} {m : Nat} (complete : Bool) (odd : m % 2 = 1)
    (proper : m < trees.length) :
    subproof m trees complete =
      (if complete ∧ m = 1 then [] else [trees.getD (m - 1) .empty]) ++
        auditPath trees (m - 1) := by
  induction size : trees.length using Nat.strong_induction_on
    generalizing trees m complete with
  | _ size' ih =>
    subst size
    have lower := @split_lt trees.length (by omega)
    have some_left := @split_pos trees.length (by omega)
    rcases Nat.lt_or_ge (split trees.length) m with right | left
    · have large : 3 ≤ trees.length := by omega
      have half := split_half large
      rw [subproof_right (by omega) right proper,
        @auditPath_right trees (m - 1) (by omega) (by omega)]
      rw [ih (trees.drop (split trees.length)).length (by rw [List.length_drop]; omega)
        false (by omega) (by rw [List.length_drop]; omega) rfl]
      have read : (trees.drop (split trees.length)).getD (m - split trees.length - 1) .empty =
          trees.getD (m - 1) .empty := by
        simp only [List.getD_eq_getElem?_getD, List.getElem?_drop]
        rw [show split trees.length + (m - split trees.length - 1) = m - 1 by omega]
      rw [read, show m - split trees.length - 1 = m - 1 - split trees.length by omega]
      simp [show m ≠ 1 by omega]
    · rw [subproof_left (by omega) left, @auditPath_left trees (m - 1) (by omega) (by omega)]
      rcases Nat.lt_or_eq_of_le left with inner | whole
      · rw [ih (trees.take (split trees.length)).length (by rw [List.length_take]; omega)
          complete odd (by rw [List.length_take]; omega) rfl]
        have read : (trees.take (split trees.length)).getD (m - 1) .empty =
            trees.getD (m - 1) .empty := by
          simp only [List.getD_eq_getElem?_getD, List.getElem?_take,
            show m - 1 < split trees.length by omega, if_true]
        rw [read, List.append_assoc]
      · -- an odd power of two is one, so the left subtree is a single leaf
        have one : split trees.length = 1 := by
          obtain ⟨e, value, _, _⟩ := @split_spec trees.length (by omega)
          cases e with
          | zero => exact value
          | succ e =>
            have double : 2 ^ (e + 1) = 2 * 2 ^ e := by ring
            omega
        obtain rfl : m = 1 := by omega
        match trees, proper with
        | first :: second :: rest, _ =>
          rw [one]
          cases complete <;> simp [subproof, auditPath_small]

/-- A power of two, as the bit length sees it. -/
def isPow2 (m : Nat) : Bool := m == 2 ^ Nat.log2 m

theorem isPow2_double {m : Nat} (positive : 0 < m) : isPow2 (2 * m) = isPow2 m := by
  have step : Nat.log2 (2 * m) = Nat.log2 m + 1 := Nat.log2_two_mul positive.ne'
  have double : 2 ^ (Nat.log2 m + 1) = 2 * 2 ^ Nat.log2 m := by ring
  rw [Bool.eq_iff_iff]
  simp only [isPow2, step, double, beq_iff_eq]
  omega

theorem isPow2_odd {m : Nat} (odd : m % 2 = 1) : isPow2 m = decide (m = 1) := by
  rw [Bool.eq_iff_iff, decide_eq_true_iff, isPow2, beq_iff_eq]
  constructor
  · intro power
    cases level : Nat.log2 m with
    | zero => simpa [level] using power
    | succ e =>
      have double : 2 ^ (e + 1) = 2 * 2 ^ e := by ring
      rw [level, double] at power
      omega
  · rintro rfl; decide

theorem climb_complete (H : Bytes → Bytes) {old new : List Tree} {fn sn : Nat}
    (oldSize : old.length = fn + 1) (newSize : new.length = sn + 1) (le : fn ≤ sn)
    (agree : ∀ i < fn, digestAt H old i = digestAt H new i) :
    climb H fn sn (digestAt H old fn) (digestAt H new fn) ((auditPath new fn).map (digest H)) =
      some (0, digest H (join old), digest H (join new)) := by
  induction sn using Nat.strong_induction_on generalizing fn old new with
  | _ sn ih =>
    have upOld := length_pairUp old
    have upNew := length_pairUp new
    rcases Nat.eq_zero_or_pos sn with rfl | positive
    · obtain rfl : fn = 0 := by omega
      obtain ⟨a, rfl⟩ := List.length_eq_one_iff.mp oldSize
      obtain ⟨b, rfl⟩ := List.length_eq_one_iff.mp newSize
      simp [auditPath_small, climb, digestAt]
    · have agreeUp : ∀ i < fn / 2, digestAt H (pairUp old) i = digestAt H (pairUp new) i := by
        intro i inside
        rw [digestAt_pair H (by omega), digestAt_pair H (by omega), agree _ (by omega),
          agree _ (by omega)]
      have above := ih (sn / 2) (by omega) (by omega) (by omega) (by omega) agreeUp
      rw [join_pairUp, join_pairUp] at above
      rw [auditPath_level (by omega), List.map_append, sibling]
      rcases Nat.mod_two_eq_zero_or_one fn with even | odd
      · have last : digestAt H (pairUp old) (fn / 2) = digestAt H old fn := by
          rw [digestAt_last H (by omega), show 2 * (fn / 2) = fn by omega]
        rw [last] at above
        rw [if_neg (by omega)]
        rcases Nat.lt_or_eq_of_le le with lt | same
        · rw [if_pos (by omega), List.map_singleton, List.singleton_append, climb_even H even lt]
          rw [digestAt_pair H (by omega), show 2 * (fn / 2) = fn by omega] at above
          exact above
        · subst same
          rw [if_neg (by omega), List.map_nil, List.nil_append,
            climb_promote H positive.ne' even _ _ _
              (by simpa using auditPath_ne_nil (by omega) _)]
          rw [digestAt_last H (by omega), show 2 * (fn / 2) = fn by omega] at above
          exact above
      · rw [if_pos odd, List.map_singleton, List.singleton_append, climb_odd H odd le]
        rw [digestAt_pair H (by omega), digestAt_pair H (by omega),
          show 2 * (fn / 2) + 1 = fn by omega, show 2 * (fn / 2) = fn - 1 by omega,
          agree (fn - 1) (by omega)] at above
        exact above

/-- The elements a verifier walks: the older root leads when its size is a power of two. -/
def startPath (H : Bytes → Bytes) (old new : List Tree) (m : Nat) : List Bytes :=
  if isPow2 m then digest H (join old) :: (subproof m new true).map (digest H)
  else (subproof m new true).map (digest H)

theorem climb_start_complete (H : Bytes → Bytes) {old new : List Tree} {fn sn : Nat}
    (oldSize : old.length = fn + 1) (newSize : new.length = sn + 1) (lt : fn < sn)
    (agree : ∀ i ≤ fn, digestAt H old i = digestAt H new i) :
    ∃ first rest, startPath H old new (fn + 1) = first :: rest ∧
      climb H (skipOdd fn sn).1 (skipOdd fn sn).2 first first rest =
        some (0, digest H (join old), digest H (join new)) := by
  induction fn, sn using skipOdd.induct generalizing old new with
  | case1 fn sn odd ih =>
    have upOld := length_pairUp old
    have upNew := length_pairUp new
    have agreeUp : ∀ i ≤ fn / 2, digestAt H (pairUp old) i = digestAt H (pairUp new) i := by
      intro i inside
      rw [digestAt_pair H (by omega), digestAt_pair H (by omega), agree _ (by omega),
        agree _ (by omega)]
    obtain ⟨first, rest, path, run⟩ := ih (by omega) (by omega) (by omega) agreeUp
    refine ⟨first, rest, ?_, ?_⟩
    · rw [← path]
      have double : fn + 1 = 2 * (fn / 2 + 1) := by omega
      have power : isPow2 (fn + 1) = isPow2 (fn / 2 + 1) := by
        conv_lhs => rw [double]
        exact isPow2_double (by omega)
      have half : (fn + 1) / 2 = fn / 2 + 1 := by omega
      simp only [startPath, power, join_pairUp]
      rw [subproof_even true (by omega) (by omega) (by omega), half]
    · rw [skipOdd, if_pos odd]
      simpa only [join_pairUp] using run
  | case2 fn sn even =>
    have whole := climb_complete H oldSize newSize lt.le (fun i inside => agree i (by omega))
    rw [agree fn (le_refl _)] at whole
    refine ⟨digestAt H new fn, (auditPath new fn).map (digest H), ?_, ?_⟩
    · rw [startPath, isPow2_odd (by omega), subproof_odd true (by omega) (by omega)]
      by_cases single : fn = 0
      · subst single
        obtain ⟨a, rfl⟩ := List.length_eq_one_iff.mp oldSize
        have shared := agree 0 (le_refl _)
        simpa [digestAt] using shared
      · simp [single, digestAt]
    · rw [skipOdd, if_neg even]
      exact whole

end HashTree
