import JJDai.Lib.Ranking
import JJDai.Reputation.Direction

/-! The champion of a topic and the first row of its leaderboard. -/

namespace JJDai.Reputation

open PyText Ranking

namespace Registry

section Keys

variable {K : Type} [LinearOrder K]

def championKey (row : Ranked K) : K ×ₗ K ×ₗ Str := toLex (row.2.1, toLex (row.2.2, row.1))

/-- Less weight, or as much and a smaller margin. -/
def Behind (a b : Ranked K) : Prop := a.2.1 < b.2.1 ∨ a.2.1 = b.2.1 ∧ a.2.2 < b.2.2

variable {a b : Ranked K}

theorem keyGreater_iff : keyGreater a b ↔ championKey b < championKey a := by
  simp only [keyGreater, championKey, Prod.Lex.toLex_lt_toLex]

theorem championKey_lt (behind : Behind a b) : championKey a < championKey b := by
  simp only [championKey, Prod.Lex.toLex_lt_toLex]
  rcases behind with lighter | ⟨same, smaller⟩
  · exact Or.inl lighter
  · exact Or.inr ⟨same, Or.inl smaller⟩

theorem better_eq_keep (params : Params K) :
    better params = keep championKey (fun row : Ranked K => params.wMin ≤ row.2.1) := by
  funext best row
  simp only [better, keep, keyGreater_iff]

variable [Neg K]

def rowKey (row : Ranked K) : K ×ₗ K ×ₗ Str := toLex (-row.2.1, toLex (-row.2.2, row.1))

theorem rowLess_iff : rowLess a b ↔ rowKey a < rowKey b := by
  simp only [rowLess, rowKey, Prod.Lex.toLex_lt_toLex]

variable (reverses : StrictAnti (fun x : K => -x))

include reverses

theorem rowKey_lt (behind : Behind a b) : rowKey b < rowKey a := by
  simp only [rowKey, Prod.Lex.toLex_lt_toLex]
  rcases behind with lighter | ⟨same, smaller⟩
  · exact Or.inl (reverses lighter)
  · exact Or.inr ⟨congrArg _ same.symm, Or.inl (reverses smaller)⟩

theorem behind_or_tie (before : rowKey b ≤ rowKey a) : Behind a b ∨ (a.2 = b.2 ∧ b.1 ≤ a.1) := by
  simp only [rowKey, Prod.Lex.toLex_le_toLex, reverses.lt_iff_gt, reverses.injective.eq_iff] at before
  rcases before with heavier | ⟨weight, larger | ⟨margin, earlier⟩⟩
  · exact Or.inl (Or.inl heavier)
  · exact Or.inl (Or.inr ⟨weight.symm, larger⟩)
  · exact Or.inr ⟨Prod.ext weight.symm margin.symm, earlier⟩

end Keys

variable {K : Type} [Add K] [Sub K] [Mul K] [Neg K] [Zero K] [One K] [LinearOrder K]
variable {arithmetic : Arithmetic K} {params : Params K} {registry : Registry K}
variable {topic scope : Str} {now : K} {order : Str → List Str} {listed : List Str}

theorem ranked_id {objectId : Str} {row : Ranked K}
    (ranked : registry.ranked arithmetic params topic scope now objectId = .ok row) : row.1 = objectId := by
  obtain ⟨c, _, rest⟩ := Py.bind_ok.mp ranked
  cases rest
  rfl

/-- One object of the topic and scope is ahead of all the others. -/
def ClearLead (arithmetic : Arithmetic K) (params : Params K) (registry : Registry K) (topic scope : Str) (now : K) : Prop :=
  ∃ leader ∈ registry.objectsOf topic scope, ∃ row,
    registry.ranked arithmetic params topic scope now leader = .ok row ∧
    ∀ other ∈ registry.objectsOf topic scope, other ≠ leader → ∃ behind,
      registry.ranked arithmetic params topic scope now other = .ok behind ∧ Behind behind row

/-- There is a champion, and it is the object of the first row of the leaderboard. -/
def Agree (arithmetic : Arithmetic K) (params : Params K) (registry : Registry K) (order : Str → List Str)
    (listed : List Str) (topic scope : Str) (now : K) : Prop :=
  ∃ best head rows, registry.champion arithmetic params order topic scope now = .ok (some best) ∧
    registry.leaderboard arithmetic params listed topic scope now = .ok (head :: rows) ∧ best.objectId = head.1

/-- An object of the topic and scope has the weight that a champion needs. -/
def Qualified (arithmetic : Arithmetic K) (params : Params K) (registry : Registry K) (topic scope : Str) (now : K) : Prop :=
  ∃ objectId ∈ registry.objectsOf topic scope, ∃ w,
    registry.weight arithmetic params topic objectId scope now = .ok w ∧ params.wMin ≤ w

theorem ranked_of_weight {objectId : Str} {w : K}
    (weight : registry.weight arithmetic params topic objectId scope now = .ok w) :
    ∃ row, registry.ranked arithmetic params topic scope now objectId = .ok row ∧ row.2.1 = w := by
  obtain ⟨c, computed, rest⟩ := Py.bind_ok.mp weight
  cases rest
  refine ⟨(objectId, c.w, c.avgMargin.getD 0), ?_, rfl⟩
  unfold ranked
  rw [computed]
  rfl

theorem champion_of_best {best : Ranked K}
    (found : registry.bestOf arithmetic params (order scope) topic scope now = .ok (some best)) :
    registry.champion arithmetic params order topic scope now =
      .ok (some ⟨best.1, arithmetic.round best.2.1 9, scope⟩) := by
  have first : ∀ later, registry.championIn arithmetic params order topic now (scope :: later) =
      .ok (some ⟨best.1, arithmetic.round best.2.1 9, scope⟩) := by
    intro later
    unfold championIn
    rw [found]
    rfl
  unfold champion
  by_cases personal : scope ≠ globalScope
  · rw [if_pos personal]
    exact first _
  · rw [if_neg personal, ← not_not.mp personal]
    exact first _

theorem leaderboard_ok {ranks : List (Ranked K)}
    (ranked : listed.mapM (registry.ranked arithmetic params topic scope now) = .ok ranks) :
    registry.leaderboard arithmetic params listed topic scope now =
      .ok (ranks.insertionSort (fun a b => ¬ rowLess b a)) := by
  unfold leaderboard
  rw [ranked]
  rfl

theorem bestOf_ok {objects : List Str} {ranks : List (Ranked K)}
    (ranked : objects.mapM (registry.ranked arithmetic params topic scope now) = .ok ranks) :
    registry.bestOf arithmetic params objects topic scope now =
      .ok (ranks.foldl (keep championKey (fun row : Ranked K => params.wMin ≤ row.2.1)) none) := by
  unfold bestOf
  rw [ranked, better_eq_keep]
  rfl

/-- Where all rows are defined and one is qualified, the best of the scope is a qualified row
that no qualified row exceeds. -/
theorem bestOf_greatest {objects : List Str} {able : Str} {ranking : Ranked K}
    (defined : ∀ objectId ∈ objects, ∃ row, registry.ranked arithmetic params topic scope now objectId = .ok row)
    (entitled : able ∈ objects) (ranked : registry.ranked arithmetic params topic scope now able = .ok ranking)
    (enough : params.wMin ≤ ranking.2.1) :
    ∃ best, registry.bestOf arithmetic params objects topic scope now = .ok (some best) ∧
      best.1 ∈ objects ∧ registry.ranked arithmetic params topic scope now best.1 = .ok best ∧
      params.wMin ≤ best.2.1 ∧ ∀ objectId ∈ objects, ∀ row,
        registry.ranked arithmetic params topic scope now objectId = .ok row → params.wMin ≤ row.2.1 →
        championKey row ≤ championKey best := by
  obtain ⟨ranks, rated⟩ := mapM_of_forall defined
  obtain ⟨each, own⟩ := rows_of_mapM rated
  have present : ∀ objectId ∈ objects, ∀ row, registry.ranked arithmetic params topic scope now objectId = .ok row →
      row ∈ ranks := by
    intro objectId member row made
    obtain ⟨found, among, computed⟩ := each objectId member
    rw [made] at computed
    cases computed
    exact among
  have some_row : ∃ row ∈ ranks, params.wMin ≤ row.2.1 := ⟨ranking, present able entitled ranking ranked, enough⟩
  obtain ⟨best, kept⟩ := @foldl_keep_isSome _ _ _ championKey (fun row : Ranked K => params.wMin ≤ row.2.1) _ ranks none
    (Or.inr some_row)
  obtain ⟨source, _, greatest⟩ := foldl_keep kept
  obtain ⟨among, fits⟩ := source.resolve_left (fun absent => by cases absent)
  obtain ⟨objectId, member, made⟩ := own best among
  obtain rfl := ranked_id made
  refine ⟨best, (bestOf_ok rated).trans (congrArg Except.ok kept), member, made, fits, ?_⟩
  exact fun other member row made enough => greatest row (present other member row made) enough

section Agreement

variable (reverses : StrictAnti (fun x : K => -x)) (objects : (order scope).Perm (registry.objectsOf topic scope))
variable (board : listed.Perm (registry.objectsOf topic scope))
variable (qualified : registry.Qualified arithmetic params topic scope now)

include reverses objects board qualified

theorem clearLead_of_agree (agree : registry.Agree arithmetic params order listed topic scope now) :
    registry.ClearLead arithmetic params topic scope now := by
  obtain ⟨champion, head, rows, crowned, listing, same⟩ := agree
  obtain ⟨ranks, ranked, sorted⟩ := Py.bind_ok.mp listing
  obtain ⟨each, own⟩ := rows_of_mapM ranked
  obtain ⟨among, least⟩ := head_insertionSort (fun a b => by rw [rowLess_iff, not_lt]) (Except.ok.inj sorted)
  obtain ⟨leader, listed, made⟩ := own head among
  obtain rfl := ranked_id made
  obtain ⟨able, entitled, w, weight, enough⟩ := qualified
  obtain ⟨ranking, scored, rfl⟩ := ranked_of_weight weight
  obtain ⟨best, found, _, bestMade, fits, greatest⟩ := bestOf_greatest
    (fun objectId member => (each objectId (board.mem_iff.mpr (objects.mem_iff.mp member))).imp fun row found => found.2)
    (objects.mem_iff.mpr entitled) scored enough
  rw [champion_of_best found] at crowned
  cases crowned
  have leads : best.1 = head.1 := same
  rw [leads, made] at bestMade
  cases bestMade
  refine ⟨head.1, board.mem_iff.mp listed, head, made, fun other member apart => ?_⟩
  obtain ⟨behind, present, computed⟩ := each other (board.mem_iff.mpr member)
  refine ⟨behind, computed, (behind_or_tie reverses (least behind present)).resolve_right ?_⟩
  rintro ⟨tie, earlier⟩
  -- A tie makes the object that sorts last the champion, and the one that sorts first the head.
  have bounded := greatest other (objects.mem_iff.mpr member) behind computed (by rw [tie]; exact fits)
  simp only [championKey, Prod.Lex.toLex_le_toLex, tie, lt_self_iff_false, false_or, true_and] at bounded
  exact apart ((ranked_id computed).symm.trans (le_antisymm bounded earlier))

theorem agree_of_clearLead (lead : registry.ClearLead arithmetic params topic scope now) :
    registry.Agree arithmetic params order listed topic scope now := by
  obtain ⟨leader, member, row, made, ahead⟩ := lead
  obtain rfl := ranked_id made
  have defined : ∀ objectId ∈ registry.objectsOf topic scope, ∃ found,
      registry.ranked arithmetic params topic scope now objectId = .ok found ∧ (found = row ∨ Behind found row) := by
    intro objectId present
    by_cases leads : objectId = row.1
    · rw [leads]
      exact ⟨row, made, Or.inl rfl⟩
    · obtain ⟨behind, computed, less⟩ := ahead objectId present leads
      exact ⟨behind, computed, Or.inr less⟩
  obtain ⟨able, entitled, w, weight, enough⟩ := qualified
  obtain ⟨ranking, scored, rfl⟩ := ranked_of_weight weight
  obtain ⟨best, found, chosen, bestMade, _, greatest⟩ := bestOf_greatest
    (fun objectId present => (defined objectId (objects.mem_iff.mp present)).imp fun row found => found.1)
    (objects.mem_iff.mpr entitled) scored enough
  obtain ⟨ranks, ranked⟩ := mapM_of_forall
    (fun objectId present => (defined objectId (board.mem_iff.mp present)).imp fun row found => found.1)
  obtain ⟨each, own⟩ := rows_of_mapM ranked
  have first : row ∈ ranks := by
    obtain ⟨found, among, computed⟩ := each row.1 (board.mem_iff.mpr member)
    rw [made] at computed
    cases computed
    exact among
  have top : params.wMin ≤ row.2.1 := by
    obtain ⟨found, computed, same | lighter | ⟨level, _⟩⟩ := defined able entitled
    all_goals
      rw [scored] at computed
      cases computed
    · rw [← same]
      exact enough
    · exact enough.trans lighter.le
    · rw [← level]
      exact enough
  have crowned : best = row := by
    obtain ⟨held, computed, same | behind⟩ := defined best.1 (objects.mem_iff.mp chosen)
    all_goals
      rw [bestMade] at computed
      cases computed
    · exact same
    · exact absurd (greatest row.1 (objects.mem_iff.mpr member) row made top) (championKey_lt behind).not_ge
  cases sorted : ranks.insertionSort (fun a b => ¬ rowLess b a) with
  | nil =>
    have none := (List.mem_insertionSort (fun a b : Ranked K => ¬ rowLess b a)).mpr first
    rw [sorted] at none
    cases none
  | cons head rest =>
    obtain ⟨among, least⟩ := head_insertionSort (fun a b => by rw [rowLess_iff, not_lt]) sorted
    obtain ⟨objectId, present, computed⟩ := own head among
    obtain rfl := ranked_id computed
    have heads : head = row := by
      obtain ⟨held, again, same | behind⟩ := defined head.1 (board.mem_iff.mp present)
      all_goals
        rw [computed] at again
        cases again
      · exact same
      · exact absurd (least row first) (rowKey_lt reverses behind).not_ge
    refine ⟨_, head, rest, champion_of_best found, (leaderboard_ok ranked).trans (congrArg Except.ok sorted), ?_⟩
    rw [crowned, heads]

/-- The champion is the object of the first row exactly when one object leads alone: of several
with the best weight and margin the champion is the last by name, and the first row the first. -/
theorem champion_leads_iff :
    registry.Agree arithmetic params order listed topic scope now ↔
      registry.ClearLead arithmetic params topic scope now :=
  ⟨clearLead_of_agree reverses objects board qualified, agree_of_clearLead reverses objects board qualified⟩

end Agreement

noncomputable def pass (objectId : Str) : Event ℝ := .verdict 0 "sort" globalScope objectId true none 1

def early : Str := "m1"

def late : Str := "m2"

theorem champion_leads_sample :
    (replay .real .standard [pass early]).Agree .real .standard (fun _ => [early]) [early] "sort" globalScope 0 := by
  have objects : (replay .real .standard [pass early]).objectsOf "sort" globalScope = [early] := by
    simp [replay, Registry.apply, addRow, pass, objectsOf, Dict.set]
  have weight := weight_first standard_sound.toDefined "sort" early globalScope true one_pos
  have qualified : (replay .real .standard [pass early]).Qualified .real .standard "sort" globalScope 0 := by
    refine ⟨early, by simp [objects], _, weight, ?_⟩
    norm_num [Params.standard, Shrinkage.rate, Shrinkage.credit]
  obtain ⟨row, ranked, _⟩ := ranked_of_weight weight
  refine (champion_leads_iff (fun a b less => neg_lt_neg less) ?_ ?_ qualified).mpr ⟨early, ?_, row, ranked, ?_⟩
  · rw [objects]
  · rw [objects]
  · simp [objects]
  · intro other member apart
    rw [objects, List.mem_singleton] at member
    exact absurd member apart

theorem components_congr {a b : Str} (rows : registry.rows topic scope a = registry.rows topic scope b)
    (slashes : Dict.get? registry.slashes a = Dict.get? registry.slashes b)
    (stakes : Dict.get? registry.stakes a = Dict.get? registry.stakes b) :
    registry.components arithmetic params topic a scope now = registry.components arithmetic params topic b scope now := by
  unfold components factors slashFactor stakeGate
  rw [rows, slashes, stakes]

/-- Two objects that passed at the same time tie: the champion is the last of them, and the
leaderboard starts with the first. -/
theorem champion_trails :
    ¬ ∀ (events : List (Event ℝ)) (topic scope : Str) (now : ℝ) (order : Str → List Str) (listed : List Str),
      (order scope).Perm ((replay .real .standard events).objectsOf topic scope) →
      listed.Perm ((replay .real .standard events).objectsOf topic scope) →
      (replay .real .standard events).Qualified .real .standard topic scope now →
      (replay .real .standard events).Agree .real .standard order listed topic scope now := by
  intro agrees
  let registry : Registry ℝ := replay .real .standard [pass early, pass late]
  have objects : registry.objectsOf "sort" globalScope = [early, late] := rfl
  have weight := weight_first standard_sound.toDefined "sort" early globalScope true one_pos
  have apart : ((("sort" : Str), globalScope, late) : Key) ≠ (("sort" : Str), globalScope, early) := by
    simp [early, late]
  have kept := @weight_elsewhere .standard (replay .real .standard [pass early]) 0 1 "sort" "sort" early late
    globalScope globalScope true none apart 0
  have qualified : registry.Qualified .real .standard "sort" globalScope 0 := by
    refine ⟨early, by simp [objects], _, kept.trans weight, ?_⟩
    norm_num [Params.standard, Shrinkage.rate, Shrinkage.credit]
  have agree := agrees [pass early, pass late] "sort" globalScope 0 (fun _ => [early, late]) [early, late]
    (by rw [← objects]) (by rw [← objects]) qualified
  obtain ⟨leader, present, row, made, ahead⟩ := clearLead_of_agree (fun a b less => neg_lt_neg less)
    (by rw [← objects]) (by rw [← objects]) qualified agree
  have level : registry.components .real .standard "sort" early globalScope 0 =
      registry.components .real .standard "sort" late globalScope 0 := by
    have unslashed : ∀ objectId, Dict.get? registry.slashes objectId = none := fun _ => rfl
    have unstaked : ∀ objectId, Dict.get? registry.stakes objectId = none := fun _ => rfl
    refine components_congr ?_ ((unslashed early).trans (unslashed late).symm)
      ((unstaked early).trans (unstaked late).symm)
    simp only [registry, rows_replay]
    simp [pass, Event.row?, early, late]
  have tied : ∀ other behind, registry.components .real .standard "sort" other globalScope 0 =
        registry.components .real .standard "sort" leader globalScope 0 →
      registry.ranked .real .standard "sort" globalScope 0 other = .ok behind → ¬ Behind behind row := by
    intro other behind same ranked less
    obtain ⟨c, computed, rest⟩ := Py.bind_ok.mp ranked
    obtain ⟨d, again, made⟩ := Py.bind_ok.mp made
    rw [same] at computed
    cases computed.symm.trans again
    cases rest
    cases made
    rcases less with lighter | ⟨_, smaller⟩
    · exact lt_irrefl _ lighter
    · exact lt_irrefl _ smaller
  rw [objects] at present
  rcases List.mem_cons.mp present with rfl | second
  · obtain ⟨behind, computed, less⟩ := ahead late (by simp [objects]) (by simp [early, late])
    exact tied late behind level.symm computed less
  · obtain rfl := List.mem_singleton.mp second
    obtain ⟨behind, computed, less⟩ := ahead early (by simp [objects]) (by simp [early, late])
    exact tied early behind level computed less

end Registry

end JJDai.Reputation
