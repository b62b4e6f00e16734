import JJDai.Lib.Ranking
import JJDai.Routing.Diversity

/-! What a selected panel satisfies, whatever the order of the candidates. -/

namespace JJDai.Routing

open PyText Ranking

variable {floats : FloatOps}

theorem jaccard_comm (a b : List Str) : jaccard floats a b = jaccard floats b a := by
  have shared : (a.dedup.filter (fun family => family ∈ b.dedup)).length =
      (b.dedup.filter (fun family => family ∈ a.dedup)).length := by
    apply List.Perm.length_eq
    rw [List.perm_ext_iff_of_nodup ((List.nodup_dedup a).filter _) ((List.nodup_dedup b).filter _)]
    intro family
    simp [and_comm]
  have union : (a ++ b).dedup.length = (b ++ a).dedup.length := by
    apply List.Perm.length_eq
    rw [List.perm_ext_iff_of_nodup (List.nodup_dedup _) (List.nodup_dedup _)]
    intro family
    simp [or_comm]
  simp only [jaccard, shared, union, and_comm]

theorem overlap_comm (pa pb : Manifest) (dim : Dimension) : overlap floats pa pb dim = overlap floats pb pa dim := by
  cases dim with
  | trainingDataFamilies => simp only [overlap, or_comm, jaccard_comm]
  | baseFamily =>
    simp only [overlap]
    cases pa.get .baseFamily <;> cases pb.get .baseFamily <;> simp [eq_comm]
  | architectureFamily =>
    simp only [overlap]
    cases pa.get .architectureFamily <;> cases pb.get .architectureFamily <;> simp [eq_comm]
  | operatorDomain =>
    simp only [overlap]
    cases pa.get .operatorDomain <;> cases pb.get .operatorDomain <;> simp [eq_comm]
  | jurisdiction =>
    simp only [overlap]
    cases pa.get .jurisdiction <;> cases pb.get .jurisdiction <;> simp [eq_comm]

theorem independence_comm (pa pb : Manifest) : independence floats pa pb = independence floats pb pa := by
  have turn : addDimension floats pa pb = addDimension floats pb pa := by
    funext found entry
    simp only [addDimension, overlap_comm]
  simp only [independence, correlation, turn]

variable {Object : Type u}

def poolKey (c : Candidate Object) : (ℤ ×ₗ ℚ) ×ₗ Str := toLex ((floatNeg c.reputation).rank, c.provenance.modelId)

theorem floatNeg_ne_nan {x : PyFloat} (number : x ≠ .nan) : floatNeg x ≠ .nan := by
  cases x with
  | nan => exact absurd rfl number
  | infinity negative => exact PyFloat.noConfusion
  | finite d => exact PyFloat.noConfusion

theorem keyLess_iff {a b : Candidate Object} (left : a.reputation ≠ .nan) (right : b.reputation ≠ .nan) :
    keyLess a b = true ↔ poolKey a < poolKey b := by
  have level := floatEq_iff (floatNeg_ne_nan left) (floatNeg_ne_nan right)
  have below := PyFloat.less_iff (floatNeg_ne_nan left) (floatNeg_ne_nan right)
  rw [poolKey, poolKey, Prod.Lex.toLex_lt_toLex, keyLess]
  by_cases same : (floatNeg a.reputation).rank = (floatNeg b.reputation).rank
  · rw [if_pos (level.mpr same), decide_eq_true_iff]
    simp [same]
  · rw [if_neg (mt level.mp same), below]
    simp [same]

theorem pool_perm {candidates other : List (Candidate Object)}
    (distinct : (candidates.map (fun c => c.provenance.modelId)).Nodup)
    (numbers : ∀ c ∈ candidates, c.reputation ≠ .nan) (order : other.Perm candidates) :
    other.insertionSort (fun a b => !keyLess b a) = candidates.insertionSort (fun a b => !keyLess b a) := by
  refine @insertionSort_perm _ _ _ poolKey _ _ _ _ ?_ ?_ order
  · intro a first b second
    have less := keyLess_iff (numbers b second) (numbers a first)
    rw [Bool.not_eq_true', ← Bool.not_eq_true, less, not_lt]
  · intro a first b second same
    have models : a.provenance.modelId = b.provenance.modelId := congrArg (fun key => (ofLex key).2) same
    exact List.inj_on_of_nodup_map distinct first second models

theorem selectLoop_length {constraints : Constraints} {generator : Option Manifest}
    {pool selected : List (Candidate Object)} {rejected : List Rejection} (room : (selected.length : Int) < constraints.k) :
    ((selectLoop floats constraints generator pool selected rejected).1.length : Int) ≤ constraints.k := by
  induction pool generalizing selected rejected with
  | nil => exact room.le
  | cons cand pool ih =>
    rw [selectLoop]
    cases joins : rejection floats constraints generator selected cand.provenance with
    | some reason => exact ih room
    | none =>
      by_cases full : constraints.k ≤ (selected ++ [cand]).length
      · simp only [full, if_true]
        rw [List.length_append, List.length_singleton]
        push_cast
        omega
      · simp only [full, if_false]
        exact ih (not_le.mp full)

/-- Members of the generator's model, or fully correlated with it, have a reason against them. -/
theorem generatorReason_none {excludeModel : Option Str} {generator p : Manifest}
    (clear : generatorReason floats excludeModel (some generator) p = none) :
    excludeModel ≠ some p.modelId ∧ floatEq (independence floats p generator) .zero = false := by
  unfold generatorReason at clear
  by_cases own : excludeModel = some p.modelId
  · rw [if_pos own] at clear
    cases clear
  · rw [if_neg own] at clear
    refine ⟨own, ?_⟩
    cases zero : floatEq (independence floats p generator) .zero with
    | false => rfl
    | true =>
      simp only [zero, if_true] at clear
      split at clear <;> cases clear

/-- What the constraints promise about the members of a panel. -/
structure Respects (floats : FloatOps) (constraints : Constraints) (generator : Manifest)
    (selected : List (Candidate Object)) : Prop where
  bounded : (selected.length : Int) ≤ constraints.k
  separate : ∀ s ∈ selected, floatEq (independence floats s.provenance generator) .zero = false
  independent : selected.Pairwise (fun a b =>
    (independence floats a.provenance b.provenance).less constraints.minIndependence = false ∧
      (independence floats b.provenance a.provenance).less constraints.minIndependence = false)
  capped : ∀ dim ∈ groupDimensions, ∀ s ∈ selected, ∀ value, s.provenance.get dim = some value →
    (groupCount dim value selected : Int) ≤ constraints.maxPerGroup
  foreign : constraints.excludeModel = none ∨ constraints.excludeModel = some generator.modelId →
    ∀ s ∈ selected, s.provenance.modelId ≠ generator.modelId

theorem selectVerifiers_refused {candidates : List (Candidate Object)} {constraints : Constraints} {generator : Manifest}
    (none : constraints.k < 1) :
    selectVerifiers floats candidates constraints (some generator) = raise .diversityError "k must be >= 1" := by
  unfold selectVerifiers
  simp only [bind]
  rw [if_pos none]
  rfl

theorem selectVerifiers_ok {candidates : List (Candidate Object)} {constraints : Constraints} {generator : Manifest}
    (some_seats : 1 ≤ constraints.k) :
    selectVerifiers floats candidates constraints (some generator) =
      let excluding := { constraints with excludeModel := constraints.excludeModel.or (some generator.modelId) }
      let found := selectLoop floats excluding (some generator) (candidates.insertionSort (fun a b => !keyLess b a)) [] []
      .ok ⟨found.1, found.2, decide (constraints.k ≤ found.1.length), excluding⟩ := by
  unfold selectVerifiers
  simp only [bind, pure, Except.pure]
  rw [if_neg (by omega)]
  rfl

theorem respects_of_selected {candidates : List (Candidate Object)} {constraints : Constraints} {generator : Manifest}
    (some_seats : 1 ≤ constraints.k) {panel : Panel Object}
    (selects : selectVerifiers floats candidates constraints (some generator) = .ok panel) :
    Respects floats constraints generator panel.selected := by
  rw [selectVerifiers_ok some_seats] at selects
  cases selects
  let excluding := { constraints with excludeModel := constraints.excludeModel.or (some generator.modelId) }
  have empty : Diverse floats excluding (some generator) ([] : List (Candidate Object)) :=
    ⟨List.Pairwise.nil, fun dim _ value some_members => absurd rfl some_members, fun s member => absurd member List.not_mem_nil⟩
  obtain ⟨diverse, _⟩ := @selectLoop_diverse _ _ excluding (some generator)
    (candidates.insertionSort (fun a b => !keyLess b a)) [] [] empty
  have reasons := fun s member => generatorReason_none (diverse.apart s member)
  refine ⟨selectLoop_length (by simpa using Int.lt_of_add_one_le some_seats), fun s member => (reasons s member).2, ?_, ?_, ?_⟩
  · refine diverse.independent.imp ?_
    intro earlier later fits
    exact ⟨by rw [independence_comm]; exact fits, fits⟩
  · intro dim member s present value has
    refine diverse.capped dim member value ?_
    exact (List.countP_pos_iff.mpr ⟨s, present, by simpa using has⟩).ne'
  · intro told s member same
    refine (reasons s member).1 ?_
    rcases told with unnamed | named
    · simp [excluding, unnamed, same]
    · simp [excluding, named, same]

/-- A panel of at least one seat is selected, it respects its constraints, and it is the same
for every order of the candidates. -/
theorem selectVerifiers_respects (candidates : List (Candidate Object)) (generator : Manifest)
    (constraints : Constraints) :
    (constraints.k < 1 → selectVerifiers floats candidates constraints (some generator) =
      raise .diversityError "k must be >= 1") ∧
    (1 ≤ constraints.k → ∃ panel, selectVerifiers floats candidates constraints (some generator) = .ok panel ∧
      Respects floats constraints generator panel.selected) ∧
    ((candidates.map (fun c => c.provenance.modelId)).Nodup → (∀ c ∈ candidates, c.reputation ≠ .nan) →
      ∀ other : List (Candidate Object), other.Perm candidates →
        selectVerifiers floats other constraints (some generator) =
          selectVerifiers floats candidates constraints (some generator)) := by
  refine ⟨selectVerifiers_refused, ?_, ?_⟩
  · intro some_seats
    have selects := @selectVerifiers_ok floats _ candidates constraints generator some_seats
    exact ⟨_, selects, respects_of_selected some_seats selects⟩
  · intro distinct numbers other order
    by_cases none : constraints.k < 1
    · rw [selectVerifiers_refused none, selectVerifiers_refused none]
    · rw [selectVerifiers_ok (not_lt.mp none), selectVerifiers_ok (not_lt.mp none), pool_perm distinct numbers order]

/-- The digits of a number with that many of them behind the point, halves to even. -/
def roundDigits (d : Decimal) (places : Nat) : Decimal :=
  if -(places : Int) ≤ d.exponent then d
  else
    let unit := 10 ^ (-(places : Int) - d.exponent).toNat
    let kept := d.digits / unit
    let lost := d.digits % unit
    let up := unit < 2 * lost ∨ (unit = 2 * lost ∧ kept % 2 = 1)
    .ofDigits d.negative (if up then kept + 1 else kept) (-(places : Int))

def addDecimals (a b : Decimal) : Decimal :=
  let unit := min a.exponent b.exponent
  let sum := a.scaled unit + b.scaled unit
  .ofDigits (decide (sum < 0)) sum.natAbs unit

def onDecimals (f : Decimal → Decimal → Decimal) : PyFloat → PyFloat → PyFloat
  | .finite a, .finite b => .finite (f a b)
  | _, _ => .nan

/-- Exact decimals: what the arithmetic of floats is for sums and products of a few digits,
which the weights are. -/
def FloatOps.decimal : FloatOps where
  add := onDecimals addDecimals
  sub := onDecimals (fun a b => addDecimals a { b with negative := !b.negative })
  mul := onDecimals (fun a b => .ofDigits (a.negative != b.negative) (a.digits * b.digits) (a.exponent + b.exponent))
  ratio part whole := .finite (.ofDigits false (part * 10 ^ 17 / whole) (-17))
  round x places := match x with
    | .finite d => .finite (roundDigits d places)
    | other => other

def half : PyFloat := .finite (.ofDigits false 5 (-1))

/-- A manifest that declares one value everywhere. -/
def uniform (modelId value : Str) : Manifest where
  modelId := modelId
  baseFamily := some value
  architectureFamily := some value
  trainingDataFamilies := [value]
  operatorDomain := some value
  jurisdiction := some value

/-- One seat, for a generator of model `g`. -/
def pick (candidates : List (Candidate Unit)) (excludeModel : Option Str) : Py (Panel Unit) :=
  selectVerifiers .decimal candidates ⟨1, half, 1, excludeModel⟩ (some (uniform "g" "a"))

def models (panel : Py (Panel Unit)) : Option (List Str) :=
  panel.toOption.map (fun panel => panel.selected.map (fun c => c.provenance.modelId))

theorem selectVerifiers_respects_sample :
    ∃ panel, selectVerifiers .decimal [⟨uniform "m" "b", one, ()⟩, ⟨uniform "g" "a", one, ()⟩] ⟨1, half, 1, none⟩
        (some (uniform "g" "a")) = .ok panel ∧
      Respects .decimal ⟨1, half, 1, none⟩ (uniform "g" "a") panel.selected :=
  (selectVerifiers_respects _ _ _).2.1 (le_refl 1)

/-- Under the name of another model the generator's own name is not excluded, and candidates
whose reputation is no number are taken in the order they come in. -/
theorem selection_misled :
    (¬ ∀ (candidates : List (Candidate Unit)) (constraints : Constraints) (generator : Manifest) (panel : Panel Unit),
      (candidates.map (fun c => c.provenance.modelId)).Nodup →
      selectVerifiers .decimal candidates constraints (some generator) = .ok panel →
      ∀ s ∈ panel.selected, s.provenance.modelId ≠ generator.modelId) ∧
    ¬ ∀ (candidates other : List (Candidate Unit)) (constraints : Constraints) (generator : Manifest),
      (candidates.map (fun c => c.provenance.modelId)).Nodup → other.Perm candidates →
      selectVerifiers .decimal other constraints (some generator) =
        selectVerifiers .decimal candidates constraints (some generator) := by
  constructor
  · intro foreign
    have picked : models (pick [⟨uniform "g" "b", one, ()⟩] (some "x")) = some [("g" : Str)] := by decide +kernel
    cases selects : pick [⟨uniform "g" "b", one, ()⟩] (some "x") with
    | error e =>
      rw [selects] at picked
      cases picked
    | ok panel =>
      rw [selects] at picked
      have names : panel.selected.map (fun c => c.provenance.modelId) = [("g" : Str)] := Option.some.inj picked
      obtain ⟨s, member, name⟩ := List.mem_map.mp (names ▸ List.mem_singleton_self _)
      exact foreign [⟨uniform "g" "b", one, ()⟩] _ _ panel (by decide) selects s member name
  · intro same
    have orders := congrArg models (same [⟨uniform "m" "b", .nan, ()⟩, ⟨uniform "n" "c", one, ()⟩]
      [⟨uniform "n" "c", one, ()⟩, ⟨uniform "m" "b", .nan, ()⟩] ⟨1, half, 1, none⟩ (uniform "g" "a") (by decide)
      (List.Perm.swap _ _ []))
    have first : models (pick [⟨uniform "m" "b", .nan, ()⟩, ⟨uniform "n" "c", one, ()⟩] none) = some [("m" : Str)] := by
      decide +kernel
    have second : models (pick [⟨uniform "n" "c", one, ()⟩, ⟨uniform "m" "b", .nan, ()⟩] none) = some [("n" : Str)] := by
      decide +kernel
    have equal := second.symm.trans (orders.trans first)
    exact absurd equal (by decide)

end JJDai.Routing
