import JJDai.Lib.FloatOrder
import JJDai.Primitive.Witness

/-! `core.diversity`: verifiers that share no common cause, as far as their manifests tell. -/

namespace JJDai.Routing

open PyText

/-- The arithmetic of floats; comparisons are those of the numbers. -/
structure FloatOps where
  add : PyFloat → PyFloat → PyFloat
  sub : PyFloat → PyFloat → PyFloat
  mul : PyFloat → PyFloat → PyFloat
  /-- `a / b` of two lengths. -/
  ratio : Nat → Nat → PyFloat
  round : PyFloat → Nat → PyFloat

def one : PyFloat := .finite (.ofDigits false 1 0)

def floatNeg : PyFloat → PyFloat
  | .finite d => .finite { d with negative := !d.negative }
  | .infinity negative => .infinity !negative
  | .nan => .nan

inductive Dimension where
  | baseFamily | architectureFamily | trainingDataFamilies | operatorDomain | jurisdiction
  deriving DecidableEq

def Dimension.name : Dimension → Str
  | baseFamily => "base_family"
  | architectureFamily => "architecture_family"
  | trainingDataFamilies => "training_data_families"
  | operatorDomain => "operator_domain"
  | jurisdiction => "jurisdiction"

def weights : List (Dimension × PyFloat) :=
  ([(.baseFamily, 35), (.architectureFamily, 20), (.trainingDataFamilies, 20), (.operatorDomain, 15),
    (.jurisdiction, 10)] : List (Dimension × Nat)).map
      (fun entry => (entry.1, .finite (.ofDigits false entry.2 (-2))))

def groupDimensions : List Dimension :=
  [.baseFamily, .architectureFamily, .operatorDomain, .jurisdiction]

/-- The fields of a ProvenanceManifest that the selection reads. -/
structure Manifest where
  modelId : Str
  baseFamily : Option Str := none
  architectureFamily : Option Str := none
  trainingDataFamilies : List Str := []
  operatorDomain : Option Str := none
  jurisdiction : Option Str := none
  deriving DecidableEq

/-- `p.get(dim)` of a dimension that is compared by equality. -/
def Manifest.get (p : Manifest) : Dimension → Option Str
  | .baseFamily => p.baseFamily
  | .architectureFamily => p.architectureFamily
  | .trainingDataFamilies => none
  | .operatorDomain => p.operatorDomain
  | .jurisdiction => p.jurisdiction

structure Correlation where
  score : PyFloat
  shared : List (Dimension × PyFloat)
  unknown : List Dimension

variable (floats : FloatOps)

def jaccard (a b : List Str) : PyFloat :=
  let sa := a.dedup
  let sb := b.dedup
  if sa = [] ∧ sb = [] then .zero
  else floats.ratio (sa.filter (fun family => family ∈ sb)).length (a ++ b).dedup.length

/-- The overlap in one dimension; `none` when it is missing on either side. -/
def overlap (pa pb : Manifest) : Dimension → Option PyFloat
  | .trainingDataFamilies =>
    if pa.trainingDataFamilies = [] ∨ pb.trainingDataFamilies = [] then none
    else some (jaccard floats pa.trainingDataFamilies pb.trainingDataFamilies)
  | dim =>
    match pa.get dim, pb.get dim with
    | some a, some b => some (if a = b then one else .zero)
    | _, _ => none

def addDimension (pa pb : Manifest) (found : Correlation) (entry : Dimension × PyFloat) : Correlation :=
  match overlap floats pa pb entry.1 with
  | none =>
    { found with
      score := floats.add found.score (floats.mul entry.2 one)
      unknown := found.unknown ++ [entry.1] }
  | some ov =>
    { found with
      score := floats.add found.score (floats.mul entry.2 ov)
      shared :=
        if PyFloat.zero.less ov then found.shared ++ [(entry.1, floats.round ov 4)] else found.shared }

def correlation (pa pb : Manifest) : Correlation :=
  let found := weights.foldl (addDimension floats pa pb) ⟨.zero, [], []⟩
  { found with score := floats.round found.score 4 }

def independence (pa pb : Manifest) : PyFloat :=
  floats.round (floats.sub one (correlation floats pa pb).score) 4

/-- A candidate, with whatever the caller attaches to it. -/
structure Candidate (Object : Type u) where
  provenance : Manifest
  reputation : PyFloat := .zero
  object : Object

structure Constraints where
  k : Int
  minIndependence : PyFloat
  maxPerGroup : Int
  excludeModel : Option Str

structure Rejection where
  modelId : Str
  reason : Str

structure Panel (Object : Type u) where
  selected : List (Candidate Object)
  rejected : List Rejection
  filled : Bool
  constraints : Constraints

variable {Object : Type u}

/-- The sorting key, a pair of the negated reputation and the model. -/
def keyLess (a b : Candidate Object) : Bool :=
  if floatEq (floatNeg a.reputation) (floatNeg b.reputation) then
    decide (a.provenance.modelId < b.provenance.modelId)
  else (floatNeg a.reputation).less (floatNeg b.reputation)

/-- Why a candidate is too close to the generator. -/
def generatorReason (excludeModel : Option Str) (generator : Option Manifest) (p : Manifest) : Option Str :=
  if excludeModel = some p.modelId then some "generator must not verify itself"
  else
    match generator with
    | none => none
    | some generator =>
      if floatEq (independence floats p generator) .zero then
        if (correlation floats p generator).unknown ≠ [] then
          some "provenance too undeclared to distinguish from the generator"
        else some "fully correlated with the generator"
      else none

/-- The first member of the panel that a candidate is not independent of. -/
def clash (minIndependence : PyFloat) (p : Manifest) : List (Candidate Object) → Option Str
  | [] => none
  | s :: rest =>
    let ind := independence floats p s.provenance
    if ind.less minIndependence then
      let det := correlation floats p s.provenance
      let shared := (det.shared.map (fun entry => entry.1.name)).insertionSort (· ≤ ·)
      let unknown := (det.unknown.map Dimension.name).insertionSort (· ≤ ·)
      some ("independence " ++ pyStr (.float ind) ++ " < " ++ pyStr (.float minIndependence) ++ " vs " ++
        s.provenance.modelId ++ " (shared: " ++
        WitnessChain.reprList (shared ++ unknown.map (fun dim => Str.ofString "unknown:" ++ dim)) ++ ")")
    else clash minIndependence p rest

/-- The members of a panel that share a value. -/
def groupCount (dim : Dimension) (value : Str) (selected : List (Candidate Object)) : Nat :=
  selected.countP (fun s => s.provenance.get dim = some value)

/-- The first group that has no room for a candidate. -/
def capHit (maxPerGroup : Int) (p : Manifest) (selected : List (Candidate Object)) :
    List Dimension → Option Str
  | [] => none
  | dim :: rest =>
    match p.get dim with
    | none => capHit maxPerGroup p selected rest
    | some value =>
      if maxPerGroup < groupCount dim value selected + 1 then
        some ("group cap: already " ++ intText maxPerGroup ++ " member(s) with " ++ dim.name ++ "=" ++
          pyRepr value)
      else capHit maxPerGroup p selected rest

/-- Why a candidate does not join the panel. -/
def rejection (constraints : Constraints) (generator : Option Manifest)
    (selected : List (Candidate Object)) (p : Manifest) : Option Str :=
  (generatorReason floats constraints.excludeModel generator p).or
    ((clash floats constraints.minIndependence p selected).or
      (capHit constraints.maxPerGroup p selected groupDimensions))

def selectLoop (constraints : Constraints) (generator : Option Manifest) :
    List (Candidate Object) → List (Candidate Object) → List Rejection →
      List (Candidate Object) × List Rejection
  | [], selected, rejected => (selected, rejected)
  | cand :: pool, selected, rejected =>
    match rejection floats constraints generator selected cand.provenance with
    | some reason =>
      selectLoop constraints generator pool selected (rejected ++ [⟨cand.provenance.modelId, reason⟩])
    | none =>
      if constraints.k ≤ (selected ++ [cand]).length then (selected ++ [cand], rejected)
      else selectLoop constraints generator pool (selected ++ [cand]) rejected

def selectVerifiers (candidates : List (Candidate Object)) (constraints : Constraints)
    (generatorProvenance : Option Manifest) : Py (Panel Object) := do
  if constraints.k < 1 then raise .diversityError "k must be >= 1"
  let pool := candidates.insertionSort (fun a b => !keyLess b a)
  let generator := generatorProvenance.or ((candidates.find? (fun c =>
    constraints.excludeModel = some c.provenance.modelId)).map Candidate.provenance)
  let excludeModel := constraints.excludeModel.or (generator.map Manifest.modelId)
  let constraints := { constraints with excludeModel }
  let (selected, rejected) := selectLoop floats constraints generator pool [] []
  return ⟨selected, rejected, decide (constraints.k ≤ selected.length), constraints⟩

/-- The members are independent of each other and of the generator, and no group is too large. -/
structure Diverse (constraints : Constraints) (generator : Option Manifest)
    (selected : List (Candidate Object)) : Prop where
  independent : selected.Pairwise (fun earlier later =>
    (independence floats later.provenance earlier.provenance).less constraints.minIndependence = false)
  capped : ∀ dim ∈ groupDimensions, ∀ value, groupCount dim value selected ≠ 0 →
    (groupCount dim value selected : Int) ≤ constraints.maxPerGroup
  apart : ∀ s ∈ selected, generatorReason floats constraints.excludeModel generator s.provenance = none

variable {floats}

theorem clash_none {minIndependence : PyFloat} {p : Manifest} {selected : List (Candidate Object)}
    (clear : clash floats minIndependence p selected = none) :
    ∀ s ∈ selected, (independence floats p s.provenance).less minIndependence = false := by
  induction selected with
  | nil => simp
  | cons first rest ih =>
    rw [clash] at clear
    by_cases close : (independence floats p first.provenance).less minIndependence = true
    · simp [close] at clear
    · simp only [close, Bool.false_eq_true, if_false] at clear
      intro s member
      rcases List.mem_cons.mp member with rfl | later
      · simpa using close
      · exact ih clear s later

theorem capHit_none {maxPerGroup : Int} {p : Manifest} {selected : List (Candidate Object)}
    {dims : List Dimension} (clear : capHit maxPerGroup p selected dims = none) :
    ∀ dim ∈ dims, ∀ value, p.get dim = some value →
      (groupCount dim value selected + 1 : Int) ≤ maxPerGroup := by
  induction dims with
  | nil => simp
  | cons first rest ih =>
    intro dim member value has
    rw [capHit] at clear
    rcases List.mem_cons.mp member with rfl | later
    · simp only [has] at clear
      split at clear
      · cases clear
      · omega
    · cases own : p.get first with
      | none => exact ih (by simpa [own] using clear) dim later value has
      | some other =>
        simp only [own] at clear
        split at clear
        · cases clear
        · exact ih clear dim later value has

theorem groupCount_snoc (dim : Dimension) (value : Str) (selected : List (Candidate Object))
    (cand : Candidate Object) : groupCount dim value (selected ++ [cand]) =
      groupCount dim value selected + if cand.provenance.get dim = some value then 1 else 0 := by
  simp [groupCount, List.countP_append, List.countP_singleton]

theorem Diverse.snoc {constraints : Constraints} {generator : Option Manifest}
    {selected : List (Candidate Object)} (diverse : Diverse floats constraints generator selected)
    {cand : Candidate Object}
    (joins : rejection floats constraints generator selected cand.provenance = none) :
    Diverse floats constraints generator (selected ++ [cand]) := by
  obtain ⟨apart, others⟩ := Option.or_eq_none_iff.mp joins
  obtain ⟨clear, room⟩ := Option.or_eq_none_iff.mp others
  refine ⟨?_, ?_, ?_⟩
  · refine List.pairwise_append.mpr ⟨diverse.independent, List.pairwise_singleton _ _, ?_⟩
    intro s member last same
    rw [List.mem_singleton.mp same]
    exact clash_none clear s member
  · intro dim member value present
    rw [groupCount_snoc] at present ⊢
    by_cases shares : cand.provenance.get dim = some value
    · have fits := capHit_none room dim member value shares
      simp only [shares, if_true]
      exact_mod_cast fits
    · simp only [shares, if_false, Nat.add_zero] at present ⊢
      exact diverse.capped dim member value present
  · intro s member
    rcases List.mem_append.mp member with old | new
    · exact diverse.apart s old
    · rw [List.mem_singleton.mp new]
      exact apart

theorem selectLoop_diverse {constraints : Constraints} {generator : Option Manifest}
    {pool selected : List (Candidate Object)} {rejected : List Rejection}
    (diverse : Diverse floats constraints generator selected) :
    Diverse floats constraints generator
        (selectLoop floats constraints generator pool selected rejected).1 ∧
      ∃ taken, (selectLoop floats constraints generator pool selected rejected).1 = selected ++ taken ∧
        taken.Sublist pool := by
  induction pool generalizing selected rejected with
  | nil => exact ⟨diverse, [], (List.append_nil _).symm, List.Sublist.slnil⟩
  | cons cand pool ih =>
    rw [selectLoop]
    cases joins : rejection floats constraints generator selected cand.provenance with
    | some reason =>
      obtain ⟨good, taken, same, from_pool⟩ := ih diverse
      exact ⟨good, taken, same, from_pool.cons cand⟩
    | none =>
      have longer := diverse.snoc joins
      by_cases full : constraints.k ≤ (selected ++ [cand]).length
      · simp only [full, if_true]
        exact ⟨longer, [cand], rfl, List.singleton_sublist.mpr List.mem_cons_self⟩
      · simp only [full, if_false]
        obtain ⟨good, taken, same, from_pool⟩ := ih longer
        exact ⟨good, cand :: taken, by rw [same, List.append_assoc]; rfl, from_pool.cons_cons cand⟩

end JJDai.Routing
