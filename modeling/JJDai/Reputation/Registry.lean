import JJDai.Primitive.Python

/-! `core.registry`: the event-sourced champion registry. The number type is a parameter:
the reals for what the arithmetic means, any ordered type for what only compares. -/

namespace JJDai.Reputation

open PyText

/-- The operations of a number type that it has no sign for here. -/
structure Arithmetic (K : Type) where
  /-- The literal of these digits with that many of them behind the point. -/
  literal : Nat → Nat → K
  divide : K → K → Py K
  power : K → K → Py K
  exp : K → K
  log : K → K
  round : K → Nat → K

structure Params (K : Type) where
  lam : K
  kappa : K
  c0 : K
  gamma : K
  eRef : K
  wMax : K
  wMin : K
  slashPenalty : K
  recovery : K
  beta : K
  stakeRef : K
  wContainMin : K
  containTopicGain : K

inductive Event (K : Type) where
  | verdict (t : K) (topic scope objectId : Str) (ok : Bool) (margin : Option K) (difficulty : K)
  | slash (t : K) (objectId reason : Str) (penaltyMult : K)
  | stake (t : K) (objectId : Str) (stake : K)

/-- A row of the verdicts: its time, its difficulty, one or zero, and the margin. -/
structure Row (K : Type) where
  t : K
  difficulty : K
  passed : K
  margin : Option K

/-- The topic, the scope and the object that a row is about. -/
abbrev Key := Str × Str × Str

/-- The log and the views that are derived from it. -/
structure Registry (K : Type) where
  events : List (Event K) := []
  verdicts : Dict Key (List (Row K)) := []
  slashes : Dict Str (K × K) := []
  stakes : Dict Str K := []

variable {K : Type} [Add K] [Sub K] [Mul K] [Neg K] [Zero K] [One K] [LinearOrder K]
variable (arithmetic : Arithmetic K) (params : Params K)

def Params.default : Py (Params K) := do
  let lit := arithmetic.literal
  let week := lit 7 0 * lit 86400 0
  let month := lit 30 0 * lit 86400 0
  let lam ← arithmetic.divide (arithmetic.log (lit 2 0)) week
  let recovery ← arithmetic.divide (lit 5 1) month
  return {
    lam := lam, kappa := lit 40 1, c0 := lit 5 1, gamma := lit 5 1, eRef := lit 40 1
    wMax := lit 95 2, wMin := lit 5 2, slashPenalty := lit 5 1, recovery := recovery
    beta := lit 5 1, stakeRef := lit 10 1, wContainMin := lit 2 1, containTopicGain := lit 5 1 }

namespace Registry

variable (registry : Registry K)

def slashFactor (objectId : Str) (now : K) : K :=
  match Dict.get? registry.slashes objectId with
  | none => 1
  | some (base, last) => min 1 (base + params.recovery * max 0 (now - last))

def addRow (key : Key) (row : Row K) : Registry K :=
  { registry with
    verdicts := Dict.set registry.verdicts key ((Dict.get? registry.verdicts key).getD [] ++ [row]) }

def apply (event : Event K) : Registry K :=
  let registry := { registry with events := registry.events ++ [event] }
  match event with
  | .verdict t topic scope objectId ok margin difficulty =>
    registry.addRow (topic, scope, objectId) ⟨t, difficulty, if ok then 1 else 0, margin⟩
  | .slash t objectId _ penaltyMult =>
    let penalty := min (arithmetic.literal 95 2) (params.slashPenalty * penaltyMult)
    { registry with
      slashes := Dict.set registry.slashes objectId
        (registry.slashFactor params objectId t * (1 - penalty), t) }
  | .stake _ objectId stake => { registry with stakes := Dict.set registry.stakes objectId stake }

def replay (events : List (Event K)) : Registry K := events.foldl (Registry.apply arithmetic params) {}

def stakeGate (objectId : Str) : Py K := do
  let stake := (Dict.get? registry.stakes objectId).getD params.stakeRef
  if stake ≤ 0 then return 0
  let share ← arithmetic.divide stake params.stakeRef
  let gate ← arithmetic.power share params.beta
  return min 1 gate

end Registry

structure Sums (K : Type) where
  nEff : K
  pEff : K
  mNum : K
  mDen : K

def Row.decayed (row : Row K) (now : K) : K :=
  row.difficulty * arithmetic.exp (-params.lam * max 0 (now - row.t))

def Sums.add (now : K) (sums : Sums K) (row : Row K) : Sums K :=
  let w := row.decayed arithmetic params now
  { nEff := sums.nEff + w
    pEff := sums.pEff + w * row.passed
    mNum := match row.margin with
      | none => sums.mNum
      | some margin => sums.mNum + w * margin
    mDen := match row.margin with
      | none => sums.mDen
      | some _ => sums.mDen + w }

def sumsOf (now : K) (rows : List (Row K)) : Sums K :=
  rows.foldl (Sums.add arithmetic params now) ⟨0, 0, 0, 0⟩

structure Components (K : Type) where
  nEff : K
  pEff : K
  r : K
  e : K
  s : K
  g : K
  raw : K
  w : K
  avgMargin : Option K

namespace Registry

variable (registry : Registry K)

/-- The factors of an object's weight on some rows, which `components` and
`general_components` compute alike. -/
def factors (sums : Sums K) (objectId : Str) (now : K) : Py (Components K) := do
  let r ← arithmetic.divide (params.kappa * params.c0 + sums.pEff) (params.kappa + sums.nEff)
  let credit ← arithmetic.power sums.nEff params.gamma
  let share ← arithmetic.divide credit params.eRef
  let e := min 1 share
  let s := registry.slashFactor params objectId now
  let g ← registry.stakeGate arithmetic params objectId
  let raw := g * s * r * e
  let avgMargin ← (if sums.mDen = 0 then return none
    else do return some (← arithmetic.divide sums.mNum sums.mDen) : Py (Option K))
  return ⟨sums.nEff, sums.pEff, r, e, s, g, raw, min params.wMax raw, avgMargin⟩

def rows (topic scope objectId : Str) : List (Row K) :=
  (Dict.get? registry.verdicts (topic, scope, objectId)).getD []

def components (topic objectId scope : Str) (now : K) : Py (Components K) :=
  registry.factors arithmetic params (sumsOf arithmetic params now (registry.rows topic scope objectId)) objectId now

def weight (topic objectId scope : Str) (now : K) : Py K := do
  return (← registry.components arithmetic params topic objectId scope now).w

def rowsFor (objectId : Str) : List (Row K) :=
  registry.verdicts.flatMap (fun entry => if entry.1.2.2 = objectId then entry.2 else [])

/-- `general_components`; it computes no margin. -/
def generalComponents (objectId : Str) (now : K) : Py (Components K) :=
  let sums := sumsOf arithmetic params now (registry.rowsFor objectId)
  registry.factors arithmetic params { sums with mNum := 0, mDen := 0 } objectId now

def generalWeight (objectId : Str) (now : K) : Py K := do
  return (← registry.generalComponents arithmetic params objectId now).w

def globalScope : Str := "global"

def containWeight (objectId topic : Str) (now : K) : Py K := do
  let wg ← registry.generalWeight arithmetic params objectId now
  let wt ← registry.weight arithmetic params topic objectId globalScope now
  return min params.wMax (wg + params.containTopicGain * wt)

def qualifiesToContain (objectId topic : Str) (now : K) : Py Bool := do
  return decide (params.wContainMin ≤ (← registry.containWeight arithmetic params objectId topic now))

/-- The objects of a topic and scope; a set, whose order is not told. -/
def objectsOf (topic scope : Str) : List Str :=
  ((registry.verdicts.filter (fun entry => entry.1.1 = topic ∧ entry.1.2.1 = scope)).map (fun entry => entry.1.2.2)).dedup

/-- An object with its weight and its average margin. -/
abbrev Ranked (K : Type) := Str × K × K

def ranked (topic scope : Str) (now : K) (objectId : Str) : Py (Ranked K) := do
  let c ← registry.components arithmetic params topic objectId scope now
  return (objectId, c.w, c.avgMargin.getD 0)

/-- The sorting key of `leaderboard`: `(-w, -margin, object)`. -/
def rowLess (a b : Ranked K) : Prop :=
  -a.2.1 < -b.2.1 ∨ (-a.2.1 = -b.2.1 ∧ (-a.2.2 < -b.2.2 ∨ (-a.2.2 = -b.2.2 ∧ a.1 < b.1)))

instance (a b : Ranked K) : Decidable (rowLess a b) := inferInstanceAs (Decidable (_ ∨ (_ ∧ (_ ∨ (_ ∧ _)))))

/-- `leaderboard`, for one order of the set of its objects. -/
def leaderboard (objects : List Str) (topic scope : Str) (now : K) : Py (List (Ranked K)) := do
  let rows ← objects.mapM (registry.ranked arithmetic params topic scope now)
  return rows.insertionSort (fun a b => ¬ rowLess b a)

def keyGreater (a b : Ranked K) : Prop :=
  b.2.1 < a.2.1 ∨ (b.2.1 = a.2.1 ∧ (b.2.2 < a.2.2 ∨ (b.2.2 = a.2.2 ∧ b.1 < a.1)))

instance (a b : Ranked K) : Decidable (keyGreater a b) := inferInstanceAs (Decidable (_ ∨ (_ ∧ (_ ∨ (_ ∧ _)))))

def better (best : Option (Ranked K)) (row : Ranked K) : Option (Ranked K) :=
  if params.wMin ≤ row.2.1 ∧ (∀ held ∈ best, keyGreater row held) then some row else best

def bestOf (objects : List Str) (topic scope : Str) (now : K) : Py (Option (Ranked K)) := do
  let rows ← objects.mapM (registry.ranked arithmetic params topic scope now)
  return rows.foldl (better params) none

structure Champion (K : Type) where
  objectId : Str
  weight : K
  scope : Str

/-- The champion of the first of the scopes that has one. -/
def championIn (objects : Str → List Str) (topic : Str) (now : K) : List Str → Py (Option (Champion K))
  | [] => return none
  | sc :: rest => do
    match ← registry.bestOf arithmetic params (objects sc) topic sc now with
    | some best => return some ⟨best.1, arithmetic.round best.2.1 9, sc⟩
    | none => championIn objects topic now rest

/-- `champion`, for one order of each set of objects. -/
def champion (objects : Str → List Str) (topic scope : Str) (now : K) : Py (Option (Champion K)) :=
  registry.championIn arithmetic params objects topic now
    (if scope ≠ globalScope then [scope, globalScope] else [globalScope])

end Registry

end JJDai.Reputation
