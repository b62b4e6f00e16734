import JJDai.Primitive.Witness

/-! What `append` lets into the hashed body verbatim: which strings its check
vouches for, and which values it counts. -/

namespace JJDai

open PyText

mutual

/-- The strings a value holds, the keys of its dicts among them. -/
def texts : Json → List Str
  | .str text => [text]
  | .arr items => textsItems items
  | .obj fields => textsFields fields
  | _ => []

def textsItems : List Json → List Str
  | [] => []
  | item :: rest => texts item ++ textsItems rest

def textsFields : Dict Str Json → List Str
  | [] => []
  | (key, value) :: rest => key :: (texts value ++ textsFields rest)

end

mutual

def size : Json → Nat
  | .arr items => sizeItems items + 1
  | .obj fields => sizeFields fields + 1
  | _ => 1

def sizeItems : List Json → Nat
  | [] => 0
  | item :: rest => size item + sizeItems rest

def sizeFields : Dict Str Json → Nat
  | [] => 0
  | (_, value) :: rest => size value + 1 + sizeFields rest

end

mutual

/-- Containers and leaves other than `None`: what `check_plane_value` counts. -/
def counted : Json → Nat
  | .null => 0
  | .arr items => countedItems items + 1
  | .obj fields => countedFields fields + 1
  | _ => 1

def countedItems : List Json → Nat
  | [] => 0
  | item :: rest => counted item + countedItems rest

def countedFields : Dict Str Json → Nat
  | [] => 0
  | (_, value) :: rest => counted value + countedFields rest

end

mutual

def nulls : Json → Nat
  | .null => 1
  | .arr items => nullsItems items
  | .obj fields => nullsFields fields
  | _ => 0

def nullsItems : List Json → Nat
  | [] => 0
  | item :: rest => nulls item + nullsItems rest

def nullsFields : Dict Str Json → Nat
  | [] => 0
  | (_, value) :: rest => nulls value + nullsFields rest

end

theorem size_between (j : Json) :
    counted j + nulls j ≤ size j ∧ size j < 2 * (counted j + nulls j) := by
  induction j with
  | arr items ih =>
    have inner : countedItems items + nullsItems items ≤ sizeItems items ∧
        sizeItems items ≤ 2 * (countedItems items + nullsItems items) := by
      induction items with
      | nil => simp [sizeItems, countedItems, nullsItems]
      | cons head tail rest =>
        have first := ih head (by simp)
        have later := rest (fun item member => ih item (by simp [member]))
        simp only [sizeItems, countedItems, nullsItems]
        omega
    simp only [size, counted, nulls]
    omega
  | obj fields ih =>
    have inner : countedFields fields + nullsFields fields ≤ sizeFields fields ∧
        sizeFields fields ≤ 2 * (countedFields fields + nullsFields fields) := by
      induction fields with
      | nil => simp [sizeFields, countedFields, nullsFields]
      | cons head tail rest =>
        have first := ih head (by simp)
        have later := rest (fun entry member => ih entry (by simp [member]))
        simp only [sizeFields, countedFields, nullsFields]
        omega
    simp only [size, counted, nulls]
    omega
  | _ => simp [size, counted, nulls]

/-- A segment of the vocabulary, with nothing behind it. -/
def plainPart (part : Str) : Bool := part = [] || isHexish part || isToken part || isNumVec part

/-- At most sixteen segments, each of the vocabulary. -/
def plainText (text : Str) : Bool :=
  (splitAt (ch ':') text).length ≤ maxDigestParts && (splitAt (ch ':') text).all plainPart

def endsLine (part : Str) : Bool := part.getLast? = some (ch '\n')

/-- `_check_scalar` lets the string pass, and no segment ends in a newline. -/
def vetted (text : Str) : Bool :=
  (checkScalar [] text).isOk && (splitAt (ch ':') text).all (fun part => !endsLine part)

theorem checkScalar_ok {field text : Str} : checkScalar field text = .ok () ↔
    (splitAt (ch ':') text).length ≤ maxDigestParts ∧
      ∀ part ∈ splitAt (ch ':') text, isPlanePart part := by
  unfold checkScalar
  split
  · rename_i part found
    have refused := List.find?_some found
    simp only [raise, reduceCtorEq, false_iff, not_and, not_forall]
    intro _
    exact ⟨part, List.mem_of_find?_eq_some found, by simpa using refused⟩
  · rename_i absent
    have allowed : ∀ part ∈ splitAt (ch ':') text, isPlanePart part := by simpa using absent
    dsimp only
    split
    · simp [raise]; omega
    · simp only [pure, Except.pure, true_iff]
      exact ⟨by omega, allowed⟩

theorem mem_splitAt {separator c : CodePoint} {text : Str} (member : c ∈ text) :
    c = separator ∨ ∃ part ∈ splitAt separator text, c ∈ part := by
  induction text with
  | nil => cases member
  | cons head rest ih =>
    unfold splitAt
    by_cases cut : head = separator
    · rw [if_pos cut]
      rcases List.mem_cons.mp member with rfl | later
      · exact Or.inl cut
      · rcases ih later with same | ⟨part, present, inside⟩
        · exact Or.inl same
        · exact Or.inr ⟨part, by simp [present], inside⟩
    · rw [if_neg cut]
      cases parts : splitAt separator rest with
      | nil =>
        rcases List.mem_cons.mp member with rfl | later
        · exact Or.inr ⟨[c], by simp, by simp⟩
        · rcases ih later with same | ⟨part, present, inside⟩
          · exact Or.inl same
          · simp [parts] at present
      | cons first others =>
        rcases List.mem_cons.mp member with rfl | later
        · exact Or.inr ⟨c :: first, by simp, by simp⟩
        · rcases ih later with same | ⟨part, present, inside⟩
          · exact Or.inl same
          · rw [parts] at present
            rcases List.mem_cons.mp present with rfl | present
            · exact Or.inr ⟨head :: part, by simp, by simp [inside]⟩
            · exact Or.inr ⟨part, by simp [present], inside⟩

theorem newline_not_mem {part : Str} (plain : plainPart part) : ch '\n' ∉ part := by
  intro member
  simp only [plainPart, Bool.or_eq_true, decide_eq_true_iff] at plain
  rcases plain with ((rfl | hexish) | token) | numbers
  · cases member
  · simp only [isHexish, Bool.and_eq_true, List.all_eq_true] at hexish
    exact absurd (hexish.2 _ member) (by decide)
  · simp only [isToken, Bool.and_eq_true, List.all_eq_true] at token
    exact absurd (token.2 _ member) (by decide)
  · simp only [isNumVec, Bool.and_eq_true, List.all_eq_true] at numbers
    rcases @mem_splitAt (ch ',') _ _ member with same | ⟨entry, present, inside⟩
    · exact absurd same (by decide)
    · exact absurd ((numbers.2 entry present).2 _ inside) (by decide)

theorem plainPart_iff (part : Str) : plainPart part ↔ isPlanePart part ∧ !endsLine part := by
  constructor
  · intro plain
    have absent := newline_not_mem plain
    have kept : !endsLine part := by
      simp only [endsLine, Bool.not_eq_true', decide_eq_false_iff_not]
      exact fun ends => absent (List.mem_of_getLast? ends)
    refine ⟨?_, kept⟩
    simp only [plainPart, Bool.or_eq_true] at plain
    simp only [isPlanePart, matchesLine, Bool.or_eq_true]
    tauto
  · rintro ⟨allowed, kept⟩
    simp only [endsLine, Bool.not_eq_true', decide_eq_false_iff_not] at kept
    simpa [isPlanePart, matchesLine, kept, plainPart] using allowed

/-- The vocabulary is what the check lets pass, less the segments that end in a newline. -/
theorem plainText_iff (text : Str) : plainText text ↔ vetted text := by
  have passes : (checkScalar [] text).isOk = true ↔ checkScalar [] text = .ok () := by
    cases checkScalar [] text <;> simp [Except.isOk, Except.toBool]
  simp only [plainText, vetted, Bool.and_eq_true, passes, checkScalar_ok, decide_eq_true_iff,
    List.all_eq_true, plainPart_iff, and_assoc, forall_and]

/-- What a check that passes tells of the strings and of the counter. -/
structure Vouched (strings : List Str) (count seen after : Nat) : Prop where
  counts : after = seen + count
  bounded : after ≤ max seen maxPlaneNodes
  checked : ∀ text ∈ strings, checkScalar [] text = .ok ()

theorem Vouched.none (seen : Nat) : Vouched [] 0 seen seen where
  counts := rfl
  bounded := by omega
  checked := by simp

theorem Vouched.append {first second : List Str} {count later seen middle after : Nat}
    (one : Vouched first count seen middle) (two : Vouched second later middle after) :
    Vouched (first ++ second) (count + later) seen after where
  counts := by rw [two.counts, one.counts, Nat.add_assoc]
  bounded := by have := one.bounded; have := two.bounded; omega
  checked := by
    intro text member
    rcases List.mem_append.mp member with member | member
    · exact one.checked text member
    · exact two.checked text member

theorem Vouched.inside {strings : List Str} {count seen after : Nat}
    (room : ¬maxPlaneNodes < seen + 1) (content : Vouched strings count (seen + 1) after) :
    Vouched strings (count + 1) seen after where
  counts := by rw [content.counts]; omega
  bounded := by have := content.bounded; omega
  checked := content.checked

theorem checkPlaneItems_ok {items : List Json}
    (each : ∀ item ∈ items, ∀ {field : Str} {depth seen after : Nat},
      checkPlaneValue field item depth seen = .ok after → Vouched (texts item) (counted item) seen after)
    {field : Str} {i depth seen after : Nat}
    (passed : checkPlaneItems field items i depth seen = .ok after) :
    Vouched (textsItems items) (countedItems items) seen after := by
  induction items generalizing i seen with
  | nil =>
    simp only [checkPlaneItems] at passed
    obtain rfl := Except.ok.inj passed
    exact .none seen
  | cons head tail rest =>
    simp only [checkPlaneItems, bind, Py.bind_ok] at passed
    obtain ⟨middle, first, passed⟩ := passed
    exact (each head (by simp) first).append
      (rest (fun item member => each item (by simp [member])) passed)

theorem checkPlaneFields_ok {fields : Dict Str Json}
    (each : ∀ entry ∈ fields, ∀ {field : Str} {depth seen after : Nat},
      checkPlaneValue field entry.2 depth seen = .ok after →
        Vouched (texts entry.2) (counted entry.2) seen after)
    {field : Str} {depth seen after : Nat}
    (passed : checkPlaneFields field fields depth seen = .ok after) :
    Vouched (textsFields fields) (countedFields fields) seen after := by
  induction fields generalizing seen with
  | nil =>
    simp only [checkPlaneFields] at passed
    obtain rfl := Except.ok.inj passed
    exact .none seen
  | cons head tail rest =>
    simp only [checkPlaneFields, bind, Py.bind_ok] at passed
    obtain ⟨_, key, middle, first, passed⟩ := passed
    have vouched := (each head (by simp) first).append
      (rest (fun entry member => each entry (by simp [member])) passed)
    refine ⟨vouched.counts, vouched.bounded, ?_⟩
    intro text member
    rcases List.mem_cons.mp member with rfl | member
    · exact checkScalar_ok.mpr (checkScalar_ok.mp key)
    · exact vouched.checked text member

/-- A check that passes has vouched for every string and counted every value but `None`. -/
theorem checkPlaneValue_ok {value : Json} : ∀ {field : Str} {depth seen after : Nat},
    checkPlaneValue field value depth seen = .ok after →
      Vouched (texts value) (counted value) seen after := by
  have leaf : ∀ {seen after : Nat}, ¬maxPlaneNodes < seen + 1 → seen + 1 = after →
      Vouched [] 1 seen after := by
    rintro seen after room rfl
    exact (Vouched.none (seen + 1)).inside room
  induction value with
  | null =>
    intro field depth seen after passed
    simp only [checkPlaneValue] at passed
    obtain rfl := Except.ok.inj passed
    exact .none seen
  | arr items ih =>
    intro field depth seen after passed
    simp only [checkPlaneValue] at passed
    split at passed
    · cases passed
    · rename_i room
      split at passed
      · cases passed
      · exact (checkPlaneItems_ok ih passed).inside room
  | obj fields ih =>
    intro field depth seen after passed
    simp only [checkPlaneValue] at passed
    split at passed
    · cases passed
    · rename_i room
      split at passed
      · cases passed
      · exact (checkPlaneFields_ok ih passed).inside room
  | str text =>
    intro field depth seen after passed
    simp only [checkPlaneValue, bind] at passed
    split at passed
    · cases passed
    · rename_i room
      split at passed
      · cases passed
      · obtain ⟨_, checked, passed⟩ := Py.bind_ok.mp passed
        have vouched := leaf room (Except.ok.inj passed)
        refine ⟨vouched.counts, vouched.bounded, ?_⟩
        intro other member
        obtain rfl := List.mem_singleton.mp member
        exact checkScalar_ok.mpr (checkScalar_ok.mp checked)
  | _ =>
    intro field depth seen after passed
    simp only [checkPlaneValue] at passed
    split at passed
    · cases passed
    · rename_i room
      split at passed
      · cases passed
      · exact leaf room (Except.ok.inj passed)

/-- What the caller put into a record verbatim. -/
def placed (record : Json) : List Json :=
  match record with
  | .obj fields => ([Str.ofString "semantic_digest", "timestamp", "entanglement"] : List Str).filterMap
      (Dict.get? fields)
  | _ => []

/-- Plain strings only, and at most `bound` containers, keys and leaves. -/
def PlaneBound (bound : Nat) (record : Json) : Prop :=
  (∀ value ∈ placed record, ∀ text ∈ texts value, plainText text) ∧
    ((placed record).map size).sum ≤ bound

/-- The strings `append` never checks would pass its check, and no segment of any
string ends in a newline. -/
structure Vetted (call : AppendCall) : Prop where
  timestamp : ∀ text ∈ texts call.timestamp, (checkScalar [] text).isOk
  entanglement : ∀ text ∈ texts call.entanglement, (checkScalar [] text).isOk
  lines : ∀ value ∈ [call.semanticDigest, call.timestamp, call.entanglement],
    ∀ text ∈ texts value, ∀ part ∈ splitAt (ch ':') text, !endsLine part

/-- The values that `check_plane_value` never counts. -/
def uncounted (call : AppendCall) : Nat :=
  nulls call.semanticDigest + (counted call.timestamp + nulls call.timestamp) +
    (counted call.entanglement + nulls call.entanglement)

variable {crypto : Crypto} {chain : WitnessChain} {call : AppendCall}

theorem get?_optionalField_self (key : Str) (value : Json) :
    Dict.get? (WitnessChain.optionalField key value) key = if value = .null then none else some value := by
  cases value <;> simp [WitnessChain.optionalField]

theorem placed_record {record : Json} (built : chain.buildRecord crypto call = .ok record) :
    placed record = call.semanticDigest :: call.timestamp ::
      (if call.entanglement = .null then [] else [call.entanglement]) := by
  simp only [WitnessChain.buildRecord, bind, Py.bind_ok] at built
  obtain ⟨_, _, _, _, _, _, _, _, _, _, _, _, made⟩ := built
  obtain rfl := Except.ok.inj made
  simp only [placed]
  generalize fields_eq : (_ : Dict Str Json) ++ _ = fields
  have digest : Dict.get? fields "semantic_digest" = some call.semanticDigest := by
    rw [← fields_eq]
    rfl
  have time : Dict.get? fields "timestamp" = some call.timestamp := by
    rw [← fields_eq]
    rfl
  have beacon : Dict.get? fields "entanglement" =
      if call.entanglement = .null then none else some call.entanglement := by
    simp only [← fields_eq, Dict.get?_append]
    rw [get?_optionalField_self, WitnessChain.get?_optionalField (by decide),
      WitnessChain.get?_optionalField (by decide)]
    by_cases absent : call.entanglement = .null
    · rw [if_pos absent]
      rfl
    · rw [if_neg absent]
      rfl
  simp only [List.filterMap_cons, List.filterMap_nil, digest, time, beacon]
  by_cases absent : call.entanglement = .null
  · simp only [if_pos absent]
  · simp only [if_neg absent]

/-- An append that succeeds has vouched for the digest's strings and counted its values. -/
theorem append_vouched {appended : Appended} (made : chain.append crypto call = .ok appended) :
    chain.buildRecord crypto call = .ok appended.record ∧
      ∃ after, Vouched (texts call.semanticDigest) (counted call.semanticDigest) 0 after := by
  simp only [WitnessChain.append, bind, Py.bind_ok] at made
  obtain ⟨_, checked, record, built, _, _, made⟩ := made
  obtain rfl := Except.ok.inj made
  obtain ⟨after, passed⟩ := (WitnessChain.checkAppend_ok.mp checked).plane
  exact ⟨built, after, checkPlaneValue_ok passed⟩

theorem planeBound_of_vetted {bound : Nat} {appended : Appended}
    (made : chain.append crypto call = .ok appended) (strings : Vetted call)
    (few : uncounted call ≤ bound) : PlaneBound (2 * (maxPlaneNodes + bound)) appended.record := by
  obtain ⟨built, after, vouched⟩ := append_vouched made
  have plain : ∀ value ∈ [call.semanticDigest, call.timestamp, call.entanglement],
      ∀ text ∈ texts value, plainText text := by
    intro value member text inside
    have lines := List.all_eq_true.mpr (strings.lines value member text inside)
    rw [plainText_iff, vetted, lines, Bool.and_true]
    simp only [List.mem_cons, List.not_mem_nil, or_false] at member
    rcases member with rfl | rfl | rfl
    · rw [vouched.checked text inside]
      rfl
    · exact strings.timestamp text inside
    · exact strings.entanglement text inside
  have digestSize := (size_between call.semanticDigest).2
  have timeSize := (size_between call.timestamp).2
  have beaconSize := (size_between call.entanglement).2
  have digestCount : counted call.semanticDigest ≤ maxPlaneNodes := by
    have counts := vouched.counts
    have limit := vouched.bounded
    omega
  simp only [uncounted] at few
  rw [PlaneBound, placed_record built]
  by_cases absent : call.entanglement = .null
  · rw [if_pos absent]
    refine ⟨fun value member => plain value ?_, ?_⟩
    · simp only [List.mem_cons] at member ⊢
      tauto
    · simp only [List.map_cons, List.map_nil, List.sum_cons, List.sum_nil]
      omega
  · rw [if_neg absent]
    refine ⟨plain, ?_⟩
    simp only [List.map_cons, List.map_nil, List.sum_cons, List.sum_nil]
    omega

theorem vetted_of_planeBound {bound : Nat} {appended : Appended}
    (made : chain.append crypto call = .ok appended) (bounded : PlaneBound bound appended.record) :
    Vetted call ∧ uncounted call ≤ bound + 1 := by
  obtain ⟨plain, small⟩ := bounded
  rw [placed_record (append_vouched made).1] at plain small
  have digestSize := (size_between call.semanticDigest).1
  have timeSize := (size_between call.timestamp).1
  have beaconSize := (size_between call.entanglement).1
  have passes : ∀ value ∈ [call.semanticDigest, call.timestamp, call.entanglement],
      ∀ text ∈ texts value, vetted text := by
    intro value member text inside
    rw [← plainText_iff]
    by_cases absent : value = .null
    · simp [absent, texts] at inside
    · refine plain value ?_ text inside
      simp only [List.mem_cons, List.not_mem_nil, or_false] at member
      rcases member with rfl | rfl | rfl
      · simp
      · simp
      · simp [absent]
  simp only [vetted, Bool.and_eq_true, List.all_eq_true] at passes
  refine ⟨⟨fun text inside => (passes _ (by simp) text inside).1,
    fun text inside => (passes _ (by simp) text inside).1,
    fun value member text inside => (passes value member text inside).2⟩, ?_⟩
  simp only [uncounted]
  by_cases absent : call.entanglement = .null
  · simp only [if_pos absent, List.map_cons, List.map_nil, List.sum_cons, List.sum_nil] at small
    simp only [absent, counted, nulls]
    omega
  · simp only [if_neg absent, List.map_cons, List.map_nil, List.sum_cons, List.sum_nil] at small
    omega

/-- The records of a class of calls are bounded by one constant exactly when the strings
`append` never checks are of its vocabulary, no segment ends in a newline, and one
constant bounds what `check_plane_value` never counts. -/
theorem plane_bounded_iff (crypto : Crypto) (calls : AppendCall → Prop) :
    (∃ bound, ∀ (chain : WitnessChain) call appended, calls call →
        chain.append crypto call = .ok appended → PlaneBound bound appended.record) ↔
      ∃ bound, ∀ (chain : WitnessChain) call appended, calls call →
        chain.append crypto call = .ok appended → Vetted call ∧ uncounted call ≤ bound := by
  constructor
  · rintro ⟨bound, bounded⟩
    exact ⟨bound + 1, fun chain call appended asked made =>
      vetted_of_planeBound made (bounded chain call appended asked made)⟩
  · rintro ⟨bound, few⟩
    refine ⟨2 * (maxPlaneNodes + bound), fun chain call appended asked made => ?_⟩
    obtain ⟨strings, count⟩ := few chain call appended asked made
    exact planeBound_of_vetted made strings count

/-- A timestamp is free text, whatever the constant. -/
theorem plane_not_bounded : ¬ ∃ bound, ∀ (chain : WitnessChain) call appended,
    chain.append Crypto.sample call = .ok appended → PlaneBound bound appended.record := by
  rintro ⟨bound, bounded⟩
  let chain : WitnessChain := { sk := .sample 1, records := [] }
  let call : AppendCall := { kind := "INFER", timestamp := .str "any text at all" }
  have accepted : (chain.append Crypto.sample call).isOk := by decide +kernel
  obtain ⟨appended, made⟩ := Py.exists_of_isOk accepted
  have plain := (bounded chain call appended made).1 (.str "any text at all")
  rw [placed_record (append_vouched made).1] at plain
  exact absurd (plain (by simp [call]) "any text at all" (by simp [texts])) (by decide +kernel)

end JJDai
