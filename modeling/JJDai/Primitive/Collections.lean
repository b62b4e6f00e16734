import JJDai.Lib.Grouping
import JJDai.Primitive.Builtins
import JJDai.Primitive.Raises

/-! Dicts and sets of values of any type, and the sort of such values. -/

namespace JJDai

open PyText

def pyLookup (entries : List (Json × α)) (key : Json) : Py (Option α) := do
  if !hashable key then raise .typeError
  return (entries.find? (fun entry => decide (Json.pyEq entry.1 key))).map Prod.snd

def storeEntry (key : Json) (value : α) : List (Json × α) → List (Json × α)
  | [] => [(key, value)]
  | entry :: rest =>
    if Json.pyEq entry.1 key then (entry.1, value) :: rest else entry :: storeEntry key value rest

def pyStore (entries : List (Json × α)) (key : Json) (value : α) : Py (List (Json × α)) := do
  if !hashable key then raise .typeError
  return storeEntry key value entries

theorem pyLookup_none {entries : List (Json × α)} {key : Json} (absent : pyLookup entries key = .ok none) :
    ∀ entry ∈ entries, ¬Json.pyEq entry.1 key := by
  simp only [pyLookup, bind, Py.unless_ok] at absent
  have none := Option.map_eq_none_iff.mp (Except.ok.inj absent.2)
  intro entry member same
  simpa [same] using List.find?_eq_none.mp none entry member

theorem pyLookup_some {entries : List (Json × α)} {key : Json} {value : α}
    (found : pyLookup entries key = .ok (some value)) : ∃ entry ∈ entries, entry.2 = value ∧ Json.pyEq entry.1 key := by
  simp only [pyLookup, bind, Py.unless_ok] at found
  obtain ⟨entry, first, rfl⟩ := Option.map_eq_some_iff.mp (Except.ok.inj found.2)
  have same := List.find?_some first
  exact ⟨entry, List.mem_of_find?_eq_some first, rfl, of_decide_eq_true same⟩

theorem storeEntry_absent {entries : List (Json × α)} {key : Json} (value : α)
    (absent : ∀ entry ∈ entries, ¬Json.pyEq entry.1 key) : storeEntry key value entries = entries ++ [(key, value)] := by
  induction entries with
  | nil => rfl
  | cons first rest ih =>
    rw [storeEntry, if_neg (absent first List.mem_cons_self),
      ih (fun entry member => absent entry (List.mem_cons_of_mem _ member))]
    rfl

theorem storeEntry_eq (entries : List (Json × α)) (key : Json) (value : α) :
    storeEntry key value entries = Grouping.store Json.comparisonKey key value entries := by
  induction entries with
  | nil => rfl
  | cons entry rest ih =>
    unfold storeEntry Grouping.store
    by_cases same : Json.pyEq entry.1 key
    · rw [if_pos same, if_pos (show Json.comparisonKey entry.1 = Json.comparisonKey key from same)]
    · rw [if_neg same, if_neg (show ¬Json.comparisonKey entry.1 = Json.comparisonKey key from same), ih]

theorem pyStore_ok {entries out : List (Json × α)} {key : Json} {value : α} :
    pyStore entries key value = .ok out ↔
      hashable key = true ∧ Grouping.store Json.comparisonKey key value entries = out := by
  simp only [pyStore, bind, Py.unless_ok, pure, Except.pure, Except.ok.injEq, storeEntry_eq, Bool.not_eq_true',
    Bool.not_eq_false]

theorem pyLookup_ok {entries : List (Json × α)} {key : Json} {found : Option α} :
    pyLookup entries key = .ok found ↔ hashable key = true ∧ Grouping.lookup Json.comparisonKey key entries = found := by
  simp only [pyLookup, bind, Py.unless_ok, pure, Except.pure, Except.ok.injEq, Grouping.lookup_eq_find?,
    Bool.not_eq_true', Bool.not_eq_false]
  rfl

theorem setContains_ok {members : List Json} {value : Json} {found : Bool} :
    setContains members value = .ok found ↔
      hashable value = true ∧ members.any (fun member => decide (Json.pyEq member value)) = found := by
  simp only [setContains, bind, Py.unless_ok, pure, Except.pure, Except.ok.injEq, Bool.not_eq_true', Bool.not_eq_false]

def withValue (members : List Json) (value : Json) : List Json :=
  if members.any (fun member => decide (Json.pyEq member value)) then members else members ++ [value]

theorem setAdd_ok {members after : List Json} {value : Json} :
    setAdd members value = .ok after ↔ hashable value = true ∧ withValue members value = after := by
  simp only [setAdd, bind, Py.bind_ok, setContains_ok, withValue]
  constructor
  · rintro ⟨_, ⟨hashed, rfl⟩, made⟩
    refine ⟨hashed, ?_⟩
    split at made
    · rw [if_pos ‹_›]
      exact Except.ok.inj made
    · rw [if_neg ‹_›]
      exact Except.ok.inj made
  · rintro ⟨hashed, rfl⟩
    refine ⟨_, ⟨hashed, rfl⟩, ?_⟩
    split <;> rfl

def pySet (values : List Json) : Py (List Json) := values.foldlM setAdd []

theorem addAll_ok {members after values : List Json} :
    values.foldlM setAdd members = .ok after ↔
      (∀ value ∈ values, hashable value = true) ∧ values.foldl withValue members = after := by
  induction values generalizing members with
  | nil => simp [pure, Except.pure]
  | cons value rest ih =>
    simp only [List.foldlM_cons, bind, Py.bind_ok, setAdd_ok, ih, List.forall_mem_cons, List.foldl_cons]
    constructor
    · rintro ⟨_, ⟨hashed, rfl⟩, later, made⟩
      exact ⟨⟨hashed, later⟩, made⟩
    · rintro ⟨⟨hashed, later⟩, made⟩
      exact ⟨_, ⟨hashed, rfl⟩, later, made⟩

theorem addAll_raises (members values : List Json) : Raises (·.kind = .typeError) (values.foldlM setAdd members) := by
  refine Raises.foldlM fun state value _ => ?_
  unfold setAdd setContains
  refine Raises.bind (Raises.check (fun _ => rfl) fun _ => Raises.ok _) fun held _ => ?_
  cases held
  · exact Raises.ok _
  · exact Raises.ok _

/-- No two members of the set are one value. -/
def OneEach (members : List Json) : Prop := members.Pairwise (fun a b => ¬Json.pyEq a b)

theorem withValue_oneEach {members : List Json} (apart : OneEach members) (value : Json) :
    OneEach (withValue members value) := by
  unfold withValue
  split
  · exact apart
  · next absent =>
    refine List.pairwise_append.mpr ⟨apart, List.pairwise_singleton _ _, ?_⟩
    intro member held other same equal
    obtain rfl := List.mem_singleton.mp same
    exact absent (List.any_eq_true.mpr ⟨member, held, decide_eq_true equal⟩)

theorem mem_withValue {members : List Json} {value member : Json} (held : member ∈ withValue members value) :
    member ∈ members ∨ member = value := by
  unfold withValue at held
  split at held
  · exact .inl held
  · simpa using held

theorem withValue_holds (members : List Json) (value : Json) : ∃ member ∈ withValue members value, Json.pyEq member value := by
  unfold withValue
  split
  · next found =>
    obtain ⟨member, held, same⟩ := List.any_eq_true.mp found
    exact ⟨member, held, of_decide_eq_true same⟩
  · exact ⟨value, by simp, rfl⟩

theorem withValue_keeps {members : List Json} (value : Json) {member : Json} (held : member ∈ members) :
    member ∈ withValue members value := by
  unfold withValue
  split
  · exact held
  · exact List.mem_append_left _ held

theorem addAll_oneEach (values : List Json) {members : List Json} (apart : OneEach members) :
    OneEach (values.foldl withValue members) := by
  induction values generalizing members with
  | nil => exact apart
  | cons first rest ih => exact ih (withValue_oneEach apart first)

theorem mem_addAll {values members : List Json} {member : Json} (held : member ∈ values.foldl withValue members) :
    member ∈ members ∨ member ∈ values := by
  induction values generalizing members with
  | nil => exact .inl held
  | cons first rest ih =>
    rcases ih held with before | among
    · rcases mem_withValue before with old | rfl
      · exact .inl old
      · exact .inr List.mem_cons_self
    · exact .inr (List.mem_cons_of_mem _ among)

theorem addAll_holds {values members : List Json} {value : Json} (given : value ∈ members ∨ value ∈ values) :
    ∃ member ∈ values.foldl withValue members, Json.pyEq member value := by
  induction values generalizing members value with
  | nil => exact ⟨value, given.resolve_right List.not_mem_nil, rfl⟩
  | cons first rest ih =>
    rcases given with old | listed
    · exact ih (.inl (withValue_keeps first old))
    · rcases List.mem_cons.mp listed with rfl | among
      · obtain ⟨member, held, same⟩ := withValue_holds members value
        obtain ⟨kept, there, alike⟩ := ih (.inl held)
        exact ⟨kept, there, alike.trans same⟩
      · exact ih (.inr among)

theorem addAll_set (members values : List Json) :
    (values.foldl withValue []).foldl withValue members = values.foldl withValue members := by
  induction values using List.reverseRecOn with
  | nil => rfl
  | append_singleton front value ih =>
    simp only [List.foldl_append, List.foldl_cons, List.foldl_nil]
    by_cases held : (front.foldl withValue []).any (fun member => decide (Json.pyEq member value)) = true
    · obtain ⟨member, among, same⟩ := List.any_eq_true.mp held
      have given : member ∈ front := (mem_addAll among).resolve_left List.not_mem_nil
      obtain ⟨kept, there, alike⟩ := @addAll_holds front members member (.inr given)
      have present : (front.foldl withValue members).any (fun member => decide (Json.pyEq member value)) = true :=
        List.any_eq_true.mpr ⟨kept, there, decide_eq_true (alike.trans (of_decide_eq_true same))⟩
      rw [withValue, if_pos held, ih, withValue, if_pos present]
    · rw [withValue, if_neg held, List.foldl_append, ih]
      rfl

/-- An item goes behind those that are not greater. -/
def insertItem (item : Json × α) : List (Json × α) → Py (List (Json × α))
  | [] => return [item]
  | first :: rest => do
    if ← pyLess item.1 first.1 then return item :: first :: rest
    let later ← insertItem item rest
    return first :: later

def pySort (items : List (Json × α)) : Py (List α) := do
  let sorted ← items.foldlM (fun sorted item => insertItem item sorted) []
  return sorted.map Prod.snd

def isText : Json → Bool
  | .str _ => true
  | _ => false

def isNumber : Json → Bool
  | .bool _ => true
  | .int _ => true
  | .float _ => true
  | _ => false

def Comparable (a b : Json) : Prop := (isText a ∧ isText b) ∨ (isNumber a ∧ isNumber b)

theorem Comparable.symm {a b : Json} (comparable : Comparable a b) : Comparable b a := by
  rcases comparable with ⟨left, right⟩ | ⟨left, right⟩
  · exact .inl ⟨right, left⟩
  · exact .inr ⟨right, left⟩

theorem not_text_of_number {a : Json} (number : isNumber a = true) : isText a = false := by
  cases a <;> first | rfl | cases number

theorem Comparable.trans {a b c : Json} (first : Comparable a b) (second : Comparable b c) : Comparable a c := by
  rcases first with ⟨left, middle⟩ | ⟨left, middle⟩
  · rcases second with ⟨_, right⟩ | ⟨number, _⟩
    · exact .inl ⟨left, right⟩
    · exact absurd middle (by simp [not_text_of_number number])
  · rcases second with ⟨text, _⟩ | ⟨_, right⟩
    · exact absurd text (by simp [not_text_of_number middle])
    · exact .inr ⟨left, right⟩

theorem pyLess_total {a b : Json} (hashed : hashable a = true) : (∃ less, pyLess a b = .ok less) ↔ Comparable a b := by
  cases a with
  | arr items => cases hashed
  | obj fields => cases hashed
  | _ => cases b <;> simp [pyLess, Comparable, isText, isNumber, asInt?, raise, pure, Except.pure]

theorem pyLess_raises {a : Json} (hashed : hashable a = true) (b : Json) : Raises (·.kind = .typeError) (pyLess a b) := by
  intro e failed
  cases a with
  | arr items => cases hashed
  | obj fields => cases hashed
  | _ =>
    cases b <;> simp only [pyLess, asInt?, raise, pure, Except.pure, reduceCtorEq] at failed <;>
      exact congrArg PyErr.kind (Except.error.inj failed).symm

theorem insertItem_perm {item : Json × α} {items out : List (Json × α)} (made : insertItem item items = .ok out) :
    out.Perm (item :: items) := by
  induction items generalizing out with
  | nil =>
    obtain rfl := Except.ok.inj made
    exact .refl _
  | cons first rest ih =>
    simp only [insertItem, bind, Py.bind_ok] at made
    obtain ⟨less, _, made⟩ := made
    cases less with
    | true =>
      obtain rfl := Except.ok.inj made
      exact .refl _
    | false =>
      obtain ⟨later, inserted, made⟩ := Py.bind_ok.mp made
      obtain rfl := Except.ok.inj made
      exact ((ih inserted).cons first).trans (.swap item first rest)

theorem insertItem_total {item first : Json × α} {rest : List (Json × α)} (hashed : hashable item.1 = true)
    (alike : ∀ entry ∈ rest, ∀ other, Comparable other entry.1 ↔ Comparable other first.1) :
    (∃ out, insertItem item (first :: rest) = .ok out) ↔ Comparable item.1 first.1 := by
  rw [← pyLess_total hashed]
  induction rest generalizing first with
  | nil =>
    constructor
    · rintro ⟨out, made⟩
      obtain ⟨less, compared, _⟩ := Py.bind_ok.mp made
      exact ⟨less, compared⟩
    · rintro ⟨less, compared⟩
      cases less <;> exact ⟨_, by simp only [insertItem, compared, bind, ok_bind]; rfl⟩
  | cons second rest ih =>
    constructor
    · rintro ⟨out, made⟩
      obtain ⟨less, compared, _⟩ := Py.bind_ok.mp made
      exact ⟨less, compared⟩
    · rintro ⟨less, compared⟩
      have next : ∃ less, pyLess item.1 second.1 = .ok less := by
        rw [pyLess_total hashed, alike second List.mem_cons_self, ← pyLess_total hashed]
        exact ⟨less, compared⟩
      obtain ⟨out, inserted⟩ := (ih (fun entry member other => by
        rw [alike entry (List.mem_cons_of_mem _ member), alike second List.mem_cons_self])).mpr next
      cases less with
      | true => exact ⟨_, by simp only [insertItem, compared, bind, ok_bind]; rfl⟩
      | false => exact ⟨first :: out, by rw [insertItem]; simp only [compared, inserted, bind, ok_bind]; rfl⟩

theorem pySort_total {first : Json × α} {rest : List (Json × α)} (hashed : ∀ item ∈ rest, hashable item.1 = true) :
    (∃ sorted, pySort (first :: rest) = .ok sorted) ↔ ∀ item ∈ rest, Comparable item.1 first.1 := by
  have step (sorted : List (Json × α)) (filled : sorted ≠ [])
      (alike : ∀ entry ∈ sorted, ∀ other, Comparable other entry.1 ↔ Comparable other first.1) :
      (∃ out, rest.foldlM (fun sorted item => insertItem item sorted) sorted = .ok out) ↔
        ∀ item ∈ rest, Comparable item.1 first.1 := by
    induction rest generalizing sorted with
    | nil => exact iff_of_true ⟨sorted, rfl⟩ (by simp)
    | cons item rest ih =>
      obtain ⟨head, tail, rfl⟩ := List.exists_cons_of_ne_nil filled
      have own := alike head List.mem_cons_self
      have inserts := insertItem_total (hashed item List.mem_cons_self) (fun entry member other =>
        (alike entry (List.mem_cons_of_mem _ member) other).trans (own other).symm)
      have after {middle : List (Json × α)} (comparable : Comparable item.1 first.1)
          (inserted : insertItem item (head :: tail) = .ok middle) :=
        ih (fun other member => hashed other (List.mem_cons_of_mem _ member)) middle
          (by
            rintro rfl
            exact absurd (insertItem_perm inserted).length_eq (by simp))
          (by
            intro entry member other
            rcases List.mem_cons.mp ((insertItem_perm inserted).mem_iff.mp member) with rfl | old
            · exact ⟨fun near => near.trans comparable, fun near => near.trans comparable.symm⟩
            · exact alike entry old other)
      rw [List.forall_mem_cons]
      simp only [List.foldlM_cons, bind, Py.bind_ok]
      constructor
      · rintro ⟨out, middle, inserted, folded⟩
        have comparable := (own item.1).mp (inserts.mp ⟨middle, inserted⟩)
        exact ⟨comparable, (after comparable inserted).mp ⟨out, folded⟩⟩
      · rintro ⟨comparable, later⟩
        obtain ⟨middle, inserted⟩ := inserts.mpr ((own item.1).mpr comparable)
        obtain ⟨out, folded⟩ := (after comparable inserted).mpr later
        exact ⟨out, middle, inserted, folded⟩
  rw [← step [first] (by simp) (by simp)]
  constructor
  · rintro ⟨sorted, made⟩
    obtain ⟨out, folded, _⟩ := Py.bind_ok.mp made
    exact ⟨out, folded⟩
  · rintro ⟨out, folded⟩
    exact ⟨out.map Prod.snd, Py.bind_ok.mpr ⟨out, folded, rfl⟩⟩

theorem insertItem_raises {item : Json × α} (hashed : hashable item.1 = true) (items : List (Json × α)) :
    Raises (·.kind = .typeError) (insertItem item items) := by
  induction items with
  | nil => exact Raises.ok _
  | cons first rest ih =>
    refine (pyLess_raises hashed first.1).bind fun less _ => ?_
    cases less with
    | true => exact Raises.ok _
    | false => exact ih.bind fun later _ => Raises.ok _

theorem pySort_raises {items : List (Json × α)} (hashed : ∀ item ∈ items, hashable item.1 = true) :
    Raises (·.kind = .typeError) (pySort items) :=
  (Raises.foldlM fun sorted item member => insertItem_raises (hashed item member) sorted).bind fun _ _ => Raises.ok _

theorem isText_comparisonKey (j : Json) : isText j.comparisonKey = isText j := by
  cases j with
  | float value =>
    unfold Json.comparisonKey
    cases value.toInt? <;> rfl
  | _ => rfl

theorem isNumber_comparisonKey (j : Json) : isNumber j.comparisonKey = isNumber j := by
  cases j with
  | float value =>
    unfold Json.comparisonKey
    cases value.toInt? <;> rfl
  | _ => rfl

theorem Comparable.congr {a b c d : Json} (first : Json.pyEq a c) (second : Json.pyEq b d) (comparable : Comparable a b) :
    Comparable c d := by
  unfold Comparable at comparable ⊢
  rw [← isText_comparisonKey c, ← isText_comparisonKey d, ← isNumber_comparisonKey c, ← isNumber_comparisonKey d,
    ← first, ← second]
  simpa only [isText_comparisonKey, isNumber_comparisonKey] using comparable

/-- Values that `sorted(set(values))` puts in an order. -/
def Sortable (values : List Json) : Prop := ∀ a ∈ values, ∀ b ∈ values, Json.pyEq a b ∨ Comparable a b

theorem sorted_set_total {values : List Json} (hashed : ∀ value ∈ values, hashable value = true) :
    (∃ sorted, pySort ((values.foldl withValue []).map (fun value => (value, value))) = .ok sorted) ↔
      Sortable values := by
  have apart : OneEach (values.foldl withValue []) := addAll_oneEach values List.Pairwise.nil
  have inside : ∀ member ∈ values.foldl withValue [], member ∈ values :=
    fun member held => (mem_addAll held).resolve_left List.not_mem_nil
  have covers : ∀ value ∈ values, ∃ member ∈ values.foldl withValue [], Json.pyEq member value :=
    fun value given => addAll_holds (.inr given)
  cases listed : values.foldl withValue [] with
  | nil =>
    refine iff_of_true ⟨[], rfl⟩ ?_
    intro a given
    obtain ⟨member, held, _⟩ := covers a given
    rw [listed] at held
    cases held
  | cons first rest =>
    rw [listed] at apart inside covers
    rw [List.map_cons, pySort_total]
    · simp only [List.forall_mem_map]
      constructor
      · intro comparable a givenA b givenB
        obtain ⟨x, heldX, sameX⟩ := covers a givenA
        obtain ⟨y, heldY, sameY⟩ := covers b givenB
        rcases List.mem_cons.mp heldX with rfl | laterX
        · rcases List.mem_cons.mp heldY with rfl | laterY
          · exact .inl (sameX.symm.trans sameY)
          · exact .inr ((comparable y laterY).symm.congr sameX sameY)
        · rcases List.mem_cons.mp heldY with rfl | laterY
          · exact .inr ((comparable x laterX).congr sameX sameY)
          · exact .inr (((comparable x laterX).trans (comparable y laterY).symm).congr sameX sameY)
      · intro sortable item member
        have different := (List.pairwise_cons.mp apart).1 item member
        rcases sortable item (inside item (List.mem_cons_of_mem _ member)) first (inside first List.mem_cons_self)
          with same | comparable
        · exact absurd same.symm different
        · exact comparable
    · simp only [List.forall_mem_map]
      exact fun item member => hashed item (inside item (List.mem_cons_of_mem _ member))

end JJDai
