import Mathlib.Data.List.Nodup

/-! Dictionaries whose keys are taken for one when their codes are: grouping items by a key, and
keeping the last value of each key. -/

namespace Grouping

universe u v w x

variable {ι : Type u} {κ : Type v} {γ : Type w} {ν : Type x} [DecidableEq γ] (code : κ → γ)

/-- The value of the first entry with the key. -/
def lookup (key : κ) : List (κ × ν) → Option ν
  | [] => none
  | entry :: rest => if code entry.1 = code key then some entry.2 else lookup key rest

/-- Replaces the value of the key in its place, or appends it. -/
def store (key : κ) (value : ν) : List (κ × ν) → List (κ × ν)
  | [] => [(key, value)]
  | entry :: rest => if code entry.1 = code key then (entry.1, value) :: rest else entry :: store key value rest

def Apart (d : List (κ × ν)) : Prop := (d.map (fun entry => code entry.1)).Nodup

variable {code}

theorem lookup_eq_find? (d : List (κ × ν)) (key : κ) :
    lookup code key d = (d.find? (fun entry => code entry.1 = code key)).map Prod.snd := by
  induction d with
  | nil => rfl
  | cons entry rest ih =>
    by_cases same : code entry.1 = code key
    · rw [lookup, if_pos same, List.find?_cons_of_pos (by simpa using same)]
      rfl
    · rw [lookup, if_neg same, List.find?_cons_of_neg (by simpa using same), ih]

theorem lookup_store (d : List (κ × ν)) (key other : κ) (value : ν) :
    lookup code other (store code key value d) = if code key = code other then some value else lookup code other d := by
  induction d with
  | nil => rfl
  | cons entry rest ih =>
    by_cases same : code entry.1 = code key
    · rw [store, if_pos same, lookup, lookup, same]
      by_cases found : code key = code other
      · rw [if_pos found, if_pos found]
      · simp only [if_neg found]
    · rw [store, if_neg same, lookup, lookup, ih]
      by_cases found : code entry.1 = code other
      · have different : ¬code key = code other := fun equal => same (found.trans equal.symm)
        rw [if_pos found, if_neg different, if_pos found]
      · rw [if_neg found, if_neg found]

theorem codes_store (d : List (κ × ν)) (key : κ) (value : ν) :
    (store code key value d).map (fun entry => code entry.1) =
      if code key ∈ d.map (fun entry => code entry.1) then d.map (fun entry => code entry.1)
      else d.map (fun entry => code entry.1) ++ [code key] := by
  induction d with
  | nil => simp [store]
  | cons entry rest ih =>
    unfold store
    by_cases same : code entry.1 = code key
    · simp [same]
    · simp only [if_neg same, List.map_cons, ih, List.mem_cons, Ne.symm same, false_or]
      split <;> rfl

theorem Apart.store {d : List (κ × ν)} (apart : Apart code d) (key : κ) (value : ν) :
    Apart code (store code key value d) := by
  unfold Apart
  rw [codes_store]
  split
  · exact apart
  · next absent => exact List.nodup_append'.mpr ⟨apart, List.nodup_singleton _, by simpa using absent⟩

theorem Apart.lookup {d : List (κ × ν)} (apart : Apart code d) {entry : κ × ν} (member : entry ∈ d) :
    lookup code entry.1 d = some entry.2 := by
  rw [lookup_eq_find?]
  cases found : d.find? (fun other => code other.1 = code entry.1) with
  | none => simpa using List.find?_eq_none.mp found entry member
  | some other =>
    have same : code other.1 = code entry.1 := by simpa using List.find?_some found
    rw [List.inj_on_of_nodup_map apart (List.mem_of_find?_eq_some found) member same]
    rfl

section
variable (code) (name : ι → κ)

/-- Puts an item behind the others of its key. -/
def collect (d : List (κ × List ι)) (item : ι) : List (κ × List ι) :=
  store code (name item) ((lookup code (name item) d).getD [] ++ [item]) d

def alike (key : κ) (items : List ι) : List ι := items.filter (fun item => code (name item) = code key)

end

variable {name : ι → κ}

theorem lookup_collect (d : List (κ × List ι)) (item : ι) (key : κ) :
    (lookup code key (collect code name d item)).getD [] =
      (lookup code key d).getD [] ++ alike code name key [item] := by
  unfold collect
  rw [lookup_store]
  by_cases same : code (name item) = code key
  · have read : lookup code (name item) d = lookup code key d := by
      rw [lookup_eq_find?, lookup_eq_find?, same]
    simp [same, read, alike]
  · simp [same, alike]

variable (code name) in
theorem lookup_groups (items : List ι) (d : List (κ × List ι)) (key : κ) :
    (lookup code key (items.foldl (collect code name) d)).getD [] =
      (lookup code key d).getD [] ++ alike code name key items := by
  induction items generalizing d with
  | nil => simp [alike]
  | cons item rest ih =>
    rw [List.foldl_cons, ih, lookup_collect, List.append_assoc]
    simp only [alike, List.filter_cons, List.filter_nil]
    split <;> rfl

theorem apart_groups (items : List ι) {d : List (κ × List ι)} (apart : Apart code d) :
    Apart code (items.foldl (collect code name) d) := by
  induction items generalizing d with
  | nil => exact apart
  | cons item rest ih => exact ih (apart.store _ _)

variable (code name) in
theorem codes_groups (items : List ι) (d : List (κ × List ι)) (c : γ) :
    c ∈ (items.foldl (collect code name) d).map (fun entry => code entry.1) ↔
      c ∈ d.map (fun entry => code entry.1) ∨ ∃ item ∈ items, code (name item) = c := by
  induction items generalizing d with
  | nil => simp
  | cons item rest ih =>
    simp only [List.foldl_cons, ih, collect, codes_store, List.mem_cons, or_and_right, exists_or, exists_eq_left]
    split
    · next present =>
      constructor
      · rintro (old | later)
        · exact .inl old
        · exact .inr (.inr later)
      · rintro (old | rfl | later)
        · exact .inl old
        · exact .inl present
        · exact .inr later
    · rw [List.mem_append, List.mem_singleton, or_assoc, eq_comm (a := c)]

theorem group_eq {items : List ι} {entry : κ × List ι} (member : entry ∈ items.foldl (collect code name) []) :
    entry.2 = alike code name entry.1 items ∧ ∃ item ∈ items, code (name item) = code entry.1 := by
  have apart : Apart code (items.foldl (collect code name) []) := apart_groups items List.nodup_nil
  have read := lookup_groups code name items [] entry.1
  rw [apart.lookup member] at read
  refine ⟨by simpa only [lookup, Option.getD_some, Option.getD_none, List.nil_append] using read, ?_⟩
  have named := (codes_groups code name items [] (code entry.1)).mp (List.mem_map_of_mem member)
  simpa using named

variable (code name) in
theorem exists_group {items : List ι} {item : ι} (member : item ∈ items) :
    ∃ entry ∈ items.foldl (collect code name) [], code entry.1 = code (name item) := by
  have named := (codes_groups code name items [] (code (name item))).mpr (.inr ⟨item, member, rfl⟩)
  exact List.mem_map.mp named

theorem lookup_last (value : ι → ν) (items : List ι) (d : List (κ × ν)) (key : κ) :
    lookup code key (items.foldl (fun d item => store code (name item) (value item) d) d) =
      ((alike code name key items).getLast?.map value).or (lookup code key d) := by
  induction items generalizing d with
  | nil => simp [alike]
  | cons item rest ih =>
    rw [List.foldl_cons, ih, lookup_store]
    unfold alike
    by_cases same : code (name item) = code key
    · rw [if_pos same, List.filter_cons_of_pos (by simpa using same), List.getLast?_cons]
      cases (rest.filter (fun item => code (name item) = code key)).getLast? <;> rfl
    · rw [if_neg same, List.filter_cons_of_neg (by simpa using same)]

end Grouping
