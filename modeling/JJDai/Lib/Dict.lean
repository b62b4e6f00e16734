import Mathlib.Data.List.Basic
import Mathlib.Data.List.Perm.Basic
import Mathlib.Data.List.Nodup
import Mathlib.Tactic

/-! Insertion-ordered dictionaries: a key keeps its first position when its
value is replaced. -/

abbrev Dict (κ : Type u) (ν : Type v) := List (κ × ν)

namespace Dict

variable {κ : Type u} {ν : Type v} {μ : Type w} [DecidableEq κ]

def get? (d : Dict κ ν) (key : κ) : Option ν :=
  match d with
  | [] => none
  | (k, value) :: rest => if k = key then some value else get? rest key

def set (d : Dict κ ν) (key : κ) (value : ν) : Dict κ ν :=
  match d with
  | [] => [(key, value)]
  | (k, old) :: rest => if k = key then (k, value) :: rest else (k, old) :: set rest key value

def erase (d : Dict κ ν) (key : κ) : Dict κ ν := d.filter (fun entry => entry.1 ≠ key)

def keys (d : Dict κ ν) : List κ := d.map Prod.fst

@[simp] theorem get?_nil (key : κ) : get? ([] : Dict κ ν) key = none := rfl

@[simp] theorem get?_cons (k : κ) (value : ν) (rest : Dict κ ν) (key : κ) :
    get? ((k, value) :: rest) key = if k = key then some value else get? rest key := rfl

theorem set_nil (key : κ) (value : ν) : set [] key value = [(key, value)] := rfl

theorem set_cons (k : κ) (old : ν) (rest : Dict κ ν) (key : κ) (value : ν) :
    set ((k, old) :: rest) key value =
      if k = key then (k, value) :: rest else (k, old) :: set rest key value := rfl

theorem get?_append (d rest : Dict κ ν) (key : κ) :
    get? (d ++ rest) key = (get? d key).or (get? rest key) := by
  induction d with
  | nil => simp
  | cons head tail ih =>
    obtain ⟨k, value⟩ := head
    rw [List.cons_append, get?_cons, get?_cons]
    by_cases same : k = key <;> simp [same, ih]

@[simp] theorem get?_set_self (d : Dict κ ν) (key : κ) (value : ν) :
    get? (set d key value) key = some value := by
  induction d with
  | nil => simp [set_nil]
  | cons head rest ih =>
    obtain ⟨k, old⟩ := head
    by_cases same : k = key <;> simp [set_cons, same, ih]

theorem get?_set_ne (d : Dict κ ν) {key other : κ} (different : key ≠ other) (value : ν) :
    get? (set d key value) other = get? d other := by
  induction d with
  | nil => simp [set_nil, different]
  | cons head rest ih =>
    obtain ⟨k, old⟩ := head
    by_cases same : k = key
    · subst same; simp [set_cons, different]
    · simp [set_cons, same, ih]

theorem get?_set (d : Dict κ ν) (key other : κ) (value : ν) :
    get? (set d key value) other = if key = other then some value else get? d other := by
  split
  · rename_i same; rw [← same, get?_set_self]
  · rename_i different; exact get?_set_ne d different value

@[simp] theorem set_set (d : Dict κ ν) (key : κ) (first second : ν) :
    set (set d key first) key second = set d key second := by
  induction d with
  | nil => simp [set_nil, set_cons]
  | cons head rest ih =>
    obtain ⟨k, old⟩ := head
    by_cases same : k = key <;> simp [set_cons, same, ih]

theorem set_same {d : Dict κ ν} {key : κ} {value : ν} (held : get? d key = some value) :
    set d key value = d := by
  induction d with
  | nil => cases held
  | cons head rest ih =>
    obtain ⟨k, old⟩ := head
    rw [get?_cons] at held
    by_cases same : k = key
    · rw [if_pos same] at held
      simp [set_cons, same, Option.some.inj held]
    · rw [if_neg same] at held
      simp [set_cons, same, ih held]

theorem mem_set {d : Dict κ ν} {key : κ} {value : ν} {entry : κ × ν}
    (member : entry ∈ set d key value) : entry = (key, value) ∨ entry ∈ d := by
  induction d with
  | nil => exact Or.inl (List.mem_singleton.mp member)
  | cons head rest ih =>
    obtain ⟨k, old⟩ := head
    by_cases same : k = key
    · simp only [set_cons, same, if_true, List.mem_cons] at member ⊢
      tauto
    · simp only [set_cons, same, if_false, List.mem_cons] at member ⊢
      rcases member with first | later
      · exact Or.inr (Or.inl first)
      · rcases ih later with new | old
        · exact Or.inl new
        · exact Or.inr (Or.inr old)

theorem erase_cons (k : κ) (value : ν) (rest : Dict κ ν) (key : κ) :
    erase ((k, value) :: rest) key =
      if k = key then erase rest key else (k, value) :: erase rest key := by
  by_cases gone : k = key <;> simp [erase, gone]

theorem get?_erase (d : Dict κ ν) (key other : κ) :
    get? (erase d key) other = if key = other then none else get? d other := by
  induction d with
  | nil => simp [erase]
  | cons head rest ih =>
    obtain ⟨k, value⟩ := head
    by_cases gone : k = key
    · rw [erase_cons, if_pos gone, ih, get?_cons]
      by_cases same : key = other
      · simp [same]
      · simp [same, gone]
    · rw [erase_cons, if_neg gone, get?_cons, get?_cons, ih]
      by_cases same : k = other
      · have kept : key ≠ other := fun eq => gone (same.trans eq.symm)
        simp [same, kept]
      · simp [same]

theorem mem_keys {d : Dict κ ν} {key : κ} : key ∈ keys d ↔ (get? d key).isSome := by
  induction d with
  | nil => simp [keys]
  | cons head rest ih =>
    obtain ⟨k, value⟩ := head
    simp only [keys, List.map_cons, List.mem_cons, get?_cons] at ih ⊢
    rw [ih]
    by_cases same : k = key
    · simp [same]
    · simp [same, Ne.symm same]

theorem mem_of_get? {d : Dict κ ν} {key : κ} {value : ν} (found : get? d key = some value) :
    (key, value) ∈ d := by
  induction d with
  | nil => cases found
  | cons head rest ih =>
    obtain ⟨k, old⟩ := head
    rw [get?_cons] at found
    split at found
    · rename_i same; obtain rfl := Option.some.inj found; simp [same]
    · exact List.mem_cons_of_mem _ (ih found)

theorem get?_of_mem {d : Dict κ ν} {key : κ} {value : ν} (unique : (keys d).Nodup)
    (member : (key, value) ∈ d) : get? d key = some value := by
  induction d with
  | nil => cases member
  | cons head rest ih =>
    obtain ⟨k, old⟩ := head
    simp only [keys, List.map_cons, List.nodup_cons, List.mem_map, not_exists, not_and] at unique
    rcases List.mem_cons.mp member with same | present
    · obtain ⟨rfl, rfl⟩ := Prod.mk.inj same; simp
    · have different : k ≠ key := fun same => unique.1 _ present same.symm
      rw [get?_cons, if_neg different]
      exact ih unique.2 present

theorem keys_set (d : Dict κ ν) (key : κ) (value : ν) :
    keys (set d key value) = if key ∈ keys d then keys d else keys d ++ [key] := by
  induction d with
  | nil => simp [set_nil, keys]
  | cons head rest ih =>
    obtain ⟨k, old⟩ := head
    simp only [keys, set_cons, List.map_cons, List.mem_cons] at ih ⊢
    by_cases same : k = key
    · simp [same]
    · simp only [same, if_false, List.map_cons, ih, Ne.symm same, false_or]
      by_cases present : key ∈ List.map Prod.fst rest <;> simp [present]

theorem set_absent {d : Dict κ ν} {key : κ} (absent : key ∉ keys d) (value : ν) :
    set d key value = d ++ [(key, value)] := by
  induction d with
  | nil => rfl
  | cons head rest ih =>
    obtain ⟨k, old⟩ := head
    simp only [keys, List.map_cons, List.mem_cons, not_or] at absent
    rw [set_cons, if_neg (Ne.symm absent.1), ih absent.2]
    rfl

theorem nodup_set {d : Dict κ ν} (unique : (keys d).Nodup) (key : κ) (value : ν) :
    (keys (set d key value)).Nodup := by
  rw [keys_set]
  split
  · exact unique
  · rename_i absent
    exact List.nodup_append.mpr ⟨unique, List.nodup_singleton _, by
      rintro a member b single rfl
      exact absent (List.mem_singleton.mp single ▸ member)⟩

theorem get?_perm {d e : Dict κ ν} (order : d.Perm e) (unique : (keys d).Nodup) (key : κ) :
    get? d key = get? e key := by
  have uniqueE : (keys e).Nodup := (order.map _).nodup_iff.mp unique
  cases found : get? d key with
  | some value => rw [get?_of_mem uniqueE (order.mem_iff.mp (mem_of_get? found))]
  | none =>
    have absent : key ∉ keys e := by
      rw [show keys e = e.map Prod.fst from rfl, ← (order.map Prod.fst).mem_iff]
      exact fun member => by simpa [found] using mem_keys.mp member
    cases other : get? e key with
    | none => rfl
    | some value => exact (absent (mem_keys.mpr (by simp [other]))).elim

theorem get?_map (f : ν → μ) (d : Dict κ ν) (key : κ) :
    get? (d.map (fun entry => (entry.1, f entry.2))) key = (get? d key).map f := by
  induction d with
  | nil => rfl
  | cons head rest ih =>
    obtain ⟨k, value⟩ := head
    simp only [List.map_cons, get?_cons, ih]
    split <;> rfl

def update (d updates : Dict κ ν) : Dict κ ν := updates.foldl (fun d entry => set d entry.1 entry.2) d

theorem nodup_update {d : Dict κ ν} (unique : (keys d).Nodup) (updates : Dict κ ν) :
    (keys (update d updates)).Nodup := by
  induction updates generalizing d with
  | nil => exact unique
  | cons entry rest ih => exact ih (nodup_set unique entry.1 entry.2)

end Dict
