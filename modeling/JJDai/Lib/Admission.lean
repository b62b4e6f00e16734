import JJDai.Lib.Grouping
import Mathlib.Data.List.Induction

/-! Entries that are admitted one by one under a rule for the keys that are held already, beside a reload
that lets the last entry of a key win. -/

namespace Admission

universe u v w x

variable {κ : Type u} {γ : Type v} {ν : Type w} {δ : Type x} [DecidableEq γ]

/-- What is done with an entry whose key is held: the new value replaces the old, or has to agree with it. -/
structure Rule (γ : Type v) (ν : Type w) where
  replaces : γ → Bool
  agrees : ν → ν → Bool

section
variable (code : κ → γ) (rule : Rule γ ν)

def write (held : κ → Option ν) (entry : κ × ν) : κ → Option ν :=
  fun key => if code entry.1 = code key then some entry.2 else held key

def register (held : κ → Option ν) (entry : κ × ν) : Option (κ → Option ν) :=
  match held entry.1 with
  | none => some (write code held entry)
  | some old =>
    if rule.replaces (code entry.1) then some (write code held entry)
    else if rule.agrees old entry.2 then some held
    else none

/-- Behind the first entry of a key that is not replaced, each entry of the key agrees with the first. -/
def Consistent (entries : List (κ × ν)) : Prop :=
  ∀ front entry back first, entries = front ++ entry :: back → rule.replaces (code entry.1) = false →
    Grouping.lookup code entry.1 front = some first → rule.agrees first entry.2 = true

/-- The last value of a key that is not replaced is the first, in the form that values are compared in. -/
def Unchanged (form : ν → δ) (entries : List (κ × ν)) : Prop :=
  ∀ key, rule.replaces (code key) = false →
    (Grouping.lookup code key entries.reverse).map form = (Grouping.lookup code key entries).map form

end

variable {code : κ → γ} {rule : Rule γ ν}

section
variable {held : κ → Option ν} {entry : κ × ν}

theorem register_free (free : held entry.1 = none) : register code rule held entry = some (write code held entry) := by
  rw [register, free]

theorem register_replaced (replaced : rule.replaces (code entry.1) = true) :
    register code rule held entry = some (write code held entry) := by
  unfold register
  cases held entry.1 with
  | none => rfl
  | some old => simp [replaced]

theorem register_fixed {old : ν} (fixed : rule.replaces (code entry.1) = false) (present : held entry.1 = some old) :
    register code rule held entry = if rule.agrees old entry.2 then some held else none := by
  simp [register, present, fixed]

end

theorem lookup_append (front back : List (κ × ν)) (key : κ) :
    Grouping.lookup code key (front ++ back) = (Grouping.lookup code key front).or (Grouping.lookup code key back) := by
  induction front with
  | nil => rfl
  | cons entry rest ih =>
    by_cases same : code entry.1 = code key
    · simp [Grouping.lookup, same]
    · simp [Grouping.lookup, same, ih]

theorem lookup_congr {key other : κ} (same : code key = code other) (entries : List (κ × ν)) :
    Grouping.lookup code key entries = Grouping.lookup code other entries := by
  rw [Grouping.lookup_eq_find?, Grouping.lookup_eq_find?, same]

theorem foldl_write (entries : List (κ × ν)) (held : κ → Option ν) (key : κ) :
    entries.foldl (write code) held key = (Grouping.lookup code key entries.reverse).or (held key) := by
  induction entries generalizing held with
  | nil => rfl
  | cons entry rest ih =>
    rw [List.foldl_cons, ih, List.reverse_cons, lookup_append]
    by_cases same : code entry.1 = code key
    · cases Grouping.lookup code key rest.reverse <;> simp [write, Grouping.lookup, same]
    · cases Grouping.lookup code key rest.reverse <;> simp [write, Grouping.lookup, same]

/-- What registering leaves of the entries: the first value of a key, or the last where it is replaced. -/
structure Kept (code : κ → γ) (rule : Rule γ ν) (entries : List (κ × ν)) (held : κ → Option ν) : Prop where
  first : ∀ key, rule.replaces (code key) = false → held key = Grouping.lookup code key entries
  last : ∀ key, rule.replaces (code key) = true → held key = Grouping.lookup code key entries.reverse

theorem Kept.empty : Kept code rule [] (fun _ => none) := ⟨fun _ _ => rfl, fun _ _ => rfl⟩

theorem Kept.write {entries : List (κ × ν)} {held : κ → Option ν} (kept : Kept code rule entries held)
    {entry : κ × ν} (free : rule.replaces (code entry.1) = true ∨ held entry.1 = none) :
    Kept code rule (entries ++ [entry]) (write code held entry) := by
  constructor
  · intro key fixed
    rw [lookup_append, ← kept.first key fixed]
    by_cases same : code entry.1 = code key
    · have absent : held key = none := by
        rcases free with replaced | absent
        · rw [same, fixed] at replaced
          cases replaced
        · rw [kept.first key fixed, ← lookup_congr same, ← kept.first entry.1 (by rw [same, fixed]), absent]
      simp [Admission.write, Grouping.lookup, same, absent]
    · simp [Admission.write, Grouping.lookup, same]
  · intro key replaced
    rw [List.reverse_append, List.reverse_singleton, List.singleton_append, Grouping.lookup, ← kept.last key replaced]
    rfl

theorem Kept.agree {entries : List (κ × ν)} {held : κ → Option ν} (kept : Kept code rule entries held)
    {entry : κ × ν} {old : ν} (fixed : rule.replaces (code entry.1) = false) (present : held entry.1 = some old) :
    Kept code rule (entries ++ [entry]) held := by
  constructor
  · intro key free
    rw [lookup_append, kept.first key free]
    by_cases same : code entry.1 = code key
    · rw [← lookup_congr same, ← kept.first entry.1 fixed, present]
      rfl
    · simp [Grouping.lookup, same]
  · intro key replaced
    have different : ¬code entry.1 = code key := by
      intro same
      rw [same, replaced] at fixed
      cases fixed
    rw [List.reverse_append, List.reverse_singleton, List.singleton_append, Grouping.lookup, if_neg different,
      kept.last key replaced]

/-- One entry more is refused exactly when it does not agree with the first of its key. -/
theorem Kept.register {entries : List (κ × ν)} {held : κ → Option ν} (kept : Kept code rule entries held)
    (entry : κ × ν) :
    (∀ next, Admission.register code rule held entry = some next → Kept code rule (entries ++ [entry]) next) ∧
      ((∃ next, Admission.register code rule held entry = some next) ↔ (rule.replaces (code entry.1) = false →
        ∀ first, Grouping.lookup code entry.1 entries = some first → rule.agrees first entry.2 = true)) := by
  cases present : held entry.1 with
  | none =>
    rw [register_free present]
    refine ⟨?_, iff_of_true ⟨_, rfl⟩ ?_⟩
    · rintro next ⟨⟩
      exact kept.write (.inr present)
    · intro fixed first found
      rw [← kept.first entry.1 fixed, present] at found
      cases found
  | some old =>
    cases replaced : rule.replaces (code entry.1) with
    | true =>
      rw [register_replaced replaced]
      refine ⟨?_, iff_of_true ⟨_, rfl⟩ nofun⟩
      rintro next ⟨⟩
      exact kept.write (.inl replaced)
    | false =>
      have first : Grouping.lookup code entry.1 entries = some old := by rw [← kept.first entry.1 replaced, present]
      rw [register_fixed replaced present]
      by_cases agrees : rule.agrees old entry.2 = true
      · rw [if_pos agrees]
        refine ⟨?_, iff_of_true ⟨_, rfl⟩ ?_⟩
        · rintro next ⟨⟩
          exact kept.agree replaced present
        · rintro _ other found
          obtain rfl := Option.some.inj (first.symm.trans found)
          exact agrees
      · rw [if_neg agrees]
        refine ⟨nofun, iff_of_false nofun ?_⟩
        intro all
        exact agrees (all rfl old first)

theorem consistent_concat (entries : List (κ × ν)) (entry : κ × ν) :
    Consistent code rule (entries ++ [entry]) ↔ Consistent code rule entries ∧ (rule.replaces (code entry.1) = false →
      ∀ first, Grouping.lookup code entry.1 entries = some first → rule.agrees first entry.2 = true) := by
  constructor
  · intro consistent
    refine ⟨?_, fun fixed first found => consistent entries entry [] first rfl fixed found⟩
    rintro front other back first rfl fixed found
    exact consistent front other (back ++ [entry]) first (by simp) fixed found
  · rintro ⟨before, last⟩ front other back first split fixed found
    rcases List.eq_nil_or_concat back with rfl | ⟨later, final, rfl⟩
    · obtain ⟨rfl, same⟩ := List.append_inj' split rfl
      obtain rfl : entry = other := by simpa using same
      exact last fixed first found
    · rw [List.concat_eq_append, ← List.cons_append, ← List.append_assoc] at split
      obtain ⟨rfl, _⟩ := List.append_inj' split rfl
      exact before front other later first rfl fixed found

theorem registered (entries : List (κ × ν)) :
    (∀ held, entries.foldlM (register code rule) (fun _ => none) = some held → Kept code rule entries held) ∧
      ((∃ held, entries.foldlM (register code rule) (fun _ => none) = some held) ↔ Consistent code rule entries) := by
  induction entries using List.reverseRecOn with
  | nil =>
    refine ⟨?_, iff_of_true ⟨_, rfl⟩ ?_⟩
    · rintro held ⟨⟩
      exact .empty
    · intro front entry back first split
      simp at split
  | append_singleton entries entry ih =>
    obtain ⟨kept, consistent⟩ := ih
    rw [consistent_concat, ← consistent]
    simp only [List.foldlM_append, List.foldlM_cons, List.foldlM_nil, bind_pure, Option.bind_eq_bind,
      Option.bind_eq_some_iff]
    constructor
    · rintro held ⟨before, made, step⟩
      exact ((kept before made).register entry).1 held step
    · constructor
      · rintro ⟨held, before, made, step⟩
        exact ⟨⟨before, made⟩, ((kept before made).register entry).2.mp ⟨held, step⟩⟩
      · rintro ⟨⟨before, made⟩, agrees⟩
        obtain ⟨held, step⟩ := ((kept before made).register entry).2.mpr agrees
        exact ⟨held, before, made, step⟩

universe y z

section
variable {ι : Type y}

theorem foldlM_entry {σ : Type z} (entryOf : ι → Option (κ × ν)) (step : σ → κ × ν → Option σ) (items : List ι)
    (start : σ) :
    items.foldlM (fun state item => (entryOf item).bind (step state)) start =
      (items.mapM entryOf).bind (fun entries => entries.foldlM step start) := by
  induction items generalizing start with
  | nil => rfl
  | cons item rest ih =>
    rw [List.foldlM_cons, List.mapM_cons]
    cases entryOf item with
    | none => rfl
    | some entry =>
      simp only [Option.bind_eq_bind, Option.bind_some, ih]
      cases rest.mapM entryOf with
      | none => cases step start entry <;> rfl
      | some entries => rfl

variable (code : κ → γ) (rule : Rule γ ν) (entryOf : ι → Option (κ × ν))

def reloads (items : List ι) : Option (κ → Option ν) :=
  items.foldlM (fun held item => (entryOf item).map (write code held)) (fun _ => none)

def registers (items : List ι) : Option (κ → Option ν) :=
  items.foldlM (fun held item => (entryOf item).bind (register code rule held)) (fun _ => none)

/-- Both accept the journal or both refuse it, and then every key has one value. -/
def Agree (form : ν → δ) (reloaded live : Option (κ → Option ν)) : Prop :=
  (reloaded.isSome ↔ live.isSome) ∧
    ∀ after held, reloaded = some after → live = some held → ∀ key, (after key).map form = (held key).map form

variable {code rule entryOf}

theorem reloads_eq (items : List ι) :
    reloads code entryOf items = (items.mapM entryOf).map fun entries => entries.foldl (write code) (fun _ => none) := by
  have folded (entries : List (κ × ν)) (start : κ → Option ν) :
      entries.foldlM (fun held entry => some (write code held entry)) start = some (entries.foldl (write code) start) := by
    induction entries generalizing start with
    | nil => rfl
    | cons entry rest ih => exact ih _
  unfold reloads
  simp only [Option.map_eq_bind, foldlM_entry, Function.comp_def, folded]

/-- A reload agrees with registering when later entries of a key are refused by neither and changed by
neither. -/
theorem agree_iff (form : ν → δ) (items : List ι) :
    Agree form (reloads code entryOf items) (registers code rule entryOf items) ↔
      ∀ entries, items.mapM entryOf = some entries → Consistent code rule entries ∧ Unchanged code rule form entries := by
  unfold Agree registers
  rw [reloads_eq, foldlM_entry]
  cases admitted : items.mapM entryOf with
  | none => simp
  | some entries =>
    obtain ⟨kept, consistent⟩ := @registered κ γ ν _ code rule entries
    have last (key : κ) : entries.foldl (write code) (fun _ => none) key = Grouping.lookup code key entries.reverse := by
      rw [foldl_write, Option.or_none]
    simp only [Option.map_some, Option.bind_some, Option.isSome_some, true_iff, Option.isSome_iff_exists, consistent,
      Option.some.injEq]
    constructor
    · rintro ⟨consistently, alike⟩ _ rfl
      refine ⟨consistently, ?_⟩
      obtain ⟨held, made⟩ := consistent.mpr consistently
      intro key fixed
      rw [← last key, ← (kept held made).first key fixed]
      exact alike _ held rfl made key
    · intro all
      obtain ⟨consistently, unchanged⟩ := all entries rfl
      refine ⟨consistently, ?_⟩
      rintro _ held rfl made key
      rw [last key]
      cases replaced : rule.replaces (code key) with
      | false => rw [(kept held made).first key replaced, unchanged key replaced]
      | true => rw [(kept held made).last key replaced]

theorem simulated {ε : Type w} {σ : Type x} {τ : Type z} {f : σ → ι → Except ε σ} {g : τ → ι → Option τ} (view : σ → τ)
    (fits : σ → Prop) (step : ∀ state item, fits state → (f state item).toOption.map view = g (view state) item)
    (keeps : ∀ state item next, fits state → f state item = .ok next → fits next) (items : List ι) {state : σ}
    (fit : fits state) : (items.foldlM f state).toOption.map view = items.foldlM g (view state) := by
  induction items generalizing state with
  | nil => rfl
  | cons item rest ih =>
    rw [List.foldlM_cons, List.foldlM_cons, ← step state item fit]
    cases made : f state item with
    | error e => rfl
    | ok next => exact ih (keeps state item next fit made)

end

end Admission
