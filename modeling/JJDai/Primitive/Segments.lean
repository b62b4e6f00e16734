import JJDai.Primitive.Python

/-! Texts cut at a separator, and joined again. -/

namespace JJDai

open PyText

variable {separator : CodePoint}

theorem splitAt_absent {text : Str} (absent : separator ∉ text) : splitAt separator text = [text] := by
  induction text with
  | nil => rfl
  | cons head rest ih =>
    rw [List.mem_cons, not_or] at absent
    rw [splitAt_cons, if_neg (Ne.symm absent.1), ih absent.2]

theorem splitAt_ne_nil (text : Str) : splitAt separator text ≠ [] := by
  cases text with
  | nil => exact List.cons_ne_nil _ _
  | cons head rest =>
    rw [splitAt_cons]
    split
    · exact List.cons_ne_nil _ _
    · split
      · exact List.cons_ne_nil _ _
      · exact List.cons_ne_nil _ _

theorem splitAt_append (front back : Str) :
    splitAt separator (front ++ separator :: back) = splitAt separator front ++ splitAt separator back := by
  induction front with
  | nil => simp [splitAt_nil, splitAt_cons]
  | cons head rest ih =>
    rw [List.cons_append, splitAt_cons, splitAt_cons, ih]
    by_cases cut : head = separator
    · rw [if_pos cut, if_pos cut, List.cons_append]
    · rw [if_neg cut, if_neg cut]
      cases parts : splitAt separator rest with
      | nil => exact absurd parts (splitAt_ne_nil _)
      | cons first others => rfl

theorem not_mem_splitAt {text part : Str} (member : part ∈ splitAt separator text) : separator ∉ part := by
  induction text generalizing part with
  | nil =>
    obtain rfl := List.mem_singleton.mp member
    exact List.not_mem_nil
  | cons head rest ih =>
    rw [splitAt_cons] at member
    by_cases cut : head = separator
    · rw [if_pos cut] at member
      cases List.mem_cons.mp member with
      | inl empty =>
        rw [empty]
        exact List.not_mem_nil
      | inr later => exact ih later
    · rw [if_neg cut] at member
      cases parts : splitAt separator rest with
      | nil => exact absurd parts (splitAt_ne_nil _)
      | cons first others =>
        rw [parts] at member ih
        cases List.mem_cons.mp member with
        | inl here =>
          rw [here, List.mem_cons, not_or]
          exact ⟨Ne.symm cut, ih List.mem_cons_self⟩
        | inr later => exact ih (List.mem_cons_of_mem _ later)

theorem joinWith_cons_cons (text next : Str) (rest : List Str) :
    joinWith [separator] (text :: next :: rest) = text ++ separator :: joinWith [separator] (next :: rest) := by
  rw [joinWith, List.append_assoc, List.singleton_append]
  exact List.cons_ne_nil _ _

theorem splitAt_joinWith {texts : List Str} (some_left : texts ≠ []) (plain : ∀ text ∈ texts, separator ∉ text) :
    splitAt separator (joinWith [separator] texts) = texts := by
  induction texts with
  | nil => exact absurd rfl some_left
  | cons text rest ih =>
    have first := splitAt_absent (plain text List.mem_cons_self)
    cases rest with
    | nil => exact first
    | cons next rest =>
      have later := ih (List.cons_ne_nil _ _) (fun t member => plain t (List.mem_cons_of_mem _ member))
      rw [joinWith_cons_cons, splitAt_append, first, later]
      rfl

theorem joinWith_splitAt (text : Str) : joinWith [separator] (splitAt separator text) = text := by
  induction text with
  | nil => rfl
  | cons head rest ih =>
    rw [splitAt_cons]
    cases parts : splitAt separator rest with
    | nil => exact absurd parts (splitAt_ne_nil _)
    | cons first others =>
      rw [parts] at ih
      by_cases cut : head = separator
      · rw [if_pos cut, joinWith_cons_cons, ih, cut]
        rfl
      · rw [if_neg cut, ← ih]
        cases others with
        | nil => rfl
        | cons next others => rw [joinWith_cons_cons, joinWith_cons_cons, List.cons_append]

end JJDai
