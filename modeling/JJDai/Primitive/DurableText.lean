import JJDai.Primitive.CanonicalText
import JJDai.Primitive.Durable
import JJDai.Primitive.PlaneBound

/-! Which events a journal takes: those without a lone surrogate. -/

namespace JJDai

open PyText

theorem mem_texts_arr {items : List Json} {text : Str} :
    text ∈ texts (.arr items) ↔ ∃ item ∈ items, text ∈ texts item := by
  rw [texts]
  induction items with
  | nil => simp [textsItems]
  | cons item rest ih => simp [textsItems, ih]

theorem mem_texts_obj {fields : Dict Str Json} {text : Str} :
    text ∈ texts (.obj fields) ↔ ∃ entry ∈ fields, text = entry.1 ∨ text ∈ texts entry.2 := by
  rw [texts]
  induction fields with
  | nil => simp [textsFields]
  | cons entry rest ih =>
    simp only [textsFields, List.mem_cons, List.mem_append, ih, exists_eq_or_imp, or_assoc]

theorem mem_texts_sortKeys {j : Json} {text : Str} : text ∈ texts j.sortKeys ↔ text ∈ texts j := by
  induction j with
  | arr items ih =>
    rw [Json.sortKeys_arr, mem_texts_arr, mem_texts_arr]
    constructor
    · rintro ⟨_, member, inside⟩
      obtain ⟨item, present, rfl⟩ := List.mem_map.mp member
      exact ⟨item, present, (ih item present).mp inside⟩
    · rintro ⟨item, member, inside⟩
      exact ⟨_, List.mem_map_of_mem member, (ih item member).mpr inside⟩
  | obj fields ih =>
    rw [Json.sortKeys_obj, mem_texts_obj, mem_texts_obj]
    constructor
    · rintro ⟨_, member, inside⟩
      obtain ⟨entry, present, rfl⟩ := List.mem_map.mp (Json.mem_sortEntries.mp member)
      exact ⟨entry, present, inside.imp_right (ih entry present).mp⟩
    · rintro ⟨entry, member, inside⟩
      exact ⟨_, Json.mem_sortEntries.mpr (List.mem_map_of_mem member), inside.imp_right (ih entry member).mpr⟩
  | _ => exact Iff.rfl

theorem encodable_quoted (s : Str) : encodable (quoted s) = encodable s := encodable_escapeString s

theorem encodable_render (j : Json) : encodable j.render ↔ ∀ text ∈ texts j, encodable text := by
  induction j with
  | null => exact iff_of_true (by decide) (fun _ member => absurd member List.not_mem_nil)
  | bool value => exact iff_of_true (by cases value <;> decide) (fun _ member => absurd member List.not_mem_nil)
  | int n => exact iff_of_true (encodable_intText n) (fun _ member => absurd member List.not_mem_nil)
  | float x =>
    refine iff_of_true ?_ (fun _ member => absurd member List.not_mem_nil)
    cases x with
    | finite d => exact encodable_number (isNumberChar_decimal d)
    | infinity negative => cases negative <;> decide
    | nan => decide
  | str s => simp [texts, Json.render, encodable_quoted]
  | arr items ih =>
    rw [Json.render_arr, encodable_enclosed (by decide) (by decide), encodable_joinWith (by decide)]
    simp only [mem_texts_arr]
    constructor
    · rintro each text ⟨item, member, inside⟩
      exact (ih item member).mp (each _ (List.mem_map_of_mem member)) text inside
    · intro plain text member
      obtain ⟨item, present, rfl⟩ := List.mem_map.mp member
      exact (ih item present).mpr (fun text inside => plain text ⟨item, present, inside⟩)
  | obj fields ih =>
    have entry (key : Str) (value : Json) : encodable (Json.renderEntry (key, value)) ↔
        encodable key ∧ encodable value.render := by
      have colon : encodable [ch ':', ch ' '] := by decide
      have shape : Json.renderEntry (key, value) = quoted key ++ [ch ':', ch ' '] ++ value.render := by
        simp [Json.renderEntry]
      rw [shape, encodable_append, encodable_append, encodable_quoted]
      simp [colon]
    rw [Json.render_obj, encodable_enclosed (by decide) (by decide), encodable_joinWith (by decide)]
    simp only [mem_texts_obj]
    constructor
    · rintro each text ⟨⟨key, value⟩, member, inside⟩
      have plain := (entry key value).mp (each _ (List.mem_map_of_mem member))
      rcases inside with rfl | inside
      · exact plain.1
      · exact (ih _ member).mp plain.2 text inside
    · intro plain text member
      obtain ⟨⟨key, value⟩, present, rfl⟩ := List.mem_map.mp member
      exact (entry key value).mpr ⟨plain key ⟨_, present, Or.inl rfl⟩,
        (ih _ present).mpr (fun text inside => plain text ⟨_, present, Or.inr inside⟩)⟩

theorem encodable_of_writable {j : Json} (sound : writable j) : ∀ text ∈ texts j, encodable text := by
  induction j with
  | str s =>
    intro text member
    obtain rfl := List.mem_singleton.mp member
    exact sound
  | arr items ih =>
    intro text member
    obtain ⟨item, present, inside⟩ := mem_texts_arr.mp member
    exact ih item present (writable_arr.mp sound item present) text inside
  | obj fields ih =>
    intro text member
    obtain ⟨entry, present, inside⟩ := mem_texts_obj.mp member
    have plain := writable_obj.mp sound entry present
    rcases inside with rfl | inside
    · exact plain.1
    · exact ih entry present plain.2 text inside
  | _ => exact fun _ member => absurd member List.not_mem_nil

theorem durableAppend_isOk (file : Bytes) (event : Json) :
    (Durable.durableAppend file event).isOk ↔ ∀ text ∈ texts event, encodable text := by
  have line : encodable (Durable.journalLine event) ↔ ∀ text ∈ texts event, encodable text := by
    have newline : encodable [Durable.newline] := by decide
    rw [Durable.journalLine, encodable_append, Json.dumps, encodable_render]
    simp only [mem_texts_sortKeys, newline, and_true]
  rw [← line, ← encode_isOk, Durable.durableAppend]
  cases encode (Durable.journalLine event) <;> rfl

end JJDai
