import JJDai.Primitive.CanonicalText

/-! Canonical texts are self-delimiting: where two of them begin one string, they
are the same text. -/

namespace JJDai.Canonical

open PyText

/-- What follows the first of several joined texts. -/
def joinRest (separator : Str) : List Str → Str
  | [] => []
  | rest => separator ++ joinWith separator rest

theorem joinWith_cons (separator text : Str) (rest : List Str) :
    joinWith separator (text :: rest) = text ++ joinRest separator rest := by
  cases rest with
  | nil => simp [joinWith, joinRest]
  | cons next rest => simp [joinWith, joinRest]

/-- A text can only be cut off the front of a string where it ends. -/
def Cuts (s t : Str) : Prop := ∀ x y, Stops x → Stops y → s ++ x = t ++ y → s = t ∧ x = y

theorem joinRest_stops {close : CodePoint} (closing : isNumberChar close = false) (rest : List Str) (x : Str) :
    Stops (joinRest [ch ','] rest ++ close :: x) := by
  cases rest with
  | nil => exact Stops.cons closing x
  | cons next rest => exact Stops.cons (by decide) _

theorem join_cut {close : CodePoint} (closing : isNumberChar close = false) (comma : close ≠ ch ',')
    {texts others : List Str} (cut : ∀ s ∈ texts, ∀ t ∈ others, Cuts s t)
    (opens : ∀ s ∈ texts, ∃ c rest, s = c :: rest ∧ c ≠ close)
    (opens' : ∀ t ∈ others, ∃ c rest, t = c :: rest ∧ c ≠ close) {x y : Str}
    (same : joinWith [ch ','] texts ++ close :: x = joinWith [ch ','] others ++ close :: y) :
    texts = others ∧ x = y := by
  induction texts generalizing others with
  | nil =>
    cases others with
    | nil => exact ⟨rfl, (List.cons.inj same).2⟩
    | cons t others =>
      obtain ⟨c, rest, shape, different⟩ := opens' t List.mem_cons_self
      rw [joinWith_cons, shape] at same
      exact absurd (List.cons.inj same).1.symm different
  | cons s texts ih =>
    cases others with
    | nil =>
      obtain ⟨c, rest, shape, different⟩ := opens s List.mem_cons_self
      rw [joinWith_cons, shape] at same
      exact absurd (List.cons.inj same).1 different
    | cons t others =>
      rw [joinWith_cons, joinWith_cons, List.append_assoc, List.append_assoc] at same
      obtain ⟨rfl, later⟩ := cut s List.mem_cons_self t List.mem_cons_self _ _
        (joinRest_stops closing texts x) (joinRest_stops closing others y) same
      cases texts with
      | nil =>
        cases others with
        | nil => exact ⟨rfl, (List.cons.inj later).2⟩
        | cons next others => exact absurd (List.cons.inj later).1 comma
      | cons next texts =>
        cases others with
        | nil => exact absurd (List.cons.inj later).1.symm comma
        | cons other others =>
          obtain ⟨rest, tail⟩ := ih (fun a inside b member => cut a (List.mem_cons_of_mem _ inside) b
              (List.mem_cons_of_mem _ member))
            (fun a inside => opens a (List.mem_cons_of_mem _ inside))
            (fun b inside => opens' b (List.mem_cons_of_mem _ inside)) (List.cons.inj later).2
          exact ⟨by rw [rest], tail⟩

theorem number_cut {s t : Str} (first : ∀ c ∈ s, isNumberChar c) (second : ∀ c ∈ t, isNumberChar c) :
    Cuts s t := by
  intro x y stopX stopY same
  have head {rest : Str} (stops : Stops rest) : rest.takeWhile isNumberChar = [] := by
    cases rest with
    | nil => rfl
    | cons c rest => simp [stops c rfl]
  have front := congrArg (List.takeWhile isNumberChar) same
  rw [List.takeWhile_append_of_pos first, List.takeWhile_append_of_pos second, head stopX, head stopY,
    List.append_nil, List.append_nil] at front
  subst front
  exact ⟨rfl, List.append_cancel_left same⟩

theorem string_cut {u v x y : Str} (same : escapeString u ++ x = escapeString v ++ y) : u = v ∧ x = y := by
  have read (w rest : Str) : scanString ((escapeString w ++ rest).drop 1) = some (w, rest) := by
    rw [← scanString_quoted w rest]
    simp [escapeString, quoted]
  have both := read u x
  rw [same, read v y] at both
  obtain ⟨texts, rests⟩ := Prod.mk.inj (Option.some.inj both)
  exact ⟨texts.symm, rests.symm⟩

/-- An entry of a dict: its key, a colon and the text of its value. -/
def entryText (key text : Str) : Str := escapeString key ++ ch ':' :: text

theorem entry_cut {key other s t : Str} (cut : Cuts s t) : Cuts (entryText key s) (entryText other t) := by
  intro x y stopX stopY same
  simp only [entryText, List.append_assoc, List.cons_append] at same
  obtain ⟨rfl, later⟩ := string_cut same
  obtain ⟨rfl, rest⟩ := cut x y stopX stopY (List.cons.inj later).2
  exact ⟨rfl, rest⟩

theorem entryText_inj {key other s t : Str} (same : entryText key s = entryText other t) : key = other ∧ s = t := by
  obtain ⟨keys, rest⟩ := string_cut same
  exact ⟨keys, (List.cons.inj rest).2⟩

/-- The kind of a value, as the first character of its text tells it. -/
inductive Shape where
  | null | yes | no | number | string | list | dict
  deriving DecidableEq

def shapeOf : Json → Shape
  | .null => .null
  | .bool true => .yes
  | .bool false => .no
  | .int _ => .number
  | .float _ => .number
  | .str _ => .string
  | .arr _ => .list
  | .obj _ => .dict

def shapeAt (c : CodePoint) : Option Shape :=
  if isNumberChar c then some .number
  else if c = ch 'n' then some .null
  else if c = ch 't' then some .yes
  else if c = ch 'f' then some .no
  else if c = ch '"' then some .string
  else if c = ch '[' then some .list
  else if c = ch '{' then some .dict
  else none

theorem number_text {x : PyFloat} {text : Str} (made : es6Number x = .ok text) :
    text ≠ [] ∧ ∀ c ∈ text, isNumberChar c := by
  have decimal (d : Decimal) : decimalText d ≠ [] := by
    unfold decimalText
    simp only
    split
    · exact decimal_text_ne_nil d
    · unfold signed
      split <;> simp
  cases x with
  | nan => cases made
  | infinity negative => cases made
  | finite d =>
    unfold es6Number at made
    simp only at made
    split at made
    · obtain rfl := Except.ok.inj made
      exact ⟨by decide, List.all_eq_true.mp (show (Str.ofString "0").all isNumberChar = true by decide)⟩
    · split at made
      · split at made
        · obtain rfl := Except.ok.inj made
          exact ⟨natText_text_ne_nil _, isNumberChar_intText _⟩
        · obtain rfl := Except.ok.inj made
          exact ⟨decimal d, isNumberChar_decimalText d⟩
      · obtain rfl := Except.ok.inj made
        exact ⟨decimal d, isNumberChar_decimalText d⟩

theorem serialize_head {j : Json} {text : Str} (made : serialize j = .ok text) :
    ∃ c rest, text = c :: rest ∧ shapeAt c = some (shapeOf j) := by
  have number {text : Str} (present : text ≠ []) (inside : ∀ c ∈ text, isNumberChar c) :
      ∃ c rest, text = c :: rest ∧ shapeAt c = some .number := by
    cases text with
    | nil => exact absurd rfl present
    | cons c rest => exact ⟨c, rest, rfl, by simp [shapeAt, inside c List.mem_cons_self]⟩
  cases j with
  | null =>
    obtain rfl := Except.ok.inj made
    exact ⟨_, _, rfl, by decide⟩
  | bool value =>
    cases value with
    | true =>
      obtain rfl := Except.ok.inj made
      exact ⟨_, _, rfl, by decide⟩
    | false =>
      obtain rfl := Except.ok.inj made
      exact ⟨_, _, rfl, by decide⟩
  | int n =>
    obtain rfl := Except.ok.inj made
    exact number (natText_text_ne_nil n) (isNumberChar_intText n)
  | float x => exact number (number_text made).1 (number_text made).2
  | str s =>
    obtain rfl := Except.ok.inj made
    exact ⟨_, _, rfl, by simp only [shapeOf]; decide⟩
  | arr items =>
    obtain ⟨texts, _, rfl⟩ := serialize_arr_ok.mp made
    exact ⟨_, _, rfl, by simp only [shapeOf]; decide⟩
  | obj fields =>
    obtain ⟨_, texts, _, rfl⟩ := serialize_obj_ok.mp made
    exact ⟨_, _, rfl, by simp only [shapeOf]; decide⟩

theorem same_shape {a b : Json} {s t x y : Str} (first : serialize a = .ok s) (second : serialize b = .ok t)
    (same : s ++ x = t ++ y) : shapeOf a = shapeOf b := by
  obtain ⟨c, rest, rfl, shape⟩ := serialize_head first
  obtain ⟨d, rest', rfl, shape'⟩ := serialize_head second
  obtain rfl : c = d := (List.cons.inj same).1
  exact Option.some.inj (shape.symm.trans shape')

theorem serialize_opens {j : Json} {text : Str} (made : serialize j = .ok text) {close : CodePoint}
    (closing : shapeAt close = none) : ∃ c rest, text = c :: rest ∧ c ≠ close := by
  obtain ⟨c, rest, shape, kind⟩ := serialize_head made
  refine ⟨c, rest, shape, fun same => ?_⟩
  rw [same, closing] at kind
  cases kind

theorem text_of_mem {items : List (Py Str)} {texts : List Str} (all : items.mapM id = .ok texts) {text : Str}
    (member : text ∈ texts) : .ok text ∈ items := by
  have pairs := Py.mapM_ok.mp all
  clear all
  induction pairs with
  | nil => cases member
  | cons made _ ih =>
    cases member with
    | head => exact made ▸ List.mem_cons_self
    | tail _ later => exact List.mem_cons_of_mem _ (ih later)

/-- The entries of a dict in the order of its text. -/
def sortedTexts (fields : Dict Str Json) : List (Str × Py Str) :=
  ((fields.map (fun entry => (keyUnits entry.1, entry.1, serialize entry.2))).insertionSort
    (fun a b => a.1 ≤ b.1)).map Prod.snd

theorem serialize_fields_ok {fields : Dict Str Json} {text : Str} (made : serialize (.obj fields) = .ok text) :
    ∃ entries : List (Str × Str), sortedTexts fields = entries.map (fun entry => (entry.1, .ok entry.2)) ∧
      text = ch '{' :: (joinWith [ch ','] (entries.map (fun entry => entryText entry.1 entry.2)) ++ [ch '}']) := by
  obtain ⟨_, texts, all, rfl⟩ := serialize_obj_ok.mp made
  have pairs := Py.mapM_ok.mp all
  unfold sortedTexts
  generalize (fields.map (fun entry => (keyUnits entry.1, entry.1, serialize entry.2))).insertionSort
    (fun a b => a.1 ≤ b.1) = sorted at pairs ⊢
  have split : ∃ entries : List (Str × Str),
      sorted.map Prod.snd = entries.map (fun entry => (entry.1, (.ok entry.2 : Py Str))) ∧
        texts = entries.map (fun entry => entryText entry.1 entry.2) := by
    clear all made
    induction pairs with
    | nil => exact ⟨[], rfl, rfl⟩
    | @cons item _ _ _ first _ ih =>
      obtain ⟨entries, names, rfl⟩ := ih
      simp only [bind, Py.bind_ok] at first
      obtain ⟨text, written, shape⟩ := first
      obtain rfl := Except.ok.inj shape
      refine ⟨(item.2.1, text) :: entries, ?_, rfl⟩
      rw [List.map_cons, List.map_cons, names, ← written]
  obtain ⟨entries, names, rfl⟩ := split
  exact ⟨entries, names, rfl⟩

theorem mem_sortedTexts {fields : Dict Str Json} {key : Str} {text : Py Str} :
    (key, text) ∈ sortedTexts fields ↔ ∃ value, (key, value) ∈ fields ∧ serialize value = text := by
  simp only [sortedTexts, List.mem_map, List.mem_insertionSort]
  constructor
  · rintro ⟨_, ⟨⟨k, value⟩, member, rfl⟩, same⟩
    obtain ⟨rfl, rfl⟩ := Prod.mk.inj same
    exact ⟨value, member, rfl⟩
  · rintro ⟨value, member, rfl⟩
    exact ⟨_, ⟨(key, value), member, rfl⟩, rfl⟩

theorem entries_cut {fields others : Dict Str Json} {entries entries' : List (Str × Str)}
    (sorted : sortedTexts fields = entries.map (fun entry => (entry.1, .ok entry.2)))
    (sorted' : sortedTexts others = entries'.map (fun entry => (entry.1, .ok entry.2)))
    (cut : ∀ entry ∈ fields, ∀ b s t, serialize entry.2 = .ok s → serialize b = .ok t → Cuts s t) {x y : Str}
    (same : joinWith [ch ','] (entries.map (fun entry => entryText entry.1 entry.2)) ++ ch '}' :: x =
      joinWith [ch ','] (entries'.map (fun entry => entryText entry.1 entry.2)) ++ ch '}' :: y) :
    entries = entries' ∧ x = y := by
  have opens {entries : List (Str × Str)} (s : Str)
      (member : s ∈ entries.map (fun entry => entryText entry.1 entry.2)) : ∃ c rest, s = c :: rest ∧ c ≠ ch '}' := by
    obtain ⟨entry, _, rfl⟩ := List.mem_map.mp member
    exact ⟨_, _, rfl, by decide⟩
  have cuts (s : Str) (member : s ∈ entries.map (fun entry => entryText entry.1 entry.2)) (t : Str)
      (member' : t ∈ entries'.map (fun entry => entryText entry.1 entry.2)) : Cuts s t := by
    obtain ⟨⟨key, text⟩, present, rfl⟩ := List.mem_map.mp member
    obtain ⟨⟨other, text'⟩, present', rfl⟩ := List.mem_map.mp member'
    have made : (key, Except.ok text) ∈ sortedTexts fields := by
      rw [sorted]
      exact List.mem_map.mpr ⟨_, present, rfl⟩
    have made' : (other, Except.ok text') ∈ sortedTexts others := by
      rw [sorted']
      exact List.mem_map.mpr ⟨_, present', rfl⟩
    obtain ⟨value, inside, written⟩ := mem_sortedTexts.mp made
    obtain ⟨value', _, written'⟩ := mem_sortedTexts.mp made'
    exact entry_cut (cut (key, value) inside value' text text' written written')
  obtain ⟨texts, rest⟩ := join_cut (by decide) (by decide) cuts opens opens same
  refine ⟨?_, rest⟩
  refine List.map_injective_iff.mpr (fun entry other same => ?_) texts
  obtain ⟨keys, values⟩ := entryText_inj same
  exact Prod.ext keys values

theorem serialize_cut {a b : Json} {s t : Str} (first : serialize a = .ok s) (second : serialize b = .ok t) :
    Cuts s t := by
  induction a generalizing b s t with
  | null =>
    intro x y _ _ same
    have shapes := same_shape first second same
    obtain rfl := Except.ok.inj first
    cases b with
    | null =>
      obtain rfl := Except.ok.inj second
      exact ⟨rfl, List.append_cancel_left same⟩
    | bool value => cases value <;> cases shapes
    | _ => cases shapes
  | bool value =>
    intro x y _ _ same
    have shapes := same_shape first second same
    cases b with
    | bool other =>
      obtain rfl : value = other := by cases value <;> cases other <;> first | rfl | cases shapes
      obtain rfl := Except.ok.inj (first.symm.trans second)
      exact ⟨rfl, List.append_cancel_left same⟩
    | _ => cases value <;> cases shapes
  | int n =>
    intro x y stopX stopY same
    have shapes := same_shape first second same
    obtain rfl := Except.ok.inj first
    cases b with
    | int m =>
      obtain rfl := Except.ok.inj second
      exact number_cut (isNumberChar_intText n) (isNumberChar_intText m) x y stopX stopY same
    | float f => exact number_cut (isNumberChar_intText n) (number_text second).2 x y stopX stopY same
    | bool value => cases value <;> cases shapes
    | _ => cases shapes
  | float f =>
    intro x y stopX stopY same
    have shapes := same_shape first second same
    cases b with
    | int m =>
      obtain rfl := Except.ok.inj second
      exact number_cut (number_text first).2 (isNumberChar_intText m) x y stopX stopY same
    | float g => exact number_cut (number_text first).2 (number_text second).2 x y stopX stopY same
    | bool value => cases value <;> cases shapes
    | _ => cases shapes
  | str u =>
    intro x y _ _ same
    have shapes := same_shape first second same
    obtain rfl := Except.ok.inj first
    cases b with
    | str v =>
      obtain rfl := Except.ok.inj second
      obtain ⟨rfl, rest⟩ := string_cut same
      exact ⟨rfl, rest⟩
    | bool value => cases value <;> cases shapes
    | _ => cases shapes
  | arr items ih =>
    intro x y _ _ same
    have shapes := same_shape first second same
    cases b with
    | arr others =>
      obtain ⟨texts, all, rfl⟩ := serialize_arr_ok.mp first
      obtain ⟨texts', all', rfl⟩ := serialize_arr_ok.mp second
      have inside (text : Str) (member : text ∈ texts) : ∃ item ∈ items, serialize item = .ok text := by
        simpa using text_of_mem all member
      have inside' (text : Str) (member : text ∈ texts') : ∃ item ∈ others, serialize item = .ok text := by
        simpa using text_of_mem all' member
      simp only [List.cons_append, List.append_assoc] at same
      obtain ⟨rfl, rest⟩ := join_cut (by decide) (by decide)
        (fun s member t member' => by
          obtain ⟨item, present, made⟩ := inside s member
          obtain ⟨other, _, made'⟩ := inside' t member'
          exact ih item present made made')
        (fun s member => by
          obtain ⟨item, _, made⟩ := inside s member
          exact serialize_opens made (by decide))
        (fun t member => by
          obtain ⟨item, _, made⟩ := inside' t member
          exact serialize_opens made (by decide)) (List.cons.inj same).2
      exact ⟨rfl, rest⟩
    | bool value => cases value <;> cases shapes
    | _ => cases shapes
  | obj fields ih =>
    intro x y _ _ same
    have shapes := same_shape first second same
    cases b with
    | obj others =>
      obtain ⟨entries, sorted, rfl⟩ := serialize_fields_ok first
      obtain ⟨entries', sorted', rfl⟩ := serialize_fields_ok second
      simp only [List.cons_append, List.append_assoc] at same
      obtain ⟨rfl, rest⟩ := entries_cut sorted sorted'
        (fun entry inside b s t written written' => ih entry inside written written') (List.cons.inj same).2
      exact ⟨rfl, rest⟩
    | bool value => cases value <;> cases shapes
    | _ => cases shapes

theorem fields_unique {fields others : Dict Str Json} {text : Str} (unique : (Dict.keys fields).Nodup)
    (unique' : (Dict.keys others).Nodup) (first : serialize (.obj fields) = .ok text)
    (second : serialize (.obj others) = .ok text) (key : Str) :
    (Dict.get? fields key).map serialize = (Dict.get? others key).map serialize := by
  obtain ⟨entries, sorted, rfl⟩ := serialize_fields_ok first
  obtain ⟨entries', sorted', shape⟩ := serialize_fields_ok second
  obtain ⟨rfl, -⟩ := entries_cut sorted sorted' (fun _ _ _ _ _ written written' => serialize_cut written written')
    (List.cons.inj shape).2
  have texts {fields : Dict Str Json} : (sortedTexts fields).Perm (fields.map (fun entry => (entry.1, serialize entry.2))) := by
    have order := (List.perm_insertionSort (fun a b => a.1 ≤ b.1)
      (fields.map (fun entry => (keyUnits entry.1, entry.1, serialize entry.2)))).map Prod.snd
    rwa [List.map_map] at order
  have read {fields : Dict Str Json} (unique : (Dict.keys fields).Nodup) :
      Dict.get? (sortedTexts fields) key = (Dict.get? fields key).map serialize := by
    rw [← Dict.get?_map, ← Dict.get?_perm texts.symm]
    rwa [Dict.keys, List.map_map]
  rw [← read unique, ← read unique', sorted, sorted']

theorem str_of_serialize {a : Json} {s : Str} (same : serialize a = serialize (.str s)) : a = .str s := by
  have first : serialize a = .ok (escapeString s) := same
  have shapes := @same_shape a (.str s) _ _ [] [] first rfl rfl
  cases a with
  | str u =>
    obtain ⟨rfl, -⟩ := @string_cut u s [] [] (by rw [Except.ok.inj first])
    rfl
  | bool value => cases value <;> cases shapes
  | _ => cases shapes

theorem obj_of_serialize {a : Json} {fields : Dict Str Json} {text : Str} (first : serialize a = .ok text)
    (second : serialize (.obj fields) = .ok text) : ∃ others, a = .obj others := by
  have shapes := @same_shape a (.obj fields) _ _ [] [] first second rfl
  cases a with
  | obj others => exact ⟨others, rfl⟩
  | bool value => cases value <;> cases shapes
  | _ => cases shapes

theorem serialize_of_canonical {a b : Json} {bytes : Bytes} (first : canonical a = .ok bytes)
    (second : canonical b = .ok bytes) : ∃ text, serialize a = .ok text ∧ serialize b = .ok text := by
  have read {j : Json} (made : canonical j = .ok bytes) :
      ∃ text, serialize j = .ok text ∧ decodeUtf8 bytes = some text := by
    simp only [canonical, bind, Py.bind_ok] at made
    obtain ⟨text, written, encoded⟩ := made
    refine ⟨text, written, decodeUtf8_encodeUtf8 ?_⟩
    unfold encode at encoded
    cases utf8 : encodeUtf8 text with
    | none => simp [utf8, raise] at encoded
    | some found =>
      rw [utf8] at encoded
      rw [Except.ok.inj encoded]
  obtain ⟨text, written, decoded⟩ := read first
  obtain ⟨text', written', decoded'⟩ := read second
  obtain rfl := Option.some.inj (decoded.symm.trans decoded')
  exact ⟨text, written, written'⟩

end JJDai.Canonical
