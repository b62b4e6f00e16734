import JJDai.Lib.JsonNumber

/-! `loads` reads back what `dumps` writes, and nothing less than all of it. -/

namespace PyText

/-- A character as the scanner sees it after `escapeChar`. -/
def unitOf (c : CodePoint) : Bool × CodePoint :=
  ((shortEscape c).isNone && decide (c.val < 0x20), c)

theorem scanUnits_plain {c : CodePoint} (printed : shortEscape c = none)
    (high : ¬c.val < 0x20) (rest : Str) :
    scanUnits (c :: rest) = (scanUnits rest).map (Prod.map ((false, c) :: ·) id) := by
  have no_quote : c ≠ ch '"' := by rintro rfl; revert printed; decide
  have no_slash : c ≠ ch '\\' := by rintro rfl; revert printed; decide
  rw [scanUnits.eq_def]
  simp only [no_quote, no_slash, high, if_false]

theorem scanUnits_short {c letter : CodePoint} (short : shortEscape c = some letter)
    (rest : Str) : scanUnits (ch '\\' :: letter :: rest) =
      (scanUnits rest).map (Prod.map ((false, c) :: ·) id) := by
  have slash : ch '\\' ≠ ch '"' := by decide
  have table : shortEscapes.all (fun entry => decide (entry.2 ≠ ch 'u') &&
      decide (longEscape entry.2 = some entry.1)) := by decide
  have row := List.all_eq_true.mp table _ (Dict.mem_of_get? short)
  simp only [Bool.and_eq_true, decide_eq_true_iff] at row
  obtain ⟨other, read⟩ := row
  rw [scanUnits.eq_def]
  simp only [slash, other, if_false, if_true, read]

/-- The four hexadecimal digits of a Unicode escape. -/
def hexDigits (n : Nat) : Str :=
  [hexDigit (n / 4096), hexDigit (n / 256 % 16), hexDigit (n / 16 % 16), hexDigit (n % 16)]

theorem scanUnits_hex {c : CodePoint} (small : c.val < 0x10000) (rest : Str) :
    scanUnits (ch '\\' :: ch 'u' :: (hexDigits c.val ++ rest)) =
      (scanUnits rest).map (Prod.map ((true, c) :: ·) id) := by
  have slash : ch '\\' ≠ ch '"' := by decide
  have unit : codePoint (4096 * (c.val / 4096) + 256 * (c.val / 256 % 16) + 16 * (c.val / 16 % 16) + c.val % 16) =
      c := by
    apply Fin.ext
    simp only [codePoint, Fin.ofNat]
    omega
  have read : hex4 (hexDigit (c.val / 4096)) (hexDigit (c.val / 256 % 16)) (hexDigit (c.val / 16 % 16))
      (hexDigit (c.val % 16)) = some c := by
    rw [hex4, hexValue_hexDigit (by omega), hexValue_hexDigit (by omega), hexValue_hexDigit (by omega),
      hexValue_hexDigit (by omega)]
    simp only [unit]
  rw [scanUnits.eq_def]
  simp only [slash, if_false, if_true, hexDigits, List.cons_append, List.nil_append, read]

theorem scanUnits_control {c : CodePoint} (low : c.val < 0x20) (rest : Str) :
    scanUnits (ch '\\' :: ch 'u' :: ch '0' :: ch '0' :: hexDigit (c.val / 16) ::
      hexDigit (c.val % 16) :: rest) = (scanUnits rest).map (Prod.map ((true, c) :: ·) id) := by
  have digits : hexDigits c.val = [ch '0', ch '0', hexDigit (c.val / 16), hexDigit (c.val % 16)] := by
    have zero : hexDigit 0 = ch '0' := by decide
    rw [hexDigits, show c.val / 4096 = 0 by omega, show c.val / 256 % 16 = 0 by omega, zero,
      show c.val / 16 % 16 = c.val / 16 by omega]
  have read := scanUnits_hex (show c.val < 0x10000 by omega) rest
  rwa [digits] at read

private theorem scanUnits_escapeChar (c : CodePoint) (rest : Str) :
    scanUnits (escapeChar c ++ rest) = (scanUnits rest).map (Prod.map (unitOf c :: ·) id) := by
  unfold escapeChar
  cases short : shortEscape c with
  | some letter => simpa [unitOf, short] using scanUnits_short short rest
  | none =>
    by_cases low : c.val < 0x20
    · simpa [unitOf, short, low] using scanUnits_control low rest
    · simpa [unitOf, short, low] using scanUnits_plain short low rest

private theorem scanUnits_quoted (s rest : Str) :
    scanUnits (s.flatMap escapeChar ++ ch '"' :: rest) = some (s.map unitOf, rest) := by
  induction s with
  | nil => rw [scanUnits.eq_def]; simp
  | cons c s ih =>
    rw [List.flatMap_cons, List.append_assoc, scanUnits_escapeChar, ih]
    rfl

private theorem joinSurrogates_cons {unit : Bool × CodePoint}
    (low : unit.1 = true → unit.2.val < 0xD800) (rest : List (Bool × CodePoint)) :
    joinSurrogates (unit :: rest) = unit.2 :: joinSurrogates rest := by
  match unit, rest with
  | (false, c), rest => rw [joinSurrogates]; simp
  | (true, c), [] => rw [joinSurrogates]; simp
  | (true, c), (false, d) :: rest => rw [joinSurrogates]; simp
  | (true, c), (true, d) :: rest =>
    have bound : c.val < 0xD800 := low rfl
    rw [joinSurrogates, if_neg (by omega)]

private theorem joinSurrogates_units (s : Str) : joinSurrogates (s.map unitOf) = s := by
  induction s with
  | nil => rfl
  | cons c s ih =>
    rw [List.map_cons, joinSurrogates_cons, ih]
    · rfl
    · intro control
      have low : c.val < 0x20 := by simpa using (Bool.and_eq_true_iff.mp control).2
      exact lt_trans low (by decide)

theorem scanString_quoted (s rest : Str) :
    scanString (s.flatMap escapeChar ++ ch '"' :: rest) = some (s, rest) := by
  rw [scanString, scanUnits_quoted]
  simp [joinSurrogates_units]

namespace Json

mutual

/-- The text of a value with some pad after every comma and colon. -/
def spell (pad : Str) : Json → Str
  | .null => "null"
  | .bool true => "true"
  | .bool false => "false"
  | .int n => intText n
  | .float x => x.text
  | .str s => quoted s
  | .arr items => ch '[' :: (joinWith (ch ',' :: pad) (spellItems pad items) ++ [ch ']'])
  | .obj fields => ch '{' :: (joinWith (ch ',' :: pad) (spellFields pad fields) ++ [ch '}'])

private def spellItems (pad : Str) : List Json → List Str
  | [] => []
  | item :: rest => spell pad item :: spellItems pad rest

private def spellFields (pad : Str) : Dict Str Json → List Str
  | [] => []
  | (key, value) :: rest => (quoted key ++ ch ':' :: (pad ++ spell pad value)) :: spellFields pad rest

end

@[simp] theorem spell_arr (pad : Str) (items : List Json) :
    spell pad (.arr items) = ch '[' :: (joinWith (ch ',' :: pad) (items.map (spell pad)) ++ [ch ']']) := by
  have inner : spellItems pad items = items.map (spell pad) := by
    induction items with
    | nil => rfl
    | cons head tail ih => simp [spellItems, ih]
  rw [spell, inner]

def spellEntry (pad : Str) (entry : Str × Json) : Str := quoted entry.1 ++ ch ':' :: (pad ++ spell pad entry.2)

@[simp] theorem spell_obj (pad : Str) (fields : Dict Str Json) :
    spell pad (.obj fields) = ch '{' :: (joinWith (ch ',' :: pad) (fields.map (spellEntry pad)) ++ [ch '}']) := by
  have inner : spellFields pad fields = fields.map (spellEntry pad) := by
    induction fields with
    | nil => rfl
    | cons head tail ih => simp [spellFields, spellEntry, ih]
  rw [spell, inner]

theorem commaSpace : Str.ofString ", " = [ch ',', ch ' '] := by decide

theorem render_eq_spell (j : Json) : j.render = j.spell [ch ' '] := by
  induction j with
  | null => rfl
  | bool b => cases b <;> rfl
  | int n => rfl
  | float x => rfl
  | str s => rfl
  | arr items ih => rw [render_arr, spell_arr, List.map_congr_left ih, commaSpace]
  | obj fields ih =>
    have entries : ∀ entry ∈ fields, renderEntry entry = spellEntry [ch ' '] entry := by
      intro entry member
      rw [renderEntry, spellEntry, ih entry member]
      rfl
    rw [render_obj, spell_obj, List.map_congr_left entries, commaSpace]

end Json

def Blank (pad : Str) : Prop := ∀ c ∈ pad, isJsonSpace c

theorem skipSpace_blank {pad : Str} (blank : Blank pad) (s : Str) : skipSpace (pad ++ s) = skipSpace s := by
  induction pad with
  | nil => rfl
  | cons c pad ih =>
    have space := blank c List.mem_cons_self
    have rest := ih (fun d member => blank d (List.mem_cons_of_mem _ member))
    rw [List.cons_append, skipSpace, List.dropWhile_cons_of_pos space]
    exact rest

theorem skipSpace_cons {c : CodePoint} (solid : isJsonSpace c = false) (s : Str) :
    skipSpace (c :: s) = c :: s := by
  simp [skipSpace, solid]

/-- A text that starts a value: not blank, no closing bracket and no byte order mark. -/
def Solid (text : Str) : Prop :=
  ∃ c rest, text = c :: rest ∧ isJsonSpace c = false ∧ c ≠ ch ']' ∧ c ≠ ch '}' ∧
    c ≠ codePoint 0xFEFF

private theorem solid_of_number {text : Str} (some_left : text ≠ [])
    (inside : ∀ c ∈ text, isNumberChar c) : Solid text := by
  match text, some_left with
  | c :: rest, _ =>
    have number := inside c (List.mem_cons_self ..)
    refine ⟨c, rest, rfl, ?_, ?_, ?_, ?_⟩
    · simp only [isNumberChar, isDigit, Bool.or_eq_true, Bool.and_eq_true, decide_eq_true_iff,
        beq_iff_eq] at number
      simp only [isJsonSpace, Bool.or_eq_false_iff, beq_eq_false_iff_ne]
      rcases number with ((((⟨low, _⟩ | rfl) | rfl) | rfl) | rfl) | rfl
      · omega
      all_goals decide
    · rintro rfl; revert number; decide
    · rintro rfl; revert number; decide
    · rintro rfl; revert number; decide

theorem solid_cons {c : CodePoint} (rest : Str) (solid : isJsonSpace c = false)
    (square : c ≠ ch ']') (curly : c ≠ ch '}') (mark : c ≠ codePoint 0xFEFF) :
    Solid (c :: rest) :=
  ⟨c, rest, rfl, solid, square, curly, mark⟩

theorem solid_quoted (s : Str) : Solid (quoted s) :=
  solid_cons _ (by decide) (by decide) (by decide) (by decide)

theorem natText_text_ne_nil (n : Int) : intText n ≠ [] := by
  unfold intText
  split <;> simp [natText_ne_nil]

theorem decimal_text_ne_nil (d : Decimal) : d.text ≠ [] := by
  intro empty
  have read := parseNumber_decimal d
  rw [empty] at read
  exact absurd read (by rw [show parseNumber [] = none by decide]; simp)

theorem solid_spell (pad : Str) (j : Json) : Solid (j.spell pad) := by
  cases j with
  | null => exact solid_cons _ (by decide) (by decide) (by decide) (by decide)
  | bool b => cases b <;> exact solid_cons _ (by decide) (by decide) (by decide) (by decide)
  | int n => exact solid_of_number (natText_text_ne_nil n) (isNumberChar_intText n)
  | float x =>
    cases x with
    | finite d => exact solid_of_number (decimal_text_ne_nil d) (isNumberChar_decimal d)
    | infinity negative =>
      cases negative <;> exact solid_cons _ (by decide) (by decide) (by decide) (by decide)
    | nan => exact solid_cons _ (by decide) (by decide) (by decide) (by decide)
  | str s => exact solid_quoted s
  | arr items => exact solid_cons _ (by decide) (by decide) (by decide) (by decide)
  | obj fields => exact solid_cons _ (by decide) (by decide) (by decide) (by decide)

theorem solid_render (j : Json) : Solid (Json.render j) := by
  rw [Json.render_eq_spell]
  exact solid_spell _ j

def Stops (rest : Str) : Prop := ∀ c ∈ rest.head?, isNumberChar c = false

theorem Stops.cons {c : CodePoint} (stop : isNumberChar c = false) (rest : Str) :
    Stops (c :: rest) := by
  intro d first
  obtain rfl : c = d := by simpa using first
  exact stop

section Lists

variable {α : Type} {scan : Str → Option (α × Str)} {text : α → Str} {close : CodePoint} {pad : Str}

theorem skipSpace_joinWith {separator : Str} {head : Str} (solid : Solid head) (tail : List Str) (more : Str) :
    skipSpace (joinWith separator (head :: tail) ++ more) = joinWith separator (head :: tail) ++ more := by
  obtain ⟨c, front, shape, firm, _⟩ := solid
  have lead : ∃ u, joinWith separator (head :: tail) = c :: u := by
    cases tail <;> simp [joinWith, shape]
  obtain ⟨u, lead⟩ := lead
  rw [lead, List.cons_append, skipSpace_cons firm]

theorem scanList_join (blank : Blank pad) (bracket : isJsonSpace close = false) (stop : isNumberChar close = false)
    {items : List α} (some_left : items ≠ [])
    (element : ∀ item ∈ items, ∀ rest, Stops rest → scan (text item ++ rest) = some (item, rest))
    (solid : ∀ item ∈ items, Solid (text item)) {fuel : Nat} (enough : items.length ≤ fuel)
    (notComma : close ≠ ch ',') (rest : Str) :
    scanList scan close fuel (joinWith (ch ',' :: pad) (items.map text) ++ close :: rest) =
      some (items, rest) := by
  induction items generalizing fuel with
  | nil => exact (some_left rfl).elim
  | cons head tail ih =>
    obtain ⟨fuel, rfl⟩ : ∃ f, fuel = f + 1 := ⟨fuel - 1, by simp at enough; omega⟩
    have here := element head (List.mem_cons_self ..)
    cases tail with
    | nil =>
      simp only [List.map_cons, List.map_nil, joinWith, scanList,
        here _ (Stops.cons stop rest), skipSpace_cons bracket, if_true]
    | cons next tail =>
      have comma : isNumberChar (ch ',') = false := by decide
      have room : (next :: tail).length ≤ fuel := by simpa using enough
      have later := ih (by simp) (fun item member => element item (List.mem_cons_of_mem _ member))
        (fun item member => solid item (List.mem_cons_of_mem _ member)) room
      have skipped : skipSpace (pad ++ (joinWith (ch ',' :: pad) ((next :: tail).map text) ++ close :: rest)) =
          joinWith (ch ',' :: pad) ((next :: tail).map text) ++ close :: rest := by
        rw [skipSpace_blank blank]
        exact skipSpace_joinWith (solid next (by simp)) _ _
      have split : joinWith (ch ',' :: pad) ((head :: next :: tail).map text) ++ close :: rest =
          text head ++ ch ',' ::
            (pad ++ (joinWith (ch ',' :: pad) ((next :: tail).map text) ++ close :: rest)) := by
        simp [joinWith]
      have firm : isJsonSpace (ch ',') = false := by decide
      rw [split, scanList, here _ (Stops.cons comma _)]
      simp only [skipSpace_cons firm, notComma.symm, if_false, if_true, skipped, later]
      rfl

end Lists

theorem dictOf_unique {entries : List (Str × Json)} (unique : (Dict.keys entries).Nodup) :
    dictOf entries = entries := by
  have grow (front back : Dict Str Json) (unique : (Dict.keys (front ++ back)).Nodup) :
      back.foldl (fun d entry => Dict.set d entry.1 entry.2) front = front ++ back := by
    induction back generalizing front with
    | nil => simp
    | cons entry back ih =>
      have absent : entry.1 ∉ Dict.keys front := by
        intro member
        simp only [Dict.keys, List.map_append, List.map_cons] at unique member
        exact (List.nodup_append.mp unique).2.2 _ member _ (by simp) rfl
      rw [List.foldl_cons, Dict.set_absent absent, ih _ (by simpa using unique)]
      simp
  exact grow [] entries unique

private theorem length_joinWith (separator : Str) (texts : List Str)
    (some_left : ∀ text ∈ texts, text ≠ []) : texts.length ≤ (joinWith separator texts).length := by
  induction texts with
  | nil => simp
  | cons text texts ih =>
    have here := List.length_pos_iff.mpr (some_left text (by simp))
    have later := ih (fun text member => some_left text (List.mem_cons_of_mem _ member))
    cases texts with
    | nil =>
      simp only [joinWith, List.length_singleton]
      omega
    | cons next texts =>
      simp only [joinWith, List.length_append, List.length_cons] at later ⊢
      omega

theorem length_le_joinWith (separator : Str) {texts : List Str} {text : Str}
    (member : text ∈ texts) : text.length ≤ (joinWith separator texts).length := by
  induction texts with
  | nil => cases member
  | cons head texts ih =>
    cases texts with
    | nil =>
      obtain rfl := List.mem_singleton.mp member
      simp [joinWith]
    | cons next texts =>
      simp only [joinWith, List.length_append]
      rcases List.mem_cons.mp member with rfl | later
      · omega
      · have := ih later
        omega

private theorem Solid.ne_nil {text : Str} (solid : Solid text) : text ≠ [] := by
  obtain ⟨c, rest, rfl, _⟩ := solid
  simp

theorem scanBody_join {α : Type} {scan : Str → Option (α × Str)} {text : α → Str} {pad : Str}
    (blank : Blank pad) {close : CodePoint} (bracket : close = ch ']' ∨ close = ch '}') {items : List α} {fuel : Nat}
    (element : ∀ item ∈ items, ∀ rest, Stops rest → scan (text item ++ rest) = some (item, rest))
    (solid : ∀ item ∈ items, Solid (text item))
    (enough : (joinWith (ch ',' :: pad) (items.map text)).length ≤ fuel) (rest : Str) :
    scanBody scan close fuel (joinWith (ch ',' :: pad) (items.map text) ++ close :: rest) =
      some (items, rest) := by
  have firm : isJsonSpace close = false := by rcases bracket with rfl | rfl <;> decide
  have stop : isNumberChar close = false := by rcases bracket with rfl | rfl <;> decide
  have notComma : close ≠ ch ',' := by rcases bracket with rfl | rfl <;> decide
  cases items with
  | nil => simp [scanBody, joinWith, skipSpace_cons firm]
  | cons head tail =>
    have count := length_joinWith (ch ',' :: pad) ((head :: tail).map text) (by
      intro t member
      obtain ⟨item, present, rfl⟩ := List.mem_map.mp member
      exact (solid item present).ne_nil)
    have room : (head :: tail).length ≤ fuel := by
      simp only [List.length_map] at count
      omega
    have whole := scanList_join blank firm stop (List.cons_ne_nil head tail) element solid room notComma rest
    obtain ⟨c, front, shape, space, square, curly, _⟩ := solid head (by simp)
    have lead : ∃ u, joinWith (ch ',' :: pad) ((head :: tail).map text) ++ close :: rest =
        c :: u := by
      cases tail <;> simp [joinWith, shape]
    obtain ⟨u, lead⟩ := lead
    rw [lead] at whole ⊢
    have other : c ≠ close := by rcases bracket with rfl | rfl <;> assumption
    simp only [scanBody, skipSpace_cons space, other, if_false, whole]

private theorem scanLiteral_self (text : Str) (value : Json) (rest : Str) :
    scanLiteral text value (text ++ rest) = some (value, rest) := by
  simp [scanLiteral]

private theorem scanValue_number {token rest : Str} {value : Json} (fuel : Nat)
    (some_left : token ≠ []) (inside : ∀ c ∈ token, isNumberChar c) (stops : Stops rest)
    (read : parseNumber token = some value) :
    scanValue (fuel + 1) (token ++ rest) = some (value, rest) := by
  have whole := scanAtom_number some_left inside stops read
  match token, some_left with
  | c :: token, _ =>
    have number := inside c (List.mem_cons_self ..)
    have no_quote : c ≠ ch '"' := by rintro rfl; revert number; decide
    have no_brace : c ≠ ch '{' := by rintro rfl; revert number; decide
    have no_bracket : c ≠ ch '[' := by rintro rfl; revert number; decide
    rw [List.cons_append] at whole ⊢
    refine (if_neg no_quote).trans ?_
    rw [if_neg no_brace, if_neg no_bracket, whole]

private theorem scanValue_quoted (fuel : Nat) (s rest : Str) :
    scanValue (fuel + 1) (quoted s ++ rest) = some (.str s, rest) := by
  have shape : quoted s ++ rest = ch '"' :: (s.flatMap escapeChar ++ ch '"' :: rest) := by
    simp [quoted]
  rw [shape]
  change (scanString (s.flatMap escapeChar ++ ch '"' :: rest)).map (Prod.map Json.str id) = _
  rw [scanString_quoted]
  rfl

private theorem scanValue_bracket (fuel : Nat) (rest : Str) :
    scanValue (fuel + 1) (ch '[' :: rest) =
      (scanBody (scanValue fuel) (ch ']') fuel rest).map (Prod.map Json.arr id) := rfl

theorem scanValue_brace (fuel : Nat) (rest : Str) :
    scanValue (fuel + 1) (ch '{' :: rest) =
      (scanBody (scanEntry (scanValue fuel)) (ch '}') fuel rest).map
        (Prod.map (fun entries => Json.obj (dictOf entries)) id) := rfl

private theorem scanEntry_spell {scan : Str → Option (Json × Str)} {pad : Str} (blank : Blank pad)
    {entry : Str × Json} {rest : Str} (value : scan (entry.2.spell pad ++ rest) = some (entry.2, rest)) :
    scanEntry scan (Json.spellEntry pad entry ++ rest) = some (entry, rest) := by
  obtain ⟨c, front, shape, firm, _⟩ := solid_spell pad entry.2
  have colon : isJsonSpace (ch ':') = false := by decide
  have lead : skipSpace (pad ++ (entry.2.spell pad ++ rest)) = entry.2.spell pad ++ rest := by
    rw [skipSpace_blank blank, shape, List.cons_append, skipSpace_cons firm]
  have parts : Json.spellEntry pad entry ++ rest = ch '"' :: (entry.1.flatMap escapeChar ++
      ch '"' :: ch ':' :: (pad ++ (entry.2.spell pad ++ rest))) := by
    simp [Json.spellEntry, quoted]
  simp only [parts, scanEntry, if_true, scanString_quoted, skipSpace_cons colon, lead, value]
  rfl

theorem solid_spellEntry (pad : Str) (entry : Str × Json) : Solid (Json.spellEntry pad entry) := by
  have shape : ∃ rest, Json.spellEntry pad entry = ch '"' :: rest := by
    simp [Json.spellEntry, quoted]
  obtain ⟨rest, shape⟩ := shape
  rw [shape]
  exact solid_cons _ (by decide) (by decide) (by decide) (by decide)

theorem scanValue_spell {pad : Str} (blank : Blank pad) {j : Json} (sound : j.valid) {fuel : Nat}
    (enough : (j.spell pad).length ≤ fuel) {rest : Str} (stops : Stops rest) :
    scanValue (fuel + 1) (j.spell pad ++ rest) = some (j, rest) := by
  induction j generalizing fuel rest with
  | null => exact scanLiteral_self "null" _ rest
  | bool b =>
    cases b with
    | true => exact scanLiteral_self "true" _ rest
    | false => exact scanLiteral_self "false" _ rest
  | int n =>
    exact scanValue_number fuel (natText_text_ne_nil n) (isNumberChar_intText n) stops
      (parseNumber_intText n)
  | float x =>
    cases x with
    | finite d =>
      exact scanValue_number fuel (decimal_text_ne_nil d) (isNumberChar_decimal d) stops
        (parseNumber_decimal d)
    | infinity negative =>
      cases negative with
      | true => exact scanLiteral_self "-Infinity" _ rest
      | false => exact scanLiteral_self "Infinity" _ rest
    | nan => exact scanLiteral_self "NaN" _ rest
  | str s => exact scanValue_quoted fuel s rest
  | arr items ih =>
    rw [Json.valid_arr] at sound
    rw [Json.spell_arr] at enough ⊢
    simp only [List.length_cons, List.length_append, List.length_nil] at enough
    obtain ⟨fuel, rfl⟩ : ∃ f, fuel = f + 1 := ⟨fuel - 1, by omega⟩
    have body := @scanBody_join Json (scanValue (fuel + 1)) (Json.spell pad) pad blank (ch ']') (.inl rfl) items
      (fuel + 1)
      (fun item member rest stops => ih item member (sound item member)
        (by
          have := length_le_joinWith (ch ',' :: pad) (List.mem_map_of_mem member (f := Json.spell pad))
          omega) stops)
      (fun item _ => solid_spell pad item) (by omega) rest
    simp only [List.cons_append, List.append_assoc, List.nil_append]
    rw [scanValue_bracket, body]
    rfl
  | obj fields ih =>
    rw [Json.valid_obj] at sound
    rw [Json.spell_obj] at enough ⊢
    simp only [List.length_cons, List.length_append, List.length_nil] at enough
    obtain ⟨fuel, rfl⟩ : ∃ f, fuel = f + 1 := ⟨fuel - 1, by omega⟩
    have body := @scanBody_join (Str × Json) (scanEntry (scanValue (fuel + 1))) (Json.spellEntry pad) pad blank
      (ch '}') (.inr rfl) fields (fuel + 1)
      (fun entry member rest stops => scanEntry_spell blank (ih entry member (sound.2 entry member)
        (by
          have := length_le_joinWith (ch ',' :: pad)
            (List.mem_map_of_mem member (f := Json.spellEntry pad))
          simp only [Json.spellEntry, List.length_append, List.length_cons] at this
          omega) stops))
      (fun entry _ => solid_spellEntry pad entry) (by omega) rest
    simp only [List.cons_append, List.append_assoc, List.nil_append]
    rw [scanValue_brace, body]
    simp [dictOf_unique sound.1]

theorem scanValue_render {j : Json} (sound : j.valid) {fuel : Nat}
    (enough : j.render.length ≤ fuel) {rest : Str} (stops : Stops rest) :
    scanValue (fuel + 1) (j.render ++ rest) = some (j, rest) := by
  have blank : Blank [ch ' '] := by simp [Blank]; decide
  rw [Json.render_eq_spell] at enough ⊢
  exact scanValue_spell blank sound enough stops

/-- `scan'` finds what `scan` found, also when more text follows. -/
def Extends {α : Type} (scan scan' : Str → Option (α × Str)) : Prop :=
  ∀ s value rest more, scan s = some (value, rest) → rest ≠ [] →
    scan' (s ++ more) = some (value, rest ++ more)

private theorem dropWhile_append {p : CodePoint → Bool} {s : Str} (stopped : s.dropWhile p ≠ [])
    (more : Str) : (s ++ more).dropWhile p = s.dropWhile p ++ more ∧
      (s ++ more).takeWhile p = s.takeWhile p := by
  induction s with
  | nil => exact (stopped rfl).elim
  | cons c s ih =>
    by_cases pass : p c
    · simp only [List.dropWhile_cons, pass, if_true] at stopped
      simpa [pass] using ih stopped
    · simp [pass]

theorem skipSpace_append {s : Str} (stopped : skipSpace s ≠ []) (more : Str) :
    skipSpace (s ++ more) = skipSpace s ++ more :=
  (dropWhile_append stopped more).1

private theorem scanUnits_append {s : Str} {units : List (Bool × CodePoint)} {rest : Str}
    (found : scanUnits s = some (units, rest)) (more : Str) :
    scanUnits (s ++ more) = some (units, rest ++ more) := by
  induction s using scanUnits.induct generalizing units rest with
  | case1 => simp [scanUnits] at found
  | case2 tail =>
    rw [scanUnits.eq_def] at found
    simp only [if_true, Option.some.injEq, Prod.mk.injEq] at found
    obtain ⟨rfl, rfl⟩ := found
    rw [List.cons_append, scanUnits.eq_def]
    simp only [if_true]
  | case3 slash => simp [scanUnits] at found
  | case4 x y z w tail letter code slash ih =>
    rw [scanUnits.eq_def] at found
    simp only [slash, if_false, if_true, code, Option.map_eq_some_iff] at found
    obtain ⟨⟨inner, rest'⟩, read, same⟩ := found
    obtain ⟨rfl, rfl⟩ := Prod.mk.inj same
    rw [List.cons_append, scanUnits.eq_def]
    simp only [List.cons_append, slash, if_false, if_true, code, ih read]
    rfl
  | case5 x y z w tail code slash =>
    rw [scanUnits.eq_def] at found
    simp [code] at found
  | case6 tail short slash =>
    rw [scanUnits.eq_def] at found
    simp only [slash, if_false, if_true] at found
    cases found
  | case7 e tail other letter code slash ih =>
    rw [scanUnits.eq_def] at found
    simp only [slash, other, if_false, if_true, code, Option.map_eq_some_iff] at found
    obtain ⟨⟨inner, rest'⟩, read, same⟩ := found
    obtain ⟨rfl, rfl⟩ := Prod.mk.inj same
    rw [List.cons_append, scanUnits.eq_def]
    simp only [List.cons_append, slash, other, if_false, if_true, code, ih read]
    rfl
  | case8 e tail other code slash =>
    rw [scanUnits.eq_def] at found
    simp [other, code] at found
  | case9 c tail noQuote noSlash low =>
    rw [scanUnits.eq_def] at found
    simp only [noQuote, noSlash, low, if_false, if_true] at found
    cases found
  | case10 c tail noQuote noSlash high ih =>
    rw [scanUnits.eq_def] at found
    simp only [noQuote, noSlash, high, if_false, Option.map_eq_some_iff] at found
    obtain ⟨⟨inner, rest'⟩, read, same⟩ := found
    obtain ⟨rfl, rfl⟩ := Prod.mk.inj same
    rw [List.cons_append, scanUnits.eq_def]
    simp only [noQuote, noSlash, high, if_false, ih read]
    rfl

private theorem scanString_append {s text rest : Str} (found : scanString s = some (text, rest))
    (more : Str) : scanString (s ++ more) = some (text, rest ++ more) := by
  obtain ⟨⟨units, rest'⟩, read, same⟩ := Option.map_eq_some_iff.mp found
  obtain ⟨rfl, rfl⟩ := Prod.mk.inj same
  rw [scanString, scanUnits_append read]
  rfl

private theorem scanLiteral_append {text s rest : Str} {value result : Json}
    (found : scanLiteral text value s = some (result, rest)) (more : Str) :
    scanLiteral text value (s ++ more) = some (result, rest ++ more) := by
  unfold scanLiteral at found ⊢
  split at found
  · rename_i lead
    obtain ⟨tail, rfl⟩ := List.isPrefixOf_iff_prefix.mp lead
    obtain ⟨rfl, rfl⟩ := Prod.mk.inj (Option.some.inj found)
    simp
  · cases found

private theorem scanNumber_extends : Extends scanNumber scanNumber := by
  intro s value rest more found left
  obtain ⟨number, read, same⟩ := Option.map_eq_some_iff.mp found
  obtain ⟨rfl, rfl⟩ := Prod.mk.inj same
  obtain ⟨back, front⟩ := dropWhile_append left more
  rw [scanNumber, front, back, read]
  rfl

private theorem scanAtom_extends : Extends scanAtom scanAtom := by
  intro s value rest more found left
  have alone : scanAtom [ch '-'] = none := by decide
  match s with
  | [] => cases found
  | c :: tail =>
    have second : (c = ch '-' ∧ (tail ++ more).head? = some (ch 'I')) ↔
        (c = ch '-' ∧ tail.head? = some (ch 'I')) := by
      cases tail with
      | cons d tail => simp
      | nil =>
        have other : c ≠ ch '-' := by rintro rfl; rw [alone] at found; cases found
        simp [other]
    simp only [scanAtom, List.cons_append, second] at found ⊢
    rw [← List.cons_append]
    split_ifs at found ⊢ with first
    · exact scanLiteral_append found more
    · exact scanLiteral_append found more
    · exact scanLiteral_append found more
    · exact scanLiteral_append found more
    · exact scanLiteral_append found more
    · exact scanLiteral_append found more
    · exact scanNumber_extends _ _ _ more found left

private theorem scanList_append {α : Type} {scan scan' : Str → Option (α × Str)}
    {close : CodePoint} (stable : Extends scan scan') (empty : scan [] = none)
    {fuel fuel' : Nat} (le : fuel ≤ fuel') {s : Str} {items : List α} {rest : Str}
    (found : scanList scan close fuel s = some (items, rest)) (more : Str) :
    scanList scan' close fuel' (s ++ more) = some (items, rest ++ more) := by
  induction fuel, s using scanList.induct scan close generalizing fuel' items rest with
  | case1 s => cases found
  | case2 fuel s missing => simp [scanList, missing] at found
  | case3 fuel s head after read blank => simp [scanList, read, blank] at found
  | case4 fuel s head after read tail closed =>
    obtain ⟨fuel', rfl⟩ : ∃ f, fuel' = f + 1 := ⟨fuel' - 1, by omega⟩
    simp only [scanList, read, closed, if_true, Option.some.injEq, Prod.mk.injEq] at found
    obtain ⟨rfl, rfl⟩ := found
    have left : after ≠ [] := by rintro rfl; simp [skipSpace] at closed
    simp only [scanList, stable s head after more read left,
      skipSpace_append (by rw [closed]; simp), closed, List.cons_append, if_true]
  | case5 fuel s head after read tail comma other ih =>
    obtain ⟨fuel', rfl⟩ : ∃ f, fuel' = f + 1 := ⟨fuel' - 1, by omega⟩
    simp only [scanList, read, comma, other, if_false, if_true, Option.map_eq_some_iff] at found
    obtain ⟨⟨inner, rest'⟩, later, same⟩ := found
    obtain ⟨rfl, rfl⟩ := Prod.mk.inj same
    have left : after ≠ [] := by rintro rfl; simp [skipSpace] at comma
    have open_tail : skipSpace tail ≠ [] := by
      intro blank
      rw [blank] at later
      cases fuel <;> simp [scanList, empty] at later
    have more_read := ih (Nat.le_of_succ_le_succ le) later
    rw [← skipSpace_append open_tail] at more_read
    simp only [scanList, stable s head after more read left,
      skipSpace_append (show skipSpace after ≠ [] by rw [comma]; simp), comma, List.cons_append,
      other, if_false, if_true, more_read]
    rfl
  | case6 fuel s head after read c tail shape noClose noComma =>
    simp [scanList, read, shape, noClose, noComma] at found

private theorem scanBody_append {α : Type} {scan scan' : Str → Option (α × Str)}
    {close : CodePoint} (stable : Extends scan scan') (empty : scan [] = none)
    {fuel fuel' : Nat} (le : fuel ≤ fuel') {s : Str} {items : List α} {rest : Str}
    (found : scanBody scan close fuel s = some (items, rest)) (more : Str) :
    scanBody scan' close fuel' (s ++ more) = some (items, rest ++ more) := by
  unfold scanBody at found ⊢
  cases shape : skipSpace s with
  | nil => simp [shape] at found
  | cons c tail =>
    rw [skipSpace_append (by rw [shape]; simp), shape, List.cons_append]
    simp only [shape] at found ⊢
    split at found
    · rename_i closed
      obtain ⟨rfl, rfl⟩ := Prod.mk.inj (Option.some.inj found)
      rw [if_pos closed]
    · rename_i other
      rw [if_neg other, ← List.cons_append]
      exact scanList_append stable empty le found more

private theorem scanEntry_extends {scan scan' : Str → Option (Json × Str)}
    (stable : Extends scan scan') (empty : scan [] = none) :
    Extends (scanEntry scan) (scanEntry scan') := by
  intro s entry rest more found left
  match s with
  | [] => cases found
  | c :: tail =>
    simp only [scanEntry, List.cons_append] at found ⊢
    split at found
    · rename_i quote
      rw [if_pos quote]
      cases key : scanString tail with
      | none => simp [key] at found
      | some parsed =>
        obtain ⟨text, after⟩ := parsed
        rw [scanString_append key more]
        simp only [key] at found ⊢
        cases shape : skipSpace after with
        | nil => simp [shape] at found
        | cons d tail' =>
          rw [skipSpace_append (by rw [shape]; simp), shape, List.cons_append]
          simp only [shape] at found ⊢
          split at found
          · rename_i colon
            rw [if_pos colon]
            obtain ⟨⟨value, rest'⟩, read, same⟩ := Option.map_eq_some_iff.mp found
            obtain ⟨rfl, rfl⟩ := Prod.mk.inj same
            have solid : skipSpace tail' ≠ [] := by
              intro blank; rw [blank, empty] at read; cases read
            rw [skipSpace_append solid, stable _ _ _ more read left]
            rfl
          · cases found
    · cases found

theorem scanValue_nil (fuel : Nat) : scanValue fuel [] = none := by
  cases fuel <;> rfl

theorem scanValue_append {fuel fuel' : Nat} (le : fuel ≤ fuel') {s : Str} {value : Json}
    {rest : Str} (found : scanValue fuel s = some (value, rest)) (more : Str)
    (closed : rest ≠ [] ∨ s.head? = some (ch '{')) :
    scanValue fuel' (s ++ more) = some (value, rest ++ more) := by
  induction fuel generalizing fuel' s value rest more with
  | zero => cases found
  | succ fuel ih =>
    obtain ⟨fuel', rfl⟩ : ∃ f, fuel' = f + 1 := ⟨fuel' - 1, by omega⟩
    have inner : fuel ≤ fuel' := by omega
    have stable : Extends (scanValue fuel) (scanValue fuel') :=
      fun s value rest more found left => ih inner found more (.inl left)
    match s with
    | [] => cases found
    | c :: tail =>
      rw [scanValue] at found
      rw [List.cons_append, scanValue]
      split at found
      · rename_i quote
        rw [if_pos quote]
        obtain ⟨⟨text, rest'⟩, read, same⟩ := Option.map_eq_some_iff.mp found
        obtain ⟨rfl, rfl⟩ := Prod.mk.inj same
        rw [scanString_append read]
        rfl
      · rename_i noQuote
        rw [if_neg noQuote]
        split at found
        · rename_i brace
          rw [if_pos brace]
          obtain ⟨⟨entries, rest'⟩, read, same⟩ := Option.map_eq_some_iff.mp found
          obtain ⟨rfl, rfl⟩ := Prod.mk.inj same
          rw [scanBody_append (scanEntry_extends stable (scanValue_nil _)) rfl inner read]
          rfl
        · rename_i noBrace
          rw [if_neg noBrace]
          split at found
          · rename_i bracket
            rw [if_pos bracket]
            obtain ⟨⟨items, rest'⟩, read, same⟩ := Option.map_eq_some_iff.mp found
            obtain ⟨rfl, rfl⟩ := Prod.mk.inj same
            rw [scanBody_append stable (scanValue_nil _) inner read]
            rfl
          · rename_i noBracket
            rw [if_neg noBracket]
            have left : rest ≠ [] := closed.resolve_right (by simpa using noBrace)
            exact scanAtom_extends _ _ _ more found left

theorem loads_spell {pad : Str} (blank : Blank pad) {j : Json} (sound : j.valid) :
    Json.loads (j.spell pad) = some j := by
  have whole := scanValue_spell blank sound (le_refl _) (show Stops [] by simp [Stops])
  obtain ⟨c, front, shape, firm, _, _, mark⟩ := solid_spell pad j
  have lead : skipSpace (j.spell pad) = j.spell pad := by rw [shape, skipSpace_cons firm]
  have bom : ¬(j.spell pad).head? = some (codePoint 0xFEFF) := by
    rw [shape]
    simpa using mark
  rw [List.append_nil] at whole
  rw [Json.loads, if_neg bom, lead, whole]
  rfl

private theorem skipSpace_render (j : Json) (rest : Str) :
    skipSpace (j.render ++ rest) = j.render ++ rest := by
  obtain ⟨c, front, shape, blank, _⟩ := solid_render j
  rw [shape, List.cons_append, skipSpace_cons blank]

private theorem head_render_ne_bom (j : Json) (rest : Str) :
    (j.render ++ rest).head? ≠ some (codePoint 0xFEFF) := by
  obtain ⟨c, front, shape, _, _, _, mark⟩ := solid_render j
  simpa [shape] using mark

theorem loads_dumps {j : Json} (sound : j.valid) : Json.loads j.dumps = some j.sortKeys := by
  have whole := scanValue_render (Json.valid_sortKeys sound) (le_refl _)
    (show Stops [] by simp [Stops])
  have lead := skipSpace_render j.sortKeys []
  have bom := head_render_ne_bom j.sortKeys []
  rw [List.append_nil] at whole lead bom
  rw [Json.loads, Json.dumps, if_neg bom, lead, whole]
  simp [skipSpace]

theorem loads_dumps_append {fields : Dict Str Json} (sound : (Json.obj fields).valid) {more : Str}
    (extra : skipSpace more ≠ []) : Json.loads ((Json.obj fields).dumps ++ more) = none := by
  have whole := scanValue_render (Json.valid_sortKeys sound) (le_refl _)
    (show Stops [] by simp [Stops])
  rw [List.append_nil] at whole
  have longer := scanValue_append
    (show _ ≤ ((Json.obj fields).dumps ++ more).length + 1 by simp [Json.dumps]) whole more (.inr (by simp))
  rw [Json.dumps] at longer ⊢
  rw [Json.loads, if_neg (head_render_ne_bom _ _), skipSpace_render, longer]
  simp [extra]

theorem loads_front {text front back : Str} {value : Json} (opened : text.head? = some (ch '{'))
    (full : scanValue (text.length + 1) text = some (value, [])) (whole : text = front ++ back) (proper : back ≠ []) :
    Json.loads front = none := by
  have brace : ch '{' ≠ codePoint 0xFEFF := by decide
  have blank : isJsonSpace (ch '{') = false := by decide
  match front with
  | [] => decide
  | c :: front =>
    obtain rfl : c = ch '{' := by simpa [whole] using opened
    rw [Json.loads, if_neg (by simpa using brace), skipSpace_cons blank]
    cases read : scanValue ((ch '{' :: front).length + 1) (ch '{' :: front) with
    | none => rfl
    | some parsed =>
      obtain ⟨value, rest⟩ := parsed
      have le : (ch '{' :: front).length + 1 ≤ (ch '{' :: front ++ back).length + 1 := by simp
      have longer := scanValue_append le read back (.inr rfl)
      rw [← whole, full] at longer
      have empty := (Prod.mk.inj (Option.some.inj longer)).2
      exact (proper (List.append_eq_nil_iff.mp empty.symm).2).elim

theorem loads_dumps_front {fields : Dict Str Json} (sound : (Json.obj fields).valid)
    {front back : Str} (whole : (Json.obj fields).dumps = front ++ back) (proper : back ≠ []) :
    Json.loads front = none := by
  have full := scanValue_render (Json.valid_sortKeys sound) (le_refl _)
    (show Stops [] by simp [Stops])
  rw [List.append_nil, ← Json.dumps] at full
  refine loads_front ?_ full whole proper
  rw [Json.dumps, Json.sortKeys_obj, Json.render_obj]
  rfl

private theorem printable_quoted (s : Str) : ∀ c ∈ quoted s, 0x20 ≤ c.val := by
  have letters : shortEscapes.all (fun entry => decide (0x20 ≤ entry.2.val)) := by decide
  have digits : ∀ n < 16, 0x20 ≤ (hexDigit n).val := by decide
  have quote : 0x20 ≤ (ch '"').val := by decide
  have slash : 0x20 ≤ (ch '\\').val := by decide
  have letter : 0x20 ≤ (ch 'u').val := by decide
  have zero : 0x20 ≤ (ch '0').val := by decide
  intro c member
  simp only [quoted, List.mem_cons, List.mem_append, List.mem_flatMap, List.not_mem_nil,
    or_false] at member
  rcases member with rfl | ⟨source, _, inside⟩ | rfl
  · exact quote
  · unfold escapeChar at inside
    split at inside
    · rename_i escaped short
      have row := List.all_eq_true.mp letters _ (Dict.mem_of_get? short)
      simp only [List.mem_cons, List.not_mem_nil, or_false] at inside
      rcases inside with rfl | rfl
      · exact slash
      · simpa using row
    · split at inside
      · rename_i low
        simp only [List.mem_cons, List.not_mem_nil, or_false] at inside
        rcases inside with rfl | rfl | rfl | rfl | rfl | rfl
        · exact slash
        · exact letter
        · exact zero
        · exact zero
        · exact digits _ (by omega)
        · exact digits _ (by omega)
      · rename_i high
        obtain rfl := List.mem_singleton.mp inside
        omega
  · exact quote

private theorem printable_number {text : Str} (inside : ∀ c ∈ text, isNumberChar c) :
    ∀ c ∈ text, 0x20 ≤ c.val := by
  intro c member
  have number := inside c member
  simp only [isNumberChar, isDigit, Bool.or_eq_true, Bool.and_eq_true, decide_eq_true_iff,
    beq_iff_eq] at number
  rcases number with ((((⟨low, _⟩ | rfl) | rfl) | rfl) | rfl) | rfl
  · omega
  all_goals decide

private theorem printable_join {texts : List Str}
    (inside : ∀ text ∈ texts, ∀ c ∈ text, 0x20 ≤ c.val) :
    ∀ c ∈ joinWith ", " texts, 0x20 ≤ c.val := by
  have separator : ∀ c ∈ Str.ofString ", ", 0x20 ≤ c.val := by
    rw [show Str.ofString ", " = [ch ',', ch ' '] by decide]
    simp only [List.mem_cons, List.not_mem_nil, or_false, forall_eq_or_imp, forall_eq]
    decide
  induction texts with
  | nil => simp [joinWith]
  | cons text texts ih =>
    have later := ih (fun text member => inside text (List.mem_cons_of_mem _ member))
    have here := inside text (List.mem_cons_self ..)
    cases texts with
    | nil => simpa [joinWith] using here
    | cons next texts =>
      intro c member
      simp only [joinWith, List.mem_append] at member later
      rcases member with (first | middle) | last
      · exact here c first
      · exact separator c middle
      · exact later c last

private theorem printable_literal {text : Str} (all : text.all (fun c => 0x20 ≤ c.val)) :
    ∀ c ∈ text, 0x20 ≤ c.val := by
  intro c member
  simpa using List.all_eq_true.mp all c member

theorem printable_render (j : Json) : ∀ c ∈ j.render, 0x20 ≤ c.val := by
  induction j with
  | null => exact printable_literal (by decide)
  | bool b => cases b <;> exact printable_literal (by decide)
  | int n => exact printable_number (isNumberChar_intText n)
  | float x =>
    cases x with
    | finite d => exact printable_number (isNumberChar_decimal d)
    | infinity negative => cases negative <;> exact printable_literal (by decide)
    | nan => exact printable_literal (by decide)
  | str s => exact printable_quoted s
  | arr items ih =>
    have inside : ∀ c ∈ joinWith ", " (items.map Json.render), 0x20 ≤ c.val := by
      apply printable_join
      intro text member
      obtain ⟨item, present, rfl⟩ := List.mem_map.mp member
      exact ih item present
    have left : 0x20 ≤ (ch '[').val := by decide
    have right : 0x20 ≤ (ch ']').val := by decide
    intro c member
    simp only [Json.render_arr, List.mem_cons, List.mem_append, List.not_mem_nil,
      or_false] at member
    rcases member with rfl | member | rfl
    · exact left
    · exact inside c member
    · exact right
  | obj fields ih =>
    have colon : 0x20 ≤ (ch ':').val := by decide
    have space : 0x20 ≤ (ch ' ').val := by decide
    have inside : ∀ c ∈ joinWith ", " (fields.map Json.renderEntry), 0x20 ≤ c.val := by
      apply printable_join
      intro text member
      obtain ⟨entry, present, rfl⟩ := List.mem_map.mp member
      intro c member
      simp only [Json.renderEntry, List.mem_append, List.mem_cons] at member
      rcases member with key | rfl | rfl | value
      · exact printable_quoted _ c key
      · exact colon
      · exact space
      · exact ih entry present c value
    have left : 0x20 ≤ (ch '{').val := by decide
    have right : 0x20 ≤ (ch '}').val := by decide
    intro c member
    simp only [Json.render_obj, List.mem_cons, List.mem_append, List.not_mem_nil,
      or_false] at member
    rcases member with rfl | member | rfl
    · exact left
    · exact inside c member
    · exact right

end PyText
